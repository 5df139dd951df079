import ColumnDecl.Proofs.RoundTrip
import ColumnDecl.Proofs.Spans

/-
Formatting changes only blanks.

The significant characters of a declaration are its characters without the blanks that stand outside every length
argument (`significant`): the blanks that the grammar lets a writer place freely. They are a function of the shapes of
its tree alone (`Shape.listBare`), so a declaration and its canonical text, whose trees have the same shapes, have the
same significant characters.

- `FieldRun.within`: the tokens of a run lie, at every depth, within its text;
- `FieldRun.dropBlanks`: a run of the reader, with the blanks outside its length arguments dropped, is the bare text of
  its shapes, case by case on the branches of the reader;
- `tokenize_significant`: the significant characters of an accepted declaration are the bare text of its tree;
- `render_keeps_significant`: rendering the tree of an accepted declaration gives a text with the same significant
  characters, exactly when the tree nests at most `Field.renderDepth` levels; deeper trees are not rendered
  (`deep_declaration_not_formatted`).
-/

namespace ColumnDecl

open Scan Grammar
open Token (listShape)

/-! ## The significant characters of a declaration -/

/-- Whether the token is a length argument whose span holds the offset `i`. -/
def Token.holdsLengthAt (i : Nat) : Token → Bool
  | .leaf .length _ sp => decide (sp.start ≤ i ∧ (i : Int) < sp.stop)
  | .leaf .name _ _ | .leaf .type _ _ | .leaf .delimiter _ _ | .nested _ _ => false

/-- Whether one of the tokens is a length argument whose span holds the offset `i`. -/
def inLength (ts : List Token) (i : Nat) : Bool := ts.any (Token.holdsLengthAt i)

/-- The characters of `cs`, which starts at offset `pos`, without the blanks at the offsets that `keep` rejects. -/
def dropBlanks (keep : Nat → Bool) : Nat → List Char → List Char
  | _, [] => []
  | pos, c :: cs => if isBlank c && !keep pos then dropBlanks keep (pos + 1) cs else c :: dropBlanks keep (pos + 1) cs

/-- The characters of a declaration without the blanks outside its length arguments, or why it is refused. -/
def significant (d : String) : Except Malformed (List Char) :=
  (tokenize d).map fun ts => dropBlanks (inLength (Token.walk ts)) 0 d.toList

mutual
/-- the characters of a shape that stand in every text of it: lexemes, parentheses, commas and angle brackets -/
def Shape.bare : Shape → List Char
  | .leaf .name n => n.toList
  | .leaf .type ty => ty.toList
  | .leaf .length l => '(' :: (l.toList ++ [')'])
  | .leaf .delimiter _ => [',']
  | .nested cs => '<' :: (Shape.listBare cs ++ ['>'])

/-- the characters of shapes that stand in every text of them, one shape after the other -/
def Shape.listBare : List Shape → List Char
  | [] => []
  | s :: ss => s.bare ++ Shape.listBare ss
end

namespace Shape

@[simp] theorem listBare_nil : listBare [] = [] := by simp [listBare]

@[simp] theorem listBare_cons {s : Shape} {ss : List Shape} : listBare (s :: ss) = s.bare ++ listBare ss := by
  simp [listBare]

@[simp] theorem listBare_append {a b : List Shape} : listBare (a ++ b) = listBare a ++ listBare b := by
  induction a with
  | nil => simp
  | cons s a ih => simp [ih]

@[simp] theorem bare_leaf_name {n : String} : (Shape.leaf .name n).bare = n.toList := by simp [bare]

@[simp] theorem bare_leaf_type {ty : String} : (Shape.leaf .type ty).bare = ty.toList := by simp [bare]

@[simp] theorem bare_leaf_length {l : String} : (Shape.leaf .length l).bare = '(' :: (l.toList ++ [')']) := by
  simp [bare]

@[simp] theorem bare_leaf_delimiter {d : String} : (Shape.leaf .delimiter d).bare = [','] := by simp [bare]

@[simp] theorem bare_nested {cs : List Shape} : (Shape.nested cs).bare = '<' :: (listBare cs ++ ['>']) := by
  simp [bare]

end Shape

/-! ## Dropping blanks -/

section Drop

variable (keep : Nat → Bool)

@[simp] theorem dropBlanks_nil (pos : Nat) : dropBlanks keep pos [] = [] := by simp [dropBlanks]

theorem dropBlanks_cons (pos : Nat) (c : Char) (cs : List Char) :
    dropBlanks keep pos (c :: cs) =
      if isBlank c && !keep pos then dropBlanks keep (pos + 1) cs else c :: dropBlanks keep (pos + 1) cs := by
  simp [dropBlanks]

theorem dropBlanks_append (pos : Nat) (a b : List Char) :
    dropBlanks keep pos (a ++ b) = dropBlanks keep pos a ++ dropBlanks keep (pos + a.length) b := by
  induction a generalizing pos with
  | nil => simp
  | cons c a ih =>
    rw [List.cons_append, dropBlanks_cons, dropBlanks_cons, ih, List.length_cons, ← Nat.add_assoc,
      Nat.add_right_comm pos 1]
    split <;> simp

/-- A character that is not blank stays, wherever it stands. -/
theorem dropBlanks_append_cons {pos : Nat} {a r : List Char} {c : Char} (hc : isBlank c = false) :
    dropBlanks keep pos (a ++ c :: r) = dropBlanks keep pos a ++ c :: dropBlanks keep (pos + a.length + 1) r := by
  rw [dropBlanks_append, dropBlanks_cons, hc]
  rfl

/-- Where `keep` rejects every offset, every blank goes. -/
theorem dropBlanks_of_false {pos : Nat} {l : List Char} (h : ∀ i, pos ≤ i → i < pos + l.length → keep i = false) :
    dropBlanks keep pos l = l.filter (fun c => !isBlank c) := by
  induction l generalizing pos with
  | nil => simp
  | cons c l ih =>
    have hpos := h pos (Nat.le_refl pos) (by simp)
    have hrest : dropBlanks keep (pos + 1) l = l.filter (fun c => !isBlank c) :=
      ih fun i h1 h2 => h i (by omega) (by simp at h2 ⊢; omega)
    rw [dropBlanks_cons, hrest, hpos, List.filter_cons]
    cases isBlank c <;> simp

/-- Where `keep` accepts every offset, nothing goes. -/
theorem dropBlanks_of_true {pos : Nat} {l : List Char} (h : ∀ i, pos ≤ i → i < pos + l.length → keep i = true) :
    dropBlanks keep pos l = l := by
  induction l generalizing pos with
  | nil => simp
  | cons c l ih =>
    have hpos := h pos (Nat.le_refl pos) (by simp)
    have hrest : dropBlanks keep (pos + 1) l = l := ih fun i h1 h2 => h i (by omega) (by simp at h2 ⊢; omega)
    rw [dropBlanks_cons, hrest, hpos]
    simp

end Drop

theorem filter_blanks {w : List Char} (hw : Blanks w) : w.filter (fun c => !isBlank c) = [] := by
  rw [List.filter_eq_nil_iff]
  intro c hc
  simp [hw c hc]

/-! ## Length arguments at an offset -/

@[simp] theorem inLength_nil (i : Nat) : inLength [] i = false := rfl

@[simp] theorem inLength_cons (t : Token) (ts : List Token) (i : Nat) :
    inLength (t :: ts) i = (t.holdsLengthAt i || inLength ts i) := by
  simp [inLength]

@[simp] theorem inLength_append (a b : List Token) (i : Nat) :
    inLength (a ++ b) i = (inLength a i || inLength b i) := by
  simp [inLength]

@[simp] theorem holdsLengthAt_nested (i : Nat) (cs : List Token) (sp : Span) :
    (Token.nested cs sp).holdsLengthAt i = false := rfl

@[simp] theorem holdsLengthAt_delimiter (i : Nat) (l : String) (sp : Span) :
    (Token.leaf .delimiter l sp).holdsLengthAt i = false := rfl

@[simp] theorem holdsLengthAt_length (i : Nat) (l : String) (sp : Span) :
    (Token.leaf .length l sp).holdsLengthAt i = decide (sp.start ≤ i ∧ (i : Int) < sp.stop) := rfl

/-- No token that lies away from an offset holds it. -/
theorem inLength_eq_false {ts : List Token} {lo hi i : Nat}
    (h : ∀ t ∈ ts, (lo : Int) ≤ t.span.start ∧ t.span.stop ≤ hi) (hout : i < lo ∨ hi ≤ i) :
    inLength ts i = false := by
  rw [inLength, List.any_eq_false]
  intro t ht
  have hb := h t ht
  match t with
  | .leaf .length _ sp =>
    simp only [Token.span] at hb
    simp only [holdsLengthAt_length, decide_eq_true_eq]
    omega
  | .leaf .name _ _ | .leaf .type _ _ | .leaf .delimiter _ _ | .nested _ _ => simp [Token.holdsLengthAt]

/-- The identifiers of a field definition hold no length argument. -/
theorem typeNames_inLength {p q : Nat} {c : Char} {r rest : List Char} {names : List Token}
    (h : typeNames p c r = (names, q, rest)) (i : Nat) : inLength (Token.listPreorder names) i = false := by
  rcases identifiers_split r with ⟨l, t, rfl, hl, ht, hla⟩ | ⟨n, b, w, e, l, t, rfl, hn, hb, hw, he, hl, ht⟩
  · rw [typeNames_type hl ht hla] at h
    simp only [Prod.mk.injEq] at h
    obtain ⟨rfl, -, -⟩ := h
    simp [Token.listPreorder, Token.preorder, Token.holdsLengthAt]
  · rw [typeNames_named hn hb hw he hl ht] at h
    simp only [Prod.mk.injEq] at h
    obtain ⟨rfl, -, -⟩ := h
    simp [Token.listPreorder, Token.preorder, Token.holdsLengthAt]

/-! ## The text of the identifiers -/

theorem filter_identChars {l : List Char} (hl : ∀ x ∈ l, isIdentChar x = true) :
    l.filter (fun c => !isBlank c) = l := by
  rw [List.filter_eq_self]
  intro x hx
  simp [isBlank_eq_false_of_isIdentChar (hl x hx)]

/-- The identifiers of a field definition, with the blanks between them dropped, are the lexemes of its NAME and
TYPE. -/
theorem typeNames_bare {p q : Nat} {c : Char} {r rest : List Char} {names : List Token} (hc : isIdentStart c = true)
    (h : typeNames p c r = (names, q, rest)) :
    ∃ u, r = u ++ rest ∧ q = p + 1 + u.length ∧
      (c :: u).filter (fun x => !isBlank x) = Shape.listBare (listShape names) := by
  have hc' : isBlank c = false := isBlank_eq_false_of_isIdentChar (isIdentChar_of_isIdentStart hc)
  rcases identifiers_split r with ⟨l, t, rfl, hl, ht, hla⟩ | ⟨n, b, w, e, l, t, rfl, hn, hb, hw, he, hl, ht⟩
  · rw [typeNames_type hl ht hla] at h
    simp only [Prod.mk.injEq] at h
    obtain ⟨rfl, rfl, rfl⟩ := h
    refine ⟨l, rfl, by omega, ?_⟩
    simp [listShape, Token.shape, hc', filter_identChars hl]
  · rw [typeNames_named hn hb hw he hl ht] at h
    simp only [Prod.mk.injEq] at h
    obtain ⟨rfl, rfl, rfl⟩ := h
    refine ⟨n ++ b :: (w ++ e :: l), by simp, by simp; omega, ?_⟩
    have he' : isBlank e = false := isBlank_eq_false_of_isIdentChar (isIdentChar_of_isIdentStart he)
    simp [listShape, Token.shape, List.filter_append, hc', he', hb, filter_identChars hn,
      filter_identChars hl, filter_blanks hw]

/-- The text of a field definition up to the end of its identifiers, whose characters other than blanks are the
lexemes of its NAME and TYPE. -/
theorem head_bare {pos q : Nat} {cs r rest : List Char} {c : Char} {names : List Token}
    (hd : cs.dropWhile isBlank = c :: r) (hc : isIdentStart c = true)
    (hn : typeNames (pos + (cs.takeWhile isBlank).length) c r = (names, q, rest)) :
    ∃ H, cs = H ++ rest ∧ pos + H.length = q ∧ H.filter (fun x => !isBlank x) = Shape.listBare (listShape names) := by
  obtain ⟨u, hu, hq, hbare⟩ := typeNames_bare hc hn
  refine ⟨cs.takeWhile isBlank ++ c :: u, ?_, by simp; omega, ?_⟩
  · rw [List.append_assoc, List.cons_append, ← hu]
    exact eq_blanks_append hd
  · rw [List.filter_append, filter_blanks (blanks_takeWhile cs), hbare, List.nil_append]

/-- The identifiers of a field and the blanks after them, at offsets that `keep` rejects, leave the lexemes of its NAME
and TYPE. -/
theorem dropBlanks_head (keep : Nat → Bool) (pos : Nat) {H w : List Char} {names : List Token}
    (hbare : H.filter (fun x => !isBlank x) = Shape.listBare (listShape names)) (hw : Blanks w)
    (hfree : ∀ i, pos ≤ i → i < pos + (H ++ w).length → keep i = false) :
    dropBlanks keep pos (H ++ w) = Shape.listBare (listShape names) := by
  rw [dropBlanks_of_false keep hfree, List.filter_append, hbare, filter_blanks hw, List.append_nil]

/-! ## Where the tokens of a run lie -/

theorem stops_reverse_replicate (n : Nat) : Stops isIdentChar (List.replicate n ' ').reverse := by
  simpa using stops_reverse_blanks (P := []) (w := List.replicate n ' ')
    (fun c hc => by rw [List.eq_of_mem_replicate hc]; rfl) stops_nil

/-- A run read from `pos` stands in the text that holds `pos` blanks before it. -/
theorem FieldRun.regionSpans {pos : Nat} {cs : List Char} {ts : List Token} (h : FieldRun pos cs ts) :
    RegionSpans (String.ofList (List.replicate pos ' ' ++ cs)) pos (pos + cs.length) ts :=
  h.spans (by simp) (by simp) (stops_reverse_replicate pos) stops_nil

/-- The tokens of a run lie, at every depth, within its text. -/
theorem FieldRun.within {pos : Nat} {cs : List Char} {ts : List Token} (h : FieldRun pos cs ts) :
    ∀ t ∈ Token.listPreorder ts, (pos : Int) ≤ t.span.start ∧ t.span.stop ≤ ((pos + cs.length : Nat) : Int) := by
  intro t ht
  rcases Token.mem_listPreorder ts ht with ht | ⟨cs', sp, hn, ht⟩
  · exact h.regionSpans.within t ht
  · -- a child of a region below the run lies within the text of that region
    obtain ⟨P, I, R, hcs, -, -, hI⟩ := h.region_of_mem hn
    have hb := hI.regionSpans.within t ht
    rw [hcs]
    simp only [List.length_append, List.length_cons] at hb ⊢
    omega

/-- The tokens of what follows a field definition lie, at every depth, within its text. -/
theorem CloseRun.within {pos : Nat} {cs : List Char} {ts : List Token} (h : CloseRun pos cs ts) :
    ∀ t ∈ Token.listPreorder ts, (pos : Int) ≤ t.span.start ∧ t.span.stop ≤ ((pos + cs.length : Nat) : Int) := by
  intro t ht
  rcases Token.mem_listPreorder ts ht with ht | ⟨cs', sp, hn, ht⟩
  · exact (h.spans (s := String.ofList (List.replicate pos ' ' ++ cs)) (P := List.replicate pos ' ') (Z := [])
      (by simp) (by simp) stops_nil).within t ht
  · obtain ⟨P, I, R, hcs, -, -, hI⟩ := h.region_of_mem hn
    have hb := hI.regionSpans.within t ht
    rw [hcs]
    simp only [List.length_append, List.length_cons] at hb ⊢
    omega

/-! ## A run without its free blanks -/

mutual
/-- A run of the reader, with the blanks that none of its length arguments holds dropped, is the bare text of its
shapes. `keep` stands for the length arguments of the whole declaration: on the text of the run they are those of the
run. -/
theorem FieldRun.dropBlanks {pos : Nat} {cs : List Char} {ts : List Token} :
    FieldRun pos cs ts → ∀ keep : Nat → Bool,
      (∀ i, pos ≤ i → i < pos + cs.length → keep i = inLength (Token.listPreorder ts) i) →
      dropBlanks keep pos cs = Shape.listBare (listShape ts)
  | @FieldRun.plain _ q _ _ rest _ names tsr hd hc hn _ _ hcl, keep, hk => by
    obtain ⟨H, hH, hq, hbare⟩ := head_bare hd hc hn
    have hw := hcl.within
    have hlen : pos + cs.length = q + rest.length := by rw [hH]; simp; omega
    -- the identifiers hold no length, and what follows them lies after them
    have hhead : dropBlanks keep pos H = Shape.listBare (listShape names) := by
      rw [dropBlanks_of_false keep fun i h1 h2 => ?_, hbare]
      rw [hk i h1 (by omega)]
      simp [Token.listPreorder_append, typeNames_inLength hn, inLength_eq_false (i := i) hw (.inl (by omega))]
    have hrest := CloseRun.dropBlanks hcl keep fun i h1 h2 => by
      rw [hk i (by omega) (by omega)]
      simp [Token.listPreorder_append, typeNames_inLength hn]
    rw [hH, dropBlanks_append, hq, hhead, hrest, listShape_append, Shape.listBare_append]
  | @FieldRun.length _ q a _ _ rest _ inner r4 _ names tsr hd hc hn ha hr hp _ hcl, keep, hk => by
    obtain ⟨H, hH, hq, hbare⟩ := head_bare hd hc hn
    have hw := hcl.within
    -- the text of the field: its head, the blanks before `(`, the length, `)` and what follows
    have hcs : cs = (H ++ rest.takeWhile isBlank) ++ '(' :: (inner ++ ')' :: r4) := by
      rw [hH, List.append_assoc, ← closeParen_eq_some hp, ← hr, List.takeWhile_append_dropWhile]
    have hA : pos + (H ++ rest.takeWhile isBlank).length = a := by simp; omega
    have hlen : pos + cs.length = a + 1 + inner.length + 1 + r4.length := by rw [hcs]; simp; omega
    -- the blanks before the length are free, those of the length are kept
    have hhead := dropBlanks_head keep pos hbare (blanks_takeWhile rest) fun i h1 h2 => by
      rw [hk i h1 (by omega)]
      simp [Token.listPreorder_append, Token.listPreorder, Token.preorder, typeNames_inLength hn,
        inLength_eq_false (i := i) hw (.inl (by omega))]
      omega
    have hinner : dropBlanks keep (a + 1) inner = inner := dropBlanks_of_true keep fun i h1 h2 => by
      rw [hk i (by omega) (by omega)]
      simp [Token.listPreorder_append, Token.listPreorder, Token.preorder]
      omega
    have hrest := CloseRun.dropBlanks hcl keep fun i h1 h2 => by
      rw [hk i (by omega) (by omega)]
      simp [Token.listPreorder_append, Token.listPreorder, Token.preorder, typeNames_inLength hn]
      omega
    rw [hcs, dropBlanks_append_cons keep (c := '(') (by decide), dropBlanks_append_cons keep (c := ')') (by decide), hA,
      hhead, hinner, hrest]
    simp [listShape, Token.shape]
  | @FieldRun.nested _ q a _ _ rest I R _ names cs' tsr hd hc hn ha hr hI hcl, keep, hk => by
    obtain ⟨H, hH, hq, hbare⟩ := head_bare hd hc hn
    have hin := hI.within
    have hw := hcl.within
    -- the text of the field: its head, the blanks before `<`, the region, `>` and what follows
    have hcs : cs = (H ++ rest.takeWhile isBlank) ++ '<' :: (I ++ '>' :: R) := by
      rw [hH, List.append_assoc, ← hr, List.takeWhile_append_dropWhile]
    have hA : pos + (H ++ rest.takeWhile isBlank).length = a := by simp; omega
    have hlen : pos + cs.length = a + 1 + I.length + 1 + R.length := by rw [hcs]; simp; omega
    -- the tokens of the region lie between its `<` and its `>`, those of what follows after the `>`
    have hhead := dropBlanks_head keep pos hbare (blanks_takeWhile rest) fun i h1 h2 => by
      rw [hk i h1 (by omega)]
      simp [Token.listPreorder_append, Token.listPreorder, Token.preorder, typeNames_inLength hn,
        inLength_eq_false (i := i) hin (.inl (by omega)), inLength_eq_false (i := i) hw (.inl (by omega))]
    have hinner := FieldRun.dropBlanks hI keep fun i h1 h2 => by
      rw [hk i (by omega) (by omega)]
      simp [Token.listPreorder_append, Token.listPreorder, Token.preorder, typeNames_inLength hn,
        inLength_eq_false (i := i) hw (.inl (by omega))]
    have hrest := CloseRun.dropBlanks hcl keep fun i h1 h2 => by
      rw [hk i (by omega) (by omega)]
      simp [Token.listPreorder_append, Token.listPreorder, Token.preorder, typeNames_inLength hn,
        inLength_eq_false (i := i) hin (.inr (by omega))]
    rw [hcs, dropBlanks_append_cons keep (c := '<') (by decide), dropBlanks_append_cons keep (c := '>') (by decide), hA,
      hhead, hinner, hrest]
    simp [listShape, Token.shape]

/-- What follows a field definition, with the blanks that none of its length arguments holds dropped, is the bare text
of its shapes. -/
theorem CloseRun.dropBlanks {pos : Nat} {cs : List Char} {ts : List Token} :
    CloseRun pos cs ts → ∀ keep : Nat → Bool,
      (∀ i, pos ≤ i → i < pos + cs.length → keep i = inLength (Token.listPreorder ts) i) →
      dropBlanks keep pos cs = Shape.listBare (listShape ts)
  | .done hb, keep, hk => by
    rw [dropBlanks_of_false keep fun i h1 h2 => by rw [hk i h1 h2]; rfl, filter_blanks hb]
    simp [listShape]
  | @CloseRun.comma _ p _ r tsf hd hp hf, keep, hk => by
    have hw := hf.within
    have hcs : cs = cs.takeWhile isBlank ++ ',' :: r := eq_blanks_append hd
    have hlen : pos + cs.length = p + 1 + r.length := by rw [hcs]; simp; omega
    -- the blanks before the comma are free, and the field after it lies after it
    have hfree : dropBlanks keep pos (cs.takeWhile isBlank) = [] := by
      rw [dropBlanks_of_false keep fun i h1 h2 => ?_, filter_blanks (blanks_takeWhile cs)]
      rw [hk i h1 (by omega)]
      simp [Token.listPreorder, Token.preorder, inLength_eq_false (i := i) hw (.inl (by omega))]
    have hrest := FieldRun.dropBlanks hf keep fun i h1 h2 => by
      rw [hk i (by omega) (by omega)]
      simp [Token.listPreorder, Token.preorder]
    rw [hcs, dropBlanks_append_cons keep (c := ',') (by decide), hfree, ← hp, hrest]
    simp [listShape, Token.shape]
end

/-! ## Formatting -/

/-- The significant characters of an accepted declaration are the bare text of its tree. -/
theorem tokenize_significant {d : String} {ts : List Token} (h : tokenize d = .ok ts) :
    significant d = .ok (Shape.listBare (listShape ts)) := by
  have hrun := (tokenize_eq_ok_iff d ts).1 h
  rw [significant, h]
  show Except.ok (dropBlanks (inLength (Token.walk ts)) 0 d.toList) = _
  rw [walk_eq_listPreorder, hrun.dropBlanks _ fun _ _ _ => rfl]

/-- The canonical text of the tree of an accepted declaration is read back to a tree of the same shapes. -/
theorem tokenize_canonical {s : String} {ts : List Token} (h : tokenize s = .ok ts) :
    ∃ ts', tokenize (Shape.listText (listShape ts)) = .ok ts' ∧ listShape ts' = listShape ts := by
  obtain ⟨_, _, _, _, _, _, hseq⟩ := tokenize_declares h
  exact tokenize_of_declares
    ⟨[], [], _, blanks_nil, blanks_nil, (List.nil_append _).symm, by simpa using hseq.canonical []⟩

/-- Rendering the tree of an accepted declaration changes only blanks outside its length arguments: the rendered text
has the same significant characters, for every tree that nests at most `Field.renderDepth` levels, and no deeper tree
is rendered. -/
theorem render_keeps_significant {s : String} {ts : List Token} (h : tokenize s = .ok ts) :
    (∃ r, Field.renderTokens ts = .ok r ∧ significant r = significant s) ↔ Token.listDepth ts ≤ Field.renderDepth := by
  obtain ⟨_, _, _, _, _, _, hseq⟩ := tokenize_declares h
  obtain ⟨hr, hw⟩ := hseq.form
  have hren := renderTokens_of_wellFormed hr hw
  constructor
  · rintro ⟨r, hok, -⟩
    rw [hren] at hok
    split at hok
    · assumption
    · cases hok
  · intro hd
    -- the canonical text reads back to a tree of the same shapes, and so to the same bare text
    obtain ⟨ts', hts', hsh⟩ := tokenize_canonical h
    refine ⟨_, by rw [hren, if_pos hd], ?_⟩
    rw [tokenize_significant hts', tokenize_significant h, hsh]

unseal fieldAt closeAt in
/-- A name, a length with blanks inside it, and a region with blanks around it. -/
theorem render_keeps_significant_spaced :
    ∃ ts, tokenize "a T( 1 ),B< c >" = .ok ts ∧
      ((∃ r, Field.renderTokens ts = .ok r ∧ significant r = significant "a T( 1 ),B< c >") ↔
        Token.listDepth ts ≤ Field.renderDepth) := by
  have h : tokenize "a T( 1 ),B< c >" =
      .ok [.leaf .name "a" ⟨0, 1⟩, .leaf .type "T" ⟨2, 3⟩, .leaf .length " 1 " ⟨4, 7⟩, .leaf .delimiter "," ⟨8, 9⟩,
        .leaf .type "B" ⟨9, 10⟩, .nested [.leaf .type "c" ⟨12, 13⟩] ⟨10, 15⟩] := rfl
  exact ⟨_, h, render_keeps_significant h⟩

/-- A type nested 1500 levels deep is a declaration, but its tree is not rendered: it has no formatted text. -/
theorem deep_declaration_not_formatted :
    ∃ ts, tokenize (nestedType 1500) = .ok ts ∧
      ¬∃ r, Field.renderTokens ts = .ok r ∧ significant r = significant (nestedType 1500) := by
  obtain ⟨out, hseq, hdepth⟩ := nestedType_declares 1500 []
  rw [List.append_nil] at hseq
  obtain ⟨ts, hts, hsh⟩ := tokenize_of_declares
    (⟨[], [], (nestedType 1500).toList, blanks_nil, blanks_nil, (List.nil_append _).symm, hseq⟩ :
      Declares (nestedType 1500).toList out)
  obtain ⟨hr, hw⟩ := hseq.form
  rw [← hsh] at hr hw
  refine ⟨ts, hts, ?_⟩
  rintro ⟨r, hok, -⟩
  rw [renderTokens_of_wellFormed hr hw, if_neg (by rw [hdepth ts hsh]; decide)] at hok
  cases hok

end ColumnDecl
