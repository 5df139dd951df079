import ColumnDecl.Proofs.Relocation

/-
Successful readings as derivations with offsets.

`FieldRun pos cs ts` says that the field definitions `cs`, all the text of one region or of the top level, are read
from offset `pos` of the declaration into the tokens `ts`; `CloseRun` says the same of what follows a complete field
definition. The constructors are the branches of the reader that return tokens, and a nested region is a run of its
own on the text between its `<` and its `>`: where the reader keeps a stack of open regions, the relation nests.

- `reader_run`: a reading from the top level that returns tokens is a run, by induction on the length of the text;
  the text of a region is split off with `reader_split`;
- `FieldRun.reader`: a run is read, a region by grafting its own reading onto the enclosing one (`reader_graft`);
- `tokenize_eq_ok_iff`: `tokenize` returns exactly the tokens of a run from offset 0;
- `FieldRun.shift`: the same text read from another offset is the same run with every span moved by the difference.
-/

namespace ColumnDecl

open Scan Grammar

namespace Token

mutual
/-- the token with every span in it moved `k` offsets, to the right when `k` is positive -/
def shift (k : Int) : Token → Token
  | .leaf kind l s => .leaf kind l ⟨s.start + k, s.stop + k⟩
  | .nested cs s => .nested (shiftAll k cs) ⟨s.start + k, s.stop + k⟩

/-- the tokens with every span in them moved `k` offsets -/
def shiftAll (k : Int) : List Token → List Token
  | [] => []
  | t :: ts => shift k t :: shiftAll k ts
end

@[simp] theorem shiftAll_nil (k : Int) : shiftAll k [] = [] := by simp [shiftAll]

@[simp] theorem shiftAll_cons (k : Int) (t : Token) (ts : List Token) :
    shiftAll k (t :: ts) = shift k t :: shiftAll k ts := by
  simp [shiftAll]

@[simp] theorem shiftAll_append (k : Int) (a b : List Token) : shiftAll k (a ++ b) = shiftAll k a ++ shiftAll k b := by
  induction a with
  | nil => rfl
  | cons t a ih => simp [ih]

@[simp] theorem shift_leaf (k : Int) (kind : LeafKind) (l : String) (s : Span) :
    shift k (.leaf kind l s) = .leaf kind l ⟨s.start + k, s.stop + k⟩ := by
  simp [shift]

@[simp] theorem shift_nested (k : Int) (cs : List Token) (s : Span) :
    shift k (.nested cs s) = .nested (shiftAll k cs) ⟨s.start + k, s.stop + k⟩ := by
  simp [shift]

end Token

/-! ## Runs -/

mutual
/-- `FieldRun pos cs ts`: the field definitions `cs`, all the text of one region, are read from offset `pos` into the
tokens `ts` -/
inductive FieldRun : Nat → List Char → List Token → Prop
  /-- a field definition that ends after its identifiers -/
  | plain {pos q : Nat} {cs r rest : List Char} {c : Char} {names ts : List Token} :
      cs.dropWhile isBlank = c :: r → isIdentStart c = true →
      typeNames (pos + (cs.takeWhile isBlank).length) c r = (names, q, rest) →
      (∀ r3, rest.dropWhile isBlank = '(' :: r3 → False) →
      (∀ r3, rest.dropWhile isBlank = '<' :: r3 → False) → CloseRun q rest ts → FieldRun pos cs (names ++ ts)
  /-- a field definition with a length argument -/
  | length {pos q a : Nat} {cs r rest r3 inner r4 : List Char} {c : Char} {names ts : List Token} :
      cs.dropWhile isBlank = c :: r → isIdentStart c = true →
      typeNames (pos + (cs.takeWhile isBlank).length) c r = (names, q, rest) →
      a = q + (rest.takeWhile isBlank).length → rest.dropWhile isBlank = '(' :: r3 →
      closeParen 0 r3 = some (inner, r4) → ¬Text.trimChars inner = [] →
      CloseRun (a + 1 + inner.length + 1) r4 ts →
      FieldRun pos cs (names ++ .leaf .length (String.ofList inner) ⟨a + 1, a + 1 + inner.length⟩ :: ts)
  /-- a field definition with a nested region: the field definitions `I` between its `<` and its `>` -/
  | nested {pos q a : Nat} {cs r rest I R : List Char} {c : Char} {names cs' ts : List Token} :
      cs.dropWhile isBlank = c :: r → isIdentStart c = true →
      typeNames (pos + (cs.takeWhile isBlank).length) c r = (names, q, rest) →
      a = q + (rest.takeWhile isBlank).length → rest.dropWhile isBlank = '<' :: (I ++ '>' :: R) →
      FieldRun (a + 1) I cs' → CloseRun (a + 1 + I.length + 1) R ts →
      FieldRun pos cs (names ++ .nested cs' ⟨a, a + 1 + I.length + 1⟩ :: ts)

/-- `CloseRun pos cs ts`: what follows a complete field definition, up to the end of its region, is read from offset
`pos` into the tokens `ts` -/
inductive CloseRun : Nat → List Char → List Token → Prop
  /-- the region ends -/
  | done {pos : Nat} {cs : List Char} : Blanks cs → CloseRun pos cs []
  /-- a comma, and the next field definition -/
  | comma {pos p : Nat} {cs r : List Char} {ts : List Token} :
      cs.dropWhile isBlank = ',' :: r → p = pos + (cs.takeWhile isBlank).length →
      FieldRun (p + 1) r ts → CloseRun pos cs (.leaf .delimiter "," ⟨p, p + 1⟩ :: ts)
end

/-! ## The reading of a region -/

namespace Reading

theorem pushAll_region (ts toks top : List Token) (a : Nat) (rs : List Region) :
    (Reading.mk top (⟨a, toks⟩ :: rs)).pushAll ts = ⟨top, ⟨a, ts.reverse ++ toks⟩ :: rs⟩ := by
  induction ts generalizing toks with
  | nil => rfl
  | cons t ts ih => simp [pushAll_cons, push, ih]

/-- The tokens read after a `<` go into the region it opens. -/
theorem openAt_pushAll (ts : List Token) (a : Nat) (st : Reading) :
    (st.openAt a).pushAll ts = ⟨st.top, ⟨a, ts.reverse⟩ :: st.regions⟩ := by
  have h := pushAll_region ts [] st.top a st.regions
  rw [List.append_nil] at h
  exact h

end Reading

/-- The text after the identifiers of a field definition is shorter than the field definition. -/
theorem length_rest_lt {p q : Nat} {cs r rest : List Char} {c : Char} {names : List Token}
    (hd : cs.dropWhile isBlank = c :: r) (hn : typeNames p c r = (names, q, rest)) : rest.length < cs.length := by
  have h1 := length_lt_of_dropWhile_eq_cons hd
  have h2 := length_typeNames_le p c r
  rw [hn] at h2
  exact Nat.lt_of_le_of_lt h2 h1

/-! ## Soundness: a reading from the top level that returns tokens is a run -/

theorem reader_run (len : Nat) (cs : List Char) :
    (∀ top pos ts, fieldAt len ⟨top, []⟩ pos cs = .ok ts →
      ∃ ts', ts = top.reverse ++ ts' ∧ FieldRun pos cs ts') ∧
    (∀ top pos ts, closeAt len ⟨top, []⟩ pos cs = .ok ts →
      ∃ ts', ts = top.reverse ++ ts' ∧ CloseRun pos cs ts') := by
  refine ⟨fun top pos ts h => ?_, fun top pos ts h => ?_⟩
  · fun_cases fieldAt len (Reading.mk top []) pos cs
    case case1 _ hd =>
      rw [fieldAt_end hd] at h
      cases h
    case case2 _ c r hd hc names q rest hn _ r3 hr hp =>
      rw [fieldAt_unclosedParen hd hc hn hr hp] at h
      cases h
    case case3 _ c r hd hc names q rest hn _ r3 hr inner r4 hp _ hi =>
      rw [fieldAt_emptyLength hd hc hn hr hp hi] at h
      cases h
    case case4 _ c r hd hc names q rest hn _ _ r3 hr inner r4 hp _ hi =>
      rw [fieldAt_length hd hc hn hr hp hi, Reading.pushAll_top_nil, Reading.push_top_nil] at h
      have hlt : r4.length < cs.length := by
        have := length_rest_lt hd hn
        have := length_lt_of_dropWhile_eq_cons hr
        have := length_lt_of_closeParen hp
        omega
      obtain ⟨ts', rfl, hcl⟩ := (reader_run len r4).2 _ _ _ h
      exact ⟨_, by simp, .length hd hc hn rfl hr hp hi hcl⟩
    case case5 _ c r hd hc names q rest hn _ _ r3 hr =>
      rw [fieldAt_open hd hc hn hr, Reading.pushAll_top_nil] at h
      have hlt3 : r3.length < cs.length := by
        have := length_rest_lt hd hn
        have := length_lt_of_dropWhile_eq_cons hr
        omega
      -- the text of the region is split off at the `>` that closes it, and read on its own
      obtain ⟨I, Y, ts'', rfl, hY, hin⟩ := (reader_split len 0).1 _ _ _ _ h _ _ (Reading.graft_initial _).symm
      have hlt : I.length < cs.length := by
        simp only [List.length_append] at hlt3
        omega
      obtain ⟨cs', rfl, hI⟩ := (reader_run 0 I).1 [] _ _ hin
      have hg := (reader_graft 0 len).1 _ _ _ _ hin
        (Reading.openAt (q + (rest.takeWhile isBlank).length) ⟨names.reverse ++ top, []⟩) _ hY.afterField
      rw [Reading.graft_initial, Reading.openAt_pushAll] at hg
      rw [hg] at h
      rcases hY with rfl | ⟨R, rfl⟩
      · rw [closeAt_end_region rfl rfl] at h
        cases h
      · rw [closeAt_close rfl rfl] at h
        have hw : ('>' :: R).takeWhile isBlank = [] := rfl
        simp only [List.reverse_reverse, hw, List.length_nil, Nat.add_zero,
          Reading.push_top_nil] at h
        have hlt' : R.length < cs.length := by
          simp only [List.length_append, List.length_cons] at hlt3
          omega
        obtain ⟨ts', rfl, hcl⟩ := (reader_run len R).2 _ _ _ h
        exact ⟨_, by simp, .nested hd hc hn rfl hr hI hcl⟩
    case case6 _ c r hd hc names q rest hn _ h1 h2 =>
      rw [fieldAt_plain hd hc hn h1 h2, Reading.pushAll_top_nil] at h
      have hlt : rest.length < cs.length := length_rest_lt hd hn
      obtain ⟨ts', rfl, hcl⟩ := (reader_run len rest).2 _ _ _ h
      exact ⟨_, by simp, .plain hd hc hn h1 h2 hcl⟩
    case case7 _ c r hd hc =>
      rw [fieldAt_notIdent hd hc] at h
      cases h
  · fun_cases closeAt len (Reading.mk top []) pos cs
    case case1 hd hs =>
      rw [closeAt_end_top hd hs] at h
      cases h
      exact ⟨[], by simp, .done (blanks_of_dropWhile_nil hd)⟩
    case case2 hd reg tail hs =>
      cases hs
    case case3 _ r hd =>
      rw [closeAt_comma hd, Reading.push_top_nil] at h
      have hlt : r.length < cs.length := length_lt_of_dropWhile_eq_cons hd
      obtain ⟨ts', rfl, hf⟩ := (reader_run len r).1 _ _ _ h
      exact ⟨_, by simp, .comma hd rfl hf⟩
    case case4 _ r hs hd _ =>
      rw [closeAt_stray hs hd] at h
      cases h
    case case5 _ r reg tail hs hd _ =>
      cases hs
    case case6 _ c r hd h1 h2 =>
      rw [closeAt_other hd h1 h2] at h
      cases h
termination_by cs.length
decreasing_by all_goals omega

/-! ## Completeness: a run is read -/

mutual
theorem FieldRun.reader {pos : Nat} {cs : List Char} {ts : List Token} :
    FieldRun pos cs ts → ∀ len top, fieldAt len ⟨top, []⟩ pos cs = .ok (top.reverse ++ ts)
  | .plain hd hc hn h1 h2 hcl, len, top => by
    rw [fieldAt_plain hd hc hn h1 h2, Reading.pushAll_top_nil, CloseRun.reader hcl]
    simp
  | .length hd hc hn ha hr hp hi hcl, len, top => by
    have ih := CloseRun.reader hcl len
    subst ha
    rw [fieldAt_length hd hc hn hr hp hi, Reading.pushAll_top_nil, Reading.push_top_nil]
    refine (ih _).trans ?_
    simp
  | @FieldRun.nested _ q _ _ _ rest _ R _ names _ _ hd hc hn ha hr hI hcl, len, top => by
    have ih := CloseRun.reader hcl len
    have hin : fieldAt 0 Reading.initial _ _ = _ := FieldRun.reader hI 0 []
    subst ha
    rw [fieldAt_open hd hc hn hr, Reading.pushAll_top_nil]
    -- the region is read on its own and grafted onto the reading it stands in, up to its `>`
    have hg := (reader_graft 0 len).1 _ _ _ _ hin
      (Reading.openAt (q + (rest.takeWhile isBlank).length) ⟨names.reverse ++ top, []⟩) ('>' :: R)
      (afterField_angle R)
    rw [Reading.graft_initial, Reading.openAt_pushAll] at hg
    have hw : ('>' :: R).takeWhile isBlank = [] := rfl
    rw [hg, closeAt_close rfl rfl]
    simp only [hw, List.length_nil, Nat.add_zero, List.reverse_nil, List.nil_append, List.reverse_reverse,
      Reading.push_top_nil]
    refine (ih _).trans ?_
    simp

theorem CloseRun.reader {pos : Nat} {cs : List Char} {ts : List Token} :
    CloseRun pos cs ts → ∀ len top, closeAt len ⟨top, []⟩ pos cs = .ok (top.reverse ++ ts)
  | .done hw, len, top => by
    rw [closeAt_end_top (dropWhile_blanks hw).1 rfl]
    simp
  | .comma hd hp hf, len, top => by
    have ih := FieldRun.reader hf len
    subst hp
    rw [closeAt_comma hd, Reading.push_top_nil]
    refine (ih _).trans ?_
    simp
end

/-- A run gives its text one reading: the reader's. -/
theorem FieldRun.det {pos : Nat} {cs : List Char} {ts ts' : List Token} (h : FieldRun pos cs ts)
    (h' : FieldRun pos cs ts') : ts = ts' := by
  have e := (h.reader 0 []).symm.trans (h'.reader 0 [])
  simpa using e

/-- A run starts with an identifier, so its text is not blank. -/
theorem FieldRun.not_blank {pos : Nat} {cs : List Char} {ts : List Token} (h : FieldRun pos cs ts) :
    ¬cs.all isBlank = true := by
  intro hb
  have hd := (dropWhile_blanks (List.all_eq_true.1 hb)).1
  cases h <;> simp_all

/-- `tokenize` returns the tokens of the run of the whole text from offset 0, and fails where there is none. -/
theorem tokenize_eq_ok_iff (s : String) (ts : List Token) : tokenize s = .ok ts ↔ FieldRun 0 s.toList ts := by
  constructor
  · intro h
    dsimp only [tokenize] at h
    split at h
    · cases h
    · obtain ⟨ts', rfl, hr⟩ := (reader_run _ _).1 [] 0 ts h
      simpa using hr
  · intro h
    rw [← String.ofList_toList (s := s), tokenize_ofList h.not_blank]
    have e := h.reader s.toList.length []
    rw [List.reverse_nil, List.nil_append] at e
    exact e

/-! ## Reading from another offset -/

/-- The identifiers read at another offset are the same, with their spans moved by the difference. -/
theorem typeNames_move {p q : Nat} {c : Char} {r rest : List Char} {names : List Token}
    (h : typeNames p c r = (names, q, rest)) (d : Int) (p' : Nat) (hp : (p' : Int) = p + d) :
    ∃ q' : Nat, (q' : Int) = q + d ∧ typeNames p' c r = (Token.shiftAll d names, q', rest) := by
  rcases identifiers_split r with ⟨l, t, rfl, hl, ht, hla⟩ | ⟨n, b, w, e, l, t, rfl, hn, hb, hw, he, hl, ht⟩
  · rw [typeNames_type hl ht hla] at h ⊢
    simp only [Prod.mk.injEq] at h
    obtain ⟨rfl, rfl, rfl⟩ := h
    refine ⟨p' + (l.length + 1), by omega, ?_⟩
    simp
    omega
  · rw [typeNames_named hn hb hw he hl ht] at h ⊢
    simp only [Prod.mk.injEq] at h
    obtain ⟨rfl, rfl, rfl⟩ := h
    refine ⟨p' + (n.length + 1) + (w.length + 1) + (l.length + 1), by omega, ?_⟩
    simp
    omega

mutual
theorem FieldRun.shift {pos : Nat} {cs : List Char} {ts : List Token} :
    FieldRun pos cs ts → ∀ (d : Int) (pos' : Nat), (pos' : Int) = pos + d → FieldRun pos' cs (Token.shiftAll d ts)
  | .plain hd hc hn h1 h2 hcl, d, pos', hpos => by
    obtain ⟨q', hq', hn'⟩ := typeNames_move hn d (pos' + (cs.takeWhile isBlank).length) (by omega)
    rw [Token.shiftAll_append]
    exact .plain hd hc hn' h1 h2 (CloseRun.shift hcl d q' hq')
  | @FieldRun.length _ q _ _ _ rest _ inner _ _ names ts hd hc hn ha hr hp hi hcl, d, pos', hpos => by
    obtain ⟨q', hq', hn'⟩ := typeNames_move hn d (pos' + (cs.takeWhile isBlank).length) (by omega)
    have ih := CloseRun.shift hcl d (q' + (rest.takeWhile isBlank).length + 1 + inner.length + 1) (by omega)
    have e : Token.shiftAll d (names ++ .leaf .length (String.ofList inner)
          ⟨(q + (rest.takeWhile isBlank).length : Nat) + 1,
            (q + (rest.takeWhile isBlank).length : Nat) + 1 + inner.length⟩ ::
          ts) =
        Token.shiftAll d names ++ .leaf .length (String.ofList inner)
          ⟨(q' + (rest.takeWhile isBlank).length : Nat) + 1,
          (q' + (rest.takeWhile isBlank).length : Nat) + 1 + inner.length⟩ :: Token.shiftAll d ts := by
      simp
      omega
    subst ha
    rw [e]
    exact .length hd hc hn' rfl hr hp hi ih
  | @FieldRun.nested _ q _ _ _ rest I _ _ names cs' ts hd hc hn ha hr hI hcl, d, pos', hpos => by
    obtain ⟨q', hq', hn'⟩ := typeNames_move hn d (pos' + (cs.takeWhile isBlank).length) (by omega)
    have ihI := FieldRun.shift hI d (q' + (rest.takeWhile isBlank).length + 1) (by omega)
    have ih := CloseRun.shift hcl d (q' + (rest.takeWhile isBlank).length + 1 + I.length + 1) (by omega)
    have e : Token.shiftAll d (names ++ .nested cs' ⟨(q + (rest.takeWhile isBlank).length : Nat),
          (q + (rest.takeWhile isBlank).length : Nat) + 1 + I.length + 1⟩ :: ts) =
        Token.shiftAll d names ++ .nested (Token.shiftAll d cs') ⟨(q' + (rest.takeWhile isBlank).length : Nat),
          (q' + (rest.takeWhile isBlank).length : Nat) + 1 + I.length + 1⟩ :: Token.shiftAll d ts := by
      simp
      omega
    subst ha
    rw [e]
    exact .nested hd hc hn' rfl hr ihI ih

theorem CloseRun.shift {pos : Nat} {cs : List Char} {ts : List Token} :
    CloseRun pos cs ts → ∀ (d : Int) (pos' : Nat), (pos' : Int) = pos + d → CloseRun pos' cs (Token.shiftAll d ts)
  | .done hw, _, _, _ => .done hw
  | @CloseRun.comma _ p _ _ ts hd hp hf, d, pos', hpos => by
    have ih := FieldRun.shift hf d (pos' + (cs.takeWhile isBlank).length + 1) (by omega)
    have e : Token.shiftAll d (.leaf .delimiter "," ⟨p, p + 1⟩ :: ts) =
        .leaf .delimiter "," ⟨(pos' + (cs.takeWhile isBlank).length : Nat),
          (pos' + (cs.takeWhile isBlank).length : Nat) + 1⟩ ::
          Token.shiftAll d ts := by
      simp
      omega
    rw [e]
    exact .comma hd rfl ih
end

end ColumnDecl
