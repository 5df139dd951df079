import ColumnDecl.Proofs.FieldText

/-
Folding a token tree into field definitions.

`Field.ofTokens` cuts each region at its delimiters and folds each group into one field definition: the last name,
type and length win, and a nested token gives the fields of its region. On a tree that `tokenize` returns the fold
loses, doubles and moves nothing. Listed in pre-order, the field definitions are one per TYPE token, in the order the
walk visits them; each has the NAME right before its TYPE, the LENGTH right after it, and nested fields exactly when a
NESTED token follows it. `Shape.listEntries` reads these entries off the regions of a tree. It reads the tokens less
their spans, which is all that a fold sees of them.

- `ofTokensWithin_mono`: a larger budget keeps a finished fold;
- `Grammar.Field.wellFormed`: a derivation yields the canonical shapes of well-formed field definitions;
- `tokenize_fold_eq`: the fold of a tree that `tokenize` returns gives the well-formed fields whose canonical shapes
  are the tree's, when the tree nests at most `Field.foldDepth` levels, and `tooDeep` otherwise;
- `Field.listEntries_shapes`: the entries of the canonical shapes of well-formed fields are the fields' own, in
  pre-order;
- `tokenize_fold_faithful`: for a tree that `tokenize` returns and that nests at most `Field.foldDepth` levels, the
  fold keeps every field definition in place, the top level has one field more than it has delimiters, and `parse`
  refuses the declaration exactly when there is a top-level delimiter, counting the fields;
- `fold_refuses_deep_declaration`: two fields, the second nested 2000 levels deep, are read but not folded, so `parse`
  does not count them.
-/

namespace ColumnDecl

open Scan Grammar
open Token (listShape)

/-! ## What a field definition says of itself -/

/-- what a field definition says besides its nested fields: its name, type and length, and whether it has nested
fields -/
structure FieldEntry where
  name : Option String
  type : String
  length : Option String
  complex : Bool
  deriving DecidableEq, Repr

namespace Field

/-- the entry of a field definition -/
def entry (f : Field) : FieldEntry := ⟨f.name, f.type, f.length, f.isComplex⟩

mutual
/-- a field definition, then the definitions nested in it, each before its own nested ones -/
def preorder : Field → List Field
  | ⟨name, type, length, fields⟩ => ⟨name, type, length, fields⟩ :: listPreorder fields

/-- the pre-order of each field definition of a list, one after the other -/
def listPreorder : List Field → List Field
  | [] => []
  | f :: fs => preorder f ++ listPreorder fs
end

@[simp] theorem listPreorder_nil : listPreorder [] = [] := by simp [listPreorder]

@[simp] theorem listPreorder_cons (f : Field) (fs : List Field) :
    listPreorder (f :: fs) = preorder f ++ listPreorder fs := by
  simp [listPreorder]

theorem preorder_eq (f : Field) : preorder f = f :: listPreorder f.fields := by
  cases f
  simp [preorder]

end Field

/-! ## The entries of the TYPE tokens of a tree -/

namespace Shape

/-- the lexeme of the LENGTH that heads `ss`, if one does -/
def lengthAhead : List Shape → Option String
  | .leaf .length l :: _ => some l
  | _ => none

/-- whether a NESTED heads `ss` -/
def nestedAhead : List Shape → Bool
  | .nested _ :: _ => true
  | _ => false

mutual
/-- the entries of the TYPE shapes in the region that a NESTED shape holds, in pre-order; none for a leaf -/
def entries : Shape → List FieldEntry
  | .leaf _ _ => []
  | .nested cs => listEntries none cs

/-- the entry of each TYPE shape of a region, each followed by the entries of a region nested after it: the name is
the NAME right before the TYPE (`name`, carried from the shape before), the length the LENGTH right after it, and the
entry is complex when a NESTED comes right after it -/
def listEntries (name : Option String) : List Shape → List FieldEntry
  | [] => []
  | .leaf .name n :: ss => listEntries (some n) ss
  | .leaf .type ty :: ss => ⟨name, ty, lengthAhead ss, nestedAhead ss⟩ :: listEntries none ss
  | s :: ss => s.entries ++ listEntries none ss
end

@[simp] theorem listEntries_nil {name : Option String} : listEntries name [] = [] := by simp [listEntries]

@[simp] theorem listEntries_name {name : Option String} {n : String} {ss : List Shape} :
    listEntries name (.leaf .name n :: ss) = listEntries (some n) ss := by
  simp [listEntries]

@[simp] theorem listEntries_type {name : Option String} {ty : String} {ss : List Shape} :
    listEntries name (.leaf .type ty :: ss) = ⟨name, ty, lengthAhead ss, nestedAhead ss⟩ :: listEntries none ss := by
  simp [listEntries]

@[simp] theorem listEntries_length {name : Option String} {l : String} {ss : List Shape} :
    listEntries name (.leaf .length l :: ss) = listEntries none ss := by
  simp [listEntries, entries]

@[simp] theorem listEntries_delimiter {name : Option String} {d : String} {ss : List Shape} :
    listEntries name (.leaf .delimiter d :: ss) = listEntries none ss := by
  simp [listEntries, entries]

@[simp] theorem listEntries_nested {name : Option String} {cs ss : List Shape} :
    listEntries name (.nested cs :: ss) = listEntries none cs ++ listEntries none ss := by
  simp [listEntries, entries]

end Shape

/-- the lexeme of a TYPE token, none for any other -/
def Token.typeLexeme? : Token → Option String
  | .leaf .type l _ => some l
  | .leaf .name _ _ | .leaf .length _ _ | .leaf .delimiter _ _ | .nested _ _ => none

/-- The entries of a tree are one per TYPE token, in pre-order, with that token's lexeme as their type. -/
theorem listEntries_types : ∀ (name : Option String) (ts : List Token),
    (Shape.listEntries name (listShape ts)).map (·.type) = (Token.listPreorder ts).filterMap Token.typeLexeme?
  | _, [] => by simp [listShape, Token.listPreorder]
  | _, .leaf .name l _ :: ts => by
    simp [listShape, Token.shape, Token.listPreorder, Token.preorder, List.filterMap_cons, Token.typeLexeme?,
      listEntries_types (some l) ts]
  | _, .leaf .type l _ :: ts => by
    simp [listShape, Token.shape, Token.listPreorder, Token.preorder, Token.typeLexeme?, listEntries_types none ts]
  | _, .leaf .length l _ :: ts => by
    simp [listShape, Token.shape, Token.listPreorder, Token.preorder, List.filterMap_cons, Token.typeLexeme?,
      listEntries_types none ts]
  | _, .leaf .delimiter l _ :: ts => by
    simp [listShape, Token.shape, Token.listPreorder, Token.preorder, List.filterMap_cons, Token.typeLexeme?,
      listEntries_types none ts]
  | _, .nested cs _ :: ts => by
    simp [listShape, Token.shape, Token.listPreorder, Token.preorder, List.filterMap_cons, Token.typeLexeme?,
      listEntries_types none cs, listEntries_types none ts]

/-! ## A larger budget keeps a finished fold -/

/-- A computation that goes on to an answer ran to a value first. -/
theorem bind_eq_ok {ε α β : Type} {x : Except ε α} {f : α → Except ε β} {r : β} (h : (x >>= f) = .ok r) :
    ∃ a, x = .ok a ∧ f a = .ok r := by
  cases x with
  | error e =>
    rw [error_bind] at h
    cases h
  | ok a => exact ⟨a, rfl, h⟩

section Mono

variable {F G : List Token → Except TreeError (List Field)} (hFG : ∀ ts fs, F ts = .ok fs → G ts = .ok fs)
include hFG

theorem FieldDraft.add_mono {d d' : FieldDraft} {t : Token} (h : FieldDraft.add F d t = .ok d') :
    FieldDraft.add G d t = .ok d' := by
  cases t with
  | nested cs sp =>
    obtain ⟨fs, hF, hd⟩ := bind_eq_ok h
    simp only [FieldDraft.add, hFG cs fs hF, ok_bind]
    exact hd
  | leaf k l sp => cases k <;> exact h

theorem FieldDraft.foldlM_add_mono : ∀ (g : List Token) {d d' : FieldDraft},
    g.foldlM (FieldDraft.add F) d = .ok d' → g.foldlM (FieldDraft.add G) d = .ok d'
  | [], _, _, h => h
  | t :: g, d, d', h => by
    rw [List.foldlM_cons] at h ⊢
    obtain ⟨d₁, ht, hg⟩ := bind_eq_ok h
    rw [FieldDraft.add_mono hFG ht, ok_bind]
    exact FieldDraft.foldlM_add_mono g hg

theorem FieldDraft.ofGroup_mono {g : List Token} {f : Field} (h : FieldDraft.ofGroup F g = .ok f) :
    FieldDraft.ofGroup G g = .ok f := by
  obtain ⟨d, hd, hf⟩ := bind_eq_ok h
  rw [FieldDraft.ofGroup, FieldDraft.foldlM_add_mono hFG g hd, ok_bind]
  exact hf

theorem FieldDraft.mapM_ofGroup_mono : ∀ (gs : List (List Token)) {fs : List Field},
    gs.mapM (FieldDraft.ofGroup F) = .ok fs → gs.mapM (FieldDraft.ofGroup G) = .ok fs
  | [], _, h => h
  | g :: gs, fs, h => by
    rw [List.mapM_cons] at h ⊢
    obtain ⟨f, hg, h'⟩ := bind_eq_ok h
    obtain ⟨fs', hgs, h''⟩ := bind_eq_ok h'
    rw [FieldDraft.ofGroup_mono hFG hg, ok_bind, FieldDraft.mapM_ofGroup_mono gs hgs, ok_bind]
    exact h''

end Mono

/-- A fold that finishes within a budget finishes alike within the next. -/
theorem ofTokensWithin_mono : ∀ (b : Nat) {ts : List Token} {fs : List Field},
    Field.ofTokensWithin b ts = .ok fs → Field.ofTokensWithin (b + 1) ts = .ok fs
  | 0, _, _, h => by simp [Field.ofTokensWithin] at h
  | b + 1, ts, _, h => by
    rw [Field.ofTokensWithin_succ] at h ⊢
    exact FieldDraft.mapM_ofGroup_mono (fun ts' fs' h' => ofTokensWithin_mono b h') _ h

theorem ofTokensWithin_of_le {b b' : Nat} {ts : List Token} {fs : List Field} (hle : b ≤ b')
    (h : Field.ofTokensWithin b ts = .ok fs) : Field.ofTokensWithin b' ts = .ok fs := by
  induction hle with
  | refl => exact h
  | step _ ih => exact ofTokensWithin_mono _ ih

/-! ## Derivations yield well-formed field definitions -/

theorem Grammar.Names.wellFormed {t r : List Char} {h : List Shape} (hn : Names t r h) :
    ∃ name ty, IsIdent ty.toList ∧ (match name with | none => True | some n => IsIdent n.toList) ∧
      h = Field.nameShapes name ++ [.leaf .type ty] := by
  cases hn with
  | type hl => exact ⟨none, _, by simpa using hl, trivial, rfl⟩
  | named hn _ _ hl => exact ⟨some _, _, by simpa using hl, by simpa using hn, rfl⟩

mutual
/-- What follows the identifiers of a derivation is the suffix of a well-formed field with those identifiers. -/
theorem Grammar.Suffix.wellFormed {t r : List Char} {s : List Shape} :
    Suffix t r s → ∀ (name : Option String) (ty : String), IsIdent ty.toList →
      (match name with | none => True | some n => IsIdent n.toList) →
      ∃ f : ColumnDecl.Field, f.WellFormed ∧ f.name = name ∧ f.type = ty ∧ s = f.suffixShapes
  | .none, name, ty, hty, hname => ⟨⟨name, ty, none, []⟩, ⟨hty, hname, trivial, trivial⟩, rfl, rfl, rfl⟩
  | @Suffix.length _ l _ _ hl, name, ty, hty, hname =>
    ⟨⟨name, ty, some (String.ofList l), []⟩, ⟨hty, hname, ⟨by simpa using hl, rfl⟩, trivial⟩, rfl, rfl,
      by simp [Field.suffixShapes]⟩
  | .nested _ _ hf hm _, name, ty, hty, hname => by
    -- the region holds its first field and the further ones after commas
    obtain ⟨g, hg, rfl⟩ := Grammar.Field.wellFormed hf
    obtain ⟨gs, hgs, rfl⟩ := Grammar.More.wellFormed hm
    exact ⟨⟨name, ty, none, g :: gs⟩, ⟨hty, hname, trivial, hg, hgs⟩, rfl, rfl, by simp [Field.suffixShapes]⟩

/-- A field definition of a derivation yields the canonical shapes of a well-formed field. -/
theorem Grammar.Field.wellFormed {t r : List Char} {out : List Shape} :
    Grammar.Field t r out → ∃ f : ColumnDecl.Field, f.WellFormed ∧ out = f.shapes
  | .mk hn hs => by
    obtain ⟨name, ty, hty, hname, rfl⟩ := hn.wellFormed
    obtain ⟨f, hf, rfl, rfl, rfl⟩ := Grammar.Suffix.wellFormed hs name ty hty hname
    exact ⟨f, hf, by rw [Field.shapes_eq]; simp⟩

/-- The further field definitions of a derivation yield the canonical shapes of well-formed fields after commas. -/
theorem Grammar.More.wellFormed {t r : List Char} {u : List Shape} :
    More t r u → ∃ fs, Field.ListWellFormed fs ∧ u = Field.tailShapes fs
  | .nil => ⟨[], trivial, by simp [Field.tailShapes]⟩
  | .cons _ _ hf hm => by
    obtain ⟨f, hf', rfl⟩ := Grammar.Field.wellFormed hf
    obtain ⟨fs, hfs, rfl⟩ := Grammar.More.wellFormed hm
    exact ⟨f :: fs, ⟨hf', hfs⟩, by simp [Field.tailShapes]⟩
end

/-! ## The fold of a tree that `tokenize` returns -/

/-- The fold of a tree that `tokenize` returns gives the well-formed field definitions whose canonical shapes are the
tree's, when the tree nests at most `Field.foldDepth` levels, and `tooDeep` otherwise. -/
theorem tokenize_fold_eq {s : String} {ts : List Token} (h : tokenize s = .ok ts) :
    ∃ f fs, Field.ListWellFormed (f :: fs) ∧ listShape ts = f.shapes ++ Field.tailShapes fs ∧
      Field.ofTokens ts = if Token.listDepth ts ≤ Field.foldDepth then .ok (f :: fs) else .error .tooDeep := by
  obtain ⟨_, _, _, _, _, _, hseq⟩ := tokenize_declares h
  obtain ⟨hr, hw⟩ := hseq.form
  obtain ⟨_, out, u, hf, hm, hout⟩ := hseq
  obtain ⟨f, hwf, rfl⟩ := hf.wellFormed
  obtain ⟨fs, hwfs, rfl⟩ := hm.wellFormed
  refine ⟨f, fs, ⟨hwf, hwfs⟩, hout, ?_⟩
  obtain ⟨hok, herr⟩ := folds_within (Field.foldDepth + 1) ts hr hw
  rw [Field.ofTokens]
  by_cases hd : Token.listDepth ts ≤ Field.foldDepth
  · rw [if_pos hd]
    obtain ⟨fs', hfs', -⟩ := hok (by omega)
    -- the canonical shapes fold back to `f :: fs` within a budget of their own, and a larger budget keeps both folds
    have hcanon := Field.ofTokensWithin_shapes _ f fs ts ⟨hwf, hwfs⟩ hout (Nat.le_refl _)
    have h1 := ofTokensWithin_of_le (Nat.le_max_left (Field.foldDepth + 1) (Field.listDepth (f :: fs))) hfs'
    have h2 := ofTokensWithin_of_le (Nat.le_max_right (Field.foldDepth + 1) (Field.listDepth (f :: fs))) hcanon
    obtain rfl : fs' = f :: fs := Except.ok.inj (h1.symm.trans h2)
    exact hfs'
  · rw [if_neg hd]
    exact herr (by omega)

/-- The fold of such a tree finishes exactly within the budget, and then with the fields it gives there. -/
theorem fold_ok_iff {ts : List Token} {fs₀ : List ColumnDecl.Field}
    (hfold : Field.ofTokens ts = if Token.listDepth ts ≤ Field.foldDepth then .ok fs₀ else .error .tooDeep)
    (fs : List ColumnDecl.Field) : Field.ofTokens ts = .ok fs ↔ Token.listDepth ts ≤ Field.foldDepth ∧ fs₀ = fs := by
  by_cases hd : Token.listDepth ts ≤ Field.foldDepth
  · rw [hfold, if_pos hd]
    exact ⟨fun h => ⟨hd, Except.ok.inj h⟩, fun ⟨_, h⟩ => h ▸ rfl⟩
  · rw [hfold, if_neg hd]
    exact ⟨fun h => (by cases h), fun ⟨h, _⟩ => absurd h hd⟩

/-! ## The entries of well-formed fields -/

theorem lengthAhead_tailShapes (fs : List ColumnDecl.Field) : Shape.lengthAhead (Field.tailShapes fs) = none := by
  cases fs <;> simp [Field.tailShapes, Shape.lengthAhead]

theorem nestedAhead_tailShapes (fs : List ColumnDecl.Field) : Shape.nestedAhead (Field.tailShapes fs) = false := by
  cases fs <;> simp [Field.tailShapes, Shape.nestedAhead]

/-- The identifiers of a field give the entry of its TYPE, whatever shapes follow them. -/
theorem listEntries_head (name : Option String) (ty : String) (ss : List Shape) :
    Shape.listEntries none (Field.nameShapes name ++ .leaf .type ty :: ss) =
      ⟨name, ty, Shape.lengthAhead ss, Shape.nestedAhead ss⟩ :: Shape.listEntries none ss := by
  cases name <;> simp [Field.nameShapes]

mutual
/-- The canonical shapes of a well-formed field, followed by shapes that neither a LENGTH nor a NESTED heads, have the
entries of the field and its nested fields in pre-order, then those of what follows. -/
theorem Field.listEntries_shapes : ∀ (f : ColumnDecl.Field), f.WellFormed → ∀ rest : List Shape,
    Shape.lengthAhead rest = none → Shape.nestedAhead rest = false →
    Shape.listEntries none (f.shapes ++ rest) = (Field.preorder f).map Field.entry ++ Shape.listEntries none rest
  | ⟨name, type, length, fields⟩, ⟨_, _, hlength, hfields⟩, rest, hl, hn => by
    rw [Field.shapes_eq, List.append_assoc, List.cons_append, listEntries_head, Field.preorder_eq]
    cases length with
    | some l =>
      obtain rfl := hlength.2
      simp [Field.suffixShapes, Shape.lengthAhead, Shape.nestedAhead, Field.entry, Field.isComplex]
    | none =>
      cases fields with
      | nil => simp [Field.suffixShapes, hl, hn, Field.entry, Field.isComplex]
      | cons g gs =>
        -- the nested region holds the shapes of the nested fields, the first then the others after commas
        obtain ⟨hg, hgs⟩ := hfields
        have e1 := Field.listEntries_shapes g hg (Field.tailShapes gs) (lengthAhead_tailShapes gs)
          (nestedAhead_tailShapes gs)
        have e2 := Field.listEntries_tailShapes gs hgs
        simp [Field.suffixShapes, Shape.lengthAhead, Shape.nestedAhead, Field.entry, Field.isComplex, e1, e2]

/-- The canonical shapes of well-formed fields after commas have the fields' entries in pre-order. -/
theorem Field.listEntries_tailShapes : ∀ (fs : List ColumnDecl.Field), Field.ListWellFormed fs →
    Shape.listEntries none (Field.tailShapes fs) = (Field.listPreorder fs).map Field.entry
  | [], _ => by simp [Field.tailShapes]
  | f :: fs, ⟨hf, hfs⟩ => by
    have e := Field.listEntries_shapes f hf (Field.tailShapes fs) (lengthAhead_tailShapes fs)
      (nestedAhead_tailShapes fs)
    simp [Field.tailShapes, e, Field.listEntries_tailShapes fs hfs]
end

/-- Well-formed fields after commas have one comma each. -/
theorem tailShapes_delimiters : ∀ (fs : List ColumnDecl.Field), Field.ListWellFormed fs →
    (Field.tailShapes fs).countP (·.kindLabel == "FIELD_DELIMITER") = fs.length
  | [], _ => by simp [Field.tailShapes]
  | f :: fs, ⟨hf, hfs⟩ => by
    have h0 := (Field.shapes_fieldForm hf).counts.1
    rw [Field.tailShapes, List.countP_cons, List.countP_append, h0, tailShapes_delimiters fs hfs]
    simp [LeafKind.label]

/-- Counting the delimiters of a region is counting the delimiters among its shapes. -/
theorem countP_isDelimiter (ts : List Token) :
    ts.countP (·.isDelimiter) = (listShape ts).countP (·.kindLabel == "FIELD_DELIMITER") := by
  rw [← countP_kindLabel]
  congr 1
  funext t
  rw [Token.isDelimiter_eq, Token.kindLabel_shape]

/-- `parse` gives the one field definition of a declaration, and counts them when there are more. -/
theorem parse_of_fold {s : String} {ts : List Token} {f : ColumnDecl.Field} {fs : List ColumnDecl.Field}
    (h : tokenize s = .ok ts) (hf : Field.ofTokens ts = .ok (f :: fs)) :
    Field.parse s = if fs = [] then .ok f else .error (.malformed (.fieldCount (fs.length + 1) s.length)) := by
  have hread : Field.readAll s = .ok (f :: fs) := by
    simp only [Field.readAll, h, hf]
    rfl
  cases fs <;> simp [Field.parse, hread] <;> rfl

/-- A tree that is read but not folded is refused by `parse` for the reason the fold gives. -/
theorem parse_of_fold_error {s : String} {ts : List Token} {e : TreeError} (h : tokenize s = .ok ts)
    (hf : Field.ofTokens ts = .error e) : Field.parse s = .error (.tree e) := by
  have hread : Field.readAll s = .error (.tree e) := by
    simp only [Field.readAll, h, hf]
    rfl
  rw [Field.parse, hread]
  rfl

/-! ## Nothing is lost, doubled or moved -/

/-- For a tree that `tokenize` returns, the fold gives field definitions exactly when the tree nests at most
`Field.foldDepth` levels. Then the field definitions, listed in pre-order, have the entries that the TYPE tokens of
the tree have in their regions, one per TYPE token of the walk and in its order; the top level has one field more than
it has delimiters; and `parse` refuses the declaration exactly when it has a top-level delimiter, with the count of its
fields. -/
theorem tokenize_fold_faithful {s : String} {ts : List Token} (h : tokenize s = .ok ts) :
    ((∃ fs, Field.ofTokens ts = .ok fs) ↔ Token.listDepth ts ≤ Field.foldDepth) ∧
    ∀ fs, Field.ofTokens ts = .ok fs →
      (Field.listPreorder fs).map Field.entry = Shape.listEntries none (listShape ts) ∧
      (Field.listPreorder fs).map (·.type) = (Token.walk ts).filterMap Token.typeLexeme? ∧
      fs.length = ts.countP (·.isDelimiter) + 1 ∧
      ∀ e, Field.parse s = .error e ↔
        0 < ts.countP (·.isDelimiter) ∧ e = .malformed (.fieldCount (ts.countP (·.isDelimiter) + 1) s.length) := by
  obtain ⟨f, fs, hwf, hsh, hfold⟩ := tokenize_fold_eq h
  have hentries : (Field.listPreorder (f :: fs)).map Field.entry = Shape.listEntries none (listShape ts) := by
    rw [hsh, Field.listEntries_shapes f hwf.1 _ (lengthAhead_tailShapes fs) (nestedAhead_tailShapes fs),
      Field.listEntries_tailShapes fs hwf.2]
    simp
  have hcount : ts.countP (·.isDelimiter) = fs.length := by
    rw [countP_isDelimiter, hsh, List.countP_append, (Field.shapes_fieldForm hwf.1).counts.1,
      tailShapes_delimiters fs hwf.2, Nat.zero_add]
  refine ⟨⟨fun ⟨fs', h'⟩ => ((fold_ok_iff hfold fs').1 h').1, fun hd => ⟨_, (fold_ok_iff hfold _).2 ⟨hd, rfl⟩⟩⟩,
    fun fs' h' => ?_⟩
  obtain ⟨hd, rfl⟩ := (fold_ok_iff hfold fs').1 h'
  refine ⟨hentries, ?_, by simp [hcount], fun e => ?_⟩
  · -- an entry's type is the lexeme of its TYPE token
    rw [walk_eq_listPreorder, ← listEntries_types none ts, ← hentries, List.map_map]
    rfl
  · rw [parse_of_fold h (by rw [hfold, if_pos hd]), hcount]
    cases fs with
    | nil => simp
    | cons g gs =>
      simp only [reduceCtorEq, if_false, List.length_cons]
      constructor
      · rintro ⟨⟩
        exact ⟨by omega, rfl⟩
      · rintro ⟨-, rfl⟩
        rfl

unseal fieldAt closeAt in
/-- Two fields, the second with a nested field that has a length: three field definitions in pre-order, two at the top
level, which `parse` counts. -/
theorem tokenize_fold_faithful_pair :
    tokenize "a, b<c(1)>" = .ok [.leaf .type "a" ⟨0, 1⟩, .leaf .delimiter "," ⟨1, 2⟩, .leaf .type "b" ⟨3, 4⟩,
      .nested [.leaf .type "c" ⟨5, 6⟩, .leaf .length "1" ⟨7, 8⟩] ⟨4, 10⟩] ∧
    (((∃ fs, Field.ofTokens [.leaf .type "a" ⟨0, 1⟩, .leaf .delimiter "," ⟨1, 2⟩, .leaf .type "b" ⟨3, 4⟩,
        .nested [.leaf .type "c" ⟨5, 6⟩, .leaf .length "1" ⟨7, 8⟩] ⟨4, 10⟩] = .ok fs) ↔
      Token.listDepth [.leaf .type "a" ⟨0, 1⟩, .leaf .delimiter "," ⟨1, 2⟩, .leaf .type "b" ⟨3, 4⟩,
        .nested [.leaf .type "c" ⟨5, 6⟩, .leaf .length "1" ⟨7, 8⟩] ⟨4, 10⟩] ≤ Field.foldDepth) ∧
    ∀ fs, Field.ofTokens [.leaf .type "a" ⟨0, 1⟩, .leaf .delimiter "," ⟨1, 2⟩, .leaf .type "b" ⟨3, 4⟩,
        .nested [.leaf .type "c" ⟨5, 6⟩, .leaf .length "1" ⟨7, 8⟩] ⟨4, 10⟩] = .ok fs →
      (Field.listPreorder fs).map Field.entry = Shape.listEntries none (listShape [.leaf .type "a" ⟨0, 1⟩,
        .leaf .delimiter "," ⟨1, 2⟩, .leaf .type "b" ⟨3, 4⟩,
        .nested [.leaf .type "c" ⟨5, 6⟩, .leaf .length "1" ⟨7, 8⟩] ⟨4, 10⟩]) ∧
      (Field.listPreorder fs).map (·.type) = (Token.walk [.leaf .type "a" ⟨0, 1⟩, .leaf .delimiter "," ⟨1, 2⟩,
        .leaf .type "b" ⟨3, 4⟩, .nested [.leaf .type "c" ⟨5, 6⟩, .leaf .length "1" ⟨7, 8⟩] ⟨4, 10⟩]).filterMap
          Token.typeLexeme? ∧
      fs.length = [Token.leaf .type "a" ⟨0, 1⟩, .leaf .delimiter "," ⟨1, 2⟩, .leaf .type "b" ⟨3, 4⟩,
        .nested [.leaf .type "c" ⟨5, 6⟩, .leaf .length "1" ⟨7, 8⟩] ⟨4, 10⟩].countP (·.isDelimiter) + 1 ∧
      ∀ e, Field.parse "a, b<c(1)>" = .error e ↔
        0 < [Token.leaf .type "a" ⟨0, 1⟩, .leaf .delimiter "," ⟨1, 2⟩, .leaf .type "b" ⟨3, 4⟩,
          .nested [.leaf .type "c" ⟨5, 6⟩, .leaf .length "1" ⟨7, 8⟩] ⟨4, 10⟩].countP (·.isDelimiter) ∧
        e = .malformed (.fieldCount ([Token.leaf .type "a" ⟨0, 1⟩, .leaf .delimiter "," ⟨1, 2⟩,
          .leaf .type "b" ⟨3, 4⟩, .nested [.leaf .type "c" ⟨5, 6⟩, .leaf .length "1" ⟨7, 8⟩] ⟨4, 10⟩].countP
            (·.isDelimiter) + 1) "a, b<c(1)>".length)) := by
  have h : tokenize "a, b<c(1)>" = .ok [.leaf .type "a" ⟨0, 1⟩, .leaf .delimiter "," ⟨1, 2⟩, .leaf .type "b" ⟨3, 4⟩,
      .nested [.leaf .type "c" ⟨5, 6⟩, .leaf .length "1" ⟨7, 8⟩] ⟨4, 10⟩] := rfl
  exact ⟨h, tokenize_fold_faithful h⟩

/-! ## A declaration too deep to fold -/

/-- A declaration of two fields, the second nested 2000 levels deep, is read, and has a top-level delimiter; but its
tree is not folded, so `parse` refuses it as too deep and not for its count of fields. -/
theorem fold_refuses_deep_declaration :
    ∃ ts, tokenize ("A, " ++ nestedType 2000) = .ok ts ∧ 0 < ts.countP (·.isDelimiter) ∧
      Field.ofTokens ts = .error .tooDeep ∧ Field.parse ("A, " ++ nestedType 2000) = .error (.tree .tooDeep) := by
  obtain ⟨out, ⟨t', f, u, hf, hm, rfl⟩, hdepth⟩ := nestedType_declares 2000 []
  generalize nestedType 2000 = X at hf ⊢
  rw [List.append_nil] at hf
  -- the type `A`, a comma and a blank, then the deep type
  have hA := Grammar.Field.mk (Names.type (l := ['A']) (r := [] ++ ',' :: ([' '] ++ X.toList))
    (by simp [IsIdent]; decide)) Suffix.none
  have hmore := More.cons blanks_nil (show Blanks [' '] by simp; decide) hf hm
  have htext : ("A, " ++ X).toList = [] ++ (['A'] ++ ([] ++ ',' :: ([' '] ++ X.toList))) := by
    rw [String.toList_append]
    simp
  obtain ⟨ts, hts, hsh⟩ := tokenize_of_declares ⟨[], [], _, blanks_nil, blanks_nil, htext, _, _, _, hA, hmore, rfl⟩
  -- the deep type lies after the type `A` and the comma, and nests 2000 levels
  obtain ⟨sp, ts', hts', hsh'⟩ := listShape_eq_leaf_cons hsh
  obtain ⟨sp', rest, hrest, hsh''⟩ := listShape_eq_leaf_cons hsh'
  have hd : Token.listDepth ts = 2000 := by
    rw [hts', hrest]
    simp [Token.listDepth, Token.depth, hdepth rest hsh'']
  obtain ⟨g, gs, -, -, hfold⟩ := tokenize_fold_eq hts
  rw [hd, if_neg (by decide)] at hfold
  exact ⟨ts, hts, by rw [hts', hrest]; simp [Token.isDelimiter], hfold, parse_of_fold_error hts hfold⟩

end ColumnDecl
