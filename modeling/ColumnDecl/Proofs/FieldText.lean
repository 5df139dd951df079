import ColumnDecl.Proofs.RoundTrip

/-
Field definitions read back from their canonical text.

A field definition is well formed when its canonical text stands for it: its name and type are identifiers, its
length is a length argument of the grammar, it never has both a length and nested fields, and its nested fields are
well formed. `Field.shapes` gives the token shapes of its canonical text: the name and the type, then the length or
one nested region holding the fields with a delimiter between each two.

- `Field.derives`: the canonical text of a well-formed field derives its shapes in the grammar;
- `Field.ofTokensWithin_shapes`: tokens with the shapes of well-formed fields fold back into those very fields, when
  they fit in the budget;
- `Field.parse_declaration`: `parse` reads the canonical text of a well-formed field back to the field when it nests
  at most `Field.foldDepth` levels;
- `Field.parse_declaration_of_wellFormed`: writing a well-formed field and reading the text back gives the field,
  exactly when it nests at most `Field.renderDepth` levels; a deeper field is not written.
-/

namespace ColumnDecl

open Scan Grammar
open Token (listShape)

/-! ## Deciding the classes of the grammar -/

namespace Grammar

-- the characters after the first are decided one by one: a search over every character would fit the bound form too
instance (l : List Char) : Decidable (IsIdent l) :=
  match l with
  | [] => isFalse id
  | _ :: cs => @instDecidableAnd _ _ inferInstance (List.decidableBAll _ cs)

/-- A text is balanced exactly when the count of parentheses, from depth zero, ends at a `)` put after it. -/
theorem balanced_iff_closeParen {l : List Char} : Balanced l ↔ closeParen 0 (l ++ [')']) = some (l, []) := by
  rw [balanced_iff_nests]
  exact ⟨closeParen_append, nests_of_closeParen⟩

instance (l : List Char) : Decidable (Balanced l) := decidable_of_iff _ balanced_iff_closeParen.symm

instance (l : List Char) : Decidable (LengthText l) := inferInstanceAs (Decidable (_ ∧ _))

end Grammar

/-! ## Well-formed field definitions and their shapes -/

namespace Field

mutual
/-- the field definition is the one its canonical text stands for: identifiers for its type and name, a length
argument of the grammar and no nested fields beside it, and well-formed nested fields -/
def WellFormed : Field → Prop
  | ⟨name, type, length, fields⟩ =>
    IsIdent type.toList ∧
      (match name with
        | none => True
        | some n => IsIdent n.toList) ∧
      (match length with
        | none => True
        | some l => LengthText l.toList ∧ fields = []) ∧
      ListWellFormed fields

/-- every field definition of the list is well formed -/
def ListWellFormed : List Field → Prop
  | [] => True
  | f :: fs => WellFormed f ∧ ListWellFormed fs
end

mutual
/-- Whether a field definition is well formed is decided field by field. -/
def decWellFormed : (f : Field) → Decidable f.WellFormed
  | ⟨name, _, length, fields⟩ =>
    have := decListWellFormed fields
    have : Decidable (match name with | none => True | some n => IsIdent n.toList) :=
      match name with
      | none => isTrue trivial
      | some n => inferInstanceAs (Decidable (IsIdent n.toList))
    have : Decidable (match length with | none => True | some l => LengthText l.toList ∧ fields = []) :=
      match length with
      | none => isTrue trivial
      | some l => inferInstanceAs (Decidable (LengthText l.toList ∧ fields = []))
    inferInstanceAs (Decidable (_ ∧ _ ∧ _ ∧ _))

/-- Whether field definitions are well formed is decided one after the other. -/
def decListWellFormed : (fs : List Field) → Decidable (ListWellFormed fs)
  | [] => isTrue trivial
  | f :: fs =>
    have := decWellFormed f
    have := decListWellFormed fs
    inferInstanceAs (Decidable (_ ∧ _))
end

instance (f : Field) : Decidable f.WellFormed := decWellFormed f

@[simp] theorem listWellFormed_nil : ListWellFormed [] := trivial

@[simp] theorem listWellFormed_cons {f : Field} {fs : List Field} :
    ListWellFormed (f :: fs) ↔ f.WellFormed ∧ ListWellFormed fs := Iff.rfl

/-- the shape of the name of a field, if it has one -/
def nameShapes : Option String → List Shape
  | none => []
  | some n => [.leaf .name n]

mutual
/-- the token shapes of the canonical text of a field definition -/
def shapes : Field → List Shape
  | ⟨name, type, length, fields⟩ =>
    nameShapes name ++ .leaf .type type ::
      match length, fields with
      | some l, _ => [.leaf .length l]
      | none, [] => []
      | none, f :: fs => [.nested (shapes f ++ tailShapes fs)]

/-- the token shapes of the field definitions after a first, each after a delimiter -/
def tailShapes : List Field → List Shape
  | [] => []
  | f :: fs => .leaf .delimiter "," :: (shapes f ++ tailShapes fs)
end

/-- the canonical text of the field definitions after a first, each after `, ` -/
def tailText : List Field → String
  | [] => ""
  | f :: fs => ", " ++ f.declaration ++ tailText fs

/-- the canonical text of what follows the name and type of a field -/
def suffixText (f : Field) : String :=
  match f.length, f.fields with
  | some l, _ => "(" ++ l ++ ")"
  | none, [] => ""
  | none, g :: gs => "<" ++ g.declaration ++ tailText gs ++ ">"

/-- the shapes of what follows the name and type of a field -/
def suffixShapes (f : Field) : List Shape :=
  match f.length, f.fields with
  | some l, _ => [.leaf .length l]
  | none, [] => []
  | none, g :: gs => [.nested (g.shapes ++ tailShapes gs)]

theorem joinDeclarations_cons (f : Field) (fs : List Field) :
    joinDeclarations (f :: fs) = f.declaration ++ tailText fs := by
  induction fs generalizing f with
  | nil => simp [joinDeclarations, tailText]
  | cons g gs ih => simp [joinDeclarations, tailText, ih, String.append_assoc]

theorem declaration_eq (f : Field) : f.declaration = f.head ++ f.suffixText := by
  obtain ⟨name, type, length, fields⟩ := f
  cases name <;> cases length <;> (try cases fields) <;>
    simp [Field.declaration, head, suffixText, joinDeclarations_cons, String.append_assoc]

theorem shapes_eq (f : Field) : f.shapes = nameShapes f.name ++ .leaf .type f.type :: f.suffixShapes := by
  obtain ⟨name, type, length, fields⟩ := f
  cases length <;> (try cases fields) <;> simp [shapes, suffixShapes]

/-! ## The canonical text derives the shapes -/

/-- The name and type of a field, then any suffix, derive a field definition. -/
theorem derives_of_suffix {f : Field} (htype : IsIdent f.type.toList)
    (hname : match f.name with | none => True | some n => IsIdent n.toList) {t r : List Char} {s : List Shape}
    (hs : Suffix t r s) : Grammar.Field (f.head.toList ++ t) r (nameShapes f.name ++ .leaf .type f.type :: s) := by
  obtain ⟨name, type, length, fields⟩ := f
  cases name with
  | none => simpa [head, nameShapes] using Grammar.Field.mk (Names.type (r := t) htype) hs
  | some n =>
    -- one blank between the name and the type
    have h := Grammar.Field.mk (Names.named (r := t) hname (show isBlank ' ' = true by decide) blanks_nil htype) hs
    simpa [head, nameShapes] using h

mutual
theorem derives : ∀ (f : Field), f.WellFormed → ∀ r, Grammar.Field (f.declaration.toList ++ r) r f.shapes
  | ⟨name, type, length, fields⟩, ⟨htype, hname, hlength, hfields⟩, r => by
    have hs : Suffix ((suffixText ⟨name, type, length, fields⟩).toList ++ r) r
        (suffixShapes ⟨name, type, length, fields⟩) := by
      cases length with
      | some l => simpa [suffixText, suffixShapes] using Suffix.length (r := r) blanks_nil hlength.1
      | none =>
        cases fields with
        | nil => simpa [suffixText, suffixShapes] using (Suffix.none : Suffix r r [])
        | cons g gs =>
          obtain ⟨hg, hgs⟩ := hfields
          -- the nested fields between `<` and `>`, the first then the others after commas
          have h := Suffix.nested (r := r) blanks_nil blanks_nil
            (derives g hg ((tailText gs).toList ++ ([] ++ '>' :: r))) (tail_derives gs hgs ([] ++ '>' :: r)) blanks_nil
          simpa [suffixText, suffixShapes] using h
    rw [declaration_eq, shapes_eq, String.toList_append, List.append_assoc]
    exact derives_of_suffix htype hname hs

theorem tail_derives : ∀ (fs : List Field), ListWellFormed fs → ∀ r,
    More ((tailText fs).toList ++ r) r (tailShapes fs)
  | [], _, r => by simpa [tailText, tailShapes] using (More.nil : More r r [])
  | f :: fs, ⟨hf, hfs⟩, r => by
    -- a comma, then one blank before the next field
    have h := More.cons blanks_nil (show Blanks [' '] by simp; decide) (derives f hf ((tailText fs).toList ++ r))
      (tail_derives fs hfs r)
    simpa [tailText, tailShapes] using h
end

/-- The canonical text of a well-formed field is a declaration of its shapes. -/
theorem declares {f : Field} (hf : f.WellFormed) : Declares f.declaration.toList f.shapes := by
  refine ⟨[], [], f.declaration.toList, blanks_nil, blanks_nil, rfl, [], f.shapes, [], ?_, More.nil, by simp⟩
  simpa using derives f hf []

/-! ## Folding the tokens of well-formed fields -/

theorem shapes_fieldForm : ∀ {f : Field}, f.WellFormed → FieldForm f.shapes
  | ⟨name, type, length, fields⟩, ⟨htype, hname, hlength, _⟩ => by
    have hn : NamesForm (nameShapes name ++ [.leaf .type type]) := by
      cases name with
      | none => exact .type htype
      | some n => exact .named hname htype
    have hs : SuffixForm (suffixShapes ⟨name, type, length, fields⟩) := by
      cases length with
      | some l => exact .length hlength.1
      | none =>
        cases fields with
        | nil => exact .none
        | cons g gs => exact .nested
    exact ⟨_, _, hn, hs, by simp [shapes_eq]⟩

/-- The name and type tokens of a field fold into a draft with that name and type. -/
theorem fold_names (fold : List Token → Except TreeError (List Field)) {name : Option String} {type : String}
    {g : List Token} (h : listShape g = nameShapes name ++ [.leaf .type type]) :
    g.foldlM (FieldDraft.add fold) {} = .ok ⟨name, some type, none, []⟩ := by
  cases name with
  | none =>
    obtain ⟨sp, g', rfl, hg'⟩ := listShape_eq_leaf_cons (by simpa [nameShapes] using h)
    obtain rfl := listShape_eq_nil.1 hg'
    rfl
  | some n =>
    obtain ⟨sp, g', rfl, hg'⟩ := listShape_eq_leaf_cons (by simpa [nameShapes] using h)
    obtain ⟨sp', g'', rfl, hg''⟩ := listShape_eq_leaf_cons hg'
    obtain rfl := listShape_eq_nil.1 hg''
    rfl

section Fold

variable {b : Nat} (ih : ∀ f fs ts, ListWellFormed (f :: fs) → listShape ts = f.shapes ++ tailShapes fs →
  Field.listDepth (f :: fs) ≤ b → Field.ofTokensWithin b ts = .ok (f :: fs))
include ih

/-- The tokens of a well-formed field fold back into the field, its nested region within the budget `b`. -/
theorem ofGroup_shapes : ∀ (f : Field) (g : List Token), f.WellFormed → f.depth ≤ b → listShape g = f.shapes →
    FieldDraft.ofGroup (Field.ofTokensWithin b) g = .ok f
  | ⟨name, type, length, fields⟩, g, ⟨_, _, hlength, hfields⟩, hd, hg => by
    rw [shapes_eq, ← List.singleton_append, ← List.append_assoc, listShape_eq_map, List.map_eq_append_iff] at hg
    obtain ⟨gn, gx, rfl, hn, hx⟩ := hg
    rw [← listShape_eq_map] at hn hx
    rw [FieldDraft.ofGroup, List.foldlM_append, fold_names _ hn, ok_bind]
    -- the suffix: a length, nothing, or the nested region folded one level down
    cases length with
    | some l =>
      simp only [suffixShapes] at hx
      obtain ⟨sp, gx', rfl, hx'⟩ := listShape_eq_leaf_cons hx
      obtain rfl := listShape_eq_nil.1 hx'
      rw [hlength.2]
      rfl
    | none =>
      cases fields with
      | nil =>
        obtain rfl := listShape_eq_nil.1 hx
        rfl
      | cons h hs =>
        simp only [suffixShapes] at hx
        obtain ⟨cs, sp, rfl, hcs⟩ := listShape_eq_nested hx
        have hfold := ih h hs cs hfields hcs hd
        simp only [List.foldlM_cons, List.foldlM_nil, FieldDraft.add, hfold, ok_bind, ok_pure]
        rfl

end Fold

/-- Tokens with the shapes of well-formed fields cut into one group per field, and each group folds into its field. -/
theorem groups_of_shapes {b : Nat} {F : List Token → Except TreeError ColumnDecl.Field}
    (hF : ∀ f g, f.WellFormed → f.depth ≤ b → listShape g = f.shapes → F g = .ok f) :
    ∀ (fs : List ColumnDecl.Field) (f : ColumnDecl.Field) (ts : List Token), ListWellFormed (f :: fs) →
      Field.listDepth (f :: fs) ≤ b + 1 → listShape ts = f.shapes ++ tailShapes fs →
      ∃ gs, Groups ts gs ∧ gs.mapM F = .ok (f :: fs)
  | [], f, ts, ⟨hf, _⟩, hd, hts => by
    rw [tailShapes, List.append_nil] at hts
    have hd' : f.depth ≤ b := by simp [Field.listDepth] at hd; omega
    refine ⟨[ts], .last (hts ▸ shapes_fieldForm hf), ?_⟩
    simp only [List.mapM_cons, List.mapM_nil, hF f ts hf hd' hts, ok_bind, ok_pure]
  | g :: gs, f, ts, ⟨hf, hgs⟩, hd, hts => by
    have hd' : f.depth ≤ b ∧ Field.listDepth (g :: gs) ≤ b + 1 := by
      simp only [Field.listDepth] at hd ⊢
      omega
    rw [tailShapes, listShape_eq_map, List.map_eq_append_iff] at hts
    obtain ⟨t₀, rest, rfl, h₀, hrest⟩ := hts
    rw [List.map_eq_cons_iff] at hrest
    obtain ⟨d, rest', rfl, hdl, hrest'⟩ := hrest
    rw [← listShape_eq_map] at h₀ hrest'
    obtain ⟨gs', hG, hM⟩ := groups_of_shapes hF gs g rest' hgs hd'.2 hrest'
    refine ⟨t₀ :: gs', .cons (h₀ ▸ shapes_fieldForm hf) (by rw [Token.isDelimiter_eq, hdl]; rfl) hG, ?_⟩
    simp only [List.mapM_cons, hF f t₀ hf hd'.1 h₀, ok_bind, hM, ok_pure]

/-- Tokens with the shapes of well-formed fields fold back into those fields, when the fields nest within the
budget. -/
theorem ofTokensWithin_shapes (b : Nat) : ∀ (f : ColumnDecl.Field) (fs : List ColumnDecl.Field) (ts : List Token),
    ListWellFormed (f :: fs) → listShape ts = f.shapes ++ tailShapes fs → Field.listDepth (f :: fs) ≤ b →
    Field.ofTokensWithin b ts = .ok (f :: fs) := by
  -- on the budget, each level of nesting taking one
  induction b with
  | zero =>
    intro f fs ts _ _ hd
    simp [Field.listDepth] at hd
  | succ b ih =>
    intro f fs ts hw hts hd
    obtain ⟨gs, hG, hM⟩ := groups_of_shapes (ofGroup_shapes ih) fs f ts hw hd hts
    rw [Field.ofTokensWithin_succ, hG.splitGroups]
    exact hM

/-! ## Writing and reading back -/

/-- `parse` reads the canonical text of a well-formed field back to the field, when the field nests at most
`foldDepth` levels. -/
theorem parse_declaration {f : ColumnDecl.Field} (hf : f.WellFormed) (hd : f.depth ≤ foldDepth) :
    Field.parse f.declaration = .ok f := by
  obtain ⟨ts, hts, hsh⟩ := tokenize_of_declares (declares hf)
  have hfold : Field.ofTokens ts = .ok [f] :=
    ofTokensWithin_shapes _ f [] ts ⟨hf, trivial⟩ (by rw [hsh, tailShapes, List.append_nil])
      (by simp only [Field.listDepth]; omega)
  simp only [Field.parse, Field.readAll, hts, hfold]
  rfl

theorem declaration?_eq (f : ColumnDecl.Field) :
    f.declaration? = if f.depth ≤ renderDepth then .ok f.declaration else .error .tooDeep := by
  have h : Field.listDepth [f] = f.depth + 1 := by simp [Field.listDepth]
  simp only [declaration?, render?, h, Nat.add_le_add_iff_right, joinDeclarations]

/-- Writing a well-formed field definition and reading the text back gives the field, exactly when the field nests
at most `renderDepth` levels; a deeper field is not written. -/
theorem parse_declaration_of_wellFormed {f : ColumnDecl.Field} (hf : f.WellFormed) :
    (∃ d, f.declaration? = .ok d ∧ Field.parse d = .ok f) ↔ f.depth ≤ renderDepth := by
  rw [declaration?_eq]
  constructor
  · rintro ⟨d, hd, -⟩
    split at hd
    · assumption
    · cases hd
  · intro h
    exact ⟨_, if_pos h, parse_declaration hf (Nat.le_trans h (by decide))⟩

/-- An array of structs: a name, a nested region of two fields, and a length with a comma in it. -/
theorem parse_declaration_of_wellFormed_tags :
    Field.WellFormed ⟨some "tags", "ARRAY", none, [⟨none, "STRUCT", none,
      [⟨some "x", "NUMERIC", some "10, 2", []⟩, ⟨some "y", "STRING", none, []⟩]⟩]⟩ ∧
    ((∃ d, Field.declaration? ⟨some "tags", "ARRAY", none, [⟨none, "STRUCT", none,
        [⟨some "x", "NUMERIC", some "10, 2", []⟩, ⟨some "y", "STRING", none, []⟩]⟩]⟩ = .ok d ∧
      Field.parse d = .ok ⟨some "tags", "ARRAY", none, [⟨none, "STRUCT", none,
        [⟨some "x", "NUMERIC", some "10, 2", []⟩, ⟨some "y", "STRING", none, []⟩]⟩]⟩) ↔
      Field.depth ⟨some "tags", "ARRAY", none, [⟨none, "STRUCT", none,
        [⟨some "x", "NUMERIC", some "10, 2", []⟩, ⟨some "y", "STRING", none, []⟩]⟩]⟩ ≤ renderDepth) := by
  have h : Field.WellFormed ⟨some "tags", "ARRAY", none, [⟨none, "STRUCT", none,
      [⟨some "x", "NUMERIC", some "10, 2", []⟩, ⟨some "y", "STRING", none, []⟩]⟩]⟩ := by decide
  exact ⟨h, parse_declaration_of_wellFormed h⟩

/-! ## A field too deep to write -/

/-- a field nested `n` levels deep, `A<A<...A<B>...>>` -/
def nestedField : Nat → ColumnDecl.Field
  | 0 => ⟨none, "B", none, []⟩
  | n + 1 => ⟨none, "A", none, [nestedField n]⟩

theorem nestedField_wellFormed (n : Nat) : (nestedField n).WellFormed := by
  induction n with
  | zero => decide
  | succ n ih => exact ⟨by decide, trivial, trivial, ih, trivial⟩

theorem depth_nestedField (n : Nat) : (nestedField n).depth = n := by
  induction n with
  | zero => rfl
  | succ n ih => simp [nestedField, Field.depth, Field.listDepth, ih]

/-- A well-formed field nested 400 levels deep is not written, so it is not read back. -/
theorem declaration_refuses_deep_field :
    (nestedField 400).WellFormed ∧
      ¬∃ d, (nestedField 400).declaration? = .ok d ∧ Field.parse d = .ok (nestedField 400) := by
  refine ⟨nestedField_wellFormed 400, ?_⟩
  rintro ⟨d, hd, -⟩
  rw [declaration?_eq, depth_nestedField, if_neg (by decide)] at hd
  cases hd

end Field

end ColumnDecl
