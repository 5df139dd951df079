import ColumnDecl.Proofs.Acceptance

/-
The regions of a token tree that `tokenize` returns are well formed.

A region is the top level of a tree or the children of one NESTED token. Its form, one level deep, is
`field (FIELD_DELIMITER field)*`, where a field is an optional NAME, then one TYPE, then at most one LENGTH or
NESTED token; NAME and TYPE lexemes are identifiers and a LENGTH lexeme is a length argument of the grammar.
`RegionForm` states this of the shapes of a region, and `Shape.WellNested` that every nested region below a shape
has it too.

- `Grammar.Seq.form`: a derivation yields shapes of that form, at every depth;
- `walk_eq_listPreorder`: the walk with an explicit stack visits the tokens in pre-order;
- `RegionForm.counts`: a region holds one FIELD_DELIMITER fewer than it holds TYPE tokens;
- `tokenize_regions_wellFormed`: the top level and the children of every NESTED token the walk visits are regions of
  that form, with their counts.
-/

namespace ColumnDecl

open Scan Grammar
open Token (listShape)

/-! ## The form of a region -/

/-- the identifiers of a field: a type, or a name then a type -/
inductive NamesForm : List Shape → Prop
  | type {ty : String} : IsIdent ty.toList → NamesForm [.leaf .type ty]
  | named {n ty : String} : IsIdent n.toList → IsIdent ty.toList → NamesForm [.leaf .name n, .leaf .type ty]

/-- what may follow the type of a field: nothing, a length argument, or one nested region -/
inductive SuffixForm : List Shape → Prop
  | none : SuffixForm []
  | length {l : String} : LengthText l.toList → SuffixForm [.leaf .length l]
  | nested {cs : List Shape} : SuffixForm [.nested cs]

/-- the shapes of one field definition -/
def FieldForm (f : List Shape) : Prop := ∃ h s, NamesForm h ∧ SuffixForm s ∧ f = h ++ s

/-- the fields of a region after its first, each after a delimiter -/
inductive TailForm : List Shape → Prop
  | nil : TailForm []
  | cons {f u} : FieldForm f → TailForm u → TailForm (.leaf .delimiter "," :: (f ++ u))

/-- one level of a region: a field, then a delimiter before each further field -/
def RegionForm (out : List Shape) : Prop := ∃ f u, FieldForm f ∧ TailForm u ∧ out = f ++ u

mutual
/-- every nested region within the shape has the form of a region -/
def Shape.WellNested : Shape → Prop
  | .leaf _ _ => True
  | .nested cs => RegionForm cs ∧ Shape.ListWellNested cs

/-- every nested region within the shapes has the form of a region -/
def Shape.ListWellNested : List Shape → Prop
  | [] => True
  | s :: ss => Shape.WellNested s ∧ Shape.ListWellNested ss
end

/-- the kind of a shape as dumps spell it -/
def Shape.kindLabel : Shape → String
  | .leaf k _ => k.label
  | .nested _ => "NESTED"

namespace Shape

@[simp] theorem kindLabel_leaf {k : LeafKind} {l : String} : (Shape.leaf k l).kindLabel = k.label := rfl

@[simp] theorem kindLabel_nested {cs : List Shape} : (Shape.nested cs).kindLabel = "NESTED" := rfl

@[simp] theorem listWellNested_nil : ListWellNested [] := trivial

@[simp] theorem listWellNested_cons {s : Shape} {ss : List Shape} :
    ListWellNested (s :: ss) ↔ WellNested s ∧ ListWellNested ss := Iff.rfl

@[simp] theorem wellNested_leaf {k : LeafKind} {l : String} : WellNested (.leaf k l) := trivial

@[simp] theorem wellNested_nested {cs : List Shape} : WellNested (.nested cs) ↔ RegionForm cs ∧ ListWellNested cs :=
  Iff.rfl

@[simp] theorem listWellNested_append {a b : List Shape} :
    ListWellNested (a ++ b) ↔ ListWellNested a ∧ ListWellNested b := by
  induction a with
  | nil => simp
  | cons s a ih => simp [ih, and_assoc]

end Shape

theorem NamesForm.listWellNested {h : List Shape} (hn : NamesForm h) : Shape.ListWellNested h := by
  cases hn <;> simp

/-! ## Counting the kinds of a region -/

theorem Token.kindLabel_shape (t : Token) : t.shape.kindLabel = t.kindLabel := by
  cases t <;> rfl

/-- Counting tokens of a kind is counting their shapes. -/
theorem countP_kindLabel (r : List Token) (x : String) :
    r.countP (·.kindLabel == x) = (listShape r).countP (·.kindLabel == x) := by
  rw [listShape_eq_map, List.countP_map]
  congr 1
  funext t
  simp [Token.kindLabel_shape]

theorem FieldForm.counts {f : List Shape} (h : FieldForm f) :
    f.countP (·.kindLabel == "FIELD_DELIMITER") = 0 ∧ f.countP (·.kindLabel == "TYPE") = 1 := by
  obtain ⟨h, s, hn, hs, rfl⟩ := h
  cases hn <;> cases hs <;> simp [LeafKind.label]

theorem TailForm.counts {u : List Shape} (h : TailForm u) :
    u.countP (·.kindLabel == "FIELD_DELIMITER") = u.countP (·.kindLabel == "TYPE") := by
  induction h with
  | nil => rfl
  | cons hf _ ih =>
    have hc := hf.counts
    rw [List.countP_cons, List.countP_cons, List.countP_append, List.countP_append, hc.1, hc.2, ih]
    simp [LeafKind.label]
    omega

/-- A region holds one delimiter fewer than it holds fields, each with its one TYPE. -/
theorem RegionForm.counts {out : List Shape} (h : RegionForm out) :
    out.countP (·.kindLabel == "FIELD_DELIMITER") + 1 = out.countP (·.kindLabel == "TYPE") := by
  obtain ⟨f, u, hf, hu, rfl⟩ := h
  have hc := hf.counts
  rw [List.countP_append, List.countP_append, hc.1, hc.2, hu.counts]
  omega

/-! ## Derivations yield regions of that form -/

theorem Grammar.Names.form {t r : List Char} {h : List Shape} (hn : Names t r h) : NamesForm h := by
  cases hn with
  | type hl => exact .type (by simpa using hl)
  | named hn _ _ hl => exact .named (by simpa using hn) (by simpa using hl)

mutual
theorem Grammar.Suffix.form {t r : List Char} {s : List Shape} :
    Suffix t r s → SuffixForm s ∧ Shape.ListWellNested s
  | .none => ⟨.none, trivial⟩
  | .length _ hl => ⟨.length (by simpa using hl), by simp⟩
  | .nested _ _ hf hm _ =>
    -- the fields of the region are its first field and the further ones after commas
    have hf' := Grammar.Field.form hf
    have hm' := Grammar.More.form hm
    ⟨.nested, by simpa using ⟨⟨_, _, hf'.1, hm'.1, rfl⟩, hf'.2, hm'.2⟩⟩

theorem Grammar.Field.form {t r : List Char} {f : List Shape} : Field t r f → FieldForm f ∧ Shape.ListWellNested f
  | .mk hn hs =>
    have hs' := Grammar.Suffix.form hs
    ⟨⟨_, _, hn.form, hs'.1, rfl⟩, by simpa using ⟨hn.form.listWellNested, hs'.2⟩⟩

theorem Grammar.More.form {t r : List Char} {u : List Shape} : More t r u → TailForm u ∧ Shape.ListWellNested u
  | .nil => ⟨.nil, trivial⟩
  | .cons _ _ hf hm =>
    have hf' := Grammar.Field.form hf
    have hm' := Grammar.More.form hm
    ⟨.cons hf'.1 hm'.1, by simpa using ⟨hf'.2, hm'.2⟩⟩
end

theorem Grammar.Seq.form {t r : List Char} {out : List Shape} (h : Seq t r out) :
    RegionForm out ∧ Shape.ListWellNested out := by
  obtain ⟨t', f, u, hf, hm, rfl⟩ := h
  have hf' := hf.form
  have hm' := hm.form
  exact ⟨⟨f, u, hf'.1, hm'.1, rfl⟩, by simpa using ⟨hf'.2, hm'.2⟩⟩

/-! ## From shapes to the tokens the walk visits -/

theorem walkFrom_map_snd (p : Token.Pending) : (Token.walkFrom p).map Prod.snd = p.flatMap Token.listPreorder := by
  fun_induction Token.walkFrom p with
  | case1 => rfl
  | case2 rest ih => simpa [Token.listPreorder] using ih
  | case3 k l s ts rest ih => simpa [Token.preorder, Token.listPreorder] using ih
  | case4 cs s ts rest ih => simpa [Token.preorder, Token.listPreorder] using ih

/-- The walk with an explicit stack visits the tokens of a tree in pre-order. -/
theorem walk_eq_listPreorder (ts : List Token) : Token.walk ts = Token.listPreorder ts := by
  have h := walkFrom_map_snd [ts]
  simpa [Token.walk, Token.walkLevels] using h

mutual
theorem Token.region_of_mem_preorder : ∀ (t : Token), Shape.WellNested t.shape →
    ∀ {cs : List Token} {sp : Span}, Token.nested cs sp ∈ t.preorder → RegionForm (listShape cs)
  | .leaf _ _ _, _, _, _, hm => by simp [Token.preorder] at hm
  | .nested cs' _, h, _, _, hm => by
    simp only [Token.preorder, List.mem_cons, Token.nested.injEq] at hm
    rcases hm with ⟨rfl, -⟩ | hm
    · exact h.1
    · exact Token.region_of_mem_listPreorder cs' h.2 hm

theorem Token.region_of_mem_listPreorder : ∀ (ts : List Token), Shape.ListWellNested (listShape ts) →
    ∀ {cs : List Token} {sp : Span}, Token.nested cs sp ∈ Token.listPreorder ts → RegionForm (listShape cs)
  | [], _, _, _, hm => by simp [Token.listPreorder] at hm
  | t :: ts, h, _, _, hm => by
    simp only [Token.listPreorder, List.mem_append] at hm
    rcases hm with hm | hm
    · exact Token.region_of_mem_preorder t h.1 hm
    · exact Token.region_of_mem_listPreorder ts h.2 hm
end

/-! ## The tokenizer -/

/-- The top level of a tree that `tokenize` returns, and the children of each NESTED token its walk visits, are
regions of the form `field (FIELD_DELIMITER field)*`, with one FIELD_DELIMITER fewer than TYPE tokens. -/
theorem tokenize_regions_wellFormed {s : String} {ts r : List Token} (h : tokenize s = .ok ts)
    (hr : r = ts ∨ ∃ sp, Token.nested r sp ∈ Token.walk ts) :
    RegionForm (listShape r) ∧
      r.countP (·.kindLabel == "FIELD_DELIMITER") + 1 = r.countP (·.kindLabel == "TYPE") := by
  obtain ⟨_, _, _, _, _, _, hseq⟩ := tokenize_declares h
  have hw := hseq.form
  have hform : RegionForm (listShape r) := by
    rcases hr with rfl | ⟨sp, hm⟩
    · exact hw.1
    · rw [walk_eq_listPreorder] at hm
      exact Token.region_of_mem_listPreorder ts hw.2 hm
  refine ⟨hform, ?_⟩
  rw [countP_kindLabel, countP_kindLabel]
  exact hform.counts

unseal fieldAt closeAt in
/-- The region of a nested field of two fields. -/
theorem tokenize_nested_region_wellFormed :
    tokenize "a <b, c>" = .ok [.leaf .type "a" ⟨0, 1⟩,
      .nested [.leaf .type "b" ⟨3, 4⟩, .leaf .delimiter "," ⟨4, 5⟩, .leaf .type "c" ⟨6, 7⟩] ⟨2, 8⟩] ∧
    (∃ sp, Token.nested [.leaf .type "b" ⟨3, 4⟩, .leaf .delimiter "," ⟨4, 5⟩, .leaf .type "c" ⟨6, 7⟩] sp ∈
      Token.walk [.leaf .type "a" ⟨0, 1⟩,
        .nested [.leaf .type "b" ⟨3, 4⟩, .leaf .delimiter "," ⟨4, 5⟩, .leaf .type "c" ⟨6, 7⟩] ⟨2, 8⟩]) ∧
    RegionForm (listShape [.leaf .type "b" ⟨3, 4⟩, .leaf .delimiter "," ⟨4, 5⟩, .leaf .type "c" ⟨6, 7⟩]) ∧
    [Token.leaf .type "b" ⟨3, 4⟩, .leaf .delimiter "," ⟨4, 5⟩, .leaf .type "c" ⟨6, 7⟩].countP
        (·.kindLabel == "FIELD_DELIMITER") + 1 =
      [Token.leaf .type "b" ⟨3, 4⟩, .leaf .delimiter "," ⟨4, 5⟩, .leaf .type "c" ⟨6, 7⟩].countP
        (·.kindLabel == "TYPE") := by
  have h : tokenize "a <b, c>" = .ok [.leaf .type "a" ⟨0, 1⟩,
      .nested [.leaf .type "b" ⟨3, 4⟩, .leaf .delimiter "," ⟨4, 5⟩, .leaf .type "c" ⟨6, 7⟩] ⟨2, 8⟩] := rfl
  have hr : ∃ sp, Token.nested [.leaf .type "b" ⟨3, 4⟩, .leaf .delimiter "," ⟨4, 5⟩, .leaf .type "c" ⟨6, 7⟩] sp ∈
      Token.walk [.leaf .type "a" ⟨0, 1⟩,
        .nested [.leaf .type "b" ⟨3, 4⟩, .leaf .delimiter "," ⟨4, 5⟩, .leaf .type "c" ⟨6, 7⟩] ⟨2, 8⟩] :=
    ⟨⟨2, 8⟩, by simp [walk_eq_listPreorder, Token.listPreorder, Token.preorder]⟩
  exact ⟨h, hr, tokenize_regions_wellFormed h (.inr hr)⟩

end ColumnDecl
