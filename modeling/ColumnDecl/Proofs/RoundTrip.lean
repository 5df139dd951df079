import ColumnDecl.Field.OfTokens
import ColumnDecl.Proofs.Regions

/-
Canonical rendering and the tokenizer.

The canonical text of a well-formed tree is a function of its shapes alone (`Shape.listText`): a name and a blank,
a type, a length between parentheses, `, ` for a delimiter and a nested region between `<` and `>`. Folding a tree
into field definitions and writing them back gives that text, as long as the tree fits in the frame budgets of the
two recursive views; a tree nested deeper than `Field.renderDepth` levels is refused with `tooDeep`.

- `folds_within`: folding a well-formed region, level by level, by induction on the budget;
- `Grammar.Seq.canonical`: the canonical text of the shapes of a derivation derives the same shapes;
- `renderTokens_of_wellFormed`: what rendering a well-formed tree gives, at every depth;
- `tokenize_render_roundTrip`: for a tree that `tokenize` returns, the canonical text is read back to a tree of
  the same shapes that renders to the same text, exactly when the tree nests at most `Field.renderDepth` levels;
- `render_refuses_deep_declaration`: a declaration nested 2000 levels deep is read, but not rendered.
-/

namespace ColumnDecl

open Scan Grammar
open Token (listShape)

/-! ## The canonical text of shapes -/

mutual
/-- the canonical text of a shape -/
def Shape.text : Shape → String
  | .leaf .name n => n ++ " "
  | .leaf .type ty => ty
  | .leaf .length l => "(" ++ l ++ ")"
  | .leaf .delimiter _ => ", "
  | .nested cs => "<" ++ Shape.listText cs ++ ">"

/-- the canonical text of shapes, one after the other -/
def Shape.listText : List Shape → String
  | [] => ""
  | s :: ss => s.text ++ Shape.listText ss
end

namespace Shape

@[simp] theorem listText_nil : listText [] = "" := by simp [listText]

@[simp] theorem listText_cons {s : Shape} {ss : List Shape} : listText (s :: ss) = s.text ++ listText ss := by
  simp [listText]

@[simp] theorem listText_append {a b : List Shape} : listText (a ++ b) = listText a ++ listText b := by
  induction a with
  | nil => simp
  | cons s a ih => simp [ih, String.append_assoc]

@[simp] theorem text_leaf_name {n : String} : (Shape.leaf .name n).text = n ++ " " := by simp [text]

@[simp] theorem text_leaf_type {ty : String} : (Shape.leaf .type ty).text = ty := by simp [text]

@[simp] theorem text_leaf_length {l : String} : (Shape.leaf .length l).text = "(" ++ l ++ ")" := by simp [text]

@[simp] theorem text_leaf_delimiter {d : String} : (Shape.leaf .delimiter d).text = ", " := by simp [text]

@[simp] theorem text_nested {cs : List Shape} : (Shape.nested cs).text = "<" ++ listText cs ++ ">" := by
  simp [text]

end Shape

/-! ## Depth is a property of shapes -/

mutual
theorem Token.depth_congr : ∀ {a b : Token}, a.shape = b.shape → a.depth = b.depth
  | .leaf _ _ _, .leaf _ _ _, _ => rfl
  | .leaf _ _ _, .nested _ _, h => by simp [Token.shape] at h
  | .nested _ _, .leaf _ _ _, h => by simp [Token.shape] at h
  | .nested as _, .nested bs _, h => by
    simp only [Token.shape, Shape.nested.injEq] at h
    simp [Token.depth, Token.listDepth_congr h]

theorem Token.listDepth_congr : ∀ {a b : List Token}, listShape a = listShape b → Token.listDepth a = Token.listDepth b
  | [], [], _ => rfl
  | [], _ :: _, h => by simp [listShape] at h
  | _ :: _, [], h => by simp [listShape] at h
  | a :: as, b :: bs, h => by
    simp only [listShape, List.cons.injEq] at h
    simp [Token.listDepth, Token.depth_congr h.1, Token.listDepth_congr h.2]
end

theorem Token.shapes?_congr {a b : List Token} (h : listShape a = listShape b) : Token.shapes? a = Token.shapes? b := by
  simp only [Token.shapes?, Token.listDepth_congr h, h]

theorem Token.listDepth_append (a b : List Token) :
    Token.listDepth (a ++ b) = max (Token.listDepth a) (Token.listDepth b) := by
  induction a with
  | nil => simp [Token.listDepth]
  | cons t a ih => simp [Token.listDepth, ih, Nat.max_assoc]

/-! ## Cutting a region at its delimiters -/

theorem Token.isDelimiter_eq (t : Token) : t.isDelimiter = (t.shape.kindLabel == "FIELD_DELIMITER") := by
  rcases t with ⟨k, l, s⟩ | ⟨cs, s⟩
  · cases k <;> simp [Token.isDelimiter, Token.shape, LeafKind.label]
  · simp [Token.isDelimiter, Token.shape]

theorem FieldForm.no_delimiter {g : List Token} (h : FieldForm (listShape g)) : ∀ t ∈ g, t.isDelimiter = false := by
  intro t ht
  have hmem : t.shape ∈ listShape g := by
    rw [listShape_eq_map]
    exact List.mem_map_of_mem ht
  have h0 := List.countP_eq_zero.1 h.counts.1 t.shape hmem
  rw [Token.isDelimiter_eq]
  simpa using h0

theorem FieldForm.ne_nil {g : List Token} (h : FieldForm (listShape g)) : g ≠ [] := by
  rintro rfl
  simpa [listShape] using h.counts.2

/-- the tokens of a region cut at its delimiters into the groups of its fields -/
inductive Groups : List Token → List (List Token) → Prop
  | last {g} : FieldForm (listShape g) → Groups g [g]
  | cons {g d rest gs} : FieldForm (listShape g) → d.isDelimiter = true → Groups rest gs →
      Groups (g ++ d :: rest) (g :: gs)

theorem groups_of_regionForm {ts : List Token} (h : RegionForm (listShape ts)) : ∃ gs, Groups ts gs := by
  obtain ⟨f, u, hf, hu, he⟩ := h
  induction hu generalizing ts f with
  | nil =>
    rw [List.append_nil] at he
    exact ⟨[ts], .last (he ▸ hf)⟩
  | cons hf' _ ih =>
    rw [listShape_eq_map, List.map_eq_append_iff] at he
    obtain ⟨g, rest, rfl, hg, hrest⟩ := he
    rw [List.map_eq_cons_iff] at hrest
    obtain ⟨d, rest', rfl, hd, hrest'⟩ := hrest
    obtain ⟨gs, hgs⟩ := ih _ hf' (by rw [listShape_eq_map]; exact hrest')
    refine ⟨g :: gs, .cons (by rw [listShape_eq_map, hg]; exact hf) ?_ hgs⟩
    rw [Token.isDelimiter_eq, hd]
    rfl

theorem splitGroups_go_append {acc g : List Token} (hg : ∀ t ∈ g, t.isDelimiter = false) (rest : List Token) :
    splitGroups.go acc (g ++ rest) = splitGroups.go (g.reverse ++ acc) rest := by
  induction g generalizing acc with
  | nil => rfl
  | cons t g ih =>
    simp only [List.mem_cons, forall_eq_or_imp] at hg
    rw [List.cons_append, splitGroups.go, if_neg (by simp [hg.1]), ih hg.2]
    simp

theorem Groups.go_eq {ts : List Token} {gs : List (List Token)} (h : Groups ts gs) : splitGroups.go [] ts = gs := by
  induction h with
  | @last g hf =>
    rw [← List.append_nil g, splitGroups_go_append hf.no_delimiter]
    simp [splitGroups.go]
  | cons hf hd _ ih =>
    rw [splitGroups_go_append hf.no_delimiter, splitGroups.go, if_pos hd, ih]
    simp

theorem Groups.ne_nil {ts : List Token} {gs : List (List Token)} (h : Groups ts gs) : ∀ g ∈ gs, g ≠ [] := by
  induction h with
  | last hf => simpa using hf.ne_nil
  | cons hf _ _ ih =>
    simp only [List.mem_cons, forall_eq_or_imp]
    exact ⟨hf.ne_nil, ih⟩

/-- The groups that `splitGroups` cuts a region into are those of its fields: the last holds a type, so none is
dropped. -/
theorem Groups.splitGroups {ts : List Token} {gs : List (List Token)} (h : Groups ts gs) : splitGroups ts = gs := by
  simp only [ColumnDecl.splitGroups, h.go_eq]
  split
  · rename_i hl
    obtain ⟨ys, rfl⟩ := List.getLast?_eq_some_iff.1 hl
    exact absurd rfl (h.ne_nil [] (by simp))
  · rfl

/-! ## Folding a region into field definitions -/

theorem ok_bind {ε α β : Type} (a : α) (f : α → Except ε β) : (Except.ok a >>= f) = f a := rfl

theorem error_bind {ε α β : Type} (e : ε) (f : α → Except ε β) : (Except.error e >>= f) = .error e := rfl

theorem ok_pure {ε α : Type} (a : α) : (pure a : Except ε α) = .ok a := rfl

@[simp] theorem listShape_eq_nil {g : List Token} : listShape g = [] ↔ g = [] := by
  rw [listShape_eq_map, List.map_eq_nil_iff]

theorem listShape_eq_leaf_cons {g : List Token} {k : LeafKind} {l : String} {rest : List Shape}
    (h : listShape g = .leaf k l :: rest) : ∃ sp g', g = .leaf k l sp :: g' ∧ listShape g' = rest := by
  cases g with
  | nil => simp [listShape] at h
  | cons t g' =>
    simp only [listShape, List.cons.injEq] at h
    obtain ⟨ht, hg⟩ := h
    cases t with
    | leaf k' l' sp =>
      simp only [Token.shape, Shape.leaf.injEq] at ht
      obtain ⟨rfl, rfl⟩ := ht
      exact ⟨sp, g', rfl, hg⟩
    | nested => simp [Token.shape] at ht

theorem listShape_eq_nested {g : List Token} {cs' : List Shape} (h : listShape g = [.nested cs']) :
    ∃ cs sp, g = [.nested cs sp] ∧ listShape cs = cs' := by
  rw [listShape_eq_map, List.map_eq_singleton_iff] at h
  obtain ⟨t, rfl, ht⟩ := h
  cases t with
  | leaf => simp [Token.shape] at ht
  | nested cs sp =>
    simp only [Token.shape, Shape.nested.injEq] at ht
    exact ⟨cs, sp, rfl, ht⟩

/-- folding the region `ts` within the budget `b` gives fields one level deeper than the tree, written as the
canonical text of its shapes, or `tooDeep` when the tree does not fit in the budget -/
def FoldsWithin (b : Nat) (ts : List Token) : Prop :=
  (Token.listDepth ts < b → ∃ fs, Field.ofTokensWithin b ts = .ok fs ∧
      Field.listDepth fs = Token.listDepth ts + 1 ∧ Field.joinDeclarations fs = Shape.listText (listShape ts)) ∧
    (b ≤ Token.listDepth ts → Field.ofTokensWithin b ts = .error .tooDeep)

/-- the same for the tokens of one field, whose nested region is folded within `b` -/
def GroupFolds (b : Nat) (g : List Token) : Prop :=
  (Token.listDepth g ≤ b → ∃ f, FieldDraft.ofGroup (Field.ofTokensWithin b) g = .ok f ∧
      f.depth = Token.listDepth g ∧ f.declaration = Shape.listText (listShape g)) ∧
    (b < Token.listDepth g → FieldDraft.ofGroup (Field.ofTokensWithin b) g = .error .tooDeep)

/-- The identifiers of a field fold into its name and type. -/
theorem NamesForm.fold {gn : List Token} (h : NamesForm (listShape gn))
    (fold : List Token → Except TreeError (List Field)) :
    ∃ name ty, gn.foldlM (FieldDraft.add fold) {} = .ok ⟨name, some ty, none, []⟩ ∧
      (ColumnDecl.Field.mk name ty none []).declaration = Shape.listText (listShape gn) ∧ Token.listDepth gn = 0 := by
  generalize hh : listShape gn = h' at h
  cases h with
  | @type ty _ =>
    obtain ⟨sp, g', rfl, hg'⟩ := listShape_eq_leaf_cons hh
    obtain rfl := listShape_eq_nil.1 hg'
    exact ⟨none, ty, rfl, by simp [Field.declaration], by simp [Token.listDepth, Token.depth]⟩
  | @named n ty _ _ =>
    obtain ⟨sp, g', rfl, hg'⟩ := listShape_eq_leaf_cons hh
    obtain ⟨sp', g'', rfl, hg''⟩ := listShape_eq_leaf_cons hg'
    obtain rfl := listShape_eq_nil.1 hg''
    exact ⟨some n, ty, rfl, by simp [Field.declaration, String.append_assoc],
      by simp [Token.listDepth, Token.depth]⟩

section Fold

variable {b : Nat} (ih : ∀ cs, RegionForm (listShape cs) → Shape.ListWellNested (listShape cs) → FoldsWithin b cs)
include ih

/-- What follows the type of a field completes its definition, folding a nested region within `b`. -/
theorem SuffixForm.fold {gx : List Token} (h : SuffixForm (listShape gx)) (hw : Shape.ListWellNested (listShape gx))
    (name : Option String) (ty : String) :
    (Token.listDepth gx ≤ b → ∃ f,
        (gx.foldlM (FieldDraft.add (Field.ofTokensWithin b)) ⟨name, some ty, Option.none, []⟩ >>= FieldDraft.finish) =
          .ok f ∧ f.depth = Token.listDepth gx ∧
        f.declaration = (ColumnDecl.Field.mk name ty Option.none []).declaration ++ Shape.listText (listShape gx)) ∧
      (b < Token.listDepth gx →
        (gx.foldlM (FieldDraft.add (Field.ofTokensWithin b)) ⟨name, some ty, Option.none, []⟩ >>= FieldDraft.finish) =
          .error .tooDeep) := by
  generalize hh : listShape gx = s at h
  cases h with
  | none =>
    obtain rfl := listShape_eq_nil.1 hh
    exact ⟨fun _ => ⟨_, rfl, rfl, by simp⟩, fun hd => absurd hd (by simp [Token.listDepth])⟩
  | @length l _ =>
    obtain ⟨sp, g', rfl, hg'⟩ := listShape_eq_leaf_cons hh
    obtain rfl := listShape_eq_nil.1 hg'
    refine ⟨fun _ => ⟨⟨name, ty, some l, []⟩, rfl, rfl, ?_⟩,
      fun hd => absurd hd (by simp [Token.listDepth, Token.depth])⟩
    cases name <;> simp [Field.declaration, String.append_assoc]
  | @nested cs' =>
    obtain ⟨cs, sp, rfl, hcs⟩ := listShape_eq_nested hh
    simp only [listShape, Token.shape, Shape.listWellNested_cons, Shape.wellNested_nested] at hw
    -- the nested region is folded one level down, where the budget is `b`
    obtain ⟨hok, herr⟩ := ih cs hw.1.1 hw.1.2
    have hdepth : Token.listDepth [Token.nested cs sp] = Token.listDepth cs + 1 := by
      simp [Token.listDepth, Token.depth]
    rw [hdepth]
    refine ⟨fun hd => ?_, fun hd => ?_⟩
    · obtain ⟨fs, hfs, hdfs, hjoin⟩ := hok (by omega)
      obtain ⟨f₀, fs', rfl⟩ : ∃ f₀ fs', fs = f₀ :: fs' := by
        cases fs with
        | nil => simp [Field.listDepth] at hdfs
        | cons f₀ fs' => exact ⟨f₀, fs', rfl⟩
      refine ⟨⟨name, ty, Option.none, f₀ :: fs'⟩, ?_, by simp [Field.depth, hdfs], ?_⟩
      · simp only [List.foldlM_cons, List.foldlM_nil, FieldDraft.add, hfs, ok_bind, ok_pure]
        rfl
      · cases name <;> simp [Field.declaration, hjoin, hcs, String.append_assoc]
    · simp only [List.foldlM_cons, FieldDraft.add, herr (by omega), error_bind]

/-- The tokens of a field fold into its definition, whose canonical text is that of their shapes. -/
theorem group_folds {g : List Token} (hf : FieldForm (listShape g)) (hw : Shape.ListWellNested (listShape g)) :
    GroupFolds b g := by
  obtain ⟨h, s, hn, hs, he⟩ := hf
  rw [listShape_eq_map, List.map_eq_append_iff] at he
  obtain ⟨gn, gx, rfl, hgn, hgx⟩ := he
  rw [← listShape_eq_map] at hgn hgx
  rw [← hgn] at hn
  rw [← hgx] at hs
  obtain ⟨name, ty, hfold, hdecl, hdepth⟩ := hn.fold (Field.ofTokensWithin b)
  rw [listShape_append, Shape.listWellNested_append] at hw
  have hsfx := hs.fold ih hw.2 name ty
  have hdep : Token.listDepth (gn ++ gx) = Token.listDepth gx := by
    rw [Token.listDepth_append, hdepth, Nat.zero_max]
  have hgroup : FieldDraft.ofGroup (Field.ofTokensWithin b) (gn ++ gx) =
      (gx.foldlM (FieldDraft.add (Field.ofTokensWithin b)) ⟨name, some ty, none, []⟩ >>= FieldDraft.finish) := by
    simp only [FieldDraft.ofGroup, List.foldlM_append, hfold, ok_bind]
  rw [GroupFolds, hgroup, hdep, listShape_append, Shape.listText_append, ← hdecl]
  exact hsfx

end Fold

theorem Token.shape_of_isDelimiter {d : Token} (h : d.isDelimiter = true) : ∃ l sp, d = .leaf .delimiter l sp := by
  rcases d with ⟨k, l, sp⟩ | ⟨cs, sp⟩
  · cases k <;> simp [Token.isDelimiter] at h
    exact ⟨l, sp, rfl⟩
  · simp [Token.isDelimiter] at h

theorem Field.eq_cons_of_listDepth {fs : List Field} {n : Nat} (h : Field.listDepth fs = n + 1) :
    ∃ f fs', fs = f :: fs' := by
  cases fs with
  | nil => simp [Field.listDepth] at h
  | cons f fs' => exact ⟨f, fs', rfl⟩

/-- The groups of a region fold one after the other; the first group that nests too deep stops the fold. -/
theorem Groups.folds {b : Nat} {ts : List Token} {gs : List (List Token)} (h : Groups ts gs)
    (hw : Shape.ListWellNested (listShape ts))
    (hg : ∀ g, FieldForm (listShape g) → Shape.ListWellNested (listShape g) → GroupFolds b g) :
    (Token.listDepth ts ≤ b → ∃ fs, gs.mapM (FieldDraft.ofGroup (Field.ofTokensWithin b)) = .ok fs ∧
        Field.listDepth fs = Token.listDepth ts + 1 ∧ Field.joinDeclarations fs = Shape.listText (listShape ts)) ∧
      (b < Token.listDepth ts → gs.mapM (FieldDraft.ofGroup (Field.ofTokensWithin b)) = .error .tooDeep) := by
  induction h with
  | @last g hf =>
    obtain ⟨h1, h2⟩ := hg g hf hw
    refine ⟨fun hd => ?_, fun hd => ?_⟩
    · obtain ⟨f, hok, hdep, hdecl⟩ := h1 hd
      refine ⟨[f], ?_, by simp [Field.listDepth, hdep], by simp [Field.joinDeclarations, hdecl]⟩
      simp only [List.mapM_cons, List.mapM_nil, hok, ok_bind, ok_pure]
    · simp only [List.mapM_cons, h2 hd, error_bind]
  | @cons g d rest gs hf hd _ ih =>
    obtain ⟨l, sp, rfl⟩ := Token.shape_of_isDelimiter hd
    simp only [listShape_append, listShape, Token.shape, Shape.listWellNested_append, Shape.listWellNested_cons,
      Shape.wellNested_leaf, true_and] at hw
    obtain ⟨h1, h2⟩ := hg g hf hw.1
    obtain ⟨r1, r2⟩ := ih hw.2
    have hdepth : Token.listDepth (g ++ Token.leaf .delimiter l sp :: rest) =
        max (Token.listDepth g) (Token.listDepth rest) := by
      simp [Token.listDepth_append, Token.listDepth, Token.depth]
    rw [hdepth]
    refine ⟨fun hd => ?_, fun hd => ?_⟩
    · obtain ⟨f, hok, hdep, hdecl⟩ := h1 (by omega)
      obtain ⟨fs, hfs, hdfs, hjoin⟩ := r1 (by omega)
      obtain ⟨f₀, fs', rfl⟩ := Field.eq_cons_of_listDepth hdfs
      refine ⟨f :: f₀ :: fs', ?_, ?_, ?_⟩
      · simp only [List.mapM_cons, hok, ok_bind]
        rw [hfs, ok_bind, ok_pure]
      · simp only [Field.listDepth] at hdfs ⊢
        omega
      · simp [Field.joinDeclarations, hdecl, hjoin, listShape_append, listShape, Token.shape, String.append_assoc]
    · by_cases hg' : b < Token.listDepth g
      · simp only [List.mapM_cons, h2 hg', error_bind]
      · obtain ⟨f, hok, -, -⟩ := h1 (by omega)
        simp only [List.mapM_cons, hok, ok_bind, r2 (by omega), error_bind]

theorem Field.ofTokensWithin_succ (b : Nat) (ts : List Token) :
    Field.ofTokensWithin (b + 1) ts = (splitGroups ts).mapM (FieldDraft.ofGroup (Field.ofTokensWithin b)) := rfl

/-- A well-formed region folds within a budget larger than its depth, and is refused with `tooDeep` in any other;
by induction on the budget, each level of nesting taking one. -/
theorem folds_within (b : Nat) :
    ∀ ts, RegionForm (listShape ts) → Shape.ListWellNested (listShape ts) → FoldsWithin b ts := by
  induction b with
  | zero => exact fun _ _ _ => ⟨fun h => absurd h (Nat.not_lt_zero _), fun _ => rfl⟩
  | succ b ih =>
    intro ts hr hw
    obtain ⟨gs, hgs⟩ := groups_of_regionForm hr
    obtain ⟨h1, h2⟩ := hgs.folds hw (fun g hf hgw => group_folds ih hf hgw)
    rw [FoldsWithin, Field.ofTokensWithin_succ, hgs.splitGroups]
    exact ⟨fun hd => h1 (by omega), fun hd => h2 (by omega)⟩

/-- Rendering a well-formed tree gives the canonical text of its shapes, when it nests at most `Field.renderDepth`
levels, and `tooDeep` otherwise. -/
theorem renderTokens_of_wellFormed {ts : List Token} (hr : RegionForm (listShape ts))
    (hw : Shape.ListWellNested (listShape ts)) :
    Field.renderTokens ts =
      if Token.listDepth ts ≤ Field.renderDepth then .ok (Shape.listText (listShape ts)) else .error .tooDeep := by
  obtain ⟨h1, h2⟩ := folds_within (Field.foldDepth + 1) ts hr hw
  have hlim : Field.renderDepth < Field.foldDepth + 1 := by decide
  by_cases hd : Token.listDepth ts < Field.foldDepth + 1
  · obtain ⟨fs, hfs, hdfs, hjoin⟩ := h1 hd
    simp only [Field.renderTokens, Field.ofTokens, hfs, ok_bind, Field.render?, hdfs, hjoin]
    by_cases hr' : Token.listDepth ts ≤ Field.renderDepth
    · rw [if_pos (by omega), if_pos hr']
    · rw [if_neg (by omega), if_neg hr']
  · rw [if_neg (by omega)]
    simp only [Field.renderTokens, Field.ofTokens, h2 (by omega), error_bind]

/-! ## The canonical text derives the same shapes -/

theorem Grammar.Names.canonical {t r : List Char} {h : List Shape} (hn : Names t r h) (r' : List Char) :
    Names ((Shape.listText h).toList ++ r') r' h := by
  cases hn with
  | type hl => simpa using Names.type (r := r') hl
  | named hn _ _ hl =>
    -- one blank between the name and the type
    simpa using Names.named (r := r') hn (show isBlank ' ' = true by decide) blanks_nil hl

mutual
theorem Grammar.Suffix.canonical {t r : List Char} {s : List Shape} :
    Suffix t r s → ∀ r' : List Char, Suffix ((Shape.listText s).toList ++ r') r' s
  | .none, r' => by simpa using (Suffix.none : Suffix r' r' [])
  | .length _ hl, r' => by simpa using Suffix.length (r := r') blanks_nil hl
  | .nested _ _ hf hm _, r' => by
    have h := Suffix.nested blanks_nil blanks_nil (Grammar.Field.canonical hf _) (Grammar.More.canonical hm ('>' :: r'))
      blanks_nil
    simpa using h

theorem Grammar.Field.canonical {t r : List Char} {f : List Shape} :
    Field t r f → ∀ r' : List Char, Field ((Shape.listText f).toList ++ r') r' f
  | .mk hn hs, r' => by
    have h := Grammar.Field.mk (hn.canonical _) (Grammar.Suffix.canonical hs r')
    simpa using h

theorem Grammar.More.canonical {t r : List Char} {u : List Shape} :
    More t r u → ∀ r' : List Char, More ((Shape.listText u).toList ++ r') r' u
  | .nil, r' => by simpa using (More.nil : More r' r' [])
  | .cons _ _ hf hm, r' => by
    -- a comma, then one blank before the next field
    have h := More.cons blanks_nil (show Blanks [' '] by simp; decide) (Grammar.Field.canonical hf _)
      (Grammar.More.canonical hm r')
    simpa using h
end

theorem Grammar.Seq.canonical {t r : List Char} {out : List Shape} (h : Seq t r out) (r' : List Char) :
    Seq ((Shape.listText out).toList ++ r') r' out := by
  obtain ⟨t', f, u, hf, hm, rfl⟩ := h
  exact ⟨_, f, u, by simpa using hf.canonical ((Shape.listText u).toList ++ r'), hm.canonical r', rfl⟩

/-! ## Rendering and reading back -/

/-- The canonical text of a tree that `tokenize` returns is read back, to a tree of the same shapes that renders to
the same text, exactly when the tree nests at most `Field.renderDepth` levels; a deeper tree is not rendered. -/
theorem tokenize_render_roundTrip {s : String} {ts : List Token} (h : tokenize s = .ok ts) :
    (∃ r ts', Field.renderTokens ts = .ok r ∧ tokenize r = .ok ts' ∧ Token.shapes? ts' = Token.shapes? ts ∧
        Field.renderTokens ts' = .ok r) ↔ Token.listDepth ts ≤ Field.renderDepth := by
  obtain ⟨_, _, _, _, _, _, hseq⟩ := tokenize_declares h
  obtain ⟨hr, hw⟩ := hseq.form
  have hren := renderTokens_of_wellFormed hr hw
  constructor
  · rintro ⟨r, ts', hok, -⟩
    rw [hren] at hok
    split at hok
    · assumption
    · cases hok
  · intro hd
    rw [hren, if_pos hd]
    -- the canonical text derives the shapes of the tree, so `tokenize` reads it to a tree of those shapes
    have hdecl : Declares (Shape.listText (listShape ts)).toList (listShape ts) :=
      ⟨[], [], (Shape.listText (listShape ts)).toList, blanks_nil, blanks_nil, (List.nil_append _).symm,
        by simpa using hseq.canonical []⟩
    obtain ⟨ts', hts', hsh⟩ := tokenize_of_declares hdecl
    refine ⟨_, ts', rfl, hts', Token.shapes?_congr hsh, ?_⟩
    rw [renderTokens_of_wellFormed (hsh ▸ hr) (hsh ▸ hw), Token.listDepth_congr hsh, if_pos hd, hsh]

unseal fieldAt closeAt in
/-- A length inside a nested region renders and reads back. -/
theorem tokenize_render_roundTrip_length :
    tokenize "a <b(2)>" =
        .ok [.leaf .type "a" ⟨0, 1⟩, .nested [.leaf .type "b" ⟨3, 4⟩, .leaf .length "2" ⟨5, 6⟩] ⟨2, 8⟩] ∧
      ((∃ r ts', Field.renderTokens
            [.leaf .type "a" ⟨0, 1⟩, .nested [.leaf .type "b" ⟨3, 4⟩, .leaf .length "2" ⟨5, 6⟩] ⟨2, 8⟩] = .ok r ∧
          tokenize r = .ok ts' ∧
          Token.shapes? ts' =
            Token.shapes? [.leaf .type "a" ⟨0, 1⟩, .nested [.leaf .type "b" ⟨3, 4⟩, .leaf .length "2" ⟨5, 6⟩] ⟨2, 8⟩] ∧
          Field.renderTokens ts' = .ok r) ↔
        Token.listDepth [.leaf .type "a" ⟨0, 1⟩, .nested [.leaf .type "b" ⟨3, 4⟩, .leaf .length "2" ⟨5, 6⟩] ⟨2, 8⟩] ≤
          Field.renderDepth) := by
  have h : tokenize "a <b(2)>" =
      .ok [.leaf .type "a" ⟨0, 1⟩, .nested [.leaf .type "b" ⟨3, 4⟩, .leaf .length "2" ⟨5, 6⟩] ⟨2, 8⟩] := rfl
  exact ⟨h, tokenize_render_roundTrip h⟩

/-! ## A declaration too deep to render -/

/-- a type nested `n` levels deep, `A<A<...A<B>...>>` -/
def nestedType : Nat → String
  | 0 => "B"
  | n + 1 => "A<" ++ nestedType n ++ ">"

theorem nestedType_declares (n : Nat) (r : List Char) :
    ∃ out, Seq ((nestedType n).toList ++ r) r out ∧ ∀ ts, listShape ts = out → Token.listDepth ts = n := by
  induction n generalizing r with
  | zero =>
    refine ⟨[.leaf .type "B"], ⟨r, [.leaf .type "B"], [], ?_, More.nil, (List.append_nil _).symm⟩, fun ts hts => ?_⟩
    · simpa [nestedType] using
        Grammar.Field.mk (Names.type (l := ['B']) (r := r) (by simp [IsIdent]; decide)) Suffix.none
    · obtain ⟨sp, ts', rfl, hts'⟩ := listShape_eq_leaf_cons hts
      obtain rfl := listShape_eq_nil.1 hts'
      simp [Token.listDepth, Token.depth]
  | succ n ih =>
    obtain ⟨out, ⟨t', f, u, hf, hm, rfl⟩, hdepth⟩ := ih ('>' :: r)
    -- the type `A`, then the region of the type nested one level less
    have hs := Suffix.nested blanks_nil blanks_nil hf hm blanks_nil
    have hfield := Grammar.Field.mk (Names.type (l := ['A']) (by simp [IsIdent]; decide)) hs
    refine ⟨_, ⟨r, _, [], by simpa [nestedType] using hfield, More.nil, rfl⟩, fun ts hts => ?_⟩
    simp only [List.append_nil] at hts
    obtain ⟨sp, ts', rfl, hts'⟩ := listShape_eq_leaf_cons hts
    obtain ⟨cs, sp', rfl, hcs⟩ := listShape_eq_nested hts'
    simp [Token.listDepth, Token.depth, hdepth cs hcs]

/-- A type nested 2000 levels deep is a declaration, but its tree is not rendered. -/
theorem render_refuses_deep_declaration :
    ∃ ts, tokenize (nestedType 2000) = .ok ts ∧ Field.renderTokens ts = .error .tooDeep := by
  obtain ⟨out, hseq, hdepth⟩ := nestedType_declares 2000 []
  rw [List.append_nil] at hseq
  obtain ⟨ts, hts, hsh⟩ := tokenize_of_declares
    (⟨[], [], (nestedType 2000).toList, blanks_nil, blanks_nil, (List.nil_append _).symm, hseq⟩ :
      Declares (nestedType 2000).toList out)
  obtain ⟨hr, hw⟩ := hseq.form
  rw [← hsh] at hr hw
  refine ⟨ts, hts, ?_⟩
  rw [renderTokens_of_wellFormed hr hw, if_neg (by rw [hdepth ts hsh]; decide)]

end ColumnDecl
