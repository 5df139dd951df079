import ColumnDecl.Proofs.Folding

/-
Folding any token tree into field definitions, and where the fold fails.

`Field.ofTokens` reads any list of tokens, not only what `tokenize` returns. It cuts the list at its delimiters into
groups and folds each group into one field definition: the last name, type and length of the group win, and each nested
token of the group is folded in turn, the last one giving the nested fields. The groups are those of the library's
`List.splitOnP` at delimiters, less a last group that is empty: the one after a trailing delimiter, and the one group
of an empty list (`fieldGroups`). A group without a type is refused, and so is a tree with such a group anywhere in it,
in the region of a nested token that a later one of its group overrides included (`Untyped`).

- `splitGroups_eq`: the fold's groups are `fieldGroups`;
- `Drafted`, `foldlM_add_ok`, `foldlM_add_error`: folding a group folds each of its nested tokens; it fails with the
  error of one of them, or ends with the last name, type, length and nested fields of the group;
- `ofTokensWithin_outcome`: within a budget above the depth of the tree, the fold fails exactly on trees with a group
  without a type, and then with `missingType`;
- `ofTokens_fails_on_untyped_group`: on every tree nested at most `Field.foldDepth` levels, `Field.ofTokens` fails with
  `missingType` exactly when the tree has a group without a type, and otherwise gives one field per group, read off
  the group (`GroupField`);
- `ofTokens_keeps_empty_regions`: the empty list has no group, so it folds to no fields, and a type with an empty
  region folds without error; a chain of types one region deeper than `Field.foldDepth` (`typeChain`), every group of
  it with a type, is refused as too deep.
-/

namespace ColumnDecl

/-! ## The groups of a token list -/

/-- the groups of a token list: the list cut at each delimiter, less the last group when it is empty -/
def fieldGroups (ts : List Token) : List (List Token) :=
  let groups := ts.splitOnP Token.isDelimiter
  if groups.getLast?.any List.isEmpty then groups.dropLast else groups

theorem splitGroups_go_eq : ∀ (acc ts : List Token),
    splitGroups.go acc ts = ts.splitOnPPrepend Token.isDelimiter acc
  | acc, [] => rfl
  | acc, t :: ts => by
    by_cases h : t.isDelimiter = true
    · rw [splitGroups.go, if_pos h, List.splitOnPPrepend_cons_pos h, splitGroups_go_eq [] ts]
      rfl
    · rw [splitGroups.go, if_neg h, List.splitOnPPrepend_cons_neg (by simpa using h), splitGroups_go_eq]

/-- The fold cuts a token list into the groups `fieldGroups` gives. -/
theorem splitGroups_eq (ts : List Token) : splitGroups ts = fieldGroups ts := by
  simp only [splitGroups, fieldGroups, splitGroups_go_eq, ← List.splitOnP_eq_splitOnPPrepend]
  cases hlast : (ts.splitOnP Token.isDelimiter).getLast? with
  | none => simp
  | some g => cases g <;> simp

theorem mem_of_mem_splitOnPPrepend {t : Token} : ∀ (ts acc : List Token) {g : List Token},
    g ∈ ts.splitOnPPrepend Token.isDelimiter acc → t ∈ g → t ∈ ts ∨ t ∈ acc
  | [], acc, g, hg, ht => by
    simp only [List.splitOnPPrepend_nil, List.mem_singleton] at hg
    subst hg
    exact .inr (List.mem_reverse.mp ht)
  | s :: ts, acc, g, hg, ht => by
    rw [List.splitOnPPrepend_cons_eq_if] at hg
    split at hg
    · rcases List.mem_cons.mp hg with rfl | hg
      · exact .inr (List.mem_reverse.mp ht)
      · rcases mem_of_mem_splitOnPPrepend ts [] hg ht with h | h
        · exact .inl (List.mem_cons_of_mem s h)
        · simp at h
    · rcases mem_of_mem_splitOnPPrepend ts (s :: acc) hg ht with h | h
      · exact .inl (List.mem_cons_of_mem s h)
      · rcases List.mem_cons.mp h with rfl | h
        · exact .inl List.mem_cons_self
        · exact .inr h

/-- The tokens of a group are tokens of the list. -/
theorem mem_of_mem_fieldGroups {ts g : List Token} {t : Token} (hg : g ∈ fieldGroups ts) (ht : t ∈ g) : t ∈ ts := by
  have hsplit : g ∈ ts.splitOnP Token.isDelimiter := by
    unfold fieldGroups at hg
    by_cases hlast : ((ts.splitOnP Token.isDelimiter).getLast?.any List.isEmpty) = true
    · rw [if_pos hlast] at hg
      exact List.dropLast_subset _ hg
    · rwa [if_neg hlast] at hg
  simpa using mem_of_mem_splitOnPPrepend ts [] hsplit ht

theorem Token.depth_le_listDepth {t : Token} : ∀ {ts : List Token}, t ∈ ts → t.depth ≤ Token.listDepth ts
  | s :: ts, ht => by
    rcases List.mem_cons.mp ht with rfl | ht
    · simp only [Token.listDepth]
      exact Nat.le_max_left _ _
    · have := Token.depth_le_listDepth ht
      simp only [Token.listDepth]
      omega

/-! ## What a group says -/

/-- the lexeme of a leaf of kind `k`, none for any other token -/
def Token.lexemeOf (k : LeafKind) : Token → Option String
  | .leaf k' l _ => if k' = k then some l else none
  | .nested .. => none

/-- the tokens in the region of a nested token, none for a leaf -/
def Token.region? : Token → Option (List Token)
  | .leaf .. => none
  | .nested cs _ => some cs

/-- the lexeme of the last leaf of kind `k` in a group -/
def lastLexeme (k : LeafKind) (g : List Token) : Option String := (g.filterMap (Token.lexemeOf k)).getLast?

/-- the region of the last nested token of a group -/
def lastRegion (g : List Token) : Option (List Token) := (g.filterMap Token.region?).getLast?

theorem getLast?_filterMap_cons {α β : Type} (f : α → Option β) (a : α) (l : List α) :
    ((a :: l).filterMap f).getLast? = ((l.filterMap f).getLast?).or (f a) := by
  cases ha : f a with
  | none => simp [ha]
  | some b =>
    rw [List.filterMap_cons, ha, List.getLast?_cons]
    cases (l.filterMap f).getLast? <;> rfl

theorem lastLexeme_cons (k : LeafKind) (t : Token) (g : List Token) :
    lastLexeme k (t :: g) = (lastLexeme k g).or (t.lexemeOf k) :=
  getLast?_filterMap_cons _ t g

@[simp] theorem lastRegion_nil : lastRegion [] = none := rfl

theorem lastRegion_cons (t : Token) (g : List Token) : lastRegion (t :: g) = (lastRegion g).or t.region? :=
  getLast?_filterMap_cons _ t g

/-- A group has no leaf of kind `k` exactly when it has no last one. -/
theorem lastLexeme_eq_none {k : LeafKind} {g : List Token} : lastLexeme k g = none ↔ ∀ t ∈ g, t.lexemeOf k = none := by
  simp [lastLexeme]

/-- A token list has a group without a type: one of its own groups, or one in the region of a nested token of one of
its groups, at any depth. -/
inductive Untyped : List Token → Prop
  | group {ts g : List Token} : g ∈ fieldGroups ts → (∀ t ∈ g, t.lexemeOf .type = none) → Untyped ts
  | nested {ts g cs : List Token} {sp : Span} : g ∈ fieldGroups ts → Token.nested cs sp ∈ g → Untyped cs → Untyped ts

/-- The field definition read off a group, the regions of its nested tokens folded by `fold`: the last name, type and
length of the group, and the fields of the region of its last nested token, none when it has none. -/
structure GroupField (fold : List Token → Except TreeError (List Field)) (g : List Token) (f : Field) : Prop where
  name : f.name = lastLexeme .name g
  type : lastLexeme .type g = some f.type
  length : f.length = lastLexeme .length g
  unnested : lastRegion g = none → f.fields = []
  nested : ∀ cs, lastRegion g = some cs → fold cs = .ok f.fields

/-! ## Folding one group -/

section Group

variable {F : List Token → Except TreeError (List Field)}

/-- What folding group `g` over draft `d` into `d'` leaves: the last name, type and length of the group over those of
`d`, the fields of the region of its last nested token over those of `d`, and the region of every nested token of the
group folded. -/
structure Drafted (F : List Token → Except TreeError (List Field)) (g : List Token) (d d' : FieldDraft) : Prop where
  name : d'.name = (lastLexeme .name g).or d.name
  type : d'.type = (lastLexeme .type g).or d.type
  length : d'.length = (lastLexeme .length g).or d.length
  unnested : lastRegion g = none → d'.fields = d.fields
  nested : ∀ cs, lastRegion g = some cs → F cs = .ok d'.fields
  folded : ∀ cs sp, Token.nested cs sp ∈ g → ∃ fs, F cs = .ok fs

theorem Drafted.nil (d : FieldDraft) : Drafted F [] d d :=
  ⟨rfl, rfl, rfl, fun _ => rfl, fun _ h => by simp at h, fun _ _ h => by simp at h⟩

/-- A leaf sets its own kind's part of the draft and nothing else. -/
theorem add_leaf {k : LeafKind} {l : String} {sp : Span} {d d₁ : FieldDraft}
    (hadd : FieldDraft.add F d (.leaf k l sp) = .ok d₁) :
    d₁.name = ((Token.leaf k l sp).lexemeOf .name).or d.name ∧
    d₁.type = ((Token.leaf k l sp).lexemeOf .type).or d.type ∧
    d₁.length = ((Token.leaf k l sp).lexemeOf .length).or d.length ∧ d₁.fields = d.fields := by
  cases k <;> (simp only [FieldDraft.add, ok_pure] at hadd; cases hadd; simp [Token.lexemeOf])

/-- A leaf sets at most its own kind's part of the draft, which the rest of the group may override. -/
theorem Drafted.cons_leaf {k : LeafKind} {l : String} {sp : Span} {g : List Token} {d d₁ d' : FieldDraft}
    (hadd : FieldDraft.add F d (.leaf k l sp) = .ok d₁) (h : Drafted F g d₁ d') :
    Drafted F (.leaf k l sp :: g) d d' := by
  obtain ⟨hname, htype, hlength, hfields⟩ := add_leaf hadd
  refine ⟨?_, ?_, ?_, ?_, ?_, ?_⟩
  · rw [h.name, hname, lastLexeme_cons, Option.or_assoc]
  · rw [h.type, htype, lastLexeme_cons, Option.or_assoc]
  · rw [h.length, hlength, lastLexeme_cons, Option.or_assoc]
  · intro hr
    rw [lastRegion_cons] at hr
    rw [h.unnested (by simpa [Token.region?] using hr), hfields]
  · intro cs hr
    rw [lastRegion_cons] at hr
    exact h.nested cs (by simpa [Token.region?] using hr)
  · intro cs sp' hm
    rcases List.mem_cons.mp hm with hm | hm
    · cases hm
    · exact h.folded cs sp' hm

/-- A nested token replaces the draft's fields by those of its region, which a later nested token may override. -/
theorem Drafted.cons_nested {cs : List Token} {sp : Span} {g : List Token} {d d' : FieldDraft} {fs : List Field}
    (hF : F cs = .ok fs) (h : Drafted F g { d with fields := fs } d') : Drafted F (.nested cs sp :: g) d d' := by
  refine ⟨?_, ?_, ?_, ?_, ?_, ?_⟩
  · simp [h.name, lastLexeme_cons, Token.lexemeOf]
  · simp [h.type, lastLexeme_cons, Token.lexemeOf]
  · simp [h.length, lastLexeme_cons, Token.lexemeOf]
  · intro hr
    simp [lastRegion_cons, Token.region?] at hr
  · intro cs' hr
    rw [lastRegion_cons] at hr
    cases hlast : lastRegion g with
    | some r =>
      rw [hlast, Option.some_or, Option.some.injEq] at hr
      subst hr
      exact h.nested _ hlast
    | none =>
      -- no nested token after this one: its region gives the fields
      rw [hlast] at hr
      simp only [Token.region?, Option.none_or, Option.some.injEq] at hr
      subst hr
      rw [h.unnested hlast]
      exact hF
  · intro cs' sp' hm
    rcases List.mem_cons.mp hm with hm | hm
    · cases hm
      exact ⟨fs, hF⟩
    · exact h.folded cs' sp' hm

/-- Folding a group to the end leaves what the group says over the draft it started from. -/
theorem foldlM_add_ok : ∀ {g : List Token} {d d' : FieldDraft},
    g.foldlM (FieldDraft.add F) d = .ok d' → Drafted F g d d'
  | [], d, d', h => by
    cases h
    exact .nil d
  | t :: g, d, d', h => by
    rw [List.foldlM_cons] at h
    obtain ⟨d₁, hadd, hrest⟩ := bind_eq_ok h
    cases t with
    | leaf k l sp => exact Drafted.cons_leaf hadd (foldlM_add_ok hrest)
    | nested cs sp =>
      obtain ⟨fs, hF, hd₁⟩ := bind_eq_ok hadd
      cases hd₁
      exact Drafted.cons_nested hF (foldlM_add_ok hrest)

/-- Folding a group fails only where the fold of the region of one of its nested tokens fails, with its error. -/
theorem foldlM_add_error : ∀ {g : List Token} {d : FieldDraft} {e : TreeError},
    g.foldlM (FieldDraft.add F) d = .error e → ∃ cs sp, Token.nested cs sp ∈ g ∧ F cs = .error e
  | [], d, e, h => by cases h
  | t :: g, d, e, h => by
    rw [List.foldlM_cons] at h
    cases hadd : FieldDraft.add F d t with
    | ok d₁ =>
      rw [hadd, ok_bind] at h
      obtain ⟨cs, sp, hm, hF⟩ := foldlM_add_error h
      exact ⟨cs, sp, List.mem_cons_of_mem t hm, hF⟩
    | error e' =>
      rw [hadd, error_bind] at h
      cases h
      -- a leaf never fails
      cases t with
      | leaf k l sp => cases k <;> cases hadd
      | nested cs sp =>
        cases hF : F cs with
        | ok fs =>
          simp only [FieldDraft.add, hF, ok_bind, ok_pure] at hadd
          cases hadd
        | error e'' =>
          simp only [FieldDraft.add, hF, error_bind, Except.error.injEq] at hadd
          exact ⟨cs, sp, List.mem_cons_self, hadd ▸ hF⟩

/-- A group that folds gives the field definition it says, and the region of each of its nested tokens folds. -/
theorem ofGroup_ok {g : List Token} {f : Field} (h : FieldDraft.ofGroup F g = .ok f) :
    GroupField F g f ∧ ∀ cs sp, Token.nested cs sp ∈ g → ∃ fs, F cs = .ok fs := by
  obtain ⟨d, hfold, hfinish⟩ := bind_eq_ok h
  have hd := foldlM_add_ok hfold
  obtain ⟨name, type, length, fields⟩ := d
  cases type with
  | none => cases hfinish
  | some ty =>
    cases hfinish
    refine ⟨⟨?_, ?_, ?_, ?_, hd.nested⟩, hd.folded⟩
    · simpa using hd.name
    · simpa using hd.type.symm
    · simpa using hd.length
    · exact hd.unnested

/-- A group fails where the region of one of its nested tokens does, or for want of a type. -/
theorem ofGroup_error {g : List Token} {e : TreeError} (h : FieldDraft.ofGroup F g = .error e) :
    (∃ cs sp, Token.nested cs sp ∈ g ∧ F cs = .error e) ∨ (e = .missingType ∧ ∀ t ∈ g, t.lexemeOf .type = none) := by
  simp only [FieldDraft.ofGroup] at h
  cases hfold : g.foldlM (FieldDraft.add F) {} with
  | error e' =>
    rw [hfold, error_bind] at h
    cases h
    exact .inl (foldlM_add_error hfold)
  | ok d =>
    rw [hfold, ok_bind] at h
    have hd := foldlM_add_ok hfold
    obtain ⟨name, type, length, fields⟩ := d
    cases type with
    | some ty => cases h
    | none =>
      cases h
      exact .inr ⟨rfl, lastLexeme_eq_none.mp (by simpa using hd.type.symm)⟩

end Group

/-! ## Folding the groups of a list -/

theorem mapM_error {α β ε : Type} {f : α → Except ε β} {e : ε} :
    ∀ {l : List α}, l.mapM f = .error e → ∃ x ∈ l, f x = .error e
  | [], h => by cases h
  | x :: l, h => by
    rw [List.mapM_cons] at h
    cases hx : f x with
    | error e' =>
      rw [hx, error_bind] at h
      cases h
      exact ⟨x, List.mem_cons_self, hx⟩
    | ok y =>
      rw [hx, ok_bind] at h
      cases hl : l.mapM f with
      | error e' =>
        rw [hl, error_bind] at h
        cases h
        obtain ⟨x', hm, hx'⟩ := mapM_error hl
        exact ⟨x', List.mem_cons_of_mem x hm, hx'⟩
      | ok ys => rw [hl, ok_bind] at h; cases h

theorem mapM_ok {α β ε : Type} {f : α → Except ε β} :
    ∀ {l : List α} {ys : List β}, l.mapM f = .ok ys → ys.length = l.length ∧ ∀ p ∈ l.zip ys, f p.1 = .ok p.2
  | [], ys, h => by
    cases h
    simp
  | x :: l, ys, h => by
    rw [List.mapM_cons] at h
    obtain ⟨y, hx, h'⟩ := bind_eq_ok h
    obtain ⟨ys', hl, h''⟩ := bind_eq_ok h'
    cases h''
    obtain ⟨hlen, hpairs⟩ := mapM_ok hl
    refine ⟨by simp [hlen], fun p hp => ?_⟩
    rcases List.mem_cons.mp hp with rfl | hp
    · exact hx
    · exact hpairs p hp

/-- Each element of a list whose `mapM` finishes is mapped to a value. -/
theorem mapM_ok_of_mem {α β ε : Type} {f : α → Except ε β} :
    ∀ {l : List α} {ys : List β}, l.mapM f = .ok ys → ∀ {x : α}, x ∈ l → ∃ y, f x = .ok y
  | [], _, _, _, hx => by simp at hx
  | a :: l, ys, h, x, hx => by
    rw [List.mapM_cons] at h
    obtain ⟨y, ha, h'⟩ := bind_eq_ok h
    obtain ⟨ys', hl, -⟩ := bind_eq_ok h'
    rcases List.mem_cons.mp hx with rfl | hx
    · exact ⟨y, ha⟩
    · exact mapM_ok_of_mem hl hx

/-- Within a budget above the depth of a tree, folding it fails exactly on trees with a group without a type, and then
with `missingType`; by induction on the budget, the region of a nested token taking one less. -/
theorem ofTokensWithin_outcome (b : Nat) : ∀ ts, Token.listDepth ts < b →
    (∀ e, Field.ofTokensWithin b ts = .error e → e = .missingType ∧ Untyped ts) ∧
    (Untyped ts → ∀ fs, Field.ofTokensWithin b ts ≠ .ok fs) := by
  induction b with
  | zero => exact fun _ h => absurd h (Nat.not_lt_zero _)
  | succ b ih =>
    intro ts hd
    -- the region of a nested token of a group is one level shallower than the list
    have hregion : ∀ g cs sp, g ∈ fieldGroups ts → Token.nested cs sp ∈ g → Token.listDepth cs < b := by
      intro g cs sp hg hm
      have := Token.depth_le_listDepth (mem_of_mem_fieldGroups hg hm)
      simp only [Token.depth] at this
      omega
    rw [Field.ofTokensWithin_succ, splitGroups_eq]
    refine ⟨fun e h => ?_, fun hu fs h => ?_⟩
    · obtain ⟨g, hg, hgroup⟩ := mapM_error h
      rcases ofGroup_error hgroup with ⟨cs, sp, hm, hF⟩ | ⟨he, hnone⟩
      · obtain ⟨he, hu⟩ := (ih cs (hregion g cs sp hg hm)).1 e hF
        exact ⟨he, .nested hg hm hu⟩
      · exact ⟨he, .group hg hnone⟩
    · cases hu with
      | group hg hnone =>
        obtain ⟨f, hf⟩ := mapM_ok_of_mem h hg
        have htype := (ofGroup_ok hf).1.type
        rw [lastLexeme_eq_none.mpr hnone] at htype
        cases htype
      | @nested _ g cs sp hg hm hu =>
        obtain ⟨f, hf⟩ := mapM_ok_of_mem h hg
        obtain ⟨fs', hF⟩ := (ofGroup_ok hf).2 cs sp hm
        exact (ih cs (hregion g cs sp hg hm)).2 hu fs' hF

/-- On every token tree nested at most `Field.foldDepth` levels, folding fails with `missingType` exactly when some
group of the tree, at any depth, has no type; otherwise it gives one field definition per group, in order, each with
the last name, type and length of its group and the fields of the region of the group's last nested token. -/
theorem ofTokens_fails_on_untyped_group (ts : List Token) (hd : Token.listDepth ts ≤ Field.foldDepth) :
    (Field.ofTokens ts = .error .missingType ↔ Untyped ts) ∧
    (¬Untyped ts → ∃ fs, Field.ofTokens ts = .ok fs ∧ fs.length = (fieldGroups ts).length ∧
      ∀ p ∈ (fieldGroups ts).zip fs, GroupField Field.ofTokens p.1 p.2) := by
  obtain ⟨herr, hok⟩ := ofTokensWithin_outcome (Field.foldDepth + 1) ts (by omega)
  refine ⟨⟨fun h => (herr _ h).2, fun hu => ?_⟩, fun hu => ?_⟩
  · cases h : Field.ofTokens ts with
    | error e => rw [(herr e h).1]
    | ok fs => exact absurd h (hok hu fs)
  · cases h : Field.ofTokens ts with
    | error e => exact absurd (herr e h).2 hu
    | ok fs =>
      obtain ⟨hlen, hpairs⟩ := mapM_ok (show (fieldGroups ts).mapM
        (FieldDraft.ofGroup (Field.ofTokensWithin Field.foldDepth)) = .ok fs by
          rw [← splitGroups_eq, ← Field.ofTokensWithin_succ]; exact h)
      -- a region folded within the smaller budget folds alike within the full one
      have hmono : ∀ cs fs', Field.ofTokensWithin Field.foldDepth cs = .ok fs' → Field.ofTokens cs = .ok fs' := by
        intro cs fs' h'
        rw [Field.ofTokens]
        exact ofTokensWithin_of_le (Nat.le_succ _) h'
      refine ⟨fs, rfl, hlen, fun p hp => ?_⟩
      obtain ⟨hg, -⟩ := ofGroup_ok (hpairs p hp)
      exact ⟨hg.name, hg.type, hg.length, hg.unnested, fun cs hr => hmono cs _ (hg.nested cs hr)⟩

/-- A type and a trailing delimiter: the empty group after the delimiter is dropped, and the one group has a type. -/
theorem ofTokens_fails_on_untyped_group_trailing :
    Token.listDepth [.leaf .type "A" ⟨0, 1⟩, .leaf .delimiter "," ⟨1, 2⟩] ≤ Field.foldDepth ∧
    ((Field.ofTokens [.leaf .type "A" ⟨0, 1⟩, .leaf .delimiter "," ⟨1, 2⟩] = .error .missingType ↔
        Untyped [.leaf .type "A" ⟨0, 1⟩, .leaf .delimiter "," ⟨1, 2⟩]) ∧
      (¬Untyped [.leaf .type "A" ⟨0, 1⟩, .leaf .delimiter "," ⟨1, 2⟩] →
        ∃ fs, Field.ofTokens [.leaf .type "A" ⟨0, 1⟩, .leaf .delimiter "," ⟨1, 2⟩] = .ok fs ∧
          fs.length = (fieldGroups [.leaf .type "A" ⟨0, 1⟩, .leaf .delimiter "," ⟨1, 2⟩]).length ∧
          ∀ p ∈ (fieldGroups [.leaf .type "A" ⟨0, 1⟩, .leaf .delimiter "," ⟨1, 2⟩]).zip fs,
            GroupField Field.ofTokens p.1 p.2)) :=
  ⟨by decide, ofTokens_fails_on_untyped_group _ (by decide)⟩

/-- a type nested `n` regions deep, each region holding one field with a type -/
def typeChain : Nat → List Token
  | 0 => [.leaf .type "B" ⟨0, 0⟩]
  | n + 1 => [.leaf .type "A" ⟨0, 0⟩, .nested (typeChain n) ⟨0, 0⟩]

/-- A chain of types is one group. -/
theorem fieldGroups_typeChain (n : Nat) : fieldGroups (typeChain n) = [typeChain n] := by
  cases n <;> rfl

/-- Every group of a chain of types has a type. -/
theorem typeChain_typed : ∀ n, ¬Untyped (typeChain n)
  | n, .group hg hnone => by
    rw [fieldGroups_typeChain, List.mem_singleton] at hg
    subst hg
    cases n <;> simp [typeChain, Token.lexemeOf] at hnone
  | n, .nested hg hm hu => by
    rw [fieldGroups_typeChain, List.mem_singleton] at hg
    subst hg
    cases n with
    | zero => simp [typeChain] at hm
    | succ m =>
      simp only [typeChain, List.mem_cons, List.not_mem_nil, or_false] at hm
      rcases hm with hm | hm
      · cases hm
      · cases hm
        exact typeChain_typed m hu

/-- A chain of types at least as deep as the budget is refused as too deep, by induction on the budget: each region
takes one. -/
theorem ofTokensWithin_typeChain : ∀ b n, b ≤ n → Field.ofTokensWithin b (typeChain n) = .error .tooDeep
  | 0, _, _ => rfl
  | b + 1, n + 1, h => by
    rw [Field.ofTokensWithin_succ, splitGroups_eq, fieldGroups_typeChain]
    simp only [typeChain, List.mapM_cons, FieldDraft.ofGroup, List.foldlM_cons, FieldDraft.add,
      ofTokensWithin_typeChain b n (by omega), ok_pure, ok_bind, error_bind]

/-- Cut at delimiters, the empty list is one empty group, without a type; yet it folds to no fields, since an empty
last group is dropped, and so does the empty region of a type. And a chain of types one region deeper than
`Field.foldDepth`, every group of it with a type, is refused as too deep. -/
theorem ofTokens_keeps_empty_regions :
    ([] : List Token).splitOnP Token.isDelimiter = [[]] ∧ Field.ofTokens [] = .ok [] ∧
    Field.ofTokens [.leaf .type "a" ⟨0, 1⟩, .nested [] ⟨1, 2⟩] = .ok [{ name := none, type := "a" }] ∧
    ¬Untyped (typeChain 491) ∧ Field.ofTokens (typeChain 491) = .error .tooDeep :=
  ⟨rfl, rfl, rfl, typeChain_typed 491, ofTokensWithin_typeChain _ _ (by decide)⟩

end ColumnDecl
