import ColumnDecl.Proofs.Runs
import ColumnDecl.Proofs.Regions

/-
Tokenizing composes with the two ways declarations combine.

A field `T<s>` is read as the type `T` and one region holding the tokens of `s`, moved past `T<`; two declarations
joined by a comma are read as the tokens of the first, the delimiter, and the tokens of the second moved past the
comma. Conversely, the text between the `<` and the `>` of every NESTED token of a tree that `tokenize` returns is a
declaration of its own, whose tokens, moved to where that text stands, are the children of the token.

- `FieldRun.nest`, `FieldRun.sequence`: the two combinations, on runs;
- `FieldRun.region_of_mem`: every NESTED token below a run stands for a run on the text of its region;
- `tokenize_compositional`: the three statements for `tokenize`.
-/

namespace ColumnDecl

open Scan Grammar

/-! ## Where the tokens of a run stand -/

theorem Token.listPreorder_append (a b : List Token) :
    Token.listPreorder (a ++ b) = Token.listPreorder a ++ Token.listPreorder b := by
  induction a with
  | nil => rfl
  | cons t a ih => simp [Token.listPreorder, ih]

/-- The text of a field definition up to the end of its identifiers. -/
theorem head_text {pos q : Nat} {cs r rest : List Char} {c : Char} {names : List Token}
    (hd : cs.dropWhile isBlank = c :: r) (hn : typeNames (pos + (cs.takeWhile isBlank).length) c r = (names, q, rest)) :
    ∃ H, cs = H ++ rest ∧ pos + H.length = q := by
  obtain ⟨u, hu, hq⟩ := typeNames_consumed hn
  refine ⟨cs.takeWhile isBlank ++ c :: u, ?_, ?_⟩
  · rw [List.append_assoc, List.cons_append, ← hu]
    exact eq_blanks_append hd
  · simp only [List.length_append, List.length_cons]
    omega

/-- The identifiers of a field definition are leaves: no region stands among them. -/
theorem nested_not_mem_names {p q : Nat} {c : Char} {r rest : List Char} {names : List Token}
    (h : typeNames p c r = (names, q, rest)) (cs : List Token) (sp : Span) :
    Token.nested cs sp ∉ Token.listPreorder names := by
  rcases identifiers_split r with ⟨l, t, rfl, hl, ht, hla⟩ | ⟨n, b, w, e, l, t, rfl, hn, hb, hw, he, hl, ht⟩
  · rw [typeNames_type hl ht hla] at h
    simp only [Prod.mk.injEq] at h
    obtain ⟨rfl, -, -⟩ := h
    simp [Token.listPreorder, Token.preorder]
  · rw [typeNames_named hn hb hw he hl ht] at h
    simp only [Prod.mk.injEq] at h
    obtain ⟨rfl, -, -⟩ := h
    simp [Token.listPreorder, Token.preorder]

mutual
/-- Every NESTED token below a run is a `<`, the text `I` of a run of its own, and a `>`, where its span says. -/
theorem FieldRun.region_of_mem {pos : Nat} {cs : List Char} {ts : List Token} :
    FieldRun pos cs ts → ∀ {cs' : List Token} {sp : Span}, Token.nested cs' sp ∈ Token.listPreorder ts →
      ∃ P I R, cs = P ++ '<' :: (I ++ '>' :: R) ∧ sp.start = (pos + P.length : Nat) ∧
        sp.stop = (pos + P.length : Nat) + I.length + 2 ∧ FieldRun (pos + P.length + 1) I cs'
  | .plain hd _ hn _ _ hcl, _, _, hm => by
    obtain ⟨H, hH, hq⟩ := head_text hd hn
    rw [Token.listPreorder_append, List.mem_append] at hm
    rcases hm with hm | hm
    · exact absurd hm (nested_not_mem_names hn _ _)
    · obtain ⟨P, I, R, hP, h1, h2, hI⟩ := CloseRun.region_of_mem hcl hm
      refine ⟨H ++ P, I, R, by rw [hH, hP, List.append_assoc], by simp; omega, by simp; omega, ?_⟩
      rw [List.length_append, ← Nat.add_assoc, hq]
      exact hI
  | .length hd hc hn ha hr hp hi hcl, _, _, hm => by
    obtain ⟨A, hA, hAlen, -⟩ := fieldAt_length_cont hd hc hn hr hp hi
    simp only [Token.listPreorder_append, Token.listPreorder, Token.preorder, List.mem_append, List.mem_cons,
      reduceCtorEq, false_or, List.not_mem_nil, or_false] at hm
    rcases hm with hm | hm
    · exact absurd hm (nested_not_mem_names hn _ _)
    · obtain ⟨P, I, R, hP, h1, h2, hI⟩ := CloseRun.region_of_mem hcl hm
      subst ha
      refine ⟨A ++ P, I, R, by rw [hA, hP, List.append_assoc], by simp; omega, by simp; omega, ?_⟩
      rw [List.length_append, ← Nat.add_assoc, hAlen]
      exact hI
  | @FieldRun.nested _ q a _ _ rest I R _ _ _ _ hd _ hn ha hr hI hcl, _, _, hm => by
    obtain ⟨H, hH, hq⟩ := head_text hd hn
    -- the text of the field: its head, the blanks before `<`, the region, `>` and what follows
    have hcs : cs = (H ++ rest.takeWhile isBlank) ++ '<' :: (I ++ '>' :: R) := by
      rw [hH, List.append_assoc, ← hr, List.takeWhile_append_dropWhile]
    have hlen : pos + (H ++ rest.takeWhile isBlank).length = a := by simp; omega
    simp only [Token.listPreorder_append, Token.listPreorder, Token.preorder, List.cons_append, List.mem_append,
      List.mem_cons, Token.nested.injEq] at hm
    rcases hm with hm | ⟨rfl, rfl⟩ | hm | hm
    · exact absurd hm (nested_not_mem_names hn _ _)
    · exact ⟨_, I, R, hcs, by simp; omega, by simp; omega, by rw [hlen]; exact hI⟩
    · obtain ⟨P, I', R', hP, h1, h2, hI'⟩ := FieldRun.region_of_mem hI hm
      refine ⟨(H ++ rest.takeWhile isBlank) ++ '<' :: P, I', R' ++ '>' :: R, by rw [hcs, hP]; simp,
        by rw [h1]; simp; omega, by rw [h2]; simp; omega, ?_⟩
      have e : pos + ((H ++ rest.takeWhile isBlank) ++ '<' :: P).length + 1 = a + 1 + P.length + 1 := by
        simp only [List.length_append, List.length_cons] at hlen ⊢
        omega
      rw [e]
      exact hI'
    · obtain ⟨P, I', R', hP, h1, h2, hI'⟩ := CloseRun.region_of_mem hcl hm
      refine ⟨(H ++ rest.takeWhile isBlank) ++ '<' :: (I ++ '>' :: P), I', R', by rw [hcs, hP]; simp,
        by rw [h1]; simp; omega, by rw [h2]; simp; omega, ?_⟩
      have e : pos + ((H ++ rest.takeWhile isBlank) ++ '<' :: (I ++ '>' :: P)).length + 1 =
          a + 1 + I.length + 1 + P.length + 1 := by
        simp only [List.length_append, List.length_cons] at hlen ⊢
        omega
      rw [e]
      exact hI'

theorem CloseRun.region_of_mem {pos : Nat} {cs : List Char} {ts : List Token} :
    CloseRun pos cs ts → ∀ {cs' : List Token} {sp : Span}, Token.nested cs' sp ∈ Token.listPreorder ts →
      ∃ P I R, cs = P ++ '<' :: (I ++ '>' :: R) ∧ sp.start = (pos + P.length : Nat) ∧
        sp.stop = (pos + P.length : Nat) + I.length + 2 ∧ FieldRun (pos + P.length + 1) I cs'
  | .done _, _, _, hm => by simp [Token.listPreorder] at hm
  | @CloseRun.comma _ p _ r _ hd hp hf, _, _, hm => by
    simp only [Token.listPreorder, Token.preorder, List.singleton_append, List.mem_cons, reduceCtorEq,
      false_or] at hm
    obtain ⟨P, I, R, hP, h1, h2, hI⟩ := FieldRun.region_of_mem hf hm
    refine ⟨(cs.takeWhile isBlank ++ [',']) ++ P, I, R,
      by rw [List.append_assoc _ P, ← hP]; exact eq_blanks_cons_append hd, by rw [h1]; simp; omega,
      by rw [h2]; simp; omega, ?_⟩
    have e : pos + ((cs.takeWhile isBlank ++ [',']) ++ P).length + 1 = p + 1 + P.length + 1 := by
      simp only [List.length_append, List.length_singleton]
      omega
    rw [e]
    exact hI
end

/-- The characters of the span of a text `I` that stands after `P`. -/
theorem Span.chars_append (P I Z : List Char) : Span.chars ⟨P.length, P.length + I.length⟩ (P ++ I ++ Z) = I := by
  have e1 : Text.resolveIndex (P ++ I ++ Z).length P.length = P.length := by
    simp only [Text.resolveIndex, List.length_append]
    split <;> omega
  have e2 : Text.resolveIndex (P ++ I ++ Z).length (P.length + I.length) = P.length + I.length := by
    simp only [Text.resolveIndex, List.length_append]
    split <;> omega
  rw [Span.chars, e1, e2, Text.between, List.append_assoc, List.drop_left, Nat.add_sub_cancel_left, List.take_left']
  rfl

/-! ## Nesting and sequencing -/

/-- A field `T<s>`: the type `T`, then one region holding the run of `s` from after the `<`. -/
theorem FieldRun.nest {T s : List Char} {ts : List Token} (hT : IsIdent T) (h : FieldRun (T.length + 1) s ts) :
    FieldRun 0 (T ++ '<' :: (s ++ ['>']))
      [.leaf .type (String.ofList T) ⟨0, T.length⟩, .nested ts ⟨T.length, T.length + 1 + s.length + 1⟩] := by
  obtain _ | ⟨c, l⟩ := T
  · exact hT.elim
  obtain ⟨hc, hl⟩ := hT
  -- the text after the type starts with its `<`
  have hlt : ('<' :: (s ++ ['>'])).dropWhile isBlank = '<' :: (s ++ '>' :: []) ∧
      ('<' :: (s ++ ['>'])).takeWhile isBlank = [] := dropWhile_blanks_cons blanks_nil (by decide)
  have hhead := dropWhile_blanks_cons (w := []) (r := l ++ '<' :: (s ++ ['>'])) blanks_nil
    (isBlank_eq_false_of_isIdentChar (isIdentChar_of_isIdentStart hc))
  have hn : typeNames (0 + ((c :: l ++ '<' :: (s ++ ['>'])).takeWhile isBlank).length) c (l ++ '<' :: (s ++ ['>'])) =
      ([.leaf .type (String.ofList (c :: l)) ⟨0, (c :: l).length⟩], (c :: l).length, '<' :: (s ++ ['>'])) := by
    rw [List.nil_append] at hhead
    rw [List.cons_append, hhead.2,
      typeNames_type hl (stops_cons.2 (by decide)) (by rw [hlt.1]; exact stops_cons.2 (by decide))]
    simp
  have hrun := FieldRun.nested (a := (c :: l).length) hhead.1 hc hn (by rw [hlt.2]; rfl) hlt.1 h (.done blanks_nil)
  simpa using hrun

/-- Two runs joined by a comma: the tokens of the first, the delimiter, and those of the second. -/
theorem FieldRun.sequence {pos : Nat} {cs X : List Char} {ts us : List Token} (h : FieldRun pos cs ts)
    (hX : FieldRun (pos + cs.length + 1) X us) :
    FieldRun pos (cs ++ ',' :: X) (ts ++ .leaf .delimiter "," ⟨pos + cs.length, pos + cs.length + 1⟩ :: us) := by
  -- read the first run grafted onto the top level, then the comma and the second run
  have hread : ∀ len, fieldAt len Reading.initial pos (cs ++ ',' :: X) =
      .ok (ts ++ .leaf .delimiter "," ⟨pos + cs.length, pos + cs.length + 1⟩ :: us) := by
    intro len
    have hin : fieldAt 0 Reading.initial pos cs = .ok ([].reverse ++ ts) := h.reader 0 []
    have hg := (reader_graft 0 len).1 _ _ _ _ hin Reading.initial (',' :: X)
      (by simpa using afterField_blanks_cons (w := []) (Y := X) blanks_nil (.inl rfl))
    have hc : (',' :: X).dropWhile isBlank = ',' :: X ∧ (',' :: X).takeWhile isBlank = [] :=
      dropWhile_blanks_cons (w := []) blanks_nil (by decide)
    rw [List.reverse_nil, List.nil_append, Reading.graft_initial] at hg
    rw [hg, Reading.initial, Reading.pushAll_top_nil, closeAt_comma hc.1, hc.2, Reading.push_top_nil]
    refine (hX.reader len _).trans ?_
    simp
  obtain ⟨ts', e, hrun⟩ := (reader_run 0 _).1 [] pos _ (hread 0)
  rw [e]
  simpa using hrun

/-! ## The tokenizer -/

/-- `T<s>` reads as the type `T` and one NESTED token whose children are the tokens of `s`, moved past `T<`. -/
theorem tokenize_nest {T s : String} {ts : List Token} (hT : IsIdent T.toList) (h : tokenize s = .ok ts) :
    tokenize (T ++ "<" ++ s ++ ">") = .ok [.leaf .type T ⟨0, T.length⟩,
      .nested (Token.shiftAll (T.length + 1) ts) ⟨T.length, T.length + s.length + 2⟩] := by
  rw [tokenize_eq_ok_iff] at h ⊢
  have hrun := FieldRun.nest hT (h.shift (T.length + 1) (T.toList.length + 1) (by simp [String.length_toList]))
  have htext : (T ++ "<" ++ s ++ ">").toList = T.toList ++ '<' :: (s.toList ++ ['>']) := by simp
  rw [htext]
  simp only [String.ofList_toList, String.length_toList] at hrun
  refine (congrArg (FieldRun 0 _) ?_).mp hrun
  simp only [List.cons.injEq, Token.nested.injEq, Span.mk.injEq, and_true, true_and]
  omega

/-- `s₁,s₂` reads as the tokens of `s₁`, the delimiter, and the tokens of `s₂` moved past the comma. -/
theorem tokenize_sequence {s₁ s₂ : String} {ts₁ ts₂ : List Token} (h₁ : tokenize s₁ = .ok ts₁)
    (h₂ : tokenize s₂ = .ok ts₂) :
    tokenize (s₁ ++ "," ++ s₂) = .ok (ts₁ ++
      .leaf .delimiter "," ⟨s₁.length, s₁.length + 1⟩ :: Token.shiftAll (s₁.length + 1) ts₂) := by
  rw [tokenize_eq_ok_iff] at h₁ h₂ ⊢
  have hrun := h₁.sequence
    (h₂.shift (s₁.length + 1) (0 + s₁.toList.length + 1) (by simp [String.length_toList]))
  have htext : (s₁ ++ "," ++ s₂).toList = s₁.toList ++ ',' :: s₂.toList := by simp
  rw [htext]
  simpa [String.length_toList] using hrun

/-- The text between the `<` and the `>` of a NESTED token is a declaration whose tokens, moved to where it stands,
are the token's children. -/
theorem tokenize_region {d : String} {ts cs : List Token} {sp : Span} (h : tokenize d = .ok ts)
    (hm : Token.nested cs sp ∈ Token.walk ts) :
    ∃ ts', tokenize (Span.text ⟨sp.start + 1, sp.stop - 1⟩ d) = .ok ts' ∧
      Token.shiftAll (sp.start + 1) ts' = cs := by
  rw [tokenize_eq_ok_iff] at h
  rw [walk_eq_listPreorder] at hm
  obtain ⟨P, I, R, hd, h1, h2, hI⟩ := h.region_of_mem hm
  have htext : Span.text ⟨sp.start + 1, sp.stop - 1⟩ d = String.ofList I := by
    have hspan : (⟨sp.start + 1, sp.stop - 1⟩ : Span) =
        ⟨(P ++ ['<']).length, (P ++ ['<']).length + I.length⟩ := by
      rw [h1, h2, Span.mk.injEq]
      simp only [List.length_append, List.length_singleton]
      omega
    rw [Span.text, hspan, hd, show P ++ '<' :: (I ++ '>' :: R) = (P ++ ['<']) ++ I ++ '>' :: R by simp,
      Span.chars_append]
  have hI0 := hI.shift (-(sp.start + 1)) 0 (by omega)
  refine ⟨_, by rw [htext, tokenize_eq_ok_iff, String.toList_ofList]; exact hI0, ?_⟩
  -- moved back to where the region stands, the run is the one below the token
  exact (hI0.shift (sp.start + 1) (0 + P.length + 1) (by omega)).det hI

/-- Tokenizing composes with nesting and with sequencing, and every NESTED token's children are the tokens of the
text of its region. -/
theorem tokenize_compositional :
    (∀ (T s : String) (ts : List Token), IsIdent T.toList → tokenize s = .ok ts →
      tokenize (T ++ "<" ++ s ++ ">") = .ok [.leaf .type T ⟨0, T.length⟩,
        .nested (Token.shiftAll (T.length + 1) ts) ⟨T.length, T.length + s.length + 2⟩]) ∧
    (∀ (s₁ s₂ : String) (ts₁ ts₂ : List Token), tokenize s₁ = .ok ts₁ → tokenize s₂ = .ok ts₂ →
      tokenize (s₁ ++ "," ++ s₂) = .ok (ts₁ ++
        .leaf .delimiter "," ⟨s₁.length, s₁.length + 1⟩ :: Token.shiftAll (s₁.length + 1) ts₂)) ∧
    (∀ (d : String) (ts cs : List Token) (sp : Span), tokenize d = .ok ts → Token.nested cs sp ∈ Token.walk ts →
      ∃ ts', tokenize (Span.text ⟨sp.start + 1, sp.stop - 1⟩ d) = .ok ts' ∧
        Token.shiftAll (sp.start + 1) ts' = cs) :=
  ⟨fun _ _ _ hT h => tokenize_nest hT h, fun _ _ _ _ h₁ h₂ => tokenize_sequence h₁ h₂,
    fun _ _ _ _ h hm => tokenize_region h hm⟩

unseal fieldAt closeAt in
/-- `A<b>` from `b`, `a,b` from `a` and `b`, and the region of `A<b>` read back. -/
theorem tokenize_compositional_small :
    (IsIdent "A".toList ∧ tokenize "b" = .ok [.leaf .type "b" ⟨0, 1⟩] ∧
      tokenize ("A" ++ "<" ++ "b" ++ ">") = .ok [.leaf .type "A" ⟨0, "A".length⟩,
        .nested (Token.shiftAll ("A".length + 1) [.leaf .type "b" ⟨0, 1⟩])
          ⟨"A".length, "A".length + "b".length + 2⟩]) ∧
    (tokenize "a" = .ok [.leaf .type "a" ⟨0, 1⟩] ∧
      tokenize ("a" ++ "," ++ "b") = .ok ([.leaf .type "a" ⟨0, 1⟩] ++
        .leaf .delimiter "," ⟨"a".length, "a".length + 1⟩ ::
          Token.shiftAll ("a".length + 1) [.leaf .type "b" ⟨0, 1⟩])) ∧
    (tokenize "A<b>" = .ok [.leaf .type "A" ⟨0, 1⟩, .nested [.leaf .type "b" ⟨2, 3⟩] ⟨1, 4⟩] ∧
      Token.nested [.leaf .type "b" ⟨2, 3⟩] ⟨1, 4⟩ ∈
        Token.walk [.leaf .type "A" ⟨0, 1⟩, .nested [.leaf .type "b" ⟨2, 3⟩] ⟨1, 4⟩] ∧
      ∃ ts', tokenize (Span.text ⟨(1 : Int) + 1, 4 - 1⟩ "A<b>") = .ok ts' ∧
        Token.shiftAll (1 + 1) ts' = [.leaf .type "b" ⟨2, 3⟩]) := by
  have hA : IsIdent "A".toList := ⟨rfl, by simp⟩
  have hb : tokenize "b" = .ok [.leaf .type "b" ⟨0, 1⟩] := rfl
  have ha : tokenize "a" = .ok [.leaf .type "a" ⟨0, 1⟩] := rfl
  have hd : tokenize "A<b>" = .ok [.leaf .type "A" ⟨0, 1⟩, .nested [.leaf .type "b" ⟨2, 3⟩] ⟨1, 4⟩] := rfl
  have hm : Token.nested [.leaf .type "b" ⟨2, 3⟩] ⟨1, 4⟩ ∈
      Token.walk [.leaf .type "A" ⟨0, 1⟩, .nested [.leaf .type "b" ⟨2, 3⟩] ⟨1, 4⟩] := by
    simp [walk_eq_listPreorder, Token.listPreorder, Token.preorder]
  exact ⟨⟨hA, hb, tokenize_compositional.1 "A" "b" [.leaf .type "b" ⟨0, 1⟩] hA hb⟩,
    ⟨ha, tokenize_compositional.2.1 "a" "b" [.leaf .type "a" ⟨0, 1⟩] [.leaf .type "b" ⟨0, 1⟩] ha hb⟩,
    ⟨hd, hm, tokenize_compositional.2.2 "A<b>"
      [.leaf .type "A" ⟨0, 1⟩, .nested [.leaf .type "b" ⟨2, 3⟩] ⟨1, 4⟩] [.leaf .type "b" ⟨2, 3⟩] ⟨1, 4⟩
      hd hm⟩⟩

end ColumnDecl
