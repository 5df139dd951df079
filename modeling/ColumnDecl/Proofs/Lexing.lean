import ColumnDecl.Highlight.Lexer
import ColumnDecl.Proofs.Spans

/-
The highlighter's lexer, one lexeme at a time.

The lexer reads a text left to right; each lexeme is decided by `step` from the character at the front, the character
before it and what follows. Read on the text of a declaration, whose offsets are kept as the text `P` before the
lexeme, the steps it takes are few:

- `lexFrom_spaces`: a run of blanks is one text lexeme, or none when the run is empty;
- `lexFrom_ident`: an identifier is one lexeme, whose class `identClass` the text after it decides;
- `lexFrom_punct`, `lexFrom_open`: `<`, `>` and `,` are punctuation, and `(` opens a length argument;
- `lexFrom_length`: inside a length argument whose parentheses balance, the lexemes stop at its closing `)` and none
  of them is an error.
-/

namespace ColumnDecl

open Scan Grammar Highlight

/-! ## The characters the two readers share -/

theorem isSpace_of_isBlank {c : Char} (h : isBlank c = true) : Text.isSpace c = true := by
  simp only [isBlank, Bool.or_eq_true, decide_eq_true_eq] at h
  rcases h with ((rfl | rfl) | rfl) | rfl <;> decide

/-- Identifier characters are ASCII, far from every blank of the Unicode table. -/
theorem isSpace_eq_false_of_isIdentChar {c : Char} (h : isIdentChar c = true) : Text.isSpace c = false := by
  have hc : (48 ≤ c.toNat ∧ c.toNat ≤ 57) ∨ (65 ≤ c.toNat ∧ c.toNat ≤ 90) ∨ (97 ≤ c.toNat ∧ c.toNat ≤ 122) ∨
      c.toNat = 95 := by
    simp only [isIdentChar, Char.isAlphanum] at h
    delta Char.isAlpha Char.isUpper Char.isLower at h
    simp only [Char.isDigit, Bool.or_eq_true, Bool.and_eq_true, decide_eq_true_eq, UInt32.le_iff_toNat_le] at h
    rcases h with ((h | h) | h) | rfl
    · exact .inr (.inl h)
    · exact .inr (.inr (.inl h))
    · exact .inl h
    · exact .inr (.inr (.inr rfl))
  cases hs : Text.isSpace c
  · rfl
  · simp [Text.isSpace, Text.CodeRanges.contains, Text.spaceRanges] at hs
    omega

theorem spaces_of_blanks {w : List Char} (hw : Blanks w) : ∀ c ∈ w, Text.isSpace c = true :=
  fun c hc => isSpace_of_isBlank (hw c hc)

/-- The characters that stand before an identifier of a declaration are no word characters. -/
theorem isWordChar_of_blank_or_punct {c : Char} (h : isBlank c = true ∨ c = '<' ∨ c = ',') : isWordChar c = false := by
  rcases h with h | rfl | rfl
  · simp only [isBlank, Bool.or_eq_true, decide_eq_true_eq] at h
    rcases h with ((rfl | rfl) | rfl) | rfl <;> decide +kernel
  · decide +kernel
  · decide +kernel

theorem takeWhile_append_cons_stop {p : Char → Bool} {r Y : List Char} {x : Char} (hx : p x = false) :
    (r ++ x :: Y).takeWhile p = r.takeWhile p := by
  induction r with
  | nil => simp [hx]
  | cons a r ih =>
    by_cases ha : p a = true
    · simp [ha, ih]
    · simp [ha]

/-! ## One lexeme -/

section Step

variable {d d' : Nat} {P u Y : List Char} {c : Char} {cls : Highlight.Class}

/-- The lexeme at the front of a text that stands after `P`: `c` and the `k` characters that `step` takes. -/
theorem lexFrom_cons {r : List Char} {k : Nat} (h : step d P.getLast? c r = (cls, k, d')) :
    lexFrom d P.length P.getLast? (c :: r) = ⟨P.length, cls, String.ofList (c :: r.take k)⟩ ::
      lexFrom d' (P ++ c :: r.take k).length (P ++ c :: r.take k).getLast? (r.drop k) := by
  rw [lexFrom, h]
  simp [List.getLast?_cons]

/-- The lexeme `c :: u` at the front of a text that stands after `P`. -/
theorem lexFrom_lexeme (h : step d P.getLast? c (u ++ Y) = (cls, u.length, d')) :
    lexFrom d P.length P.getLast? (c :: (u ++ Y)) =
      ⟨P.length, cls, String.ofList (c :: u)⟩ :: lexFrom d' (P ++ c :: u).length (P ++ c :: u).getLast? Y := by
  rw [lexFrom_cons h, List.take_left' rfl, List.drop_left]

/-- A run of blanks is one text lexeme, up to the first character that is not blank. -/
theorem lexFrom_spaces {w : List Char} (hw : ∀ x ∈ w, Text.isSpace x = true) (hY : Stops Text.isSpace Y) :
    ∃ B, lexFrom 0 P.length P.getLast? (w ++ Y) = B ++ lexFrom 0 (P ++ w).length (P ++ w).getLast? Y ∧
      ∀ x ∈ B, x.cls = .text := by
  cases w with
  | nil => exact ⟨[], by simp, by simp⟩
  | cons b w =>
    have hb := hw b List.mem_cons_self
    have hrun : (w ++ Y).takeWhile Text.isSpace = w :=
      takeWhile_append_stop (fun x hx => hw x (List.mem_cons_of_mem b hx)) hY
    refine ⟨[⟨P.length, .text, String.ofList (b :: w)⟩], lexFrom_lexeme ?_, by simp⟩
    simp [step, hb, hrun]

/-- The keyword test at an identifier `w` holds of the keyword `w` itself and of no other: a keyword that is a
proper prefix of `w` is followed by an identifier character, and one longer than `w` runs past its end. -/
theorem keyword_at {kw w : List Char} (hkw : ∀ x ∈ kw, isIdentChar x = true) (hw : ∀ x ∈ w, isIdentChar x = true)
    (hY : Stops isIdentChar Y) :
    (kw.isPrefixOf (w ++ Y) && (((w ++ Y).drop kw.length).dropWhile Text.isSpace).head? == some '<') =
      (kw == w && (Y.dropWhile Text.isSpace).head? == some '<') := by
  by_cases he : kw = w
  · subst he
    simp
  · have hne : (kw == w) = false := by simpa using he
    rw [hne, Bool.false_and, Bool.eq_false_iff]
    intro h
    simp only [Bool.and_eq_true, beq_iff_eq] at h
    obtain ⟨hp, hlt⟩ := h
    obtain ⟨rest, hrest⟩ := List.isPrefixOf_iff_prefix.1 hp
    rw [← hrest, List.drop_left] at hlt
    -- what follows `kw` starts with a blank or a `<`, so `kw` is the whole identifier
    have hstop : Stops isIdentChar rest := by
      intro x y hxy
      subst hxy
      cases hs : Text.isSpace x
      · simp [hs] at hlt
        subst hlt
        decide
      · cases hi : isIdentChar x
        · rfl
        · rw [isSpace_eq_false_of_isIdentChar hi] at hs
          cases hs
    have h1 := takeWhile_append_stop hkw hstop
    rw [hrest, takeWhile_append_stop hw hY] at h1
    exact he h1.symm

theorem keywords_ident : ∀ kw ∈ declarationKeywords, ∀ x ∈ kw, isIdentChar x = true := by
  -- decided as one `Bool`: a `Prop` quantifier over `Char` would enumerate the alphabet
  have h : declarationKeywords.all (fun kw => kw.all isIdentChar) = true := by decide
  simpa only [List.all_eq_true] using h

/-- The keyword test at an identifier `w`: it is the keyword, standing as a whole word, before blanks and a `<`. -/
theorem declarationAt_ident (prev : Option Char) {w : List Char} (hw : ∀ x ∈ w, isIdentChar x = true)
    (hY : Stops isIdentChar Y) :
    declarationAt prev (w ++ Y) =
      if prev.any isWordChar = false ∧ w ∈ declarationKeywords ∧ (Y.dropWhile Text.isSpace).head? = some '<' then
        some w.length
      else none := by
  have key := fun kw hkw => keyword_at (Y := Y) (keywords_ident kw hkw) hw hY
  unfold declarationAt
  cases hp : prev.any isWordChar
  · simp only [Bool.false_eq_true, ↓reduceIte, true_and]
    by_cases hc : w ∈ declarationKeywords ∧ (Y.dropWhile Text.isSpace).head? = some '<'
    · rw [if_pos hc]
      have hsome : (declarationKeywords.find? fun kw => kw.isPrefixOf (w ++ Y) &&
          (((w ++ Y).drop kw.length).dropWhile Text.isSpace).head? == some '<').isSome :=
        List.find?_isSome.2 ⟨w, hc.1, by rw [key w hc.1]; simp [hc.2]⟩
      obtain ⟨kw, hkw⟩ := Option.isSome_iff_exists.1 hsome
      have hpk := List.find?_some hkw
      rw [key kw (List.mem_of_find?_eq_some hkw)] at hpk
      simp only [Bool.and_eq_true, beq_iff_eq] at hpk
      rw [hkw, hpk.1]
      rfl
    · rw [if_neg hc]
      refine Option.map_eq_none_iff.2 (List.find?_eq_none.2 fun kw hkw => ?_)
      rw [key kw hkw]
      rintro h
      simp only [Bool.and_eq_true, beq_iff_eq] at h
      exact hc ⟨h.1 ▸ hkw, h.2⟩
  · simp

/-- The class of an identifier `w` after the character `prev`, followed by `Y`: a declaration keyword standing as a
whole word before blanks and a `<`, a field name before blanks and another identifier, a type name otherwise. -/
def identClass (prev : Option Char) (w Y : List Char) : Highlight.Class :=
  if prev.any isWordChar = false ∧ w ∈ declarationKeywords ∧ (Y.dropWhile Text.isSpace).head? = some '<' then
    .declaration
  else if nameFollows Y then .fieldName else .typeName

/-- Blanks and an identifier after an identifier make it a field name. -/
theorem nameFollows_of_ident {b e : Char} {w T : List Char} (hb : Text.isSpace b = true)
    (hw : ∀ x ∈ w, Text.isSpace x = true) (he : isIdentStart e = true) : nameFollows (b :: (w ++ e :: T)) = true := by
  have hes : Text.isSpace e = false := isSpace_eq_false_of_isIdentChar (isIdentChar_of_isIdentStart he)
  have hdrop : (b :: (w ++ e :: T)).dropWhile Text.isSpace = e :: T := by
    rw [← List.cons_append]
    exact dropWhile_append_stop (by simpa [hb] using hw) (stops_cons.2 hes)
  simp [nameFollows, hb, hdrop, he]

theorem nameFollows_eq_false (h : ∀ x, (Y.dropWhile Text.isSpace).head? = some x → isIdentStart x = false) :
    nameFollows Y = false := by
  unfold nameFollows
  split
  · rename_i y _
    cases hy : Text.isSpace y
    · rfl
    · split
      · rename_i d _ hd
        simpa using h d (by rw [hd]; rfl)
      · rfl
  · rfl

/-- The class of an identifier standing as a whole word, where no identifier follows it: a declaration keyword before
blanks and a `<`, a type name otherwise. -/
theorem identClass_eq {prev : Option Char} {w : List Char} (hp : prev.any isWordChar = false)
    (hY : ∀ x, (Y.dropWhile Text.isSpace).head? = some x → isIdentStart x = false) :
    identClass prev w Y =
      if w ∈ declarationKeywords ∧ (Y.dropWhile Text.isSpace).head? = some '<' then .declaration else .typeName := by
  simp [identClass, hp, nameFollows_eq_false hY]

/-- An identifier before blanks and another identifier is a field name. -/
theorem identClass_name {prev : Option Char} {b e : Char} {w n T : List Char} (hb : Text.isSpace b = true)
    (hw : ∀ x ∈ w, Text.isSpace x = true) (he : isIdentStart e = true) :
    identClass prev n (b :: (w ++ e :: T)) = .fieldName := by
  have hes : Text.isSpace e = false := isSpace_eq_false_of_isIdentChar (isIdentChar_of_isIdentStart he)
  have hdrop : (b :: (w ++ e :: T)).dropWhile Text.isSpace = e :: T := by
    rw [← List.cons_append]
    exact dropWhile_append_stop (by simpa [hb] using hw) (stops_cons.2 hes)
  have hne : e ≠ '<' := by
    rintro rfl
    cases he
  simp [identClass, hdrop, hne, nameFollows_of_ident hb hw he]

/-- An identifier is one lexeme, of the class the text after it decides. -/
theorem lexFrom_ident {l : List Char} (hc : isIdentStart c = true) (hl : ∀ x ∈ l, isIdentChar x = true)
    (hY : Stops isIdentChar Y) :
    lexFrom 0 P.length P.getLast? (c :: (l ++ Y)) =
      ⟨P.length, identClass P.getLast? (c :: l) Y, String.ofList (c :: l)⟩ ::
        lexFrom 0 (P ++ c :: l).length (P ++ c :: l).getLast? Y := by
  have hw : ∀ x ∈ c :: l, isIdentChar x = true := by
    simpa [isIdentChar_of_isIdentStart hc] using hl
  have hs : Text.isSpace c = false := isSpace_eq_false_of_isIdentChar (hw c List.mem_cons_self)
  have hd := declarationAt_ident P.getLast? hw hY
  have hrun : (l ++ Y).takeWhile isIdentChar = l := takeWhile_append_stop hl hY
  refine lexFrom_lexeme ?_
  rw [List.cons_append] at hd
  unfold identClass
  by_cases hk : P.getLast?.any isWordChar = false ∧ c :: l ∈ declarationKeywords ∧
      (Y.dropWhile Text.isSpace).head? = some '<'
  · rw [if_pos hk] at hd
    simp [step, hs, hd, hk]
  · rw [if_neg hk] at hd
    simp [step, hs, hd, hc, hrun, hk]

/-- `<`, `>` and `,` are punctuation. -/
theorem lexFrom_punct (hc : c = '<' ∨ c = '>' ∨ c = ',') :
    lexFrom 0 P.length P.getLast? (c :: Y) =
      ⟨P.length, .punctuation, String.ofList [c]⟩ :: lexFrom 0 (P ++ [c]).length (P ++ [c]).getLast? Y := by
  have hd : declarationAt P.getLast? (c :: Y) = none := by
    unfold declarationAt
    rcases hc with rfl | rfl | rfl <;> simp [declarationKeywords, List.isPrefixOf]
  have hs : Text.isSpace c = false ∧ isIdentStart c = false ∧ c ≠ '(' := by
    rcases hc with rfl | rfl | rfl <;> decide
  exact lexFrom_lexeme (u := []) (by simp [step, hd, hs, hc])

/-- `(` is punctuation, and opens a length argument. -/
theorem lexFrom_open :
    lexFrom 0 P.length P.getLast? ('(' :: Y) =
      ⟨P.length, .punctuation, "("⟩ :: lexFrom 1 (P ++ ['(']).length (P ++ ['(']).getLast? Y := by
  have hd : declarationAt P.getLast? ('(' :: Y) = none := by
    unfold declarationAt
    simp [declarationKeywords, List.isPrefixOf]
  have hs : Text.isSpace '(' = false ∧ isIdentStart '(' = false := by decide
  exact lexFrom_lexeme (u := []) (by simp [step, hd, hs])

end Step


/-! ## Inside a length argument -/

section Length

variable {d e : Nat}

theorem nests_no_parens {m : Nat} {t : List Char} (ht : ∀ x ∈ t, x ≠ '(' ∧ x ≠ ')') (h : Nests d t m) : m = d := by
  induction t generalizing d with
  | nil => exact nests_nil.1 h
  | cons x t ih =>
    have hx := ht x List.mem_cons_self
    exact ih (fun y hy => ht y (List.mem_cons_of_mem x hy)) ((nests_other hx.1 hx.2).1 h)

/-- A run of characters that are no parentheses leaves the count of open parentheses as it is. -/
theorem nests_after_run {p : Char → Bool} {r : List Char} (hp : ∀ x, p x = true → x ≠ '(' ∧ x ≠ ')')
    (h : Nests d r e) : Nests d (r.drop (r.takeWhile p).length) e := by
  have hdrop : (r.takeWhile p ++ r.dropWhile p).drop (r.takeWhile p).length = r.dropWhile p := List.drop_left
  have hsplit : Nests d (r.takeWhile p ++ r.dropWhile p) e := by
    rw [List.takeWhile_append_dropWhile]
    exact h
  rw [List.takeWhile_append_dropWhile] at hdrop
  obtain ⟨m, hm, hm'⟩ := nests_append.1 hsplit
  rw [nests_no_parens (fun x hx => hp x (all_takeWhile p r x hx)) hm] at hm'
  rw [hdrop]
  exact hm'

/-- The lexeme of a run inside a length argument: a run of characters that are no parentheses. -/
theorem step_length_run (cls : Highlight.Class) {p : Char → Bool} {prev : Option Char} {c : Char} {r : List Char}
    (h1 : p '(' = false) (h2 : p ')' = false) (hc : p c = true) (hcls : cls ≠ .error) (h : Nests d (c :: r) e)
    (hstep : ∀ r', step (d + 1) prev c r' = (cls, (r'.takeWhile p).length, d + 1)) :
    ∃ cls k m, step (d + 1) prev c r = (cls, k, m + 1) ∧ cls ≠ .error ∧ k ≤ r.length ∧ Nests m (r.drop k) e ∧
      ∀ Y, step (d + 1) prev c (r ++ ')' :: Y) = (cls, k, m + 1) := by
  have hp : ∀ x, p x = true → x ≠ '(' ∧ x ≠ ')' := by
    intro x hx
    constructor
    · rintro rfl
      rw [h1] at hx
      cases hx
    · rintro rfl
      rw [h2] at hx
      cases hx
  have hr : Nests d r e := (nests_other (hp c hc).1 (hp c hc).2).1 h
  refine ⟨cls, _, d, hstep r, hcls, (List.takeWhile_prefix p).length_le, nests_after_run hp hr, fun Y => ?_⟩
  rw [hstep, takeWhile_append_cons_stop h2]

/-- One lexeme inside a length argument whose parentheses balance from depth `d` to `e`: it is no error, it does not
look past a `)` after the text, and what is left balances from the depth after it. -/
theorem step_length (prev : Option Char) {c : Char} {r : List Char} (h : Nests d (c :: r) e) :
    ∃ cls k m, step (d + 1) prev c r = (cls, k, m + 1) ∧ cls ≠ .error ∧ k ≤ r.length ∧ Nests m (r.drop k) e ∧
      ∀ Y, step (d + 1) prev c (r ++ ')' :: Y) = (cls, k, m + 1) := by
  by_cases hs : Text.isSpace c = true
  · exact step_length_run .text (by decide) (by decide) hs (by decide) h (fun r' => by simp [step, hs])
  by_cases hg : c.isDigit = true
  · exact step_length_run .number (by decide) (by decide) hg (by decide) h (fun r' => by simp [step, hs, hg])
  by_cases hi : isIdentStart c = true
  · exact step_length_run .constant (by decide) (by decide) (isIdentChar_of_isIdentStart hi) (by decide) h
      (fun r' => by simp [step, hs, hg, hi])
  by_cases hcomma : c = ','
  · subst hcomma
    have hr : Nests d r e := (nests_other (by decide) (by decide)).1 h
    exact ⟨.punctuation, 0, d, by simp [step, hs, hi], by decide, by simp, by simpa using hr,
      fun Y => by simp [step, hs, hi]⟩
  by_cases ho : c = '('
  · subst ho
    exact ⟨.punctuation, 0, d + 1, by simp [step, hs, hi], by decide, by simp, by simpa using h,
      fun Y => by simp [step, hs, hi]⟩
  by_cases hcl : c = ')'
  · -- the `)` closes one of the parentheses opened inside the argument, never the argument itself
    subst hcl
    obtain ⟨hd, hr⟩ := nests_close.1 h
    obtain ⟨m, rfl⟩ : ∃ m, d = m + 1 := ⟨d - 1, by omega⟩
    exact ⟨.punctuation, 0, m, by simp [step, hs, hi], by decide, by simp, by simpa using hr,
      fun Y => by simp [step, hs, hi]⟩
  · have hplain : isPlainInLength c = true := by
      simp only [isIdentStart, Bool.or_eq_true, decide_eq_true_eq, not_or] at hi
      simp [isPlainInLength, Char.isAlphanum, hs, hg, hi.1, hi.2, hcomma, ho, hcl]
    exact step_length_run .text (by decide) (by decide) hplain (by decide) h
      (fun r' => by simp [step, hs, hg, hi, hcomma, ho, hcl])

/-- Inside a length argument whose parentheses balance from depth `d` to `e`, no lexeme of the text is an error, and
the lexemes stop at a `)` after it. -/
theorem lexFrom_length : ∀ {P : List Char} {d : Nat} {l : List Char}, Nests d l e →
    (∀ x ∈ lexFrom (d + 1) P.length P.getLast? l, x.cls ≠ .error) ∧
    ∀ Y, lexFrom (d + 1) P.length P.getLast? (l ++ ')' :: Y) =
      lexFrom (d + 1) P.length P.getLast? l ++ lexFrom (e + 1) (P ++ l).length (P ++ l).getLast? (')' :: Y)
  | P, d, [], h => by
    rw [nests_nil] at h
    subst h
    simp [lexFrom]
  | P, d, c :: r, h => by
    obtain ⟨cls, k, m, hs, hcls, hk, hm, hY⟩ := step_length P.getLast? h
    have ih := lexFrom_length (P := P ++ c :: r.take k) hm
    have hrest : P ++ c :: r.take k ++ r.drop k = P ++ c :: r := by simp
    refine ⟨fun x hx => ?_, fun Y => ?_⟩
    · rw [lexFrom_cons hs, List.mem_cons] at hx
      rcases hx with rfl | hx
      · exact hcls
      · exact ih.1 x hx
    · rw [List.cons_append, lexFrom_cons (hY Y), lexFrom_cons hs, List.take_append_of_le_length hk,
        List.drop_append_of_le_length hk, ih.2 Y, hrest]
      rfl
termination_by _ _ l => l.length
decreasing_by
  simp only [List.length_drop, List.length_cons]
  omega

/-- The `)` that closes a length argument is punctuation, and ends it. -/
theorem lexFrom_close {P Y : List Char} :
    lexFrom 1 P.length P.getLast? (')' :: Y) =
      ⟨P.length, .punctuation, ")"⟩ :: lexFrom 0 (P ++ [')']).length (P ++ [')']).getLast? Y := by
  have hs : Text.isSpace ')' = false ∧ Char.isDigit ')' = false ∧ isIdentStart ')' = false := by decide
  exact lexFrom_lexeme (u := []) (by simp [step, hs])

end Length

end ColumnDecl
