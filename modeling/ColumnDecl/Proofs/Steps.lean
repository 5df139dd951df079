import ColumnDecl.Proofs.Scanning

/-
One step of the reader, branch by branch.

`fieldAt` and `closeAt` each look at the text after the blanks and take one of a few branches. Each lemma here gives
one branch as an equation, under exactly the hypotheses that the functional induction principle
`fieldAt.mutual_induct` hands to that case, so the proofs about the reader rewrite by these lemmas and never unfold
it. Offsets are those the reader computes: `pos` plus the blanks skipped, and so on.
-/

namespace ColumnDecl

open Scan

variable {len pos q : Nat} {st : Reading} {cs r r3 r4 inner rest : List Char} {c : Char} {names : List Token}

/-! ## Reading a field definition -/

theorem fieldAt_end (h : cs.dropWhile isBlank = []) :
    fieldAt len st pos cs = .error (st.missingType len (pos + (cs.takeWhile isBlank).length) none) := by
  rw [fieldAt]
  split
  · rfl
  · simp_all

theorem fieldAt_notIdent (h : cs.dropWhile isBlank = c :: r) (hc : ¬isIdentStart c = true) :
    fieldAt len st pos cs = .error (st.missingType len (pos + (cs.takeWhile isBlank).length) (some c)) := by
  rw [fieldAt]
  split
  · simp_all
  · rename_i c' r' h'
    obtain ⟨rfl, rfl⟩ : c = c' ∧ r = r' := by simpa [h] using h'
    simp [hc]

theorem fieldAt_unclosedParen (h : cs.dropWhile isBlank = c :: r) (hc : isIdentStart c = true)
    (hn : typeNames (pos + (cs.takeWhile isBlank).length) c r = (names, q, rest))
    (hr : rest.dropWhile isBlank = '(' :: r3) (hp : closeParen 0 r3 = none) :
    fieldAt len st pos cs = .error (.unclosedParen (q + (rest.takeWhile isBlank).length)) := by
  rw [fieldAt]
  split
  · simp_all
  · rename_i c' r' h'
    obtain ⟨rfl, rfl⟩ : c = c' ∧ r = r' := by simpa [h] using h'
    simp only [hc, ↓reduceIte, hn]
    split
    · rename_i r3' hr'
      obtain rfl : r3 = r3' := by simpa [hn, hr] using hr'
      split
      · rfl
      · simp_all
    all_goals simp_all

theorem fieldAt_emptyLength (h : cs.dropWhile isBlank = c :: r) (hc : isIdentStart c = true)
    (hn : typeNames (pos + (cs.takeWhile isBlank).length) c r = (names, q, rest))
    (hr : rest.dropWhile isBlank = '(' :: r3) (hp : closeParen 0 r3 = some (inner, r4))
    (hi : Text.trimChars inner = []) :
    fieldAt len st pos cs = .error (.emptyLength (q + (rest.takeWhile isBlank).length)
      (q + (rest.takeWhile isBlank).length + 1 + inner.length)) := by
  rw [fieldAt]
  split
  · simp_all
  · rename_i c' r' h'
    obtain ⟨rfl, rfl⟩ : c = c' ∧ r = r' := by simpa [h] using h'
    simp only [hc, ↓reduceIte, hn]
    split
    · rename_i r3' hr'
      obtain rfl : r3 = r3' := by simpa [hn, hr] using hr'
      split
      · simp_all
      · rename_i inner' r4' hp'
        obtain ⟨rfl, rfl⟩ : inner = inner' ∧ r4 = r4' := by simpa [hp] using hp'
        simp [hi]
    all_goals simp_all

theorem fieldAt_length (h : cs.dropWhile isBlank = c :: r) (hc : isIdentStart c = true)
    (hn : typeNames (pos + (cs.takeWhile isBlank).length) c r = (names, q, rest))
    (hr : rest.dropWhile isBlank = '(' :: r3) (hp : closeParen 0 r3 = some (inner, r4))
    (hi : ¬Text.trimChars inner = []) :
    fieldAt len st pos cs =
      closeAt len ((st.pushAll names).push (.leaf .length (String.ofList inner)
        ⟨q + (rest.takeWhile isBlank).length + 1, q + (rest.takeWhile isBlank).length + 1 + inner.length⟩))
        (q + (rest.takeWhile isBlank).length + 1 + inner.length + 1) r4 := by
  rw [fieldAt]
  split
  · simp_all
  · rename_i c' r' h'
    obtain ⟨rfl, rfl⟩ : c = c' ∧ r = r' := by simpa [h] using h'
    simp only [hc, ↓reduceIte, hn]
    split
    · rename_i r3' hr'
      obtain rfl : r3 = r3' := by simpa [hn, hr] using hr'
      split
      · simp_all
      · rename_i inner' r4' hp'
        obtain ⟨rfl, rfl⟩ : inner = inner' ∧ r4 = r4' := by simpa [hp] using hp'
        simp [hi]
    all_goals simp_all

theorem fieldAt_open (h : cs.dropWhile isBlank = c :: r) (hc : isIdentStart c = true)
    (hn : typeNames (pos + (cs.takeWhile isBlank).length) c r = (names, q, rest))
    (hr : rest.dropWhile isBlank = '<' :: r3) :
    fieldAt len st pos cs = fieldAt len ((st.pushAll names).openAt (q + (rest.takeWhile isBlank).length))
      (q + (rest.takeWhile isBlank).length + 1) r3 := by
  rw [fieldAt]
  split
  · simp_all
  · rename_i c' r' h'
    obtain ⟨rfl, rfl⟩ : c = c' ∧ r = r' := by simpa [h] using h'
    simp only [hc, ↓reduceIte, hn]
    split
    · simp_all
    · rename_i r3' hr'
      obtain rfl : r3 = r3' := by simpa [hn, hr] using hr'
      rfl
    · simp_all

theorem fieldAt_plain (h : cs.dropWhile isBlank = c :: r) (hc : isIdentStart c = true)
    (hn : typeNames (pos + (cs.takeWhile isBlank).length) c r = (names, q, rest))
    (h1 : ∀ r3, rest.dropWhile isBlank = '(' :: r3 → False)
    (h2 : ∀ r3, rest.dropWhile isBlank = '<' :: r3 → False) :
    fieldAt len st pos cs = closeAt len (st.pushAll names) q rest := by
  rw [fieldAt]
  split
  · simp_all
  · rename_i c' r' h'
    obtain ⟨rfl, rfl⟩ : c = c' ∧ r = r' := by simpa [h] using h'
    simp only [hc, ↓reduceIte, hn]
    split
    · simp_all
    · simp_all
    · rfl

/-! ## Closing after a field definition -/

theorem closeAt_end_top (h : cs.dropWhile isBlank = []) (hs : st.regions = []) :
    closeAt len st pos cs = .ok st.top.reverse := by
  rw [closeAt]
  split
  · simp [hs]
  · simp_all

theorem closeAt_end_region {reg : Region} {outer : List Region} (h : cs.dropWhile isBlank = [])
    (hs : st.regions = reg :: outer) :
    closeAt len st pos cs = .error (.unclosedAngle reg.opened len) := by
  rw [closeAt]
  split
  · simp [hs]
  · simp_all

theorem closeAt_comma (h : cs.dropWhile isBlank = ',' :: r) :
    closeAt len st pos cs = fieldAt len (st.push (.leaf .delimiter ","
      ⟨pos + (cs.takeWhile isBlank).length, pos + (cs.takeWhile isBlank).length + 1⟩))
      (pos + (cs.takeWhile isBlank).length + 1) r := by
  rw [closeAt]
  split
  · simp_all
  · rename_i c' r' h'
    obtain ⟨rfl, rfl⟩ : ',' = c' ∧ r = r' := by simpa [h] using h'
    simp

theorem closeAt_stray (hs : st.regions = []) (h : cs.dropWhile isBlank = '>' :: r) :
    closeAt len st pos cs = .error (.unexpected (pos + (cs.takeWhile isBlank).length) '>') := by
  rw [closeAt]
  split
  · simp_all
  · rename_i c' r' h'
    obtain ⟨rfl, rfl⟩ : '>' = c' ∧ r = r' := by simpa [h] using h'
    simp [hs]

theorem closeAt_close {reg : Region} {outer : List Region} (hs : st.regions = reg :: outer)
    (h : cs.dropWhile isBlank = '>' :: r) :
    closeAt len st pos cs = closeAt len ((Reading.mk st.top outer).push
      (.nested reg.tokens.reverse ⟨reg.opened, pos + (cs.takeWhile isBlank).length + 1⟩))
      (pos + (cs.takeWhile isBlank).length + 1) r := by
  rw [closeAt]
  split
  · simp_all
  · rename_i c' r' h'
    obtain ⟨rfl, rfl⟩ : '>' = c' ∧ r = r' := by simpa [h] using h'
    simp [hs]

theorem closeAt_other (h : cs.dropWhile isBlank = c :: r) (h1 : ¬c = ',') (h2 : ¬c = '>') :
    closeAt len st pos cs = .error (unexpectedAt (pos + (cs.takeWhile isBlank).length) c r) := by
  rw [closeAt]
  split
  · simp_all
  · rename_i c' r' h'
    obtain ⟨rfl, rfl⟩ : c = c' ∧ r = r' := by simpa [h] using h'
    simp [h1, h2]

end ColumnDecl
