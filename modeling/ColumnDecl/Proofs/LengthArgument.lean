import ColumnDecl.Proofs.Composition

/-
Reading a length argument by offsets into the declaration (`readLength`), against the parenthesis counts of
`Scanning`.

- `closingAt_eq_closeParen`: with `d + 1` parentheses open, the offset scan stops at the `)` where `closeParen d`
  splits the text, so both scans find the same `)`;
- `readLength_unclosed`, `readLength_blank`, `readLength_lexeme`: the three outcomes at a `(`, and
  `fieldAt_length_eq_readLength`: the reader takes a field's length argument as `readLength` reads it at its `(`;
- `readLength_eq_ok_iff`: at a `(`, what is read is exactly a balanced text that is not blank, followed by `)`;
- `depthThrough`, the count of parentheses from one offset through another, and `depthThrough_balanced`: from the `(`
  before a balanced text, the count stays positive through it and returns to zero at the `)` after it;
- `readLength_reads_balanced_interior`: an interior between `(` and `)` is read back whole exactly when it is balanced
  and not blank, and whatever is read at a `(` is the balanced text up to the `)` that first closes it. Witness
  `readLength_reads_nested_argument`.
-/

namespace ColumnDecl

open Scan Grammar

/-! ## The offset scan and the list scan -/

/-- One more character before the `)` puts the `)` one offset further on. -/
theorem map_offset_cons (o : Option (List Char × List Char)) (c : Char) (pos : Nat) :
    (o.map fun x => (c :: x.1, x.2)).map (fun x => pos + x.1.length) = o.map fun x => pos + 1 + x.1.length := by
  cases o with
  | none => rfl
  | some x =>
    simp only [Option.map_some, List.length_cons, Option.some.injEq]
    omega

/-- With `d + 1` parentheses open, the offset scan stops at the `)` where `closeParen d` splits the text: one offset
after `pos` for each character of the interior. -/
theorem closingAt_eq_closeParen (d pos : Nat) (cs : List Char) :
    closingAt ((d : Int) + 1) pos cs = (closeParen d cs).map fun x => pos + x.1.length := by
  -- the scans take the same branch at each character; the offset count starts one above the list count
  induction cs generalizing d pos with
  | nil => rfl
  | cons c r ih =>
    by_cases h1 : c = '('
    · subst h1
      have h := ih (d + 1) (pos + 1)
      rw [Int.natCast_add, Int.natCast_one] at h
      simp only [closingAt, closeParen, if_pos, if_neg (by decide : ¬ '(' = ')'), h, map_offset_cons]
    · by_cases h2 : c = ')'
      · subst h2
        cases d with
        | zero => simp [closingAt, closeParen]
        | succ d =>
          have h := ih d (pos + 1)
          have hd : ((d + 1 : Nat) : Int) + 1 - 1 = (d : Int) + 1 := by omega
          have hne : ¬((d : Int) + 1 = 0) := by omega
          simp only [closingAt, closeParen, if_pos, if_neg (by decide : ¬ ')' = '('), hd, hne, if_false,
            Nat.add_one_ne_zero, Nat.add_sub_cancel, h, map_offset_cons]
      · have h := ih d (pos + 1)
        simp only [closingAt, closeParen, if_neg h1, if_neg h2, h, map_offset_cons]

/-- From a `(`, the offset scan with nothing open yet stops where `closeParen 0` splits the text after it. -/
theorem closingAt_open (pos : Nat) (r : List Char) :
    closingAt 0 pos ('(' :: r) = (closeParen 0 r).map fun x => pos + 1 + x.1.length := by
  have h := closingAt_eq_closeParen 0 (pos + 1) r
  rw [Int.natCast_zero, Int.zero_add] at h
  simp [closingAt, h]

/-- A text that trims to nothing is one whose characters trim to nothing. -/
theorem trim_eq_empty_iff (s : String) : Text.trim s = "" ↔ Text.trimChars s.toList = [] := by
  rw [Text.trim, String.ofList_eq_empty_iff]

/-- The characters at the offsets `p` and after of a text that has one there. -/
theorem drop_eq_cons_of_getElem? {l : List Char} {p : Nat} {c : Char} (h : l[p]? = some c) :
    l.drop p = c :: l.drop (p + 1) := by
  obtain ⟨hp, hc⟩ := List.getElem?_eq_some_iff.1 h
  rw [List.drop_eq_getElem_cons hp, hc]

section Outcomes

variable {s : String} {p : Nat} {r inner rest : List Char}

/-- A text that goes on at `p` with `(`, `inner` and `)` is what stands before `p`, then those. -/
theorem eq_take_append_parens (h : s.toList.drop p = '(' :: (inner ++ ')' :: rest)) :
    s.toList = s.toList.take p ++ '(' :: (inner ++ ')' :: rest) ∧ (s.toList.take p).length = p := by
  refine ⟨by rw [← h, List.take_append_drop], ?_⟩
  have hlen : p < s.toList.length := Nat.lt_of_not_le fun hp => by
    rw [List.drop_eq_nil_of_le hp] at h
    cases h
  simp only [List.length_take]
  omega

/-- The span from after the `(` at `p` to the `)` after `inner` covers `inner`. -/
theorem text_between_parens (h : s.toList.drop p = '(' :: (inner ++ ')' :: rest)) :
    Span.text ⟨p + 1, p + 1 + inner.length⟩ s = String.ofList inner := by
  obtain ⟨hs, hp⟩ := eq_take_append_parens h
  have hc := Span.chars_append (s.toList.take p ++ ['(']) inner (')' :: rest)
  simp only [List.length_append, List.length_singleton, List.append_assoc, List.cons_append, List.nil_append,
    hp] at hc
  rw [Int.natCast_add p 1, Int.natCast_one] at hc
  rw [Span.text, hs, hc]

/-- The offsets between the `(` at `p` and the `)` after `inner` hold `inner`, and the `)` stands right after it. -/
theorem between_parens (h : s.toList.drop p = '(' :: (inner ++ ')' :: rest)) :
    Text.between s.toList (p + 1) (p + 1 + inner.length) = inner ∧
      s.toList[p + 1 + inner.length]? = some ')' := by
  constructor
  · rw [Text.between, show p + 1 + inner.length - (p + 1) = inner.length by omega, ← List.drop_drop, h]
    simp
  · rw [show p + 1 + inner.length = p + (inner.length + 1) by omega, ← List.getElem?_drop, h]
    simp

/-- After the `)` that follows `inner`, the text goes on with what follows it. -/
theorem drop_after_parens (h : s.toList.drop p = '(' :: (inner ++ ')' :: rest)) :
    s.toList.drop (p + inner.length + 2) = rest := by
  rw [show p + inner.length + 2 = p + (inner.length + 2) by omega, ← List.drop_drop, h]
  simp

theorem readLength_unclosed (h : s.toList.drop p = '(' :: r) (hp : closeParen 0 r = none) :
    readLength s p = .error (.unclosedParen p) := by
  simp [readLength, h, closingAt_open, hp]

/-- Where the count returns to zero, the argument is refused when the text between the parentheses is blank and read
otherwise. -/
theorem readLength_closed (h : s.toList.drop p = '(' :: r) (hp : closeParen 0 r = some (inner, rest)) :
    readLength s p = if Text.trimChars inner = [] then .error (.emptyLength p (p + 1 + inner.length))
      else .ok (String.ofList inner, ⟨p + 1, p + 1 + inner.length⟩, p + inner.length + 2) := by
  rw [closeParen_eq_some hp] at h hp
  have ht := text_between_parens h
  by_cases hi : Text.trimChars inner = []
  · simp [readLength, h, closingAt_open, hp, ht, trim_eq_empty_iff, hi]
  · simp [readLength, h, closingAt_open, hp, ht, trim_eq_empty_iff, hi]
    omega

theorem readLength_blank (h : s.toList.drop p = '(' :: r) (hp : closeParen 0 r = some (inner, rest))
    (hi : Text.trimChars inner = []) :
    readLength s p = .error (.emptyLength p (p + 1 + inner.length)) := by
  rw [readLength_closed h hp, if_pos hi]

theorem readLength_lexeme (h : s.toList.drop p = '(' :: r) (hp : closeParen 0 r = some (inner, rest))
    (hi : Text.trimChars inner ≠ []) :
    readLength s p = .ok (String.ofList inner, ⟨p + 1, p + 1 + inner.length⟩, p + inner.length + 2) := by
  rw [readLength_closed h hp, if_neg hi]

end Outcomes

example : readLength "NUMERIC(10,10)>" 7 = .ok ("10,10", ⟨8, 13⟩, 14) := rfl

example : readLength "NUMERIC(10," 7 = .error (.unclosedParen 7) := rfl

/-- The reader takes a field's length argument as `readLength` reads it at the offset of its `(`, in a declaration
`decl` of which the text after the blanks is the rest: it stops with the same refusal, or adds the same lexeme and
span as a LENGTH token and goes on from the offset after the `)`. -/
theorem fieldAt_length_eq_readLength {decl : String} {len pos q : Nat} {st : Reading} {cs r r3 rest : List Char}
    {c : Char} {names : List Token} (h : cs.dropWhile isBlank = c :: r) (hc : isIdentStart c = true)
    (hn : typeNames (pos + (cs.takeWhile isBlank).length) c r = (names, q, rest))
    (hr : rest.dropWhile isBlank = '(' :: r3)
    (hd : decl.toList.drop (q + (rest.takeWhile isBlank).length) = '(' :: r3) :
    fieldAt len st pos cs = (readLength decl (q + (rest.takeWhile isBlank).length)).bind fun x =>
      closeAt len ((st.pushAll names).push (.leaf .length x.1 x.2.1)) x.2.2 (decl.toList.drop x.2.2) := by
  cases hp : closeParen 0 r3 with
  | none =>
    rw [fieldAt_unclosedParen h hc hn hr hp, readLength_unclosed hd hp]
    rfl
  | some x =>
    obtain ⟨inner, r4⟩ := x
    by_cases hi : Text.trimChars inner = []
    · rw [fieldAt_emptyLength h hc hn hr hp hi, readLength_blank hd hp hi]
      rfl
    · rw [fieldAt_length h hc hn hr hp hi, readLength_lexeme hd hp hi]
      rw [closeParen_eq_some hp] at hd
      -- the reader goes on after the `)` with the rest of the declaration from there
      have hrest := drop_after_parens hd
      have hq : q + (rest.takeWhile isBlank).length + 1 + inner.length + 1 =
          q + (rest.takeWhile isBlank).length + inner.length + 2 := by omega
      simp only [Except.bind, hrest, hq, Int.natCast_add]

/-! ## What a length argument is -/

/-- At a `(`, `readLength` reads exactly a balanced text that is not blank and is followed by a `)`: its span is the
offsets between the parentheses, and the reading goes on after the `)`. -/
theorem readLength_eq_ok_iff {s : String} {p : Nat} {r : List Char} (h : s.toList.drop p = '(' :: r)
    {lexeme : String} {span : Span} {q : Nat} :
    readLength s p = .ok (lexeme, span, q) ↔
      ∃ rest, r = lexeme.toList ++ ')' :: rest ∧ LengthText lexeme.toList ∧
        span = ⟨p + 1, p + 1 + lexeme.length⟩ ∧ q = p + lexeme.length + 2 := by
  constructor
  · intro hok
    cases hp : closeParen 0 r with
    | none =>
      rw [readLength_unclosed h hp] at hok
      cases hok
    | some x =>
      obtain ⟨inner, rest⟩ := x
      by_cases hi : Text.trimChars inner = []
      · rw [readLength_blank h hp hi] at hok
        cases hok
      · rw [readLength_lexeme h hp hi] at hok
        simp only [Except.ok.injEq, Prod.mk.injEq] at hok
        obtain ⟨rfl, rfl, rfl⟩ := hok
        refine ⟨rest, by simpa using closeParen_eq_some hp, ⟨?_, by simpa using hi⟩, by simp, by simp⟩
        simpa using balanced_iff_nests.2 (nests_of_closeParen hp)
  · rintro ⟨rest, rfl, ⟨hbal, hnb⟩, rfl, rfl⟩
    rw [readLength_lexeme h (closeParen_append (balanced_iff_nests.1 hbal)) hnb]
    simp [String.length_toList]

/-! ## The first return to zero -/

/-- The parentheses opened less those closed by the characters of `cs` from offset `p` through offset `k`. -/
def depthThrough (cs : List Char) (p k : Nat) : Int :=
  ((Text.between cs p (k + 1)).count '(' : Int) - (Text.between cs p (k + 1)).count ')'

/-- Counted from a `(`, the depth through `m` more characters is one more than what those characters open. -/
theorem depthThrough_open {cs r : List Char} {p : Nat} (h : cs.drop p = '(' :: r) (m : Nat) :
    depthThrough cs p (p + m) = 1 + (((r.take m).count '(' : Int) - (r.take m).count ')') := by
  simp [depthThrough, Text.between, h, show p + m + 1 - p = m + 1 by omega]
  omega

/-- Counted from the `(` before a balanced `inner`, the depth stays positive through `inner` and returns to zero at
the `)` after it. -/
theorem depthThrough_balanced {cs inner rest : List Char} {p : Nat} (h : cs.drop p = '(' :: (inner ++ ')' :: rest))
    (hb : Balanced inner) :
    depthThrough cs p (p + 1 + inner.length) = 0 ∧ ∀ k, p ≤ k → k < p + 1 + inner.length → 0 < depthThrough cs p k := by
  constructor
  · rw [show p + 1 + inner.length = p + (inner.length + 1) by omega, depthThrough_open h,
      List.take_length_add_append]
    have := hb.2
    simp [List.count_append]
    omega
  · intro k hk hk'
    obtain ⟨m, rfl⟩ : ∃ m, k = p + m := ⟨k - p, by omega⟩
    rw [depthThrough_open h, List.take_append_of_le_length (by omega)]
    have := hb.1 m
    omega

/-! ## Reading a length argument -/

/-- A length argument is read back whole exactly when it is balanced and not blank, whatever follows its `)`; and
whatever is read at a `(` is the balanced text between it and the `)` at which the count of parentheses from it first
returns to zero, with the span of that text and the offset after the `)`. -/
theorem readLength_reads_balanced_interior :
    (∀ L t : String, readLength ("(" ++ L ++ ")" ++ t) 0 = .ok (L, ⟨1, 1 + L.length⟩, L.length + 2) ↔
        Balanced L.toList ∧ Text.trim L ≠ "") ∧
    ∀ (s : String) (p : Nat) (lexeme : String) (span : Span) (q : Nat),
      s.toList[p]? = some '(' → readLength s p = .ok (lexeme, span, q) →
        s.toList[q - 1]? = some ')' ∧ span = ⟨p + 1, q - 1⟩ ∧
        lexeme.toList = Text.between s.toList (p + 1) (q - 1) ∧ Balanced lexeme.toList ∧
        depthThrough s.toList p (q - 1) = 0 ∧ ∀ k, p ≤ k → k < q - 1 → 0 < depthThrough s.toList p k := by
  constructor
  · intro L t
    have h : ("(" ++ L ++ ")" ++ t).toList.drop 0 = '(' :: (L.toList ++ ')' :: t.toList) := by simp
    rw [readLength_eq_ok_iff h, ne_eq, trim_eq_empty_iff]
    constructor
    · rintro ⟨rest, -, ⟨hbal, hnb⟩, -, -⟩
      exact ⟨hbal, hnb⟩
    · rintro ⟨hbal, hnb⟩
      exact ⟨t.toList, rfl, ⟨hbal, hnb⟩, by simp, by simp⟩
  · intro s p lexeme span q hp hok
    have h := drop_eq_cons_of_getElem? hp
    obtain ⟨rest, hr, ⟨hbal, -⟩, rfl, rfl⟩ := (readLength_eq_ok_iff h).1 hok
    rw [hr] at h
    -- the `)` is at `q - 1`, right after the lexeme
    have hq : p + lexeme.length + 2 - 1 = p + 1 + lexeme.toList.length := by
      simp [String.length_toList]
      omega
    obtain ⟨hslice, hclose⟩ := between_parens h
    obtain ⟨first, positive⟩ := depthThrough_balanced h hbal
    rw [hq]
    refine ⟨hclose, ?_, hslice.symm, hbal, first, positive⟩
    simp
    omega

theorem readLength_reads_nested_argument :
    ("X(a(1),b) tail".toList[1]? = some '(' ∧ readLength "X(a(1),b) tail" 1 = .ok ("a(1),b", ⟨2, 8⟩, 9)) ∧
      "X(a(1),b) tail".toList[8]? = some ')' ∧ (⟨2, 8⟩ : Span) = ⟨1 + 1, 8⟩ ∧
      "a(1),b".toList = Text.between "X(a(1),b) tail".toList 2 8 ∧ Balanced "a(1),b".toList ∧
      depthThrough "X(a(1),b) tail".toList 1 8 = 0 ∧ ∀ k, 1 ≤ k → k < 8 → 0 < depthThrough "X(a(1),b) tail".toList 1 k :=
  have hp : "X(a(1),b) tail".toList[1]? = some '(' := rfl
  have hok : readLength "X(a(1),b) tail" 1 = .ok ("a(1),b", ⟨2, 8⟩, 9) := rfl
  ⟨⟨hp, hok⟩, readLength_reads_balanced_interior.2 _ _ _ _ _ hp hok⟩

end ColumnDecl
