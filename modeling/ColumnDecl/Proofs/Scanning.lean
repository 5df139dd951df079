import ColumnDecl.Proofs.Grammar

/-
The scanner's runs against the grammar: skipping blanks, reading the identifiers of a field with one identifier of
lookahead (`typeNames`), and counting parentheses to the `)` that ends a length argument (`closeParen`).

Each run is given two ways. An equation computes it on text of a known form (`typeNames_type`, `typeNames_named`,
`closeParen_append`); that is what shows that the tokenizer reads a derivable text. A split says which forms the text
can have in the first place (`identifiers_split`, `nests_of_closeParen`); that is what builds a derivation from a
run. Parentheses are counted from any depth by `Nests`, and `Balanced` is `Nests` from depth zero back to zero.
-/

namespace ColumnDecl

open Scan Grammar

/-! ## Runs of one class -/

/-- `t` does not start with a character of class `p` -/
def Stops (p : Char → Bool) (t : List Char) : Prop := ∀ x y, t = x :: y → p x = false

theorem stops_nil {p : Char → Bool} : Stops p [] := by
  intro x y h
  cases h

theorem stops_cons {p : Char → Bool} {x : Char} {y : List Char} : Stops p (x :: y) ↔ p x = false := by
  constructor
  · intro h
    exact h x y rfl
  · rintro h _ _ ⟨⟩
    exact h

/-- A run of class `p` followed by text that does not go on with it is read exactly. -/
theorem takeWhile_append_stop {p : Char → Bool} {l t : List Char} (hl : ∀ c ∈ l, p c = true) (ht : Stops p t) :
    (l ++ t).takeWhile p = l := by
  induction l with
  | nil =>
    cases t with
    | nil => rfl
    | cons x y => simp [stops_cons.1 ht]
  | cons c l ih =>
    simp only [List.mem_cons, forall_eq_or_imp] at hl
    simp [hl.1, ih hl.2]

theorem dropWhile_append_stop {p : Char → Bool} {l t : List Char} (hl : ∀ c ∈ l, p c = true) (ht : Stops p t) :
    (l ++ t).dropWhile p = t := by
  induction l with
  | nil =>
    cases t with
    | nil => rfl
    | cons x y => simp [stops_cons.1 ht]
  | cons c l ih =>
    simp only [List.mem_cons, forall_eq_or_imp] at hl
    simp [hl.1, ih hl.2]

theorem stops_dropWhile (p : Char → Bool) (cs : List Char) : Stops p (cs.dropWhile p) := by
  intro x y h
  have := List.head_dropWhile_not p (l := cs) (by simp [h])
  simpa [h] using this

theorem all_takeWhile (p : Char → Bool) (cs : List Char) : ∀ c ∈ cs.takeWhile p, p c = true :=
  List.all_eq_true.1 List.all_takeWhile

theorem blanks_takeWhile (cs : List Char) : Blanks (cs.takeWhile isBlank) := all_takeWhile isBlank cs

/-- Blanks before a character that is not blank are skipped, and nothing else. -/
theorem dropWhile_blanks_cons {w r : List Char} {c : Char} (hw : Blanks w) (hc : isBlank c = false) :
    (w ++ c :: r).dropWhile isBlank = c :: r ∧ (w ++ c :: r).takeWhile isBlank = w :=
  ⟨dropWhile_append_stop hw (stops_cons.2 hc), takeWhile_append_stop hw (stops_cons.2 hc)⟩

theorem dropWhile_blanks {w : List Char} (hw : Blanks w) : w.dropWhile isBlank = [] ∧ w.takeWhile isBlank = w := by
  have h := dropWhile_append_stop (t := []) hw stops_nil
  have h' := takeWhile_append_stop (t := []) hw stops_nil
  simp only [List.append_nil] at h h'
  exact ⟨h, h'⟩

/-- A text whose blanks are skipped to `d` is those blanks and `d`. -/
theorem eq_blanks_append {cs d : List Char} (h : cs.dropWhile isBlank = d) :
    cs = cs.takeWhile isBlank ++ d := by
  rw [← h, List.takeWhile_append_dropWhile]

theorem blanks_of_dropWhile_nil {cs : List Char} (h : cs.dropWhile isBlank = []) : Blanks cs := by
  have := eq_blanks_append h
  rw [List.append_nil] at this
  rw [this]
  exact blanks_takeWhile cs

/-! ## Identifiers -/

/-- after blanks, `t` ends or goes on with punctuation, which no identifier takes -/
def Punctuated (t : List Char) : Prop :=
  ∀ x y, t.dropWhile isBlank = x :: y → x = '(' ∨ x = '<' ∨ x = ',' ∨ x = '>'

/-- Text that goes on with punctuation stops an identifier, and holds no second identifier. -/
theorem Punctuated.stops {t : List Char} (h : Punctuated t) :
    Stops isIdentChar t ∧ Stops isIdentStart (t.dropWhile isBlank) := by
  refine ⟨?_, fun x y hx => isIdentStart_eq_false_of_punct (by rcases h x y hx with h | h | h | h <;> simp [h])⟩
  intro x y hx
  cases hb : isBlank x with
  | false =>
    have hd : t.dropWhile isBlank = x :: y := by simp [hx, hb]
    exact (punct_classes (by rcases h x y hd with h | h | h | h <;> simp [h])).2
  | true =>
    cases hi : isIdentChar x
    · rfl
    · rw [isBlank_eq_false_of_isIdentChar hi] at hb
      cases hb

theorem isIdent_cons {c : Char} {l : List Char} (hc : isIdentStart c = true) (hl : ∀ x ∈ l, isIdentChar x = true) :
    IsIdent (c :: l) := ⟨hc, hl⟩

/-- The identifiers after a first character `c`, with `r` the text after it: a type alone, when no second identifier
follows after blanks, or a name and a type. -/
theorem identifiers_split (r : List Char) :
    (∃ l t, r = l ++ t ∧ (∀ x ∈ l, isIdentChar x = true) ∧ Stops isIdentChar t ∧
      Stops isIdentStart (t.dropWhile isBlank)) ∨
    (∃ n b w d l t, r = n ++ b :: (w ++ d :: (l ++ t)) ∧ (∀ x ∈ n, isIdentChar x = true) ∧ isBlank b = true ∧
      Blanks w ∧ isIdentStart d = true ∧ (∀ x ∈ l, isIdentChar x = true) ∧ Stops isIdentChar t) := by
  have hr := (List.takeWhile_append_dropWhile (p := isIdentChar) (l := r)).symm
  have hn := all_takeWhile isIdentChar r
  have hstop := stops_dropWhile isIdentChar r
  generalize r.takeWhile isIdentChar = n at hr hn
  generalize r.dropWhile isIdentChar = after at hr hstop
  cases hd : after.dropWhile isBlank with
  | nil => exact .inl ⟨n, after, hr, hn, hstop, by rw [hd]; exact stops_nil⟩
  | cons d r2 =>
    cases hs : isIdentStart d with
    | false => exact .inl ⟨n, after, hr, hn, hstop, by rw [hd]; exact stops_cons.2 hs⟩
    | true =>
      have hsplit := eq_blanks_append hd
      have hw := blanks_takeWhile after
      generalize after.takeWhile isBlank = ws at hsplit hw
      cases ws with
      | nil =>
        rw [List.nil_append] at hsplit
        rw [hsplit, stops_cons] at hstop
        rw [isIdentChar_of_isIdentStart hs] at hstop
        cases hstop
      | cons b w =>
        rw [blanks_cons] at hw
        have hl := all_takeWhile isIdentChar r2
        refine .inr ⟨n, b, w, d, r2.takeWhile isIdentChar, r2.dropWhile isIdentChar, ?_, hn, hw.1, hw.2, hs, hl,
          stops_dropWhile isIdentChar r2⟩
        rw [hr, hsplit, List.takeWhile_append_dropWhile]
        rfl

theorem typeNames_type {pos : Nat} {c : Char} {l t : List Char} (hl : ∀ x ∈ l, isIdentChar x = true)
    (ht : Stops isIdentChar t) (hla : Stops isIdentStart (t.dropWhile isBlank)) :
    typeNames pos c (l ++ t) =
      ([.leaf .type (String.ofList (c :: l)) ⟨pos, pos + (l.length + 1)⟩], pos + (l.length + 1), t) := by
  unfold typeNames
  simp only [takeWhile_append_stop hl ht, dropWhile_append_stop hl ht, List.length_cons]
  split
  · rename_i d r2 hd
    rw [hd, stops_cons] at hla
    simp [hla]
  · rfl

theorem typeNames_named {pos : Nat} {c b d : Char} {n w l t : List Char} (hn : ∀ x ∈ n, isIdentChar x = true)
    (hb : isBlank b = true) (hw : Blanks w) (hd : isIdentStart d = true) (hl : ∀ x ∈ l, isIdentChar x = true)
    (ht : Stops isIdentChar t) :
    typeNames pos c (n ++ b :: (w ++ d :: (l ++ t))) =
      ([.leaf .name (String.ofList (c :: n)) ⟨pos, pos + (n.length + 1)⟩,
        .leaf .type (String.ofList (d :: l))
          ⟨pos + (n.length + 1) + (w.length + 1), pos + (n.length + 1) + (w.length + 1) + (l.length + 1)⟩],
        pos + (n.length + 1) + (w.length + 1) + (l.length + 1), t) := by
  have hbi : isIdentChar b = false := by
    cases hi : isIdentChar b
    · rfl
    · rw [isBlank_eq_false_of_isIdentChar hi] at hb
      cases hb
  have hdb : isBlank d = false := isBlank_eq_false_of_isIdentChar (isIdentChar_of_isIdentStart hd)
  have hafter : (b :: (w ++ d :: (l ++ t))).dropWhile isBlank = d :: (l ++ t) ∧
      (b :: (w ++ d :: (l ++ t))).takeWhile isBlank = b :: w :=
    dropWhile_blanks_cons (w := b :: w) (blanks_cons.2 ⟨hb, hw⟩) hdb
  unfold typeNames
  simp only [takeWhile_append_stop hn (stops_cons.2 hbi), dropWhile_append_stop hn (stops_cons.2 hbi), hafter,
    hd, ↓reduceIte, takeWhile_append_stop hl ht, dropWhile_append_stop hl ht, List.length_cons, Int.natCast_add,
    Int.natCast_one]

/-! ## Parentheses -/

namespace Grammar

/-- reading `l` with `d` parentheses open never closes more than are open, and leaves `e` open -/
def Nests (d : Nat) (l : List Char) (e : Nat) : Prop :=
  (∀ n, (l.take n).count ')' ≤ d + (l.take n).count '(') ∧ e + l.count ')' = d + l.count '('

theorem balanced_iff_nests {l : List Char} : Balanced l ↔ Nests 0 l 0 := by
  simp [Balanced, Nests]

@[simp] theorem nests_nil {d e : Nat} : Nests d [] e ↔ e = d := by
  simp [Nests]

@[simp] theorem nests_open {d e : Nat} {l : List Char} : Nests d ('(' :: l) e ↔ Nests (d + 1) l e := by
  constructor
  · rintro ⟨h, he⟩
    refine ⟨fun n => ?_, ?_⟩
    · have := h (n + 1)
      simp at this
      omega
    · simp at he
      omega
  · rintro ⟨h, he⟩
    refine ⟨fun n => ?_, ?_⟩
    · cases n with
      | zero => simp
      | succ n =>
        have := h n
        simp
        omega
    · simp
      omega

@[simp] theorem nests_close {d e : Nat} {l : List Char} :
    Nests d (')' :: l) e ↔ 0 < d ∧ Nests (d - 1) l e := by
  constructor
  · rintro ⟨h, he⟩
    have h1 := h 1
    simp at h1
    refine ⟨h1, fun n => ?_, ?_⟩
    · have := h (n + 1)
      simp at this
      omega
    · simp at he
      omega
  · rintro ⟨hd, h, he⟩
    refine ⟨fun n => ?_, ?_⟩
    · cases n with
      | zero => simp
      | succ n =>
        have := h n
        simp
        omega
    · simp
      omega

theorem nests_other {d e : Nat} {c : Char} {l : List Char} (h1 : c ≠ '(') (h2 : c ≠ ')') :
    Nests d (c :: l) e ↔ Nests d l e := by
  have h1' : (c == '(') = false := by simpa using h1
  have h2' : (c == ')') = false := by simpa using h2
  constructor
  · rintro ⟨h, he⟩
    refine ⟨fun n => ?_, ?_⟩
    · have := h (n + 1)
      simpa [List.count_cons, h1', h2'] using this
    · simpa [List.count_cons, h1', h2'] using he
  · rintro ⟨h, he⟩
    refine ⟨fun n => ?_, ?_⟩
    · cases n with
      | zero => simp
      | succ n => simpa [List.count_cons, h1', h2'] using h n
    · simpa [List.count_cons, h1', h2'] using he

theorem nests_append {d e : Nat} {l l' : List Char} : Nests d (l ++ l') e ↔ ∃ m, Nests d l m ∧ Nests m l' e := by
  induction l generalizing d with
  | nil => simp
  | cons c l ih =>
    by_cases h1 : c = '('
    · subst h1
      simp [ih]
    · by_cases h2 : c = ')'
      · subst h2
        simp only [List.cons_append, nests_close, ih]
        constructor
        · rintro ⟨hd, m, hm⟩
          exact ⟨m, ⟨hd, hm.1⟩, hm.2⟩
        · rintro ⟨m, ⟨hd, hm⟩, hm'⟩
          exact ⟨hd, m, hm, hm'⟩
      · simp [nests_other h1 h2, ih]

theorem nests_replicate_close (e : Nat) : Nests e (List.replicate e ')') 0 := by
  induction e with
  | zero => simp
  | succ e ih => simpa [List.replicate_succ] using ih

end Grammar

/-- The depth count stops at the `)` that closes the `d` parentheses open and the one before them. -/
theorem closeParen_append {d : Nat} {l r : List Char} (h : Nests d l 0) :
    closeParen d (l ++ ')' :: r) = some (l, r) := by
  induction l generalizing d with
  | nil =>
    rw [nests_nil] at h
    subst h
    simp [closeParen]
  | cons c l ih =>
    by_cases h1 : c = '('
    · subst h1
      rw [nests_open] at h
      simp [closeParen, ih h]
    · by_cases h2 : c = ')'
      · subst h2
        rw [nests_close] at h
        simp [closeParen, Nat.pos_iff_ne_zero.1 h.1, ih h.2]
      · rw [nests_other h1 h2] at h
        simp [closeParen, h1, h2, ih h]

theorem nests_of_closeParen {d : Nat} {cs i r : List Char} (h : closeParen d cs = some (i, r)) : Nests d i 0 := by
  induction cs generalizing d i r with
  | nil => simp [closeParen] at h
  | cons c cs ih =>
    simp only [closeParen] at h
    split at h
    · subst c
      split at h
      · simp only [Option.some.injEq, Prod.mk.injEq] at h
        obtain ⟨rfl, -⟩ := h
        simp_all
      · obtain ⟨⟨i', r'⟩, hx, hx'⟩ := Option.map_eq_some_iff.1 h
        simp only [Prod.mk.injEq] at hx'
        obtain ⟨rfl, rfl⟩ := hx'
        exact nests_close.2 ⟨by omega, ih hx⟩
    · split at h
      · subst c
        obtain ⟨⟨i', r'⟩, hx, hx'⟩ := Option.map_eq_some_iff.1 h
        simp only [Prod.mk.injEq] at hx'
        obtain ⟨rfl, rfl⟩ := hx'
        exact nests_open.2 (ih hx)
      · obtain ⟨⟨i', r'⟩, hx, hx'⟩ := Option.map_eq_some_iff.1 h
        simp only [Prod.mk.injEq] at hx'
        obtain ⟨rfl, rfl⟩ := hx'
        exact (nests_other ‹_› ‹_›).2 (ih hx)

/-- A text in which the count never returns to zero leaves some parentheses open. -/
theorem nests_of_closeParen_none {d : Nat} {cs : List Char} (h : closeParen d cs = none) : ∃ e, Nests d cs e := by
  induction cs generalizing d with
  | nil => exact ⟨d, nests_nil.2 rfl⟩
  | cons c cs ih =>
    simp only [closeParen] at h
    split at h
    · subst c
      split at h
      · cases h
      · obtain ⟨e, he⟩ := ih (Option.map_eq_none_iff.1 h)
        exact ⟨e, nests_close.2 ⟨by omega, he⟩⟩
    · split at h
      · subst c
        obtain ⟨e, he⟩ := ih (Option.map_eq_none_iff.1 h)
        exact ⟨e, nests_open.2 he⟩
      · obtain ⟨e, he⟩ := ih (Option.map_eq_none_iff.1 h)
        exact ⟨e, (nests_other ‹_› ‹_›).2 he⟩

end ColumnDecl
