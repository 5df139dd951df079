import ColumnDecl.Proofs.Located

/-
Unclosed brackets are reported at the bracket left open.

A declaration can leave two kinds of bracket open: the `<` of a nested region and the `(` of a length argument. The
angle brackets that open and close regions are those outside length arguments, where no parenthesis is open
(`outerAngles`); a length argument may hold `<` and `>` of its own.
- `Bracketed`: what a reading keeps of the prefix of the text it has read: no parenthesis is open after it, and each
  open region's `<` is followed, up to the `<` of the next region inside it or to the end of the prefix, by angle
  brackets that balance (`LeftOpen`);
- `innermostOpen_of_leftOpen`: so the `<` of the innermost open region is the last `<` after which the angle brackets
  balance (`InnermostOpen`);
- `reader_unclosed`: an error of the reader from such a reading reports an unclosed `<` at the innermost open region
  and at the end of the text, and an unclosed `(` at a length argument whose parentheses never close (`NeverClosed`);
- `tokenize_unclosed_reported`: E101 points at the `<` of the innermost region still open at the end of the text, with
  its second label at that end, and E102 at the `(` of a length argument whose count of open parentheses never
  returns to zero.
-/

namespace ColumnDecl

open Scan Grammar

/-! ## Brackets outside length arguments -/

/-- the count of open parentheses after `c`, with `d` open before it: a `(` opens one, a `)` closes one if one is
open -/
def parenStep (d : Nat) (c : Char) : Nat := if c = '(' then d + 1 else if c = ')' then d - 1 else d

/-- the count of open parentheses after `cs`, with `d` open before it -/
def parenDepth (d : Nat) (cs : List Char) : Nat := cs.foldl parenStep d

/-- the angle brackets of `cs` that stand where no parenthesis is open, so outside every length argument, each with
its offset; `cs` starts at offset `pos` with `d` parentheses open -/
def outerAngles (d pos : Nat) : List Char → List (Nat × Char)
  | [] => []
  | c :: r =>
    if d = 0 ∧ (c = '<' ∨ c = '>') then (pos, c) :: outerAngles (parenStep d c) (pos + 1) r
    else outerAngles (parenStep d c) (pos + 1) r

/-- no prefix of `l` closes more angle brackets than it opens, and the whole of `l` closes all it opens -/
def AnglesBalanced (l : List Char) : Prop :=
  (∀ n, (l.take n).count '>' ≤ (l.take n).count '<') ∧ l.count '>' = l.count '<'

/-- the angle brackets outside length arguments that stand after offset `p` -/
def anglesAfter (cs : List Char) (p : Nat) : List Char :=
  ((outerAngles 0 0 cs).filter (p < ·.1)).map Prod.snd

/-- `p` is the `<` of the innermost region that `cs` leaves open: the last `<` outside length arguments after which
the angle brackets outside length arguments balance -/
structure InnermostOpen (cs : List Char) (p : Nat) : Prop where
  opener : (p, '<') ∈ outerAngles 0 0 cs
  balanced : AnglesBalanced (anglesAfter cs p)
  last : ∀ q, (q, '<') ∈ outerAngles 0 0 cs → AnglesBalanced (anglesAfter cs q) → q ≤ p

/-- the `(` at `p` opens a length argument that never closes: no parenthesis is open before it, and the count of
parentheses open from it never returns to zero -/
structure NeverClosed (cs : List Char) (p : Nat) : Prop where
  paren : cs[p]? = some '('
  outside : parenDepth 0 (cs.take p) = 0
  open_to_end : ∀ n, 0 < n → ((cs.drop p).take n).count ')' < ((cs.drop p).take n).count '('

@[simp] theorem parenDepth_nil (d : Nat) : parenDepth d [] = d := rfl

@[simp] theorem parenDepth_cons (d : Nat) (c : Char) (r : List Char) :
    parenDepth d (c :: r) = parenDepth (parenStep d c) r := rfl

theorem parenDepth_append (d : Nat) (a b : List Char) : parenDepth d (a ++ b) = parenDepth (parenDepth d a) b :=
  List.foldl_append

@[simp] theorem outerAngles_nil (d pos : Nat) : outerAngles d pos [] = [] := rfl

theorem outerAngles_append (a b : List Char) :
    ∀ d pos, outerAngles d pos (a ++ b) = outerAngles d pos a ++ outerAngles (parenDepth d a) (pos + a.length) b := by
  induction a with
  | nil => intro d pos; rfl
  | cons c a ih =>
    intro d pos
    simp only [List.cons_append, outerAngles, ih, parenDepth_cons, List.length_cons]
    split <;> simp [Nat.add_assoc, Nat.add_comm 1]

/-- Each angle bracket that counts stands in `cs`, at its offset. -/
theorem mem_outerAngles {m : Nat × Char} :
    ∀ {cs : List Char} {d pos : Nat}, m ∈ outerAngles d pos cs → pos ≤ m.1 ∧ cs[m.1 - pos]? = some m.2
  | [], _, _, h => by simp at h
  | c :: r, d, pos, h => by
    simp only [outerAngles] at h
    have step : m ∈ outerAngles (parenStep d c) (pos + 1) r → pos ≤ m.1 ∧ (c :: r)[m.1 - pos]? = some m.2 := by
      intro hm
      obtain ⟨hle, hget⟩ := mem_outerAngles hm
      refine ⟨by omega, ?_⟩
      rw [show m.1 - pos = (m.1 - (pos + 1)) + 1 by omega]
      simpa using hget
    split at h
    · rcases List.mem_cons.1 h with rfl | hm
      · simp
      · exact step hm
    · exact step h

/-- The angle brackets that count are in the order of their offsets. -/
theorem outerAngles_sorted : ∀ (cs : List Char) (d pos : Nat), (outerAngles d pos cs).Pairwise (·.1 < ·.1)
  | [], _, _ => List.Pairwise.nil
  | c :: r, d, pos => by
    simp only [outerAngles]
    split
    · refine List.Pairwise.cons (fun m hm => ?_) (outerAngles_sorted r _ _)
      have := (mem_outerAngles hm).1
      simp only at this ⊢
      omega
    · exact outerAngles_sorted r _ _

/-- In a list sorted by offset, the entries after one are those of larger offset. -/
theorem filter_after_of_sorted {L₁ L₂ : List (Nat × Char)} {q : Nat} {c : Char}
    (h : (L₁ ++ (q, c) :: L₂).Pairwise (·.1 < ·.1)) : (L₁ ++ (q, c) :: L₂).filter (q < ·.1) = L₂ := by
  obtain ⟨-, hqc, hlt⟩ := List.pairwise_append.1 h
  have hbefore : L₁.filter (q < ·.1) = [] :=
    List.filter_eq_nil_iff.2 fun a ha => by simpa using Nat.le_of_lt (hlt a ha (q, c) List.mem_cons_self)
  have hafter : L₂.filter (q < ·.1) = L₂ :=
    List.filter_eq_self.2 fun b hb => by simpa using (List.pairwise_cons.1 hqc).1 b hb
  simp [List.filter_append, hbefore, hafter]

/-! ## Balanced angle brackets -/

theorem anglesBalanced_nil : AnglesBalanced [] := by simp [AnglesBalanced]

theorem AnglesBalanced.append {a b : List Char} (ha : AnglesBalanced a) (hb : AnglesBalanced b) :
    AnglesBalanced (a ++ b) := by
  refine ⟨fun n => ?_, by simp [ha.2, hb.2]⟩
  rw [List.take_append, List.count_append, List.count_append]
  by_cases hn : n ≤ a.length
  · -- a prefix of `a`, then nothing of `b`
    rw [Nat.sub_eq_zero_of_le hn]
    simpa using ha.1 n
  · rw [List.take_of_length_le (by omega)]
    have := hb.1 (n - a.length)
    have := ha.2
    omega

/-- A balanced text between `<` and `>` is balanced. -/
theorem AnglesBalanced.wrap {l : List Char} (h : AnglesBalanced l) : AnglesBalanced ('<' :: (l ++ ['>'])) := by
  refine ⟨fun n => ?_, by simp [h.2]⟩
  cases n with
  | zero => simp
  | succ n =>
    rw [List.take_succ_cons, List.take_append]
    have hl := h.1 n
    have hle : (List.take (n - l.length) ['>']).count '>' ≤ 1 := by
      cases n - l.length <;> simp
    by_cases hn : n ≤ l.length
    · rw [Nat.sub_eq_zero_of_le hn]
      simp
      omega
    · rw [List.take_of_length_le (by omega)]
      have := h.2
      simp [List.count_append] at hle ⊢
      omega

/-- After a `<`, text that closes as many as it opens leaves the whole unbalanced: the `<` is never closed. -/
theorem AnglesBalanced.not_open_before {a b : List Char} (h : AnglesBalanced (a ++ '<' :: b))
    (hb : b.count '>' = b.count '<') : False := by
  have hpre := h.1 a.length
  have htot := h.2
  rw [List.take_append_of_le_length (Nat.le_refl _), List.take_length] at hpre
  simp [List.count_append] at htot
  omega

/-! ## Text that moves no bracket -/

/-- a character that neither opens nor closes a bracket -/
def Inert (c : Char) : Prop := c ≠ '(' ∧ c ≠ ')' ∧ c ≠ '<' ∧ c ≠ '>'

theorem inert_of_isBlank {c : Char} (h : isBlank c = true) : Inert c := by
  refine ⟨?_, ?_, ?_, ?_⟩ <;> rintro rfl <;> exact absurd h (by decide)

theorem inert_of_isIdentChar {c : Char} (h : isIdentChar c = true) : Inert c := by
  refine ⟨?_, ?_, ?_, ?_⟩ <;> rintro rfl <;> exact absurd h (by decide)

/-- text that, read where no parenthesis is open, holds no angle bracket that counts and leaves no parenthesis
open -/
def Quiet (X : List Char) : Prop := parenDepth 0 X = 0 ∧ ∀ pos, outerAngles 0 pos X = []

theorem quiet_of_inert : ∀ {X : List Char}, (∀ c ∈ X, Inert c) → Quiet X
  | [], _ => ⟨rfl, fun _ => rfl⟩
  | c :: X, h => by
    obtain ⟨h1, h2, h3, h4⟩ := h c List.mem_cons_self
    have ih := quiet_of_inert fun x hx => h x (List.mem_cons_of_mem c hx)
    have hs : parenStep 0 c = 0 := by simp [parenStep, h1, h2]
    exact ⟨by simp [hs, ih.1], fun pos => by simp [outerAngles, hs, h3, h4, ih.2]⟩

theorem quiet_of_blanks {w : List Char} (hw : Blanks w) : Quiet w :=
  quiet_of_inert fun c hc => inert_of_isBlank (hw c hc)

theorem Quiet.append {X Y : List Char} (hX : Quiet X) (hY : Quiet Y) : Quiet (X ++ Y) :=
  ⟨by rw [parenDepth_append, hX.1, hY.1], fun pos => by rw [outerAngles_append, hX.2, hX.1, hY.2]; rfl⟩

/-- Inside a length argument a parenthesis stays open, so no angle bracket there counts; its parentheses leave open as
many as `Nests` says. -/
theorem outerAngles_nests : ∀ {l : List Char} {d e : Nat}, Nests d l e → ∀ pos,
    outerAngles (d + 1) pos l = [] ∧ parenDepth (d + 1) l = e + 1
  | [], d, e, h, pos => by
    rw [nests_nil] at h
    simp [h]
  | c :: l, d, e, h, pos => by
    by_cases h1 : c = '('
    · subst h1
      have ih := outerAngles_nests (nests_open.1 h) (pos + 1)
      simp [outerAngles, parenStep, ih]
    · by_cases h2 : c = ')'
      · subst h2
        obtain ⟨hd, h'⟩ := nests_close.1 h
        have ih := outerAngles_nests h' (pos + 1)
        have hs : d + 1 - 1 = d - 1 + 1 := by omega
        simp [outerAngles, parenStep, hs, ih]
      · have ih := outerAngles_nests ((nests_other h1 h2).1 h) (pos + 1)
        simp [outerAngles, parenStep, h1, h2, ih]

/-- A length argument whose parentheses balance is quiet, its `(` and `)` included. -/
theorem quiet_length {inner : List Char} (h : Nests 0 inner 0) : Quiet ('(' :: (inner ++ [')'])) := by
  have hn : ∀ pos, outerAngles 1 pos inner = [] ∧ parenDepth 1 inner = 1 := outerAngles_nests h
  refine ⟨?_, fun pos => ?_⟩
  · simp [parenStep, parenDepth_append, (hn 0).2]
  · simp [outerAngles, parenStep, outerAngles_append, (hn (pos + 1)).1, (hn 0).2]

/-! ## The regions that angle brackets leave open -/

/-- `os`, innermost first, are `<` that the angle brackets `ms` leave open: after each, up to the next or to the end,
the angle brackets balance -/
inductive LeftOpen : List (Nat × Char) → List Nat → Prop
  | top (ms : List (Nat × Char)) : LeftOpen ms []
  | region {ms bs : List (Nat × Char)} {os : List Nat} {o : Nat} :
      LeftOpen ms os → AnglesBalanced (bs.map Prod.snd) → LeftOpen (ms ++ (o, '<') :: bs) (o :: os)

theorem LeftOpen.append {ms : List (Nat × Char)} {os : List Nat} (h : LeftOpen ms os) {bs : List (Nat × Char)}
    (hb : AnglesBalanced (bs.map Prod.snd)) : LeftOpen (ms ++ bs) os := by
  cases h with
  | top => exact .top _
  | region h' hb' =>
    rw [List.append_assoc, List.cons_append]
    exact .region h' (by rw [List.map_append]; exact hb'.append hb)

/-- A `>` closes the innermost open region. -/
theorem LeftOpen.close {ms : List (Nat × Char)} {o : Nat} {os : List Nat} (h : LeftOpen ms (o :: os)) (q : Nat) :
    LeftOpen (ms ++ [(q, '>')]) os := by
  cases h with
  | @region ms' bs _ _ h' hb =>
    have hwrap : AnglesBalanced (((o, '<') :: (bs ++ [(q, '>')])).map Prod.snd) := by
      simpa using hb.wrap
    simpa using h'.append hwrap

/-- The `<` of the innermost region left open is the last `<` after which the angle brackets balance: after a later
`<`, the rest of the balanced text that follows the innermost one closes more than it opens. -/
theorem innermostOpen_of_leftOpen {cs : List Char} {o : Nat} {os : List Nat}
    (h : LeftOpen (outerAngles 0 0 cs) (o :: os)) : InnermostOpen cs o := by
  obtain ⟨L, hL⟩ : ∃ L, outerAngles 0 0 cs = L := ⟨_, rfl⟩
  have hs := outerAngles_sorted cs 0 0
  rw [hL] at h hs
  cases h with
  | @region ms bs _ _ _ hb =>
    have hafter : anglesAfter cs o = bs.map Prod.snd := by
      rw [anglesAfter, hL, filter_after_of_sorted hs]
    refine ⟨by rw [hL]; simp, hafter ▸ hb, fun q hq hbal => Nat.le_of_not_lt fun hlt => ?_⟩
    rw [hL] at hq
    -- a later `<` stands among the balanced angle brackets after `o`
    have hq' : (q, '<') ∈ bs := by
      rcases List.mem_append.1 hq with hm | hm
      · have := (List.pairwise_append.1 hs).2.2 _ hm (o, '<') List.mem_cons_self
        simp only at this
        omega
      · rcases List.mem_cons.1 hm with he | hm
        · simp only [Prod.mk.injEq] at he
          omega
        · exact hm
    obtain ⟨b₁, b₂, rfl⟩ := List.append_of_mem hq'
    have hsplit : ms ++ (o, '<') :: (b₁ ++ (q, '<') :: b₂) = (ms ++ (o, '<') :: b₁) ++ (q, '<') :: b₂ := by simp
    rw [hsplit] at hs hL
    have hrest : anglesAfter cs q = b₂.map Prod.snd := by
      rw [anglesAfter, hL, filter_after_of_sorted hs]
    rw [hrest] at hbal
    exact AnglesBalanced.not_open_before (by simpa using hb) hbal.2

/-! ## What a reading keeps of the text it has read -/

/-- what a reading keeps of the prefix `P` of the text it has read, with `os` the offsets of the `<` of its open
regions, innermost first: no parenthesis is open after `P`, and the open regions are those that the angle brackets
of `P` leave open -/
structure Bracketed (P : List Char) (os : List Nat) : Prop where
  closed : parenDepth 0 P = 0
  regions : LeftOpen (outerAngles 0 0 P) os

section Bracketed

variable {P X : List Char} {os : List Nat}

theorem bracketed_nil : Bracketed [] [] := ⟨rfl, .top _⟩

theorem Bracketed.outerAngles_quiet (h : Bracketed P os) (hX : Quiet X) :
    outerAngles 0 0 (P ++ X) = outerAngles 0 0 P := by
  rw [outerAngles_append, h.closed, hX.2, List.append_nil]

/-- Text that moves no bracket keeps what the reading keeps. -/
theorem Bracketed.quiet (h : Bracketed P os) (hX : Quiet X) : Bracketed (P ++ X) os :=
  ⟨by rw [parenDepth_append, h.closed, hX.1], by rw [h.outerAngles_quiet hX]; exact h.regions⟩

/-- A `<` after quiet text opens the innermost region, at its offset. -/
theorem Bracketed.openAt (h : Bracketed P os) (hX : Quiet X) :
    Bracketed (P ++ X ++ ['<']) ((P ++ X).length :: os) := by
  have hq := h.quiet hX
  refine ⟨by rw [parenDepth_append, hq.closed]; rfl, ?_⟩
  rw [outerAngles_append, hq.closed]
  simpa [outerAngles, parenStep] using @LeftOpen.region _ [] _ (P ++ X).length hq.regions anglesBalanced_nil

/-- A `>` after quiet text closes the innermost open region. -/
theorem Bracketed.close {o : Nat} (h : Bracketed P (o :: os)) (hX : Quiet X) : Bracketed (P ++ X ++ ['>']) os := by
  have hq := h.quiet hX
  refine ⟨by rw [parenDepth_append, hq.closed]; rfl, ?_⟩
  rw [outerAngles_append, hq.closed]
  simpa [outerAngles, parenStep] using hq.regions.close (P ++ X).length

/-- At the end of the text, after quiet text, the innermost open region is the innermost that the text leaves open. -/
theorem Bracketed.innermost {o : Nat} (h : Bracketed P (o :: os)) (hX : Quiet X) : InnermostOpen (P ++ X) o :=
  innermostOpen_of_leftOpen (by rw [h.outerAngles_quiet hX]; exact h.regions)

end Bracketed

/-- After a prefix that leaves no parenthesis open, a `(` whose count of open parentheses never returns to zero opens
a length argument that never closes. -/
theorem neverClosed_of_closeParen {Q r : List Char} (hQ : parenDepth 0 Q = 0) (hp : closeParen 0 r = none) :
    NeverClosed (Q ++ '(' :: r) Q.length := by
  obtain ⟨e, hr, -⟩ := nests_of_closeParen_none hp
  refine ⟨by simp, by simpa using hQ, fun n hn => ?_⟩
  rw [List.drop_left, List.take_cons hn]
  have := hr (n - 1)
  simp
  omega

/-! ## The reader reports the bracket left open -/

/-- The identifiers that `typeNames` reads, with the blanks between them, move no bracket. -/
theorem typeNames_inert {p q : Nat} {c : Char} {r rest : List Char} {names : List Token}
    (h : typeNames p c r = (names, q, rest)) : ∃ u, r = u ++ rest ∧ q = p + 1 + u.length ∧ ∀ x ∈ u, Inert x := by
  rcases identifiers_split r with ⟨l, t, rfl, hl, ht, hla⟩ | ⟨n, b, w, d, l, t, rfl, hn, hb, hw, hd, hl, ht⟩
  · rw [typeNames_type hl ht hla] at h
    simp only [Prod.mk.injEq] at h
    obtain ⟨-, rfl, rfl⟩ := h
    exact ⟨l, rfl, by omega, fun x hx => inert_of_isIdentChar (hl x hx)⟩
  · rw [typeNames_named hn hb hw hd hl ht] at h
    simp only [Prod.mk.injEq] at h
    obtain ⟨-, rfl, rfl⟩ := h
    refine ⟨n ++ b :: (w ++ d :: l), by simp, by simp; omega, fun x hx => ?_⟩
    simp only [List.mem_append, List.mem_cons] at hx
    rcases hx with hx | rfl | hx | rfl | hx
    · exact inert_of_isIdentChar (hn x hx)
    · exact inert_of_isBlank hb
    · exact inert_of_isBlank (hw x hx)
    · exact inert_of_isIdentChar (isIdentChar_of_isIdentStart hd)
    · exact inert_of_isIdentChar (hl x hx)

/-- The blanks and identifiers that open a field definition move no bracket. -/
theorem field_head_quiet {pos q : Nat} {cs r rest : List Char} {c : Char} {names : List Token}
    (hd : cs.dropWhile isBlank = c :: r) (hc : isIdentStart c = true)
    (hn : typeNames (pos + (cs.takeWhile isBlank).length) c r = (names, q, rest)) :
    ∃ H, cs = H ++ rest ∧ pos + H.length = q ∧ Quiet H := by
  obtain ⟨u, hu, hq, hinert⟩ := typeNames_inert hn
  refine ⟨cs.takeWhile isBlank ++ c :: u, ?_, by simp; omega, ?_⟩
  · rw [List.append_assoc, List.cons_append, ← hu]
    exact eq_blanks_append hd
  · refine (quiet_of_blanks (blanks_takeWhile cs)).append (quiet_of_inert fun x hx => ?_)
    rcases List.mem_cons.1 hx with rfl | hx
    · exact inert_of_isIdentChar (isIdentChar_of_isIdentStart hc)
    · exact hinert x hx

/-- The text of a field definition up to the character `d` that decides its branch moves no bracket. -/
theorem field_text_quiet {pos q : Nat} {cs r rest R : List Char} {c d : Char} {names : List Token}
    (hd : cs.dropWhile isBlank = c :: r) (hc : isIdentStart c = true)
    (hn : typeNames (pos + (cs.takeWhile isBlank).length) c r = (names, q, rest))
    (hr : rest.dropWhile isBlank = d :: R) :
    ∃ H, cs = H ++ d :: R ∧ pos + H.length = q + (rest.takeWhile isBlank).length ∧ Quiet H := by
  obtain ⟨H, hH, hHl, hHq⟩ := field_head_quiet hd hc hn
  refine ⟨H ++ rest.takeWhile isBlank, ?_, by simp; omega, hHq.append (quiet_of_blanks (blanks_takeWhile rest))⟩
  rw [hH, List.append_assoc, ← eq_blanks_append hr]

/-- what a refusal of `text` says of its brackets: an unclosed `<` is reported at the innermost region left open and
at the end of the text, an unclosed `(` at a length argument that never closes -/
structure Malformed.Unclosed (text : List Char) (m : Malformed) : Prop where
  angle : ∀ o n, m = .unclosedAngle o n → n = text.length ∧ InnermostOpen text o
  paren : ∀ a, m = .unclosedParen a → NeverClosed text a

/-- A missing type is reported as an unclosed region only at the end of the text, and then at the innermost one. -/
theorem Reading.missingType_eq_unclosedAngle {len p o n : Nat} {found : Option Char} {st : Reading}
    (h : st.missingType len p found = .unclosedAngle o n) : found = none ∧ n = len ∧ ∃ os, st.openers = o :: os := by
  unfold Reading.missingType at h
  split at h
  · rename_i r tail hr
    cases h
    exact ⟨rfl, rfl, tail.map (·.opened), by simp [Reading.openers, hr]⟩
  · split at h <;> cases h
  · cases h

theorem Reading.missingType_ne_unclosedParen {len p a : Nat} {found : Option Char} {st : Reading} :
    st.missingType len p found ≠ .unclosedParen a := by
  unfold Reading.missingType
  split
  · exact fun h => by cases h
  · split <;> exact fun h => by cases h
  · exact fun h => by cases h

/-- A missing type, from a reading of the text before blanks that end it, reports an unclosed region at the innermost
one. -/
theorem Bracketed.missingType_unclosed {text P w : List Char} {st : Reading} (hst : Bracketed P st.openers)
    (hP : text = P ++ w) (hw : Blanks w) {p : Nat} {found : Option Char} :
    (st.missingType text.length p found).Unclosed text := by
  refine ⟨fun o n hm => ?_, fun a hm => absurd hm Reading.missingType_ne_unclosedParen⟩
  obtain ⟨-, rfl, os, hos⟩ := Reading.missingType_eq_unclosedAngle hm
  rw [hos] at hst
  exact ⟨rfl, hP ▸ hst.innermost (quiet_of_blanks hw)⟩

theorem unexpectedAt_unclosed {text : List Char} {p : Nat} {c : Char} {r : List Char} :
    (unexpectedAt p c r).Unclosed text := by
  unfold unexpectedAt
  split <;> exact ⟨fun _ _ h => (by cases h), fun _ h => (by cases h)⟩

/-- An error of the reader, from a reading of `text` that has read the prefix `P` and keeps `Bracketed`, reports an
unclosed bracket at the bracket left open; by induction along the reading, each step keeping `Bracketed`. -/
theorem reader_unclosed (text : List Char) :
    (∀ st pos cs, ∀ P, text = P ++ cs → P.length = pos → Bracketed P st.openers → ∀ m,
      fieldAt text.length st pos cs = .error m → m.Unclosed text) ∧
    (∀ st pos cs, ∀ P, text = P ++ cs → P.length = pos → Bracketed P st.openers → ∀ m,
      closeAt text.length st pos cs = .error m → m.Unclosed text) := by
  refine fieldAt.mutual_induct
    (fun st pos cs => ∀ P, text = P ++ cs → P.length = pos → Bracketed P st.openers → ∀ m,
      fieldAt text.length st pos cs = .error m → m.Unclosed text)
    (fun st pos cs => ∀ P, text = P ++ cs → P.length = pos → Bracketed P st.openers → ∀ m,
      closeAt text.length st pos cs = .error m → m.Unclosed text)
    ?_ ?_ ?_ ?_ ?_ ?_ ?_ ?_ ?_ ?_ ?_ ?_ ?_
  · -- nothing but blanks is left where a field is due
    intro st pos cs hd P hP hPl hst m h
    rw [fieldAt_end hd] at h
    cases h
    exact hst.missingType_unclosed hP (blanks_of_dropWhile_nil hd)
  · -- a length argument whose parentheses never close
    intro st pos cs p c r hd hc names q rest hn r3 hr hp P hP hPl hst m h
    rw [fieldAt_unclosedParen hd hc hn hr hp] at h
    cases h
    obtain ⟨H, hH, hHl, hX⟩ := field_text_quiet hd hc hn hr
    have hlen : (P ++ H).length = q + (rest.takeWhile isBlank).length := by
      simp
      omega
    refine ⟨fun _ _ h => (by cases h), fun a ha => ?_⟩
    cases ha
    rw [hP, hH, ← List.append_assoc, ← hlen]
    exact neverClosed_of_closeParen (hst.quiet hX).closed hp
  · intro st pos cs p c r hd hc names q rest hn r3 hr inner r4 hp hi P hP hPl hst m h
    rw [fieldAt_emptyLength hd hc hn hr hp hi] at h
    cases h
    exact ⟨fun _ _ h => (by cases h), fun _ h => (by cases h)⟩
  · -- a length argument: the reading goes on after its `)`
    intro st pos cs p c r hd hc names q rest hn st' a r3 hr inner r4 hp stop hi ih P hP hPl hst m h
    rw [fieldAt_length hd hc hn hr hp hi] at h
    obtain ⟨H, hH, hHl, hHq⟩ := field_text_quiet hd hc hn hr
    have hX := hHq.append (quiet_length (nests_of_closeParen hp))
    have htext : text = (P ++ (H ++ '(' :: (inner ++ [')']))) ++ r4 := by
      rw [hP, hH, closeParen_eq_some hp]
      simp
    exact ih _ htext (by simp; omega) (by simpa [st'] using hst.quiet hX) m h
  · -- a `<` opens a region
    intro st pos cs p c r hd hc names q rest hn st' a r3 hr ih P hP hPl hst m h
    rw [fieldAt_open hd hc hn hr] at h
    obtain ⟨H, hH, hHl, hX⟩ := field_text_quiet hd hc hn hr
    have htext : text = (P ++ H ++ ['<']) ++ r3 := by
      rw [hP, hH]
      simp
    have hlen : (P ++ H).length = q + (rest.takeWhile isBlank).length := by
      simp
      omega
    have hst' := hst.openAt hX
    rw [hlen] at hst'
    exact ih _ htext (by simp; omega) (by simpa [st', a] using hst') m h
  · intro st pos cs p c r hd hc names q rest hn st' h1 h2 ih P hP hPl hst m h
    rw [fieldAt_plain hd hc hn h1 h2] at h
    obtain ⟨H, hH, hHl, hHq⟩ := field_head_quiet hd hc hn
    exact ih (P ++ H) (by rw [hP, hH, List.append_assoc]) (by simp; omega) (by simpa [st'] using hst.quiet hHq) m h
  · intro st pos cs c r hd hc P hP hPl hst m h
    rw [fieldAt_notIdent hd hc] at h
    cases h
    refine ⟨fun o n hm => ?_, fun a hm => absurd hm Reading.missingType_ne_unclosedParen⟩
    cases (Reading.missingType_eq_unclosedAngle hm).1
  · intro st pos cs hd hs P hP hPl hst m h
    rw [closeAt_end_top hd hs] at h
    cases h
  · -- the text ends inside a region
    intro st pos cs hd reg tail hs P hP hPl hst m h
    rw [closeAt_end_region hd hs] at h
    cases h
    have hos : st.openers = reg.opened :: tail.map (·.opened) := by simp [Reading.openers, hs]
    rw [hos] at hst
    refine ⟨fun o n hm => ?_, fun _ h => (by cases h)⟩
    cases hm
    exact ⟨rfl, hP ▸ hst.innermost (quiet_of_blanks (blanks_of_dropWhile_nil hd))⟩
  · intro st pos cs p r hd ih P hP hPl hst m h
    rw [closeAt_comma hd] at h
    have hX : Quiet (cs.takeWhile isBlank ++ [',']) :=
      (quiet_of_blanks (blanks_takeWhile cs)).append (quiet_of_inert (by simp [Inert]))
    exact ih _ (text_past_blanks hP hd) (by simp; omega) (by simpa using hst.quiet hX) m h
  · intro st pos cs r hs hd _ P hP hPl hst m h
    rw [closeAt_stray hs hd] at h
    cases h
    exact ⟨fun _ _ h => (by cases h), fun _ h => (by cases h)⟩
  · -- a `>` closes the innermost region
    intro st pos cs p r reg tail hs hd _ ih P hP hPl hst m h
    rw [closeAt_close hs hd] at h
    have hos : st.openers = reg.opened :: tail.map (·.opened) := by simp [Reading.openers, hs]
    rw [hos] at hst
    have hst' := hst.close (quiet_of_blanks (blanks_takeWhile cs))
    have hop : (Reading.mk st.top tail).openers = tail.map (·.opened) := rfl
    exact ih _ (text_past_blanks hP hd) (by simp; omega) (by simpa [hop] using hst') m h
  · intro st pos cs c r hd h1 h2 P hP hPl hst m h
    rw [closeAt_other hd h1 h2] at h
    cases h
    exact unexpectedAt_unclosed

/-- For every declaration that `tokenize` refuses with E101, the primary label is the `<` of the innermost region
still open at the end of the text, the last `<` outside length arguments after which the angle brackets outside length
arguments balance, and the secondary label the empty span at the end. For one refused with E102, the primary label is
the `(` of a length argument whose count of open parentheses never returns to zero. -/
theorem tokenize_unclosed_reported {s : String} {m : Malformed} (h : tokenize s = .error m) :
    (m.code = "E101" → ∃ p : Nat, m.diagnostic.primarySpan? = some ⟨p, p + 1⟩ ∧
      (m.diagnostic.labels.filter (·.style == .secondary)).map (·.span) = [⟨s.length, s.length⟩] ∧
      s.toList[p]? = some '<' ∧ InnermostOpen s.toList p) ∧
    (m.code = "E102" → ∃ p : Nat, m.diagnostic.primarySpan? = some ⟨p, p + 1⟩ ∧ NeverClosed s.toList p) := by
  have hlen : s.toList.length = s.length := String.length_toList
  dsimp only [tokenize] at h
  split at h
  · -- a blank declaration is refused as a whole, with E100
    cases h
    simp [Malformed.code]
  · have hm := (reader_unclosed s.toList).1 Reading.initial 0 s.toList [] rfl rfl bracketed_nil m h
    refine ⟨fun hc => ?_, fun hc => ?_⟩
    · obtain ⟨o, n, rfl⟩ : ∃ o n, m = .unclosedAngle o n := by
        cases m <;> simp [Malformed.code] at hc ⊢
      obtain ⟨rfl, hin⟩ := hm.angle o n rfl
      have hget := (mem_outerAngles hin.opener).2
      exact ⟨o, rfl, by simp [Malformed.diagnostic, hlen], by simpa using hget, hin⟩
    · obtain ⟨a, rfl⟩ : ∃ a, m = .unclosedParen a := by
        cases m <;> simp [Malformed.code] at hc ⊢
      exact ⟨a, rfl, hm.paren a rfl⟩

unseal fieldAt closeAt in
/-- An outer region left open around a closed inner one, after a length argument that holds a `>`: E101 points at the
outer `<`. -/
theorem tokenize_unclosed_reported_outer :
    tokenize "a<b(>), c<d>" = .error (.unclosedAngle 1 12) ∧
    ((Malformed.unclosedAngle 1 12).code = "E101" → ∃ p : Nat,
      (Malformed.unclosedAngle 1 12).diagnostic.primarySpan? = some ⟨p, p + 1⟩ ∧
      ((Malformed.unclosedAngle 1 12).diagnostic.labels.filter (·.style == .secondary)).map (·.span) =
        [⟨"a<b(>), c<d>".length, "a<b(>), c<d>".length⟩] ∧
      "a<b(>), c<d>".toList[p]? = some '<' ∧ InnermostOpen "a<b(>), c<d>".toList p) ∧
    ((Malformed.unclosedAngle 1 12).code = "E102" → ∃ p : Nat,
      (Malformed.unclosedAngle 1 12).diagnostic.primarySpan? = some ⟨p, p + 1⟩ ∧
      NeverClosed "a<b(>), c<d>".toList p) := by
  have h : tokenize "a<b(>), c<d>" = .error (.unclosedAngle 1 12) := rfl
  exact ⟨h, tokenize_unclosed_reported h⟩

end ColumnDecl
