import ColumnDecl.Proofs.Errors

/-
Errors are reported where the declaration stops being completable.

A text is viable when some text that goes on from it is accepted. The reader refuses a declaration at the first
character after which no text is viable, or at its end when the declaration could still be completed:
- `reader_completes`: the text before the character an error stops at, or the whole text when the error is reported
  at its end, is read through to tokens once some text is added (a type name, digits and brackets that close what is
  open);
- `tokenize_error_earliest`: for every declaration `s` that `tokenize` refuses, with `v` the length of the longest
  viable prefix of `s`, exactly the prefixes of length at most `v` are viable. When `v` is the length of `s` the error
  is E100, E101, E102 or E105 at the end; otherwise it is E103, E104, E105 or E106, and the character at `v` is the
  first character of the error's primary span (E105, E106) or its last (E103, E104). E100 is returned exactly on
  blank declarations.
-/

namespace ColumnDecl

open Scan Grammar

/-! ## Closing the open regions -/

theorem Reading.regions_push (t : Token) (st : Reading) : (st.push t).regions.length = st.regions.length := by
  cases st with
  | mk top regions => cases regions <;> rfl

theorem Reading.regions_pushAll (ts : List Token) :
    ∀ st : Reading, (st.pushAll ts).regions.length = st.regions.length := by
  induction ts with
  | nil => intro st; rfl
  | cons t ts ih => intro st; exact (ih (st.push t)).trans (Reading.regions_push t st)

/-- after blanks, `t` ends or goes on with a comma or a `>`: the text that may follow a complete field definition -/
def AfterField (t : List Char) : Prop := ∀ d R, t.dropWhile isBlank = d :: R → d = ',' ∨ d = '>'

theorem AfterField.punctuated {t : List Char} (h : AfterField t) : Punctuated t := by
  intro d R hd
  rcases h d R hd with rfl | rfl <;> simp

theorem afterField_blanks_cons {w Y : List Char} {d : Char} (hw : Blanks w) (hd : d = ',' ∨ d = '>') :
    AfterField (w ++ d :: Y) := by
  intro x R hx
  have hdb : isBlank d = false := by rcases hd with rfl | rfl <;> rfl
  rw [(dropWhile_blanks_cons hw hdb).1] at hx
  obtain ⟨rfl, -⟩ := List.cons.inj hx
  exact hd

theorem afterField_closers {w : List Char} (hw : Blanks w) (k : Nat) : AfterField (w ++ List.replicate k '>') := by
  cases k with
  | zero =>
    intro d R hd
    rw [List.replicate_zero, List.append_nil, (dropWhile_blanks hw).1] at hd
    cases hd
  | succ k => exact afterField_blanks_cons hw (.inr rfl)

theorem AfterField.not_paren {t : List Char} (h : AfterField t) (r3 : List Char)
    (hb : t.dropWhile isBlank = '(' :: r3) : False := by
  rcases h _ _ hb with h | h <;> exact absurd h (by decide)

theorem AfterField.not_angle {t : List Char} (h : AfterField t) (r3 : List Char)
    (hb : t.dropWhile isBlank = '<' :: r3) : False := by
  rcases h _ _ hb with h | h <;> exact absurd h (by decide)

/-- After a complete field definition, blanks and one `>` for each open region end the declaration. -/
theorem closeAt_closes_all (len : Nat) :
    ∀ k (st : Reading) (pos : Nat) {w : List Char}, Blanks w → st.regions.length = k →
      ∃ ts, closeAt len st pos (w ++ List.replicate k '>') = .ok ts := by
  -- on the number of open regions, each `>` closing the innermost one
  intro k
  induction k with
  | zero =>
    intro st pos w hw hk
    rw [List.replicate_zero, List.append_nil,
      closeAt_end_top (dropWhile_blanks hw).1 (List.eq_nil_of_length_eq_zero hk)]
    exact ⟨_, rfl⟩
  | succ k ih =>
    intro st pos w hw hk
    obtain ⟨reg, outer, hs⟩ : ∃ reg outer, st.regions = reg :: outer := by
      cases hs : st.regions with
      | nil => rw [hs] at hk; cases hk
      | cons reg outer => exact ⟨reg, outer, rfl⟩
    rw [List.replicate_succ, closeAt_close hs (dropWhile_blanks_cons hw (by decide)).1]
    refine ih _ _ blanks_nil ?_
    rw [Reading.regions_push]
    rw [hs] at hk
    simpa using hk

/-- Blanks, a type name and one `>` for each open region end the declaration where a field definition is due. -/
theorem fieldAt_completes_type (len : Nat) (st : Reading) (pos : Nat) {w : List Char} (hw : Blanks w) :
    ∃ ts, fieldAt len st pos (w ++ 'x' :: List.replicate st.regions.length '>') = .ok ts := by
  have hk : AfterField (List.replicate st.regions.length '>') := by
    simpa using afterField_closers blanks_nil st.regions.length
  obtain ⟨h1, h2⟩ := hk.punctuated.stops
  have hn := @typeNames_type (pos + w.length) 'x' [] _ (by simp) h1 h2
  have hd := dropWhile_blanks_cons (r := List.replicate st.regions.length '>') hw (by decide : isBlank 'x' = false)
  rw [fieldAt_plain hd.1 (by decide) (by rw [hd.2]; exact hn) hk.not_paren hk.not_angle]
  exact closeAt_closes_all len _ _ _ (w := []) blanks_nil (Reading.regions_pushAll _ _)

theorem take_blanks (cs : List Char) : cs.take (cs.takeWhile isBlank).length = cs.takeWhile isBlank := by
  calc cs.take (cs.takeWhile isBlank).length
      = (cs.takeWhile isBlank ++ cs.dropWhile isBlank).take (cs.takeWhile isBlank).length := by
        rw [List.takeWhile_append_dropWhile]
    _ = cs.takeWhile isBlank := List.take_left' rfl

/-- After the identifiers and the length argument of a field definition, the `>`s close every open region. -/
theorem closeAt_closes_after (len : Nat) (st : Reading) (names : List Token) (t : Token) (pos : Nat) :
    ∃ ts, closeAt len ((st.pushAll names).push t) pos (List.replicate st.regions.length '>') = .ok ts :=
  closeAt_closes_all len _ _ _ (w := []) blanks_nil ((Reading.regions_push _ _).trans (Reading.regions_pushAll _ _))

/-- A length argument that holds a digit is not blank. -/
theorem trimChars_ne_nil_of_mem {l : List Char} {c : Char} (hc : c ∈ l) (hs : Text.isSpace c = false) :
    Text.trimChars l ≠ [] := by
  intro h
  unfold Text.trimChars at h
  rw [List.reverse_eq_nil_iff] at h
  have hall : ∀ x ∈ l, Text.isSpace x = true := by
    intro x hx
    rw [← List.takeWhile_append_dropWhile (p := Text.isSpace) (l := l), List.mem_append] at hx
    rcases hx with hx | hx
    · exact all_takeWhile Text.isSpace l x hx
    · have hx' : x ∈ (l.dropWhile Text.isSpace).reverse := List.mem_reverse.2 hx
      rw [← List.takeWhile_append_dropWhile (p := Text.isSpace) (l := (l.dropWhile Text.isSpace).reverse), h,
        List.append_nil] at hx'
      exact all_takeWhile Text.isSpace _ x hx'
  rw [hall c hc] at hs
  cases hs

/-! ## Completing a reading -/

/-- some text added to `x` makes the reading of a field definition from `st` at `pos` return tokens -/
def FieldCompletes (st : Reading) (pos : Nat) (x : List Char) : Prop :=
  ∃ y, ∀ len, ∃ ts, fieldAt len st pos (x ++ y) = .ok ts

/-- some text added to `x`, which then goes on as after a field definition, makes the reading from `st` at `pos`
return tokens -/
def CloseCompletes (st : Reading) (pos : Nat) (x : List Char) : Prop :=
  ∃ y, AfterField (x ++ y) ∧ ∀ len, ∃ ts, closeAt len st pos (x ++ y) = .ok ts

theorem fieldCompletes_blanks {st : Reading} {pos : Nat} {w : List Char} (hw : Blanks w) :
    FieldCompletes st pos w :=
  ⟨'x' :: List.replicate st.regions.length '>', fun len => fieldAt_completes_type len st pos hw⟩

theorem closeCompletes_blanks {st : Reading} {pos : Nat} {w : List Char} (hw : Blanks w) :
    CloseCompletes st pos w :=
  ⟨List.replicate st.regions.length '>', afterField_closers hw _, fun len => closeAt_closes_all len _ st pos hw rfl⟩

section Transfer

variable {st st' : Reading} {pos pos' : Nat} {A x : List Char}

/-- A step that reads `A` and goes on closing passes on a completion of what follows. -/
theorem FieldCompletes.of_close (hstep : ∀ len Y, AfterField Y → fieldAt len st pos (A ++ Y) = closeAt len st' pos' Y)
    (h : CloseCompletes st' pos' x) : FieldCompletes st pos (A ++ x) := by
  obtain ⟨y, hy, hok⟩ := h
  exact ⟨y, fun len => by rw [List.append_assoc, hstep len _ hy]; exact hok len⟩

theorem FieldCompletes.of_field (hstep : ∀ len Y, fieldAt len st pos (A ++ Y) = fieldAt len st' pos' Y)
    (h : FieldCompletes st' pos' x) : FieldCompletes st pos (A ++ x) := by
  obtain ⟨y, hok⟩ := h
  exact ⟨y, fun len => by rw [List.append_assoc, hstep len _]; exact hok len⟩

theorem CloseCompletes.of_field (hA : ∀ Y, AfterField (A ++ Y))
    (hstep : ∀ len Y, closeAt len st pos (A ++ Y) = fieldAt len st' pos' Y) (h : FieldCompletes st' pos' x) :
    CloseCompletes st pos (A ++ x) := by
  obtain ⟨y, hok⟩ := h
  exact ⟨y, by rw [List.append_assoc]; exact hA _, fun len => by rw [List.append_assoc, hstep len _]; exact hok len⟩

theorem CloseCompletes.of_close (hA : ∀ Y, AfterField (A ++ Y))
    (hstep : ∀ len Y, closeAt len st pos (A ++ Y) = closeAt len st' pos' Y) (h : CloseCompletes st' pos' x) :
    CloseCompletes st pos (A ++ x) := by
  obtain ⟨y, -, hok⟩ := h
  exact ⟨y, by rw [List.append_assoc]; exact hA _, fun len => by rw [List.append_assoc, hstep len _]; exact hok len⟩

end Transfer

theorem reader_completes (len : Nat) :
    (∀ st pos cs m, fieldAt len st pos cs = .error m →
      (∀ e, m.StopsAt e → FieldCompletes st pos (cs.take (e - pos))) ∧
      (∀ n, m.AtEnd n → FieldCompletes st pos cs)) ∧
    (∀ st pos cs m, closeAt len st pos cs = .error m →
      (∀ e, m.StopsAt e → CloseCompletes st pos (cs.take (e - pos))) ∧
      (∀ n, m.AtEnd n → CloseCompletes st pos cs)) := by
  refine fieldAt.mutual_induct
    (fun st pos cs => ∀ m, fieldAt len st pos cs = .error m →
      (∀ e, m.StopsAt e → FieldCompletes st pos (cs.take (e - pos))) ∧
      (∀ n, m.AtEnd n → FieldCompletes st pos cs))
    (fun st pos cs => ∀ m, closeAt len st pos cs = .error m →
      (∀ e, m.StopsAt e → CloseCompletes st pos (cs.take (e - pos))) ∧
      (∀ n, m.AtEnd n → CloseCompletes st pos cs))
    ?_ ?_ ?_ ?_ ?_ ?_ ?_ ?_ ?_ ?_ ?_ ?_ ?_
  · -- nothing but blanks: a type name and the closing brackets complete it
    intro st pos cs hd m h
    rw [fieldAt_end hd] at h
    cases h
    exact ⟨fun e he => (he.not_atEnd (missingType_none_atEnd _ _ _)).elim,
      fun n _ => fieldCompletes_blanks (blanks_of_dropWhile_nil hd)⟩
  · -- a `(` left open: a digit and the `)`s still owed close it
    intro st pos cs p c r hd hc names q rest hn r3 hr hp m h
    rw [fieldAt_unclosedParen hd hc hn hr hp] at h
    cases h
    refine ⟨fun e he => (by cases he), fun n _ => ?_⟩
    obtain ⟨H, hH, -, hstep⟩ := fieldAt_paren_cont hd hc hn hr
    obtain ⟨d, hnest⟩ := nests_of_closeParen_none hp
    have hinner : Nests 0 (r3 ++ '1' :: List.replicate d ')') 0 :=
      nests_append.2 ⟨d, hnest, (nests_other (by decide) (by decide)).2 (nests_replicate_close d)⟩
    refine ⟨'1' :: List.replicate d ')' ++ ')' :: List.replicate st.regions.length '>', fun len => ?_⟩
    rw [hH, show H ++ r3 ++ ('1' :: List.replicate d ')' ++ ')' :: List.replicate st.regions.length '>') =
      H ++ ((r3 ++ '1' :: List.replicate d ')') ++ ')' :: List.replicate st.regions.length '>') by simp,
      (hstep st len _ _ hinner).1 (trimChars_ne_nil_of_mem (c := '1') (by simp) (by decide))]
    exact closeAt_closes_after len st _ _ _
  · intro st pos cs p c r hd hc names q rest hn r3 hr inner r4 hp hi m h
    rw [fieldAt_emptyLength hd hc hn hr hp hi] at h
    cases h
    refine ⟨fun e he => ?_, fun n hn' => (by cases hn')⟩
    have he' := he.unique .emptyLength
    obtain ⟨H, hH, hHlen, hstep⟩ := fieldAt_paren_cont hd hc hn hr
    -- the text before the `)` is the head and the blank argument; a digit fills the argument
    have htake : cs.take (e - pos) = H ++ inner := by
      rw [hH, closeParen_eq_some hp, show e - pos = (H ++ inner).length + 0 by simp; omega, ← List.append_assoc,
        List.take_length_add_append, List.take_zero, List.append_nil]
    have hinner : Nests 0 (inner ++ ['1']) 0 :=
      nests_append.2 ⟨0, nests_of_closeParen hp, (nests_other (by decide) (by decide)).2 (nests_nil.2 rfl)⟩
    rw [htake]
    refine ⟨'1' :: ')' :: List.replicate st.regions.length '>', fun len => ?_⟩
    rw [show H ++ inner ++ '1' :: ')' :: List.replicate st.regions.length '>' =
        H ++ ((inner ++ ['1']) ++ ')' :: List.replicate st.regions.length '>') by simp,
      (hstep st len _ _ hinner).1 (trimChars_ne_nil_of_mem (c := '1') (by simp) (by decide))]
    exact closeAt_closes_after len st _ _ _
  · intro st pos cs p c r hd hc names q rest hn st' a r3 hr inner r4 hp stop hi ih m h
    rw [fieldAt_length hd hc hn hr hp hi] at h
    obtain ⟨A, hA, hAlen, hstep⟩ := fieldAt_length_cont hd hc hn hr hp hi
    refine ⟨fun e he => ?_, fun n hn' => by
      rw [hA]; exact FieldCompletes.of_close (fun len Y _ => hstep st len Y) ((ih m h).2 n hn')⟩
    have hb := ((reader_errors len).2 _ _ _ _ h).bounds he
    rw [take_after_step (stop + 1) hA hAlen (by omega)]
    exact FieldCompletes.of_close (fun len Y _ => hstep st len Y) ((ih m h).1 e he)
  · intro st pos cs p c r hd hc names q rest hn st' a r3 hr ih m h
    rw [fieldAt_open hd hc hn hr] at h
    obtain ⟨A, hA, hAlen, hstep⟩ := fieldAt_open_cont hd hc hn hr
    refine ⟨fun e he => ?_, fun n hn' => by rw [hA]; exact FieldCompletes.of_field (hstep st) ((ih m h).2 n hn')⟩
    have hb := ((reader_errors len).1 _ _ _ _ h).bounds he
    rw [take_after_step (a + 1) hA hAlen (by omega)]
    exact FieldCompletes.of_field (hstep st) ((ih m h).1 e he)
  · -- what the completion adds after the identifiers goes on as after a field, so it adds no identifier
    intro st pos cs p c r hd hc names q rest hn st' h1 h2 ih m h
    rw [fieldAt_plain hd hc hn h1 h2] at h
    obtain ⟨u, hu, hq⟩ := typeNames_consumed hn
    have hcb := isBlank_of_dropWhile_cons hd
    have hcs : cs = (cs.takeWhile isBlank ++ c :: u) ++ rest := by
      conv => lhs; rw [eq_blanks_append hd, hu]
      simp
    have hstep : ∀ len Y, AfterField Y →
        fieldAt len st pos ((cs.takeWhile isBlank ++ c :: u) ++ Y) = closeAt len st' q Y := by
      intro len Y hY
      obtain ⟨g1, g2⟩ := hY.punctuated.stops
      have hd' := dropWhile_blanks_cons (r := u ++ Y) (blanks_takeWhile cs) hcb
      rw [List.append_assoc, List.cons_append,
        fieldAt_plain hd'.1 hc (by rw [hd'.2]; exact typeNames_reroot hn hu g1 g2) hY.not_paren hY.not_angle]
    refine ⟨fun e he => ?_, fun n hn' => by rw [hcs]; exact FieldCompletes.of_close hstep ((ih m h).2 n hn')⟩
    have hb := ((reader_errors len).2 _ _ _ _ h).bounds he
    rw [take_after_step q hcs (by simp; omega) (by omega)]
    exact FieldCompletes.of_close hstep ((ih m h).1 e he)
  · intro st pos cs c r hd hc m h
    rw [fieldAt_notIdent hd hc] at h
    cases h
    refine ⟨fun e he => ?_, fun n hn' => ((missingType_some_stopsAt _ _ _ _).not_atEnd hn').elim⟩
    have he' := he.unique (missingType_some_stopsAt _ _ _ _)
    rw [show e - pos = (cs.takeWhile isBlank).length by omega, take_blanks]
    exact fieldCompletes_blanks (blanks_takeWhile cs)
  · intro st pos cs hd hs m h
    rw [closeAt_end_top hd hs] at h
    cases h
  · intro st pos cs hd reg tail hs m h
    rw [closeAt_end_region hd hs] at h
    cases h
    exact ⟨fun e he => (by cases he), fun n _ => closeCompletes_blanks (blanks_of_dropWhile_nil hd)⟩
  · intro st pos cs p r hd ih m h
    rw [closeAt_comma hd] at h
    have hcs := eq_blanks_cons_append hd
    have hA : ∀ Y, AfterField ((cs.takeWhile isBlank ++ [',']) ++ Y) := fun Y => by
      simpa using afterField_blanks_cons (Y := Y) (blanks_takeWhile cs) (.inl rfl)
    refine ⟨fun e he => ?_, fun n hn' => by
      rw [hcs]; exact CloseCompletes.of_field hA (closeAt_comma_cont (blanks_takeWhile cs)) ((ih m h).2 n hn')⟩
    have hb := ((reader_errors len).1 _ _ _ _ h).bounds he
    rw [take_after_step (p + 1) hcs (by simp; omega) (by omega)]
    exact CloseCompletes.of_field hA (closeAt_comma_cont (blanks_takeWhile cs)) ((ih m h).1 e he)
  · intro st pos cs r hs hd _ m h
    rw [closeAt_stray hs hd] at h
    cases h
    refine ⟨fun e he => ?_, fun n hn' => (Malformed.StopsAt.unexpected.not_atEnd hn').elim⟩
    have he' := he.unique .unexpected
    rw [show e - pos = (cs.takeWhile isBlank).length by omega, take_blanks]
    exact closeCompletes_blanks (blanks_takeWhile cs)
  · intro st pos cs p r reg tail hs hd _ ih m h
    rw [closeAt_close hs hd] at h
    have hcs := eq_blanks_cons_append hd
    have hA : ∀ Y, AfterField ((cs.takeWhile isBlank ++ ['>']) ++ Y) := fun Y => by
      simpa using afterField_blanks_cons (Y := Y) (blanks_takeWhile cs) (.inr rfl)
    refine ⟨fun e he => ?_, fun n hn' => by
      rw [hcs]; exact CloseCompletes.of_close hA (closeAt_close_cont hs (blanks_takeWhile cs)) ((ih m h).2 n hn')⟩
    have hb := ((reader_errors len).2 _ _ _ _ h).bounds he
    rw [take_after_step (p + 1) hcs (by simp; omega) (by omega)]
    exact CloseCompletes.of_close hA (closeAt_close_cont hs (blanks_takeWhile cs)) ((ih m h).1 e he)
  · intro st pos cs c r hd h1 h2 m h
    rw [closeAt_other hd h1 h2] at h
    cases h
    refine ⟨fun e he => ?_, fun n hn' => ((unexpectedAt_stopsAt _ _ _).not_atEnd hn').elim⟩
    have he' := he.unique (unexpectedAt_stopsAt _ _ _)
    rw [show e - pos = (cs.takeWhile isBlank).length by omega, take_blanks]
    exact closeCompletes_blanks (blanks_takeWhile cs)

/-! ## The earliest error -/

/-- `x` is viable: some text that goes on from it is accepted -/
def Viable (x : List Char) : Prop := ∃ y ts, tokenize (String.ofList (x ++ y)) = .ok ts

theorem Viable.of_append {x w : List Char} (h : Viable (x ++ w)) : Viable x := by
  obtain ⟨y, ts, h⟩ := h
  exact ⟨w ++ y, ts, by rwa [← List.append_assoc]⟩

theorem Viable.take {x : List Char} (k : Nat) (h : Viable x) : Viable (x.take k) :=
  Viable.of_append (w := x.drop k) (by rwa [List.take_append_drop])

theorem isBlank_iff {c : Char} : isBlank c = true ↔ c = ' ' ∨ c = '\t' ∨ c = '\r' ∨ c = '\n' := by
  simp [isBlank, or_assoc]

theorem tokenize_ofList {cs : List Char} (h : ¬cs.all isBlank = true) :
    tokenize (String.ofList cs) = fieldAt cs.length Reading.initial 0 cs := by
  simp only [tokenize, String.toList_ofList, h, Bool.false_eq_true, ↓reduceIte]

/-- A text that the reader completes from the start is viable: what it reads contains a character that is not
blank, so `tokenize` reads it too. -/
theorem viable_of_completes {x : List Char} (h : FieldCompletes Reading.initial 0 x) : Viable x := by
  obtain ⟨y, hy⟩ := h
  obtain ⟨ts, hts⟩ := hy (x ++ y).length
  have hnb : ¬(x ++ y).all isBlank = true := by
    intro hb
    rw [fieldAt_end (dropWhile_blanks (List.all_eq_true.1 hb)).1] at hts
    cases hts
  exact ⟨y, ts, by rw [tokenize_ofList hnb]; exact hts⟩

/-- A text on which every reading from the start fails, whatever follows, is not viable. -/
theorem not_viable_of_stops {x : List Char} (h : ∀ len z, ∃ m, fieldAt len Reading.initial 0 (x ++ z) = .error m) :
    ¬Viable x := by
  rintro ⟨y, ts, hy⟩
  by_cases hb : (x ++ y).all isBlank = true
  · simp only [tokenize, String.toList_ofList, hb, if_true] at hy
    cases hy
  · rw [tokenize_ofList hb] at hy
    obtain ⟨m, hm⟩ := h (x ++ y).length y
    rw [hm] at hy
    cases hy

/-- An error that stops at a character is E103, E104, E105 or E106; its primary span starts at that character
(E105, E106) or ends with it (E103, E104). -/
theorem Malformed.StopsAt.code_span {m : Malformed} {e : Nat} (h : m.StopsAt e) :
    (m.code = "E103" ∨ m.code = "E104" ∨ m.code = "E105" ∨ m.code = "E106") ∧
      ∃ sp, m.diagnostic.primarySpan? = some sp ∧ ((m.code = "E105" ∨ m.code = "E106") → sp.start = e) ∧
        ((m.code = "E103" ∨ m.code = "E104") → sp.stop - 1 = e) := by
  cases h with
  | missingType =>
    rename_i comma
    cases comma <;> simp [Malformed.code, Malformed.diagnostic, Diagnostic.primarySpan?]
  | unexpected =>
    -- the three wordings of an unexpected character share its span
    simp only [Malformed.diagnostic]
    split
    · simp [Malformed.code, Diagnostic.primarySpan?]
    · split <;> simp [Malformed.code, Diagnostic.primarySpan?]
  | emptyNested => simp [Malformed.code, Malformed.diagnostic, Diagnostic.primarySpan?]
  | emptyLength => simp [Malformed.code, Malformed.diagnostic, Diagnostic.primarySpan?]
  | extraWord => simp [Malformed.code, Malformed.diagnostic, Diagnostic.primarySpan?]

/-- An error reported at the end of the text is E101, E102, or E105 with the empty primary span at the end. -/
theorem Malformed.AtEnd.code_span {m : Malformed} {n : Nat} (h : m.AtEnd n) :
    m.code = "E101" ∨ m.code = "E102" ∨ (m.code = "E105" ∧ m.diagnostic.primarySpan? = some ⟨n, n⟩) := by
  cases h with
  | unclosedAngle => exact .inl rfl
  | unclosedParen => exact .inr (.inl rfl)
  | missingType =>
    rename_i comma
    cases comma <;> simp [Malformed.code, Malformed.diagnostic, Diagnostic.primarySpan?]

theorem Malformed.StopsAt.code_ne_empty {m : Malformed} {e : Nat} (h : m.StopsAt e) : m.code ≠ "E100" := by
  rcases h.code_span.1 with h | h | h | h <;> rw [h] <;> decide

theorem Malformed.AtEnd.code_ne_empty {m : Malformed} {n : Nat} (h : m.AtEnd n) : m.code ≠ "E100" := by
  rcases h.code_span with h | h | ⟨h, -⟩ <;> rw [h] <;> decide

/-- the error `m` refusing `s` is reported at the earliest point where `s` stops being completable: with `v` the
length of the longest viable prefix of `s`, when all of `s` is viable the error is E100, E101, E102 or E105 at the end
of `s`; otherwise the character at `v` is where the error's primary span starts (E105, E106) or ends (E103, E104).
E100 is returned exactly on blank declarations. -/
def EarliestError (s : String) (m : Malformed) : Prop :=
  ∃ v ≤ s.length, (∀ k ≤ s.length, Viable (s.toList.take k) ↔ k ≤ v) ∧
    (v = s.length → m.code = "E100" ∨ m.code = "E101" ∨ m.code = "E102" ∨
      (m.code = "E105" ∧ m.diagnostic.primarySpan? = some ⟨s.length, s.length⟩)) ∧
    (v < s.length → (m.code = "E103" ∨ m.code = "E104" ∨ m.code = "E105" ∨ m.code = "E106") ∧
      ∃ sp, m.diagnostic.primarySpan? = some sp ∧ ((m.code = "E105" ∨ m.code = "E106") → sp.start = v) ∧
        ((m.code = "E103" ∨ m.code = "E104") → sp.stop - 1 = v)) ∧
    (m.code = "E100" ↔ ∀ c ∈ s.toList, c = ' ' ∨ c = '\t' ∨ c = '\r' ∨ c = '\n')

theorem tokenize_error_earliest {s : String} {m : Malformed} (h : tokenize s = .error m) : EarliestError s m := by
  have hlen : s.toList.length = s.length := String.length_toList
  dsimp only [tokenize] at h
  split at h
  · -- a blank declaration: every prefix is completed by a type name
    rename_i hb
    cases h
    have hall := List.all_eq_true.1 hb
    refine ⟨s.length, Nat.le_refl _, fun k hk => ⟨fun _ => hk, fun _ => ?_⟩, fun _ => .inl rfl,
      fun hv => absurd hv (Nat.lt_irrefl _), ⟨fun _ c hc => isBlank_iff.1 (hall c hc), fun _ => rfl⟩⟩
    exact viable_of_completes (fieldCompletes_blanks fun c hc => hall c (List.mem_of_mem_take hc))
  · rename_i hb
    have hblank : ¬∀ c ∈ s.toList, c = ' ' ∨ c = '\t' ∨ c = '\r' ∨ c = '\n' :=
      fun hall => hb (List.all_eq_true.2 fun c hc => isBlank_iff.2 (hall c hc))
    rcases (reader_errors _).1 _ _ _ _ h with ⟨e, he, -, hhi⟩ | hend
    · -- the error stops at `e`: the text before it is completed, the text through it never is
      have hv : ∀ k ≤ s.length, Viable (s.toList.take k) ↔ k ≤ e := by
        intro k _
        constructor
        · intro hk
          refine Nat.le_of_not_lt fun hlt => not_viable_of_stops (x := s.toList.take (e + 1)) ?_ ?_
          · intro len z
            simpa using (reader_stops _).1 _ _ _ _ _ h he len z
          · have := hk.take (e + 1)
            rwa [List.take_take, Nat.min_eq_left (by omega)] at this
        · intro hk
          have := (viable_of_completes (((reader_completes _).1 _ _ _ _ h).1 e he)).take k
          rwa [Nat.sub_zero, List.take_take, Nat.min_eq_left hk] at this
      exact ⟨e, by omega, hv, fun hv => by omega, fun _ => he.code_span,
        ⟨fun hc => absurd hc he.code_ne_empty, fun hall => absurd hall hblank⟩⟩
    · -- the error is reported at the end: all of the text is completed
      rw [Nat.zero_add, hlen] at hend
      have hv : ∀ k ≤ s.length, Viable (s.toList.take k) ↔ k ≤ s.length := fun k hk =>
        ⟨fun _ => hk, fun _ => (viable_of_completes (((reader_completes _).1 _ _ _ _ h).2 _ hend)).take k⟩
      exact ⟨s.length, Nat.le_refl _, hv, fun _ => .inr hend.code_span, fun hv => absurd hv (Nat.lt_irrefl _),
        ⟨fun hc => absurd hc hend.code_ne_empty, fun hall => absurd hall hblank⟩⟩

unseal fieldAt closeAt in
/-- A third identifier is refused where it starts: "a b " is completed by a comma and a field, "a b c" by nothing. -/
theorem tokenize_extraWord_earliest :
    tokenize "a b c" = .error (.extraWord "c" ⟨4, 5⟩) ∧ EarliestError "a b c" (.extraWord "c" ⟨4, 5⟩) := by
  have h : tokenize "a b c" = .error (.extraWord "c" ⟨4, 5⟩) := rfl
  exact ⟨h, tokenize_error_earliest h⟩

end ColumnDecl
