import ColumnDecl.Proofs.Spans

/-
Where a refused declaration is refused.

`tokenize` is total: at every step `fieldAt` and `closeAt` go on with a strictly shorter rest of the text (their
`termination_by cs.length`, which is the length of the declaration less the offset reached). So every text is read or
refused, and a refusal is a diagnostic that points into the text.

- `Reading.Located`: what a reading that has reached an offset keeps: each open region was opened by a `<` of the text
  before that offset, and the comma a next field follows, if it follows one, stands before it;
- `reader_located`: an error of the reader from such a reading has a code from E101 to E106, labels whose spans lie
  within the text, and reports an unclosed or empty region at the `<` that opened it;
- `tokenize_refusal_located`: every text is read, or refused with a code from E100 to E106 and labels within it.

The top level is kept apart from the open regions of a reading, so every region that the reader closes or reports
has the offset of the `<` that opened it.
-/

namespace ColumnDecl

open Scan

/-! ## The diagnostics of single causes -/

namespace Malformed

/-- the refusal `m` of the text `text` as the reader reports it: a code from E101 to E106, labels within the text,
and an unclosed or empty region reported at the `<` that opened it -/
structure Located (text : List Char) (m : Malformed) : Prop where
  code : m.code ∈ ["E101", "E102", "E103", "E104", "E105", "E106"]
  labels : ∀ l ∈ m.diagnostic.labels, l.span.Within text.length
  opener : ∀ o n, (m = .unclosedAngle o n ∨ m = .emptyNested o n) → text[o]? = some '<'

variable {text : List Char}

theorem located_unclosedAngle {o : Nat} (ho : o < text.length) (hlt : text[o]? = some '<') :
    (unclosedAngle o text.length).Located text := by
  refine ⟨by simp [code], ?_, ?_⟩
  · simp only [diagnostic, List.mem_cons, List.not_mem_nil, or_false]
    rintro l (rfl | rfl) <;> simp only [Span.Within] <;> omega
  · rintro o' n (h | h) <;> cases h
    exact hlt

theorem located_unclosedParen {a : Nat} (ha : a < text.length) : (unclosedParen a).Located text := by
  refine ⟨by simp [code], ?_, fun o n h => by rcases h with h | h <;> cases h⟩
  simp only [diagnostic, List.mem_cons, List.not_mem_nil, or_false]
  rintro l rfl
  simp only [Span.Within]
  omega

theorem located_emptyNested {o c : Nat} (hoc : o < c) (hc : c < text.length) (hlt : text[o]? = some '<') :
    (emptyNested o c).Located text := by
  refine ⟨by simp [code], ?_, ?_⟩
  · simp only [diagnostic, List.mem_cons, List.not_mem_nil, or_false]
    rintro l rfl
    simp only [Span.Within]
    omega
  · rintro o' n (h | h) <;> cases h
    exact hlt

theorem located_emptyLength {a c : Nat} (hac : a < c) (hc : c < text.length) : (emptyLength a c).Located text := by
  refine ⟨by simp [code], ?_, fun o n h => by rcases h with h | h <;> cases h⟩
  simp only [diagnostic, List.mem_cons, List.not_mem_nil, or_false]
  rintro l rfl
  simp only [Span.Within]
  omega

/-- A missing type is reported at a character of the text, or at its end; the comma it follows lies within the
text. -/
theorem located_missingType {p : Nat} {found : Option Char} {comma : Option Span}
    (hp : found = none → p = text.length) (hlt : ∀ c, found = some c → p < text.length)
    (hcomma : ∀ sp, comma = some sp → sp.Within text.length) : (missingType p found comma).Located text := by
  refine ⟨by simp [code], ?_, fun o n h => by rcases h with h | h <;> cases h⟩
  -- the primary label is the character found, or the empty span at the end; the secondary one is the comma
  cases found with
  | none =>
    have := hp rfl
    cases comma with
    | none => simp [diagnostic, Span.Within]; omega
    | some sp =>
      have := hcomma sp rfl
      simp only [Span.Within] at this
      simp [diagnostic, Span.Within]; omega
  | some c =>
    have := hlt c rfl
    cases comma with
    | none => simp [diagnostic, Span.Within]; omega
    | some sp =>
      have := hcomma sp rfl
      simp only [Span.Within] at this
      simp [diagnostic, Span.Within]; omega

theorem located_extraWord {p : Nat} {w : List Char} (hw : p + w.length ≤ text.length) :
    (extraWord (String.ofList w) ⟨p, p + w.length⟩).Located text := by
  refine ⟨by simp [code], ?_, fun o n h => by rcases h with h | h <;> cases h⟩
  simp only [diagnostic, List.mem_cons, List.not_mem_nil, or_false]
  rintro l rfl
  simp only [Span.Within]
  omega

theorem located_unexpected {p : Nat} {c : Char} (hp : p < text.length) : (unexpected p c).Located text := by
  refine ⟨?_, ?_, fun o n h => by rcases h with h | h <;> cases h⟩
  · rw [← code_diagnostic]
    simp only [diagnostic]
    split
    · simp
    · split <;> simp
  · -- the three wordings of an unexpected character share its one label
    have hspan : ∀ l ∈ (unexpected p c).diagnostic.labels, l.span = ⟨p, p + 1⟩ := by
      simp only [diagnostic]
      split
      · simp
      · split <;> simp
    intro l hl
    rw [hspan l hl]
    simp only [Span.Within]
    omega

end Malformed

/-! ## The invariant of a reading -/

namespace Reading

/-- the offsets of the `<` that opened the regions still open, innermost first -/
def openers (st : Reading) : List Nat := st.regions.map (·.opened)

@[simp] theorem openers_push (t : Token) (st : Reading) : (st.push t).openers = st.openers := by
  obtain ⟨top, _ | ⟨r, rs⟩⟩ := st <;> rfl

@[simp] theorem openers_pushAll (ts : List Token) (st : Reading) : (st.pushAll ts).openers = st.openers := by
  induction ts generalizing st with
  | nil => rfl
  | cons t ts ih => rw [pushAll_cons, ih, openers_push]

@[simp] theorem openers_openAt (a : Nat) (st : Reading) : (st.openAt a).openers = a :: st.openers := rfl

theorem afterComma_push_delimiter (l : String) (sp : Span) (st : Reading) :
    (st.push (.leaf .delimiter l sp)).afterComma = some sp := by
  obtain ⟨top, _ | ⟨r, rs⟩⟩ := st <;> rfl

theorem afterComma_push_of_not_delimiter {t : Token} (ht : t.isDelimiter = false) (st : Reading) :
    (st.push t).afterComma = none := by
  rcases t with ⟨k, l, sp⟩ | ⟨cs, sp⟩
  · cases k <;> simp [Token.isDelimiter] at ht <;> obtain ⟨top, _ | ⟨r, rs⟩⟩ := st <;> rfl
  · obtain ⟨top, _ | ⟨r, rs⟩⟩ := st <;> rfl

@[simp] theorem afterComma_openAt (a : Nat) (st : Reading) : (st.openAt a).afterComma = none := rfl

/-- a reading of `text` that has reached the offset `pos`: each open region was opened by a `<` of the text before
`pos`, and the comma that a next field would follow lies before `pos` -/
structure Located (text : List Char) (pos : Nat) (st : Reading) : Prop where
  openers : ∀ o ∈ st.openers, o < pos ∧ text[o]? = some '<'
  comma : ∀ sp, st.afterComma = some sp → sp.Within pos

variable {text : List Char} {pos pos' : Nat} {st : Reading}

theorem located_initial : initial.Located text pos :=
  ⟨fun o ho => by simp [openers, initial] at ho, fun sp h => by simp [afterComma, current, initial] at h⟩

theorem Located.mono (h : st.Located text pos) (hle : pos ≤ pos') : st.Located text pos' := by
  refine ⟨fun o ho => ?_, fun sp hsp => ?_⟩
  · have := h.openers o ho
    exact ⟨by omega, this.2⟩
  · have := h.comma sp hsp
    unfold Span.Within at this ⊢
    omega

/-- A token other than a comma leaves no comma for the next field to follow. -/
theorem Located.push {t : Token} (h : st.Located text pos) (ht : t.isDelimiter = false) (hle : pos ≤ pos') :
    (st.push t).Located text pos' :=
  ⟨by simpa using (h.mono hle).openers, fun sp hsp => by simp [afterComma_push_of_not_delimiter ht] at hsp⟩

/-- The identifiers of a field definition end with its type, which no comma follows. -/
theorem Located.pushAll_names {p q : Nat} {c : Char} {r rest : List Char} {names : List Token}
    (h : st.Located text pos) (hn : typeNames p c r = (names, q, rest)) (hle : pos ≤ pos') :
    (st.pushAll names).Located text pos' := by
  obtain ⟨L, l, sp, rfl⟩ := typeNames_last hn
  rw [pushAll_append, pushAll_cons, pushAll_nil]
  exact ⟨by simpa using (h.mono hle).openers,
    fun sp' hsp => by simp [afterComma_push_of_not_delimiter (show (Token.leaf .type l sp).isDelimiter = false
      from rfl)] at hsp⟩

theorem Located.comma_push (h : st.Located text pos) {p : Nat} (hle : pos ≤ p) :
    (st.push (.leaf .delimiter "," ⟨p, p + 1⟩)).Located text (p + 1) := by
  refine ⟨by simpa using (h.mono (Nat.le_succ_of_le hle)).openers, fun sp hsp => ?_⟩
  rw [afterComma_push_delimiter] at hsp
  cases hsp
  simp only [Span.Within]
  omega

theorem Located.openAt (h : st.Located text pos) {a : Nat} (hle : pos ≤ a) (ha : text[a]? = some '<') :
    (st.openAt a).Located text (a + 1) := by
  refine ⟨fun o ho => ?_, fun sp hsp => by simp at hsp⟩
  rw [openers_openAt, List.mem_cons] at ho
  rcases ho with rfl | ho
  · exact ⟨Nat.lt_succ_self _, ha⟩
  · have := h.openers o ho
    exact ⟨by omega, this.2⟩

/-- Closing the innermost region leaves the regions around it, and a NESTED token that no comma follows. -/
theorem Located.close {reg : Region} {outer : List Region} (h : st.Located text pos) (hs : st.regions = reg :: outer)
    (cs : List Token) (sp : Span) (hle : pos ≤ pos') :
    ((Reading.mk st.top outer).push (.nested cs sp)).Located text pos' := by
  refine ⟨fun o ho => ?_, fun sp' hsp => ?_⟩
  · rw [openers_push] at ho
    have := h.openers o (by rw [Reading.openers, hs, List.map_cons]; exact List.mem_cons_of_mem _ ho)
    exact ⟨by omega, this.2⟩
  · rw [afterComma_push_of_not_delimiter (t := Token.nested cs sp) rfl] at hsp
    cases hsp

/-- The innermost open region was opened by a `<` before the offset reached. -/
theorem Located.innermost (h : st.Located text pos) {r : Region} {tail : List Region} (hr : st.regions = r :: tail) :
    r.opened < pos ∧ text[r.opened]? = some '<' :=
  h.openers r.opened (by rw [Reading.openers, hr]; exact List.mem_cons_self)

/-- The error for a missing type, from a reading that has reached the offset where it is reported. -/
theorem Located.missingType (h : st.Located text pos) {p : Nat} (hle : pos ≤ p) {found : Option Char}
    (hp : found = none → p = text.length) (hlt : ∀ c, found = some c → p < text.length) :
    (st.missingType text.length p found).Located text := by
  have hcomma : ∀ sp, st.afterComma = some sp → sp.Within text.length := by
    intro sp hsp
    have := h.comma sp hsp
    have hle : p ≤ text.length := by
      cases found with
      | none => exact Nat.le_of_eq (hp rfl)
      | some c => exact Nat.le_of_lt (hlt c rfl)
    unfold Span.Within at this ⊢
    omega
  unfold Reading.missingType
  split
  · -- the text ends inside a region
    rename_i r tail hr
    have ho := h.innermost hr
    have := hp rfl
    exact Malformed.located_unclosedAngle (by omega) ho.2
  · rename_i r tail hr
    split
    · -- a region closes before its first field
      have ho := h.innermost hr
      exact Malformed.located_emptyNested (by omega) (hlt '>' rfl) ho.2
    · exact Malformed.located_missingType hp hlt hcomma
  · exact Malformed.located_missingType hp hlt hcomma

end Reading

theorem unexpectedAt_located {text : List Char} {p : Nat} {c : Char} {r : List Char}
    (hp : p + 1 + r.length ≤ text.length) : (unexpectedAt p c r).Located text := by
  unfold unexpectedAt
  split
  · -- the word runs over `c` and the identifier characters after it
    have hw := (List.takeWhile_prefix isIdentChar (l := r)).length_le
    exact Malformed.located_extraWord (by simp only [List.length_cons]; omega)
  · exact Malformed.located_unexpected (by omega)

/-! ## Every error of the reader is located -/

/-- The text of a field definition up to the character `d` that decides its branch, then `d` and what follows. -/
theorem field_text {pos q : Nat} {cs r rest R : List Char} {c d : Char} {names : List Token}
    (hd : cs.dropWhile isBlank = c :: r) (hn : typeNames (pos + (cs.takeWhile isBlank).length) c r = (names, q, rest))
    (hr : rest.dropWhile isBlank = d :: R) :
    ∃ H, cs = H ++ d :: R ∧ pos + H.length = q + (rest.takeWhile isBlank).length := by
  obtain ⟨H, hH, hq⟩ := head_text hd hn
  refine ⟨H ++ rest.takeWhile isBlank, ?_, by simp; omega⟩
  have hrest := eq_blanks_append hr
  calc cs = H ++ rest := hH
    _ = H ++ (rest.takeWhile isBlank ++ d :: R) := by rw [← hrest]
    _ = (H ++ rest.takeWhile isBlank) ++ d :: R := by simp

/-- The text read up to the character `d` that ends the blanks of the rest `cs`, after `P`, and what follows it. -/
theorem text_past_blanks {text P cs r : List Char} {d : Char} (hP : text = P ++ cs)
    (hd : cs.dropWhile isBlank = d :: r) : text = (P ++ (cs.takeWhile isBlank ++ [d])) ++ r := by
  rw [hP, List.append_assoc]
  exact congrArg (P ++ ·) (eq_blanks_cons_append hd)

/-- The length of a text whose rest `cs`, after `P`, is skipped to `c :: r`. -/
theorem length_of_rest {text P cs r : List Char} {c : Char} (hP : text = P ++ cs) (hd : cs.dropWhile isBlank = c :: r) :
    text.length = P.length + (cs.takeWhile isBlank).length + 1 + r.length := by
  rw [hP, List.length_append, length_of_dropWhile_cons hd]
  omega

/-- An error of the reader, from a reading of `text` that has reached the offset where the rest `cs` of the text
starts, is located in `text`; by induction along the reading, each step keeping `Reading.Located`. -/
theorem reader_located (text : List Char) :
    (∀ st pos cs, ∀ P, text = P ++ cs → P.length = pos → st.Located text pos → ∀ m,
      fieldAt text.length st pos cs = .error m → m.Located text) ∧
    (∀ st pos cs, ∀ P, text = P ++ cs → P.length = pos → st.Located text pos → ∀ m,
      closeAt text.length st pos cs = .error m → m.Located text) := by
  refine fieldAt.mutual_induct
    (fun st pos cs => ∀ P, text = P ++ cs → P.length = pos → st.Located text pos → ∀ m,
      fieldAt text.length st pos cs = .error m → m.Located text)
    (fun st pos cs => ∀ P, text = P ++ cs → P.length = pos → st.Located text pos → ∀ m,
      closeAt text.length st pos cs = .error m → m.Located text)
    ?_ ?_ ?_ ?_ ?_ ?_ ?_ ?_ ?_ ?_ ?_ ?_ ?_
  · intro st pos cs hd P hP hPl hst m h
    rw [fieldAt_end hd] at h
    cases h
    -- nothing but blanks is left: the field is missing at the end of the text
    have hcs := congrArg List.length (eq_blanks_append hd)
    have hlen := congrArg List.length hP
    simp only [List.append_nil] at hcs
    simp only [List.length_append] at hlen
    exact hst.missingType (by omega) (fun _ => by omega) (fun c hc => by cases hc)
  · intro st pos cs p c r hd hc names q rest hn r3 hr hp P hP hPl hst m h
    rw [fieldAt_unclosedParen hd hc hn hr hp] at h
    cases h
    obtain ⟨H, hH, hHl⟩ := field_text hd hn hr
    have hlen := congrArg List.length (hP.trans (congrArg (P ++ ·) hH))
    simp only [List.length_append, List.length_cons] at hlen
    exact Malformed.located_unclosedParen (by omega)
  · intro st pos cs p c r hd hc names q rest hn r3 hr inner r4 hp hi P hP hPl hst m h
    rw [fieldAt_emptyLength hd hc hn hr hp hi] at h
    cases h
    obtain ⟨H, hH, hHl⟩ := field_text hd hn hr
    have hlen := congrArg List.length (hP.trans (congrArg (P ++ ·) (hH.trans (by rw [closeParen_eq_some hp]))))
    simp only [List.length_append, List.length_cons] at hlen
    exact Malformed.located_emptyLength (by omega) (by omega)
  · intro st pos cs p c r hd hc names q rest hn st' a r3 hr inner r4 hp stop hi ih P hP hPl hst m h
    rw [fieldAt_length hd hc hn hr hp hi] at h
    obtain ⟨H, hH, hHl⟩ := field_text hd hn hr
    -- the reading goes on after the `)`, with the text up to it read
    have htext : text = (P ++ H ++ '(' :: (inner ++ [')'])) ++ r4 := by
      rw [hP, hH, closeParen_eq_some hp]
      simp
    have hPl' : (P ++ H ++ '(' :: (inner ++ [')'])).length =
        q + (rest.takeWhile isBlank).length + 1 + inner.length + 1 := by
      simp
      omega
    exact ih _ htext hPl' ((hst.pushAll_names hn (Nat.le_refl _)).push rfl (by omega)) m h
  · intro st pos cs p c r hd hc names q rest hn st' a r3 hr ih P hP hPl hst m h
    rw [fieldAt_open hd hc hn hr] at h
    obtain ⟨H, hH, hHl⟩ := field_text hd hn hr
    have htext : text = (P ++ H ++ ['<']) ++ r3 := by
      rw [hP, hH]
      simp
    have hlt : text[q + (rest.takeWhile isBlank).length]? = some '<' := by
      rw [hP, hH, ← List.append_assoc]
      exact getElem?_at _ '<' r3 (by simp; omega)
    have hPl' : (P ++ H ++ ['<']).length = q + (rest.takeWhile isBlank).length + 1 := by
      simp
      omega
    exact ih _ htext hPl' ((hst.pushAll_names hn (Nat.le_refl _)).openAt (by omega) hlt) m h
  · intro st pos cs p c r hd hc names q rest hn st' h1 h2 ih P hP hPl hst m h
    rw [fieldAt_plain hd hc hn h1 h2] at h
    obtain ⟨H, hH, hHl⟩ := head_text hd hn
    exact ih (P ++ H) (by rw [hP, hH, List.append_assoc]) (by simp; omega)
      (hst.pushAll_names hn (by omega)) m h
  · intro st pos cs c r hd hc P hP hPl hst m h
    rw [fieldAt_notIdent hd hc] at h
    cases h
    have hlen := length_of_rest hP hd
    exact hst.missingType (by omega) (fun hc => by cases hc) (fun c' _ => by omega)
  · intro st pos cs hd hs P hP hPl hst m h
    rw [closeAt_end_top hd hs] at h
    cases h
  · intro st pos cs hd reg tail hs P hP hPl hst m h
    rw [closeAt_end_region hd hs] at h
    cases h
    have ho := hst.innermost hs
    have hlen := congrArg List.length hP
    simp only [List.length_append] at hlen
    exact Malformed.located_unclosedAngle (by omega) ho.2
  · intro st pos cs p r hd ih P hP hPl hst m h
    rw [closeAt_comma hd] at h
    exact ih _ (text_past_blanks hP hd) (by simp; omega) (hst.comma_push (by omega)) m h
  · intro st pos cs r hs hd _ P hP hPl hst m h
    rw [closeAt_stray hs hd] at h
    cases h
    have hlen := length_of_rest hP hd
    exact Malformed.located_unexpected (by omega)
  · intro st pos cs p r reg tail hs hd _ ih P hP hPl hst m h
    rw [closeAt_close hs hd] at h
    exact ih _ (text_past_blanks hP hd) (by simp; omega) (hst.close hs _ _ (by omega)) m h
  · intro st pos cs c r hd h1 h2 P hP hPl hst m h
    rw [closeAt_other hd h1 h2] at h
    cases h
    have hlen := length_of_rest hP hd
    exact unexpectedAt_located (by omega)

/-- Every text is read, or refused with a code from E100 to E106 whose labels lie within the text; a region left
unclosed or closed empty is reported at the `<` that opened it. -/
theorem tokenize_refusal_located (s : String) :
    (∃ ts, tokenize s = .ok ts) ∨
      ∃ m, tokenize s = .error m ∧ m.code ∈ ["E100", "E101", "E102", "E103", "E104", "E105", "E106"] ∧
        (∀ l ∈ m.diagnostic.labels, l.span.Within s.length) ∧
        ∀ o n, (m = .unclosedAngle o n ∨ m = .emptyNested o n) → s.toList[o]? = some '<' := by
  have hlen : s.toList.length = s.length := String.length_toList
  dsimp only [tokenize]
  split
  · -- a blank declaration is refused as a whole
    refine .inr ⟨_, rfl, by simp [Malformed.code], ?_, fun o n h => by rcases h with h | h <;> cases h⟩
    simp only [Malformed.diagnostic, List.mem_cons, List.not_mem_nil, or_false]
    rintro l rfl
    simp only [Span.Within]
    omega
  · cases hr : fieldAt s.toList.length Reading.initial 0 s.toList with
    | ok ts => exact .inl ⟨ts, rfl⟩
    | error m =>
      have hm := (reader_located s.toList).1 _ _ _ [] rfl rfl Reading.located_initial m hr
      refine .inr ⟨m, rfl, List.mem_cons_of_mem _ hm.code, fun l hl => hlen ▸ hm.labels l hl, hm.opener⟩

end ColumnDecl
