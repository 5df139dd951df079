import ColumnDecl.Proofs.Steps

/-
Where the reader reports an error.

Each error that `fieldAt` and `closeAt` return is reported either at one character, where the reading stops and no
text that goes on from there can be read (`Malformed.StopsAt`), or at the end of the text, where the reading was
cut short (`Malformed.AtEnd`): a region or a length argument left open, or a field missing after a comma.

- `reader_errors`: an error stops at a character of the text after its leading blanks, or is reported at its end;
- `reader_stops`: an error that stops at offset `e` is returned again, whatever follows the character at `e`:
  the reader decides it on the text up to that character, with one character of lookahead that the text holds.
-/

namespace ColumnDecl

open Scan Grammar

/-! ## The two kinds of error -/

/-- the reading stops at the character at offset `e`: an empty region or length argument closed there, a character
that cannot start a field, or one that cannot follow a complete field -/
inductive Malformed.StopsAt : Malformed → Nat → Prop
  | emptyNested {o e : Nat} : StopsAt (.emptyNested o e) e
  | emptyLength {o e : Nat} : StopsAt (.emptyLength o e) e
  | missingType {e : Nat} {c : Char} {comma : Option Span} : StopsAt (.missingType e (some c) comma) e
  | extraWord {w : String} {e : Nat} {stop : Int} : StopsAt (.extraWord w ⟨e, stop⟩) e
  | unexpected {e : Nat} {c : Char} : StopsAt (.unexpected e c) e

/-- the reading was cut short by the end of the text, at offset `n` -/
inductive Malformed.AtEnd : Malformed → Nat → Prop
  | unclosedAngle {o l n : Nat} : AtEnd (.unclosedAngle o l) n
  | unclosedParen {o n : Nat} : AtEnd (.unclosedParen o) n
  | missingType {n : Nat} {comma : Option Span} : AtEnd (.missingType n none comma) n

/-- where an error of a reading of `cs` from offset `pos` is reported: at a character of `cs` after its leading
blanks, or at its end -/
def Reported (pos : Nat) (cs : List Char) (m : Malformed) : Prop :=
  (∃ e, m.StopsAt e ∧ pos + (cs.takeWhile isBlank).length ≤ e ∧ e < pos + cs.length) ∨ m.AtEnd (pos + cs.length)

theorem missingType_none_atEnd (len p : Nat) (st : Reading) : (st.missingType len p none).AtEnd p := by
  unfold Reading.missingType
  split
  · exact .unclosedAngle
  · rename_i h
    simp at h
  · exact .missingType

theorem missingType_some_stopsAt (len p : Nat) (c : Char) (st : Reading) :
    (st.missingType len p (some c)).StopsAt p := by
  unfold Reading.missingType
  split
  · simp at *
  · split
    · exact .emptyNested
    · exact .missingType
  · exact .missingType

theorem unexpectedAt_stopsAt (p : Nat) (c : Char) (r : List Char) : (unexpectedAt p c r).StopsAt p := by
  unfold unexpectedAt
  split
  · exact .extraWord
  · exact .unexpected

/-! ## What each step consumes -/

theorem length_of_dropWhile_cons {cs r : List Char} {c : Char} (h : cs.dropWhile isBlank = c :: r) :
    cs.length = (cs.takeWhile isBlank).length + 1 + r.length := by
  have h' := congrArg List.length (eq_blanks_append h)
  simp only [List.length_append, List.length_cons] at h'
  omega

/-- The character that the blanks are skipped to is not blank. -/
theorem isBlank_of_dropWhile_cons {cs r : List Char} {c : Char} (h : cs.dropWhile isBlank = c :: r) :
    isBlank c = false :=
  stops_cons.1 (h ▸ stops_dropWhile isBlank cs)

/-- The identifiers that `typeNames` reads are a prefix of its text, and its offset moves past them. -/
theorem typeNames_consumed {p q : Nat} {c : Char} {r rest : List Char} {names : List Token}
    (h : typeNames p c r = (names, q, rest)) : ∃ u, r = u ++ rest ∧ q = p + 1 + u.length := by
  rcases identifiers_split r with ⟨l, t, rfl, hl, ht, hla⟩ | ⟨n, b, w, d, l, t, rfl, hn, hb, hw, hd, hl, ht⟩
  · rw [typeNames_type hl ht hla] at h
    simp only [Prod.mk.injEq] at h
    obtain ⟨-, rfl, rfl⟩ := h
    exact ⟨l, rfl, by omega⟩
  · rw [typeNames_named hn hb hw hd hl ht] at h
    simp only [Prod.mk.injEq] at h
    obtain ⟨-, rfl, rfl⟩ := h
    exact ⟨n ++ b :: (w ++ d :: l), by simp, by simp; omega⟩

theorem stops_append_cons {p : Char → Bool} {w R R' : List Char} {d : Char} (h : Stops p (w ++ d :: R)) :
    Stops p (w ++ d :: R') := by
  cases w with
  | nil => exact stops_cons.2 (stops_cons.1 h)
  | cons x w => exact stops_cons.2 (stops_cons.1 h)

/-- `typeNames` reads the same identifiers whatever follows the first character after them that is not blank. -/
theorem typeNames_agree {p q : Nat} {c d : Char} {r u rest R : List Char} {names : List Token}
    (h : typeNames p c r = (names, q, rest)) (hu : r = u ++ rest) (hd : rest.dropWhile isBlank = d :: R)
    (R' : List Char) :
    typeNames p c (u ++ (rest.takeWhile isBlank ++ d :: R')) = (names, q, rest.takeWhile isBlank ++ d :: R') := by
  have hrest := eq_blanks_append hd
  have hdb := isBlank_of_dropWhile_cons hd
  have hd' : (rest.takeWhile isBlank ++ d :: R').dropWhile isBlank = d :: R' :=
    (dropWhile_blanks_cons (blanks_takeWhile rest) hdb).1
  rcases identifiers_split r with ⟨l, t, rfl, hl, ht, hla⟩ | ⟨n, b, w, e, l, t, rfl, hn, hb, hw, he, hl, ht⟩
  · rw [typeNames_type hl ht hla] at h
    simp only [Prod.mk.injEq] at h
    obtain ⟨rfl, rfl, rfl⟩ := h
    obtain rfl := List.append_cancel_right hu
    refine typeNames_type hl (stops_append_cons (hrest ▸ ht)) ?_
    rw [hd']
    rw [hd] at hla
    exact stops_cons.2 (stops_cons.1 hla)
  · rw [typeNames_named hn hb hw he hl ht] at h
    simp only [Prod.mk.injEq] at h
    obtain ⟨rfl, rfl, rfl⟩ := h
    obtain rfl : u = n ++ b :: (w ++ e :: l) := List.append_cancel_right (by simpa using hu.symm)
    have hstop : Stops isIdentChar (t.takeWhile isBlank ++ d :: R') := stops_append_cons (hrest ▸ ht)
    simpa using @typeNames_named p c b e n w l _ hn hb hw he hl hstop

/-- `typeNames` reads the same identifiers when they are followed by text that no identifier takes. -/
theorem typeNames_reroot {p q : Nat} {c : Char} {r u rest Y : List Char} {names : List Token}
    (h : typeNames p c r = (names, q, rest)) (hu : r = u ++ rest) (h1 : Stops isIdentChar Y)
    (h2 : Stops isIdentStart (Y.dropWhile isBlank)) : typeNames p c (u ++ Y) = (names, q, Y) := by
  rcases identifiers_split r with ⟨l, t, rfl, hl, ht, hla⟩ | ⟨n, b, w, e, l, t, rfl, hn, hb, hw, he, hl, ht⟩
  · rw [typeNames_type hl ht hla] at h
    simp only [Prod.mk.injEq] at h
    obtain ⟨rfl, rfl, rfl⟩ := h
    obtain rfl := List.append_cancel_right hu
    exact typeNames_type hl h1 h2
  · rw [typeNames_named hn hb hw he hl ht] at h
    simp only [Prod.mk.injEq] at h
    obtain ⟨rfl, rfl, rfl⟩ := h
    obtain rfl : u = n ++ b :: (w ++ e :: l) := List.append_cancel_right (by simpa using hu.symm)
    simpa using @typeNames_named p c b e n w l _ hn hb hw he hl h1

/-! ## Every error is reported at a stopping character or at the end -/

/-- An error reported by a later step of a reading is reported within the text of the earlier step. -/
theorem Reported.lift {pos pos' : Nat} {cs cs' : List Char} {m : Malformed} (h : Reported pos' cs' m)
    (h1 : pos + (cs.takeWhile isBlank).length ≤ pos') (h2 : pos' + cs'.length = pos + cs.length) :
    Reported pos cs m := by
  rcases h with ⟨e, he, hlo, hhi⟩ | h
  · exact .inl ⟨e, he, by omega, by omega⟩
  · exact .inr (h2 ▸ h)

theorem reader_errors (len : Nat) :
    (∀ st pos cs m, fieldAt len st pos cs = .error m → Reported pos cs m) ∧
    (∀ st pos cs m, closeAt len st pos cs = .error m → Reported pos cs m) := by
  refine fieldAt.mutual_induct
    (fun st pos cs => ∀ m, fieldAt len st pos cs = .error m → Reported pos cs m)
    (fun st pos cs => ∀ m, closeAt len st pos cs = .error m → Reported pos cs m)
    ?_ ?_ ?_ ?_ ?_ ?_ ?_ ?_ ?_ ?_ ?_ ?_ ?_
  · intro st pos cs hd m h
    rw [fieldAt_end hd] at h
    cases h
    -- nothing but blanks is left, so the field is missing at the end
    have hcs := congrArg List.length (eq_blanks_append hd)
    simp only [List.append_nil] at hcs
    exact .inr (hcs ▸ missingType_none_atEnd _ _ _)
  · intro st pos cs p c r hd hc names q rest hn r3 hr hp m h
    rw [fieldAt_unclosedParen hd hc hn hr hp] at h
    cases h
    exact .inr .unclosedParen
  · intro st pos cs p c r hd hc names q rest hn r3 hr inner r4 hp hi m h
    rw [fieldAt_emptyLength hd hc hn hr hp hi] at h
    cases h
    have hcs := length_of_dropWhile_cons hd
    obtain ⟨u, rfl, hq⟩ := typeNames_consumed hn
    have hrest := length_of_dropWhile_cons hr
    rw [closeParen_eq_some hp] at hrest
    simp only [List.length_append, List.length_cons] at hcs hrest
    exact .inl ⟨_, .emptyLength, by omega, by omega⟩
  · intro st pos cs p c r hd hc names q rest hn st' a r3 hr inner r4 hp stop hi ih m h
    rw [fieldAt_length hd hc hn hr hp hi] at h
    have hih : Reported (q + (rest.takeWhile isBlank).length + 1 + inner.length + 1) r4 m := ih m h
    have hcs := length_of_dropWhile_cons hd
    obtain ⟨u, rfl, hq⟩ := typeNames_consumed hn
    have hrest := length_of_dropWhile_cons hr
    rw [closeParen_eq_some hp] at hrest
    simp only [List.length_append, List.length_cons] at hcs hrest
    exact hih.lift (by omega) (by omega)
  · intro st pos cs p c r hd hc names q rest hn st' a r3 hr ih m h
    rw [fieldAt_open hd hc hn hr] at h
    have hih : Reported (q + (rest.takeWhile isBlank).length + 1) r3 m := ih m h
    have hcs := length_of_dropWhile_cons hd
    obtain ⟨u, rfl, hq⟩ := typeNames_consumed hn
    have hrest := length_of_dropWhile_cons hr
    simp only [List.length_append] at hcs
    exact hih.lift (by omega) (by omega)
  · intro st pos cs p c r hd hc names q rest hn st' h1 h2 ih m h
    rw [fieldAt_plain hd hc hn h1 h2] at h
    have hih : Reported q rest m := ih m h
    have hcs := length_of_dropWhile_cons hd
    obtain ⟨u, rfl, hq⟩ := typeNames_consumed hn
    simp only [List.length_append] at hcs
    exact hih.lift (by omega) (by omega)
  · intro st pos cs c r hd hc m h
    rw [fieldAt_notIdent hd hc] at h
    cases h
    have hcs := length_of_dropWhile_cons hd
    exact .inl ⟨_, missingType_some_stopsAt _ _ _ _, by omega, by omega⟩
  · intro st pos cs hd hs m h
    rw [closeAt_end_top hd hs] at h
    cases h
  · intro st pos cs hd reg tail hs m h
    rw [closeAt_end_region hd hs] at h
    cases h
    exact .inr .unclosedAngle
  · intro st pos cs p r hd ih m h
    rw [closeAt_comma hd] at h
    have hih : Reported (pos + (cs.takeWhile isBlank).length + 1) r m := ih m h
    have hcs := length_of_dropWhile_cons hd
    exact hih.lift (by omega) (by omega)
  · intro st pos cs r hs hd _ m h
    rw [closeAt_stray hs hd] at h
    cases h
    have hcs := length_of_dropWhile_cons hd
    exact .inl ⟨_, .unexpected, by omega, by omega⟩
  · intro st pos cs p r reg tail hs hd _ ih m h
    rw [closeAt_close hs hd] at h
    have hih : Reported (pos + (cs.takeWhile isBlank).length + 1) r m := ih m h
    have hcs := length_of_dropWhile_cons hd
    exact hih.lift (by omega) (by omega)
  · intro st pos cs c r hd h1 h2 m h
    rw [closeAt_other hd h1 h2] at h
    cases h
    have hcs := length_of_dropWhile_cons hd
    exact .inl ⟨_, unexpectedAt_stopsAt _ _ _, by omega, by omega⟩

/-! ## An error is decided before the text goes on -/

theorem Malformed.StopsAt.unique {m : Malformed} {e e' : Nat} (h : m.StopsAt e) (h' : m.StopsAt e') : e = e' := by
  cases h <;> cases h' <;> rfl

theorem Malformed.StopsAt.not_atEnd {m : Malformed} {e n : Nat} (h : m.StopsAt e) (h' : m.AtEnd n) : False := by
  cases h <;> cases h'

/-- The character an error stops at lies in the text, after its leading blanks. -/
theorem Reported.bounds {pos e : Nat} {cs : List Char} {m : Malformed} (h : Reported pos cs m) (he : m.StopsAt e) :
    pos + (cs.takeWhile isBlank).length ≤ e ∧ e < pos + cs.length := by
  rcases h with ⟨e', he', hlo, hhi⟩ | h
  · obtain rfl := he.unique he'
    exact ⟨hlo, hhi⟩
  · exact (he.not_atEnd h).elim

section Head

variable {pos q : Nat} {cs r rest R : List Char} {c d : Char} {names : List Token}

/-- The text up to `k` characters past the first one that is not blank. -/
theorem take_after_blanks (hd : cs.dropWhile isBlank = c :: r) (k : Nat) (z : List Char) :
    cs.take ((cs.takeWhile isBlank).length + 1 + k) ++ z = cs.takeWhile isBlank ++ c :: (r.take k ++ z) := by
  have hcs := eq_blanks_append hd
  generalize cs.takeWhile isBlank = w at hcs ⊢
  subst hcs
  rw [show w ++ c :: r = (w ++ [c]) ++ r by simp, show w.length + 1 + k = (w ++ [c]).length + k by simp,
    List.take_length_add_append]
  simp

/-- The head of a field definition: the blanks, the identifiers and the blanks after them, and the character `d`
that decides the branch. The reader reads the same head whatever follows `d`. -/
theorem field_head (hd : cs.dropWhile isBlank = c :: r)
    (hn : typeNames (pos + (cs.takeWhile isBlank).length) c r = (names, q, rest))
    (hr : rest.dropWhile isBlank = d :: R) :
    ∃ H, cs = H ++ R ∧ (cs.takeWhile isBlank).length < H.length ∧
      pos + H.length = q + (rest.takeWhile isBlank).length + 1 ∧
      ∀ R', ∃ r', (H ++ R').dropWhile isBlank = c :: r' ∧ (H ++ R').takeWhile isBlank = cs.takeWhile isBlank ∧
        typeNames (pos + (cs.takeWhile isBlank).length) c r' = (names, q, rest.takeWhile isBlank ++ d :: R') ∧
        (rest.takeWhile isBlank ++ d :: R').dropWhile isBlank = d :: R' ∧
        (rest.takeWhile isBlank ++ d :: R').takeWhile isBlank = rest.takeWhile isBlank := by
  obtain ⟨u, hu, hq⟩ := typeNames_consumed hn
  have hcb := isBlank_of_dropWhile_cons hd
  have hdb := isBlank_of_dropWhile_cons hr
  refine ⟨cs.takeWhile isBlank ++ c :: (u ++ (rest.takeWhile isBlank ++ [d])), ?_, by simp, by simp; omega,
    fun R' => ⟨u ++ (rest.takeWhile isBlank ++ d :: R'), ?_⟩⟩
  · conv => lhs; rw [eq_blanks_append hd, hu, eq_blanks_append hr]
    simp
  · have htext : cs.takeWhile isBlank ++ c :: (u ++ (rest.takeWhile isBlank ++ [d])) ++ R' =
        cs.takeWhile isBlank ++ c :: (u ++ (rest.takeWhile isBlank ++ d :: R')) := by simp
    rw [htext]
    exact ⟨(dropWhile_blanks_cons (blanks_takeWhile cs) hcb).1, (dropWhile_blanks_cons (blanks_takeWhile cs) hcb).2,
      typeNames_agree hn hu hr R', dropWhile_blanks_cons (blanks_takeWhile rest) hdb⟩

end Head

/-- A text whose blanks are skipped to `c :: r` is its blanks, `c`, and `r`. -/
theorem eq_blanks_cons_append {cs r : List Char} {c : Char} (hd : cs.dropWhile isBlank = c :: r) :
    cs = (cs.takeWhile isBlank ++ [c]) ++ r := by
  conv => lhs; rw [eq_blanks_append hd]
  simp

/-- The text before offset `e` of a text read from `pos`, when a step reads `A` from it and goes on at `pos'`. -/
theorem take_after_step {cs A cs' : List Char} {pos e : Nat} (pos' : Nat) (hcs : cs = A ++ cs')
    (hA : pos + A.length = pos') (he : pos' ≤ e) : cs.take (e - pos) = A ++ cs'.take (e - pos') := by
  rw [hcs, show e - pos = A.length + (e - pos') by omega, List.take_length_add_append]

/-! ## One step on any continuation

Each step of the reader that goes on to a later step reads the text it consumes alike whatever follows: the later step
is handed what follows. -/

section Continue

variable {pos q : Nat} {st : Reading} {cs r r3 r4 inner rest : List Char} {c : Char} {names : List Token}

/-- A field definition with a length argument is read from its head and the argument, whatever follows the `)`. -/
theorem fieldAt_paren_cont (hd : cs.dropWhile isBlank = c :: r) (hc : isIdentStart c = true)
    (hn : typeNames (pos + (cs.takeWhile isBlank).length) c r = (names, q, rest))
    (hr : rest.dropWhile isBlank = '(' :: r3) :
    ∃ H, cs = H ++ r3 ∧ pos + H.length = q + (rest.takeWhile isBlank).length + 1 ∧
      ∀ st len l Y, Nests 0 l 0 →
        (¬Text.trimChars l = [] → fieldAt len st pos (H ++ (l ++ ')' :: Y)) =
          closeAt len ((st.pushAll names).push (.leaf .length (String.ofList l)
            ⟨q + (rest.takeWhile isBlank).length + 1, q + (rest.takeWhile isBlank).length + 1 + l.length⟩))
            (q + (rest.takeWhile isBlank).length + 1 + l.length + 1) Y) ∧
        (Text.trimChars l = [] → fieldAt len st pos (H ++ (l ++ ')' :: Y)) =
          .error (.emptyLength (q + (rest.takeWhile isBlank).length)
            (q + (rest.takeWhile isBlank).length + 1 + l.length))) := by
  obtain ⟨H, hH, -, hHlen, hhead⟩ := field_head hd hn hr
  refine ⟨H, hH, hHlen, fun st len l Y hl => ?_⟩
  obtain ⟨r', h1, h2, h3, h4, h5⟩ := hhead (l ++ ')' :: Y)
  have hp := closeParen_append (r := Y) hl
  refine ⟨fun hi => ?_, fun hi => ?_⟩
  · rw [fieldAt_length h1 hc (h2 ▸ h3) h4 hp hi, h5]
  · rw [fieldAt_emptyLength h1 hc (h2 ▸ h3) h4 hp hi, h5]

theorem fieldAt_length_cont (hd : cs.dropWhile isBlank = c :: r) (hc : isIdentStart c = true)
    (hn : typeNames (pos + (cs.takeWhile isBlank).length) c r = (names, q, rest))
    (hr : rest.dropWhile isBlank = '(' :: r3) (hp : closeParen 0 r3 = some (inner, r4))
    (hi : ¬Text.trimChars inner = []) :
    ∃ A, cs = A ++ r4 ∧ pos + A.length = q + (rest.takeWhile isBlank).length + 1 + inner.length + 1 ∧
      ∀ st len Y, fieldAt len st pos (A ++ Y) =
        closeAt len ((st.pushAll names).push (.leaf .length (String.ofList inner)
          ⟨q + (rest.takeWhile isBlank).length + 1, q + (rest.takeWhile isBlank).length + 1 + inner.length⟩))
          (q + (rest.takeWhile isBlank).length + 1 + inner.length + 1) Y := by
  obtain ⟨H, hH, hHlen, hstep⟩ := fieldAt_paren_cont hd hc hn hr
  refine ⟨H ++ (inner ++ [')']), by rw [hH, closeParen_eq_some hp]; simp, by simp; omega, fun st len Y => ?_⟩
  rw [show H ++ (inner ++ [')']) ++ Y = H ++ (inner ++ ')' :: Y) by simp]
  exact (hstep st len inner Y (nests_of_closeParen hp)).1 hi

theorem fieldAt_open_cont (hd : cs.dropWhile isBlank = c :: r) (hc : isIdentStart c = true)
    (hn : typeNames (pos + (cs.takeWhile isBlank).length) c r = (names, q, rest))
    (hr : rest.dropWhile isBlank = '<' :: r3) :
    ∃ A, cs = A ++ r3 ∧ pos + A.length = q + (rest.takeWhile isBlank).length + 1 ∧
      ∀ st len Y, fieldAt len st pos (A ++ Y) =
        fieldAt len ((st.pushAll names).openAt (q + (rest.takeWhile isBlank).length))
        (q + (rest.takeWhile isBlank).length + 1) Y := by
  obtain ⟨H, hH, -, hHlen, hhead⟩ := field_head hd hn hr
  refine ⟨H, hH, hHlen, fun st len Y => ?_⟩
  obtain ⟨r', h1, h2, h3, h4, h5⟩ := hhead Y
  rw [fieldAt_open h1 hc (h2 ▸ h3) h4, h5]

/-- After the identifiers, a character that opens neither a length argument nor a region ends the field definition;
the reader reads up to that character alike whatever follows it. -/
theorem fieldAt_plain_cont {d : Char} {R : List Char} (hd : cs.dropWhile isBlank = c :: r) (hc : isIdentStart c = true)
    (hn : typeNames (pos + (cs.takeWhile isBlank).length) c r = (names, q, rest))
    (hr : rest.dropWhile isBlank = d :: R) (h1 : d ≠ '(') (h2 : d ≠ '<') :
    ∃ A, cs = A ++ R ∧ pos + A.length = q + (rest.takeWhile isBlank).length + 1 ∧
      ∀ st len Y, fieldAt len st pos (A ++ Y) = closeAt len (st.pushAll names) q (rest.takeWhile isBlank ++ d :: Y) := by
  obtain ⟨H, hH, -, hHlen, hhead⟩ := field_head hd hn hr
  refine ⟨H, hH, hHlen, fun st len Y => ?_⟩
  obtain ⟨r', g1, g2, g3, g4, -⟩ := hhead Y
  rw [fieldAt_plain g1 hc (g2 ▸ g3) (fun r3 h => h1 (List.cons.inj (g4.symm.trans h)).1)
    (fun r3 h => h2 (List.cons.inj (g4.symm.trans h)).1)]

theorem closeAt_comma_cont {w : List Char} (hw : Blanks w) (len : Nat) (Y : List Char) :
    closeAt len st pos ((w ++ [',']) ++ Y) =
      fieldAt len (st.push (.leaf .delimiter "," ⟨pos + w.length, pos + w.length + 1⟩)) (pos + w.length + 1) Y := by
  have hd' := dropWhile_blanks_cons (r := Y) hw (by decide : isBlank ',' = false)
  rw [List.append_assoc, List.singleton_append, closeAt_comma hd'.1, hd'.2]

theorem closeAt_close_cont {reg : Region} {outer : List Region} {w : List Char} (hs : st.regions = reg :: outer)
    (hw : Blanks w) (len : Nat) (Y : List Char) :
    closeAt len st pos ((w ++ ['>']) ++ Y) = closeAt len ((Reading.mk st.top outer).push
      (.nested reg.tokens.reverse ⟨reg.opened, pos + w.length + 1⟩)) (pos + w.length + 1) Y := by
  have hd' := dropWhile_blanks_cons (r := Y) hw (by decide : isBlank '>' = false)
  rw [List.append_assoc, List.singleton_append, closeAt_close hs hd'.1, hd'.2]

end Continue

theorem reader_stops (len : Nat) :
    (∀ st pos cs m e, fieldAt len st pos cs = .error m → m.StopsAt e →
      ∀ len' z, ∃ m', fieldAt len' st pos (cs.take (e + 1 - pos) ++ z) = .error m') ∧
    (∀ st pos cs m e, closeAt len st pos cs = .error m → m.StopsAt e →
      ∀ len' z, ∃ m', closeAt len' st pos (cs.take (e + 1 - pos) ++ z) = .error m') := by
  refine fieldAt.mutual_induct
    (fun st pos cs => ∀ m e, fieldAt len st pos cs = .error m → m.StopsAt e →
      ∀ len' z, ∃ m', fieldAt len' st pos (cs.take (e + 1 - pos) ++ z) = .error m')
    (fun st pos cs => ∀ m e, closeAt len st pos cs = .error m → m.StopsAt e →
      ∀ len' z, ∃ m', closeAt len' st pos (cs.take (e + 1 - pos) ++ z) = .error m')
    ?_ ?_ ?_ ?_ ?_ ?_ ?_ ?_ ?_ ?_ ?_ ?_ ?_
  · intro st pos cs hd m e h he
    rw [fieldAt_end hd] at h
    cases h
    exact (he.not_atEnd (missingType_none_atEnd _ _ _)).elim
  · intro st pos cs p c r hd hc names q rest hn r3 hr hp m e h he
    rw [fieldAt_unclosedParen hd hc hn hr hp] at h
    cases h
    cases he
  · -- the length argument is closed at `e`: the text up to it reads the same head and the same argument
    intro st pos cs p c r hd hc names q rest hn r3 hr inner r4 hp hi m e h he len' z
    rw [fieldAt_emptyLength hd hc hn hr hp hi] at h
    cases h
    have he' := he.unique .emptyLength
    obtain ⟨H, hH, hHlen, hstep⟩ := fieldAt_paren_cont hd hc hn hr
    have hcs : cs = (H ++ (inner ++ [')'])) ++ r4 := by rw [hH, closeParen_eq_some hp]; simp
    rw [hcs, show e + 1 - pos = (H ++ (inner ++ [')'])).length + 0 by simp; omega, List.take_length_add_append,
      List.take_zero, show H ++ (inner ++ [')']) ++ [] ++ z = H ++ (inner ++ ')' :: z) by simp,
      (hstep st len' inner z (nests_of_closeParen hp)).2 hi]
    exact ⟨_, rfl⟩
  · intro st pos cs p c r hd hc names q rest hn st' a r3 hr inner r4 hp stop hi ih m e h he len' z
    rw [fieldAt_length hd hc hn hr hp hi] at h
    have hb := ((reader_errors len).2 _ _ _ _ h).bounds he
    obtain ⟨A, hA, hAlen, hstep⟩ := fieldAt_length_cont hd hc hn hr hp hi
    rw [take_after_step (q + (rest.takeWhile isBlank).length + 1 + inner.length + 1) hA hAlen (by omega),
      List.append_assoc, hstep]
    exact ih m e h he len' z
  · intro st pos cs p c r hd hc names q rest hn st' a r3 hr ih m e h he len' z
    rw [fieldAt_open hd hc hn hr] at h
    have hb := ((reader_errors len).1 _ _ _ _ h).bounds he
    obtain ⟨A, hA, hAlen, hstep⟩ := fieldAt_open_cont hd hc hn hr
    rw [take_after_step (q + (rest.takeWhile isBlank).length + 1) hA hAlen (by omega), List.append_assoc, hstep]
    exact ih m e h he len' z
  · -- the error stops in the text after the identifiers, so that text holds the character that ends them
    intro st pos cs p c r hd hc names q rest hn st' h1 h2 ih m e h he len' z
    rw [fieldAt_plain hd hc hn h1 h2] at h
    have hb := ((reader_errors len).2 _ _ _ _ h).bounds he
    obtain ⟨d, R, hr⟩ : ∃ d R, rest.dropWhile isBlank = d :: R := by
      cases hrd : rest.dropWhile isBlank with
      | nil =>
        have := congrArg List.length (eq_blanks_append hrd)
        simp only [List.append_nil] at this
        omega
      | cons d R => exact ⟨d, R, rfl⟩
    obtain ⟨A, hA, hAlen, hstep⟩ :=
      fieldAt_plain_cont hd hc hn hr (fun h' => h1 R (h' ▸ hr)) (fun h' => h2 R (h' ▸ hr))
    have hrest := take_after_blanks hr (e + 1 - (q + (rest.takeWhile isBlank).length + 1)) z
    rw [show (rest.takeWhile isBlank).length + 1 + (e + 1 - (q + (rest.takeWhile isBlank).length + 1)) =
      e + 1 - q by omega] at hrest
    rw [take_after_step (q + (rest.takeWhile isBlank).length + 1) hA hAlen (by omega), List.append_assoc, hstep,
      ← hrest]
    exact ih m e h he len' z
  · intro st pos cs c r hd hc m e h he len' z
    rw [fieldAt_notIdent hd hc] at h
    cases h
    have he' := he.unique (missingType_some_stopsAt _ _ _ _)
    rw [show e + 1 - pos = (cs.takeWhile isBlank).length + 1 + 0 by omega, take_after_blanks hd, List.take_zero,
      List.nil_append]
    have hcb := isBlank_of_dropWhile_cons hd
    rw [fieldAt_notIdent (dropWhile_blanks_cons (blanks_takeWhile cs) hcb).1 hc]
    exact ⟨_, rfl⟩
  · intro st pos cs hd hs m e h
    rw [closeAt_end_top hd hs] at h
    cases h
  · intro st pos cs hd reg tail hs m e h he
    rw [closeAt_end_region hd hs] at h
    cases h
    cases he
  · intro st pos cs p r hd ih m e h he len' z
    rw [closeAt_comma hd] at h
    have hb := ((reader_errors len).1 _ _ _ _ h).bounds he
    rw [take_after_step (pos + (cs.takeWhile isBlank).length + 1) (eq_blanks_cons_append hd) (by simp; omega)
      (by omega), List.append_assoc, closeAt_comma_cont (blanks_takeWhile cs)]
    exact ih m e h he len' z
  · intro st pos cs r hs hd _ m e h he len' z
    rw [closeAt_stray hs hd] at h
    cases h
    have he' := he.unique .unexpected
    rw [show e + 1 - pos = (cs.takeWhile isBlank).length + 1 + 0 by omega, take_after_blanks hd, List.take_zero,
      List.nil_append, closeAt_stray hs (dropWhile_blanks_cons (blanks_takeWhile cs) (by decide)).1]
    exact ⟨_, rfl⟩
  · intro st pos cs p r reg tail hs hd _ ih m e h he len' z
    rw [closeAt_close hs hd] at h
    have hb := ((reader_errors len).2 _ _ _ _ h).bounds he
    rw [take_after_step (pos + (cs.takeWhile isBlank).length + 1) (eq_blanks_cons_append hd) (by simp; omega)
      (by omega), List.append_assoc, closeAt_close_cont hs (blanks_takeWhile cs)]
    exact ih m e h he len' z
  · intro st pos cs c r hd h1 h2 m e h he len' z
    rw [closeAt_other hd h1 h2] at h
    cases h
    have he' := he.unique (unexpectedAt_stopsAt _ _ _)
    have hcb := isBlank_of_dropWhile_cons hd
    rw [show e + 1 - pos = (cs.takeWhile isBlank).length + 1 + 0 by omega, take_after_blanks hd, List.take_zero,
      List.nil_append, closeAt_other (dropWhile_blanks_cons (blanks_takeWhile cs) hcb).1 h1 h2]
    exact ⟨_, rfl⟩

end ColumnDecl
