import ColumnDecl.Proofs.Viable

/-
Reading a text inside an enclosing one.

A text read after a `<`, or before a comma, is read by the same steps as on its own. The reader's state is then the
enclosing state with the inner reading grafted on (`Reading.graft`): the inner top level goes into the innermost
region of the enclosing state, and the inner regions lie above the enclosing ones. Offsets are those of the
enclosing text throughout.

- `reader_graft`: a successful reading of a text, grafted onto any state and followed by text that may follow a
  field definition, reads the same tokens into that state and goes on after the text;
- `reader_split`: conversely, a successful reading from a grafted state splits its text into an inner text that is
  read successfully on its own, and what follows it: nothing, or a `>` that closes a region of the enclosing state.
-/

namespace ColumnDecl

open Scan Grammar

namespace Reading

@[simp] theorem pushAll_nil (st : Reading) : st.pushAll [] = st := rfl

theorem pushAll_cons (t : Token) (ts : List Token) (st : Reading) : st.pushAll (t :: ts) = (st.push t).pushAll ts :=
  rfl

theorem pushAll_append (a b : List Token) (st : Reading) : st.pushAll (a ++ b) = (st.pushAll a).pushAll b := by
  simp [pushAll, List.foldl_append]

@[simp] theorem push_top_nil (t : Token) (top : List Token) : (Reading.mk top []).push t = ⟨t :: top, []⟩ := rfl

theorem pushAll_top_nil (ts top : List Token) : (Reading.mk top []).pushAll ts = ⟨ts.reverse ++ top, []⟩ := by
  induction ts generalizing top with
  | nil => rfl
  | cons t ts ih => simp [pushAll_cons, ih]

/-- the reading `inner` of a text that stands inside the reading `outer`: the top level of `inner` goes into the
innermost region of `outer`, and the open regions of `inner` lie above those of `outer` -/
def graft (outer inner : Reading) : Reading :=
  ⟨(outer.pushAll inner.top.reverse).top, inner.regions ++ (outer.pushAll inner.top.reverse).regions⟩

theorem graft_of_regions_nil {outer inner : Reading} (h : inner.regions = []) :
    outer.graft inner = outer.pushAll inner.top.reverse := by
  simp [graft, h]

@[simp] theorem graft_initial (outer : Reading) : outer.graft initial = outer := by
  simp [graft, initial]

theorem graft_push (t : Token) (outer inner : Reading) : (outer.graft inner).push t = outer.graft (inner.push t) := by
  obtain ⟨top, _ | ⟨r, rs⟩⟩ := inner
  · -- a token of the inner top level goes where the tokens before it went
    obtain ⟨otop, oregions⟩ := outer.pushAll top.reverse
    simp [graft, push, pushAll_append, pushAll_cons]
  · rfl

theorem graft_pushAll (ts : List Token) (outer inner : Reading) :
    (outer.graft inner).pushAll ts = outer.graft (inner.pushAll ts) := by
  induction ts generalizing inner with
  | nil => rfl
  | cons t ts ih => rw [pushAll_cons, graft_push, ih, pushAll_cons]

theorem graft_openAt (a : Nat) (outer inner : Reading) : (outer.graft inner).openAt a = outer.graft (inner.openAt a) :=
  rfl

theorem graft_regions (outer inner : Reading) :
    (outer.graft inner).regions = inner.regions ++ (outer.pushAll inner.top.reverse).regions := rfl

/-- Closing an inner region of a grafted reading closes it in the inner reading. -/
theorem graft_close {outer inner : Reading} {rest : List Region} (t : Token) :
    (Reading.mk (outer.graft inner).top (rest ++ (outer.pushAll inner.top.reverse).regions)).push t =
      outer.graft ((Reading.mk inner.top rest).push t) := by
  rw [← graft_push]
  rfl

end Reading

/-! ## Text that may follow a field definition -/

theorem AfterField.append {X Y : List Char} (hX : AfterField X) (hY : AfterField Y) : AfterField (X ++ Y) := by
  intro d R h
  cases hx : X.dropWhile isBlank with
  | nil =>
    rw [List.dropWhile_append_of_pos (fun c hc => blanks_of_dropWhile_nil hx c hc)] at h
    exact hY d R h
  | cons x R' =>
    rw [List.dropWhile_append, hx] at h
    simp only [List.isEmpty_cons, Bool.false_eq_true, ↓reduceIte, List.cons_append, List.cons.injEq] at h
    exact hX d R' (h.1 ▸ hx)

theorem afterField_nil : AfterField [] := fun _ _ h => nomatch h

theorem afterField_angle (R : List Char) : AfterField ('>' :: R) := by
  simpa using afterField_blanks_cons (w := []) (Y := R) blanks_nil (.inr rfl)

/-- What a successful closing step reads goes on, after blanks, with a comma or a `>`, or ends. -/
theorem closeAt_afterField {len pos : Nat} {st : Reading} {cs : List Char} {ts : List Token}
    (h : closeAt len st pos cs = .ok ts) : AfterField cs := by
  intro d R hd
  by_cases h1 : d = ','
  · exact .inl h1
  · by_cases h2 : d = '>'
    · exact .inr h2
    · rw [closeAt_other hd h1 h2] at h
      cases h

/-- Blanks before a closing step only move its offset. -/
theorem closeAt_blanks_append {len pos : Nat} {st : Reading} {w : List Char} (hw : Blanks w) (Y : List Char) :
    closeAt len st pos (w ++ Y) = closeAt len st (pos + w.length) Y := by
  have hdrop : (w ++ Y).dropWhile isBlank = Y.dropWhile isBlank := List.dropWhile_append_of_pos hw
  have hlen : ((w ++ Y).takeWhile isBlank).length = w.length + (Y.takeWhile isBlank).length := by
    rw [List.takeWhile_append, if_pos (by rw [(dropWhile_blanks hw).2]), List.length_append]
  -- both steps look at the same character, at the same offset
  cases hd : Y.dropWhile isBlank with
  | nil =>
    cases hs : st.regions with
    | nil => rw [closeAt_end_top (hdrop.trans hd) hs, closeAt_end_top hd hs]
    | cons reg outer => rw [closeAt_end_region (hdrop.trans hd) hs, closeAt_end_region hd hs]
  | cons c r =>
    by_cases h1 : c = ','
    · subst h1
      rw [closeAt_comma (hdrop.trans hd), closeAt_comma hd]
      simp only [hlen, Int.natCast_add, Int.add_assoc, Nat.add_assoc]
    · by_cases h2 : c = '>'
      · subst h2
        cases hs : st.regions with
        | nil => rw [closeAt_stray hs (hdrop.trans hd), closeAt_stray hs hd, hlen, Nat.add_assoc]
        | cons reg outer =>
          rw [closeAt_close hs (hdrop.trans hd), closeAt_close hs hd]
          simp only [hlen, Int.natCast_add, Int.add_assoc, Nat.add_assoc]
      · rw [closeAt_other (hdrop.trans hd) h1 h2, closeAt_other hd h1 h2, hlen, Nat.add_assoc]

/-! ## A reading grafted onto an enclosing state -/

theorem reader_graft (len₀ len : Nat) :
    (∀ ist pos cs ts, fieldAt len₀ ist pos cs = .ok ts → ∀ (st : Reading) Y, AfterField Y →
      fieldAt len (st.graft ist) pos (cs ++ Y) = closeAt len (st.pushAll ts) (pos + cs.length) Y) ∧
    (∀ ist pos cs ts, closeAt len₀ ist pos cs = .ok ts → ∀ (st : Reading) Y, AfterField Y →
      closeAt len (st.graft ist) pos (cs ++ Y) = closeAt len (st.pushAll ts) (pos + cs.length) Y) := by
  refine fieldAt.mutual_induct
    (fun ist pos cs => ∀ ts, fieldAt len₀ ist pos cs = .ok ts → ∀ (st : Reading) Y, AfterField Y →
      fieldAt len (st.graft ist) pos (cs ++ Y) = closeAt len (st.pushAll ts) (pos + cs.length) Y)
    (fun ist pos cs => ∀ ts, closeAt len₀ ist pos cs = .ok ts → ∀ (st : Reading) Y, AfterField Y →
      closeAt len (st.graft ist) pos (cs ++ Y) = closeAt len (st.pushAll ts) (pos + cs.length) Y)
    ?_ ?_ ?_ ?_ ?_ ?_ ?_ ?_ ?_ ?_ ?_ ?_ ?_
  · intro ist pos cs hd ts h
    rw [fieldAt_end hd] at h
    cases h
  · intro ist pos cs p c r hd hc names q rest hn r3 hr hp ts h
    rw [fieldAt_unclosedParen hd hc hn hr hp] at h
    cases h
  · intro ist pos cs p c r hd hc names q rest hn r3 hr inner r4 hp hi ts h
    rw [fieldAt_emptyLength hd hc hn hr hp hi] at h
    cases h
  · intro ist pos cs p c r hd hc names q rest hn ist' a r3 hr inner r4 hp stop hi ih ts h st Y hY
    rw [fieldAt_length hd hc hn hr hp hi] at h
    obtain ⟨A, hA, hAlen, hstep⟩ := fieldAt_length_cont hd hc hn hr hp hi
    rw [hA, List.append_assoc, hstep, Reading.graft_pushAll, Reading.graft_push]
    refine (ih ts h st Y hY).trans ?_
    rw [List.length_append]
    congr 1
    omega
  · intro ist pos cs p c r hd hc names q rest hn ist' a r3 hr ih ts h st Y hY
    rw [fieldAt_open hd hc hn hr] at h
    obtain ⟨A, hA, hAlen, hstep⟩ := fieldAt_open_cont hd hc hn hr
    rw [hA, List.append_assoc, hstep, Reading.graft_pushAll, Reading.graft_openAt]
    refine (ih ts h st Y hY).trans ?_
    rw [List.length_append]
    congr 1
    omega
  · -- what follows the identifiers, and then `Y`, still stops them and opens nothing
    intro ist pos cs p c r hd hc names q rest hn ist' h1 h2 ih ts h st Y hY
    rw [fieldAt_plain hd hc hn h1 h2] at h
    have hrY := (closeAt_afterField h).append hY
    obtain ⟨u, hu, hq⟩ := typeNames_consumed hn
    have hcs := eq_blanks_append hd
    have hhead := dropWhile_blanks_cons (r := r ++ Y) (blanks_takeWhile cs) (isBlank_of_dropWhile_cons hd)
    have hn' : typeNames (pos + ((cs ++ Y).takeWhile isBlank).length) c (r ++ Y) = (names, q, rest ++ Y) := by
      rw [hcs, List.append_assoc, List.cons_append, hhead.2, hu, List.append_assoc]
      exact typeNames_reroot hn hu hrY.punctuated.stops.1 hrY.punctuated.stops.2
    have hd' : (cs ++ Y).dropWhile isBlank = c :: (r ++ Y) := by
      rw [hcs, List.append_assoc, List.cons_append, hhead.1]
    rw [fieldAt_plain hd' hc hn' hrY.not_paren hrY.not_angle, Reading.graft_pushAll]
    refine (ih ts h st Y hY).trans ?_
    have hlen := congrArg List.length hcs
    simp only [List.length_append, List.length_cons, hu] at hlen ⊢
    congr 1
    omega
  · intro ist pos cs c r hd hc ts h
    rw [fieldAt_notIdent hd hc] at h
    cases h
  · -- the inner text ends: what remains of it is blanks
    intro ist pos cs hd hs ts h st Y hY
    rw [closeAt_end_top hd hs] at h
    cases h
    rw [Reading.graft_of_regions_nil hs, closeAt_blanks_append (blanks_of_dropWhile_nil hd)]
  · intro ist pos cs hd reg tail hs ts h
    rw [closeAt_end_region hd hs] at h
    cases h
  · intro ist pos cs p r hd ih ts h st Y hY
    rw [closeAt_comma hd] at h
    have hlen := length_of_dropWhile_cons hd
    rw [eq_blanks_cons_append hd, List.append_assoc, closeAt_comma_cont (blanks_takeWhile cs), Reading.graft_push]
    refine (ih ts h st Y hY).trans ?_
    simp only [List.length_append, List.length_singleton]
    congr 1
    omega
  · intro ist pos cs r hs hd _ ts h
    rw [closeAt_stray hs hd] at h
    cases h
  · intro ist pos cs p r reg tail hs hd _ ih ts h st Y hY
    rw [closeAt_close hs hd] at h
    have hlen := length_of_dropWhile_cons hd
    have hs' : (st.graft ist).regions = reg :: (tail ++ (st.pushAll ist.top.reverse).regions) := by
      rw [Reading.graft_regions, hs, List.cons_append]
    rw [eq_blanks_cons_append hd, List.append_assoc, closeAt_close_cont hs' (blanks_takeWhile cs),
      Reading.graft_close]
    refine (ih ts h st Y hY).trans ?_
    simp only [List.length_append, List.length_singleton]
    congr 1
    omega
  · intro ist pos cs c r hd h1 h2 ts h
    rw [closeAt_other hd h1 h2] at h
    cases h

/-! ## A reading from a grafted state splits -/

/-- what may follow an inner text in a reading from a grafted state: nothing, or a `>` that closes a region of the
enclosing state -/
def InnerEnd (Y : List Char) : Prop := Y = [] ∨ ∃ R, Y = '>' :: R

theorem InnerEnd.afterField {Y : List Char} (h : InnerEnd Y) : AfterField Y := by
  rcases h with rfl | ⟨R, rfl⟩
  · exact afterField_nil
  · exact afterField_angle R

theorem reader_split (len len₀ : Nat) :
    (∀ S pos X ts, fieldAt len S pos X = .ok ts → ∀ st ist, S = Reading.graft st ist →
      ∃ cs Y ts', X = cs ++ Y ∧ InnerEnd Y ∧ fieldAt len₀ ist pos cs = .ok ts') ∧
    (∀ S pos X ts, closeAt len S pos X = .ok ts → ∀ st ist, S = Reading.graft st ist →
      ∃ cs Y ts', X = cs ++ Y ∧ InnerEnd Y ∧ closeAt len₀ ist pos cs = .ok ts') := by
  refine fieldAt.mutual_induct
    (fun S pos X => ∀ ts, fieldAt len S pos X = .ok ts → ∀ st ist, S = Reading.graft st ist →
      ∃ cs Y ts', X = cs ++ Y ∧ InnerEnd Y ∧ fieldAt len₀ ist pos cs = .ok ts')
    (fun S pos X => ∀ ts, closeAt len S pos X = .ok ts → ∀ st ist, S = Reading.graft st ist →
      ∃ cs Y ts', X = cs ++ Y ∧ InnerEnd Y ∧ closeAt len₀ ist pos cs = .ok ts')
    ?_ ?_ ?_ ?_ ?_ ?_ ?_ ?_ ?_ ?_ ?_ ?_ ?_
  · intro S pos X hd ts h
    rw [fieldAt_end hd] at h
    cases h
  · intro S pos X p c r hd hc names q rest hn r3 hr hp ts h
    rw [fieldAt_unclosedParen hd hc hn hr hp] at h
    cases h
  · intro S pos X p c r hd hc names q rest hn r3 hr inner r4 hp hi ts h
    rw [fieldAt_emptyLength hd hc hn hr hp hi] at h
    cases h
  · intro S pos X p c r hd hc names q rest hn S' a r3 hr inner r4 hp stop hi ih ts h st ist hS
    subst hS
    rw [fieldAt_length hd hc hn hr hp hi] at h
    obtain ⟨cs, Y, ts', hr4, hY, hin⟩ :=
      ih ts h st _ ((congrArg (Reading.push _) (Reading.graft_pushAll names st ist)).trans (Reading.graft_push _ _ _))
    obtain ⟨A, hA, -, hstep⟩ := fieldAt_length_cont hd hc hn hr hp hi
    exact ⟨A ++ cs, Y, ts', by rw [hA, hr4, List.append_assoc], hY, (hstep ist len₀ cs).trans hin⟩
  · intro S pos X p c r hd hc names q rest hn S' a r3 hr ih ts h st ist hS
    subst hS
    rw [fieldAt_open hd hc hn hr] at h
    obtain ⟨cs, Y, ts', hr3, hY, hin⟩ :=
      ih ts h st _
        ((congrArg (Reading.openAt a) (Reading.graft_pushAll names st ist)).trans (Reading.graft_openAt _ _ _))
    obtain ⟨A, hA, -, hstep⟩ := fieldAt_open_cont hd hc hn hr
    exact ⟨A ++ cs, Y, ts', by rw [hA, hr3, List.append_assoc], hY, (hstep ist len₀ cs).trans hin⟩
  · -- the inner text stops where the rest of the field definition ends, which stops the identifiers alike
    intro S pos X p c r hd hc names q rest hn S' h1 h2 ih ts h st ist hS
    subst hS
    rw [fieldAt_plain hd hc hn h1 h2] at h
    obtain ⟨cs, Y, ts', hrest, hY, hin⟩ := ih ts h st _ (Reading.graft_pushAll names st ist)
    have hcs := closeAt_afterField hin
    obtain ⟨u, hu, -⟩ := typeNames_consumed hn
    have hhead := dropWhile_blanks_cons (r := u ++ cs) (blanks_takeWhile X) (isBlank_of_dropWhile_cons hd)
    have hn' : typeNames (pos + (X.takeWhile isBlank).length) c (u ++ cs) = (names, q, cs) :=
      typeNames_reroot hn hu hcs.punctuated.stops.1 hcs.punctuated.stops.2
    refine ⟨X.takeWhile isBlank ++ c :: (u ++ cs), Y, ts', ?_, hY, ?_⟩
    · rw [List.append_assoc, List.cons_append, List.append_assoc, ← hrest, ← hu]
      exact eq_blanks_append hd
    · rw [fieldAt_plain hhead.1 hc (hhead.2 ▸ hn') hcs.not_paren hcs.not_angle]
      exact hin
  · intro S pos X c r hd hc ts h
    rw [fieldAt_notIdent hd hc] at h
    cases h
  · -- the end of the whole text is the end of the inner text, with no region open in either reading
    intro S pos X hd hs ts h st ist hS
    subst hS
    have hist : ist.regions = [] := List.eq_nil_of_append_eq_nil hs |>.1
    exact ⟨X, [], _, (List.append_nil X).symm, .inl rfl, closeAt_end_top hd hist⟩
  · intro S pos X hd reg tail hs ts h
    rw [closeAt_end_region hd hs] at h
    cases h
  · intro S pos X p r hd ih ts h st ist hS
    subst hS
    rw [closeAt_comma hd] at h
    obtain ⟨cs, Y, ts', hr, hY, hin⟩ := ih ts h st _ (Reading.graft_push _ _ _)
    refine ⟨(X.takeWhile isBlank ++ [',']) ++ cs, Y, ts', ?_, hY, ?_⟩
    · rw [List.append_assoc _ cs Y, ← hr]
      exact eq_blanks_cons_append hd
    · rw [closeAt_comma_cont (blanks_takeWhile X)]
      exact hin
  · intro S pos X r hs hd _ ts h
    rw [closeAt_stray hs hd] at h
    cases h
  · intro S pos X p r reg tail hs hd _ ih ts h st ist hS
    subst hS
    cases hist : ist.regions with
    | nil =>
      -- a `>` after the inner top level closes a region of the enclosing state: the inner text ends before it
      refine ⟨X.takeWhile isBlank, '>' :: r, _, ?_, .inr ⟨r, rfl⟩,
        closeAt_end_top (dropWhile_blanks (blanks_takeWhile X)).1 hist⟩
      rw [← hd, List.takeWhile_append_dropWhile]
    | cons ireg itail =>
      rw [Reading.graft_regions, hist, List.cons_append, List.cons.injEq] at hs
      obtain ⟨rfl, rfl⟩ := hs
      rw [closeAt_close (by rw [Reading.graft_regions, hist, List.cons_append]) hd] at h
      obtain ⟨cs, Y, ts', hr, hY, hin⟩ := ih ts h st _ (@Reading.graft_close st ist itail _)
      refine ⟨(X.takeWhile isBlank ++ ['>']) ++ cs, Y, ts', ?_, hY, ?_⟩
      · rw [List.append_assoc _ cs Y, ← hr]
        exact eq_blanks_cons_append hd
      · rw [closeAt_close_cont hist (blanks_takeWhile X)]
        exact hin
  · intro S pos X c r hd h1 h2 ts h
    rw [closeAt_other hd h1 h2] at h
    cases h

end ColumnDecl
