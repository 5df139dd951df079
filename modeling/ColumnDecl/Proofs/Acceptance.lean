import ColumnDecl.Proofs.Steps

/-
What the reader accepts: exactly the declarations of the grammar, with the token shapes their derivations yield.

The reader keeps the tokens of each open region on a stack and closes a region at its `>`, while the grammar nests.
`Reading.frames` is that stack seen as shapes, innermost region first and the top level last. `Closes` says what the
open regions still demand of the text after a complete field definition: more fields after commas, then a `>` for
each open region and the end at the top level. `Opens` is the same before a field definition still to be read.

- `reader_sound`: a run of the reader that returns tokens follows a derivation; `closes_region` turns the fields read
  inside a region into the nested suffix of the field that opened it;
- `reader_complete`: a derivation is read, into tokens of its shapes, by induction on the length of the text;
- `tokenize_declares`, `tokenize_of_declares`: the same for `tokenize`;
- `tokenize_ok_iff_decl`: `tokenize` returns tokens exactly on the language of the grammar.
-/

namespace ColumnDecl

open Scan Grammar
open Token (listShape)

/-! ## The stack of regions as shapes -/

theorem listShape_eq_map (ts : List Token) : listShape ts = ts.map Token.shape := by
  induction ts with
  | nil => rfl
  | cons t ts ih => simp [listShape, ih]

@[simp] theorem listShape_append (a b : List Token) : listShape (a ++ b) = listShape a ++ listShape b := by
  simp [listShape_eq_map]

namespace Grammar

/-- the frames with the shapes `f` added to the innermost -/
def addTo : List (List Shape) → List Shape → List (List Shape)
  | [], f => [f]
  | cur :: outer, f => (cur ++ f) :: outer

@[simp] theorem addTo_cons {cur f : List Shape} {outer : List (List Shape)} :
    addTo (cur :: outer) f = (cur ++ f) :: outer := rfl

theorem addTo_addTo (frames : List (List Shape)) (f g : List Shape) :
    addTo (addTo frames f) g = addTo frames (f ++ g) := by
  cases frames <;> simp [addTo]

/-- what the open regions `frames` still demand of the text after a complete field definition, and the shapes of
the top level once all of them are closed -/
inductive Closes : List (List Shape) → List Char → List Shape → Prop
  | done {w cur} : Blanks w → Closes [cur] w cur
  | close {w r cur par outer out} : Blanks w → Closes ((par ++ [.nested cur]) :: outer) r out →
      Closes (cur :: par :: outer) (w ++ '>' :: r) out
  | next {w₁ w₂ t t' frames f out} : Blanks w₁ → Blanks w₂ → Field t t' f →
      Closes (addTo frames (.leaf .delimiter "," :: f)) t' out → Closes frames (w₁ ++ ',' :: (w₂ ++ t)) out

/-- what the open regions `frames` demand of the text before a field definition -/
def Opens (frames : List (List Shape)) (cs : List Char) (out : List Shape) : Prop :=
  ∃ w t t' f, Blanks w ∧ cs = w ++ t ∧ Field t t' f ∧ Closes (addTo frames f) t' out

/-- The fields read inside a region, up to its `>`, are the sequence of its nested suffix. -/
theorem closes_region {t : List Char} {out cur par : List Shape} {outer : List (List Shape)}
    (h : Closes (cur :: par :: outer) t out) :
    ∃ u w r, More t (w ++ '>' :: r) u ∧ Blanks w ∧ Closes ((par ++ [.nested (cur ++ u)]) :: outer) r out := by
  generalize hF : cur :: par :: outer = frames at h
  induction h generalizing cur with
  | done => simp at hF
  | close hw hr =>
    simp only [List.cons.injEq] at hF
    obtain ⟨rfl, rfl, rfl⟩ := hF
    exact ⟨[], _, _, More.nil, hw, by simpa using hr⟩
  | next hw₁ hw₂ hf _ ih =>
    subst hF
    obtain ⟨u, w, r, hm, hw, hc⟩ := ih rfl
    exact ⟨_, w, r, More.cons hw₁ hw₂ hf hm, hw, by simpa using hc⟩

/-- The fields read at the top level, up to the end, are the sequence of the declaration. -/
theorem closes_top {t : List Char} {out cur : List Shape} (h : Closes [cur] t out) :
    ∃ u w, More t w u ∧ Blanks w ∧ out = cur ++ u := by
  generalize hF : [cur] = frames at h
  induction h generalizing cur with
  | done hw =>
    simp only [List.cons.injEq, and_true] at hF
    subst hF
    exact ⟨[], _, More.nil, hw, by simp⟩
  | close => simp at hF
  | next hw₁ hw₂ hf _ ih =>
    subst hF
    obtain ⟨u, w, hm, hw, rfl⟩ := ih rfl
    exact ⟨_, w, More.cons hw₁ hw₂ hf hm, hw, by simp⟩

theorem closes_of_more : ∀ {t t₂ : List Char} {u : List Shape}, More t t₂ u → ∀ (cur : List Shape)
    {w r : List Char} {par out : List Shape} {outer : List (List Shape)}, t₂ = w ++ '>' :: r → Blanks w →
      Closes ((par ++ [.nested (cur ++ u)]) :: outer) r out → Closes (cur :: par :: outer) t out
  | _, _, _, .nil, _, _, _, _, _, _, rfl, hw, hc => Closes.close hw (by simpa using hc)
  | _, _, _, .cons hw₁ hw₂ hf hm, cur, _, _, _, _, _, ht, hw, hc =>
    Closes.next hw₁ hw₂ hf (closes_of_more hm (cur ++ _) ht hw (by simpa using hc))

theorem closes_top_of_more : ∀ {t w : List Char} {u : List Shape}, More t w u → Blanks w →
    ∀ (cur : List Shape), Closes [cur] t (cur ++ u)
  | _, _, _, .nil, hw, _ => by simpa using Closes.done hw
  | _, _, _, .cons (f := f) hw₁ hw₂ hf hm, hw, cur => by
    have h := closes_top_of_more hm hw (cur ++ .leaf .delimiter "," :: f)
    rw [List.append_assoc, List.cons_append] at h
    exact Closes.next hw₁ hw₂ hf h

/-- After a complete field definition, the text goes on with a comma, a `>` or nothing but blanks. -/
theorem Closes.first {frames : List (List Shape)} {t : List Char} {out : List Shape} (h : Closes frames t out) :
    ∀ x y, t.dropWhile isBlank = x :: y → x = ',' ∨ x = '>' := by
  intro x y hx
  cases h with
  | done hw => rw [(dropWhile_blanks hw).1] at hx; cases hx
  | close hw _ =>
    rw [(dropWhile_blanks_cons hw (by decide)).1] at hx
    simp only [List.cons.injEq] at hx
    exact .inr hx.1.symm
  | next hw₁ _ _ _ =>
    rw [(dropWhile_blanks_cons hw₁ (by decide)).1] at hx
    simp only [List.cons.injEq] at hx
    exact .inl hx.1.symm

/-- The text after the identifiers of a field goes on with punctuation. -/
theorem Suffix.punctuated {t r : List Char} {s : List Shape} (h : Suffix t r s)
    (hr : ∀ x y, r.dropWhile isBlank = x :: y → x = ',' ∨ x = '>') : Punctuated t := by
  intro x y hx
  cases h with
  | none => rcases hr x y hx with h | h <;> simp [h]
  | length hw _ =>
    rw [(dropWhile_blanks_cons hw (by decide)).1] at hx
    simp only [List.cons.injEq] at hx
    exact .inl hx.1.symm
  | nested hw₁ _ _ _ _ =>
    rw [(dropWhile_blanks_cons hw₁ (by decide)).1] at hx
    simp only [List.cons.injEq] at hx
    exact .inr (.inl hx.1.symm)

end Grammar

namespace Reading

/-- the shapes read so far in each open region, innermost first, the top level last -/
def frames (st : Reading) : List (List Shape) :=
  st.regions.map (fun r => listShape r.tokens.reverse) ++ [listShape st.top.reverse]

theorem frames_push (t : Token) (st : Reading) : (st.push t).frames = addTo st.frames [t.shape] := by
  obtain ⟨top, _ | ⟨r, rs⟩⟩ := st <;> simp [push, frames, addTo, listShape_eq_map]

theorem frames_top {st : Reading} (hs : st.regions = []) : st.frames = [listShape st.top.reverse] := by
  simp [frames, hs]

theorem frames_region {st : Reading} {reg : Region} {outer : List Region} (hs : st.regions = reg :: outer) :
    st.frames = listShape reg.tokens.reverse :: (Reading.mk st.top outer).frames := by
  simp [frames, hs]

theorem frames_eq_cons (st : Reading) : ∃ par outer, st.frames = par :: outer := by
  cases h : st.regions with
  | nil => exact ⟨_, _, frames_top h⟩
  | cons reg outer => exact ⟨_, _, frames_region h⟩

theorem frames_pushAll (ts : List Token) (st : Reading) : (st.pushAll ts).frames = addTo st.frames (listShape ts) := by
  induction ts generalizing st with
  | nil =>
    obtain ⟨par, outer, h⟩ := frames_eq_cons st
    simp [pushAll, listShape, h]
  | cons t ts ih =>
    change (pushAll ts (st.push t)).frames = _
    rw [ih, frames_push, addTo_addTo]
    simp [listShape_eq_map]

theorem frames_openAt (a : Nat) (st : Reading) : (st.openAt a).frames = [] :: st.frames := by
  simp [openAt, frames, listShape]

@[simp] theorem frames_initial : initial.frames = [[]] := rfl

theorem regions_eq_nil_of_frames {st : Reading} {cur : List Shape} (h : st.frames = [cur]) :
    st.regions = [] ∧ cur = listShape st.top.reverse := by
  cases hs : st.regions with
  | nil => simpa [frames_top hs, eq_comm] using h
  | cons reg outer =>
    obtain ⟨par, outer', h'⟩ := frames_eq_cons (Reading.mk st.top outer)
    rw [frames_region hs, h'] at h
    simp at h

end Reading

/-! ## The identifiers against the grammar -/

/-- What the identifiers read are. -/
theorem typeNames_names {pos q : Nat} {c : Char} {r rest : List Char} {names : List Token}
    (hc : isIdentStart c = true) (h : typeNames pos c r = (names, q, rest)) :
    Names (c :: r) rest (listShape names) := by
  rcases identifiers_split r with ⟨l, t, rfl, hl, ht, hla⟩ | ⟨n, b, w, d, l, t, rfl, hn, hb, hw, hd, hl, ht⟩
  · rw [typeNames_type hl ht hla] at h
    simp only [Prod.mk.injEq] at h
    obtain ⟨rfl, -, rfl⟩ := h
    simpa [listShape, Token.shape] using Names.type (r := t) (isIdent_cons hc hl)
  · rw [typeNames_named hn hb hw hd hl ht] at h
    simp only [Prod.mk.injEq] at h
    obtain ⟨rfl, -, rfl⟩ := h
    simpa [listShape, Token.shape] using Names.named (r := t) (isIdent_cons hc hn) hb hw (isIdent_cons hd hl)

/-- The identifiers of a derivation are read, when punctuation follows them. -/
theorem names_read {t t' : List Char} {h : List Shape} (pos : Nat) (hn : Names t t' h) (hp : Punctuated t') :
    ∃ c r names q, t = c :: r ∧ isIdentStart c = true ∧ typeNames pos c r = (names, q, t') ∧
      listShape names = h := by
  obtain ⟨ht, hla⟩ := hp.stops
  cases hn with
  | @type l _ hl =>
    cases l with
    | nil => exact hl.elim
    | cons c l =>
      exact ⟨c, l ++ t', _, _, rfl, hl.1, typeNames_type hl.2 ht hla, by simp [listShape, Token.shape]⟩
  | @named n b w l _ hn hb hw hl =>
    cases n with
    | nil => exact hn.elim
    | cons c n =>
      cases l with
      | nil => exact hl.elim
      | cons d l =>
        exact ⟨c, n ++ b :: (w ++ d :: (l ++ t')), _, _, by simp, hn.1, typeNames_named hn.2 hb hw hl.1 hl.2 ht,
          by simp [listShape, Token.shape]⟩

/-- A field definition starts with an identifier. -/
theorem Grammar.Field.head {t r : List Char} {f : List Shape} (h : Field t r f) :
    ∃ c x, t = c :: x ∧ isIdentStart c = true := by
  obtain ⟨hn, -⟩ := h
  cases hn with
  | @type l _ hl =>
    cases l with
    | nil => exact hl.elim
    | cons c l => exact ⟨c, _, rfl, hl.1⟩
  | @named n _ _ _ _ hn =>
    cases n with
    | nil => exact hn.elim
    | cons c n => exact ⟨c, _, rfl, hn.1⟩

/-! ## Soundness: a run that returns tokens follows a derivation -/

theorem reader_sound (len : Nat) :
    (∀ st pos cs ts, fieldAt len st pos cs = .ok ts → Opens st.frames cs (listShape ts)) ∧
    (∀ st pos cs ts, closeAt len st pos cs = .ok ts → Closes st.frames cs (listShape ts)) := by
  refine fieldAt.mutual_induct
    (fun st pos cs => ∀ ts, fieldAt len st pos cs = .ok ts → Opens st.frames cs (listShape ts))
    (fun st pos cs => ∀ ts, closeAt len st pos cs = .ok ts → Closes st.frames cs (listShape ts))
    ?_ ?_ ?_ ?_ ?_ ?_ ?_ ?_ ?_ ?_ ?_ ?_ ?_
  -- the seven branches of `fieldAt`: four errors, and a field with a length, a nested region or nothing after it
  · intro st pos cs hd ts h
    rw [fieldAt_end hd] at h
    cases h
  · intro st pos cs p c r hd hc names q rest hn r3 hr hp ts h
    rw [fieldAt_unclosedParen hd hc hn hr hp] at h
    cases h
  · intro st pos cs p c r hd hc names q rest hn r3 hr inner r4 hp hi ts h
    rw [fieldAt_emptyLength hd hc hn hr hp hi] at h
    cases h
  · intro st pos cs p c r hd hc names q rest hn st' a r3 hr inner r4 hp stop hi ih ts h
    rw [fieldAt_length hd hc hn hr hp hi] at h
    have hcl := ih ts h
    rw [Reading.frames_push, Reading.frames_pushAll, addTo_addTo] at hcl
    refine ⟨cs.takeWhile isBlank, c :: r, r4, _, blanks_takeWhile cs, eq_blanks_append hd,
      Grammar.Field.mk (typeNames_names hc hn) ?_, hcl⟩
    rw [eq_blanks_append hr, closeParen_eq_some hp]
    exact Suffix.length (blanks_takeWhile rest) ⟨balanced_iff_nests.2 (nests_of_closeParen hp), hi⟩
  · intro st pos cs p c r hd hc names q rest hn st' a r3 hr ih ts h
    rw [fieldAt_open hd hc hn hr] at h
    obtain ⟨w, t, t', f, hw, rfl, hf, hcl⟩ := ih ts h
    obtain ⟨par, outer, hF⟩ := Reading.frames_eq_cons st
    rw [Reading.frames_openAt, Reading.frames_pushAll, hF, addTo_cons, addTo_cons, List.nil_append] at hcl
    -- the fields of the region up to its `>` are the nested suffix of the field that opened it
    obtain ⟨u, w₃, r', hm, hw₃, hcl'⟩ := closes_region hcl
    refine ⟨cs.takeWhile isBlank, c :: r, r', listShape names ++ [.nested (f ++ u)], blanks_takeWhile cs,
      eq_blanks_append hd, Grammar.Field.mk (typeNames_names hc hn) ?_, ?_⟩
    · rw [eq_blanks_append hr]
      exact Suffix.nested (blanks_takeWhile rest) hw hf hm hw₃
    · rw [hF, addTo_cons]
      simpa using hcl'
  · intro st pos cs p c r hd hc names q rest hn st' h1 h2 ih ts h
    rw [fieldAt_plain hd hc hn h1 h2] at h
    have hcl := ih ts h
    rw [Reading.frames_pushAll] at hcl
    exact ⟨cs.takeWhile isBlank, c :: r, rest, _, blanks_takeWhile cs, eq_blanks_append hd,
      by simpa using Grammar.Field.mk (typeNames_names hc hn) Suffix.none, hcl⟩
  · intro st pos cs c r hd hc ts h
    rw [fieldAt_notIdent hd hc] at h
    cases h
  -- the six branches of `closeAt`: the end, a comma, a `>` that closes a region, and three errors
  · intro st pos cs hd hs ts h
    rw [closeAt_end_top hd hs] at h
    cases h
    rw [Reading.frames_top hs]
    exact Closes.done (blanks_of_dropWhile_nil hd)
  · intro st pos cs hd reg tail hs ts h
    rw [closeAt_end_region hd hs] at h
    cases h
  · intro st pos cs p r hd ih ts h
    rw [closeAt_comma hd] at h
    obtain ⟨w, t, t', f, hw, rfl, hf, hcl⟩ := ih ts h
    rw [Reading.frames_push, addTo_addTo] at hcl
    rw [eq_blanks_append hd]
    exact Closes.next (blanks_takeWhile cs) hw hf hcl
  · intro st pos cs r hs hd _ ts h
    rw [closeAt_stray hs hd] at h
    cases h
  · intro st pos cs p r reg tail hs hd _ ih ts h
    rw [closeAt_close hs hd] at h
    have hcl := ih ts h
    obtain ⟨par, outer, hF⟩ := Reading.frames_eq_cons (Reading.mk st.top tail)
    rw [Reading.frames_push, hF, addTo_cons] at hcl
    rw [Reading.frames_region hs, hF, eq_blanks_append hd]
    exact Closes.close (blanks_takeWhile cs) hcl
  · intro st pos cs c r hd h1 h2 ts h
    rw [closeAt_other hd h1 h2] at h
    cases h

/-! ## Completeness: a derivation is read -/

theorem reader_complete (len : Nat) (cs : List Char) :
    (∀ st pos out, Opens st.frames cs out → ∃ ts, fieldAt len st pos cs = .ok ts ∧ listShape ts = out) ∧
    (∀ st pos out, Closes st.frames cs out → ∃ ts, closeAt len st pos cs = .ok ts ∧ listShape ts = out) := by
  refine ⟨fun st pos out h => ?_, fun st pos out h => ?_⟩
  · obtain ⟨w, t, t', f, hw, hcs, hf, hcl⟩ := h
    cases hf with | @mk _ m _ _ _ hn hs => ?_
    obtain ⟨c, r, names, q, rfl, hc, htn, hsh⟩ := names_read (pos + w.length) hn (hs.punctuated hcl.first)
    have hd := dropWhile_blanks_cons (r := r) hw (isBlank_eq_false_of_isIdentChar (isIdentChar_of_isIdentStart hc))
    have hrest : m.length ≤ r.length := by simpa [htn] using length_typeNames_le (pos + w.length) c r
    rw [← hd.2] at htn
    rw [hcs]
    obtain ⟨par, outer, hF⟩ := Reading.frames_eq_cons st
    -- the machine's branch is the one the suffix of the derivation names
    cases hs with
    | none =>
      have hlt : t'.length < cs.length := by simp [hcs]; omega
      rw [fieldAt_plain hd.1 hc htn (fun r3 h3 => by have := hcl.first _ _ h3; simp at this)
        (fun r3 h3 => by have := hcl.first _ _ h3; simp at this)]
      exact (reader_complete len t').2 _ _ _ (by rw [Reading.frames_pushAll, hsh]; simpa using hcl)
    | @length w₂ l _ hw₂ hl =>
      have hlt : t'.length < cs.length := by simp [hcs] at hrest ⊢; omega
      rw [fieldAt_length hd.1 hc htn (dropWhile_blanks_cons hw₂ (by decide)).1
        (closeParen_append (balanced_iff_nests.1 hl.1)) hl.2]
      refine (reader_complete len t').2 _ _ _ ?_
      rw [Reading.frames_push, Reading.frames_pushAll, addTo_addTo, hsh]
      exact hcl
    | @nested w₂ w₃ w₄ t₀ t₀' _ f₀ u hw₂ hw₃ hf₀ hm hw₄ =>
      have hlt : (w₃ ++ t₀).length < cs.length := by simp [hcs] at hrest ⊢; omega
      rw [fieldAt_open hd.1 hc htn (dropWhile_blanks_cons hw₂ (by decide)).1]
      refine (reader_complete len (w₃ ++ t₀)).1 _ _ _ ⟨w₃, t₀, t₀', f₀, hw₃, rfl, hf₀, ?_⟩
      rw [Reading.frames_openAt, Reading.frames_pushAll, hF, hsh, addTo_cons, addTo_cons, List.nil_append]
      -- the fields after the first, up to the `>`, close the region into the field's nested suffix
      refine closes_of_more hm _ rfl hw₄ ?_
      rw [hF, addTo_cons] at hcl
      simpa using hcl
  · generalize hF : st.frames = frames at h
    generalize hcs : cs = t at h
    cases h with
    | @done w cur hw =>
      obtain ⟨hs, rfl⟩ := Reading.regions_eq_nil_of_frames hF
      exact ⟨_, closeAt_end_top (dropWhile_blanks hw).1 hs, rfl⟩
    | @close w r cur par outer _ hw hc =>
      cases hs : st.regions with
      | nil =>
        rw [Reading.frames_top hs] at hF
        simp at hF
      | cons reg tail =>
        have hF' := Reading.frames_region hs
        rw [hF] at hF'
        simp only [List.cons.injEq] at hF'
        have hlt : r.length < (w ++ '>' :: r).length := by simp; omega
        rw [closeAt_close hs (dropWhile_blanks_cons hw (by decide)).1]
        refine (reader_complete len r).2 _ _ _ ?_
        rw [Reading.frames_push, ← hF'.2, addTo_cons]
        rw [hF'.1] at hc
        simpa [Token.shape] using hc
    | @next w₁ w₂ t t' _ f _ hw₁ hw₂ hf hc =>
      have hlt : (w₂ ++ t).length < (w₁ ++ ',' :: (w₂ ++ t)).length := by simp; omega
      rw [closeAt_comma (dropWhile_blanks_cons hw₁ (by decide)).1]
      exact (reader_complete len (w₂ ++ t)).1 _ _ _
        ⟨w₂, t, t', f, hw₂, rfl, hf, by rw [Reading.frames_push, addTo_addTo, hF]; exact hc⟩
termination_by cs.length
decreasing_by all_goals omega

/-! ## The tokenizer -/

/-- A declaration that `tokenize` reads follows a derivation of the grammar with the shapes of its tokens. -/
theorem tokenize_declares {s : String} {ts : List Token} (h : tokenize s = .ok ts) :
    Declares s.toList (listShape ts) := by
  dsimp only [tokenize] at h
  split at h
  · cases h
  · obtain ⟨w, t, t', f, hw, hcs, hf, hcl⟩ := (reader_sound s.toList.length).1 _ _ _ _ h
    rw [Reading.frames_initial, addTo_cons, List.nil_append] at hcl
    obtain ⟨u, w', hm, hw', hout⟩ := closes_top hcl
    exact ⟨w, w', t, hw, hw', hcs, t', f, u, hf, hm, by simpa using hout⟩

/-- A derivation of the grammar is read by `tokenize`, into tokens of the shapes it yields. -/
theorem tokenize_of_declares {s : String} {out : List Shape} (h : Declares s.toList out) :
    ∃ ts, tokenize s = .ok ts ∧ listShape ts = out := by
  obtain ⟨w, w', t, hw, hw', hcs, t', f, u, hf, hm, rfl⟩ := h
  -- the field that the declaration opens with is not blank
  have hblank : s.toList.all isBlank = false := by
    obtain ⟨c, x, rfl, hc⟩ := hf.head
    rw [hcs, List.all_eq_false]
    exact ⟨c, by simp, by simp [isBlank_eq_false_of_isIdentChar (isIdentChar_of_isIdentStart hc)]⟩
  dsimp only [tokenize]
  simp only [hblank, Bool.false_eq_true, ↓reduceIte]
  refine (reader_complete _ _).1 _ _ _ ⟨w, t, t', f, hw, hcs, hf, ?_⟩
  simpa using closes_top_of_more hm hw' f

/-- `tokenize` returns tokens exactly on the declarations of the grammar. -/
theorem tokenize_ok_iff_decl (s : String) : (∃ ts, tokenize s = .ok ts) ↔ Decl s.toList := by
  constructor
  · rintro ⟨ts, h⟩
    exact ⟨_, tokenize_declares h⟩
  · rintro ⟨out, h⟩
    obtain ⟨ts, h, -⟩ := tokenize_of_declares h
    exact ⟨ts, h⟩

end ColumnDecl
