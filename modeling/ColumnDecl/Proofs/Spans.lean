import ColumnDecl.Proofs.Composition

/-
Where the tokens of a declaration stand in its text.

Every token of a tree that `tokenize` returns covers, at the offsets of its span, what its kind says: a NAME or a TYPE
its lexeme, with no identifier character just before or after it; a LENGTH its lexeme, between a `(` and a `)`; a
FIELD_DELIMITER a comma; a NESTED a `<` and a `>` with its children between them. Within each region the tokens come
in order, each ending before the next starts, and a NESTED token comes right after the TYPE of its field.

- `Token.Faithful`: the facts of one token, as offsets into the text;
- `FieldRun.spans`: they hold of the tokens of a run placed in a text, and those tokens lie in order within the run's
  text (`RegionSpans`);
- `FieldRun.type_before_nested`: each NESTED token of a run comes right after a TYPE token;
- `tokenize_spans`: the facts of every token the walk visits, and the order within every region.
-/

namespace ColumnDecl

open Scan Grammar

/-! ## The facts of one token -/

namespace Token

/-- What the text `s` holds at the offsets `a` to `b` of a token, as its kind says: a NAME or a TYPE its lexeme,
between characters that are not identifier characters where there are any; a LENGTH its lexeme, between `(` and `)`;
a FIELD_DELIMITER one `,`; a NESTED a `<` and a `>`, with the spans of its children between them. -/
def StandsAt (s : String) (a b : Nat) : Token → Prop
  | .leaf .name l _ | .leaf .type l _ =>
    Span.text ⟨a, b⟩ s = l ∧ (a = 0 ∨ ∃ c, s.toList[a - 1]? = some c ∧ isIdentChar c = false) ∧
      (b = s.length ∨ ∃ c, s.toList[b]? = some c ∧ isIdentChar c = false)
  | .leaf .length l _ => Span.text ⟨a, b⟩ s = l ∧ 0 < a ∧ s.toList[a - 1]? = some '(' ∧ s.toList[b]? = some ')'
  | .leaf .delimiter _ _ => b = a + 1 ∧ s.toList[a]? = some ','
  | .nested cs _ => s.toList[a]? = some '<' ∧ s.toList[b - 1]? = some '>' ∧
      ∀ t ∈ cs, (a : Int) + 1 ≤ t.span.start ∧ t.span.stop ≤ (b : Int) - 1

/-- The token stands in the text `s` where its span says: the span is not empty, lies within the text, and covers
what the token's kind says. -/
def Faithful (s : String) (t : Token) : Prop :=
  ∃ a b : Nat, t.span = ⟨a, b⟩ ∧ a < b ∧ b ≤ s.length ∧ t.StandsAt s a b

end Token

theorem Span.eq_mk {sp : Span} {a b : Int} (h : sp.start = a ∧ sp.stop = b) : sp = ⟨a, b⟩ := by
  cases sp
  simp_all

/-! ## The facts from where a token's text stands -/

section Intro

variable {s : String}

theorem stops_append {p : Char → Bool} {a b : List Char} (ha : Stops p a) (hb : Stops p b) : Stops p (a ++ b) := by
  cases a with
  | nil => exact hb
  | cons x a => exact stops_cons.2 (stops_cons.1 ha)

theorem isIdentChar_eq_false_of_isBlank {c : Char} (h : isBlank c = true) : isIdentChar c = false := by
  cases hi : isIdentChar c
  · rfl
  · rw [isBlank_eq_false_of_isIdentChar hi] at h
    cases h

/-- A character that no identifier takes keeps an identifier from reaching back past it. -/
theorem stops_reverse_concat {P : List Char} {c : Char} (h : isIdentChar c = false) :
    Stops isIdentChar (P ++ [c]).reverse := by
  rw [List.reverse_append, List.reverse_singleton, List.singleton_append, stops_cons]
  exact h

/-- Blanks after a text keep an identifier from reaching back into it. -/
theorem stops_reverse_blanks {P w : List Char} (hw : Blanks w) (hP : Stops isIdentChar P.reverse) :
    Stops isIdentChar (P ++ w).reverse := by
  rcases List.eq_nil_or_concat w with rfl | ⟨w', x, rfl⟩
  · simpa using hP
  · rw [List.concat_eq_append] at hw ⊢
    rw [← List.append_assoc]
    exact stops_reverse_concat (isIdentChar_eq_false_of_isBlank (hw x (by simp)))

/-- The character before a text, if there is one, as a text that stops identifiers says. -/
theorem before_of_stops {P X : List Char} (hP : Stops isIdentChar P.reverse) :
    P.length = 0 ∨ ∃ c, (P ++ X)[P.length - 1]? = some c ∧ isIdentChar c = false := by
  rcases List.eq_nil_or_concat P with rfl | ⟨P', x, rfl⟩
  · exact .inl rfl
  · refine .inr ⟨x, by simp, hP x P'.reverse (by simp)⟩

/-- The character after a text, if there is one, as a text that stops identifiers says. -/
theorem after_of_stops {Q Z : List Char} (hZ : Stops isIdentChar Z) :
    Q.length = (Q ++ Z).length ∨ ∃ c, (Q ++ Z)[Q.length]? = some c ∧ isIdentChar c = false := by
  cases Z with
  | nil => exact .inl (by simp)
  | cons z Z => exact .inr ⟨z, by simp, stops_cons.1 hZ⟩

theorem getElem?_at (Q : List Char) (c : Char) (Z : List Char) {i : Nat} (hi : i = Q.length) :
    (Q ++ c :: Z)[i]? = some c := by
  subst hi
  simp

theorem length_eq_of_toList {X : List Char} (hs : s.toList = X) : s.length = X.length := by
  rw [← String.length_toList, hs]

theorem faithful_ident {k : LeafKind} {sp : Span} {P l Z : List Char} (hk : k = .name ∨ k = .type)
    (hs : s.toList = P ++ l ++ Z) (hsp : sp.start = P.length ∧ sp.stop = P.length + l.length) (hl : l ≠ [])
    (hP : Stops isIdentChar P.reverse) (hZ : Stops isIdentChar Z) :
    (Token.leaf k (String.ofList l) sp).Faithful s := by
  have hlen := length_eq_of_toList hs
  have hpos := List.length_pos_iff.2 hl
  simp only [List.length_append] at hlen
  have htext : Span.text ⟨P.length, (P.length + l.length : Nat)⟩ s = String.ofList l := by
    rw [Span.text, hs, Int.natCast_add, Span.chars_append]
  have hb := before_of_stops (X := l ++ Z) hP
  have ha := after_of_stops (Q := P ++ l) hZ
  rw [← hs, List.length_append, String.length_toList] at ha
  rw [← List.append_assoc, ← hs] at hb
  refine ⟨P.length, P.length + l.length, Span.eq_mk (by simp [Token.span, hsp]), by omega, by omega, ?_⟩
  rcases hk with rfl | rfl
  · exact ⟨htext, hb, ha⟩
  · exact ⟨htext, hb, ha⟩

theorem faithful_length {sp : Span} {P l Z : List Char} (hs : s.toList = P ++ '(' :: (l ++ ')' :: Z))
    (hsp : sp.start = P.length + 1 ∧ sp.stop = P.length + 1 + l.length) (hl : l ≠ []) :
    (Token.leaf .length (String.ofList l) sp).Faithful s := by
  have hlen := length_eq_of_toList hs
  have hpos := List.length_pos_iff.2 hl
  simp only [List.length_append, List.length_cons] at hlen
  have htext : Span.text ⟨(P.length + 1 : Nat), (P.length + 1 + l.length : Nat)⟩ s = String.ofList l := by
    have h := Span.chars_append (P ++ ['(']) l (')' :: Z)
    simp only [List.length_append, List.length_singleton, List.append_assoc, List.cons_append,
      List.nil_append] at h
    rw [Span.text, hs, Int.natCast_add (P.length + 1), h]
  refine ⟨P.length + 1, P.length + 1 + l.length, Span.eq_mk (by simp [Token.span, hsp]), by omega, by omega, htext,
    by omega, by rw [hs]; exact getElem?_at P '(' _ (by omega), ?_⟩
  rw [hs, show P ++ '(' :: (l ++ ')' :: Z) = (P ++ '(' :: l) ++ ')' :: Z by simp]
  exact getElem?_at _ ')' Z (by simp; omega)

theorem faithful_delimiter {sp : Span} {P Z : List Char} (hs : s.toList = P ++ ',' :: Z)
    (hsp : sp.start = P.length ∧ sp.stop = P.length + 1) : (Token.leaf .delimiter "," sp).Faithful s := by
  have hlen := length_eq_of_toList hs
  simp only [List.length_append, List.length_cons] at hlen
  exact ⟨P.length, P.length + 1, Span.eq_mk (by simp [Token.span, hsp]), by omega, by omega, rfl,
    by rw [hs]; exact getElem?_at P ',' Z rfl⟩

theorem faithful_nested {sp : Span} {P I Z : List Char} {cs : List Token}
    (hs : s.toList = P ++ '<' :: (I ++ '>' :: Z)) (hsp : sp.start = P.length ∧ sp.stop = P.length + 1 + I.length + 1)
    (hcs : ∀ t ∈ cs, (P.length : Int) + 1 ≤ t.span.start ∧ t.span.stop ≤ P.length + 1 + I.length) :
    (Token.nested cs sp).Faithful s := by
  have hlen := length_eq_of_toList hs
  simp only [List.length_append, List.length_cons] at hlen
  refine ⟨P.length, P.length + 1 + I.length + 1, Span.eq_mk (by simp [Token.span, hsp]), by omega, by omega,
    by rw [hs]; exact getElem?_at P '<' _ rfl, ?_, fun t ht => ?_⟩
  · rw [hs, show P ++ '<' :: (I ++ '>' :: Z) = (P ++ '<' :: I) ++ '>' :: Z by simp]
    exact getElem?_at _ '>' Z (by simp; omega)
  · have := hcs t ht
    constructor <;> omega

end Intro

/-! ## The tokens of a region -/

/-- The tokens of one region of the text `s`, read from the offsets `lo` to `hi`: each stands in `s` where its span
says and lies within the region, and each ends before the next starts. -/
structure RegionSpans (s : String) (lo hi : Nat) (ts : List Token) : Prop where
  faithful : ∀ t ∈ ts, t.Faithful s
  within : ∀ t ∈ ts, (lo : Int) ≤ t.span.start ∧ t.span.stop ≤ hi
  ordered : ts.Pairwise (fun x y => x.span.stop ≤ y.span.start)

namespace RegionSpans

variable {s : String} {lo hi : Nat} {ts : List Token}

theorem nil : RegionSpans s lo hi [] := ⟨by simp, by simp, .nil⟩

theorem mono {lo' hi' : Nat} (h : RegionSpans s lo hi ts) (hlo : lo' ≤ lo) (hhi : hi ≤ hi') :
    RegionSpans s lo' hi' ts :=
  ⟨h.faithful, fun t ht => by have := h.within t ht; omega, h.ordered⟩

/-- The tokens of two stretches of text, one after the other. -/
theorem append {m : Nat} {a b : List Token} (ha : RegionSpans s lo m a) (hb : RegionSpans s m hi b) (hlo : lo ≤ m)
    (hhi : m ≤ hi) : RegionSpans s lo hi (a ++ b) := by
  refine ⟨List.forall_mem_append.2 ⟨ha.faithful, hb.faithful⟩, fun t ht => ?_,
    List.pairwise_append.2 ⟨ha.ordered, hb.ordered, fun x hx y hy => ?_⟩⟩
  · rcases List.mem_append.1 ht with ht | ht
    · have := ha.within t ht
      omega
    · have := hb.within t ht
      omega
  · have := ha.within x hx
    have := hb.within y hy
    omega

/-- One token, and after it the tokens of the rest of a region. -/
theorem cons {m : Nat} {t : Token} (ht : t.Faithful s) (hw : (lo : Int) ≤ t.span.start ∧ t.span.stop ≤ m)
    (h : RegionSpans s m hi ts) (hlo : lo ≤ m) (hhi : m ≤ hi) : RegionSpans s lo hi (t :: ts) :=
  append (a := [t]) ⟨by simpa using ht, by simpa using hw, List.pairwise_singleton _ _⟩ h hlo hhi

/-- Two tokens next to each other in a region: the first ends before the second starts. -/
theorem adjacent (h : RegionSpans s lo hi ts) {L R : List Token} {x y : Token} (hts : ts = L ++ x :: y :: R) :
    x.span.stop ≤ y.span.start := by
  have ho := h.ordered
  rw [hts, List.pairwise_append, List.pairwise_cons] at ho
  exact ho.2.1.1 y (by simp)

end RegionSpans

/-! ## The identifiers of a field definition -/

section Names

variable {p q : Nat} {c : Char} {r rest : List Char} {names : List Token}

/-- What follows the identifiers does not go on with an identifier character. -/
theorem typeNames_stops (h : typeNames p c r = (names, q, rest)) : Stops isIdentChar rest := by
  rcases identifiers_split r with ⟨l, t, rfl, hl, ht, hla⟩ | ⟨n, b, w, e, l, t, rfl, hn, hb, hw, he, hl, ht⟩
  · rw [typeNames_type hl ht hla] at h
    simp only [Prod.mk.injEq] at h
    exact h.2.2 ▸ ht
  · rw [typeNames_named hn hb hw he hl ht] at h
    simp only [Prod.mk.injEq] at h
    exact h.2.2 ▸ ht

/-- The identifiers of a field definition end with its TYPE. -/
theorem typeNames_last (h : typeNames p c r = (names, q, rest)) : ∃ L l sp, names = L ++ [.leaf .type l sp] := by
  rcases identifiers_split r with ⟨l, t, rfl, hl, ht, hla⟩ | ⟨n, b, w, e, l, t, rfl, hn, hb, hw, he, hl, ht⟩
  · rw [typeNames_type hl ht hla] at h
    simp only [Prod.mk.injEq] at h
    exact ⟨[], _, _, h.1.symm⟩
  · rw [typeNames_named hn hb hw he hl ht] at h
    simp only [Prod.mk.injEq] at h
    exact ⟨[_], _, _, h.1.symm⟩

/-- The identifiers read at the offset where they stand in a text cover their lexemes there, in order. -/
theorem typeNames_spans {s : String} {P Z : List Char} (hs : s.toList = P ++ c :: (r ++ Z))
    (hP : Stops isIdentChar P.reverse) (hn : typeNames P.length c r = (names, q, rest))
    (hZ : Stops isIdentChar (rest ++ Z)) : RegionSpans s P.length q names := by
  rcases identifiers_split r with ⟨l, t, rfl, hl, ht, hla⟩ | ⟨n, b, w, e, l, t, rfl, hn', hb, hw, he, hl, ht⟩
  · rw [typeNames_type hl ht hla] at hn
    simp only [Prod.mk.injEq] at hn
    obtain ⟨rfl, rfl, rfl⟩ := hn
    have hf : (Token.leaf .type (String.ofList (c :: l)) ⟨P.length, P.length + (l.length + 1)⟩).Faithful s :=
      faithful_ident (.inr rfl) (by simp [hs]) (by simp) (by simp) hP hZ
    exact ⟨by simpa using hf, by simp [Token.span], List.pairwise_singleton _ _⟩
  · rw [typeNames_named hn' hb hw he hl ht] at hn
    simp only [Prod.mk.injEq] at hn
    obtain ⟨rfl, rfl, rfl⟩ := hn
    -- the name stops at the blank after it, the type after the blanks before it
    have hname : (Token.leaf .name (String.ofList (c :: n)) ⟨P.length, P.length + (n.length + 1)⟩).Faithful s :=
      faithful_ident (.inl rfl) (Z := b :: (w ++ e :: (l ++ t)) ++ Z) (by simp [hs]) (by simp) (by simp) hP
        (stops_cons.2 (isIdentChar_eq_false_of_isBlank hb))
    have htype : (Token.leaf .type (String.ofList (e :: l)) ⟨P.length + (n.length + 1) + (w.length + 1),
        P.length + (n.length + 1) + (w.length + 1) + (l.length + 1)⟩).Faithful s :=
      faithful_ident (.inr rfl) (P := P ++ c :: n ++ b :: w) (by simp [hs]) (by simp; omega) (by simp)
      (by rw [show P ++ c :: n ++ b :: w = (P ++ c :: n ++ [b]) ++ w by simp]
          exact stops_reverse_blanks hw (stops_reverse_concat (isIdentChar_eq_false_of_isBlank hb))) hZ
    refine ⟨fun t ht => ?_, fun t ht => ?_, ?_⟩
    · simp only [List.mem_cons, List.not_mem_nil, or_false] at ht
      rcases ht with rfl | rfl
      · exact hname
      · exact htype
    · simp only [List.mem_cons, List.not_mem_nil, or_false] at ht
      rcases ht with rfl | rfl <;> simp [Token.span] <;> omega
    · simp [Token.span]
      omega

/-- The identifiers of a field definition whose text stands in `s` after `P`. -/
theorem head_spans {s : String} {pos q : Nat} {P cs Z r rest : List Char} {c : Char} {names : List Token}
    (hs : s.toList = P ++ cs ++ Z) (hP : P.length = pos) (hPs : Stops isIdentChar P.reverse)
    (hZ : Stops isIdentChar Z) (hd : cs.dropWhile isBlank = c :: r)
    (hn : typeNames (pos + (cs.takeWhile isBlank).length) c r = (names, q, rest)) : RegionSpans s pos q names := by
  rw [eq_blanks_append hd] at hs
  have hlen : pos + (cs.takeWhile isBlank).length = (P ++ cs.takeWhile isBlank).length := by simp [hP]
  rw [hlen] at hn
  have h := typeNames_spans (by rw [hs]; simp) (stops_reverse_blanks (blanks_takeWhile cs) hPs) hn
    (stops_append (typeNames_stops hn) hZ)
  exact h.mono (by omega) (Nat.le_refl q)

end Names

/-! ## The tokens of a run -/

theorem ne_nil_of_trimChars {inner : List Char} (hi : ¬Text.trimChars inner = []) : inner ≠ [] := by
  rintro rfl
  exact hi rfl

mutual
/-- The tokens of a run whose text stands in `s` after `P` and before `Z`, where no identifier reaches across either
end: each stands where its span says, and they lie in order within the run's text. -/
theorem FieldRun.spans {s : String} {pos : Nat} {cs : List Char} {ts : List Token} :
    FieldRun pos cs ts → ∀ {P Z : List Char}, s.toList = P ++ cs ++ Z → P.length = pos →
      Stops isIdentChar P.reverse → Stops isIdentChar Z → RegionSpans s pos (pos + cs.length) ts
  | @FieldRun.plain _ q _ _ rest _ _ _ hd _ hn _ _ hcl, P, Z, hs, hP, hPs, hZ => by
    have hnames := head_spans hs hP hPs hZ hd hn
    obtain ⟨H, hH, hq⟩ := head_text hd hn
    rw [hH] at hs
    have hrest := CloseRun.spans hcl (P := P ++ H) (by rw [hs]; simp) (by simp; omega) hZ
    have e : pos + cs.length = q + rest.length := by rw [hH]; simp; omega
    rw [e]
    exact hnames.append hrest (by omega) (by omega)
  | @FieldRun.length _ q a _ _ rest _ inner r4 _ names ts hd _ hn ha hr hp hi hcl, P, Z, hs, hP, hPs, hZ => by
    have hnames := head_spans hs hP hPs hZ hd hn
    obtain ⟨H, hH, hq⟩ := head_text hd hn
    -- the text of the field: its head, the blanks before `(`, the length, `)` and what follows
    have hcs : cs = (H ++ rest.takeWhile isBlank) ++ '(' :: (inner ++ ')' :: r4) := by
      rw [hH, List.append_assoc, ← closeParen_eq_some hp, ← hr, List.takeWhile_append_dropWhile]
    rw [hcs] at hs
    have hlen : (P ++ (H ++ rest.takeWhile isBlank)).length = a := by simp; omega
    have htok : (Token.leaf .length (String.ofList inner) ⟨a + 1, a + 1 + inner.length⟩).Faithful s :=
      faithful_length (P := P ++ (H ++ rest.takeWhile isBlank)) (Z := r4 ++ Z) (by rw [hs]; simp) (by dsimp only; omega)
        (ne_nil_of_trimChars hi)
    have hrest := CloseRun.spans hcl (P := P ++ (H ++ rest.takeWhile isBlank) ++ '(' :: (inner ++ [')'])) (Z := Z)
      (by rw [hs]; simp) (by simp; omega) hZ
    have e : pos + cs.length = a + 1 + inner.length + 1 + r4.length := by rw [hcs]; simp; omega
    rw [e]
    exact hnames.append (.cons htok (by simp [Token.span]; omega) hrest (by omega) (by omega)) (by omega) (by omega)
  | @FieldRun.nested _ q a _ _ rest I R _ names cs' ts hd _ hn ha hr hI hcl, P, Z, hs, hP, hPs, hZ => by
    have hnames := head_spans hs hP hPs hZ hd hn
    obtain ⟨H, hH, hq⟩ := head_text hd hn
    -- the text of the field: its head, the blanks before `<`, the region, `>` and what follows
    have hcs : cs = (H ++ rest.takeWhile isBlank) ++ '<' :: (I ++ '>' :: R) := by
      rw [hH, List.append_assoc, ← hr, List.takeWhile_append_dropWhile]
    rw [hcs] at hs
    have hlen : (P ++ (H ++ rest.takeWhile isBlank)).length = a := by simp; omega
    have hinner := FieldRun.spans hI (P := P ++ (H ++ rest.takeWhile isBlank) ++ ['<']) (Z := '>' :: (R ++ Z))
      (by rw [hs]; simp) (by simp; omega) (stops_reverse_concat (by decide)) (stops_cons.2 (by decide))
    have htok : (Token.nested cs' ⟨a, a + 1 + I.length + 1⟩).Faithful s :=
      faithful_nested (P := P ++ (H ++ rest.takeWhile isBlank)) (I := I) (Z := R ++ Z) (by rw [hs]; simp)
        (by dsimp only; omega)
        (fun t ht => by have := hinner.within t ht; omega)
    have hrest := CloseRun.spans hcl (P := P ++ (H ++ rest.takeWhile isBlank) ++ '<' :: (I ++ ['>'])) (Z := Z)
      (by rw [hs]; simp) (by simp; omega) hZ
    have e : pos + cs.length = a + 1 + I.length + 1 + R.length := by rw [hcs]; simp; omega
    rw [e]
    exact hnames.append (.cons htok (by simp [Token.span]; omega) hrest (by omega) (by omega)) (by omega) (by omega)

/-- The tokens of what follows a field definition, where its text stands in `s` after `P` and before `Z`. -/
theorem CloseRun.spans {s : String} {pos : Nat} {cs : List Char} {ts : List Token} :
    CloseRun pos cs ts → ∀ {P Z : List Char}, s.toList = P ++ cs ++ Z → P.length = pos → Stops isIdentChar Z →
      RegionSpans s pos (pos + cs.length) ts
  | .done _, _, _, _, _, _ => RegionSpans.nil
  | @CloseRun.comma _ p _ r _ hd hp hf, P, Z, hs, hP, hZ => by
    have hcs := eq_blanks_cons_append hd
    rw [hcs] at hs
    have htok : (Token.leaf .delimiter "," ⟨p, p + 1⟩).Faithful s :=
      faithful_delimiter (P := P ++ cs.takeWhile isBlank) (Z := r ++ Z) (by rw [hs]; simp) (by simp; omega)
    have hrest := FieldRun.spans hf (P := P ++ (cs.takeWhile isBlank ++ [','])) (by rw [hs]; simp) (by simp; omega)
      (by rw [← List.append_assoc]; exact stops_reverse_concat (by decide)) hZ
    have e : pos + cs.length = p + 1 + r.length := by rw [hcs]; simp; omega
    rw [e]
    exact .cons htok (by simp [Token.span]; omega) hrest (by omega) (by omega)
end


theorem Token.mem_listPreorder_of_mem {t : Token} : ∀ {ts : List Token}, t ∈ ts → t ∈ Token.listPreorder ts
  | x :: ts, hm => by
    simp only [Token.listPreorder, List.mem_append]
    rcases List.mem_cons.1 hm with rfl | hm
    · left
      cases t <;> simp [Token.preorder]
    · exact .inr (Token.mem_listPreorder_of_mem hm)

mutual
/-- Each NESTED token of a run comes right after the TYPE of its field. -/
theorem FieldRun.type_before_nested {pos : Nat} {cs : List Char} {ts : List Token} :
    FieldRun pos cs ts → ∀ {cs' : List Token} {sp : Span}, Token.nested cs' sp ∈ ts →
      ∃ L l sp' R, ts = L ++ .leaf .type l sp' :: .nested cs' sp :: R
  | @FieldRun.plain _ _ _ _ _ _ names _ _ _ hn _ _ hcl, _, _, hm => by
    rcases List.mem_append.1 hm with hm | hm
    · exact absurd (Token.mem_listPreorder_of_mem hm) (nested_not_mem_names hn _ _)
    · obtain ⟨L, l, sp', R, rfl⟩ := CloseRun.type_before_nested hcl hm
      exact ⟨names ++ L, l, sp', R, by simp⟩
  | @FieldRun.length _ _ a _ _ _ _ inner _ _ names _ _ _ hn _ _ _ _ hcl, _, _, hm => by
    simp only [List.mem_append, List.mem_cons, reduceCtorEq, false_or] at hm
    rcases hm with hm | hm
    · exact absurd (Token.mem_listPreorder_of_mem hm) (nested_not_mem_names hn _ _)
    · obtain ⟨L, l, sp', R, rfl⟩ := CloseRun.type_before_nested hcl hm
      exact ⟨names ++ .leaf .length (String.ofList inner) ⟨a + 1, a + 1 + inner.length⟩ :: L, l, sp', R, by simp⟩
  | @FieldRun.nested _ _ a _ _ _ I _ _ names cs'' ts _ _ hn _ _ _ hcl, _, _, hm => by
    simp only [List.mem_append, List.mem_cons, Token.nested.injEq] at hm
    rcases hm with hm | ⟨rfl, rfl⟩ | hm
    · exact absurd (Token.mem_listPreorder_of_mem hm) (nested_not_mem_names hn _ _)
    -- the region of this field: its TYPE is the last of its identifiers
    · obtain ⟨L, l, sp', rfl⟩ := typeNames_last hn
      exact ⟨L, l, sp', ts, by simp⟩
    · obtain ⟨L, l, sp', R, rfl⟩ := CloseRun.type_before_nested hcl hm
      exact ⟨names ++ .nested cs'' ⟨a, a + 1 + I.length + 1⟩ :: L, l, sp', R, by simp⟩

theorem CloseRun.type_before_nested {pos : Nat} {cs : List Char} {ts : List Token} :
    CloseRun pos cs ts → ∀ {cs' : List Token} {sp : Span}, Token.nested cs' sp ∈ ts →
      ∃ L l sp' R, ts = L ++ .leaf .type l sp' :: .nested cs' sp :: R
  | .done _, _, _, hm => by simp at hm
  | @CloseRun.comma _ p _ _ _ _ _ hf, _, _, hm => by
    simp only [List.mem_cons, reduceCtorEq, false_or] at hm
    obtain ⟨L, l, sp', R, rfl⟩ := FieldRun.type_before_nested hf hm
    exact ⟨.leaf .delimiter "," ⟨p, p + 1⟩ :: L, l, sp', R, rfl⟩
end

/-! ## The regions of a tree -/

mutual
/-- A token of the pre-order of a token is the token itself, or a child of a NESTED token of that pre-order. -/
theorem Token.mem_preorder : ∀ (t : Token) {x : Token}, x ∈ t.preorder →
    x = t ∨ ∃ cs sp, Token.nested cs sp ∈ t.preorder ∧ x ∈ cs
  | .leaf _ _ _, _, hm => by
    simp only [Token.preorder, List.mem_singleton] at hm
    exact .inl hm
  | .nested cs sp, _, hm => by
    simp only [Token.preorder, List.mem_cons] at hm
    rcases hm with rfl | hm
    · exact .inl rfl
    · rcases Token.mem_listPreorder cs hm with hx | ⟨cs', sp', hn, hx⟩
      · exact .inr ⟨cs, sp, by simp [Token.preorder], hx⟩
      · exact .inr ⟨cs', sp', by simp [Token.preorder, hn], hx⟩

/-- A token of the pre-order of a list is one of its tokens, or a child of a NESTED token of that pre-order. -/
theorem Token.mem_listPreorder : ∀ (ts : List Token) {x : Token}, x ∈ Token.listPreorder ts →
    x ∈ ts ∨ ∃ cs sp, Token.nested cs sp ∈ Token.listPreorder ts ∧ x ∈ cs
  | [], _, hm => by simp [Token.listPreorder] at hm
  | t :: ts, _, hm => by
    simp only [Token.listPreorder, List.mem_append] at hm
    rcases hm with hm | hm
    · rcases Token.mem_preorder t hm with rfl | ⟨cs, sp, hn, hx⟩
      · exact .inl List.mem_cons_self
      · exact .inr ⟨cs, sp, by simp [Token.listPreorder, hn], hx⟩
    · rcases Token.mem_listPreorder ts hm with hx | ⟨cs, sp, hn, hx⟩
      · exact .inl (List.mem_cons_of_mem t hx)
      · exact .inr ⟨cs, sp, by simp [Token.listPreorder, hn], hx⟩
end

/-- Every region of a tree that `tokenize` returns is a run on a stretch of the text, between ends that no identifier
reaches across. -/
theorem tokenize_region_run {s : String} {ts r : List Token} (h : tokenize s = .ok ts)
    (hr : r = ts ∨ ∃ sp, Token.nested r sp ∈ Token.walk ts) :
    ∃ P I Z, s.toList = P ++ I ++ Z ∧ Stops isIdentChar P.reverse ∧ Stops isIdentChar Z ∧ FieldRun P.length I r := by
  have hrun := (tokenize_eq_ok_iff s ts).1 h
  rcases hr with rfl | ⟨sp, hm⟩
  · exact ⟨[], s.toList, [], by simp, stops_nil, stops_nil, hrun⟩
  · rw [walk_eq_listPreorder] at hm
    obtain ⟨P, I, R, hs, -, -, hI⟩ := hrun.region_of_mem hm
    exact ⟨P ++ ['<'], I, '>' :: R, by rw [hs]; simp, stops_reverse_concat (by decide), stops_cons.2 (by decide),
      by simpa using hI⟩

/-- The tokens of every region of a tree that `tokenize` returns lie in order in the text, and each NESTED token among
them comes right after a TYPE token. -/
theorem tokenize_region_spans {s : String} {ts r : List Token} (h : tokenize s = .ok ts)
    (hr : r = ts ∨ ∃ sp, Token.nested r sp ∈ Token.walk ts) :
    (∃ lo hi, RegionSpans s lo hi r) ∧
      ∀ cs sp, Token.nested cs sp ∈ r → ∃ L l sp' R, r = L ++ .leaf .type l sp' :: .nested cs sp :: R := by
  obtain ⟨P, I, Z, hs, hP, hZ, hI⟩ := tokenize_region_run h hr
  exact ⟨⟨_, _, hI.spans hs rfl hP hZ⟩, fun _ _ hm => hI.type_before_nested hm⟩

/-- Every token of a tree that `tokenize` returns stands in the text where its span says; within the top level and
within the children of every NESTED token, each token ends before the next starts, and each NESTED token comes right
after a TYPE token that ends before it starts. -/
theorem tokenize_spans {s : String} {ts : List Token} (h : tokenize s = .ok ts) :
    (∀ t ∈ Token.walk ts, t.Faithful s) ∧
      ∀ r, (r = ts ∨ ∃ sp, Token.nested r sp ∈ Token.walk ts) →
        (∀ L x y R, r = L ++ x :: y :: R → x.span.stop ≤ y.span.start) ∧
        ∀ cs sp, Token.nested cs sp ∈ r →
          ∃ L l sp' R, r = L ++ .leaf .type l sp' :: .nested cs sp :: R ∧ sp'.stop ≤ sp.start := by
  refine ⟨fun t ht => ?_, fun r hr => ?_⟩
  · -- a token the walk visits is of the top level, or a child of a NESTED token the walk visits
    have hm := ht
    rw [walk_eq_listPreorder] at hm
    rcases Token.mem_listPreorder ts hm with ht | ⟨cs, sp, hn, ht⟩
    · obtain ⟨⟨lo, hi, hsp⟩, -⟩ := tokenize_region_spans h (.inl rfl)
      exact hsp.faithful t ht
    · obtain ⟨⟨lo, hi, hsp⟩, -⟩ := tokenize_region_spans h (.inr ⟨sp, by rw [walk_eq_listPreorder]; exact hn⟩)
      exact hsp.faithful t ht
  · obtain ⟨⟨lo, hi, hsp⟩, htype⟩ := tokenize_region_spans h hr
    refine ⟨fun L x y R hr => hsp.adjacent hr, fun cs sp hm => ?_⟩
    obtain ⟨L, l, sp', R, hr⟩ := htype cs sp hm
    exact ⟨L, l, sp', R, hr, hsp.adjacent hr⟩


unseal fieldAt closeAt in
/-- The tokens of a field with a nested region. -/
theorem tokenize_spans_nested :
    tokenize "A<b>" = .ok [.leaf .type "A" ⟨0, 1⟩, .nested [.leaf .type "b" ⟨2, 3⟩] ⟨1, 4⟩] ∧
    (∀ t ∈ Token.walk [.leaf .type "A" ⟨0, 1⟩, .nested [.leaf .type "b" ⟨2, 3⟩] ⟨1, 4⟩], t.Faithful "A<b>") ∧
      ∀ r, (r = [.leaf .type "A" ⟨0, 1⟩, .nested [.leaf .type "b" ⟨2, 3⟩] ⟨1, 4⟩] ∨
          ∃ sp, Token.nested r sp ∈ Token.walk [.leaf .type "A" ⟨0, 1⟩, .nested [.leaf .type "b" ⟨2, 3⟩] ⟨1, 4⟩]) →
        (∀ L x y R, r = L ++ x :: y :: R → x.span.stop ≤ y.span.start) ∧
        ∀ cs sp, Token.nested cs sp ∈ r →
          ∃ L l sp' R, r = L ++ .leaf .type l sp' :: .nested cs sp :: R ∧ sp'.stop ≤ sp.start := by
  have h : tokenize "A<b>" = .ok [.leaf .type "A" ⟨0, 1⟩, .nested [.leaf .type "b" ⟨2, 3⟩] ⟨1, 4⟩] := rfl
  exact ⟨h, tokenize_spans h⟩

end ColumnDecl
