import ColumnDecl.Proofs.Lexing

/-
The highlighter classifies a declaration as the tokenizer does.

On every declaration that `tokenize` accepts, the highlighter's lexer emits no error, and it highlights each token of
the tree where the token's span says: a NAME as a field name; a TYPE as a type name or, when it is `ARRAY`, `STRUCT`
or `RANGE` before a NESTED token, as a declaration keyword; a LENGTH with a `(` just before it, a `)` just after it and
between them the lexemes of the length state on its text; the `,` of a FIELD_DELIMITER and the `<` and `>` of a
NESTED as punctuation.

- `Token.Lexed`, `Highlights`: what the lexemes are to hold of one token and of a tree;
- `lexFrom_head`: the lexemes of the identifiers of a field definition, and `lexFrom_head_bracket` up to the bracket
  of its length argument or nested region;
- `FieldRun.lexes`: the lexer reads the text of a run up to the end of its region, and highlights its tokens;
- `lex_highlights_tokens`: the statement for `tokenize` and `lex`.
-/

namespace ColumnDecl

open Scan Grammar Highlight

/-! ## What the lexemes are to hold -/

namespace Token

/-- The class the highlighter is to give the TYPE lexeme `l`, followed in its region by `next`: a declaration keyword
when it is one of `ARRAY`, `STRUCT` and `RANGE` and opens a nested region, a type name otherwise. -/
def typeClass (l : String) : Option Token → Highlight.Class
  | some (.nested _ _) => if l ∈ ["ARRAY", "STRUCT", "RANGE"] then .declaration else .typeName
  | _ => .typeName

/-- The lexemes `lx` highlight the token at the offsets `a` to `b`, followed in its region by `next`, as its kind says:
a NAME by a field-name lexeme of its text, a TYPE by a lexeme of its text of the class `typeClass` gives, each exactly
from `a` to `b`; a LENGTH by a `(` just before it, the lexemes of the length state on its text and a `)` just after it;
a FIELD_DELIMITER by a punctuation lexeme `,` from `a` to `b`; a NESTED by punctuation lexemes at its `<` and at its
`>`. -/
def LexedAt (lx : List Lexeme) (next : Option Token) (a b : Nat) : Token → Prop
  | .leaf .name l _ => b = a + l.length ∧ ⟨a, .fieldName, l⟩ ∈ lx
  | .leaf .type l _ => b = a + l.length ∧ ⟨a, typeClass l next, l⟩ ∈ lx
  | .leaf .length l _ =>
    ⟨a - 1, .punctuation, "("⟩ :: (lexFrom 1 a (some '(') l.toList ++ [⟨b, .punctuation, ")"⟩]) <:+: lx
  | .leaf .delimiter _ _ => b = a + 1 ∧ ⟨a, .punctuation, ","⟩ ∈ lx
  | .nested _ _ => ⟨a, .punctuation, "<"⟩ ∈ lx ∧ ⟨b - 1, .punctuation, ">"⟩ ∈ lx

/-- The lexemes `lx` highlight the token, followed in its region by `next`, at the offsets of its span. -/
def Lexed (lx : List Lexeme) (next : Option Token) (t : Token) : Prop :=
  ∃ a b : Nat, t.span = ⟨a, b⟩ ∧ t.LexedAt lx next a b

/-- The lexemes `lx` highlight each token of a region, followed by the token after it. -/
def LexedList (lx : List Lexeme) : List Token → Prop
  | [] => True
  | t :: ts => t.Lexed lx ts.head? ∧ LexedList lx ts

section Mono

variable {lx lx' : List Lexeme} {next : Option Token}

theorem LexedAt.mono {a b : Nat} (h : lx <:+: lx') : ∀ {t : Token}, t.LexedAt lx next a b → t.LexedAt lx' next a b
  | .leaf .name _ _, ht => ⟨ht.1, h.subset ht.2⟩
  | .leaf .type _ _, ht => ⟨ht.1, h.subset ht.2⟩
  | .leaf .length _ _, ht => ht.trans h
  | .leaf .delimiter _ _, ht => ⟨ht.1, h.subset ht.2⟩
  | .nested _ _, ht => ⟨h.subset ht.1, h.subset ht.2⟩

theorem Lexed.mono {t : Token} (h : lx <:+: lx') (ht : t.Lexed lx next) : t.Lexed lx' next := by
  obtain ⟨a, b, hsp, hab⟩ := ht
  exact ⟨a, b, hsp, hab.mono h⟩

theorem LexedList.mono (h : lx <:+: lx') : ∀ {ts : List Token}, LexedList lx ts → LexedList lx' ts
  | [], _ => trivial
  | _ :: _, ⟨ht, hts⟩ => ⟨ht.mono h, LexedList.mono h hts⟩

end Mono

/-- The token at a position of a highlighted region is highlighted, followed by the token after it. -/
theorem LexedList.at {lx : List Lexeme} {t : Token} {R : List Token} :
    ∀ {L ts : List Token}, LexedList lx ts → ts = L ++ t :: R → t.Lexed lx R.head?
  | [], _, h, rfl => h.1
  | _ :: _, _, h, rfl => LexedList.at h.2 rfl

/-- Tokens that are highlighted whatever follows them, then a token highlighted before the rest of the region. -/
theorem LexedList.append {lx : List Lexeme} {t : Token} {ts N : List Token} (hN : ∀ x ∈ N, ∀ nx, x.Lexed lx nx)
    (ht : t.Lexed lx ts.head?) (hts : LexedList lx ts) : LexedList lx (N ++ t :: ts) := by
  induction N with
  | nil => exact ⟨ht, hts⟩
  | cons x N ih => exact ⟨hN x List.mem_cons_self _, ih (fun y hy => hN y (List.mem_cons_of_mem x hy))⟩

end Token

/-- The lexemes `lx` highlight every region of the tree `ts`: its top level, and the children of each NESTED token
below it. -/
def Highlights (lx : List Lexeme) (ts : List Token) : Prop :=
  Token.LexedList lx ts ∧ ∀ cs sp, Token.nested cs sp ∈ Token.listPreorder ts → Token.LexedList lx cs

theorem keywords_iff {l : List Char} :
    l ∈ declarationKeywords ↔ String.ofList l ∈ ["ARRAY", "STRUCT", "RANGE"] := by
  have e : ∀ t : String, String.ofList l = t ↔ l = t.toList := fun t => by
    constructor
    · rintro rfl
      simp
    · rintro rfl
      simp
  simp only [declarationKeywords, List.mem_cons, List.not_mem_nil, or_false, e]

/-- What follows a region: the end of the text, or the `>` that closes it. Neither goes on with an identifier or a
blank. -/
theorem stops_after_region {Z : List Char} (hZ : Z = [] ∨ ∃ R, Z = '>' :: R) :
    Stops isIdentChar Z ∧ Stops Text.isSpace Z := by
  rcases hZ with rfl | ⟨R, rfl⟩
  · exact ⟨stops_nil, stops_nil⟩
  · exact ⟨stops_cons.2 (by decide), stops_cons.2 (by decide)⟩

/-- The tokenizer's blanks are blanks to the highlighter too. -/
theorem dropWhile_spaces_of_blanks {cs r Z : List Char} {x : Char} (hd : cs.dropWhile isBlank = x :: r)
    (hx : Text.isSpace x = false) : (cs ++ Z).dropWhile Text.isSpace = x :: (r ++ Z) := by
  have hcs := eq_blanks_append hd
  conv => lhs; rw [hcs]
  rw [List.append_assoc, List.cons_append]
  exact dropWhile_append_stop (spaces_of_blanks (blanks_takeWhile cs)) (stops_cons.2 hx)

/-! ## The identifiers of a field definition -/

section Head

variable {P Z r rest : List Char} {c : Char} {q : Nat} {names : List Token} {next : Option Token}

theorem identClass_ne_error {prev : Option Char} {w Y : List Char} : identClass prev w Y ≠ .error := by
  unfold identClass
  split
  · decide
  · split <;> decide

/-- The character before the identifiers of a field definition, after its blanks, is no word character. -/
theorem getLast?_blanks {w : List Char} (hw : Blanks w) (hP : P.getLast?.any isWordChar = false) :
    (P ++ w).getLast?.any isWordChar = false := by
  rcases List.eq_nil_or_concat w with rfl | ⟨w', x, rfl⟩
  · simpa using hP
  · rw [List.concat_eq_append, ← List.append_assoc]
    simpa using isWordChar_of_blank_or_punct (.inl (hw x (by simp)))

/-- The lexemes of the identifiers of a field definition, read after `P`: the NAME is a field name, and the TYPE gets
the class `hcls` says the text after it gives. -/
theorem lexFrom_names (hc : isIdentStart c = true) (hn : typeNames P.length c r = (names, q, rest))
    (hP : P.getLast?.any isWordChar = false) (hZ : Stops isIdentChar (rest ++ Z))
    (hcls : ∀ prev l, prev.any isWordChar = false →
      identClass prev l (rest ++ Z) = Token.typeClass (String.ofList l) next) :
    ∃ H M, c :: r = H ++ rest ∧ (P ++ H).length = q ∧
      lexFrom 0 P.length P.getLast? (H ++ (rest ++ Z)) = M ++ lexFrom 0 (P ++ H).length (P ++ H).getLast? (rest ++ Z) ∧
      (∀ x ∈ M, x.cls ≠ .error) ∧
      ∀ lx ts, M <:+: lx → ts.head? = next → Token.LexedList lx ts → Token.LexedList lx (names ++ ts) := by
  rcases identifiers_split r with ⟨l, t, rfl, hl, ht, hla⟩ | ⟨n, b, w, e, l, t, rfl, hn', hb, hw, he, hl, ht⟩
  · rw [typeNames_type hl ht hla] at hn
    simp only [Prod.mk.injEq] at hn
    obtain ⟨rfl, rfl, rfl⟩ := hn
    refine ⟨c :: l, [⟨P.length, identClass P.getLast? (c :: l) (t ++ Z), String.ofList (c :: l)⟩], rfl, by simp,
      lexFrom_ident hc hl hZ, by simpa using identClass_ne_error, fun lx ts hM hnext hts => ?_⟩
    rw [List.singleton_append]
    refine ⟨⟨P.length, P.length + (l.length + 1), Span.eq_mk (by simp [Token.span]), ?_⟩, hts⟩
    refine ⟨by simp; omega, ?_⟩
    rw [hnext, ← hcls _ (c :: l) hP]
    exact hM.subset List.mem_cons_self
  · rw [typeNames_named hn' hb hw he hl ht] at hn
    simp only [Prod.mk.injEq] at hn
    obtain ⟨rfl, rfl, rfl⟩ := hn
    -- the name, the blanks after it and the type, each one lexeme
    have hbs := isSpace_of_isBlank hb
    have hws := spaces_of_blanks hw
    have hes := isSpace_eq_false_of_isIdentChar (isIdentChar_of_isIdentStart he)
    have e1 := lexFrom_ident (P := P) (Y := b :: (w ++ e :: (l ++ (t ++ Z)))) hc hn'
      (stops_cons.2 (isIdentChar_eq_false_of_isBlank hb))
    obtain ⟨B, e2, hB⟩ := lexFrom_spaces (P := P ++ c :: n) (w := b :: w) (Y := e :: (l ++ (t ++ Z)))
      (by simpa [hbs] using hws) (stops_cons.2 hes)
    have e3 := lexFrom_ident (P := P ++ c :: n ++ b :: w) (Y := t ++ Z) he hl hZ
    rw [identClass_name hbs hws he] at e1
    rw [List.cons_append] at e2
    refine ⟨c :: (n ++ b :: (w ++ e :: l)), ⟨P.length, .fieldName, String.ofList (c :: n)⟩ :: (B ++
      [⟨(P ++ c :: n ++ b :: w).length, identClass (P ++ c :: n ++ b :: w).getLast? (e :: l) (t ++ Z),
        String.ofList (e :: l)⟩]), by simp, by simp; omega, ?_, ?_, fun lx ts hM hnext hts => ?_⟩
    · have hsplit : c :: (n ++ b :: (w ++ e :: l)) ++ (t ++ Z) = c :: (n ++ b :: (w ++ e :: (l ++ (t ++ Z)))) := by
        simp
      rw [hsplit, e1, e2, e3]
      simp
    · intro x hx
      simp only [List.mem_cons, List.mem_append, List.not_mem_nil, or_false] at hx
      rcases hx with rfl | hx | rfl
      · simp
      · simp [hB x hx]
      · exact identClass_ne_error
    · have hlast : (P ++ c :: n ++ b :: w).getLast?.any isWordChar = false := by
        rw [show P ++ c :: n ++ b :: w = (P ++ c :: n ++ [b]) ++ w by simp]
        refine getLast?_blanks hw ?_
        rw [List.getLast?_concat]
        exact isWordChar_of_blank_or_punct (.inl hb)
      simp only [List.cons_append, List.nil_append]
      refine Token.LexedList.append (N := [_]) (fun x hx nx => ?_)
        ⟨(P ++ c :: n ++ b :: w).length, (P ++ c :: n ++ b :: w).length + (l.length + 1),
          Span.eq_mk (by simp [Token.span]; omega), ?_⟩ hts
      · rw [List.mem_singleton] at hx
        subst hx
        exact ⟨P.length, P.length + (n.length + 1), Span.eq_mk (by simp [Token.span]), by simp; omega,
          hM.subset List.mem_cons_self⟩
      · refine ⟨by simp; omega, ?_⟩
        rw [hnext, ← hcls _ (e :: l) hlast]
        exact hM.subset (by simp)


/-- The lexemes of a field definition up to the end of its identifiers: its blanks, then its identifiers. -/
theorem lexFrom_head {cs : List Char} (hd : cs.dropWhile isBlank = c :: r) (hc : isIdentStart c = true)
    (hn : typeNames (P.length + (cs.takeWhile isBlank).length) c r = (names, q, rest))
    (hP : P.getLast?.any isWordChar = false) (hZ : Stops isIdentChar Z)
    (hcls : ∀ prev l, prev.any isWordChar = false →
      identClass prev l (rest ++ Z) = Token.typeClass (String.ofList l) next) :
    ∃ H M, cs = H ++ rest ∧ (P ++ H).length = q ∧
      lexFrom 0 P.length P.getLast? (cs ++ Z) = M ++ lexFrom 0 (P ++ H).length (P ++ H).getLast? (rest ++ Z) ∧
      (∀ x ∈ M, x.cls ≠ .error) ∧
      ∀ lx ts, M <:+: lx → ts.head? = next → Token.LexedList lx ts → Token.LexedList lx (names ++ ts) := by
  have hcs := eq_blanks_append hd
  have hw := blanks_takeWhile cs
  have hlen : P.length + (cs.takeWhile isBlank).length = (P ++ cs.takeWhile isBlank).length := by simp
  rw [hlen] at hn
  obtain ⟨H, M, hH, hHq, e2, hM, hlex⟩ :=
    lexFrom_names hc hn (getLast?_blanks hw hP) (stops_append (typeNames_stops hn) hZ) hcls
  obtain ⟨B, e1, hB⟩ := lexFrom_spaces (P := P) (Y := c :: (r ++ Z)) (spaces_of_blanks hw)
    (stops_cons.2 (isSpace_eq_false_of_isIdentChar (isIdentChar_of_isIdentStart hc)))
  refine ⟨cs.takeWhile isBlank ++ H, B ++ M, ?_, by simpa using hHq, ?_, ?_,
    fun lx ts hM' => hlex lx ts ((List.suffix_append B M).isInfix.trans hM')⟩
  · rw [List.append_assoc, ← hH]
    exact hcs
  · have hsplit : cs ++ Z = cs.takeWhile isBlank ++ c :: (r ++ Z) := by
      conv => lhs; rw [hcs]
      simp
    have hY : c :: (r ++ Z) = H ++ (rest ++ Z) := by
      rw [← List.append_assoc, ← hH]
      rfl
    rw [hsplit, e1, hY, e2]
    simp
  · intro x hx
    rcases List.mem_append.1 hx with hx | hx
    · simp [hB x hx]
    · exact hM x hx

/-- The lexemes of a field definition whose TYPE is followed, after blanks, by the bracket `o` that opens its length
argument or its nested region, up to that bracket at the offset `a`. The token `t` after the identifiers makes the TYPE
a keyword as the bracket does: only a `<` opens a region. -/
theorem lexFrom_head_bracket {cs Y : List Char} {o : Char} {a : Nat} {t : Token}
    (hd : cs.dropWhile isBlank = c :: r) (hc : isIdentStart c = true)
    (hn : typeNames (P.length + (cs.takeWhile isBlank).length) c r = (names, q, rest))
    (ha : a = q + (rest.takeWhile isBlank).length) (hr : rest.dropWhile isBlank = o :: Y) (ho : o = '(' ∨ o = '<')
    (hP : P.getLast?.any isWordChar = false) (hZ : Z = [] ∨ ∃ R, Z = '>' :: R)
    (ht : ∀ l, Token.typeClass l (some t) =
      if l ∈ ["ARRAY", "STRUCT", "RANGE"] ∧ o = '<' then .declaration else .typeName) :
    ∃ H M, cs = H ++ o :: Y ∧ (P ++ H).length = a ∧
      lexFrom 0 P.length P.getLast? (cs ++ Z) = M ++ lexFrom 0 (P ++ H).length (P ++ H).getLast? (o :: (Y ++ Z)) ∧
      (∀ x ∈ M, x.cls ≠ .error) ∧
      ∀ lx ts, M <:+: lx → ts.head? = some t → Token.LexedList lx ts → Token.LexedList lx (names ++ ts) := by
  have hos : Text.isSpace o = false ∧ isIdentStart o = false := by
    rcases ho with rfl | rfl <;> decide
  have hafter := dropWhile_spaces_of_blanks (Z := Z) hr hos.1
  have hcls : ∀ prev l, prev.any isWordChar = false →
      identClass prev l (rest ++ Z) = Token.typeClass (String.ofList l) (some t) := by
    intro prev l hp
    rw [identClass_eq hp (fun x hx => by simp [hafter] at hx; subst hx; exact hos.2), ht]
    simp [keywords_iff, hafter]
  obtain ⟨H, M, hH, hHq, e1, hM, hlex⟩ := lexFrom_head hd hc hn hP (stops_after_region hZ).1 hcls
  -- the blanks before the bracket: one more text lexeme, or none
  obtain ⟨B, e2, hB⟩ := lexFrom_spaces (P := P ++ H) (Y := o :: (Y ++ Z))
    (spaces_of_blanks (blanks_takeWhile rest)) (stops_cons.2 hos.1)
  have hrest : rest = rest.takeWhile isBlank ++ o :: Y := eq_blanks_append hr
  refine ⟨H ++ rest.takeWhile isBlank, M ++ B, ?_, by simp [← hHq, ha]; omega, ?_, ?_,
    fun lx ts hMB => hlex lx ts ((List.prefix_append M B).isInfix.trans hMB)⟩
  · conv => lhs; rw [hH, hrest]
    simp
  · have hsplit : rest ++ Z = rest.takeWhile isBlank ++ o :: (Y ++ Z) := by
      conv => lhs; rw [hrest]
      simp
    rw [e1, hsplit, e2]
    simp
  · intro x hx
    rcases List.mem_append.1 hx with hx | hx
    · exact hM x hx
    · simp [hB x hx]

end Head

/-! ## The lexemes of a run -/

/-- What follows a complete field definition, as the highlighter looks ahead: after blanks, a `,`, the `>` that closes
the region, or the end; and its tokens start with a FIELD_DELIMITER, if there are any. -/
theorem CloseRun.after {pos : Nat} {cs Z : List Char} {ts : List Token} (h : CloseRun pos cs ts)
    (hZ : Z = [] ∨ ∃ R, Z = '>' :: R) :
    (∀ x, ((cs ++ Z).dropWhile Text.isSpace).head? = some x → x = ',' ∨ x = '>') ∧
      ∀ t, ts.head? = some t → ∃ sp, t = .leaf .delimiter "," sp := by
  cases h with
  | done hw =>
    refine ⟨fun x hx => ?_, by simp⟩
    rw [dropWhile_append_stop (spaces_of_blanks hw) (stops_after_region hZ).2] at hx
    rcases hZ with rfl | ⟨R, rfl⟩
    · cases hx
    · simp only [List.head?_cons, Option.some.injEq] at hx
      exact .inr hx.symm
  | comma hd _ _ =>
    refine ⟨fun x hx => ?_, fun t ht => ⟨_, by simpa using ht.symm⟩⟩
    rw [dropWhile_spaces_of_blanks hd (by decide)] at hx
    simp only [List.head?_cons, Option.some.injEq] at hx
    exact .inl hx.symm

theorem getLast?_punct {P : List Char} {c : Char} (h : c = '<' ∨ c = ',') :
    (P ++ [c]).getLast?.any isWordChar = false := by
  rw [List.getLast?_concat]
  exact isWordChar_of_blank_or_punct (.inr h)

mutual
/-- The lexer reads the text of a run that stands after `P`, with no word character just before it, and before the end
of its region: the lexemes up to the end of the run are no errors, and they highlight every region of its tokens. -/
theorem FieldRun.lexes {pos : Nat} {cs : List Char} {ts : List Token} :
    FieldRun pos cs ts → ∀ {P Z : List Char}, P.length = pos → P.getLast?.any isWordChar = false →
      (Z = [] ∨ ∃ R, Z = '>' :: R) →
      ∃ M, lexFrom 0 P.length P.getLast? (cs ++ Z) = M ++ lexFrom 0 (P ++ cs).length (P ++ cs).getLast? Z ∧
        (∀ x ∈ M, x.cls ≠ .error) ∧ Highlights M ts
  | @FieldRun.plain _ q _ _ rest _ names ts' hd hc hn _ _ hcl, P, Z, hP, hw, hZ => by
    obtain ⟨hnext, hdelim⟩ := CloseRun.after hcl hZ
    -- the TYPE is followed by a `,`, the end of its region, or nothing
    have hcls : ∀ prev l, prev.any isWordChar = false →
        identClass prev l (rest ++ Z) = Token.typeClass (String.ofList l) ts'.head? := by
      intro prev l hp
      have hne : ((rest ++ Z).dropWhile Text.isSpace).head? ≠ some '<' := fun h => by
        rcases hnext '<' h with h | h <;> cases h
      rw [identClass_eq hp (fun x hx => by rcases hnext x hx with rfl | rfl <;> rfl), if_neg (fun h => hne h.2)]
      cases hts : ts'.head? with
      | none => rfl
      | some t =>
        obtain ⟨sp, rfl⟩ := hdelim t hts
        rfl
    obtain ⟨H, M, hH, hHq, e1, hM, hlex⟩ :=
      lexFrom_head hd hc (by rw [hP]; exact hn) hw (stops_after_region hZ).1 hcls
    obtain ⟨M', e2, hM', hhl⟩ := CloseRun.lexes hcl (P := P ++ H) (Z := Z) hHq hZ
    have hinM : M <:+: M ++ M' := (List.prefix_append M M').isInfix
    have hinM' : M' <:+: M ++ M' := (List.suffix_append M M').isInfix
    refine ⟨M ++ M', ?_, List.forall_mem_append.2 ⟨hM, hM'⟩, hlex _ ts' hinM rfl (hhl.1.mono hinM'),
      fun cs' sp hm => ?_⟩
    · rw [e1, e2, hH]
      simp
    · rw [Token.listPreorder_append, List.mem_append] at hm
      rcases hm with hm | hm
      · exact absurd hm (nested_not_mem_names hn _ _)
      · exact (hhl.2 cs' sp hm).mono hinM'
  | @FieldRun.length _ q a _ _ rest r3 inner r4 _ names ts' hd hc hn ha hr hp _ hcl, P, Z, hP, hw, hZ => by
    obtain ⟨H, M, hH, hHa, e1, hM, hlex⟩ := lexFrom_head_bracket hd hc (by rw [hP]; exact hn) ha hr (.inl rfl) hw hZ
      (t := .leaf .length (String.ofList inner) ⟨a + 1, a + 1 + inner.length⟩) (fun l => by simp [Token.typeClass])
    -- after the `(`: the length argument, its `)` and what follows
    have hr3 : r3 ++ Z = inner ++ ')' :: (r4 ++ Z) := by
      rw [closeParen_eq_some hp]
      simp
    have hcs : P ++ cs = P ++ H ++ ['('] ++ inner ++ [')'] ++ r4 := by
      rw [hH, closeParen_eq_some hp]
      simp
    have hP4 : (P ++ H ++ ['(']).length = a + 1 := by
      rw [List.length_append, hHa]
      rfl
    have hP5 : (P ++ H ++ ['('] ++ inner).length = a + 1 + inner.length := by
      rw [List.length_append, hP4]
    have e2 := lexFrom_open (P := P ++ H) (Y := inner ++ ')' :: (r4 ++ Z))
    have hinner := lexFrom_length (P := P ++ H ++ ['(']) (nests_of_closeParen hp)
    have e3 := lexFrom_close (P := P ++ H ++ ['('] ++ inner) (Y := r4 ++ Z)
    obtain ⟨M', e4, hM', hhl⟩ := CloseRun.lexes hcl (P := P ++ H ++ ['('] ++ inner ++ [')']) (Z := Z)
      (by rw [List.length_append, hP5]; rfl) hZ
    simp only [Nat.zero_add] at hinner
    -- the LENGTH token: `(`, the lexemes of the length state on its text, `)`
    have hpiece : ⟨a + 1 - 1, .punctuation, "("⟩ :: (lexFrom 1 (a + 1) (some '(') (String.ofList inner).toList ++
          [⟨a + 1 + inner.length, .punctuation, ")"⟩]) =
        ⟨(P ++ H).length, .punctuation, "("⟩ ::
          (lexFrom 1 (P ++ H ++ ['(']).length (P ++ H ++ ['(']).getLast? inner ++
            [⟨(P ++ H ++ ['('] ++ inner).length, .punctuation, ")"⟩]) := by
      rw [hP5, hP4, List.getLast?_concat, hHa, String.toList_ofList, Nat.add_sub_cancel]
    refine ⟨M ++ (⟨(P ++ H).length, .punctuation, "("⟩ ::
        (lexFrom 1 (P ++ H ++ ['(']).length (P ++ H ++ ['(']).getLast? inner ++
          [⟨(P ++ H ++ ['('] ++ inner).length, .punctuation, ")"⟩])) ++ M', ?_, ?_, ?_⟩
    · rw [e1, hr3, e2, hinner.2, e3, e4, hcs]
      simp
    · intro x hx
      simp only [List.mem_append, List.mem_cons, List.not_mem_nil, or_false] at hx
      rcases hx with (hx | rfl | hx | rfl) | hx
      · exact hM x hx
      · simp
      · exact hinner.1 x hx
      · simp
      · exact hM' x hx
    · refine ⟨hlex _ _ (by simp [List.infix_append_left]) rfl ⟨⟨a + 1, a + 1 + inner.length, Span.eq_mk (by simp [Token.span]), ?_⟩,
        hhl.1.mono List.infix_append_right⟩, fun cs' sp hm => ?_⟩
      · show _ <:+: _
        rw [hpiece]
        exact List.infix_append _ _ _
      · simp only [Token.listPreorder_append, Token.listPreorder, Token.preorder, List.cons_append, List.nil_append,
          List.mem_append, List.mem_cons, reduceCtorEq, false_or] at hm
        rcases hm with hm | hm
        · exact absurd hm (nested_not_mem_names hn _ _)
        · exact (hhl.2 cs' sp hm).mono List.infix_append_right
  | @FieldRun.nested _ q a _ _ rest I R _ names cs' ts' hd hc hn ha hr hI hcl, P, Z, hP, hw, hZ => by
    obtain ⟨H, M, hH, hHa, e1, hM, hlex⟩ := lexFrom_head_bracket hd hc (by rw [hP]; exact hn) ha hr (.inr rfl) hw hZ
      (t := .nested cs' ⟨a, a + 1 + I.length + 1⟩) (fun l => by simp [Token.typeClass])
    -- after the `<`: the region, its `>` and what follows
    have hIR : I ++ '>' :: R ++ Z = I ++ '>' :: (R ++ Z) := by
      simp
    have hcs : P ++ cs = P ++ H ++ ['<'] ++ I ++ ['>'] ++ R := by
      rw [hH]
      simp
    have hP4 : (P ++ H ++ ['<']).length = a + 1 := by
      rw [List.length_append, hHa]
      rfl
    have hP5 : (P ++ H ++ ['<'] ++ I).length = a + 1 + I.length := by
      rw [List.length_append, hP4]
    have e2 := lexFrom_punct (P := P ++ H) (Y := I ++ '>' :: (R ++ Z)) (.inl rfl)
    obtain ⟨Mi, e3, hMi, hhi⟩ := FieldRun.lexes hI (P := P ++ H ++ ['<']) (Z := '>' :: (R ++ Z)) hP4
      (getLast?_punct (.inl rfl)) (.inr ⟨_, rfl⟩)
    have e4 := lexFrom_punct (P := P ++ H ++ ['<'] ++ I) (Y := R ++ Z) (.inr (.inl rfl))
    obtain ⟨M', e5, hM', hhl⟩ := CloseRun.lexes hcl (P := P ++ H ++ ['<'] ++ I ++ ['>']) (Z := Z)
      (by rw [List.length_append, hP5]; rfl) hZ
    -- the lexemes of the run: the field definition's, the `<`, the region's, the `>` and those after it
    obtain ⟨lx, hlx⟩ : ∃ lx : List Lexeme, lx = M ++ [⟨(P ++ H).length, .punctuation, String.ofList ['<']⟩] ++ Mi ++
        [⟨(P ++ H ++ ['<'] ++ I).length, .punctuation, String.ofList ['>']⟩] ++ M' := ⟨_, rfl⟩
    have hinMi : Mi <:+: lx := by
      rw [hlx]
      exact List.infix_append_of_infix_left (List.infix_append _ Mi _)
    have hinM' : M' <:+: lx := by
      rw [hlx]
      exact List.infix_append_right
    -- the NESTED token: a `<` where it starts and a `>` where it ends
    have hnest : (Token.nested cs' ⟨a, a + 1 + I.length + 1⟩).Lexed lx ts'.head? := by
      refine ⟨a, a + 1 + I.length + 1, Span.eq_mk (by simp [Token.span]), ?_, ?_⟩
      · rw [hlx, ← hHa]
        simp
      · rw [hlx, Nat.add_sub_cancel, ← hP5]
        simp
    refine ⟨lx, ?_, ?_, hlex _ _ (by rw [hlx]; simp [List.infix_append_left]) rfl ⟨hnest, hhl.1.mono hinM'⟩,
      fun cs'' sp hm => ?_⟩
    · rw [hlx, e1, hIR, e2, e3, e4, e5, hcs]
      simp
    · intro x hx
      simp only [hlx, List.mem_append, List.mem_cons, List.not_mem_nil, or_false] at hx
      rcases hx with (((hx | rfl) | hx) | rfl) | hx
      · exact hM x hx
      · simp
      · exact hMi x hx
      · simp
      · exact hM' x hx
    · simp only [Token.listPreorder_append, Token.listPreorder, Token.preorder, List.cons_append, List.mem_append,
        List.mem_cons, Token.nested.injEq] at hm
      rcases hm with hm | ⟨rfl, -⟩ | hm | hm
      · exact absurd hm (nested_not_mem_names hn _ _)
      · exact hhi.1.mono hinMi
      · exact (hhi.2 cs'' sp hm).mono hinMi
      · exact (hhl.2 cs'' sp hm).mono hinM'

/-- The lexer reads the text after a complete field definition that stands after `P`, before the end of its region:
the lexemes up to the end of that text are no errors, and they highlight every region of its tokens. -/
theorem CloseRun.lexes {pos : Nat} {cs : List Char} {ts : List Token} :
    CloseRun pos cs ts → ∀ {P Z : List Char}, P.length = pos → (Z = [] ∨ ∃ R, Z = '>' :: R) →
      ∃ M, lexFrom 0 P.length P.getLast? (cs ++ Z) = M ++ lexFrom 0 (P ++ cs).length (P ++ cs).getLast? Z ∧
        (∀ x ∈ M, x.cls ≠ .error) ∧ Highlights M ts
  | .done hw, P, Z, _, hZ => by
    obtain ⟨B, e, hB⟩ := lexFrom_spaces (P := P) (Y := Z) (spaces_of_blanks hw) (stops_after_region hZ).2
    exact ⟨B, e, fun x hx => by simp [hB x hx], trivial, by simp [Token.listPreorder]⟩
  | @CloseRun.comma _ p _ r ts' hd hp hf, P, Z, hP, hZ => by
    have hcs := eq_blanks_append hd
    obtain ⟨B, e1, hB⟩ := lexFrom_spaces (P := P) (Y := ',' :: (r ++ Z)) (spaces_of_blanks (blanks_takeWhile cs))
      (stops_cons.2 (by decide))
    have e2 := lexFrom_punct (P := P ++ cs.takeWhile isBlank) (Y := r ++ Z) (.inr (.inr rfl))
    obtain ⟨Mf, e3, hMf, hhf⟩ := FieldRun.lexes hf (P := P ++ cs.takeWhile isBlank ++ [',']) (Z := Z)
      (by simp; omega) (getLast?_punct (.inr rfl)) hZ
    have hsplit : cs ++ Z = cs.takeWhile isBlank ++ ',' :: (r ++ Z) := by
      conv => lhs; rw [hcs]
      simp
    have hPcs : P ++ cs = P ++ cs.takeWhile isBlank ++ [','] ++ r := by
      conv => lhs; rw [hcs]
      simp
    have hin : Mf <:+: B ++ ⟨(P ++ cs.takeWhile isBlank).length, .punctuation, ","⟩ :: Mf :=
      ⟨B ++ [⟨(P ++ cs.takeWhile isBlank).length, .punctuation, ","⟩], [], by simp⟩
    refine ⟨B ++ ⟨(P ++ cs.takeWhile isBlank).length, .punctuation, ","⟩ :: Mf, ?_, ?_, ⟨⟨?_, hhf.1.mono hin⟩, ?_⟩⟩
    · rw [hsplit, e1, e2, e3, hPcs]
      simp
    · intro x hx
      simp only [List.mem_append, List.mem_cons] at hx
      rcases hx with hx | rfl | hx
      · simp [hB x hx]
      · simp
      · exact hMf x hx
    · refine ⟨p, p + 1, Span.eq_mk (by simp [Token.span]), rfl, ?_⟩
      have hpP : p = (P ++ cs.takeWhile isBlank).length := by simp; omega
      subst hpP
      simp
    · intro cs' sp hm
      simp only [Token.listPreorder, Token.preorder, List.singleton_append, List.mem_cons, reduceCtorEq,
        false_or] at hm
      exact (hhf.2 cs' sp hm).mono hin
end


/-! ## The highlighter and the tokenizer -/

/-- On a declaration that `tokenize` accepts, the highlighter emits no error, and it highlights every token of the
tree: each token of the top level and of the children of every NESTED token, followed in its region by the token after
it, as `Token.Lexed` says. -/
theorem lex_highlights_tokens {s : String} {ts : List Token} (h : tokenize s = .ok ts) :
    (∀ x ∈ lex s, x.cls ≠ .error) ∧
      ∀ r, (r = ts ∨ ∃ sp, Token.nested r sp ∈ Token.walk ts) → ∀ L t R, r = L ++ t :: R → t.Lexed (lex s) R.head? := by
  have hrun := (tokenize_eq_ok_iff s ts).1 h
  -- the whole text is one region, with nothing before it and nothing after it
  obtain ⟨M, e, hM, hts⟩ := hrun.lexes (P := []) (Z := []) rfl rfl (.inl rfl)
  have hlex : lex s = M := by
    simpa [lex, lexFrom] using e
  rw [hlex]
  refine ⟨hM, fun r hr L t R hL => ?_⟩
  rcases hr with rfl | ⟨sp, hm⟩
  · exact hts.1.at hL
  · rw [walk_eq_listPreorder] at hm
    exact (hts.2 r sp hm).at hL

unseal fieldAt closeAt in
/-- A declaration keyword before its nested region. -/
theorem lex_highlights_keyword :
    tokenize "ARRAY<b>" = .ok [.leaf .type "ARRAY" ⟨0, 5⟩, .nested [.leaf .type "b" ⟨6, 7⟩] ⟨5, 8⟩] ∧
    (∀ x ∈ lex "ARRAY<b>", x.cls ≠ .error) ∧
      ∀ r, (r = [.leaf .type "ARRAY" ⟨0, 5⟩, .nested [.leaf .type "b" ⟨6, 7⟩] ⟨5, 8⟩] ∨
          ∃ sp, Token.nested r sp ∈ Token.walk [.leaf .type "ARRAY" ⟨0, 5⟩, .nested [.leaf .type "b" ⟨6, 7⟩] ⟨5, 8⟩]) →
        ∀ L t R, r = L ++ t :: R → t.Lexed (lex "ARRAY<b>") R.head? := by
  have h : tokenize "ARRAY<b>" = .ok [.leaf .type "ARRAY" ⟨0, 5⟩, .nested [.leaf .type "b" ⟨6, 7⟩] ⟨5, 8⟩] := rfl
  exact ⟨h, lex_highlights_tokens h⟩

end ColumnDecl
