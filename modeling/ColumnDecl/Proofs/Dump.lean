import ColumnDecl.Proofs.Regions
import ColumnDecl.Cli.Run

/-
The token dump lists the tree in pre-order, one line per token at its depth.

The walk keeps a stack of the lists of tokens still to visit, innermost region first, and pops a list once it is
visited; the dump pads each token by the indent once for each list below its own. Both agree with the recursive
pre-order that carries the count of NESTED tokens around each token (`Token.listLevels`):
- `walkFrom_eq_levels`: the walk from a stack visits each pending list at the level of its place in the stack, the
  list on top one level below the list under it, then the lists under it;
- `indented_int`: with an integer indent that is not negative, the dump writes the rows up to the first whose padding
  cannot be built (`padFits`: the count of spaces fits in an index and in the machine's memory), and stops there
  with that padding's fault;
- `dump_tokens_preorder`: the walk is the pre-order, and on a machine that holds every padding that fits in an index,
  the dump of a tree writes, in pre-order, the padding of `indent × depth` spaces and the kind and quoted lexeme of
  each token, or `NESTED`, up to the first token whose padding does not fit in an index, where an index overflow
  stops it; so one line per token exactly when every padding fits;
- `dump_stops_at_wide_padding`: an indent of 2^63 dumps a type and its region but not the type inside, whose padding
  does not fit in an index.
-/

namespace ColumnDecl

open Cli Toml

namespace Token

mutual
/-- each token of a tree in pre-order with the number of NESTED tokens around it, the tree standing `d` levels down -/
def levels (d : Nat) : Token → List (Nat × Token)
  | .leaf k l s => [(d, .leaf k l s)]
  | .nested cs s => (d, .nested cs s) :: listLevels (d + 1) cs

/-- the levels of each token of a list, one after the other -/
def listLevels (d : Nat) : List Token → List (Nat × Token)
  | [] => []
  | t :: ts => levels d t ++ listLevels d ts
end

@[simp] theorem listLevels_nil (d : Nat) : listLevels d [] = [] := by simp [listLevels]

@[simp] theorem listLevels_cons (d : Nat) (t : Token) (ts : List Token) :
    listLevels d (t :: ts) = levels d t ++ listLevels d ts := by
  simp [listLevels]

/-- the levels of the tokens a walk still has to visit: each pending list stands one level below the list under it -/
def Pending.levels : Pending → List (Nat × Token)
  | [] => []
  | ts :: rest => listLevels rest.length ts ++ Pending.levels rest

/-- The walk from a stack visits each pending list at the level of its place in the stack: on the stack of a region,
the region's tokens are one level below those of the list under it, which the walk visits after them. -/
theorem walkFrom_eq_levels (p : Pending) : walkFrom p = Pending.levels p := by
  fun_induction walkFrom p with
  | case1 => rfl
  | case2 rest ih => simpa [Pending.levels] using ih
  | case3 k l s ts rest ih => simp [Pending.levels, levels, ih]
  | case4 cs s ts rest ih => simp [Pending.levels, levels, ih]

theorem walkLevels_eq (ts : List Token) : walkLevels ts = listLevels 0 ts := by
  simp [walkLevels, walkFrom_eq_levels, Pending.levels]

end Token

/-! ## Padding by the indent -/

/-- the padding of a line with indent `i` at level `d`: `i * d` spaces -/
def padSpaces (i : Int) (d : Nat) : String := String.ofList (List.replicate (i * d).toNat ' ')

/-- the text that dumps a token, after its padding: the kind and the quoted lexeme of a leaf, or `NESTED` -/
def Token.dumpText : Token → String
  | .leaf k l _ => k.label ++ " " ++ Text.quote l
  | .nested .. => "NESTED"

/-- the line that dumps a token at level `d` with indent `i` -/
def dumpLine (i : Int) (x : Nat × Token) : String := padSpaces i x.1 ++ x.2.dumpText

theorem tokenRows_eq (ts : List Token) :
    tokenRows ts = (Token.listLevels 0 ts).map fun x => (x.1, x.2.dumpText) := by
  rw [tokenRows, Token.walkLevels_eq]
  rfl

/-- whether the padding of a line at level `d` with indent `i` can be built on a machine that holds `memory`
characters in one text: its count of spaces fits in an index and in that memory -/
def padFits (memory : Nat) (i : Int) (d : Nat) : Bool := i * d < indexBound && i * d ≤ memory

/-- An integer indent that is not negative pads a line by its multiple when the spaces can be built, and fails
otherwise: for a count that does not fit in an index, or else for one that does not fit in memory. -/
theorem padding_int (memory : Nat) {i : Int} (hi : 0 ≤ i) (d : Nat) :
    (Value.int i).padding memory d = if padFits memory i d then .ok (padSpaces i d) else
      .error (if (indexBound : Int) ≤ i * d then .indexOverflow else .outOfMemory) := by
  have hd : 0 ≤ i * d := Int.mul_nonneg hi (Int.natCast_nonneg d)
  have hneg : ¬i * d < -(indexBound : Int) := by omega
  simp only [Value.padding, spaces, padSpaces, padFits, hneg, false_or]
  by_cases h1 : (indexBound : Int) ≤ i * d
  · have h2 : ¬i * d < indexBound := by omega
    simp [h1, h2]
  · by_cases h3 : (memory : Int) < i * d
    · have h4 : ¬i * d ≤ memory := by omega
      simp [h1, h3, h4]
    · have h4 : i * d ≤ memory := by omega
      have h2 : i * d < indexBound := by omega
      simp [h1, h2, h3, h4]

/-- With an integer indent that is not negative, the rows are written with their padding up to the first whose
padding cannot be built, where a fault stops them: the fault of that row's count of spaces. -/
theorem indented_go_int (memory : Nat) {i : Int} (hi : 0 ≤ i) :
    ∀ (acc : List String) (rows : List (Nat × String)),
      (indented.go memory (.int i) acc rows).lines =
        acc.reverse ++ (rows.takeWhile fun x => padFits memory i x.1).map (fun x => padSpaces i x.1 ++ x.2) ∧
      ((indented.go memory (.int i) acc rows).stop = none ↔ ∀ x ∈ rows, padFits memory i x.1 = true) ∧
      ∀ e, (indented.go memory (.int i) acc rows).stop = some e → ∃ x ∈ rows, padFits memory i x.1 = false ∧
        e = .config (if (indexBound : Int) ≤ i * x.1 then .indexOverflow else .outOfMemory)
  | acc, [] => by simp [indented.go]
  | acc, (d, s) :: rest => by
    by_cases h : padFits memory i d
    · -- the row is written and the rest follow
      obtain ⟨ih1, ih2, ih3⟩ := indented_go_int memory hi ((padSpaces i d ++ s) :: acc) rest
      simp only [indented.go, padding_int memory hi, h, if_true]
      refine ⟨by simp [ih1, h], by simp [ih2, h], fun e he => ?_⟩
      obtain ⟨x, hx, hfit, rfl⟩ := ih3 e he
      exact ⟨x, List.mem_cons_of_mem _ hx, hfit, rfl⟩
    · -- the row's padding is the fault that stops the dump
      have hf : padFits memory i d = false := by simpa using h
      simp only [indented.go, padding_int memory hi, hf, Bool.false_eq_true, if_false]
      refine ⟨by simp [hf], by simp [hf], fun e he => ⟨(d, s), List.mem_cons_self, hf, ?_⟩⟩
      simp only [Option.some.injEq] at he
      exact he.symm

theorem indented_int (memory : Nat) {i : Int} (hi : 0 ≤ i) (rows : List (Nat × String)) :
    (indented memory (.int i) rows).lines =
        (rows.takeWhile fun x => padFits memory i x.1).map (fun x => padSpaces i x.1 ++ x.2) ∧
      ((indented memory (.int i) rows).stop = none ↔ ∀ x ∈ rows, padFits memory i x.1 = true) ∧
      ∀ e, (indented memory (.int i) rows).stop = some e → ∃ x ∈ rows, padFits memory i x.1 = false ∧
        e = .config (if (indexBound : Int) ≤ i * x.1 then .indexOverflow else .outOfMemory) := by
  simpa [indented] using indented_go_int memory hi [] rows

/-- On a machine that holds a padding whenever it fits in an index, a padding can be built exactly when it fits in an
index. -/
theorem padFits_of_memory {memory : Nat} {i : Int} {d : Nat} (h : i * d < indexBound → i * d ≤ memory) :
    padFits memory i d = decide (i * d < indexBound) := by
  by_cases hb : i * d < indexBound
  · simp [padFits, hb, h hb]
  · simp [padFits, hb]

/-- Two tests that agree on every element of a list take the same prefix of it. -/
theorem takeWhile_eq_of_agree {α : Type} {p q : α → Bool} :
    ∀ {l : List α}, (∀ x ∈ l, p x = q x) → l.takeWhile p = l.takeWhile q
  | [], _ => rfl
  | x :: l, h => by
    have hl : l.takeWhile p = l.takeWhile q := takeWhile_eq_of_agree fun y hy => h y (List.mem_cons_of_mem x hy)
    simp [List.takeWhile_cons, h x List.mem_cons_self, hl]

/-! ## The dump of a token tree -/

/-- The walk is the pre-order. With an integer indent that is not negative, on a machine that holds every padding of
the dump that fits in an index, the dump writes the line of each token in pre-order, padded by `indent × d` spaces for
the `d` NESTED tokens around it, up to the first token whose padding of spaces does not fit in an index; it stops
there, and only there, with the fault of an index overflow. -/
theorem dump_tokens_preorder (memory : Nat) (ts : List Token) (st : Settings) (text : String) {i : Int}
    (hi : 0 ≤ i) (hst : st.indent = .int i)
    (hmem : ∀ x ∈ Token.listLevels 0 ts, i * x.1 < indexBound → i * x.1 ≤ memory) :
    Token.walk ts = Token.listPreorder ts ∧
    (Token.listLevels 0 ts).map Prod.snd = Token.listPreorder ts ∧
    (Command.show memory .tokens false st text ts).lines =
      ((Token.listLevels 0 ts).takeWhile fun x => i * x.1 < indexBound).map (dumpLine i) ∧
    ((Command.show memory .tokens false st text ts).stop = none ↔
      ∀ x ∈ Token.listLevels 0 ts, i * x.1 < indexBound) ∧
    ((Command.show memory .tokens false st text ts).stop = none ∨
      (Command.show memory .tokens false st text ts).stop = some (.config .indexOverflow)) := by
  have hpre : (Token.listLevels 0 ts).map Prod.snd = Token.listPreorder ts := by
    simpa [Token.walkFrom_eq_levels, Token.Pending.levels] using walkFrom_map_snd [ts]
  have hshow : Command.show memory .tokens false st text ts =
      indented memory (.int i) ((Token.listLevels 0 ts).map fun x => (x.1, x.2.dumpText)) := by
    simp [Command.show, hst, tokenRows_eq]
  -- with the memory the hypothesis gives, a padding can be built exactly when it fits in an index
  have hfits : ∀ x ∈ Token.listLevels 0 ts, padFits memory i x.1 = decide (i * x.1 < indexBound) :=
    fun x hx => padFits_of_memory (hmem x hx)
  obtain ⟨hlines, hstop, hfault⟩ :=
    indented_int memory hi ((Token.listLevels 0 ts).map fun x => (x.1, x.2.dumpText))
  rw [hshow]
  refine ⟨walk_eq_listPreorder ts, hpre, ?_, ?_, ?_⟩
  · rw [hlines, List.takeWhile_map, List.map_map]
    simp only [Function.comp_def]
    rw [takeWhile_eq_of_agree hfits]
    rfl
  · rw [hstop, List.forall_mem_map]
    exact forall_congr' fun x => imp_congr_right fun hx => by simp [hfits x hx]
  · cases he : (indented memory (.int i) ((Token.listLevels 0 ts).map fun x => (x.1, x.2.dumpText))).stop with
    | none => exact .inl rfl
    | some e =>
      -- the fault is that of a padding that cannot be built, which is one that does not fit in an index
      obtain ⟨y, hy, hfit, rfl⟩ := hfault e he
      obtain ⟨x, hx, rfl⟩ := List.mem_map.1 hy
      have hno : decide (i * x.1 < indexBound) = false := (hfits x hx).symm.trans hfit
      have hover : (indexBound : Int) ≤ i * x.1 := by
        simp only [decide_eq_false_iff_not] at hno
        omega
      exact .inr (by simp [hover])

/-- A type with a nested region, dumped with an indent of 4 on a machine that holds 2^32 characters in one text:
every padding fits. -/
theorem dump_tokens_preorder_nested :
    (0 : Int) ≤ 4 ∧ ({ indent := .int 4 } : Settings).indent = .int 4 ∧
    (∀ x ∈ Token.listLevels 0 [.leaf .type "A" ⟨0, 1⟩, .nested [.leaf .type "B" ⟨2, 3⟩] ⟨1, 4⟩],
      (4 : Int) * x.1 < indexBound → (4 : Int) * x.1 ≤ (4294967296 : Nat)) ∧
    (Token.walk [.leaf .type "A" ⟨0, 1⟩, .nested [.leaf .type "B" ⟨2, 3⟩] ⟨1, 4⟩] =
        Token.listPreorder [.leaf .type "A" ⟨0, 1⟩, .nested [.leaf .type "B" ⟨2, 3⟩] ⟨1, 4⟩] ∧
      (Token.listLevels 0 [.leaf .type "A" ⟨0, 1⟩, .nested [.leaf .type "B" ⟨2, 3⟩] ⟨1, 4⟩]).map Prod.snd =
        Token.listPreorder [.leaf .type "A" ⟨0, 1⟩, .nested [.leaf .type "B" ⟨2, 3⟩] ⟨1, 4⟩] ∧
      (Command.show 4294967296 .tokens false { indent := .int 4 } "A<B>"
          [.leaf .type "A" ⟨0, 1⟩, .nested [.leaf .type "B" ⟨2, 3⟩] ⟨1, 4⟩]).lines =
        ((Token.listLevels 0 [.leaf .type "A" ⟨0, 1⟩, .nested [.leaf .type "B" ⟨2, 3⟩] ⟨1, 4⟩]).takeWhile
          fun x => (4 : Int) * x.1 < indexBound).map (dumpLine 4) ∧
      ((Command.show 4294967296 .tokens false { indent := .int 4 } "A<B>"
          [.leaf .type "A" ⟨0, 1⟩, .nested [.leaf .type "B" ⟨2, 3⟩] ⟨1, 4⟩]).stop = none ↔
        ∀ x ∈ Token.listLevels 0 [.leaf .type "A" ⟨0, 1⟩, .nested [.leaf .type "B" ⟨2, 3⟩] ⟨1, 4⟩],
          (4 : Int) * x.1 < indexBound) ∧
      ((Command.show 4294967296 .tokens false { indent := .int 4 } "A<B>"
          [.leaf .type "A" ⟨0, 1⟩, .nested [.leaf .type "B" ⟨2, 3⟩] ⟨1, 4⟩]).stop = none ∨
        (Command.show 4294967296 .tokens false { indent := .int 4 } "A<B>"
          [.leaf .type "A" ⟨0, 1⟩, .nested [.leaf .type "B" ⟨2, 3⟩] ⟨1, 4⟩]).stop =
          some (.config .indexOverflow))) :=
  ⟨by decide, rfl, by decide, dump_tokens_preorder _ _ _ _ (by decide) rfl (by decide)⟩

/-- An indent of 2^63 dumps the type `A` and its region but not the type `B` inside the region, whose padding of 2^63
spaces does not fit in an index: two lines for the three tokens of the pre-order, even on a machine that holds the
longest text an index can address. -/
theorem dump_stops_at_wide_padding :
    (Command.show 9223372036854775807 .tokens false { indent := .int 9223372036854775808 } "A<B>"
        [.leaf .type "A" ⟨0, 1⟩, .nested [.leaf .type "B" ⟨2, 3⟩] ⟨1, 4⟩]).lines =
      ["TYPE 'A'", "NESTED"] ∧
    (Token.listPreorder [.leaf .type "A" ⟨0, 1⟩, .nested [.leaf .type "B" ⟨2, 3⟩] ⟨1, 4⟩]).length = 3 := by
  have hshow : ∀ (memory : Nat) (st : Settings) (text : String) (ts : List Token),
      Command.show memory .tokens false st text ts = indented memory st.indent (tokenRows ts) := fun _ _ _ _ => rfl
  rw [hshow, tokenRows_eq]
  decide

end ColumnDecl
