import ColumnDecl.Proofs.Dump

/-
A run over the lines of standard input is the runs over each line on its own, one after the other.

What a declaration writes does not depend on what the declarations before it wrote: the run keeps nothing of them but
its failure flag, which it only ever sets. So a run over many declarations is the runs over each joined by
`Outcome.andThen`, which concatenates the streams and the logs and keeps the worse status, up to the first run that a
settings fault ends; that fault ends the whole run there.

- `Transcript.Appends`: a change of the transcript that writes the same after whatever the transcript held;
- `go_cons`: one declaration changes the transcript by such a change, then the run goes on or a fault ends it;
- `go_append`: the run from a transcript that holds `t` before `u` writes `t` first, then the run from `u`;
- `runCommand_eq_foldr`: a run over many declarations is the runs over each, joined by `Outcome.andThen`;
- `batch_joins_line_runs`: over the lines of standard input, none of them `-`, the run is the runs over each line,
  joined; when no line's run ends at a fault, its standard output and standard error are the concatenations of theirs
  and it fails exactly when one of them does;
- `batch_stops_at_fault`: an indent too wide for the region of the first line ends the run before the second line,
  whose run on its own writes its type.
-/

namespace ColumnDecl.Cli

open Toml

/-- the run `rest` after the run `o`, unless a fault ended `o`: the streams and the logs joined, the worse status, and
the fault of `rest` -/
def Outcome.andThen (o rest : Outcome) : Outcome :=
  match o.fault with
  | some _ => o
  | none => ⟨max o.exitCode rest.exitCode, o.stdout ++ rest.stdout, o.stderr ++ rest.stderr, o.log ++ rest.log,
      rest.fault⟩

/-- Text without an escape character passes through unchanged. -/
theorem stripEscapes_of_plain : ∀ cs : List Char, '\x1b' ∉ cs → stripEscapes cs = cs := by
  intro cs
  fun_induction stripEscapes cs with
  | case1 => intro _; rfl
  | case5 c r _ ih => intro h; simp_all
  -- every other case starts with an escape character
  | case2 | case3 | case4 => intro h; simp at h

namespace Transcript

/-- A line without an escape character is written as it is. -/
theorem say_plain (t : Transcript) {s : String} (h : '\x1b' ∉ (s ++ "\n").toList) :
    t.say s = { t with out := t.out ++ (s ++ "\n") } := by
  unfold Transcript.say
  rw [stripEscapes_of_plain _ h, String.ofList_toList]

/-- `u` written after `t`: the streams and the log go on, and the run has failed when either part has -/
def append (t u : Transcript) : Transcript :=
  ⟨t.out ++ u.out, t.err ++ u.err, t.log ++ u.log, t.failed || u.failed⟩

@[simp] theorem append_empty (t : Transcript) : t.append {} = t := by
  simp [append]

@[simp] theorem empty_append (t : Transcript) : ({} : Transcript).append t = t := by
  simp [append]

theorem append_assoc (t u v : Transcript) : (t.append u).append v = t.append (u.append v) := by
  simp [append, String.append_assoc, Bool.or_assoc]

/-- a change of the transcript that writes the same after whatever the transcript held -/
def Appends (E : Transcript → Transcript) : Prop := ∀ t, E t = t.append (E {})

theorem Appends.id : Appends fun t => t := fun t => by simp

theorem Appends.comp {E F : Transcript → Transcript} (hE : Appends E) (hF : Appends F) :
    Appends fun t => F (E t) := fun t => by
  show F (E t) = t.append (F (E {}))
  rw [hF (E t), hE t, hF (E {}), append_assoc]

theorem Appends.say (s : String) : Appends fun t => t.say s := fun t => by
  simp [Transcript.say, append]

theorem Appends.warn (s : String) : Appends fun t => t.warn s := fun t => by
  simp [Transcript.warn, append]

theorem Appends.fail : Appends fun t => { t with failed := true } := fun t => by
  simp [append]

theorem Appends.log (l : String) : Appends fun t => { t with log := t.log ++ [l] } := fun t => by
  simp [append]

theorem Appends.foldl_say : ∀ ls : List String, Appends fun t => ls.foldl Transcript.say t
  | [] => .id
  | s :: ls => (Appends.say s).comp (Appends.foldl_say ls)

/-- the transcript with the debug line of a declaration, when the run logs and the declaration has one -/
def logged (verbose : Bool) (line : Option String) (t : Transcript) : Transcript :=
  match verbose, line with
  | true, some l => { t with log := t.log ++ [l] }
  | _, _ => t

theorem Appends.logged (verbose : Bool) (line : Option String) : Appends (logged verbose line) := by
  cases verbose <;> cases line <;> first | exact .id | exact .log _

theorem finish_append (t u : Transcript) : (t.append u).finish = t.finish.andThen u.finish := by
  cases ht : t.failed <;> cases hu : u.failed <;> simp [finish, append, Outcome.andThen, ht, hu]

theorem abort_append (t u : Transcript) (f : ConfigFault) :
    (t.append u).abort f = t.finish.andThen (u.abort f) := by
  cases ht : t.failed <;> simp [finish, abort, append, Outcome.andThen, ht]

end Transcript

/-- Runs that no fault ends, joined, write what each wrote, one after the other, and fail exactly when one of them
fails. -/
theorem foldr_andThen_of_no_fault : ∀ os : List Outcome, (∀ o ∈ os, o.fault = none) → (∀ o ∈ os, o.exitCode ≤ 1) →
    (os.foldr Outcome.andThen ({} : Transcript).finish).stdout = String.join (os.map (·.stdout)) ∧
    (os.foldr Outcome.andThen ({} : Transcript).finish).stderr = String.join (os.map (·.stderr)) ∧
    ((os.foldr Outcome.andThen ({} : Transcript).finish).exitCode = 1 ↔ ∃ o ∈ os, o.exitCode = 1) ∧
    (os.foldr Outcome.andThen ({} : Transcript).finish).exitCode ≤ 1 ∧
    (os.foldr Outcome.andThen ({} : Transcript).finish).fault = none
  | [], _, _ => by simp [Transcript.finish]
  | o :: os, hfault, hexit => by
    obtain ⟨hout, herr, hcode, hle, hnone⟩ :=
      foldr_andThen_of_no_fault os (fun o' h => hfault o' (by simp [h])) (fun o' h => hexit o' (by simp [h]))
    have ho : o.fault = none := hfault o (by simp)
    have hle' : o.exitCode ≤ 1 := hexit o (by simp)
    simp only [List.foldr_cons, Outcome.andThen, ho, List.map_cons, String.join_cons, hout, herr, hnone,
      List.mem_cons, exists_eq_or_imp, ← hcode]
    refine ⟨trivial, trivial, ?_, ?_, trivial⟩ <;> omega

open Transcript

section Run

variable (memory : Nat) (c : Command) (flag verbose : Bool) (st : Settings)

/-- One declaration changes the transcript by a change that writes the same after whatever it held; then the run goes
on over the declarations left, or a settings fault ends it. -/
theorem go_cons (x : String) :
    ∃ (E : Transcript → Transcript) (fault : Option ConfigFault), Appends E ∧
      ∀ t more, runCommand.go memory c flag verbose st t (x :: more) =
        match fault with
        | some f => (E t).abort f
        | none => runCommand.go memory c flag verbose st (E t) more := by
  cases hlen : st.maxLength.isExceededBy x.length with
  | error f => exact ⟨fun t => t, some f, .id, fun t more => by simp only [runCommand.go, hlen]⟩
  | ok long =>
    cases long with
    | true =>
      refine ⟨fun t => { t.warn ("error: declaration is " ++ toString x.length ++ " characters long, limit is " ++
        st.maxLength.limitText) with failed := true }, none, (Appends.warn _).comp .fail, fun t more => ?_⟩
      simp only [runCommand.go, hlen]
    | false =>
      -- past the length check the declaration is logged, and what follows starts from the logged transcript
      have hlog := Appends.logged verbose (logLine x (tokenize x))
      cases hr : tokenize x with
      | error m =>
        refine ⟨fun t => { (logged verbose (logLine x (tokenize x)) t).warn (m.diagnostic.render st.color.isOn x) with
          failed := true }, none, hlog.comp ((Appends.warn _).comp .fail), fun t more => ?_⟩
        simp only [runCommand.go, hlen, hr]
        rfl
      | ok ts =>
        have hsay := hlog.comp (Appends.foldl_say (c.show memory flag st x ts).lines)
        cases hstop : (c.show memory flag st x ts).stop with
        | some e =>
          cases e with
          | config f =>
            refine ⟨fun t => (c.show memory flag st x ts).lines.foldl Transcript.say
              (logged verbose (logLine x (tokenize x)) t), some f, hsay, fun t more => ?_⟩
            simp only [runCommand.go, hlen, hr, hstop]
            rfl
          | tooDeep =>
            refine ⟨fun t => { ((c.show memory flag st x ts).lines.foldl Transcript.say
              (logged verbose (logLine x (tokenize x)) t)).warn "error: declaration nests too deeply to display" with
                failed := true }, none, hsay.comp ((Appends.warn _).comp .fail), fun t more => ?_⟩
            simp only [runCommand.go, hlen, hr, hstop]
            rfl
        | none =>
          cases hcontent : (c.show memory flag st x ts).content with
          | true =>
            refine ⟨fun t => (c.show memory flag st x ts).lines.foldl Transcript.say
              (logged verbose (logLine x (tokenize x)) t), none, hsay, fun t more => ?_⟩
            simp only [runCommand.go, hlen, hr, hstop, hcontent]
            rfl
          | false =>
            refine ⟨fun t => { (c.show memory flag st x ts).lines.foldl Transcript.say
              (logged verbose (logLine x (tokenize x)) t) with failed := true }, none, hsay.comp .fail,
              fun t more => ?_⟩
            simp only [runCommand.go, hlen, hr, hstop, hcontent]
            rfl

/-- The run from a transcript that holds `t` before `u` writes `t` first, then what the run from `u` writes; by induction
on the declarations, each writing the same after `t` as without it. -/
theorem go_append (t : Transcript) :
    ∀ (u : Transcript) (texts : List String),
      runCommand.go memory c flag verbose st (t.append u) texts =
        t.finish.andThen (runCommand.go memory c flag verbose st u texts)
  | u, [] => by simp only [runCommand.go, finish_append]
  | u, x :: more => by
    obtain ⟨E, fault, hE, hgo⟩ := go_cons memory c flag verbose st x
    rw [hgo, hgo, hE (t.append u), hE u, append_assoc]
    cases fault with
    | some f => exact abort_append t _ f
    | none => exact go_append t _ more

/-- A run over a declaration and more is the run over the declaration alone, then, unless a fault ended it, the run
over the rest. -/
theorem runCommand_cons (x : String) (more : List String) :
    runCommand memory c flag verbose st (x :: more) =
      (runCommand memory c flag verbose st [x]).andThen (runCommand memory c flag verbose st more) := by
  obtain ⟨E, fault, hE, hgo⟩ := go_cons memory c flag verbose st x
  simp only [runCommand, hgo]
  cases fault with
  | some f => rfl
  | none =>
    -- the rest is run from the transcript the declaration wrote
    have hrest := go_append memory c flag verbose st (E {}) {} more
    rw [append_empty] at hrest
    rw [hrest]
    rfl

/-- A run over many declarations is the runs over each declaration alone, joined. -/
theorem runCommand_eq_foldr (texts : List String) :
    runCommand memory c flag verbose st texts =
      (texts.map fun x => runCommand memory c flag verbose st [x]).foldr Outcome.andThen ({} : Transcript).finish := by
  induction texts with
  | nil => rfl
  | cons x more ih => rw [runCommand_cons, ih, List.map_cons, List.foldr_cons]

/-- A run over one declaration ends with status 0 or 1. -/
theorem runCommand_single_exitCode (x : String) : (runCommand memory c flag verbose st [x]).exitCode ≤ 1 := by
  obtain ⟨E, fault, -, hgo⟩ := go_cons memory c flag verbose st x
  simp only [runCommand, hgo]
  cases fault with
  | some f => simp [abort]
  | none =>
    simp only [runCommand.go, finish]
    split <;> omega

/-- A declaration other than `-` is the one declaration a command works on. -/
theorem declarations_of_ne_dash {x : String} (h : x ≠ "-") (stdin : String) : declarations x stdin = [x] := by
  simp [declarations, h]

/-- Over the lines of standard input, none of them `-`, a run is the runs over each line on its own, joined. When no
line's run ends at a settings fault, the run writes to each stream what those runs wrote, one after the other, ends with
no fault, and fails exactly when one of them fails. -/
theorem batch_joins_line_runs (stdin : String) (hdash : ∀ x ∈ declarations "-" stdin, x ≠ "-") :
    runCommand memory c flag verbose st (declarations "-" stdin) =
        ((declarations "-" stdin).map fun x => runCommand memory c flag verbose st (declarations x stdin)).foldr
          Outcome.andThen ({} : Transcript).finish ∧
      ((∀ x ∈ declarations "-" stdin, (runCommand memory c flag verbose st (declarations x stdin)).fault = none) →
        (runCommand memory c flag verbose st (declarations "-" stdin)).stdout =
            String.join ((declarations "-" stdin).map fun x =>
              (runCommand memory c flag verbose st (declarations x stdin)).stdout) ∧
          (runCommand memory c flag verbose st (declarations "-" stdin)).stderr =
            String.join ((declarations "-" stdin).map fun x =>
              (runCommand memory c flag verbose st (declarations x stdin)).stderr) ∧
          ((runCommand memory c flag verbose st (declarations "-" stdin)).exitCode = 1 ↔
            ∃ x ∈ declarations "-" stdin,
              (runCommand memory c flag verbose st (declarations x stdin)).exitCode = 1) ∧
          (runCommand memory c flag verbose st (declarations "-" stdin)).fault = none) := by
  -- each line is the one declaration of its own run
  have hlines : (declarations "-" stdin).map (fun x => runCommand memory c flag verbose st (declarations x stdin)) =
      (declarations "-" stdin).map fun x => runCommand memory c flag verbose st [x] :=
    List.map_congr_left fun x hx => by rw [declarations_of_ne_dash (hdash x hx)]
  have hjoin := runCommand_eq_foldr memory c flag verbose st (declarations "-" stdin)
  rw [← hlines] at hjoin
  refine ⟨hjoin, fun hfault => ?_⟩
  have hexit : ∀ o ∈ (declarations "-" stdin).map
      (fun x => runCommand memory c flag verbose st (declarations x stdin)),
      o.exitCode ≤ 1 := by
    rw [hlines]
    simp only [List.mem_map]
    rintro o ⟨x, -, rfl⟩
    exact runCommand_single_exitCode memory c flag verbose st x
  obtain ⟨hout, herr, hcode, -, hnone⟩ := foldr_andThen_of_no_fault _ (by simpa using hfault) hexit
  rw [hjoin]
  simp only [List.map_map] at hout herr
  refine ⟨hout, herr, hcode.trans ⟨?_, ?_⟩, hnone⟩
  · rintro ⟨_, ho, h⟩
    obtain ⟨x, hx, rfl⟩ := List.exists_of_mem_map ho
    exact ⟨x, hx, h⟩
  · rintro ⟨x, hx, h⟩
    exact ⟨_, List.mem_map_of_mem hx, h⟩

end Run

/-- Two lines, a type and a type with a region, on a machine that holds 2^32 characters in one text: each line alone
is the one declaration of its run. -/
theorem batch_joins_line_runs_two_lines :
    (∀ x ∈ declarations "-" "A\nB<C>", x ≠ "-") ∧
    (runCommand 4294967296 .tokens false false {} (declarations "-" "A\nB<C>") =
        ((declarations "-" "A\nB<C>").map fun x =>
          runCommand 4294967296 .tokens false false {} (declarations x "A\nB<C>")).foldr
          Outcome.andThen ({} : Transcript).finish ∧
      ((∀ x ∈ declarations "-" "A\nB<C>",
          (runCommand 4294967296 .tokens false false {} (declarations x "A\nB<C>")).fault = none) →
        (runCommand 4294967296 .tokens false false {} (declarations "-" "A\nB<C>")).stdout =
            String.join ((declarations "-" "A\nB<C>").map fun x =>
              (runCommand 4294967296 .tokens false false {} (declarations x "A\nB<C>")).stdout) ∧
          (runCommand 4294967296 .tokens false false {} (declarations "-" "A\nB<C>")).stderr =
            String.join ((declarations "-" "A\nB<C>").map fun x =>
              (runCommand 4294967296 .tokens false false {} (declarations x "A\nB<C>")).stderr) ∧
          ((runCommand 4294967296 .tokens false false {} (declarations "-" "A\nB<C>")).exitCode = 1 ↔
            ∃ x ∈ declarations "-" "A\nB<C>",
              (runCommand 4294967296 .tokens false false {} (declarations x "A\nB<C>")).exitCode = 1) ∧
          (runCommand 4294967296 .tokens false false {} (declarations "-" "A\nB<C>")).fault = none)) :=
  ⟨by decide, batch_joins_line_runs 4294967296 .tokens false false {} "A\nB<C>" (by decide)⟩

unseal fieldAt closeAt in
/-- With an indent of 2^63 the region of the first line cannot be dumped: the fault ends the run there, and the second
line, whose run alone writes its type, is not read. -/
theorem batch_stops_at_fault :
    (runCommand 4294967296 .tokens false false { indent := .int 9223372036854775808 }
        (declarations "-" "a<b>\nc")).stdout =
        "TYPE 'a'\nNESTED\n" ∧
      String.join ((declarations "-" "a<b>\nc").map fun x =>
        (runCommand 4294967296 .tokens false false { indent := .int 9223372036854775808 }
          (declarations x "a<b>\nc")).stdout) =
        "TYPE 'a'\nNESTED\nTYPE 'c'\n" := by
  have hlines : declarations "-" "a<b>\nc" = ["a<b>", "c"] := by decide
  have ha : tokenize "a<b>" = .ok [.leaf .type "a" ⟨0, 1⟩, .nested [.leaf .type "b" ⟨2, 3⟩] ⟨1, 4⟩] := rfl
  have hc : tokenize "c" = .ok [.leaf .type "c" ⟨0, 1⟩] := rfl
  have hlenA : (Value.int 65536).isExceededBy "a<b>".length = .ok false := rfl
  have hlenC : (Value.int 65536).isExceededBy "c".length = .ok false := rfl
  -- the dump goes through the levels of the tokens, not through the walk
  have hshow : ∀ (st : Settings) (text : String) (ts : List Token),
      Command.show 4294967296 .tokens false st text ts = indented 4294967296 st.indent (tokenRows ts) :=
    fun _ _ _ => rfl
  have hshowA : Command.show 4294967296 .tokens false { indent := .int 9223372036854775808 } "a<b>"
      [.leaf .type "a" ⟨0, 1⟩, .nested [.leaf .type "b" ⟨2, 3⟩] ⟨1, 4⟩] =
      { lines := ["TYPE 'a'", "NESTED"], stop := some (.config .indexOverflow) } := by
    rw [hshow, tokenRows_eq]
    rfl
  have hshowC : Command.show 4294967296 .tokens false { indent := .int 9223372036854775808 } "c"
      [.leaf .type "c" ⟨0, 1⟩] =
      { lines := ["TYPE 'c'"] } := by
    rw [hshow, tokenRows_eq]
    rfl
  simp only [hlines, List.map_cons, List.map_nil]
  rw [declarations_of_ne_dash (by decide) "a<b>\nc", declarations_of_ne_dash (by decide) "a<b>\nc", runCommand_cons]
  simp only [runCommand, runCommand.go, ha, hc, hshowA, hshowC, hlenA, hlenC]
  simp (disch := decide) only [List.foldl_cons, List.foldl_nil, Transcript.say_plain]
  simp only [Transcript.abort, Transcript.finish, Outcome.andThen, if_true]
  constructor <;> decide

end ColumnDecl.Cli
