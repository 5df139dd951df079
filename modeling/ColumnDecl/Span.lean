import ColumnDecl.Text.Index

/-!
Spans: half-open ranges `[start, stop)` of code point offsets into a declaration. Every token
and every diagnostic label carries one. A span is written `start..stop`; its width may be
negative when it is given reversed, and its text is empty then. Its ends are read as indices:
an offset past the end stands for the end, and a negative one counts back from the end, so a
span given by hand always names some stretch of the text, possibly an empty one. The spans of
tokens start at an offset and end inside the text (`Span.Within`).
-/

namespace ColumnDecl

/-- A half-open range of code point offsets into a declaration. -/
structure Span where
  start : Int
  stop : Int
  deriving DecidableEq, Repr, Inhabited

namespace Span

/-- The span written as `start..stop`. -/
def toText (s : Span) : String := toString s.start ++ ".." ++ toString s.stop

/-- The number of offsets the span covers, negative when it is reversed. -/
def width (s : Span) : Int := s.stop - s.start

/-- The characters of `cs` that the span covers, its ends read as indices into `cs`. -/
def chars (s : Span) (cs : List Char) : List Char :=
  Text.between cs (Text.resolveIndex cs.length s.start) (Text.resolveIndex cs.length s.stop)

/-- The text of `decl` that the span covers. -/
def text (s : Span) (decl : String) : String := String.ofList (s.chars decl.toList)

/-- The span moved `k` offsets to the right, as when its text is found after a prefix. -/
def shift (k : Nat) (s : Span) : Span := ⟨s.start + k, s.stop + k⟩

/-- A span lies within text of length `n` when it starts at an offset, is ordered and ends
inside the text. -/
def Within (n : Nat) (s : Span) : Prop := 0 ≤ s.start ∧ s.start ≤ s.stop ∧ s.stop ≤ n

instance (n : Nat) (s : Span) : Decidable (s.Within n) :=
  inferInstanceAs (Decidable (_ ∧ _ ∧ _))

@[simp] theorem shift_start (k : Nat) (s : Span) : (s.shift k).start = s.start + k := rfl

@[simp] theorem shift_stop (k : Nat) (s : Span) : (s.shift k).stop = s.stop + k := rfl

theorem length_chars (s : Span) (cs : List Char) (h : s.Within cs.length) :
    ((s.chars cs).length : Int) = s.stop - s.start := by
  unfold Within at h
  simp only [chars, Text.between, Text.resolveIndex, List.length_take, List.length_drop]
  split <;> split <;> omega

end Span

end ColumnDecl
