import ColumnDecl.Toml.Value

/-!
Marks on the keys of a TOML document, which decide what a later statement may still do with a
key. A table declared by a header, or a table on the way of a dotted key, is `declared`: it
cannot be declared again. A value written inline, an array or a table, is `sealed` together
with everything below it. Marks sit in a tree of keys; a mark that passes down holds for every
key below its own.
-/

namespace ColumnDecl.Toml

/-- What a key is marked as. -/
inductive Mark where
  /-- Declared as a table by a header or by a dotted key. -/
  | declared
  /-- Written inline, so fixed with all below it. -/
  | sealed
  deriving DecidableEq, Repr

/-- The marks of a key, those that pass down to the keys below it, and the keys below it. -/
inductive Marks where
  | node (own : List Mark) (passed : List Mark) (below : List (String × Marks))
  deriving Inhabited

namespace Marks

/-- No marks at all. -/
def empty : Marks := .node [] [] []

/-- The keys directly below. -/
def children : Marks → List (String × Marks)
  | .node _ _ b => b

/-- The marks below `k`. -/
def child? (t : Marks) (k : String) : Option Marks := t.children.lookup k

/-- `t` with the marks below `k` replaced, or added last. -/
def withChild (t : Marks) (k : String) (c : Marks) : Marks :=
  match t with
  | .node own passed below =>
    if (below.lookup k).isSome then
      .node own passed (below.map fun (k', c') => if k' = k then (k', c) else (k', c'))
    else .node own passed (below ++ [(k, c)])

/-- Whether `key` carries mark `m`, as its own or passed down from a key above it. The
document itself carries none. -/
def has (t : Marks) (m : Mark) : Key → Bool
  | [] => false
  | [k] =>
    match t.child? k with
    | some (.node own passed _) => own.contains m || passed.contains m
    | none => false
  | k :: ks =>
    match t.child? k with
    | some c =>
      match c with
      | .node _ passed _ => passed.contains m || c.has m ks
    | none => false

/-- Adds mark `m` to `key`, passing down to the keys below it when `passes`. -/
def mark (t : Marks) (m : Mark) (passes : Bool) : Key → Marks
  | [] => t
  | [k] =>
    match (t.child? k).getD empty with
    | .node own passed below =>
      t.withChild k (if passes then .node own (passed ++ [m]) below else .node (own ++ [m]) passed below)
  | k :: ks => t.withChild k (((t.child? k).getD empty).mark m passes ks)

/-- Removes every mark of `key` and of the keys below it. -/
def clear (t : Marks) : Key → Marks
  | [] => t
  | [k] =>
    match t with
    | .node own passed below => .node own passed (below.filter (·.1 != k))
  | k :: ks =>
    match t.child? k with
    | some c => t.withChild k (c.clear ks)
    | none => t

end Marks

end ColumnDecl.Toml
