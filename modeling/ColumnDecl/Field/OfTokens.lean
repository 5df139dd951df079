import ColumnDecl.Field.Basic
import ColumnDecl.Token.Tokenize

/-!
Field definitions read off a token tree. The tokens split at each delimiter into groups, one per
field; a group left empty by a trailing delimiter is dropped, one left empty elsewhere is a
field without a type. In a group the last name, type and length win and a nested token gives
the nested fields. Folding recurses once per level of nesting, two frames a level, so a tree
nested deeper than `foldDepth` levels stops it with `tooDeep`.
-/

namespace ColumnDecl

/-- The tokens between delimiters: one group per field, the last dropped when it is empty. -/
def splitGroups (ts : List Token) : List (List Token) :=
  let groups := go [] ts
  match groups.getLast? with
  | some [] => groups.dropLast
  | _ => groups
where
  /-- The groups of `ts`, with `acc` the tokens of the current group so far, latest first. -/
  go (acc : List Token) : List Token → List (List Token)
    | [] => [acc.reverse]
    | t :: ts => if t.isDelimiter then acc.reverse :: go [] ts else go (t :: acc) ts

/-- A field definition being folded from its tokens. -/
structure FieldDraft where
  name : Option String := none
  type : Option String := none
  length : Option String := none
  fields : List Field := []

/-- The field definition of a complete draft; a draft without a type is none. -/
def FieldDraft.finish : FieldDraft → Except TreeError Field
  | ⟨name, some type, length, fields⟩ => .ok ⟨name, type, length, fields⟩
  | ⟨_, none, _, _⟩ => .error .missingType

/-- The draft with one more token of its group: the last name, type and length win, and a nested
token gives the fields that `fold` reads off its children. -/
def FieldDraft.add (fold : List Token → Except TreeError (List Field)) (d : FieldDraft) :
    Token → Except TreeError FieldDraft
  | .nested cs _ => do
    let fs ← fold cs
    pure { d with fields := fs }
  | .leaf .name l _ => pure { d with name := some l }
  | .leaf .type l _ => pure { d with type := some l }
  | .leaf .length l _ => pure { d with length := some l }
  | .leaf .delimiter _ _ => pure d

/-- The field definition of the tokens of one group. -/
def FieldDraft.ofGroup (fold : List Token → Except TreeError (List Field)) (group : List Token) :
    Except TreeError Field := do
  let draft ← group.foldlM (FieldDraft.add fold) {}
  draft.finish

namespace Field

/-- The field definitions of a token list that may nest `budget - 1` more levels. -/
def ofTokensWithin : Nat → List Token → Except TreeError (List Field)
  | 0, _ => .error .tooDeep
  | b + 1, ts => (splitGroups ts).mapM (FieldDraft.ofGroup (ofTokensWithin b))

/-- The deepest token tree that folds into field definitions: folding takes two frames a
level, one to split a list into groups and one to fold a group, and four besides. -/
def foldDepth : Nat := depthWithin 2 4

/-- The field definitions of a token tree nested at most `foldDepth` levels. -/
def ofTokens (ts : List Token) : Except TreeError (List Field) :=
  ofTokensWithin (foldDepth + 1) ts

/-- The canonical text of a token tree: its field definitions, separated by `, `. -/
def renderTokens (ts : List Token) : Except TreeError String := do
  render? (← ofTokens ts)

end Field

/-- Why a declaration gives no field definitions. -/
inductive ReadError where
  | malformed (m : Malformed)
  | tree (e : TreeError)
  deriving Repr

namespace Field

/-- The field definitions of a declaration. -/
def readAll (decl : String) : Except ReadError (List Field) :=
  match tokenize decl with
  | .error m => .error (.malformed m)
  | .ok ts => (ofTokens ts).mapError .tree

/-- The one field definition of a declaration; any other number is refused. -/
def parse (decl : String) : Except ReadError Field := do
  match ← readAll decl with
  | [f] => pure f
  | fs => throw (.malformed (.fieldCount fs.length decl.length))

end Field

end ColumnDecl
