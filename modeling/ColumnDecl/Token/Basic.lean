import ColumnDecl.Span

/-!
Token trees. A declaration reads as a sequence of tokens: leaves carry a kind, a lexeme and a
span; a nested token carries the tokens of one `<...>` region and the span from `<` through
`>`. This module holds the tree, its pre-order view (`Token.preorder`), the traversal with an
explicit stack that dumps use (`Token.walkLevels`, which works at any depth), the tree without
spans (`Shape`), and the frame budget that bounds the recursive views of a tree.
-/

namespace ColumnDecl

/-- The kinds of leaf token. -/
inductive LeafKind where
  /-- A field name, the first of two identifiers. -/
  | name
  /-- A type name. -/
  | type
  /-- The text between the parentheses of a length argument. -/
  | length
  /-- The comma between two field definitions. -/
  | delimiter
  deriving DecidableEq, Repr, Inhabited

/-- The kind as token trees and dumps spell it. -/
def LeafKind.label : LeafKind → String
  | .name => "NAME"
  | .type => "TYPE"
  | .length => "LENGTH"
  | .delimiter => "FIELD_DELIMITER"

/-- What a kind label names: a leaf kind, or a nested region. -/
inductive KindLabel where
  | leaf (kind : LeafKind)
  | nested
  deriving DecidableEq, Repr

/-- Reads a kind label back, as spelled by `LeafKind.label` or `NESTED`. -/
def KindLabel.ofString? : String → Option KindLabel
  | "NAME" => some (.leaf .name)
  | "TYPE" => some (.leaf .type)
  | "LENGTH" => some (.leaf .length)
  | "FIELD_DELIMITER" => some (.leaf .delimiter)
  | "NESTED" => some .nested
  | _ => none

/-- A token: a leaf, or the tokens of a nested region. -/
inductive Token where
  | leaf (kind : LeafKind) (lexeme : String) (span : Span)
  | nested (children : List Token) (span : Span)
  deriving Repr, Inhabited

/-- A token without its span: what two readings of equivalent text have in common. -/
inductive Shape where
  | leaf (kind : LeafKind) (lexeme : String)
  | nested (children : List Shape)
  deriving Repr

mutual
/-- Equality of shapes is decidable, region by region. -/
def Shape.decEq : (a b : Shape) → Decidable (a = b)
  | .leaf k l, .leaf k' l' =>
    if h : k = k' ∧ l = l' then isTrue (by rw [h.1, h.2])
    else isFalse (by intro e; cases e; exact h ⟨rfl, rfl⟩)
  | .leaf .., .nested .. => isFalse (by intro e; cases e)
  | .nested .., .leaf .. => isFalse (by intro e; cases e)
  | .nested cs, .nested cs' =>
    match Shape.listDecEq cs cs' with
    | isTrue h => isTrue (by rw [h])
    | isFalse h => isFalse (by intro e; cases e; exact h rfl)

/-- Equality of lists of shapes is decidable, shape by shape. -/
def Shape.listDecEq : (a b : List Shape) → Decidable (a = b)
  | [], [] => isTrue rfl
  | [], _ :: _ => isFalse (by intro e; cases e)
  | _ :: _, [] => isFalse (by intro e; cases e)
  | a :: as, b :: bs =>
    match Shape.decEq a b, Shape.listDecEq as bs with
    | isTrue h1, isTrue h2 => isTrue (by rw [h1, h2])
    | isFalse h, _ => isFalse (by intro e; cases e; exact h rfl)
    | _, isFalse h => isFalse (by intro e; cases e; exact h rfl)
end

instance : DecidableEq Shape := Shape.decEq

/-- Why a recursive view of a token or field tree gives no answer. -/
inductive TreeError where
  /-- The tree nests deeper than the view fits in the frame budget. -/
  | tooDeep
  /-- A field definition has no type token. -/
  | missingType
  deriving DecidableEq, Repr

/-- The interpreter frames that a recursive view of a tree may take: a limit of 1000, less the
15 that a command of the command line takes before it calls the view. -/
def frameBudget : Nat := 985

/-- The deepest nesting that a recursive view fits in the frame budget, when it takes
`perLevel` frames for each level of nesting and `extra` frames besides. -/
def depthWithin (perLevel extra : Nat) : Nat := (frameBudget - extra) / perLevel

/-- The deepest tree that is written as a JSON document: writing takes two frames a level, one
for the list of tokens and one for the object of a token, and six besides. -/
def documentDepth : Nat := depthWithin 2 6

/-- The text of a tree error. -/
def TreeError.message : TreeError → String
  | .tooDeep => "maximum recursion depth exceeded"
  | .missingType => "field definition has no TYPE token"

namespace Token

/-- The span of a token. -/
def span : Token → Span
  | .leaf _ _ s => s
  | .nested _ s => s

/-- The kind of a token as dumps spell it; `NESTED` for a nested region. -/
def kindLabel : Token → String
  | .leaf k _ _ => k.label
  | .nested _ _ => "NESTED"

/-- The lexeme of a leaf, none for a nested region. -/
def lexeme? : Token → Option String
  | .leaf _ l _ => some l
  | .nested _ _ => none

/-- Whether the token is the comma between two field definitions. -/
def isDelimiter : Token → Bool
  | .leaf .delimiter _ _ => true
  | _ => false

mutual
/-- How deeply a token nests: zero for a leaf. -/
def depth : Token → Nat
  | .leaf .. => 0
  | .nested cs _ => listDepth cs + 1

/-- How deeply the deepest of a list of tokens nests. -/
def listDepth : List Token → Nat
  | [] => 0
  | t :: ts => max (depth t) (listDepth ts)
end

mutual
/-- Every token of a tree, each before the tokens of its region, in source order. -/
def preorder : Token → List Token
  | .leaf k l s => [.leaf k l s]
  | .nested cs s => .nested cs s :: listPreorder cs

/-- The pre-order of each token of a list, one after the other. -/
def listPreorder : List Token → List Token
  | [] => []
  | t :: ts => preorder t ++ listPreorder ts
end

mutual
/-- The token without its span. -/
def shape : Token → Shape
  | .leaf k l _ => .leaf k l
  | .nested cs _ => .nested (listShape cs)

/-- The tokens without their spans. -/
def listShape : List Token → List Shape
  | [] => []
  | t :: ts => shape t :: listShape ts
end

mutual
/-- The number of tokens in a tree. -/
def size : Token → Nat
  | .leaf .. => 1
  | .nested cs _ => listSize cs + 1

/-- The number of tokens in a list of trees. -/
def listSize : List Token → Nat
  | [] => 0
  | t :: ts => size t + listSize ts
end

theorem size_pos (t : Token) : 0 < t.size := by
  cases t <;> simp [size]

/-- What remains to visit: one list of tokens per open region, innermost first. -/
abbrev Pending := List (List Token)

/-- How much work a stack of pending lists holds: two for each token, one for each list. -/
def Pending.weight (p : Pending) : Nat := p.foldr (fun ts w => 2 * listSize ts + 1 + w) 0

/-- Each token of the pending lists with its nesting level below the first list, visiting a
token before the tokens of its region. The stack holds the lists still to visit, so the walk
takes no more room per level than one list. -/
def walkFrom (p : Pending) : List (Nat × Token) :=
  match p with
  | [] => []
  | [] :: rest => walkFrom rest
  | (t :: ts) :: rest =>
    match t with
    | .leaf k l s => (rest.length, .leaf k l s) :: walkFrom (ts :: rest)
    | .nested cs s => (rest.length, .nested cs s) :: walkFrom (cs :: ts :: rest)
termination_by p.weight
decreasing_by
  all_goals simp [Pending.weight, listSize, size]
  all_goals omega

/-- Each token of a tree in pre-order, with its nesting level. -/
def walkLevels (ts : List Token) : List (Nat × Token) := walkFrom [ts]

/-- Each token of a tree in pre-order. -/
def walk (ts : List Token) : List Token := (walkLevels ts).map (·.2)

/-- The tree, or `tooDeep` when it nests deeper than `documentDepth`. -/
def checkDepth (ts : List Token) : Except TreeError (List Token) :=
  if listDepth ts ≤ documentDepth then .ok ts else .error .tooDeep

/-- The deepest tree whose shapes are listed: listing recurses one frame a level and takes
nothing besides. -/
def shapeDepth : Nat := depthWithin 1 0

/-- The shapes of a tree's tokens, or `tooDeep` when it nests deeper than `shapeDepth`. -/
def shapes? (ts : List Token) : Except TreeError (List Shape) :=
  if listDepth ts ≤ shapeDepth then .ok (listShape ts) else .error .tooDeep

end Token

end ColumnDecl
