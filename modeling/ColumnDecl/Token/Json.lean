import ColumnDecl.Token.Basic
import ColumnDecl.Json.Value

/-!
Token trees as JSON documents. A leaf is written `{kind, start, end, lexeme}` and a nested token
`{kind, start, end, children}`, in that key order. Writing recurses once per level of nesting,
so a tree deeper than `documentDepth` is refused.
-/

namespace ColumnDecl.Token

mutual
/-- A token as a JSON object. -/
def toJson : Token → Json.Value
  | .leaf k l s =>
    .obj [("kind", .str k.label), ("start", .int s.start), ("end", .int s.stop),
      ("lexeme", .str l)]
  | .nested cs s =>
    .obj [("kind", .str "NESTED"), ("start", .int s.start), ("end", .int s.stop),
      ("children", .arr (listToJson cs))]

/-- Tokens as JSON objects, in order. -/
def listToJson : List Token → List Json.Value
  | [] => []
  | t :: ts => toJson t :: listToJson ts
end

/-- A token tree as a JSON array, for a tree no deeper than `documentDepth`. -/
def document? (ts : List Token) : Except TreeError Json.Value :=
  (checkDepth ts).map fun ts => .arr (listToJson ts)

end ColumnDecl.Token
