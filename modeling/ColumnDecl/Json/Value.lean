/-!
JSON documents: the values that token trees and field definitions are written as. Objects keep
their keys in the order they were built, which is the order they are written in.
-/

namespace ColumnDecl.Json

/-- A JSON value; object members keep their order. -/
inductive Value where
  | null
  | bool (b : Bool)
  | int (i : Int)
  | str (s : String)
  | arr (items : List Value)
  | obj (members : List (String × Value))
  deriving Repr, Inhabited

end ColumnDecl.Json
