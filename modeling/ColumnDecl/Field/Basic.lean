import ColumnDecl.Token.Basic

/-!
Field definitions: an optional name, a type, and either a length argument or the field
definitions of a nested region (`ARRAY<T>` has one unnamed field for its element type,
`STRUCT<a A, b B>` one per member). `Field.declaration` writes one back as canonical text: the
name and type with one space between them, the length in parentheses, or the nested fields
between `<` and `>` separated by `, `. A length wins over nested fields.
-/

namespace ColumnDecl

/-- One `[name] TYPE [(length) | <fields>]` unit of a declaration. -/
structure Field where
  name : Option String
  type : String
  length : Option String := none
  fields : List Field := []
  deriving Repr, Inhabited

namespace Field

/-- Whether the field has nested fields. -/
def isComplex (f : Field) : Bool := !f.fields.isEmpty

/-- The name and type, with a space between them when there is a name. -/
def head (f : Field) : String :=
  match f.name with
  | none => f.type
  | some n => n ++ " " ++ f.type

mutual
/-- The canonical text of a field definition. -/
def declaration : Field → String
  | ⟨name, type, length, fields⟩ =>
    let head := match name with
      | none => type
      | some n => n ++ " " ++ type
    match length with
    | some l => head ++ "(" ++ l ++ ")"
    | none =>
      match fields with
      | [] => head
      | f :: fs => head ++ "<" ++ joinDeclarations (f :: fs) ++ ">"

/-- The canonical texts of field definitions, separated by `, `. -/
def joinDeclarations : List Field → String
  | [] => ""
  | [f] => declaration f
  | f :: fs => declaration f ++ ", " ++ joinDeclarations fs
end

mutual
/-- How deeply a field's definitions nest: zero without nested fields. -/
def depth : Field → Nat
  | ⟨_, _, _, fields⟩ => listDepth fields

/-- How deeply the deepest of a list of field definitions nests, counting the list. -/
def listDepth : List Field → Nat
  | [] => 0
  | f :: fs => max (depth f + 1) (listDepth fs)
end

/-- The deepest nesting of fields that is written as text: writing a field takes three frames
a level, one for the field and two for the generator that joins its fields, and two besides. -/
def renderDepth : Nat := depthWithin 3 2

/-- The canonical text of a list of field definitions nested at most `renderDepth` levels. -/
def render? (fs : List Field) : Except TreeError String :=
  if listDepth fs ≤ renderDepth + 1 then .ok (joinDeclarations fs) else .error .tooDeep

/-- The canonical text of a field definition nested at most `renderDepth` levels. -/
def declaration? (f : Field) : Except TreeError String := render? [f]

end Field

end ColumnDecl
