import TypedClients.Node.Basic
import TypedClients.Script.Literal

/-!
# Validators and types

A node printed as the expression of its validator, and as the type of the values that the
validator accepts. The two printers take the same choices: a union of one member is that member,
a union of none is unknown, and an object without properties is a record.

## The styles of references

The entity module refers to entities through functions in its validators, the module of the hooks by
their bare names, and the clients through the module that they import the entities from. The style
is an argument of both printers and changes nothing but the references.

## What is not built in

Both printers go down the node in one recursion each, with the same cases. An array is the one place
where a type needs brackets, and it gets them if its items are a union of at least two members
(`isAlternative`). That the printed type is the one that the validator has is not built in; it is
not so for every node.
-/

namespace TypedClients

/-- How a reference to an entity is spelled. -/
inductive RefStyle where
  /-- By its name, which is imported. -/
  | bare
  /-- By its name in its own module. A validator puts the look-up off, so that the order of the
  declarations does not matter. -/
  | lazy
  /-- As a property of an imported module. -/
  | qualified (scope : String)

/-- A reference inside a validator. -/
def RefStyle.validator (style : RefStyle) (name : String) : String :=
  match style with
  | .bare => name
  | .lazy => "z.lazy(() => " ++ name ++ ")"
  | .qualified scope => scope ++ "." ++ name

/-- A reference inside a type. -/
def RefStyle.typeName (style : RefStyle) (name : String) : String :=
  match style with
  | .bare => name
  | .lazy => name
  | .qualified scope => scope ++ "." ++ name

namespace Node

mutual

/-- The validator of a node. -/
def validator (style : RefStyle) : Node → String
  | .ref name => style.validator name
  | .object [] _ additional =>
    "z.record(z.string(), " ++ valueValidator style additional ++ ")"
  | .object (property :: properties) required _ =>
    "z.object(\x7b\n"
      ++ ",\n".intercalate (propertyValidators style required (property :: properties))
      ++ "\n\x7d)"
  | .array items => "z.array(" ++ validator style items ++ ")"
  | .union members =>
    match memberValidators style members with
    | [] => "z.unknown()"
    | [single] => single
    | several => "z.union([" ++ ", ".intercalate several ++ "])"
  | .prim kind => "z." ++ kind.word ++ "()"

/-- The validator of a record's values. -/
def valueValidator (style : RefStyle) : Option Node → String
  | none => "z.unknown()"
  | some node => validator style node

/-- The lines of an object's validator, one for each property. -/
def propertyValidators (style : RefStyle) (required : List String) :
    List (String × Node) → List String
  | [] => []
  | (key, node) :: rest =>
    let ending := if key ∈ required then "" else ".optional()"
    ("  " ++ Script.quote key ++ ": " ++ validator style node ++ ending)
      :: propertyValidators style required rest

/-- The validators of a union's members. -/
def memberValidators (style : RefStyle) : List Node → List String
  | [] => []
  | node :: rest => validator style node :: memberValidators style rest

end

/-- A union of at least two members, whose type has to be bracketed before it is made an array. -/
def isAlternative : Node → Bool
  | .union (_ :: _ :: _) => true
  | _ => false

mutual

/-- The type of the values that a node describes. -/
def typeText (style : RefStyle) : Node → String
  | .ref name => style.typeName name
  | .object [] _ additional => "Record<string, " ++ valueType style additional ++ ">"
  | .object (property :: properties) required _ =>
    "\x7b " ++ "; ".intercalate (propertyTypes style required (property :: properties))
      ++ " \x7d"
  | .array items =>
    if items.isAlternative then "(" ++ typeText style items ++ ")[]"
    else typeText style items ++ "[]"
  | .union members =>
    match memberTypes style members with
    | [] => Primitive.unknown.word
    | several => " | ".intercalate several
  | .prim kind => kind.word

/-- The type of a record's values. -/
def valueType (style : RefStyle) : Option Node → String
  | none => Primitive.unknown.word
  | some node => typeText style node

/-- The fields of an object's type. -/
def propertyTypes (style : RefStyle) (required : List String) :
    List (String × Node) → List String
  | [] => []
  | (key, node) :: rest =>
    let marker := if key ∈ required then "" else "?"
    (Script.quote key ++ marker ++ ": " ++ typeText style node)
      :: propertyTypes style required rest

/-- The types of a union's members. -/
def memberTypes (style : RefStyle) : List Node → List String
  | [] => []
  | node :: rest => typeText style node :: memberTypes style rest

end

end Node

end TypedClients
