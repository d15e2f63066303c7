import TypedClients.Keyed

/-!
# JSON trees

A document as a tree. An object is the list of its members as they are written, so a key may
stand in it twice; `unique` resolves that, the last value winning in the first one's place. A
number is kept as the literal it was written as.

## Two ways to read an object

Where members are looked up in a tree that may have repeated keys, the answer depends on how
repetitions are resolved. So this is done explicitly: `unique` is applied to a whole tree where the
last value is to win, and the readers of records refuse a repeated field instead. `member?` takes
the first value, and is used on trees that have been made unique.

## What is counted

`refPaths` and `size` are there for the bounds of what follows references: a chain of references
that does not repeat itself is no longer than there are references in the tree, and values in each
other are no more than the tree has values.
-/

namespace TypedClients

/-- A JSON value. -/
inductive Json where
  | null
  | bool (value : Bool)
  | number (literal : String)
  | string (value : String)
  | array (items : List Json)
  | object (members : List (String × Json))
  deriving Inhabited

namespace Json

/-- What is wrong with a text that should hold a certain kind of document. -/
inductive Fault where
  /-- The text is no JSON. -/
  | malformed
  /-- The text ends before its value does. -/
  | truncated
  /-- The text is JSON so far, and not of the shape that is asked for. -/
  | mismatch
  deriving DecidableEq, Repr

/-- How messages name a fault. -/
def Fault.message : Fault → String
  | .malformed => "<json:Syntax>"
  | .truncated => "<json:Eof>"
  | .mismatch => "<json:Data>"

/-- The value under a key of an object. -/
def member? (key : String) : Json → Option Json
  | .object members => Keyed.get? key members
  | _ => none

/-- The text of a string value. -/
def string? : Json → Option String
  | .string s => some s
  | _ => none

/-- The truth value of a boolean. -/
def bool? : Json → Option Bool
  | .bool b => some b
  | _ => none

/-- The items of an array. -/
def array? : Json → Option (List Json)
  | .array items => some items
  | _ => none

/-- The members of an object. -/
def object? : Json → Option (List (String × Json))
  | .object members => some members
  | _ => none

mutual

/-- The value with every object's repeated keys resolved. -/
def unique : Json → Json
  | .array items => .array (uniqueItems items)
  | .object members => .object (Keyed.ofList (uniqueMembers members))
  | .null => .null
  | .bool b => .bool b
  | .number n => .number n
  | .string s => .string s

/-- `unique` on the items of an array. -/
def uniqueItems : List Json → List Json
  | [] => []
  | item :: rest => item.unique :: uniqueItems rest

/-- `unique` on the values of an object's members. -/
def uniqueMembers : List (String × Json) → List (String × Json)
  | [] => []
  | (key, value) :: rest => (key, value.unique) :: uniqueMembers rest

end

mutual

/-- The texts of the references, strings under the key `$ref`, anywhere in the value. -/
def refPaths : Json → List String
  | .array items => refPathsOfItems items
  | .object members => refPathsOfMembers members
  | .null => []
  | .bool _ => []
  | .number _ => []
  | .string _ => []

/-- `refPaths` of the items of an array. -/
def refPathsOfItems : List Json → List String
  | [] => []
  | item :: rest => item.refPaths ++ refPathsOfItems rest

/-- `refPaths` of the members of an object. -/
def refPathsOfMembers : List (String × Json) → List String
  | [] => []
  | (key, value) :: rest =>
    (match key, value with
      | "$ref", .string path => [path]
      | _, value => value.refPaths) ++ refPathsOfMembers rest

end

mutual

/-- The number of values in the tree. -/
def size : Json → Nat
  | .array items => 1 + sizeOfItems items
  | .object members => 1 + sizeOfMembers members
  | .null => 1
  | .bool _ => 1
  | .number _ => 1
  | .string _ => 1

/-- `size` of the items of an array. -/
def sizeOfItems : List Json → Nat
  | [] => 0
  | item :: rest => item.size + sizeOfItems rest

/-- `size` of the members of an object. -/
def sizeOfMembers : List (String × Json) → Nat
  | [] => 0
  | (_, value) :: rest => value.size + sizeOfMembers rest

end

end Json

end TypedClients
