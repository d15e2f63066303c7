import TypedClients.Json.Basic

/-!
# What can go wrong with a reference or a shape

The errors of all conversions are one type, so that the endpoints of an OpenAPI document, the
entities and the channels of an AsyncAPI document fail in the same words. An error says what was
found, a reference or a name or a keyword, and not where it stands; only a part of a document that
is not of its kind is told by its pointer.

Which of several errors is given is not said here. It is the first one in the order of the
conversion, which the modules that convert describe.
-/

namespace TypedClients

/-- Why a document cannot be given shapes. -/
inductive ResolveError where
  /-- The reference is not of a form that its place allows. -/
  | unsupportedRef (path : String)
  /-- The reference names nothing. -/
  | targetNotFound (path : String)
  /-- The reference leads back to itself. -/
  | circular (path : String)
  /-- The name is not that of an entity. -/
  | unknownEntity (name : String)
  /-- The schema uses a keyword or a type that has no shape. -/
  | unsupportedSchema (what : String)
  /-- The part of the document at `pointer` is not of its kind. -/
  | invalidPart (pointer : String) (fault : Json.Fault)
  deriving DecidableEq, Repr

/-- The message of an error. -/
def ResolveError.message : ResolveError → String
  | .unsupportedRef path => "unsupported $ref: " ++ path
  | .targetNotFound path => "reference target not found: " ++ path
  | .circular path => "circular reference detected: " ++ path
  | .unknownEntity name => "`" ++ name ++ "` does not name a generated entity"
  | .unsupportedSchema what => "unsupported schema shape: " ++ what
  | .invalidPart pointer fault =>
    "invalid document at " ++ pointer ++ ": " ++ fault.message

end TypedClients
