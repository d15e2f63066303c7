import TypedClients.Entity.Cycle
import TypedClients.Hook.Plan
import TypedClients.Script.Marker

/-!
# The entity module

One validator and one type for each entity. The type of an entity on a reference cycle is spelled
out and its validator annotated with it, since it cannot be inferred from a validator that looks
itself up.

The validator of an entity refers to other entities through functions, since one of them may be
declared further down. This is so for all entities; the cycle only decides which form the
declarations have (`text`).

The entities stand in the order of their files. Two entities of one name are refused (`checkNames`),
and the error names the files of both. The names of the imports in the head of the module are not
among those that are looked for.
-/

namespace TypedClients.Entity

/-- The head of the module. -/
def preamble : String :=
  Script.generatedMarker ++ "\nimport \x7b z \x7d from \"zod\";\n"

/-- The declarations of an entity. -/
def text (entity : Entity) (recursive : Bool) : String :=
  let name := entity.name
  let validator := entity.shape.validator .lazy
  if recursive then
    "export type " ++ name ++ " = " ++ entity.shape.typeText .lazy ++ ";\nexport const " ++ name
      ++ ": z.ZodType<" ++ name ++ "> = " ++ validator ++ ";\n"
  else
    "export const " ++ name ++ " = " ++ validator ++ ";\nexport type " ++ name
      ++ " = z.infer<typeof " ++ name ++ ">;\n"

/-- The fragments of the module: its head and the declarations of every entity. -/
def fragments (entities : List Entity) : List String :=
  preamble :: entities.map fun e => text e (isRecursive entities e.name)

/-- Refuses two entities of one name. -/
def checkNames : (seen : List (String × String)) → List Entity →
    Except DuplicateDeclaration Unit
  | _, [] => .ok ()
  | seen, entity :: rest =>
    match Keyed.get? entity.name seen with
    | some previous =>
      .error ⟨entity.name ++ " (from `" ++ previous ++ "` and `" ++ entity.source ++ "`)"⟩
    | none => checkNames ((entity.name, entity.source) :: seen) rest

end TypedClients.Entity
