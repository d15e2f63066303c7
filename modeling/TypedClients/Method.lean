/-!
# HTTP methods

Hooks are made for the five methods of `Method`; other members of a path item are passed over,
whether they are methods of the protocol or not. The word of a method is written in lowercase
letters, as a key of the document and as a call of the client alike, and
`Method.ofWord?_eq_some_iff` says that a method is found under its word only.
-/

namespace TypedClients

/-- The five methods that hooks are generated for. -/
inductive Method where
  | get
  | post
  | put
  | patch
  | delete
  deriving DecidableEq, Repr

/-- The method as a key of a path item and as a call of the client. -/
def Method.word : Method → String
  | .get => "get"
  | .post => "post"
  | .put => "put"
  | .patch => "patch"
  | .delete => "delete"

/-- The method that a key of a path item stands for. -/
def Method.ofWord? (word : String) : Option Method :=
  match word with
  | "get" => some .get
  | "post" => some .post
  | "put" => some .put
  | "patch" => some .patch
  | "delete" => some .delete
  | _ => none

/-- Whether the method only asks. Such an operation becomes a query, any other a mutation. -/
def Method.isQuery : Method → Bool
  | .get => true
  | _ => false

/-- A method is found under its own word and under no other. -/
theorem Method.ofWord?_eq_some_iff {word : String} {method : Method} :
    Method.ofWord? word = some method ↔ word = method.word := by
  constructor
  · intro h
    unfold Method.ofWord? at h
    split at h <;> simp_all [Method.word] <;> subst h <;> rfl
  · rintro rfl
    cases method <;> rfl

end TypedClients
