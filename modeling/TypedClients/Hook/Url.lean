import TypedClients.Hook.Plan

/-!
# Request addresses

The address of a request is the endpoint's path as a template text: each placeholder becomes a
read from the source of the parameters, and a query's other parameters follow behind a question
mark.

Placeholders are read as properties of one source, by the name that stands in the path, in brackets
where it is no identifier. A query reads from the object of its parameters and a mutation from its
variables. Names in the query string and the text of the path are written as they are: nothing in
them is escaped, neither for the template text nor for the address.
-/

namespace TypedClients.Hook

/-- A value that is put into a template text. -/
def hole (expression : String) : String :=
  "$\x7b" ++ expression ++ "\x7d"

/-- Fills the placeholders of a path. `name` is what has been read of one that is open, last
character first; one that is never closed stands for itself. -/
def fillFrom (source : String) : (name : Option (List Char)) → List Char → List Char
  | none, [] => []
  | some name, [] => '\x7b' :: name.reverse
  | none, c :: r =>
    if c = '\x7b' then fillFrom source (some []) r else c :: fillFrom source none r
  | some name, c :: r =>
    if c = '\x7d' then
      (hole (Script.propertyAccess source (String.ofList name.reverse))).toList
        ++ fillFrom source none r
    else fillFrom source (some (c :: name)) r

/-- A path with its placeholders read from `source`. -/
def fillPath (source path : String) : String :=
  Text.lift (fillFrom source none) path

/-- The parameters that the path does not take, as pairs of a query string. -/
def queryPairs (endpoint : Endpoint) (source : String) : List String :=
  let taken := endpoint.placeholders
  (endpoint.parameters.filter fun p => !taken.contains p.name).map fun p =>
    p.name ++ "=" ++ hole (Script.propertyAccess source p.name)

/-- The address of a query that has parameters. -/
def queryUrl (endpoint : Endpoint) (source : String) : String :=
  let path := fillPath source endpoint.path
  match queryPairs endpoint source with
  | [] => path
  | pairs => path ++ "?" ++ "&".intercalate pairs

end TypedClients.Hook
