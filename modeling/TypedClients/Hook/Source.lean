import TypedClients.Hook.Url

/-!
# The source of a hook

A hook is a member of the exported object: a query for an operation that only asks, a mutation for
any other. The summary of the operation stands before it as a doc comment.

A query has its key, which begins with the name of the hook, and calls the client with the address
and a signal. A mutation takes its parameters and its body together as variables. What comes back is
handed through the validator of the response if there is one (`thenClause`).

In either case the options of the hook are given in part, so that whoever calls it can set some of
them. The texts are put together from the strings of a plan. Which types a plan mentions, and what
they are called, was decided when it was made.
-/

namespace TypedClients.Hook

/-- What is done with the data of a response. -/
def thenClause (plan : Plan) : String :=
  match plan.parseFn with
  | some parse => "(\x7b data \x7d) => " ++ parse ++ "(data)"
  | none => "(\x7b data \x7d) => data"

/-- The expression that a query's parameters are read from. -/
def querySource (paramsType : String) : String :=
  "(queryKey[1] as " ++ paramsType ++ ")"

/-- The source of a query. -/
def querySourceText (plan : Plan) : String :=
  let response := plan.responseType
  let options := "options?: Partial<UseQueryOptions<" ++ response ++ ">>"
  let name := Script.quote plan.hook
  let (args, key, fnArgs, url) := match plan.paramsType with
    | some params =>
      ("params: " ++ params ++ ", " ++ options, "[" ++ name ++ ", params]",
        "\x7b signal, queryKey \x7d", queryUrl plan.endpoint (querySource params))
    | none => (options, "[" ++ name ++ "]", "\x7b signal \x7d", plan.endpoint.path)
  plan.hook ++ ": (" ++ args ++ ") =>\n"
    ++ "  useQuery<" ++ response ++ ">(\x7b\n"
    ++ "    ...(options ?? \x7b\x7d),\n"
    ++ "    queryKey: " ++ key ++ ",\n"
    ++ "    queryFn: (" ++ fnArgs ++ ") =>\n"
    ++ "      caller\n"
    ++ "        .get<" ++ response ++ ">(`" ++ url ++ "`, \x7b signal \x7d)\n"
    ++ "        .then(" ++ thenClause plan ++ "),\n"
    ++ "  \x7d),"

/-- The types of a mutation's variables: its body and its parameters. -/
def variableTypes (plan : Plan) : List String :=
  plan.bodyType.toList ++ plan.paramsType.toList

/-- The address of a mutation. The placeholders are filled from the variables, also where only a
body declares them. -/
def mutationUrl (plan : Plan) : String :=
  if !(variableTypes plan).isEmpty && !plan.endpoint.placeholders.isEmpty then
    fillPath "body" plan.endpoint.path
  else plan.endpoint.path

/-- How the body is handed to the client: a deletion takes it inside its options. -/
def bodyArgument (plan : Plan) : String :=
  match plan.bodyType, plan.endpoint.method with
  | none, _ => ""
  | some _, .delete => ", \x7b data: body \x7d"
  | some _, _ => ", body"

/-- The source of a mutation. -/
def mutationText (plan : Plan) : String :=
  let response := plan.responseType
  let variableType := match variableTypes plan with
    | [] => "void"
    | types => " & ".intercalate types
  let generics := response ++ ", Error, " ++ variableType
  let fnArgument := if (variableTypes plan).isEmpty then "" else "body: " ++ variableType
  plan.hook ++ ": (options?: Partial<UseMutationOptions<" ++ generics ++ ">>) =>\n"
    ++ "  useMutation<" ++ generics ++ ">(\x7b\n"
    ++ "    ...(options ?? \x7b\x7d),\n"
    ++ "    mutationKey: [" ++ Script.quote plan.hook ++ "],\n"
    ++ "    mutationFn: (" ++ fnArgument ++ ") =>\n"
    ++ "      caller\n"
    ++ "        ." ++ plan.endpoint.method.word ++ "<" ++ response ++ ">(`" ++ mutationUrl plan
    ++ "`" ++ bodyArgument plan ++ ")\n"
    ++ "        .then(" ++ thenClause plan ++ "),\n"
    ++ "  \x7d),"

/-- The source of a hook, without indentation. -/
def source (plan : Plan) : String :=
  let body := if plan.endpoint.method.isQuery then querySourceText plan else mutationText plan
  match plan.endpoint.summary with
  | some summary => "/** " ++ Script.escapeComment summary ++ " */\n" ++ body
  | none => body

end TypedClients.Hook
