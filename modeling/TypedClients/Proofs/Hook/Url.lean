import Mathlib.Data.List.Count
import TypedClients.Hook.Source
import TypedClients.Proofs.Endpoint.Template
import TypedClients.Proofs.Hook.QueryKey

/-!
# Addresses and placeholders

The address of a request is written from the path by one scan, and the names of the placeholders are
found by another. Both take the path apart as its template does (`fillPath_path`,
`Template.placeholdersFrom_path`), so what stands in the address are the placeholders, and the query
string takes just the parameters that the path does not (`address_agrees`).

No two pairs of a query string are the same text (`pairText_inj`): if one name is the beginning of
another, the other goes on with an equals sign, so it is quoted where it is read, and its pair is the
longer one.

## What is proved

`address_agrees` — every path has one template, whose names are the placeholders; filling the path
puts reads in their places and keeps the text, and a mutation that leaves a path without
placeholders alone requests what it would request otherwise. Of the parameters of a query, if they
have different names, each is a placeholder of the path or has one pair in the query string, and the
pairs stand in the order of the parameters.

## What is not here

Where a document says that a parameter is sent. A parameter for a header is in the query string as
any other that the path does not take.
-/

namespace TypedClients.Hook

variable {source : String}

/-! ### Filling a path -/

section Scan

variable {text name s : List Char}

theorem fillFrom_text (h : '\x7b' ∉ text) :
    fillFrom source none (text ++ s) = text ++ fillFrom source none s := by
  induction text with
  | nil => rfl
  | cons c text ih =>
    obtain ⟨hc, htext⟩ := List.ne_and_not_mem_of_not_mem_cons h
    rw [List.cons_append, fillFrom, if_neg (Ne.symm hc), ih htext, List.cons_append]

theorem fillFrom_name (h : '\x7d' ∉ name) (read : List Char) :
    fillFrom source (some read) (name ++ '\x7d' :: s)
      = (hole (Script.propertyAccess source (String.ofList (read.reverse ++ name)))).toList
          ++ fillFrom source none s := by
  induction name generalizing read with
  | nil => rw [List.nil_append, fillFrom, if_pos rfl, List.append_nil]
  | cons c name ih =>
    obtain ⟨hc, hname⟩ := List.ne_and_not_mem_of_not_mem_cons h
    rw [List.cons_append, fillFrom, if_neg (Ne.symm hc), ih hname, List.reverse_cons,
      List.append_assoc, List.singleton_append]

theorem fillFrom_open (h : '\x7d' ∉ s) (read : List Char) :
    fillFrom source (some read) s = '\x7b' :: (read.reverse ++ s) := by
  induction s generalizing read with
  | nil => rw [fillFrom, List.append_nil]
  | cons c s ih =>
    obtain ⟨hc, hs⟩ := List.ne_and_not_mem_of_not_mem_cons h
    rw [fillFrom, if_neg (Ne.symm hc), ih hs, List.reverse_cons, List.append_assoc,
      List.singleton_append]

theorem fillFrom_bare (h : Bare s) : fillFrom source none s = s := by
  by_cases hopen : '\x7b' ∈ s
  · obtain ⟨text, rest, rfl, htext⟩ := List.eq_append_cons_of_mem hopen
    rw [fillFrom_text htext, fillFrom, if_pos rfl,
      fillFrom_open ((bare_iff_of_notMem htext).mp h), List.reverse_nil, List.nil_append]
  · rw [← List.append_nil s, fillFrom_text hopen, fillFrom]

end Scan

/-- Each name of the template is read from the source, and the text stays. -/
theorem fillFrom_path (template : Template) :
    fillFrom source none template.path
      = template.fill fun name => (hole (Script.propertyAccess source name)).toList := by
  induction template with
  | last text bare => exact fillFrom_bare bare
  | hole text name opened closed next ih =>
    rw [Template.path_hole, fillFrom_text opened, fillFrom, if_pos rfl, fillFrom_name closed, ih]
    rfl

/-- A path in which nothing is to be filled is its own address. -/
theorem fillPath_of_bare {path : String} (h : Bare path.toList) : fillPath source path = path := by
  rw [fillPath, Text.lift, fillFrom_bare h, String.ofList_toList]

theorem bare_of_placeholders_eq_nil {s : List Char}
    (h : Endpoint.placeholdersFrom none s = []) : Bare s := by
  obtain ⟨template, rfl⟩ := Template.exists_path_eq s
  rw [Template.placeholdersFrom_path] at h
  cases template with
  | last text bare => exact bare
  | hole text name opened closed next => cases h

/-- A mutation that takes variables fills its path, whether or not there is something to fill. -/
theorem mutationUrl_eq (plan : Plan) :
    mutationUrl plan = if variableTypes plan = [] then plan.endpoint.path
      else fillPath "body" plan.endpoint.path := by
  unfold mutationUrl
  by_cases hvariables : variableTypes plan = []
  · simp [hvariables]
  · by_cases hplaceholders : plan.endpoint.placeholders = []
    · simp [hvariables, hplaceholders, fillPath_of_bare (bare_of_placeholders_eq_nil hplaceholders)]
    · simp [hvariables, hplaceholders]

/-! ### Pairs of a query string -/

/-- A parameter as a pair of a query string. -/
def pairText (source name : String) : String :=
  name ++ "=" ++ hole (Script.propertyAccess source name)

theorem toList_pairText (name : String) :
    (pairText source name).toList
      = name.toList
          ++ '=' :: ("$\x7b".toList ++ ((Script.propertyAccess source name).toList ++ ['\x7d'])) := by
  simp [pairText, hole]

theorem length_le_quote (name : String) :
    name.toList.length ≤ (Script.quote name).toList.length := by
  have hescaped : ∀ text : List Char, text.length ≤ (text.flatMap Script.escapeChar).length := by
    intro text
    induction text with
    | nil => exact Nat.le_refl _
    | cons c text ih =>
      have hc : 0 < (Script.escapeChar c).length := by
        unfold Script.escapeChar
        repeat' split
        all_goals exact Nat.succ_pos _
      rw [List.flatMap_cons, List.length_append, List.length_cons]
      omega
  have := hescaped name.toList
  simp only [Script.quote, Text.toList_lift, List.length_cons, List.length_append]
  omega

theorem length_propertyAccess (name : String) :
    (Script.propertyAccess source name).toList.length = source.toList.length +
      if Name.isIdentifier name then name.toList.length + 1
      else (Script.quote name).toList.length + 2 := by
  unfold Script.propertyAccess
  split
  · simp only [String.toList_append, List.length_append]
    have : ".".toList.length = 1 := rfl
    omega
  · simp only [String.toList_append, List.length_append]
    have : "[".toList.length = 1 := rfl
    have : "]".toList.length = 1 := rfl
    omega

theorem isIdentifier_eq_false_of_equals {name : String} (h : '=' ∈ name.toList) :
    Name.isIdentifier name = false := by
  rw [Name.isIdentifier]
  cases hname : name.toList with
  | nil => rfl
  | cons c r =>
    rw [hname] at h
    rw [Name.isIdentifierChars, Bool.and_eq_false_iff, List.all_eq_false]
    rcases List.mem_cons.mp h with rfl | h
    · exact .inl rfl
    · exact .inr ⟨'=', h, by decide⟩

/-- A name that begins another one has another pair. -/
theorem eq_nil_of_pairText_eq {first second : String} {more : List Char}
    (hmore : second.toList = first.toList ++ more)
    (h : pairText source first = pairText source second) : more = [] := by
  have hchars := congrArg String.toList h
  rw [toList_pairText, toList_pairText, hmore, List.append_assoc] at hchars
  have hrest := List.append_cancel_left hchars
  cases more with
  | nil => rfl
  | cons c more =>
    obtain ⟨rfl, -⟩ := List.cons.inj hrest
    have hquoted : Name.isIdentifier second = false :=
      isIdentifier_eq_false_of_equals (by simp [hmore])
    have hlonger : (Script.quote first).toList.length ≤ (Script.quote second).toList.length := by
      simp only [Script.quote, Text.toList_lift, hmore, List.flatMap_append, List.length_append,
        List.length_cons]
      omega
    have hfirst := @length_propertyAccess source first
    have hsecond := @length_propertyAccess source second
    have hname := length_le_quote first
    have hlength := congrArg List.length hrest
    simp only [List.length_append, List.length_cons] at hlength
    rw [if_neg (by simp [hquoted])] at hsecond
    split at hfirst <;> omega

/-- Different names have different pairs. -/
theorem pairText_inj {first second : String} :
    pairText source first = pairText source second ↔ first = second := by
  refine ⟨fun h => ?_, fun h => h ▸ rfl⟩
  have hchars := congrArg String.toList h
  rw [toList_pairText, toList_pairText] at hchars
  rcases List.append_eq_append_iff.mp hchars with ⟨more, hmore, -⟩ | ⟨more, hmore, -⟩
  · rw [eq_nil_of_pairText_eq hmore h, List.append_nil] at hmore
    exact (String.toList_inj.mp hmore).symm
  · rw [eq_nil_of_pairText_eq hmore h.symm, List.append_nil] at hmore
    exact String.toList_inj.mp hmore

theorem queryPairs_eq (endpoint : Endpoint) (source : String) :
    queryPairs endpoint source
      = ((endpoint.parameters.map EndpointParameter.name).filter
          fun name => !endpoint.placeholders.contains name).map (pairText source) := by
  rw [queryPairs, List.filter_map, List.map_map]
  rfl

/-- Of parameters with different names, a query string takes those that are no placeholders, each
once. -/
theorem count_queryPairs {endpoint : Endpoint}
    (hnames : (endpoint.parameters.map EndpointParameter.name).Nodup) {parameter : EndpointParameter}
    (h : parameter ∈ endpoint.parameters) :
    (queryPairs endpoint source).count (pairText source parameter.name)
      = if parameter.name ∈ endpoint.placeholders then 0 else 1 := by
  have hname := List.mem_map_of_mem (f := EndpointParameter.name) h
  rw [queryPairs_eq, List.count_map_of_injective _ _ fun _ _ h => pairText_inj.mp h,
    List.Nodup.count (hnames.filter _)]
  by_cases hplaceholder : parameter.name ∈ endpoint.placeholders
  · simp [hplaceholder]
  · simp [hplaceholder, hname]

/-- The pairs stand in the order of the parameters. -/
theorem queryPairs_sublist (endpoint : Endpoint) (source : String) :
    (queryPairs endpoint source).Sublist
      (endpoint.parameters.map fun parameter => pairText source parameter.name) := by
  exact List.filter_sublist.map _

theorem queryUrl_eq (endpoint : Endpoint) (source : String) :
    queryUrl endpoint source = fillPath source endpoint.path
      ++ (if queryPairs endpoint source = [] then ""
        else "?" ++ "&".intercalate (queryPairs endpoint source)) := by
  unfold queryUrl
  cases queryPairs endpoint source with
  | nil => exact String.append_empty.symm
  | cons pair pairs => exact String.append_assoc

/-! ### The address in a query -/

theorem paramsType_outline {endpoint : Endpoint} (h : endpoint.parameters ≠ []) :
    (Plan.outline endpoint).paramsType = some (endpoint.name.versioned ++ "Params") := by
  have hshape : Plan.paramsShape? endpoint.parameters = some (Plan.paramsShape endpoint.parameters) := by
    rw [Plan.paramsShape?, if_neg (by simpa using h)]
  rw [Plan.outline, hshape]
  rfl

theorem queryAddress_of_params {plan : Plan} {params : String} (h : plan.paramsType = some params) :
    queryAddress plan = queryUrl plan.endpoint (querySource params) := by
  rw [queryAddress, h]

/-! ### Agreement -/

/-- A path has one template. Its names are the placeholders that are found in the path, and the
address has reads of them in their places and the text as it is; so a path without placeholders is its
own address, and it makes no difference that a mutation leaves such a path alone. A query with
parameters of different names asks for its filled path with a query string behind it. In the query
string the parameters stand in their order, each in one pair, but for those that are placeholders of
the path. -/
theorem address_agrees :
    (∀ path : String, ∃ template : Template, template.path = path.toList ∧
      (∀ other : Template, other.path = path.toList → other = template) ∧
      Endpoint.placeholdersFrom none path.toList = template.names ∧
      ∀ source, (fillPath source path).toList
        = template.fill fun name => (hole (Script.propertyAccess source name)).toList) ∧
    (∀ source path, Bare path.toList → fillPath source path = path) ∧
    (∀ plan, mutationUrl plan = if variableTypes plan = [] then plan.endpoint.path
      else fillPath "body" plan.endpoint.path) ∧
    ∀ endpoints taken plans, ((Plan.ofEndpoints endpoints).run.run taken).1 = .ok plans →
      ∀ plan ∈ plans, plan.endpoint.method.isQuery = true → plan.endpoint.parameters ≠ [] →
        (plan.endpoint.parameters.map EndpointParameter.name).Nodup →
          ∃ params before after, plan.paramsType = some params ∧
            Hook.source plan = before ++ addressLine plan ++ after ∧
            queryAddress plan = fillPath (querySource params) plan.endpoint.path
              ++ (if queryPairs plan.endpoint (querySource params) = [] then ""
                else "?" ++ "&".intercalate (queryPairs plan.endpoint (querySource params))) ∧
            (queryPairs plan.endpoint (querySource params)).Sublist
              (plan.endpoint.parameters.map fun p => pairText (querySource params) p.name) ∧
            ∀ p ∈ plan.endpoint.parameters,
              (queryPairs plan.endpoint (querySource params)).count
                  (pairText (querySource params) p.name)
                = if p.name ∈ plan.endpoint.placeholders then 0 else 1 := by
  refine ⟨fun path => ?_, fun source path => fillPath_of_bare, mutationUrl_eq, ?_⟩
  · obtain ⟨template, hpath⟩ := Template.exists_path_eq path.toList
    refine ⟨template, hpath, fun other hother => Template.path_inj (hother.trans hpath.symm), ?_, ?_⟩
    · rw [← hpath, Template.placeholdersFrom_path]
    · intro source
      rw [fillPath, Text.toList_lift, ← hpath, fillFrom_path]
  · intro endpoints taken plans hplans plan hplan hquery hparameters hnames
    obtain ⟨-, rfl⟩ := Plan.ofEndpoints_eq_ok_iff.mp hplans
    obtain ⟨endpoint, -, rfl⟩ := List.mem_map.mp hplan
    have hparams := paramsType_outline hparameters
    obtain ⟨before, between, after, hsource⟩ := source_eq_of_isQuery hquery
    exact ⟨_, _, after, hparams, hsource,
      (queryAddress_of_params hparams).trans (queryUrl_eq _ _), queryPairs_sublist _ _,
      fun p hp => count_queryPairs hnames hp⟩

/-- A query whose path has a placeholder, and a brace that is not closed. -/
def petNotes : Endpoint :=
  { tag := "pets"
    method := .get
    path := "/pets/\x7bid\x7d/\x7bnotes"
    name := OperationName.derive (some "getNotes") .get "/pets/\x7bid\x7d/\x7bnotes"
    summary := none
    parameters := [⟨"limit", .prim .number, false⟩, ⟨"id", .prim .string, true⟩]
    body := none
    response := none }

theorem address_agrees_petNotes :
    ((Plan.ofEndpoints [petNotes]).run.run []).1 = .ok [Plan.outline petNotes] ∧
      petNotes.placeholders = ["id"] ∧
      queryAddress (Plan.outline petNotes)
        = "/pets/$\x7b(queryKey[1] as GetNotesParams).id\x7d/\x7bnotes"
          ++ "?limit=$\x7b(queryKey[1] as GetNotesParams).limit\x7d" ∧
      ∃ params, (Plan.outline petNotes).paramsType = some params ∧
        (queryPairs petNotes (querySource params)).count (pairText (querySource params) "limit") = 1 ∧
        (queryPairs petNotes (querySource params)).count (pairText (querySource params) "id") = 0 := by
  have hrun : ((Plan.ofEndpoints [petNotes]).run.run []).1 = .ok [Plan.outline petNotes] := rfl
  have hplaceholders : petNotes.placeholders = ["id"] := by decide
  obtain ⟨-, -, -, hqueries⟩ := address_agrees
  obtain ⟨params, _, _, hparams, -, -, -, hcount⟩ :=
    hqueries [petNotes] [] _ hrun (Plan.outline petNotes) List.mem_cons_self rfl (by decide) (by decide)
  have hlimit := hcount ⟨"limit", .prim .number, false⟩ List.mem_cons_self
  have hid := hcount ⟨"id", .prim .string, true⟩ (List.mem_cons_of_mem _ List.mem_cons_self)
  exact ⟨hrun, hplaceholders, by decide, params, hparams, hlimit.trans (by decide),
    hid.trans (by decide)⟩

end TypedClients.Hook
