import TypedClients.Proofs.Hook.Parameters
import TypedClients.Proofs.Name.Case
import TypedClients.Proofs.Script.TemplateLiteral

/-!
# Addresses as template literals

A hook writes the address of its request between backticks. What is read for a placeholder or for
the value of a pair stands in a hole there, and the name that is read cannot end the hole
(`readable_propertyAccess`). The text of the path and the names in the query string are written as
they are, without escapes. So the literal has the value of the address, the path with the values
that are read and with its query string, exactly if these texts are plain (`url_evaluates_iff`). A
backtick, a backslash, a carriage return or the beginning of a hole in one of them makes it another
literal.

## How it is proved

The text between the backticks is a `TemplateLiteral`, made of the texts of the path and of reads,
so the general fact about such literals applies (`TemplateLiteral.evaluate_iff_plain`). What is
special here is that the reads are always readable: the source of the values is code without
anything that could lead out of it, and a name is quoted where it could.

## What is not here

Whether the address is a good one for a server. Names and values are not encoded, and a value may
hold a slash or a question mark.
-/

namespace TypedClients

open Script (Values TemplateLiteral Plain Readable utf16 evaluate)

/-! ### Reads -/

namespace Script

theorem isPlainCode_of_continuesIdentifier {c : Char} (h : Name.continuesIdentifier c = true) :
    isPlainCode c = true := by
  have hne {d : Char} (hd : Name.continuesIdentifier d = false) : c ≠ d := by
    rintro rfl
    rw [hd] at h
    cases h
  have hbraces : c ≠ '\x7d' ∧ c ≠ '\x7b' := ⟨hne (by decide), hne (by decide)⟩
  have hquotes : c ≠ '"' ∧ c ≠ '\'' ∧ c ≠ '`' :=
    ⟨hne (by decide), hne (by decide), hne (by decide)⟩
  simp [isPlainCode, hbraces, hquotes]

theorem all_isPlainCode_of_isIdentifier {name : String} (h : Name.isIdentifier name = true) :
    name.toList.all isPlainCode = true := by
  have hall := List.all_eq_true.mp (Name.all_continuesIdentifier h)
  exact List.all_eq_true.mpr fun c hc => isPlainCode_of_continuesIdentifier (hall c hc)

/-- The read of a property ends where its hole does, whatever the property is called. -/
theorem readable_propertyAccess {object : String} (h : object.toList.all isPlainCode = true)
    (key : String) : Readable (propertyAccess object key).toList := by
  refine Leads.readable ?_
  have hobject : Leads [.code] object.toList [.code] := leads_plainCode h
  unfold propertyAccess
  split
  · next hkey =>
    have hdot : Leads [.code] ".".toList [.code] := leads_plainCode (by decide)
    rw [String.toList_append, String.toList_append]
    exact (hobject.append hdot).append (leads_plainCode (all_isPlainCode_of_isIdentifier hkey))
  · have hopening : Leads [.code] "[".toList [.code] := leads_plainCode (by decide)
    have hclosing : Leads [.code] "]".toList [.code] := leads_plainCode (by decide)
    rw [String.toList_append, String.toList_append, String.toList_append]
    exact ((hobject.append hopening).append (leads_quote key [])).append hclosing

/-- A character that is no part of the beginning of a hole keeps the texts on its two sides
apart. -/
theorem plain_append_cons {c : Char} {s t : List Char} (hc : ∀ r, StandsForItself c r)
    (hbrace : c ≠ '\x7b') : Plain (s ++ c :: t) ↔ Plain s ∧ Plain t := by
  induction s with
  | nil =>
    rw [List.nil_append, plain_cons_iff]
    exact and_congr_left' (iff_of_true (hc t) plain_nil)
  | cons d s ih =>
    have hhead : (s ++ c :: t).head? = some '\x7b' ↔ s.head? = some '\x7b' := by
      cases s with
      | nil => simp [hbrace]
      | cons e s => rfl
    rw [List.cons_append, plain_cons_iff, plain_cons_iff, ih, StandsForItself, hhead,
      ← StandsForItself, and_assoc]

/-- A character that stands for itself in front of anything. -/
theorem standsForItself_of_mem {c : Char} (h : c ∈ ['?', '&', '=']) (r : List Char) :
    StandsForItself c r := by
  simp only [List.mem_cons, List.not_mem_nil, or_false] at h
  rcases h with rfl | rfl | rfl
  · exact ⟨by decide, by decide, fun h => absurd h.1 (by decide), by decide⟩
  · exact ⟨by decide, by decide, fun h => absurd h.1 (by decide), by decide⟩
  · exact ⟨by decide, by decide, fun h => absurd h.1 (by decide), by decide⟩

end Script

/-! ### Templates -/

namespace Template

/-- The texts around the placeholders. -/
def texts : Template → List (List Char)
  | last text _ => [text]
  | hole text _ _ _ next => text :: next.texts

/-- The units of the text, with the given ones in the place of each placeholder. -/
def units (read : String → List Nat) : Template → List Nat
  | last text _ => utf16 text
  | hole text name _ _ next => utf16 text ++ (read (String.ofList name) ++ next.units read)

end Template

namespace Hook

variable {source : String} {values : Values} {text : List Char} {mark : Char} {names : List String}

/-- The value that is read for a name. -/
def valueOf (values : Values) (source name : String) : List Nat :=
  values (Script.propertyAccess source name).toList

/-- The value of a pair of a query string. -/
def pairValue (values : Values) (source name : String) : List Nat :=
  utf16 name.toList ++ (utf16 ['='] ++ valueOf values source name)

/-- The value of an address: its path with the values that are read, and the pairs of its query
string behind a question mark. -/
def Address.value (values : Values) (source : String) (address : Address) : List Nat :=
  address.template.units (valueOf values source) ++ if address.query = [] then []
    else utf16 ['?'] ++ (utf16 ['&']).intercalate (address.query.map (pairValue values source))

/-! ### The literal of an address -/

/-- The literal of a query string, the first pair behind the text and the mark. -/
def pairsLiteral (source : String) (text : List Char) (mark : Char) : List String → TemplateLiteral
  | [] => .last text
  | name :: names => .hole (text ++ mark :: (name.toList ++ ['=']))
      (Script.propertyAccess source name).toList (pairsLiteral source [] '&' names)

/-- The literal of a path with a query string. -/
def pathLiteral (source : String) (query : List String) : Template → TemplateLiteral
  | .last text _ => pairsLiteral source text '?' query
  | .hole text name _ _ next => .hole text (Script.propertyAccess source (String.ofList name)).toList
      (pathLiteral source query next)

theorem written_pairsLiteral (source : String) (text : List Char) (mark : Char)
    (names : List String) : (pairsLiteral source text mark names).written
      = text ++ if names = [] then []
        else mark :: ("&".intercalate (names.map (pairText source))).toList := by
  induction names generalizing text mark with
  | nil => simp [pairsLiteral, TemplateLiteral.written]
  | cons name names ih =>
    rw [pairsLiteral, TemplateLiteral.written, ih, if_neg (List.cons_ne_nil _ _), List.map_cons]
    cases names with
    | nil => simp [toList_pairText]
    | cons second names =>
      rw [if_neg (List.cons_ne_nil _ _), List.map_cons, String.intercalate_cons_cons]
      simp [toList_pairText]

theorem value_pairsLiteral (values : Values) (source : String) (text : List Char) (mark : Char)
    (names : List String) : (pairsLiteral source text mark names).value values
      = utf16 text ++ if names = [] then []
        else utf16 [mark] ++ (utf16 ['&']).intercalate (names.map (pairValue values source)) := by
  induction names generalizing text mark with
  | nil => simp [pairsLiteral, TemplateLiteral.value]
  | cons name names ih =>
    have hmark : utf16 (text ++ mark :: (name.toList ++ ['=']))
        = utf16 text ++ (utf16 [mark] ++ (utf16 name.toList ++ utf16 ['='])) := by
      rw [← Script.utf16_append, ← Script.utf16_append, ← Script.utf16_append]
      rfl
    rw [pairsLiteral, TemplateLiteral.value, ih, if_neg (List.cons_ne_nil _ _), List.map_cons, hmark]
    cases names with
    | nil => simp [pairValue, valueOf, utf16]
    | cons second names =>
      rw [if_neg (List.cons_ne_nil _ _), List.map_cons, List.intercalate_cons_cons]
      simp [pairValue, valueOf, utf16]

theorem plain_pairsLiteral_iff (hmark : mark ∈ ['?', '&', '=']) :
    (∀ t ∈ (pairsLiteral source text mark names).texts, Plain t)
      ↔ Plain text ∧ ∀ name ∈ names, Plain name.toList := by
  induction names generalizing text mark with
  | nil => simp [pairsLiteral, TemplateLiteral.texts]
  | cons name names ih =>
    have hbrace : mark ≠ '\x7b' := by
      rintro rfl
      exact absurd hmark (by decide)
    have hname : Plain (name.toList ++ ['=']) ↔ Plain name.toList := by
      rw [Script.plain_append_cons (Script.standsForItself_of_mem (by simp)) (by decide)]
      exact and_iff_left Script.plain_nil
    rw [pairsLiteral, TemplateLiteral.texts, List.forall_mem_cons, ih (by simp),
      Script.plain_append_cons (Script.standsForItself_of_mem hmark) hbrace, hname,
      List.forall_mem_cons, and_iff_right Script.plain_nil, and_assoc]

theorem readable_of_mem_pairsLiteral (hsource : source.toList.all Script.isPlainCode = true)
    {expression : List Char} (h : expression ∈ (pairsLiteral source text mark names).expressions) :
    Readable expression := by
  induction names generalizing text mark with
  | nil => cases h
  | cons name names ih =>
    rcases List.mem_cons.mp h with rfl | h
    · exact Script.readable_propertyAccess hsource name
    · exact ih h

variable {template : Template}

theorem written_pathLiteral (source : String) (query : List String) (template : Template) :
    (pathLiteral source query template).written = (Address.text ⟨template, query⟩ source).toList := by
  induction template with
  | last text bare =>
    rw [pathLiteral, written_pairsLiteral]
    by_cases hquery : query = []
    · simp [Address.text, hquery, Template.fill]
    · simp [Address.text, hquery, Template.fill]
  | hole text name opened closed next ih =>
    rw [pathLiteral, TemplateLiteral.written, ih]
    simp [Address.text, Template.fill, hole]

theorem value_pathLiteral (values : Values) (source : String) (query : List String)
    (template : Template) : (pathLiteral source query template).value values
      = Address.value values source ⟨template, query⟩ := by
  induction template with
  | last text bare =>
    rw [pathLiteral, value_pairsLiteral]
    rfl
  | hole text name opened closed next ih =>
    rw [pathLiteral, TemplateLiteral.value, ih]
    simp [Address.value, Template.units, valueOf]

theorem plain_pathLiteral_iff :
    (∀ t ∈ (pathLiteral source names template).texts, Plain t)
      ↔ (∀ t ∈ template.texts, Plain t) ∧ ∀ name ∈ names, Plain name.toList := by
  induction template with
  | last text bare =>
    rw [pathLiteral, plain_pairsLiteral_iff (by simp), Template.texts, List.forall_mem_singleton]
  | hole text name opened closed next ih =>
    rw [pathLiteral, TemplateLiteral.texts, List.forall_mem_cons, ih, Template.texts,
      List.forall_mem_cons, and_assoc]

theorem readable_of_mem_pathLiteral (hsource : source.toList.all Script.isPlainCode = true)
    {expression : List Char} (h : expression ∈ (pathLiteral source names template).expressions) :
    Readable expression := by
  induction template with
  | last text bare => exact readable_of_mem_pairsLiteral hsource h
  | hole text name opened closed next ih =>
    rcases List.mem_cons.mp h with rfl | h
    · exact Script.readable_propertyAccess hsource _
    · exact ih h

/-! ### Requests -/

/-- What a plan's request reads its values from, if it reads any. -/
def readSource (plan : Plan) : Option String :=
  if plan.endpoint.method.isQuery then plan.paramsType.map querySource
  else if variableTypes plan = [] then none
  else some "body"

/-- The parameters in the query string of a plan's request. A mutation has none there. -/
def queryNames (plan : Plan) (template : Template) : List String :=
  if plan.endpoint.method.isQuery then (addressOf plan.endpoint template).query else []

/-- What a plan's hook writes between the backticks. -/
def requestText (plan : Plan) : String :=
  if plan.endpoint.method.isQuery then queryAddress plan else mutationUrl plan

/-- What it stands for: the path as it is if nothing is read, else the path with the values that are
read, and its query string. -/
def requestValue (values : Values) (plan : Plan) (template : Template) : List Nat :=
  match readSource plan with
  | none => utf16 plan.endpoint.path.toList
  | some source => Address.value values source ⟨template, queryNames plan template⟩

/-- The texts of the document that are written between the backticks: the path if nothing is read,
else the texts around its placeholders and the names in the query string. -/
def requestTexts (plan : Plan) (template : Template) : List (List Char) :=
  match readSource plan with
  | none => [plan.endpoint.path.toList]
  | some _ => template.texts ++ (queryNames plan template).map String.toList

/-- What follows the address in the call of the client. -/
def requestArguments (plan : Plan) : String :=
  if plan.endpoint.method.isQuery then ", \x7b signal \x7d)\n" else bodyArgument plan ++ ")\n"

/-- The literal of the request. -/
def requestLiteral (plan : Plan) (template : Template) : TemplateLiteral :=
  match readSource plan with
  | none => .last plan.endpoint.path.toList
  | some source => pathLiteral source (queryNames plan template) template

variable {plan : Plan}

theorem written_requestLiteral (hpath : template.path = plan.endpoint.path.toList) :
    (requestLiteral plan template).written = (requestText plan).toList := by
  unfold requestLiteral readSource requestText queryNames
  by_cases hquery : plan.endpoint.method.isQuery = true
  · simp only [hquery, if_true]
    cases hparams : plan.paramsType with
    | none =>
      rw [queryAddress, hparams]
      rfl
    | some params =>
      rw [queryAddress_of_params hparams, queryUrl_eq_text _ hpath]
      exact written_pathLiteral _ _ _
  · simp only [hquery, Bool.false_eq_true, if_false, mutationUrl_eq]
    by_cases hvariables : variableTypes plan = []
    · simp only [hvariables, if_true]
      rfl
    · simp only [hvariables, if_false]
      rw [written_pathLiteral, fillPath, Text.lift, ← hpath, fillFrom_path]
      simp [Address.text]

theorem value_requestLiteral (values : Values) (plan : Plan) (template : Template) :
    (requestLiteral plan template).value values = requestValue values plan template := by
  unfold requestLiteral requestValue
  cases readSource plan with
  | none => rfl
  | some source => exact value_pathLiteral _ _ _ _

theorem plain_requestLiteral_iff :
    (∀ t ∈ (requestLiteral plan template).texts, Plain t)
      ↔ ∀ t ∈ requestTexts plan template, Plain t := by
  unfold requestLiteral requestTexts
  cases readSource plan with
  | none => exact Iff.rfl
  | some source =>
    rw [plain_pathLiteral_iff, List.forall_mem_append, List.forall_mem_map]

theorem all_isPlainCode_querySource {params : String}
    (h : params.toList.all Script.isPlainCode = true) :
    (querySource params).toList.all Script.isPlainCode = true := by
  show ("(queryKey[1] as " ++ params ++ ")").toList.all Script.isPlainCode = true
  simp only [String.toList_append, List.all_append, h]
  decide +kernel

/-- What an endpoint's request reads its values from cannot end the hole. -/
theorem all_isPlainCode_of_readSource {endpoint : Endpoint} (derived : endpoint.Derived)
    {source : String} (h : readSource (Plan.outline endpoint) = some source) :
    source.toList.all Script.isPlainCode = true := by
  unfold readSource at h
  split at h
  · obtain ⟨params, hparams, rfl⟩ := Option.map_eq_some_iff.mp h
    have hne : endpoint.parameters ≠ [] := by
      intro hnil
      rw [paramsType_outline_of_nil hnil] at hparams
      cases hparams
    rw [paramsType_outline hne] at hparams
    obtain rfl := Option.some.inj hparams
    have hdeclared := mem_declarations_iff.mpr ⟨hne, rfl⟩
    have hlegal := Plan.isLegal_of_mem_declaredNames derived (List.mem_map_of_mem hdeclared)
    exact all_isPlainCode_querySource (Script.all_isPlainCode_of_isIdentifier hlegal.1)
  · split at h
    · cases h
    · cases h
      decide

theorem readable_requestLiteral {endpoint : Endpoint} (derived : endpoint.Derived)
    (template : Template) :
    ∀ expression ∈ (requestLiteral (Plan.outline endpoint) template).expressions,
      Readable expression := by
  unfold requestLiteral
  cases hsource : readSource (Plan.outline endpoint) with
  | none => exact fun _ h => absurd h List.not_mem_nil
  | some source =>
    exact fun _ h => readable_of_mem_pathLiteral (all_isPlainCode_of_readSource derived hsource) h

/-- A query calls the client with the address between backticks. -/
theorem addressLine_eq (plan : Plan) : addressLine plan
    = "        ." ++ ("get" ++ ("<" ++ (plan.responseType ++ (">(`" ++ (queryAddress plan
      ++ ("`" ++ ", \x7b signal \x7d)\n")))))) := by
  have hlead : "        .get<" = "        ." ++ ("get" ++ "<") := by decide +kernel
  have hend : "`, \x7b signal \x7d)\n" = "`" ++ ", \x7b signal \x7d)\n" := by decide +kernel
  show "        .get<" ++ plan.responseType ++ ">(`" ++ queryAddress plan ++
    "`, \x7b signal \x7d)\n" = _
  rw [hlead, hend]
  simp only [String.append_assoc]

/-- A mutation calls the client with the address between backticks. -/
theorem mutationText_eq (plan : Plan) : ∃ before, mutationText plan
    = before ++ "        ." ++ plan.endpoint.method.word ++ "<" ++ plan.responseType ++ ">(`"
      ++ mutationUrl plan ++ "`" ++ bodyArgument plan ++ ")\n"
      ++ "        .then(" ++ thenClause plan ++ "),\n" ++ "  \x7d)," :=
  ⟨_, rfl⟩

/-- A hook calls the client with the address between backticks. -/
theorem source_eq_request (plan : Plan) : ∃ before rest, Hook.source plan = before ++ ("        ."
    ++ (plan.endpoint.method.word ++ ("<" ++ (plan.responseType ++ (">(`"
      ++ (requestText plan ++ ("`" ++ (requestArguments plan ++ rest)))))))) := by
  have hbody : ∃ before rest, (if plan.endpoint.method.isQuery then querySourceText plan
      else mutationText plan) = before ++ ("        ." ++ (plan.endpoint.method.word ++ ("<"
        ++ (plan.responseType ++ (">(`" ++ (requestText plan ++ ("`"
          ++ (requestArguments plan ++ rest)))))))) := by
    unfold requestText requestArguments
    split
    · next hquery =>
      have hword : plan.endpoint.method.word = "get" := by
        cases hmethod : plan.endpoint.method <;> simp_all [Method.isQuery, Method.word]
      obtain ⟨args, fnArgs, htext⟩ := querySourceText_eq plan
      obtain ⟨before, after, hbody⟩ : ∃ before after,
          querySourceText plan = before ++ addressLine plan ++ after := ⟨_, _, htext⟩
      refine ⟨before, after, ?_⟩
      rw [hbody, addressLine_eq, hword]
      simp only [String.append_assoc]
    · obtain ⟨before, htext⟩ := mutationText_eq plan
      refine ⟨before, "        .then(" ++ (thenClause plan ++ ("),\n" ++ "  \x7d),")), ?_⟩
      rw [htext]
      simp only [String.append_assoc]
  obtain ⟨before, rest, hbody⟩ := hbody
  rw [Hook.source, hbody]
  cases plan.endpoint.summary with
  | none => exact ⟨before, rest, rfl⟩
  | some summary =>
    refine ⟨"/** " ++ Script.escapeComment summary ++ " */\n" ++ before, rest, ?_⟩
    simp only [String.append_assoc]

/-! ### Evaluation -/

/-- The hook of an endpoint writes the address of its request between backticks. Whatever is read
for the placeholders and for the pairs, the literal has the value of the address, and it ends at the
second of the two backticks, exactly if the texts of the document that are written into it are
plain: the path, or the texts around its placeholders, and the names in the query string. -/
theorem url_evaluates_iff {endpoint : Endpoint} {taken : List String} {plan : Plan}
    (derived : endpoint.Derived)
    (planned : ((Plan.ofEndpoint endpoint).run.run taken).1 = .ok plan) :
    ∃ template : Template, template.path = endpoint.path.toList ∧
      ∃ before rest, Hook.source plan = before ++ ("        ." ++ (endpoint.method.word ++ ("<"
          ++ (plan.responseType ++ (">(`" ++ (requestText plan
            ++ ("`" ++ (requestArguments plan ++ rest)))))))) ∧
        ((∀ values, evaluate values
            (requestText plan ++ ("`" ++ (requestArguments plan ++ rest))).toList
              = some (requestValue values plan template, (requestArguments plan ++ rest).toList))
          ↔ ∀ text ∈ requestTexts plan template, Plain text) := by
  obtain ⟨-, rfl⟩ := Plan.ofEndpoint_eq_ok_iff.mp planned
  obtain ⟨template, hpath⟩ := Template.exists_path_eq endpoint.path.toList
  obtain ⟨before, rest, hsource⟩ := source_eq_request (Plan.outline endpoint)
  refine ⟨template, hpath, before, rest, hsource, ?_⟩
  have hiff := TemplateLiteral.evaluate_iff_plain (readable_requestLiteral derived template)
    (requestArguments (Plan.outline endpoint) ++ rest).toList
  rw [plain_requestLiteral_iff, written_requestLiteral hpath] at hiff
  simp only [value_requestLiteral] at hiff
  rw [← hiff]
  simp only [String.toList_append]
  exact Iff.rfl

/-- A query of the notes on a pet: the path has a placeholder and a brace that is not closed. -/
def notesTemplate : Template :=
  .hole "/pets/".toList "id".toList (by decide) (by decide)
    (.last "/\x7bnotes".toList
      ((bare_iff_of_notMem (show '\x7b' ∉ ['/'] by decide)).mpr (by decide)))

theorem url_evaluates_iff_petNotes :
    petNotes.Derived ∧ ((Plan.ofEndpoint petNotes).run.run []).1 = .ok (Plan.outline petNotes) ∧
      (∀ text ∈ requestTexts (Plan.outline petNotes) notesTemplate, Plain text) ∧
      ∃ before rest, Hook.source (Plan.outline petNotes) = before ++ ("        ." ++ ("get" ++ ("<"
          ++ ("void" ++ (">(`" ++ (requestText (Plan.outline petNotes)
            ++ ("`" ++ (requestArguments (Plan.outline petNotes) ++ rest)))))))) ∧
        ∀ values, evaluate values (requestText (Plan.outline petNotes)
            ++ ("`" ++ (requestArguments (Plan.outline petNotes) ++ rest))).toList
          = some (requestValue values (Plan.outline petNotes) notesTemplate,
              (requestArguments (Plan.outline petNotes) ++ rest).toList) := by
  have derived : petNotes.Derived := ⟨_, rfl⟩
  have planned : ((Plan.ofEndpoint petNotes).run.run []).1 = .ok (Plan.outline petNotes) := rfl
  have htexts : requestTexts (Plan.outline petNotes) notesTemplate
      = ["/pets/".toList, "/\x7bnotes".toList, "limit".toList] := by
    decide +kernel
  have hplain : ∀ text ∈ requestTexts (Plan.outline petNotes) notesTemplate, Plain text := by
    have hpets : Plain "/pets/".toList :=
      ⟨by decide, by decide, by decide, by decide⟩
    have hnotes : Plain "/\x7bnotes".toList :=
      ⟨by decide, by decide, by decide, by decide⟩
    have hlimit : Plain "limit".toList :=
      ⟨by decide, by decide, by decide, by decide⟩
    rw [htexts, List.forall_mem_cons, List.forall_mem_cons, List.forall_mem_singleton]
    exact ⟨hpets, hnotes, hlimit⟩
  obtain ⟨template, hpath, before, rest, hsource, hiff⟩ := url_evaluates_iff derived planned
  have htemplate : notesTemplate.path = petNotes.path.toList := by decide +kernel
  obtain rfl := Template.path_inj (hpath.trans htemplate.symm)
  exact ⟨derived, planned, hplain, before, rest, hsource, hiff.mpr hplain⟩

/-- A query whose path holds a backtick. -/
def tickedPets : Endpoint :=
  { fetch "getPets" "pets" with path := "/pets`s", response := none }

/-- The literal ends at the backtick in the path. -/
theorem url_evaluates_tickedPets :
    tickedPets.Derived ∧
      ((Plan.ofEndpoint tickedPets).run.run []).1 = .ok (Plan.outline tickedPets) ∧
      ∃ template : Template, template.path = tickedPets.path.toList ∧
        ∃ before rest, Hook.source (Plan.outline tickedPets)
            = before ++ (">(`" ++ ("/pets`s" ++ ("`" ++ rest))) ∧
          requestText (Plan.outline tickedPets) = "/pets`s" ∧
          ∀ values, requestValue values (Plan.outline tickedPets) template = utf16 "/pets`s".toList ∧
            evaluate values ("/pets`s" ++ ("`" ++ rest)).toList
              = some (utf16 "/pets".toList, 's' :: '`' :: rest.toList) ∧
            evaluate values ("/pets`s" ++ ("`" ++ rest)).toList
              ≠ some (requestValue values (Plan.outline tickedPets) template, rest.toList) := by
  have htext : requestText (Plan.outline tickedPets) = "/pets`s" := rfl
  have hcall : ∃ before rest, Hook.source (Plan.outline tickedPets)
      = before ++ (">(`" ++ ("/pets`s" ++ ("`" ++ rest))) := by
    obtain ⟨before, rest, hsource⟩ := source_eq_request (Plan.outline tickedPets)
    refine ⟨before ++ ("        ." ++ ((Plan.outline tickedPets).endpoint.method.word
      ++ ("<" ++ (Plan.outline tickedPets).responseType))),
      requestArguments (Plan.outline tickedPets) ++ rest, ?_⟩
    rw [hsource, htext]
    simp only [String.append_assoc]
  have hvalues (values : Values) (after : String) :
      evaluate values ("/pets`s" ++ ("`" ++ after)).toList
        = some (utf16 "/pets".toList, 's' :: '`' :: after.toList) := by
    have hplain : Plain "/pets".toList := ⟨by decide, by decide, by decide, by decide⟩
    have hchars : ("/pets`s" ++ ("`" ++ after)).toList
        = "/pets".toList ++ '`' :: 's' :: '`' :: after.toList := by
      simp
    rw [hchars, Script.evaluate_plain hplain (by simp), Script.evaluate_backtick]
    simp
  obtain ⟨template, hpath⟩ := Template.exists_path_eq tickedPets.path.toList
  obtain ⟨before, rest, hsource⟩ := hcall
  refine ⟨⟨_, rfl⟩, rfl, template, hpath, before, rest, hsource, htext, fun values =>
    ⟨rfl, hvalues values rest, ?_⟩⟩
  rw [hvalues values rest]
  intro heq
  have hvalue : utf16 "/pets".toList = utf16 "/pets`s".toList :=
    (Prod.mk.inj (Option.some.inj heq)).1
  exact absurd hvalue (by decide)

end Hook

end TypedClients
