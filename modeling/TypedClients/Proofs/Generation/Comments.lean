import TypedClients.Proofs.Hook.Replacement
import TypedClients.Proofs.Script.Comment
import TypedClients.Proofs.Socket.Client
import TypedClients.Proofs.Socket.Operations
import TypedClients.Proofs.Text.Lines

/-!
# Comments in generated modules

The doc comments of hooks, of a client and of its members quote texts of the input documents. None
of these texts ends the comment it stands in (`docComments_closed`). Summaries, titles and names of
namespaces are escaped. When a hook is indented its comment may get blanks at the beginning of each
line, and loses carriage returns at line ends only, so the two characters of an end are not brought
together. The event of a channel is not escaped, but the channel of a document has an event without
slashes (`slash_notMem_event`).

## What is proved

`docComments_closed` — for every summary, title, namespace and channel: the text around the comment
is a beginning, the comment from its first sign to its end, and code behind it; and inside the
comment there is no other end. For hooks this is said of the source and of the indented source in a
bucket, for members of a channel of every document that can be read.

## What is not here

What the comments say besides. That a text can be read back from its comment is not so, since the
ends in it are broken up by a backslash.
-/

namespace TypedClients

open Script (Commented EndFree)

/-! ### Indentation -/

namespace Hook

variable {depth : Nat} {line note code rest : List Char}

/-- A line behind its indentation. -/
def padded (depth : Nat) (line : List Char) : List Char :=
  if line = [] then [] else List.replicate depth ' ' ++ line

theorem endFree_replicate_append : EndFree (List.replicate depth ' ' ++ line) ↔ EndFree line := by
  induction depth with
  | zero => exact Iff.rfl
  | succ depth ih =>
    rw [List.replicate_succ, List.cons_append, Script.endFree_cons_of_ne (by decide), ih]

theorem endFree_padded (h : EndFree line) : EndFree (padded depth line) := by
  rw [padded]
  split
  · exact Script.endFree_of_notMem List.not_mem_nil
  · exact endFree_replicate_append.mpr h

theorem toList_indented (depth : Nat) (line : List Char) :
    (if (String.ofList line).isEmpty then "" else Text.spaces depth ++ String.ofList line).toList
      = padded depth line := by
  cases line with
  | nil => rfl
  | cons c line => simp [padded, Text.spaces]

/-- The first line and the others are indented on their own. -/
theorem toList_indent_append_feed (depth : Nat) (hline : '\n' ∉ line) (hrest : rest ≠ []) :
    (indent depth (String.ofList (line ++ '\n' :: rest))).toList
      = padded depth (Text.ended line) ++ '\n' :: (indent depth (String.ofList rest)).toList := by
  obtain ⟨next, others, hlines⟩ := List.exists_cons_of_ne_nil (Text.lines_ne_nil hrest)
  rw [indent, indent, Text.lines_append_feed hline, hlines, List.map_cons, List.map_cons,
    String.intercalate_cons_cons, String.toList_append, String.toList_append,
    toList_indented, List.append_assoc]
  rfl

/-- The line on which a comment ends is indented as it is. -/
theorem toList_indent_close (depth : Nat) (hcode : code ≠ []) (hfeed : '\n' ∉ note) :
    (indent depth (String.ofList (note ++ '*' :: '/' :: '\n' :: code))).toList
      = List.replicate depth ' '
        ++ (note ++ '*' :: '/' :: '\n' :: (indent depth (String.ofList code)).toList) := by
  have hline : '\n' ∉ note ++ ['*', '/'] := by simp [hfeed]
  have htext : note ++ '*' :: '/' :: '\n' :: code = (note ++ ['*', '/']) ++ '\n' :: code := by
    simp
  have hended : Text.ended (note ++ ['*', '/']) = note ++ ['*', '/'] :=
    Text.ended_eq_self (by simp)
  rw [htext, toList_indent_append_feed depth hline hcode, hended]
  simp [padded]

/-- What a comment holds behind its first line is indented without getting an end. -/
theorem exists_indent_note (depth : Nat) (hcode : code ≠ []) (hnote : EndFree note) :
    ∃ indented, EndFree indented ∧
      (indent depth (String.ofList (note ++ '*' :: '/' :: '\n' :: code))).toList
        = indented ++ '*' :: '/' :: '\n' :: (indent depth (String.ofList code)).toList := by
  induction note using Text.split_induction '\n' with
  | last note hfeed =>
    refine ⟨List.replicate depth ' ' ++ note, endFree_replicate_append.mpr hnote, ?_⟩
    rw [toList_indent_close depth hcode hfeed, List.append_assoc]
  | more line note hfeed ih =>
    obtain ⟨hfirst, hothers⟩ := (Script.endFree_append_cons (by decide) (by decide)).mp hnote
    obtain ⟨indented, hindented, htext⟩ := ih hothers
    refine ⟨padded depth (Text.ended line) ++ '\n' :: indented, ?_, ?_⟩
    · rw [Script.endFree_append_cons (by decide) (by decide)]
      exact ⟨endFree_padded (hfirst.of_infix (Text.ended_prefix line).isInfix), hindented⟩
    · rw [List.append_assoc, List.cons_append,
        toList_indent_append_feed depth hfeed (by simp), htext]
      simp

/-- A comment at the beginning of a text is still a comment when the text is indented. -/
theorem exists_indent_comment (depth : Nat) (hcode : code ≠ []) (hnote : EndFree note) :
    ∃ indented, EndFree indented ∧
      (indent depth (String.ofList ('/' :: '*' :: (note ++ '*' :: '/' :: '\n' :: code)))).toList
        = List.replicate depth ' ' ++ '/' :: '*' :: (indented
          ++ '*' :: '/' :: '\n' :: (indent depth (String.ofList code)).toList) := by
  have hopened (line : List Char) :
      Text.ended ('/' :: '*' :: line) = '/' :: '*' :: Text.ended line := by
    rw [Text.ended_cons (by decide), Text.ended_cons (by decide)]
  by_cases hfeed : '\n' ∈ note
  · obtain ⟨line, others, rfl, hline⟩ := List.eq_append_cons_of_mem hfeed
    obtain ⟨hfirst, hothers⟩ := (Script.endFree_append_cons (by decide) (by decide)).mp hnote
    obtain ⟨indented, hindented, htext⟩ := exists_indent_note depth hcode hothers
    refine ⟨Text.ended line ++ '\n' :: indented, ?_, ?_⟩
    · rw [Script.endFree_append_cons (by decide) (by decide)]
      exact ⟨hfirst.of_infix (Text.ended_prefix line).isInfix, hindented⟩
    · rw [List.append_assoc, List.cons_append, ← List.cons_append, ← List.cons_append,
        toList_indent_append_feed depth (by simp [hline]) (by simp), hopened, htext]
      simp [padded]
  · have hopening : '\n' ∉ '/' :: '*' :: note := by simp [hfeed]
    have hclose := toList_indent_close depth hcode hopening
    simp only [List.cons_append] at hclose
    exact ⟨note, hnote, hclose⟩

/-! ### Hooks -/

/-- What the comment of a hook says. -/
def hookNote (summary : String) : String :=
  "* " ++ (Script.escapeComment summary ++ " ")

theorem endFree_hookNote (summary : String) : EndFree (hookNote summary).toList :=
  Script.endFree_quoting summary (Script.endFree_of_notMem (by decide))
    (Script.endFree_of_notMem (by decide)) (by decide) (by decide)

/-- The summary of an operation stands in a comment before its hook, also when the hook is
indented. -/
theorem commented_source {plan : Plan} {summary : String}
    (h : plan.endpoint.summary = some summary) : ∃ code,
      Commented "" (hookNote summary) ("\n" ++ (plan.hook ++ code))
        (source plan) ∧
      ∀ depth, ∃ note, Commented (Text.spaces depth) note ("\n" ++ indent depth (plan.hook ++ code))
        (indent depth (source plan)) := by
  obtain ⟨rest, hsource⟩ := source_eq_append plan
  have hnote := endFree_hookNote summary
  have htext : source plan = "" ++ ("/*" ++ (hookNote summary
      ++ ("*/" ++ ("\n" ++ (plan.hook ++ (": (" ++ rest)))))) := by
    rw [hsource, h, docComment, hookNote, ← String.toList_inj]
    simp
  refine ⟨": (" ++ rest, .of_endFree hnote htext, fun depth => ?_⟩
  have hcode : (plan.hook ++ (": (" ++ rest)).toList ≠ [] := by simp
  obtain ⟨indented, hindented, hindent⟩ := exists_indent_comment depth hcode hnote
  refine ⟨String.ofList indented, .of_endFree (by rwa [String.toList_ofList]) ?_⟩
  have hchars : '/' :: '*' :: ((hookNote summary).toList
      ++ '*' :: '/' :: '\n' :: (plan.hook ++ (": (" ++ rest)).toList) = (source plan).toList := by
    rw [htext]
    simp
  rw [hchars, String.ofList_toList, String.ofList_toList] at hindent
  rw [← String.toList_inj, hindent]
  simp [Text.spaces]

/-- What a bucket holds are the indented hooks of its plans. -/
theorem exists_plan_of_mem_bucketOf {name : String} {depth : Nat} {plans : List Plan}
    {entry : String × String} (h : entry ∈ (bucketOf name depth plans).hooks) :
    ∃ plan ∈ plans, entry = (plan.hook, indent depth (source plan)) := by
  rw [hooks_bucketOf] at h
  obtain ⟨plan, hplan, rfl⟩ := List.mem_map.mp (Keyed.mem_of_mem_ofList h)
  exact ⟨plan, hplan, rfl⟩

end Hook

/-! ### Members -/

namespace Socket

/-- The event of an address has no slash left. -/
theorem slash_notMem_event (address : String) : '/' ∉ (Name.event address).toList := by
  rw [Name.event, String.toList_ofList, List.mem_map]
  rintro ⟨c, -, hc⟩
  split at hc
  · exact absurd hc (by decide)
  · next h => exact h hc

/-- The channels of a document have the events of addresses. -/
theorem exists_event_eq {name : String} {entities : List String} {document : AsyncApi.Document}
    {space : Space} (h : Space.ofDocument name entities document = .ok space) {channel : Channel}
    (hchannel : channel ∈ space.channels) : ∃ address, channel.event = Name.event address := by
  obtain ⟨channels, hchannels, h⟩ := bind_eq_ok.mp h
  cases h
  obtain ⟨⟨key, item⟩, -, hitem⟩ := exists_left (forall₂_of_mapM hchannels) hchannel
  obtain ⟨receive, -, hitem⟩ := bind_eq_ok.mp hitem
  obtain ⟨send, -, hitem⟩ := bind_eq_ok.mp hitem
  cases hitem
  exact ⟨_, rfl⟩

/-- What stands before and behind the event in the comments of members. -/
def memberNotes : List (String × String) :=
  [("* Emits `", "` and resolves with the validated acknowledgement. "),
   ("* Emits `", "` and resolves once it is acknowledged. "),
   ("* client → server `", "` "),
   ("* server → client `", "` ")]

/-- The source of the member begins with a comment about the event. -/
def Member.Noted (event : String) (m : Member) : Prop :=
  ∃ words ∈ memberNotes, ∃ more, m.source = "  " ++ ("/*" ++ ((words.1 ++ event ++ words.2)
    ++ ("*/" ++ ("\n  public " ++ (m.name ++ more)))))

theorem noted_of_words {m : Member} {event : String} (first last : String)
    (words : String × String) (hwords : words ∈ memberNotes) (hfirst : "  /*" ++ words.1 = first)
    (hlast : words.2 ++ "*/\n" = last)
    (h : ∃ more, m.source = first ++ (event ++ (last ++ ("  public " ++ (m.name ++ more))))) :
    m.Noted event := by
  obtain ⟨more, h⟩ := h
  refine ⟨words, hwords, more, ?_⟩
  rw [h, ← hfirst, ← hlast, ← String.toList_inj]
  simp

theorem noted_of_mem_channelMembers {channel : Channel} {m : Member}
    (h : m ∈ channelMembers channel) : m.Noted channel.event := by
  rcases mem_channelMembers h with ⟨_, response, rfl, -⟩ | ⟨_, rfl⟩ | ⟨payload, rfl⟩
  · cases response with
    | some shape =>
      refine noted_of_words "  /** Emits `"
        "` and resolves with the validated acknowledgement. */\n"
        ("* Emits `", "` and resolves with the validated acknowledgement. ")
        (by simp [memberNotes]) (by simp) (by simp) ?_
      simp only [ackMember, String.append_assoc]
      exact ⟨_, rfl⟩
    | none =>
      refine noted_of_words "  /** Emits `" "` and resolves once it is acknowledged. */\n"
        ("* Emits `", "` and resolves once it is acknowledged. ")
        (by simp [memberNotes]) (by simp) (by simp) ?_
      simp only [ackMember, String.append_assoc]
      exact ⟨_, rfl⟩
  · refine noted_of_words "  /** client → server `" "` */\n" ("* client → server `", "` ")
      (by simp [memberNotes]) (by simp) (by simp) ?_
    simp only [emitMember, String.append_assoc]
    exact ⟨_, rfl⟩
  · refine noted_of_words "  /** server → client `" "` */\n" ("* server → client `", "` ")
      (by simp [memberNotes]) (by simp) (by simp) ?_
    cases payload <;>
    · simp only [listenerMember, String.append_assoc]
      exact ⟨_, rfl⟩

/-- If the event has no slash, the comment ends where it was written to end. -/
theorem Member.Noted.commented {event : String} {m : Member} (h : m.Noted event)
    (hevent : '/' ∉ event.toList) : ∃ words ∈ memberNotes, ∃ more,
      Commented "  " (words.1 ++ event ++ words.2) ("\n  public " ++ (m.name ++ more))
        m.source := by
  obtain ⟨words, hwords, more, hsource⟩ := h
  have hslash : ∀ words ∈ memberNotes, '/' ∉ words.1.toList ∧ '/' ∉ words.2.toList := by
    decide +kernel
  obtain ⟨hbefore, hbehind⟩ := hslash words hwords
  refine ⟨words, hwords, more, .of_endFree (Script.endFree_of_notMem ?_) hsource⟩
  simp [hbefore, hevent, hbehind]

/-! ### The client -/

/-- What the comment of a client says about its title. -/
def titleNote (title : String) : String :=
  if (Script.escapeComment title).isEmpty then "" else " (" ++ Script.escapeComment title ++ ")"

/-- What the comment of a client says. -/
def clientNote (space : Space) : String :=
  "* Client for the `" ++ (Script.escapeComment space.name
    ++ ("` socket namespace" ++ (titleNote space.title ++ ". ")))

theorem endFree_titleNote (title : String) : EndFree (titleNote title).toList := by
  rw [titleNote]
  split
  · exact Script.endFree_of_notMem List.not_mem_nil
  · rw [String.append_assoc]
    exact Script.endFree_quoting title (Script.endFree_of_notMem (by decide))
      (Script.endFree_of_notMem (by decide)) (by decide) (by decide)

theorem endFree_clientNote (space : Space) : EndFree (clientNote space).toList := by
  have hbehind : EndFree ("` socket namespace" ++ (titleNote space.title ++ ". ")).toList := by
    rw [String.toList_append, String.toList_append]
    refine Script.endFree_append (Script.endFree_of_notMem (by decide +kernel))
      (Script.endFree_append (endFree_titleNote _) (Script.endFree_of_notMem (by decide)) ?_) ?_
    · exact .inr (by decide)
    · exact .inl (by decide +kernel)
  refine Script.endFree_quoting _ (Script.endFree_of_notMem (by decide +kernel)) hbehind
    (by decide +kernel) ?_
  rw [String.toList_append, List.head?_append]
  simp

/-- The name and the title of a namespace stand in a comment before the class. -/
theorem commented_clientText (space : Space) (schemasImport : String) (members : List Member) :
    ∃ before after, Commented before (clientNote space)
      ("\nexport class " ++ (Name.clientClass space.name ++ after))
      (clientText space schemasImport members) := by
  have hcomment (name title rest : String) :
      "/** Client for the `" ++ (name ++ ("` socket namespace" ++ (title ++ (". */\n"
          ++ ("export class " ++ rest)))))
        = "/*" ++ (("* Client for the `" ++ (name ++ ("` socket namespace" ++ (title ++ ". "))))
          ++ ("*/" ++ ("\nexport class " ++ rest))) := by
    rw [← String.toList_inj]
    simp
  refine ⟨Script.generatedMarker ++ ("\n"
      ++ ("import \x7b io, Socket \x7d from \"socket.io-client\";\n"
      ++ ("import \x7b z \x7d from \"zod\";\n"
      ++ ("import * as schemas from \"" ++ (schemasImport ++ "\";\n\n"))))),
    " \x7b\n" ++ (classBody (fixedMembers ++ members) ++ classTail space),
    .of_endFree (endFree_clientNote space) ?_⟩
  refine Eq.trans ?_ (congrArg _ (hcomment (Script.escapeComment space.name)
    (titleNote space.title) _))
  rw [clientText_eq, classHead]
  simp only [String.append_assoc, titleNote]

end Socket

/-! ### Every doc comment -/

/-- Every doc comment ends at the end that is written behind its note, and code follows. That of a
hook quotes the summary of the operation, and it is a comment as well where a bucket of the exported
object holds the hook, which is indented there. That of a member quotes the event of its channel,
if the channel is one of a document, and that of a client the name and the title of the
namespace. -/
theorem docComments_closed :
    (∀ plan summary, plan.endpoint.summary = some summary → ∃ code,
      Commented "" (Hook.hookNote summary) ("\n" ++ (plan.hook ++ code)) (Hook.source plan) ∧
      ∀ depth, ∃ note, Commented (Text.spaces depth) note
        ("\n" ++ Hook.indent depth (plan.hook ++ code)) (Hook.indent depth (Hook.source plan))) ∧
    (∀ name depth plans, ∀ entry ∈ (Hook.bucketOf name depth plans).hooks,
      ∃ plan ∈ plans, entry = (plan.hook, Hook.indent depth (Hook.source plan))) ∧
    (∀ name entities document space, Socket.Space.ofDocument name entities document = .ok space →
      ∀ channel ∈ space.channels, ∀ m ∈ Socket.channelMembers channel,
        ∃ words ∈ Socket.memberNotes, ∃ more, Commented "  " (words.1 ++ channel.event ++ words.2)
          ("\n  public " ++ (m.name ++ more)) m.source) ∧
    ∀ space schemasImport members, ∃ before after, Commented before (Socket.clientNote space)
      ("\nexport class " ++ (Name.clientClass space.name ++ after))
      (Socket.clientText space schemasImport members) := by
  refine ⟨fun plan summary => Hook.commented_source,
    fun name depth plans entry => Hook.exists_plan_of_mem_bucketOf, ?_, Socket.commented_clientText⟩
  intro name entities document space hspace channel hchannel m hm
  obtain ⟨address, hevent⟩ := Socket.exists_event_eq hspace hchannel
  refine (Socket.noted_of_mem_channelMembers hm).commented ?_
  rw [hevent]
  exact Socket.slash_notMem_event address

/-- An operation with ends of comments in its summary, one of them after a line end. -/
def startled : Endpoint :=
  { Hook.fetch "getPet" "pets" with summary := some "Finds */ a pet\r\n*/" }

/-- A channel with an end of a comment in its address. -/
def corridor : Json :=
  Socket.documentTree [("room/**/*/join", .object [])]
    [("join", Socket.operationTree "receive" "#/channels/room~1**~1*~1join")]

theorem docComments_closed_corridor :
    (∃ code, Commented "" "* Finds *\\/ a pet\r\n*\\/ " ("\nuseGetPet" ++ code)
      (Hook.source (Plan.outline startled))) ∧
    ∃ document space channel, AsyncApi.Document.ofJson? corridor = some document ∧
      Socket.Space.ofDocument "v1" [] document = .ok space ∧ channel ∈ space.channels ∧
      channel.event = "**_*_join" ∧ ∀ m ∈ Socket.channelMembers channel,
        ∃ words ∈ Socket.memberNotes, ∃ more, Commented "  " (words.1 ++ "**_*_join" ++ words.2)
          ("\n  public " ++ (m.name ++ more)) m.source := by
  obtain ⟨hhooks, -, hmembers, -⟩ := docComments_closed
  constructor
  · have hhook : (Plan.outline startled).hook = "useGetPet" := by decide
    have hnote : Hook.hookNote "Finds */ a pet\r\n*/" = "* Finds *\\/ a pet\r\n*\\/ " := by
      decide +kernel
    obtain ⟨code, hcode, -⟩ := hhooks (Plan.outline startled) "Finds */ a pet\r\n*/" rfl
    rw [hhook, hnote] at hcode
    exact ⟨code, hcode⟩
  · have hread : ∃ document space, AsyncApi.Document.ofJson? corridor = some document ∧
        Socket.Space.ofDocument "v1" [] document = .ok space ∧
        space.channels.map Socket.Channel.event = ["**_*_join"] :=
      ⟨_, _, rfl, rfl, by decide⟩
    obtain ⟨document, space, hdocument, hspace, hevents⟩ := hread
    obtain ⟨channel, hchannels, hevent⟩ := List.map_eq_singleton_iff.mp hevents
    have hchannel : channel ∈ space.channels := by
      rw [hchannels]
      exact List.mem_cons_self
    have hnotes := hmembers "v1" [] document space hspace channel hchannel
    rw [hevent] at hnotes
    exact ⟨document, space, channel, hdocument, hspace, hchannel, hevent, hnotes⟩

end TypedClients
