import TypedClients.Proofs.Hook.Planning
import TypedClients.Proofs.Name.Case
import TypedClients.Socket.Client

/-!
# The members of a client's class

The class of a client is made of the members that every class has and of those of the namespace's
channels (`clientText_eq`), and each of them declares its name (`Member.Declared`). There is a client
exactly if the names of the channels' members are new and differ from each other
(`clientModule_eq_ok_iff`). The names that are taken from the start are those of the members that
every class has, but for the constructor's (`fixedMembers_perm`); so a channel's member may be called
like the constructor, and it is if its event is (`clientModule_names_nodup_iff`).

## What is proved

`clientModule_names_nodup_iff` — for every namespace that has a client: its class is made of the
members that every class has and those of the channels, each with its name; names of the channels'
members are identifiers and new; and the names in the class are distinct exactly if no channel that
is answered has an event called like the constructor. `clientModule_builders` is a client in which
they are not.

## What is not here

What a script does with two members of one name. That the text has them is all that is claimed.
-/

namespace TypedClients.Socket

/-! ### The class -/

/-- The members that every class has, as they are written. -/
def fixedMembers : List Member :=
  [⟨"socket", "  private socket: Socket;"⟩,
   ⟨"constructor",
    "  constructor(url: string, options: Parameters<typeof io>[1] = \x7b\x7d) \x7b\n"
      ++ ("    this.socket = io(url, options);\n" ++ "  \x7d")⟩,
   ⟨"connect",
    "  public connect(): void \x7b\n"
      ++ ("    this.socket.connect();\n" ++ "  \x7d")⟩,
   ⟨"disconnect",
    "  public disconnect(): void \x7b\n"
      ++ ("    this.socket.disconnect();\n" ++ "  \x7d")⟩,
   ⟨"isConnected",
    "  public isConnected(): boolean \x7b\n"
      ++ ("    return this.socket.connected;\n" ++ "  \x7d")⟩,
   ⟨"onConnect",
    "  public onConnect(handler: () => void): void \x7b\n"
      ++ ("    this.socket.on(\"connect\", handler);\n" ++ "  \x7d")⟩,
   ⟨"onDisconnect",
    "  public onDisconnect(handler: () => void): void \x7b\n"
      ++ ("    this.socket.on(\"disconnect\", handler);\n" ++ "  \x7d")⟩,
   ⟨"onAny",
    "  public onAny(handler: (event: string, ...args: unknown[]) => void): void \x7b\n"
      ++ ("    this.socket.onAny(handler);\n" ++ "  \x7d")⟩,
   ⟨"onError",
    "  public onError(handler: (err: Error) => void): void \x7b\n"
      ++ ("    this.socket.on(\"connect_error\", handler);\n" ++ "  \x7d")⟩]

/-- What stands before the members of the class. -/
def classHead (space : Space) (schemasImport : String) : String :=
  let title := Script.escapeComment space.title
  Script.generatedMarker ++ "\n"
    ++ "import \x7b io, Socket \x7d from \"socket.io-client\";\n"
    ++ "import \x7b z \x7d from \"zod\";\n"
    ++ "import * as schemas from \"" ++ schemasImport ++ "\";\n\n"
    ++ "/** Client for the `" ++ Script.escapeComment space.name ++ "` socket namespace"
    ++ (if title.isEmpty then "" else " (" ++ title ++ ")") ++ ". */\n"
    ++ "export class " ++ Name.clientClass space.name ++ " \x7b\n"

/-- What stands after them. -/
def classTail (space : Space) : String :=
  "\x7d\n\n"
    ++ "export function createSocketClient(url: string, options: Parameters<typeof io>[1] = "
    ++ "\x7b\x7d): " ++ Name.clientClass space.name ++ " \x7b\n"
    ++ "  return new " ++ Name.clientClass space.name ++ "(url, options);\n"
    ++ "\x7d\n"

/-- The members of a class, an empty line between each two. -/
def classBody (members : List Member) : String :=
  "\n".intercalate (members.map fun m => m.source ++ "\n")

theorem concat_cons (text : String) (texts : List String) :
    "".intercalate (text :: texts) = text ++ "".intercalate texts := by
  cases texts <;> simp

theorem classBody_cons (m : Member) (rest : List Member) :
    classBody (m :: rest)
      = m.source ++ "\n" ++ "".intercalate (rest.map fun m => "\n" ++ m.source ++ "\n") := by
  induction rest generalizing m with
  | nil => simp [classBody]
  | cons n rest ih =>
    have hn := ih n
    simp only [classBody, List.map_cons] at hn ⊢
    rw [String.intercalate_cons_cons, hn, concat_cons]
    simp only [String.append_assoc]

theorem clientText_eq (space : Space) (schemasImport : String) (members : List Member) :
    clientText space schemasImport members
      = classHead space schemasImport ++ classBody (fixedMembers ++ members)
        ++ classTail space := by
  have hclose : ∀ rest : String, "  \x7d" ++ ("\n" ++ ("\n" ++ rest)) = "  \x7d\n\n" ++ rest := by
    intro rest
    simp [← String.append_assoc]
  have hfield : ∀ rest : String,
      "  private socket: Socket;" ++ ("\n" ++ ("\n" ++ rest))
        = "  private socket: Socket;\n\n" ++ rest := by
    intro rest
    simp [← String.append_assoc]
  have hlast : ∀ rest : String, "  \x7d" ++ ("\n" ++ rest) = "  \x7d\n" ++ rest := by
    intro rest
    simp [← String.append_assoc]
  unfold clientText classHead classTail fixedMembers
  simp only [List.cons_append, List.nil_append, classBody_cons, List.map_cons, concat_cons]
  simp only [String.append_assoc]
  simp only [hclose, hfield, hlast]

/-- A doc comment on a line of its own. -/
def IsComment (text : String) : Prop :=
  ∃ note, text = "  /** " ++ note ++ " */\n"

/-- The source declares the member under its name: there may be a doc comment, then come the modifier,
the name, and its type or its parameters. -/
def Member.Declared (m : Member) : Prop :=
  ∃ comment modifier opening rest,
    m.source = comment ++ (modifier ++ (m.name ++ (opening ++ rest))) ∧
      (comment = "" ∨ IsComment comment) ∧ modifier ∈ ["  ", "  private ", "  public "] ∧
      opening ∈ ["(", ":"]

theorem declared_of_line {m : Member} {line more : String} (modifier first : String)
    (hsource : m.source = line ++ more) (hline : line = modifier ++ (m.name ++ ("(" ++ first)))
    (hmodifier : modifier ∈ ["  ", "  private ", "  public "]) : m.Declared := by
  refine ⟨"", modifier, "(", first ++ more, ?_, .inl rfl, hmodifier, by simp⟩
  rw [hsource, hline]
  simp only [String.empty_append, String.append_assoc]

theorem declared_of_mem_fixedMembers {m : Member} (h : m ∈ fixedMembers) : m.Declared := by
  simp only [fixedMembers, List.mem_cons, List.not_mem_nil, or_false] at h
  rcases h with rfl | rfl | rfl | rfl | rfl | rfl | rfl | rfl | rfl
  · exact ⟨"", "  private ", ":", " Socket;", by simp, .inl rfl, by simp, by simp⟩
  · exact declared_of_line "  " "url: string, options: Parameters<typeof io>[1] = \x7b\x7d) \x7b\n"
      rfl (by simp) (by simp)
  · exact declared_of_line "  public " "): void \x7b\n" rfl (by simp) (by simp)
  · exact declared_of_line "  public " "): void \x7b\n" rfl (by simp) (by simp)
  · exact declared_of_line "  public " "): boolean \x7b\n" rfl (by simp) (by simp)
  · exact declared_of_line "  public " "handler: () => void): void \x7b\n" rfl (by simp) (by simp)
  · exact declared_of_line "  public " "handler: () => void): void \x7b\n" rfl (by simp) (by simp)
  · exact declared_of_line "  public "
      "handler: (event: string, ...args: unknown[]) => void): void \x7b\n" rfl (by simp) (by simp)
  · exact declared_of_line "  public " "handler: (err: Error) => void): void \x7b\n" rfl (by simp)
      (by simp)

theorem isComment_of_note {first last : String} (lead tail event : String)
    (hfirst : "  /** " ++ lead = first) (hlast : tail ++ " */\n" = last) :
    IsComment (first ++ event ++ last) := by
  subst hfirst hlast
  exact ⟨lead ++ event ++ tail, by simp only [String.append_assoc]⟩

theorem declared_of_comment {m : Member} {comment opened : String} (hcomment : IsComment comment)
    (first : String) (hopened : "(" ++ first = opened)
    (h : ∃ more, m.source = comment ++ ("  public " ++ (m.name ++ (opened ++ more)))) :
    m.Declared := by
  obtain ⟨more, h⟩ := h
  refine ⟨comment, "  public ", "(", first ++ more, ?_, .inr hcomment, by simp, by simp⟩
  rw [h, ← hopened, String.append_assoc]

theorem declared_ackMember (event : String) (payload response : Option Node) :
    (ackMember event payload response).Declared := by
  cases response with
  | none =>
    have hcomment :
        IsComment ("  /** Emits `" ++ event ++ "` and resolves once it is acknowledged. */\n") :=
      isComment_of_note "Emits `" "` and resolves once it is acknowledged." event (by simp)
        (by simp)
    refine declared_of_comment hcomment "" String.append_empty ?_
    simp only [ackMember, String.append_assoc]
    exact ⟨_, rfl⟩
  | some shape =>
    have hcomment : IsComment
        ("  /** Emits `" ++ event ++ "` and resolves with the validated acknowledgement. */\n") :=
      isComment_of_note "Emits `" "` and resolves with the validated acknowledgement." event
        (by simp) (by simp)
    refine declared_of_comment hcomment "" String.append_empty ?_
    simp only [ackMember, String.append_assoc]
    exact ⟨_, rfl⟩

theorem declared_emitMember (event : String) (payload : Option Node) :
    (emitMember event payload).Declared := by
  have hcomment : IsComment ("  /** client → server `" ++ event ++ "` */\n") :=
    isComment_of_note "client → server `" "`" event (by simp) (by simp)
  refine declared_of_comment hcomment "" String.append_empty ?_
  simp only [emitMember, String.append_assoc]
  exact ⟨_, rfl⟩

theorem declared_listenerMember (event : String) (payload : Option Node) :
    (listenerMember event payload).Declared := by
  have hcomment : IsComment ("  /** server → client `" ++ event ++ "` */\n") :=
    isComment_of_note "server → client `" "`" event (by simp) (by simp)
  cases payload with
  | none =>
    have hopened :
        "(" ++ "handler: () => void): void \x7b\n" = "(handler: () => void): void \x7b\n" := by
      simp
    refine declared_of_comment hcomment _ hopened ?_
    simp only [listenerMember, String.append_assoc]
    exact ⟨_, rfl⟩
  | some shape =>
    have hopened : "(" ++ "handler: (payload: " = "(handler: (payload: " := by simp
    refine declared_of_comment hcomment _ hopened ?_
    simp only [listenerMember, String.append_assoc]
    exact ⟨_, rfl⟩

/-- The members of the class for a namespace. -/
def Space.classMembers (space : Space) : List Member :=
  fixedMembers ++ space.channels.flatMap channelMembers

/-! ### The names of the members -/

/-- The receiving side of the channel is answered through the acknowledgement. -/
def Channel.Answered (channel : Channel) : Prop :=
  channel.ack = true ∧ channel.receive.isSome = true ∧ channel.send.isSome = true

theorem mem_channelMembers {channel : Channel} {m : Member} (h : m ∈ channelMembers channel) :
    (∃ payload response, m = ackMember channel.event payload response ∧ channel.Answered) ∨
      (∃ payload, m = emitMember channel.event payload) ∨
      ∃ payload, m = listenerMember channel.event payload := by
  simp only [channelMembers, List.mem_append, Option.mem_toList, Option.map_eq_some_iff] at h
  rcases h with ⟨receive, hreceive, rfl⟩ | ⟨send, -, rfl⟩
  · unfold callMember
    split
    · next send hack hsend =>
      exact .inl ⟨_, _, rfl, hack, by simp [hreceive], by simp [hsend]⟩
    · exact .inr (.inl ⟨_, rfl⟩)
  · exact .inr (.inr ⟨_, rfl⟩)

theorem declared_of_mem_channelMembers {channel : Channel} {m : Member}
    (h : m ∈ channelMembers channel) : m.Declared := by
  rcases mem_channelMembers h with ⟨_, _, rfl, -⟩ | ⟨_, rfl⟩ | ⟨_, rfl⟩
  · exact declared_ackMember _ _ _
  · exact declared_emitMember _ _
  · exact declared_listenerMember _ _

theorem isIdentifier_of_mem_channelMembers {channel : Channel} {m : Member}
    (h : m ∈ channelMembers channel) : Name.isIdentifier m.name = true := by
  rcases mem_channelMembers h with ⟨_, _, rfl, -⟩ | ⟨_, rfl⟩ | ⟨_, rfl⟩
  · exact Name.isIdentifier_sanitize _
  · exact Name.isIdentifier_append_sanitize (by decide) _
  · exact Name.isIdentifier_append_sanitize (by decide) _

/-- Only a call that waits for the acknowledgement can be called like the constructor. -/
theorem constructor_mem_names_iff {channel : Channel} :
    "constructor" ∈ (channelMembers channel).map Member.name
      ↔ channel.Answered ∧ channel.event = "constructor" := by
  constructor
  · intro h
    obtain ⟨m, hm, hname⟩ := List.mem_map.mp h
    rcases mem_channelMembers hm with ⟨_, _, rfl, hanswered⟩ | ⟨_, rfl⟩ | ⟨_, rfl⟩
    · exact ⟨hanswered, Name.eq_of_sanitize_camel hname (by decide)⟩
    · have hfirst := congrArg (fun s => s.toList.head?) hname
      simp [emitMember] at hfirst
    · have hfirst := congrArg (fun s => s.toList.head?) hname
      simp [listenerMember] at hfirst
  · rintro ⟨⟨hack, hreceive, hsend⟩, hevent⟩
    obtain ⟨receive, hreceive⟩ := Option.isSome_iff_exists.mp hreceive
    obtain ⟨send, hsend⟩ := Option.isSome_iff_exists.mp hsend
    refine List.mem_map.mpr ⟨ackMember channel.event receive.payload send.payload, ?_, ?_⟩
    · simp [channelMembers, callMember, hreceive, hack, hsend]
    · show Name.sanitize (Name.camel channel.event) = "constructor"
      rw [hevent]
      decide

/-! ### Members whose names are taken -/

variable {className address : String}

theorem addMembers_eq_ok_iff {taken after : List String} {members : List Member} :
    addMembers className address taken members = .ok after
      ↔ Plan.Claimable taken (members.map Member.name) ∧
        after = (members.map Member.name).reverse ++ taken := by
  induction members generalizing taken with
  | nil => simp [addMembers, Plan.claimable_nil, eq_comm]
  | cons m members ih =>
    rw [addMembers, List.map_cons, Plan.claimable_cons]
    by_cases hm : m.name ∈ taken
    · simp [hm]
    · simp [hm, ih]

theorem addChannels_eq_ok_iff {taken after : List String} {channels : List Channel} :
    channels.foldlM (fun taken channel =>
        addMembers className channel.address taken (channelMembers channel)) taken = .ok after
      ↔ Plan.Claimable taken ((channels.flatMap channelMembers).map Member.name) ∧
        after = ((channels.flatMap channelMembers).map Member.name).reverse ++ taken := by
  induction channels generalizing taken with
  | nil =>
    constructor
    · intro h
      cases h
      exact ⟨Plan.claimable_nil _, rfl⟩
    · rintro ⟨-, rfl⟩
      rfl
  | cons channel channels ih =>
    rw [List.foldlM_cons, bind_eq_ok, List.flatMap_cons, List.map_append, Plan.claimable_append]
    constructor
    · rintro ⟨between, hfirst, hrest⟩
      obtain ⟨hclaimable, rfl⟩ := addMembers_eq_ok_iff.mp hfirst
      obtain ⟨hothers, rfl⟩ := ih.mp hrest
      exact ⟨⟨hclaimable, hothers⟩, by simp⟩
    · rintro ⟨⟨hclaimable, hothers⟩, rfl⟩
      exact ⟨_, addMembers_eq_ok_iff.mpr ⟨hclaimable, rfl⟩, ih.mpr ⟨hothers, by simp⟩⟩

/-- A namespace has members if the names of its channels' members are different from each other and
from those that every client has. -/
theorem members_eq_ok_iff {space : Space} {found : List Member} :
    members space = .ok found
      ↔ Plan.Claimable lifecycle ((space.channels.flatMap channelMembers).map Member.name) ∧
        found = space.channels.flatMap channelMembers := by
  unfold members
  rw [bind_eq_ok]
  constructor
  · rintro ⟨_, hchannels, h⟩
    cases h
    exact ⟨(addChannels_eq_ok_iff.mp hchannels).1, rfl⟩
  · rintro ⟨hclaimable, rfl⟩
    exact ⟨_, addChannels_eq_ok_iff.mpr ⟨hclaimable, rfl⟩, rfl⟩

/-- A namespace has a client if it has members. -/
theorem clientModule_eq_ok_iff {space : Space} {schemasImport text : String} :
    clientModule space schemasImport = .ok text
      ↔ Plan.Claimable lifecycle ((space.channels.flatMap channelMembers).map Member.name) ∧
        text = clientText space schemasImport (space.channels.flatMap channelMembers) := by
  unfold clientModule
  rw [bind_eq_ok]
  constructor
  · rintro ⟨found, hmembers, h⟩
    obtain ⟨hclaimable, rfl⟩ := members_eq_ok_iff.mp hmembers
    exact ⟨hclaimable, (Except.ok.inj h).symm⟩
  · rintro ⟨hclaimable, rfl⟩
    exact ⟨_, members_eq_ok_iff.mpr ⟨hclaimable, rfl⟩, rfl⟩

/-- Every class has the constructor, and what is never given to a channel's member. -/
theorem fixedMembers_perm :
    (fixedMembers.map Member.name).Perm ("constructor" :: lifecycle) := by
  decide

/-- Where the names of the channels' members are new, the names of all members are different but for
a call that is called like the constructor. -/
theorem nodup_names_iff {names : List String} (h : Plan.Claimable lifecycle names) :
    (fixedMembers.map Member.name ++ names).Nodup ↔ "constructor" ∉ names := by
  have hfixed : ("constructor" :: lifecycle).Nodup := by decide
  rw [(fixedMembers_perm.append_right names).nodup_iff, List.nodup_append]
  constructor
  · rintro ⟨-, -, hapart⟩ hmem
    exact hapart _ List.mem_cons_self _ hmem rfl
  · intro hnew
    refine ⟨hfixed, h.1, ?_⟩
    rintro a ha b hb rfl
    rcases List.mem_cons.mp ha with rfl | ha
    · exact hnew hb
    · exact h.2 a hb ha

/-- The class of a client is made of the members that every class has and those of the channels. Each
declares an identifier. The names are different from each other exactly if no answered channel has
the event `constructor`, whose call would be called like the constructor. -/
theorem clientModule_names_nodup_iff {space : Space} {schemasImport text : String}
    (h : clientModule space schemasImport = .ok text) :
    text = classHead space schemasImport ++ classBody space.classMembers ++ classTail space ∧
      (∀ m ∈ space.classMembers, m.Declared ∧ Name.isIdentifier m.name = true) ∧
      ((space.classMembers.map Member.name).Nodup
        ↔ ∀ channel ∈ space.channels, channel.Answered → channel.event ≠ "constructor") := by
  obtain ⟨hclaimable, rfl⟩ := clientModule_eq_ok_iff.mp h
  refine ⟨clientText_eq _ _ _, ?_, ?_⟩
  · intro m hm
    rcases List.mem_append.mp hm with hm | hm
    · have hidentifiers : ∀ m ∈ fixedMembers, Name.isIdentifier m.name = true := by
        decide +kernel
      exact ⟨declared_of_mem_fixedMembers hm, hidentifiers m hm⟩
    · obtain ⟨channel, -, hm⟩ := List.mem_flatMap.mp hm
      exact ⟨declared_of_mem_channelMembers hm, isIdentifier_of_mem_channelMembers hm⟩
  · rw [Space.classMembers, List.map_append, nodup_names_iff hclaimable, List.map_flatMap,
      List.mem_flatMap]
    simp only [constructor_mem_names_iff]
    constructor
    · intro hnone channel hchannel hanswered hevent
      exact hnone ⟨channel, hchannel, hanswered, hevent⟩
    · rintro hother ⟨channel, hchannel, hanswered, hevent⟩
      exact hother channel hchannel hanswered hevent

/-- A channel whose event is answered through the acknowledgement of its emit. -/
def answered (event : String) : Channel :=
  { address := event
    event := event
    receive := some ⟨event ++ ".receive", none⟩
    send := some ⟨event ++ ".send", none⟩
    ack := true }

/-- A namespace in which an event is answered and another one is only sent. -/
def rooms : Space :=
  ⟨"v1", "Rooms", [answered "get_state",
    ⟨"tick", "tick", none, some ⟨"tick.send", some (.prim .number)⟩, false⟩]⟩

theorem clientModule_names_nodup_rooms : ∃ text,
    clientModule rooms "./schemas" = .ok text ∧
      (∀ channel ∈ rooms.channels, channel.Answered → channel.event ≠ "constructor") ∧
      rooms.classMembers.map Member.name = ["socket", "constructor", "connect", "disconnect",
        "isConnected", "onConnect", "onDisconnect", "onAny", "onError", "getState", "onGetState",
        "onTick"] ∧
      (rooms.classMembers.map Member.name).Nodup := by
  have hmodule : clientModule rooms "./schemas"
      = .ok (clientText rooms "./schemas" (rooms.channels.flatMap channelMembers)) :=
    clientModule_eq_ok_iff.mpr ⟨by decide, rfl⟩
  have hevents : ∀ channel ∈ rooms.channels, channel.Answered → channel.event ≠ "constructor" := by
    rw [rooms, List.forall_mem_cons, List.forall_mem_singleton]
    exact ⟨fun _ => by decide, fun _ => by decide⟩
  exact ⟨_, hmodule, hevents, by decide, (clientModule_names_nodup_iff hmodule).2.2.mpr hevents⟩

/-- A namespace with an answered event that is called like the constructor. -/
def builders : Space :=
  ⟨"v1", "", [answered "constructor"]⟩

/-- There is a client, but its class has two members of one name. -/
theorem clientModule_builders : ∃ text, clientModule builders "./schemas" = .ok text ∧
    ¬ (builders.classMembers.map Member.name).Nodup := by
  have hclaimable :
      Plan.Claimable lifecycle ((builders.channels.flatMap channelMembers).map Member.name) := by
    decide
  exact ⟨_, clientModule_eq_ok_iff.mpr ⟨hclaimable, rfl⟩, by decide⟩

end TypedClients.Socket
