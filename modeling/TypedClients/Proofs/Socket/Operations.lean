import Mathlib.Data.List.Nodup
import TypedClients.Proofs.Keyed
import TypedClients.Proofs.Outcome
import TypedClients.Socket.Channel

/-!
# The operations of a document

An operation says by a reference which channel it is for. A channel looks for its operations by that
text and takes the first one in each direction (`sideId?_eq`). Different keys are referred to by
different texts, so no operation is taken by two channels; but one that refers to no channel is taken
by none, and of several in one direction on a channel only the first is taken (`takenUp_iff`).
Neither is an error.

## What is proved

`ofDocument_takesUp_iff` — for every document whose channels can be collected: each operation is a
side of the channel that it refers to, for its own direction, and no other, exactly if each refers
to a channel of the document and no two in one direction refer to the same one. `ofDocument_strayed`
is a document with an operation that refers to none.

## What is not here

References that mean the same in another spelling. A channel looks for the text that is made from
its key.
-/

namespace TypedClients

/-! ### Keys and the references to them -/

theorem Json.escapeStep_inj {a b : String} (h : Json.escapeStep a = Json.escapeStep b) : a = b := by
  have hchars := congrArg String.toList h
  simp only [Json.escapeStep, Text.toList_lift] at hchars
  have hback := congrArg Json.unescapeStepChars hchars
  rw [Json.unescape_escape, Json.unescape_escape] at hback
  exact String.toList_inj.mp hback

/-- Every key of a map is there once. -/
theorem Json.nodup_keys_of_map? {β : Type} {decode : Json → Option β} {value : Json}
    {entries : List (String × β)} (h : Json.map? decode value = some entries) :
    (Keyed.keys entries).Nodup := by
  cases value with
  | object members =>
    obtain ⟨pairs, -, rfl⟩ := Option.map_eq_some_iff.mp h
    rw [Keyed.keys_ofList]
    exact Keyed.nodup_distinct _
  | _ => cases h

theorem Json.nodup_keys_of_defaulted? {β : Type} {name : String} {decode : Json → Option β}
    {record : List (String × Json)} {entries : List (String × β)}
    (h : Json.defaulted? name [] (Json.map? decode) record = some entries) :
    (Keyed.keys entries).Nodup := by
  unfold Json.defaulted? at h
  split at h
  · cases h
    exact List.nodup_nil
  · exact Json.nodup_keys_of_map? h

namespace AsyncApi

theorem channelRef_inj {a b : String} (h : channelRef a = channelRef b) : a = b := by
  have hchars := congrArg String.toList h
  simp only [channelRef, String.toList_append] at hchars
  exact Json.escapeStep_inj (String.toList_inj.mp (List.append_cancel_left hchars))

/-- A document names every channel and every operation once. -/
theorem Document.nodup_keys {tree : Json} {document : Document}
    (h : Document.ofJson? tree = some document) :
    (Keyed.keys document.channels).Nodup ∧ (Keyed.keys document.operations).Nodup := by
  simp only [Document.ofJson?, Option.bind_eq_bind, Option.bind_eq_some_iff] at h
  obtain ⟨_, -, _, -, _, -, channels, hchannels, operations, hoperations, h⟩ := h
  cases h
  exact ⟨Json.nodup_keys_of_defaulted? hchannels, Json.nodup_keys_of_defaulted? hoperations⟩

end AsyncApi

namespace Socket

open AsyncApi

variable {document : Document} {entities : List String} {spaceName : String} {space : Space}

/-! ### The sides of the channels -/

/-- The side of a channel for an action. -/
def Channel.side (channel : Channel) : Action → Option Side
  | .receive => channel.receive
  | .send => channel.send

/-- The operation that the channel at a position has for an action. -/
def Space.sideId? (space : Space) (position : Nat) (action : Action) : Option String :=
  (space.channels[position]?).bind fun channel => (channel.side action).map Side.id

/-- The operation is a side of one channel, the one that it refers to, for its own action; and it is
no other side of this or another channel. -/
def TakenUp (document : Document) (space : Space) (entry : String × Operation) : Prop :=
  ∃ position, (document.channels[position]?).map (fun channel => channelRef channel.1)
      = some entry.2.channelRef ∧
    ∀ other action, space.sideId? other action = some entry.1
      ↔ other = position ∧ action = entry.2.action

theorem id_of_sideOf {item : ChannelItem} {id : String} {operation : Operation} {side : Side}
    (h : sideOf document entities item id operation = .ok side) : side.id = id := by
  unfold sideOf at h
  split at h
  · cases h
    rfl
  · obtain ⟨message, -, h⟩ := bind_eq_ok.mp h
    split at h
    · cases h
      rfl
    · obtain ⟨shape, -, h⟩ := bind_eq_ok.mp h
      cases h
      rfl

theorem id_of_sideOf? {item : ChannelItem} {found : Option (String × Operation)}
    {side : Option Side} (h : sideOf? document entities item found = .ok side) :
    side.map Side.id = found.map Prod.fst := by
  rcases found with _ | ⟨id, operation⟩
  · cases h
    rfl
  · obtain ⟨side, hside, rfl⟩ := map_eq_ok.mp h
    exact congrArg some (id_of_sideOf hside)

theorem id_of_channelOf {key : String} {item : ChannelItem} {channel : Channel}
    (h : channelOf document entities key item = .ok channel) (action : Action) :
    (channel.side action).map Side.id
      = (findOperation document (channelRef key) action).map Prod.fst := by
  obtain ⟨receive, hreceive, h⟩ := bind_eq_ok.mp h
  obtain ⟨send, hsend, h⟩ := bind_eq_ok.mp h
  cases h
  cases action with
  | receive => exact id_of_sideOf? hreceive
  | send => exact id_of_sideOf? hsend

/-- A channel has the first operation of each direction that refers to it. -/
theorem sideId?_eq (hspace : Space.ofDocument spaceName entities document = .ok space)
    (position : Nat) (action : Action) :
    space.sideId? position action = (document.channels[position]?).bind fun channel =>
      (findOperation document (channelRef channel.1) action).map Prod.fst := by
  obtain ⟨channels, hchannels, h⟩ := bind_eq_ok.mp hspace
  cases h
  have hchannels := List.forall₂_iff_get.mp (forall₂_of_mapM hchannels)
  obtain ⟨hlength, hget⟩ := hchannels
  rw [Space.sideId?]
  by_cases h : position < document.channels.length
  · have h' : position < channels.length := hlength ▸ h
    rw [List.getElem?_eq_getElem h, List.getElem?_eq_getElem h']
    exact id_of_channelOf (hget position h h') action
  · rw [List.getElem?_eq_none (Nat.le_of_not_lt h),
      List.getElem?_eq_none (hlength ▸ Nat.le_of_not_lt h)]
    rfl

/-! ### The operations that are taken -/

theorem findOperation_eq_some {channelRef : String} {action : Action} {entry : String × Operation}
    (h : findOperation document channelRef action = some entry) :
    entry ∈ document.operations ∧ entry.2.action = action ∧ entry.2.channelRef = channelRef := by
  have hfound := List.find?_some h
  simp only [Bool.and_eq_true, beq_iff_eq] at hfound
  exact ⟨List.mem_of_find?_eq_some h, hfound⟩

theorem eq_of_fst_eq {operations : List (String × Operation)}
    (hkeys : (Keyed.keys operations).Nodup) {a b : String × Operation} (ha : a ∈ operations)
    (hb : b ∈ operations) (h : a.1 = b.1) : a = b :=
  List.inj_on_of_nodup_map hkeys ha hb h

/-- An operation is taken up if it refers to a channel and is the first in its direction that does. -/
theorem takenUp_iff (hchannels : (Keyed.keys document.channels).Nodup)
    (hoperations : (Keyed.keys document.operations).Nodup)
    (hspace : Space.ofDocument spaceName entities document = .ok space)
    {entry : String × Operation} (hentry : entry ∈ document.operations) :
    TakenUp document space entry ↔
      (∃ key ∈ Keyed.keys document.channels, entry.2.channelRef = channelRef key) ∧
        findOperation document entry.2.channelRef entry.2.action = some entry := by
  constructor
  · rintro ⟨position, href, hsides⟩
    obtain ⟨channel, hchannel, href⟩ := Option.map_eq_some_iff.mp href
    refine ⟨⟨channel.1, List.mem_map_of_mem (List.mem_of_getElem? hchannel), href.symm⟩, ?_⟩
    have hside := (hsides position entry.2.action).mpr ⟨rfl, rfl⟩
    rw [sideId?_eq hspace, hchannel, Option.bind_some, href] at hside
    obtain ⟨found, hfound, hid⟩ := Option.map_eq_some_iff.mp hside
    rw [hfound, eq_of_fst_eq hoperations (findOperation_eq_some hfound).1 hentry hid]
  · rintro ⟨⟨key, hkey, href⟩, hfirst⟩
    obtain ⟨⟨key, item⟩, hchannel, rfl⟩ := List.mem_map.mp hkey
    obtain ⟨position, hposition⟩ := List.mem_iff_getElem?.mp hchannel
    refine ⟨position, by rw [hposition, Option.map_some, href], fun other action => ?_⟩
    rw [sideId?_eq hspace]
    constructor
    · intro hside
      obtain ⟨channel, hother, hside⟩ := Option.bind_eq_some_iff.mp hside
      obtain ⟨found, hfound, hid⟩ := Option.map_eq_some_iff.mp hside
      obtain ⟨hmem, haction, href'⟩ := findOperation_eq_some hfound
      obtain rfl := eq_of_fst_eq hoperations hmem hentry hid
      have hkey : channel.1 = key := channelRef_inj (href'.symm.trans href)
      have hsame : (Keyed.keys document.channels)[position]? = (Keyed.keys document.channels)[other]? := by
        rw [Keyed.keys, List.getElem?_map, List.getElem?_map, hposition, hother, Option.map_some,
          Option.map_some, hkey]
      have hlength : position < (Keyed.keys document.channels).length := by
        rw [Keyed.keys, List.length_map]
        exact (List.getElem?_eq_some_iff.mp hposition).1
      exact ⟨((List.getElem?_inj hlength hchannels).mp hsame).symm, haction.symm⟩
    · rintro ⟨rfl, rfl⟩
      rw [hposition, Option.bind_some, ← href, hfirst]
      rfl

/-- Each operation is the first in its direction that refers to its channel if no two are in one
direction on one channel. -/
theorem findOperation_eq_some_iff_nodup (hoperations : (Keyed.keys document.operations).Nodup) :
    (∀ entry ∈ document.operations,
        findOperation document entry.2.channelRef entry.2.action = some entry) ↔
      (document.operations.map fun entry => (entry.2.action, entry.2.channelRef)).Nodup := by
  rw [List.nodup_map_iff_inj_on (List.Nodup.of_map _ hoperations)]
  constructor
  · intro h first hfirst second hsecond hsame
    obtain ⟨haction, href⟩ := Prod.mk.inj hsame
    have hfound := h second hsecond
    rw [← haction, ← href, h first hfirst] at hfound
    exact Option.some.inj hfound
  · intro h entry hentry
    have hsome : (findOperation document entry.2.channelRef entry.2.action).isSome = true := by
      rw [findOperation, List.find?_isSome]
      exact ⟨entry, hentry, by simp⟩
    obtain ⟨found, hfound⟩ := Option.isSome_iff_exists.mp hsome
    obtain ⟨hmem, haction, href⟩ := findOperation_eq_some hfound
    rw [hfound, h found hmem entry hentry (by rw [haction, href])]

/-- A document whose channels can be collected keeps all its operations exactly if each of them
refers to a channel and no two are in one direction on one channel. In any case a channel has the
first operation of each direction that refers to it. -/
theorem ofDocument_takesUp_iff {tree : Json} (hdocument : Document.ofJson? tree = some document)
    (hspace : Space.ofDocument spaceName entities document = .ok space) :
    (∀ position action,
      space.sideId? position action = (document.channels[position]?).bind fun channel =>
        (document.operations.find? fun entry => entry.2.action == action
          && entry.2.channelRef == channelRef channel.1).map Prod.fst) ∧
    ((∀ entry ∈ document.operations, TakenUp document space entry) ↔
      (∀ entry ∈ document.operations,
        ∃ key ∈ Keyed.keys document.channels, entry.2.channelRef = channelRef key) ∧
      (document.operations.map fun entry => (entry.2.action, entry.2.channelRef)).Nodup) := by
  obtain ⟨hchannels, hoperations⟩ := Document.nodup_keys hdocument
  refine ⟨sideId?_eq hspace, ?_⟩
  rw [← findOperation_eq_some_iff_nodup hoperations, ← forall₂_and]
  exact forall₂_congr fun entry hentry => takenUp_iff hchannels hoperations hspace hentry

/-- A document with the given channels and operations. -/
def documentTree (channels operations : List (String × Json)) : Json :=
  .object [("asyncapi", .string "3.0.0"), ("info", .object [("title", .string "Demo")]),
    ("channels", .object channels), ("operations", .object operations)]

/-- An operation without messages. -/
def operationTree (action ref : String) : Json :=
  .object [("action", .string action), ("channel", .object [("$ref", .string ref)])]

/-- Two channels, on one of which there is an operation in each direction. -/
def lobby : Json :=
  documentTree [("room/join", .object []), ("tick", .object [])]
    [("join", operationTree "receive" "#/channels/room~1join"),
      ("joined", operationTree "send" "#/channels/room~1join"),
      ("ticked", operationTree "send" "#/channels/tick")]

theorem ofDocument_takesUp_lobby : ∃ document space,
    Document.ofJson? lobby = some document ∧
      Space.ofDocument "v1" [] document = .ok space ∧
      ∀ entry ∈ document.operations, TakenUp document space entry := by
  refine ⟨_, _, rfl, rfl, ?_⟩
  exact (@ofDocument_takesUp_iff _ [] "v1" _ lobby rfl rfl).2.mpr ⟨by decide, by decide⟩

/-- An operation on a channel that is not there. -/
def strayed : Json :=
  documentTree [("tick", .object [])] [("ticked", operationTree "send" "#/channels/tock")]

/-- The reference of the operation leads nowhere, but the channels are collected, and none of them has
the operation. -/
theorem ofDocument_strayed : ∃ document space entry,
    Document.ofJson? strayed = some document ∧
      Space.ofDocument "v1" [] document = .ok space ∧ entry ∈ document.operations ∧
      document.resolve (.object [("$ref", .string entry.2.channelRef)])
        = .error (.targetNotFound "#/channels/tock") ∧
      (∀ position action, space.sideId? position action ≠ some entry.1) := by
  refine ⟨_, _, ("ticked", _), rfl, rfl, List.mem_singleton.mpr rfl, rfl, ?_⟩
  rintro (_ | position) (_ | _) <;> simp [Space.sideId?, Channel.side]

end Socket

end TypedClients
