import TypedClients.AsyncApi.Document
import TypedClients.Name.Derived
import TypedClients.Node.Basic

/-!
# Channels

A channel is an event that a socket client sends, receives or both. Every channel of an AsyncAPI
document becomes one. Its two sides are the first operations that refer to it in either direction;
the payload of a side is that of the operation's last message, or else of the channel's last.

## How a side is found

The operations of a document are looked through in their order, once for each direction, for the
reference that the channel's key gives (`AsyncApi.channelRef`); the first one counts and the others
have no part in the channel. An operation that refers to no channel of the document has no part in
anything.

## The shape of a payload

A payload is read from its tree and not as a schema: the properties of an object are not looked at,
since an object with a title is the entity of that name. Options of a choice may be choices again,
and may be references, so a choice can come back to itself. The bound of `payloadShape` is one more
than the number of values in the document; that it is enough where the choices end is proved of it.

## What is not here

Headers, replies, the parameters of addresses, and messages other than the last. Whether a channel
is answered is said by the operation that sends (`Operation.isAck`).
-/

namespace TypedClients.Socket

/-- One direction of a channel. -/
structure Side where
  /-- The key of the operation in the document. -/
  id : String
  /-- The shape of the payload, if the message carries one. -/
  payload : Option Node

/-- A channel. -/
structure Channel where
  address : String
  /-- The name of the event on the wire. -/
  event : String
  /-- From the client to the server. -/
  receive : Option Side
  /-- From the server to the client. -/
  send : Option Side
  /-- Whether the receiving side is answered through the acknowledgement of the emit. -/
  ack : Bool

/-- The channels of one document. -/
structure Space where
  name : String
  title : String
  channels : List Channel

/-- The shape of a payload that is not a choice. An object with a title is the entity of that
name. -/
def plainPayload (entities : List String) (payload : Json) : Except ResolveError Node :=
  match (payload.member? "type").bind Json.string? with
  | some "object" =>
    match (payload.member? "title").bind Json.string? with
    | some title =>
      if Name.entity title ∈ entities then .ok (.ref (Name.entity title))
      else .error (.unknownEntity title)
    | none => .ok .freeForm
  | some "string" => .ok (.prim .string)
  | some "number" => .ok (.prim .number)
  | some "integer" => .ok (.prim .number)
  | some "boolean" => .ok (.prim .boolean)
  | some "null" => .ok (.prim .null)
  | _ => .ok (.prim .unknown)

/-- The shape of a payload. A choice is the union of its options, and unknown if it has none. The
bound counts the choices that may stand inside each other; a choice that never ends has no
shape. -/
def payloadShape (document : AsyncApi.Document) (entities : List String) :
    (bound : Nat) → Json → Except ResolveError Node
  | 0, _ => .error (.circular "oneOf")
  | bound + 1, payload => do
    let payload ← document.resolve payload
    match (payload.member? "oneOf").bind Json.array? with
    | some options => do
      let members ← options.mapM (payloadShape document entities bound)
      .ok (if members.isEmpty then .prim .unknown else .union members)
    | none => plainPayload entities payload

/-- The side that an operation gives a channel. -/
def sideOf (document : AsyncApi.Document) (entities : List String)
    (channel : AsyncApi.ChannelItem) (id : String) (operation : AsyncApi.Operation) :
    Except ResolveError Side :=
  match operation.messages.getLast?.or (channel.messages.map Prod.snd).getLast? with
  | none => .ok ⟨id, none⟩
  | some message => do
    let message ← document.resolve message
    match message.member? "payload" with
    | none => .ok ⟨id, none⟩
    | some payload => do
      let shape ← payloadShape document entities (document.tree.size + 1) payload
      .ok ⟨id, some shape⟩

/-- The first operation of a direction on a channel. -/
def findOperation (document : AsyncApi.Document) (channelRef : String)
    (action : AsyncApi.Action) : Option (String × AsyncApi.Operation) :=
  document.operations.find? fun (_, operation) =>
    operation.action == action && operation.channelRef == channelRef

/-- A side that may be absent. -/
def sideOf? (document : AsyncApi.Document) (entities : List String)
    (channel : AsyncApi.ChannelItem) :
    Option (String × AsyncApi.Operation) → Except ResolveError (Option Side)
  | none => .ok none
  | some (id, operation) => (sideOf document entities channel id operation).map some

/-- The channel under a key of the document. -/
def channelOf (document : AsyncApi.Document) (entities : List String) (key : String)
    (channel : AsyncApi.ChannelItem) : Except ResolveError Channel := do
  let address := channel.address.getD key
  let receiving := findOperation document (AsyncApi.channelRef key) .receive
  let sending := findOperation document (AsyncApi.channelRef key) .send
  let receive ← sideOf? document entities channel receiving
  let send ← sideOf? document entities channel sending
  .ok
    { address := address
      event := Name.event address
      receive := receive
      send := send
      ack := sending.any fun (_, operation) => operation.isAck }

/-- The channels of a document, in order. -/
def Space.ofDocument (name : String) (entities : List String) (document : AsyncApi.Document) :
    Except ResolveError Space := do
  let channels ← document.channels.mapM fun (key, channel) =>
    channelOf document entities key channel
  .ok ⟨name, document.title, channels⟩

end TypedClients.Socket
