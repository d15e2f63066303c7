import TypedClients.Json.Pointer
import TypedClients.OpenApi.Reader

/-!
# AsyncAPI documents

The parts of an AsyncAPI document that socket clients are made from. The tree of the document is
kept beside them, since messages may refer to any place in it.

`resolve` follows such references. It counts down a bound of one for each reference in the tree
and two more; the references on the way are distinct, so the bound is never met.

## What is kept

Of a channel its address and its messages are kept, of an operation its direction, the text of the
reference to its channel, its messages and its bindings. A message stays a tree: it may be a
reference, and its payload is looked for only when a channel is made from it. Channels and
operations are maps, in which the last value under a key counts, in the place of the first one; the
whole tree is read with its repeated keys resolved in that way (`Json.unique`).

## What is not here

* Servers, components as such, and everything else that only references can lead to. It is in the
  tree.
* Whether the reference of an operation leads to a channel. It is a text here; a channel looks for
  the operations that hold its own (`channelRef`).
* References to other documents. A reference that is no pointer into this one is an error when it is
  followed, not when the document is read.
-/

namespace TypedClients.AsyncApi

/-- The direction of an operation, as the server sees it. -/
inductive Action where
  /-- From the client to the server. -/
  | receive
  /-- From the server to the client. -/
  | send
  deriving DecidableEq, Repr

/-- How an action is written. -/
def Action.word : Action → String
  | .receive => "receive"
  | .send => "send"

/-- The action that a name means. -/
def Action.ofWord? (word : String) : Option Action :=
  [Action.receive, .send].find? fun a => a.word == word

/-- A channel: its address, if it is not its key, and its messages. -/
structure ChannelItem where
  address : Option String
  messages : List (String × Json)

/-- An operation: the channel it refers to, its messages and its bindings. -/
structure Operation where
  action : Action
  channelRef : String
  messages : List Json
  bindings : Option Json

/-- Whether the operation is answered through the acknowledgement of an emit. -/
def Operation.isAck (operation : Operation) : Bool :=
  ((operation.bindings.bind fun b => b.member? "x-socketio").bind fun b =>
    (b.member? "ack").bind Json.bool?).getD false

/-- A document, with the tree it was read from. -/
structure Document where
  version : String
  title : String
  channels : List (String × ChannelItem)
  operations : List (String × Operation)
  tree : Json

/-- The reference by which operations name the channel under `key`. -/
def channelRef (key : String) : String :=
  "#/channels/" ++ Json.escapeStep key

/-! ### From JSON values -/

/-- A channel from a JSON value. -/
def ChannelItem.ofJson? (value : Json) : Option ChannelItem := do
  let record ← value.record? [⟨"address", false⟩, ⟨"messages", true⟩]
  let address ← Json.optional? "address" Json.string? record
  let messages ← Json.defaulted? "messages" [] Json.object? record
  some ⟨address, messages⟩

/-- The path of a reference that an operation has to have. -/
def refOfJson? (value : Json) : Option String := do
  let record ← value.record? [⟨"$ref", false⟩]
  Json.required? "$ref" Json.string? record

/-- An operation from a JSON value. -/
def Operation.ofJson? (value : Json) : Option Operation := do
  let record ← value.record?
    [⟨"action", false⟩, ⟨"channel", false⟩, ⟨"messages", true⟩, ⟨"bindings", false⟩]
  let action ← Json.required? "action" (fun v => v.unitName?.bind Action.ofWord?) record
  let channelRef ← Json.required? "channel" refOfJson? record
  let messages ← Json.defaulted? "messages" [] Json.array? record
  let bindings ← Json.optional? "bindings" some record
  some ⟨action, channelRef, messages, bindings⟩

/-- The title that an `info` value gives, empty if it gives none. -/
def titleOfJson? (value : Json) : Option String := do
  let record ← value.record? [⟨"title", true⟩]
  Json.defaulted? "title" "" Json.string? record

/-- A document from a JSON tree without repeated keys. -/
def Document.ofJson? (tree : Json) : Option Document := do
  let record ← tree.record?
    [⟨"asyncapi", false⟩, ⟨"info", false⟩, ⟨"channels", true⟩, ⟨"operations", true⟩]
  let version ← Json.required? "asyncapi" Json.string? record
  let title ← Json.required? "info" titleOfJson? record
  let channels ← Json.defaulted? "channels" [] (Json.map? ChannelItem.ofJson?) record
  let operations ← Json.defaulted? "operations" [] (Json.map? Operation.ofJson?) record
  some ⟨version, title, channels, operations, tree⟩

/-- Reads a document of a supported version. -/
def Document.parse (text : String) : Except ParseError Document := do
  let tree ← (Json.read text).mapError .json
  match Document.ofJson? tree.unique with
  | none => .error (.json .mismatch)
  | some document =>
    if isSupportedVersion document.version then .ok document
    else .error (.asyncApiVersion document.version)

/-! ### References -/

/-- The reference that a node is: a string under `$ref`. -/
def refPath? (node : Json) : Option String :=
  (node.member? "$ref").bind Json.string?

/-- Follows a chain of references, with those that have been met. -/
def resolveFrom (tree : Json) : (bound : Nat) → (seen : List String) → Json →
    Except ResolveError Json
  | 0, _, _ => .error (.circular "")
  | bound + 1, seen, node =>
    match refPath? node with
    | none => .ok node
    | some path =>
      if path ∈ seen then .error (.circular path)
      else
        match path.toList with
        | '#' :: pointer =>
          match tree.pointer? pointer with
          | some target => resolveFrom tree bound (path :: seen) target
          | none => .error (.targetNotFound path)
        | _ => .error (.unsupportedRef path)

/-- The value at the end of the chain of references that `node` begins. -/
def Document.resolve (document : Document) (node : Json) : Except ResolveError Json :=
  resolveFrom document.tree (document.tree.refPaths.length + 2) [] node

end TypedClients.AsyncApi
