import TypedClients.Node.Printer
import TypedClients.Socket.Channel

/-!
# The members of a client

A channel gives its client at most two members: a call for the direction to the server, which
waits for the acknowledgement if the channel has one, and a listener for the other direction.

The three kinds of members are told apart by how their names begin: a call that waits has the plain
name of the event, one that does not has `emit` in front, and a listener has `on`. So a channel that
is answered has a call and a listener with different names, and clashes are between channels, or
with what every client has.

Events are written as literals (`Script.quote`). In the comment of a member the event stands as it
is; it has no slash, so it does not end the comment.
-/

namespace TypedClients.Socket

/-- A member of a client, and the name it has there. -/
structure Member where
  name : String
  source : String
  deriving DecidableEq, Repr

/-- The module that the entities are imported as. -/
def schemasScope : String := "schemas"

/-- How members refer to entities. -/
def memberStyle : RefStyle := .qualified schemasScope

/-- The parameter of a call with a payload. -/
def parameterText : Option Node → String
  | some shape => "payload: " ++ shape.typeText memberStyle
  | none => ""

/-- The payload as a further argument of an emit. -/
def payloadArgument : Option Node → String
  | some _ => ", payload"
  | none => ""

/-- A call that waits for the acknowledgement. -/
def ackMember (event : String) (payload response : Option Node) : Member :=
  let name := Name.sanitize (Name.camel event)
  let emit := "      this.socket.emit(" ++ Script.quote event ++ payloadArgument payload
  let source := match response with
    | some shape =>
      "  /** Emits `" ++ event ++ "` and resolves with the validated acknowledgement. */\n"
        ++ "  public " ++ name ++ "(" ++ parameterText payload ++ "): Promise<"
        ++ shape.typeText memberStyle ++ "> \x7b\n"
        ++ "    return new Promise((resolve, reject) => \x7b\n"
        ++ emit ++ ", (res: unknown) => \x7b\n"
        ++ "        const result = " ++ shape.validator memberStyle ++ ".safeParse(res);\n"
        ++ "        if (!result.success) \x7b\n"
        ++ "          reject(result.error);\n"
        ++ "          return;\n"
        ++ "        \x7d\n"
        ++ "        resolve(result.data);\n"
        ++ "      \x7d);\n"
        ++ "    \x7d);\n"
        ++ "  \x7d"
    | none =>
      "  /** Emits `" ++ event ++ "` and resolves once it is acknowledged. */\n"
        ++ "  public " ++ name ++ "(" ++ parameterText payload ++ "): Promise<void> \x7b\n"
        ++ "    return new Promise((resolve) => \x7b\n"
        ++ emit ++ ", () => resolve());\n"
        ++ "    \x7d);\n"
        ++ "  \x7d"
  ⟨name, source⟩

/-- A call that does not wait. -/
def emitMember (event : String) (payload : Option Node) : Member :=
  let name := "emit" ++ Name.sanitize (Name.pascal event)
  let source :=
    "  /** client → server `" ++ event ++ "` */\n"
      ++ "  public " ++ name ++ "(" ++ parameterText payload ++ "): void \x7b\n"
      ++ "    this.socket.emit(" ++ Script.quote event ++ payloadArgument payload ++ ");\n"
      ++ "  \x7d"
  ⟨name, source⟩

/-- A listener, which validates the payload if there is one. -/
def listenerMember (event : String) (payload : Option Node) : Member :=
  let name := "on" ++ Name.sanitize (Name.pascal event)
  let comment := "  /** server → client `" ++ event ++ "` */\n"
  let source := match payload with
    | some shape =>
      comment
        ++ "  public " ++ name ++ "(handler: (payload: " ++ shape.typeText memberStyle
        ++ ") => void): void \x7b\n"
        ++ "    this.socket.on(" ++ Script.quote event ++ ", (raw: unknown) => \x7b\n"
        ++ "      const result = " ++ shape.validator memberStyle ++ ".safeParse(raw);\n"
        ++ "      if (!result.success) \x7b\n"
        ++ "        console.error(" ++ Script.quote ("Invalid payload for " ++ event)
        ++ ", result.error);\n"
        ++ "        return;\n"
        ++ "      \x7d\n"
        ++ "      handler(result.data);\n"
        ++ "    \x7d);\n"
        ++ "  \x7d"
    | none =>
      comment
        ++ "  public " ++ name ++ "(handler: () => void): void \x7b\n"
        ++ "    this.socket.on(" ++ Script.quote event ++ ", () => handler());\n"
        ++ "  \x7d"
  ⟨name, source⟩

/-- The member for the direction to the server. -/
def callMember (channel : Channel) (receive : Side) : Member :=
  match channel.ack, channel.send with
  | true, some send => ackMember channel.event receive.payload send.payload
  | _, _ => emitMember channel.event receive.payload

/-- The members of a channel: its call, then its listener. -/
def channelMembers (channel : Channel) : List Member :=
  (channel.receive.map (callMember channel)).toList
    ++ (channel.send.map fun send => listenerMember channel.event send.payload).toList

end TypedClients.Socket
