import TypedClients.Hook.Plan
import TypedClients.Script.Marker
import TypedClients.Socket.Member

/-!
# Socket clients

The module of a namespace: a class with the members that every client has and those of its
channels, and a function that makes one. A member whose name is taken is an error.

## What a client declares

The members that every client has are part of the text (`clientText`), and their names are in a list
of their own (`lifecycle`), which the names of the channels' members are compared with. The list and
the text are two things: that every member of the text is in the list is not built in.

Names are taken in the order of the channels, so the error names the second of two members that
clash. There is one class for each namespace, and its name is legal whatever the namespace is
called; that two namespaces have different classes is not asked, as each stands in a module of its
own.
-/

namespace TypedClients.Socket

/-- The members that every client declares. -/
def lifecycle : List String :=
  ["socket", "connect", "disconnect", "isConnected", "onConnect", "onDisconnect", "onAny",
   "onError"]

/-- Adds the members of a channel to those before it, whose names are taken. -/
def addMembers (className address : String) :
    (taken : List String) → List Member → Except DuplicateDeclaration (List String)
  | taken, [] => .ok taken
  | taken, member :: rest =>
    if member.name ∈ taken then
      .error ⟨className ++ "." ++ member.name ++ " (channel `" ++ address ++ "`)"⟩
    else addMembers className address (member.name :: taken) rest

/-- The members of all channels, if their names differ from each other and from those that every
client has. -/
def members (space : Space) : Except DuplicateDeclaration (List Member) := do
  let className := Name.clientClass space.name
  let _ ← space.channels.foldlM
    (fun taken channel => addMembers className channel.address taken (channelMembers channel))
    lifecycle
  .ok (space.channels.flatMap channelMembers)

/-- The source of a client with the given members. -/
def clientText (space : Space) (schemasImport : String) (members : List Member) : String :=
  let className := Name.clientClass space.name
  let title := Script.escapeComment space.title
  let titleNote := if title.isEmpty then "" else " (" ++ title ++ ")"
  Script.generatedMarker ++ "\n"
    ++ "import \x7b io, Socket \x7d from \"socket.io-client\";\n"
    ++ "import \x7b z \x7d from \"zod\";\n"
    ++ "import * as schemas from \"" ++ schemasImport ++ "\";\n\n"
    ++ "/** Client for the `" ++ Script.escapeComment space.name ++ "` socket namespace"
    ++ titleNote ++ ". */\n"
    ++ "export class " ++ className ++ " \x7b\n"
    ++ "  private socket: Socket;\n\n"
    ++ "  constructor(url: string, options: Parameters<typeof io>[1] = \x7b\x7d) \x7b\n"
    ++ "    this.socket = io(url, options);\n"
    ++ "  \x7d\n\n"
    ++ "  public connect(): void \x7b\n"
    ++ "    this.socket.connect();\n"
    ++ "  \x7d\n\n"
    ++ "  public disconnect(): void \x7b\n"
    ++ "    this.socket.disconnect();\n"
    ++ "  \x7d\n\n"
    ++ "  public isConnected(): boolean \x7b\n"
    ++ "    return this.socket.connected;\n"
    ++ "  \x7d\n\n"
    ++ "  public onConnect(handler: () => void): void \x7b\n"
    ++ "    this.socket.on(\"connect\", handler);\n"
    ++ "  \x7d\n\n"
    ++ "  public onDisconnect(handler: () => void): void \x7b\n"
    ++ "    this.socket.on(\"disconnect\", handler);\n"
    ++ "  \x7d\n\n"
    ++ "  public onAny(handler: (event: string, ...args: unknown[]) => void): void \x7b\n"
    ++ "    this.socket.onAny(handler);\n"
    ++ "  \x7d\n\n"
    ++ "  public onError(handler: (err: Error) => void): void \x7b\n"
    ++ "    this.socket.on(\"connect_error\", handler);\n"
    ++ "  \x7d\n"
    ++ "".intercalate (members.map fun m => "\n" ++ m.source ++ "\n")
    ++ "\x7d\n\n"
    ++ "export function createSocketClient(url: string, options: Parameters<typeof io>[1] = "
    ++ "\x7b\x7d): " ++ className ++ " \x7b\n"
    ++ "  return new " ++ className ++ "(url, options);\n"
    ++ "\x7d\n"

/-- The module of a namespace. -/
def clientModule (space : Space) (schemasImport : String) :
    Except DuplicateDeclaration String := do
  let members ← members space
  .ok (clientText space schemasImport members)

end TypedClients.Socket
