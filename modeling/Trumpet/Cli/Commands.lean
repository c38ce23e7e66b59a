import Trumpet.Cli.Request
import Trumpet.Server.Http

/-! The commands of the command line: what each asks the daemon over the socket, and what
it prints of the answer. -/

namespace Trumpet

open Nexus

namespace Cli

/-- What the command line goes by, besides what it shares with the daemon: its clock, the
pretty form of JSON, an identifier in a column, and the text for bytes that cannot be read. -/
structure Setup extends Http.Setup where
  now : DateTime
  pretty : Json → String
  idColumn : String → String
  misread : List UInt8 → String

/-! ## Commands -/

inductive AgentCmd where
  | register (name : String) (tags : List String) (json : Bool)
  | list (json : Bool)
  | get (id : String) (json : Bool)
  | deregister (id : String)
  | heartbeat (id : String)

inductive ChatCmd where
  | new (name : Option String) (participants : List String)
  | list (json : Bool)
  | send (conversationId : String) (sender : String) (content : String)
  | history (conversationId : String) (json : Bool)

inductive ToolCmd where
  | list (json : Bool)
  | invoke (name : String) (input : String)

inductive TaskCmd where
  | submit (message : String) (contextId assignee : Option String) (deadlineMs : Option UInt64)
    (json : Bool)
  | list (state assignee contextId : Option String) (json : Bool)
  | get (id : String) (json : Bool)
  | cancel (id : String) (reason : Option String)

/-! ## What is printed -/

def pad (width : Nat) (s : String) : String :=
  s ++ String.ofList (List.replicate (width - s.length) ' ')

def twoDigits (n : Nat) : String := if n < 10 then "0" ++ toString n else toString n

/-- `%H:%M:%S` -/
def clock (t : DateTime) : String :=
  let seconds := (t / 10 ^ 9 % 86400).toNat
  twoDigits (seconds / 3600) ++ ":" ++ twoDigits (seconds / 60 % 60) ++ ":" ++
    twoDigits (seconds % 60)

def statusName : AgentStatus → String
  | .connected => "Connected"
  | .disconnected => "Disconnected"

section
variable (cli : Setup)

def printJsonOr (value : Json) (jsonFlag : Bool) (fallback : List String) : List String :=
  if jsonFlag then [cli.write value] else fallback

def agentRow (a : AgentInfo) : String :=
  pad 38 a.id.toString ++ "  " ++ pad 24 a.name ++ "  " ++
    pad 12 (statusName a.status).toLower ++ "  " ++
    ((a.capabilities.map fun c => ",".intercalate c.skillTags).getD "")

def agentSummary (a : AgentInfo) : List String :=
  ["id:     " ++ a.id.toString, "name:   " ++ a.name, "status: " ++ statusName a.status] ++
    (a.capabilities.map fun c => "tags:   " ++ ", ".intercalate c.skillTags).toList

def AgentCmd.print : AgentCmd → Answer → Except Error (List String)
  | register _ _ json, .agent a =>
    .ok (printJsonOr cli (a.toJson cli.txt) json
      ["registered agent " ++ a.name ++ " (" ++ a.id.toString ++ ")"])
  | list json, .agents agents =>
    .ok (printJsonOr cli (.array (agents.map (AgentInfo.toJson cli.txt))) json
      ((pad 38 "ID" ++ "  " ++ pad 24 "NAME" ++ "  " ++ pad 12 "STATUS" ++ "  TAGS") ::
        agents.map agentRow))
  | get id json, .agents agents =>
    match agents.find? fun a => a.id.toString = id with
    | none => .error (.agentNotFound id)
    | some a => .ok (printJsonOr cli (a.toJson cli.txt) json (agentSummary a))
  | deregister id, _ => .ok ["deregistered agent " ++ id]
  | heartbeat id, _ => .ok ["heartbeat sent for agent " ++ id]
  | _, _ => .ok []

def conversationRow (c : Conversation) : String :=
  cli.idColumn c.id.toString ++ "  " ++ pad 24 (c.name.getD "-") ++ "  " ++
    toString c.participants.items.length

def ChatCmd.print : ChatCmd → Answer → Except Error (List String)
  | new _ _, .conversation c => .ok ["created conversation " ++ c.id.toString]
  | list json, .conversations convs =>
    .ok (printJsonOr cli (.array (convs.map (Conversation.toJson cli.txt))) json
      ((pad 38 "ID" ++ "  " ++ pad 24 "NAME" ++ "  PARTICIPANTS") ::
        convs.map (conversationRow cli)))
  | send _ _ _, .message m => .ok ["sent message " ++ m.id.toString]
  | history _ json, .messages messages =>
    .ok (printJsonOr cli (.array (messages.map (ChatMessage.toJson cli.txt))) json
      (messages.map fun m =>
        "[" ++ clock m.timestamp ++ "] " ++ m.sender.toString ++ ": " ++ m.content))
  | _, _ => .ok []

def ToolCmd.print : ToolCmd → Answer → Except Error (List String)
  | list json, .tools tools =>
    .ok (printJsonOr cli (.array (tools.map ToolInfo.toJson)) json
      ((pad 32 "NAME" ++ "  DESCRIPTION") ::
        tools.map fun t => pad 32 t.name ++ "  " ++ t.description))
  | invoke _ _, .invoked result => .ok [cli.pretty (result.toJson cli.txt).byName]
  | _, _ => .ok []

/-- The state is written without regard to its column. -/
def taskRow (t : Task) : String :=
  cli.idColumn t.id.toString ++ "  " ++ t.status.state.name ++ "  " ++
    (t.assignee.map AgentId.toString).getD ""

def taskSummary (t : Task) : List String :=
  ["id:       " ++ t.id.toString, "state:    " ++ t.status.state.name] ++
    (t.assignee.map fun a => "assignee: " ++ a.toString).toList ++
    ["context:  " ++ t.contextId.toString]

def TaskCmd.print : TaskCmd → Answer → Except Error (List String)
  | submit _ _ _ _ json, .task t =>
    .ok (printJsonOr cli (t.toJson cli.txt) json ["submitted task " ++ t.id.toString])
  | list _ _ _ json, .tasks tasks =>
    .ok (printJsonOr cli (.array (tasks.map (Task.toJson cli.txt))) json
      ((pad 38 "ID" ++ "  " ++ pad 14 "STATE" ++ "  ASSIGNEE") :: tasks.map (taskRow cli)))
  | get _ json, .task t => .ok (printJsonOr cli (t.toJson cli.txt) json (taskSummary t))
  | cancel id _, _ => .ok ["canceled task " ++ id]
  | _, _ => .ok []

end

/-! ## What is asked -/

/-- A GET, a POST with a JSON body, or one with `{}`. -/
inductive Ask where
  | get (path : String)
  | postJson (path : String) (body : Json)
  | postNothing (path : String)

def getHeader (path : String) : String :=
  "GET " ++ path ++ " HTTP/1.1\r\nHost: localhost\r\nConnection: close\r\n\r\n"

def postHeader (path : String) (length : Nat) : String :=
  "POST " ++ path ++ " HTTP/1.1\r\nHost: localhost\r\nContent-Type: application/json\r\n" ++
    "Content-Length: " ++ toString length ++ "\r\nConnection: close\r\n\r\n"

def postBytes (path : String) (body : List UInt8) : List UInt8 :=
  Utf8.encode (postHeader path body.length) ++ body

def Ask.bytes (cli : Setup) : Ask → List UInt8
  | get path => Utf8.encode (getHeader path)
  | postJson path body => postBytes path (Utf8.encode (cli.write body))
  | postNothing path => postBytes path [123, 125]

/-- A request, and what becomes of the body of a good response. -/
structure Plan where
  ask : Ask
  finish : List UInt8 → Except Error (List String)

section
variable (cli : Setup)

def readAs {α : Type} (what : String) (read : Json → Option α) (bytes : List UInt8) :
    Except Error α :=
  match cli.fromSlice read bytes with
  | .ok a => .ok a
  | .error _ => .error (.internalUnexpected
      ("failed to parse " ++ what ++ " response: " ++ cli.misread bytes))

/-! The bodies are built by `json!`. -/

def tagged (tags : List String) : Option AgentCapabilities :=
  if tags = [] then none else some ⟨[], [], false, tags⟩

def registerBody (name : String) (tags : List String) : Json :=
  Json.byName (.object [("name", .string name),
    ("capabilities", .option AgentCapabilities.toJson (tagged tags))])

def deregisterBody (id : String) : Json := Json.byName (.object [("agent_id", .string id)])

def newBody (name : Option String) (participants : List String) : Json :=
  Json.byName (.object [("name", .option .string name), ("participants", .strings participants)])

def sendBody (sender content : String) : Json :=
  Json.byName (.object [("sender", .string sender), ("content", .string content)])

def invokeBody (inputValue : Json) : Json := Json.byName (.object [("input", inputValue)])

def submitBody (message : String) (contextId assignee : Option String)
    (deadlineMs : Option UInt64) : Json :=
  Json.byName (.object [("message", .string message), ("context_id", .option .string contextId),
    ("assignee", .option .string assignee),
    ("deadline_ms", .option (fun n => .number (.posInt n)) deadlineMs)])

def AgentCmd.plan (cmd : AgentCmd) : Plan :=
  match cmd with
  | register name tags _ =>
    ⟨.postJson "/agents/register" (registerBody name tags), fun bytes => do
      let info ← readAs cli "agent" (AgentInfo.ofJson cli.txt cli.parse cli.now) bytes
      cmd.print cli (.agent info)⟩
  | list _ | get _ _ =>
    ⟨.get "/agents", fun bytes => do
      let agents ←
        readAs cli "agents" (Json.listOf (AgentInfo.ofJson cli.txt cli.parse cli.now)) bytes
      cmd.print cli (.agents agents)⟩
  | deregister id =>
    ⟨.postJson "/agents/deregister" (deregisterBody id),
      fun _ => .ok ["deregistered agent " ++ id]⟩
  | heartbeat id =>
    ⟨.postNothing ("/agents/" ++ id ++ "/heartbeat"),
      fun _ => .ok ["heartbeat sent for agent " ++ id]⟩

def ChatCmd.plan (cmd : ChatCmd) : Plan :=
  match cmd with
  | new name participants =>
    ⟨.postJson "/conversations" (newBody name participants), fun bytes => do
      let conv ← readAs cli "conversation" (Conversation.ofJson cli.txt cli.parse) bytes
      cmd.print cli (.conversation conv)⟩
  | list _ =>
    ⟨.get "/conversations", fun bytes => do
      let convs ←
        readAs cli "conversations" (Json.listOf (Conversation.ofJson cli.txt cli.parse)) bytes
      cmd.print cli (.conversations convs)⟩
  | send conversationId sender content =>
    ⟨.postJson ("/conversations/" ++ conversationId ++ "/messages") (sendBody sender content),
      fun bytes => do
        let msg ← readAs cli "message" (ChatMessage.ofJson cli.txt cli.parse) bytes
        cmd.print cli (.message msg)⟩
  | history conversationId _ =>
    ⟨.get ("/conversations/" ++ conversationId ++ "/messages"), fun bytes => do
      let messages ←
        readAs cli "messages" (Json.listOf (ChatMessage.ofJson cli.txt cli.parse)) bytes
      cmd.print cli (.messages messages)⟩

/-- The input has to be JSON before anything is asked. -/
def ToolCmd.plan (cmd : ToolCmd) : Except Error Plan :=
  match cmd with
  | list _ =>
    .ok ⟨.get "/tools", fun bytes => do
      let tools ← readAs cli "tools" (Json.listOf (ToolInfo.ofJson cli.parse)) bytes
      cmd.print cli (.tools tools)⟩
  | invoke name input =>
    match cli.fromSlice Json.asValue (Utf8.encode input) with
    | .error _ => .error (.invalidInput
        ("--input is not valid JSON: " ++ cli.misread (Utf8.encode input)))
    | .ok inputValue =>
      .ok ⟨.postJson ("/tools/" ++ name ++ "/invoke") (invokeBody inputValue), fun bytes => do
        let result ← readAs cli "tool" Json.asValue bytes
        return [cli.pretty result]⟩

def TaskCmd.params (state assignee contextId : Option String) : List String :=
  (state.map fun s => "state=" ++ s).toList ++ (assignee.map fun a => "assignee=" ++ a).toList ++
    (contextId.map fun c => "context_id=" ++ c).toList

def TaskCmd.plan (cmd : TaskCmd) : Plan :=
  match cmd with
  | submit message contextId assignee deadlineMs _ =>
    ⟨.postJson "/tasks" (submitBody message contextId assignee deadlineMs), fun bytes => do
      let task ← readAs cli "task" (Task.ofJson cli.txt cli.parse) bytes
      cmd.print cli (.task task)⟩
  | list state assignee contextId _ =>
    let params := TaskCmd.params state assignee contextId
    ⟨.get (if params = [] then "/tasks" else "/tasks?" ++ "&".intercalate params), fun bytes => do
      let tasks ← readAs cli "tasks" (Json.listOf (Task.ofJson cli.txt cli.parse)) bytes
      cmd.print cli (.tasks tasks)⟩
  | get id _ =>
    ⟨.get ("/tasks/" ++ id), fun bytes => do
      let task ← readAs cli "task" (Task.ofJson cli.txt cli.parse) bytes
      cmd.print cli (.task task)⟩
  | cancel id _ =>
    ⟨.postNothing ("/tasks/" ++ id ++ "/cancel"), fun _ => .ok ["canceled task " ++ id]⟩

inductive Command where
  | agent (cmd : AgentCmd)
  | chat (cmd : ChatCmd)
  | tool (cmd : ToolCmd)
  | task (cmd : TaskCmd)

def Command.plan : Command → Except Error Plan
  | agent cmd => .ok (cmd.plan cli)
  | chat cmd => .ok (cmd.plan cli)
  | tool cmd => cmd.plan cli
  | task cmd => .ok (cmd.plan cli)

def Command.print : Command → Answer → Except Error (List String)
  | agent cmd => cmd.print cli
  | chat cmd => cmd.print cli
  | tool cmd => cmd.print cli
  | task cmd => cmd.print cli

/-- Anything but a 2xx status is an error. -/
def checkStatus (status : Nat) (body : List UInt8) : Except Error Unit :=
  if 200 ≤ status ∧ status < 300 then .ok ()
  else .error (.internalUnexpected
    ("daemon returned HTTP " ++ toString status ++ ": " ++ Utf8.decodeLossy body))

/-! ## Over the socket -/

/-- The server's side of a connection: the request read off its bytes, the response
written into bytes, and what anything else is answered. -/
structure Wire where
  read : List UInt8 → Option Http.Request
  write : Http.Response → List UInt8
  badRequest : List UInt8

def Wire.serve (wire : Wire) (setup : Http.Setup) (env : Env) (d : Draws) (s : AppState)
    (bytes : List UInt8) : Option (List UInt8 × AppState) :=
  match wire.read bytes with
  | none => some (wire.badRequest, s)
  | some request => (Http.serve setup env d s request).map fun o => (wire.write o.1, o.2)

def Plan.conclude (plan : Plan) (raw : List UInt8) : Except Error (List String) := do
  let (status, bytes) := Client.splitResponse raw
  checkStatus status bytes
  plan.finish bytes

/-- A command from its start to its last line. -/
def Command.run (wire : Wire) (env : Env) (d : Draws) (s : AppState) (cmd : Command) :
    Option (Except Error (List String) × AppState) :=
  match cmd.plan cli with
  | .error e => some (.error e, s)
  | .ok plan =>
    (wire.serve cli.toSetup env d s (plan.ask.bytes cli)).map fun o => (plan.conclude o.1, o.2)

end

end Cli

end Trumpet
