import Trumpet.Server.Routes

/-! The MCP server: its own tools, and the calls it hands to the tool registry. -/

namespace Trumpet

namespace TrumpetMcpServer

open Members Nexus

/-! ## Arguments -/

structure RegisterAgentArgs where
  name : String
  capabilities : Option AgentCapabilities

structure DeregisterAgentArgs where
  agentId : String

structure HeartbeatAgentArgs where
  agentId : String

structure CreateConversationArgs where
  name : Option String
  participants : List String

structure SendMessageArgs where
  conversationId : String
  senderAgentId : String
  content : String

structure GetMessagesArgs where
  conversationId : String

structure GetTaskArgs where
  taskId : String

structure ListTasksArgs where
  contextId : Option String
  state : Option String
  assignee : Option String

structure CancelTaskArgs where
  taskId : String
  reason : Option String

def optionalStr (name : String) (ms : List (String × Json)) : Option (Option String) :=
  fieldOr none (Json.nullable Json.asStr) name ms

def RegisterAgentArgs.read (ms : List (String × Json)) : Option RegisterAgentArgs := do
  let name ← field Json.asStr "name" ms
  let capabilities ← fieldOr none (Json.nullable AgentCapabilities.ofJson) "capabilities" ms
  return { name, capabilities }

def DeregisterAgentArgs.read (ms : List (String × Json)) : Option DeregisterAgentArgs :=
  (field Json.asStr "agent_id" ms).map .mk

def HeartbeatAgentArgs.read (ms : List (String × Json)) : Option HeartbeatAgentArgs :=
  (field Json.asStr "agent_id" ms).map .mk

def CreateConversationArgs.read (ms : List (String × Json)) : Option CreateConversationArgs := do
  let name ← optionalStr "name" ms
  let participants ← field (Json.listOf Json.asStr) "participants" ms
  return { name, participants }

def SendMessageArgs.read (ms : List (String × Json)) : Option SendMessageArgs := do
  let conversationId ← field Json.asStr "conversation_id" ms
  let senderAgentId ← field Json.asStr "sender_agent_id" ms
  let content ← field Json.asStr "content" ms
  return { conversationId, senderAgentId, content }

def GetMessagesArgs.read (ms : List (String × Json)) : Option GetMessagesArgs :=
  (field Json.asStr "conversation_id" ms).map .mk

def SubmitTaskArgs.read (ms : List (String × Json)) : Option SubmitTaskArgs := do
  let message ← field Json.asStr "message" ms
  let contextId ← optionalStr "context_id" ms
  let assignee ← optionalStr "assignee" ms
  let deadlineMs ← fieldOr none (Json.nullable Json.asU64) "deadline_ms" ms
  return { message, contextId, assignee, deadlineMs }

def GetTaskArgs.read (ms : List (String × Json)) : Option GetTaskArgs :=
  (field Json.asStr "task_id" ms).map .mk

def ListTasksArgs.read (ms : List (String × Json)) : Option ListTasksArgs := do
  let contextId ← optionalStr "context_id" ms
  let state ← optionalStr "state" ms
  let assignee ← optionalStr "assignee" ms
  return { contextId, state, assignee }

def CancelTaskArgs.read (ms : List (String × Json)) : Option CancelTaskArgs := do
  let taskId ← field Json.asStr "task_id" ms
  let reason ← optionalStr "reason" ms
  return { taskId, reason }

/-! ## Tools -/

structure CallToolRequest where
  name : String
  arguments : Option (List (String × Json))

/-- What the server is given besides the stores: the text forms, the parser of
identifiers, and the text for arguments that do not fit a tool. -/
structure Setup where
  txt : TextForms
  parse : UuidParser
  misfit : String → List (String × Json) → String

abbrev Result := Except McpError Json × AppState

section
variable (srv : Setup) (env : Env) (d : Draws) (s : AppState)

def invalid (e : Error) : McpError := .invalidParams e.toString

def internal (e : Error) : McpError := .internalError e.toString

/-- Only a task that does not exist is the caller's mistake. -/
def taskError : Error → McpError
  | .taskNotFound id => invalid (.taskNotFound id)
  | e => internal e

def listAgents : Result := (.ok (.array (s.registry.list.map (AgentInfo.toJson srv.txt))), s)

def registerAgent (args : RegisterAgentArgs) : Result :=
  let r := s.registry.register d.agent d.now args.name args.capabilities
  ((r.1.mapError invalid).map (AgentInfo.toJson srv.txt), { s with registry := r.2 })

def heartbeatAgent (args : HeartbeatAgentArgs) : Result :=
  match parseId srv.parse "agent_id" args.agentId with
  | .error e => (.error e, s)
  | .ok uuid =>
    let r := s.registry.heartbeat ⟨uuid⟩ d.now
    ((r.1.mapError invalid).map (AgentInfo.toJson srv.txt), { s with registry := r.2 })

def deregisterAgent (args : DeregisterAgentArgs) : Result :=
  match parseId srv.parse "agent_id" args.agentId with
  | .error e => (.error e, s)
  | .ok uuid =>
    let r := s.registry.deregister ⟨uuid⟩
    ((r.1.mapError invalid).map (AgentInfo.toJson srv.txt), { s with registry := r.2 })

/-- The first participant that does not parse stops the reading. -/
def parseParticipants : List String → Except McpError (List AgentId)
  | [] => .ok []
  | text :: rest =>
    match srv.parse text with
    | .error e => .error (.invalidParams ("invalid agent_id '" ++ text ++ "': " ++ e))
    | .ok uuid => (parseParticipants rest).map (⟨uuid⟩ :: ·)

def createConversation (args : CreateConversationArgs) : Result :=
  match parseParticipants srv args.participants with
  | .error e => (.error e, s)
  | .ok participants =>
    let r := s.chat.createConversation d.conversation d.now args.name participants
    ((r.1.mapError invalid).map (Conversation.toJson srv.txt), { s with chat := r.2 })

def listTools : Result := (.ok (.array (s.tools.list.map ToolInfo.toJson)), s)

def listConversations : Result :=
  (.ok (.array (s.chat.listConversations.map (Conversation.toJson srv.txt))), s)

def sendMessage (args : SendMessageArgs) : Result :=
  match parseId srv.parse "conversation_id" args.conversationId with
  | .error e => (.error e, s)
  | .ok conversationId =>
    match parseId srv.parse "sender_agent_id" args.senderAgentId with
    | .error e => (.error e, s)
    | .ok sender =>
      let r := s.chat.sendMessage d.message d.now ⟨conversationId⟩ ⟨sender⟩ args.content
      ((r.1.mapError invalid).map (ChatMessage.toJson srv.txt), { s with chat := r.2 })

def getMessages (args : GetMessagesArgs) : Result :=
  match parseId srv.parse "conversation_id" args.conversationId with
  | .error e => (.error e, s)
  | .ok conversationId =>
    (((s.chat.getMessages ⟨conversationId⟩).mapError invalid).map fun msgs =>
      .array (msgs.map (ChatMessage.toJson srv.txt)), s)

def getTask (args : GetTaskArgs) : Result :=
  match parseId srv.parse "task_id" args.taskId with
  | .error e => (.error e, s)
  | .ok taskId =>
    match s.tasks.get ⟨taskId⟩ with
    | none => (.error (taskError (.taskNotFound (TaskId.mk taskId).toString)), s)
    | some task => (.ok (task.toJson srv.txt), s)

def parseState (text : String) : Except McpError TaskState :=
  match TaskState.fromStr text with
  | some state => .ok state
  | none => .error (.invalidParams ("invalid state: '" ++ text ++ "'"))

def taskFilter (args : ListTasksArgs) : Except McpError TaskFilter :=
  TaskFilter.read (parseId srv.parse) parseState args.contextId args.state args.assignee

def listTasks (args : ListTasksArgs) : Result :=
  ((taskFilter srv args).map fun filter =>
    .array ((s.tasks.listFiltered filter).map (Task.toJson srv.txt)), s)

/-- The reason is not handed on. -/
def cancelTask (args : CancelTaskArgs) : Result :=
  match parseId srv.parse "task_id" args.taskId with
  | .error e => (.error e, s)
  | .ok taskId =>
    let r := s.tasks.cancel ⟨taskId⟩ none d.now
    ((r.1.mapError taskError).map (Task.toJson srv.txt), { s with tasks := r.2 })

/-- A tool run on its arguments, if they fit. -/
def withArgs {α : Type} (name : String) (read : List (String × Json) → Option α)
    (run : α → Option Result) (arguments : List (String × Json)) : Option Result :=
  match read arguments with
  | none => some (.error (.invalidParams (srv.misfit name arguments)), s)
  | some args => run args

/-- The tools of the server itself; nothing for a name that is not one of theirs. -/
def toolRouter (name : String) : Option (List (String × Json) → Option Result) :=
  match name with
  | "list_agents" => some fun _ => some (listAgents srv s)
  | "register_agent" => some <|
    withArgs srv s name RegisterAgentArgs.read fun args => some (registerAgent srv d s args)
  | "heartbeat_agent" => some <|
    withArgs srv s name HeartbeatAgentArgs.read fun args => some (heartbeatAgent srv d s args)
  | "deregister_agent" => some <|
    withArgs srv s name DeregisterAgentArgs.read fun args => some (deregisterAgent srv s args)
  | "create_conversation" => some <|
    withArgs srv s name CreateConversationArgs.read fun args =>
      some (createConversation srv d s args)
  | "list_tools" => some fun _ => some (listTools s)
  | "list_conversations" => some fun _ => some (listConversations srv s)
  | "send_message" => some <|
    withArgs srv s name SendMessageArgs.read fun args => some (sendMessage srv d s args)
  | "get_messages" => some <|
    withArgs srv s name GetMessagesArgs.read fun args => some (getMessages srv s args)
  | "submit_task" => some <|
    withArgs srv s name SubmitTaskArgs.read fun args =>
      (submitTask srv.parse s.registry s.tasks d.request args).map fun r =>
        (r.1.map (Task.toJson srv.txt), { s with tasks := r.2 })
  | "get_task" => some <|
    withArgs srv s name GetTaskArgs.read fun args => some (getTask srv s args)
  | "list_tasks" => some <|
    withArgs srv s name ListTasksArgs.read fun args => some (listTasks srv s args)
  | "cancel_task" => some <|
    withArgs srv s name CancelTaskArgs.read fun args => some (cancelTask srv d s args)
  | _ => none

/-- What an invocation fails with. -/
def invokeError : Error → McpError
  | .toolNotFound name => invalid (.toolNotFound name)
  | e => internal e

/-- What an invocation is answered with: the output alone, or the task with its tag. -/
def payload (txt : TextForms) : ToolResult → Json
  | .immediate output => output
  | .taskCreated task =>
    Json.byName (.object [("type", .string "task_created"), ("task", task.toJson txt)])

/-- A tool of the server shadows one of the registry. -/
def dispatch (request : CallToolRequest) : Option Result :=
  match toolRouter srv d s request.name with
  | some run => run (request.arguments.getD [])
  | none =>
    let invoker : ToolInvoker := ⟨s.tools, env.codeTools, s.tasks, s.registry⟩
    let input := match request.arguments with
      | some arguments => .object arguments
      | none => .null
    (invoker.invoke env.host env.serialize env.fuel ⟨d.message, d.temp, d.mint⟩ request.name
      input).map fun r =>
        ((r.1.mapError invokeError).map (payload srv.txt), { s with tasks := r.2.tasks })

/-- The result as a text. -/
def text (result : Except McpError Json) : Except McpError String :=
  match result with
  | .error e => .error e
  | .ok json => (env.serialize json).mapError fun e =>
    .internalError ("serialization failed: " ++ e)

def callTool (request : CallToolRequest) : Option (Except McpError String × AppState) :=
  (dispatch srv env d s request).map fun r => (text env r.1, r.2)

end

/-! ## The calls behind the tool calls -/

def ownTools : List String :=
  ["list_agents", "register_agent", "heartbeat_agent", "deregister_agent", "create_conversation",
    "list_tools", "list_conversations", "send_message", "get_messages", "submit_task", "get_task",
    "list_tasks", "cancel_task"]

/-- The tool call a client writes for a call, if there is one. -/
def toolCallOf : Call → Option CallToolRequest
  | .registerAgent name capabilities =>
    some ⟨"register_agent", some [("name", .string name),
      ("capabilities", .option AgentCapabilities.toJson capabilities)]⟩
  | .heartbeatAgent id => some ⟨"heartbeat_agent", some [("agent_id", .string id.toString)]⟩
  | .deregisterAgent id => some ⟨"deregister_agent", some [("agent_id", .string id.toString)]⟩
  | .listAgents => some ⟨"list_agents", none⟩
  | .createConversation name participants =>
    some ⟨"create_conversation", some [("name", .option .string name),
      ("participants", .strings (participants.map AgentId.toString))]⟩
  | .listConversations => some ⟨"list_conversations", none⟩
  | .getConversation _ => none
  | .sendMessage id sender content =>
    some ⟨"send_message", some [("conversation_id", .string id.toString),
      ("sender_agent_id", .string sender.toString), ("content", .string content)]⟩
  | .getMessages id => some ⟨"get_messages", some [("conversation_id", .string id.toString)]⟩
  | .listTools => some ⟨"list_tools", none⟩
  | .getTool _ => none
  | .invokeTool name input =>
    if name ∈ ownTools then none
    else match input with
      | .object fields => some ⟨name, some fields⟩
      | .null => some ⟨name, none⟩
      | _ => none
  | .submitTask message contextId assignee deadlineMs deadlineAt =>
    if deadlineAt.isSome then none
    else some ⟨"submit_task", some [("message", .string message),
      ("context_id", .option .string (contextId.map ContextId.toString)),
      ("assignee", .option .string (assignee.map AgentId.toString)),
      ("deadline_ms", .option (fun ms => .number (.posInt ms)) deadlineMs)]⟩
  | .getTask id => some ⟨"get_task", some [("task_id", .string id.toString)]⟩
  | .listTasks filter =>
    some ⟨"list_tasks", some [
      ("context_id", .option .string (filter.contextId.map ContextId.toString)),
      ("state", .option .string (filter.state.map TaskState.name)),
      ("assignee", .option .string (filter.assignee.map AgentId.toString))]⟩
  | .cancelTask id => some ⟨"cancel_task", some [("task_id", .string id.toString)]⟩

/-- How the error of a call is told. -/
def errorOf : Call → Error → McpError
  | .submitTask .. => internal
  | .getTask _ | .cancelTask _ => taskError
  | .invokeTool .. => invokeError
  | _ => invalid

def answerOf (txt : TextForms) : Answer → Json
  | .invoked result => payload txt result
  | a => a.toJson txt

/-- The result for what a call came to. -/
def result (srv : Setup) (env : Env) (c : Call) (o : Outcome) :
    Except McpError String × AppState :=
  (text env ((o.1.mapError (errorOf c)).map (answerOf srv.txt)), o.2)

section
variable {srv : Setup} {env : Env} {d : Draws} {s : AppState}

theorem told {α : Type} (c : Call) (r : Except Error α) (t : AppState) (f : α → Answer) :
    (text env ((r.mapError (errorOf c)).map fun a => answerOf srv.txt (f a)), t) =
      result srv env c (r.map f, t) := by
  cases r <;> rfl

theorem toolRouter_other {name : String} (h : name ∉ ownTools) :
    toolRouter srv d s name = none := by
  unfold toolRouter
  split <;> first | rfl | exact absurd (by decide) h

/-- A tool of the server itself is run on its arguments. -/
theorem callTool_own {name : String} {run : List (String × Json) → Option Result}
    (hrun : toolRouter srv d s name = some run) (arguments : Option (List (String × Json))) :
    callTool srv env d s ⟨name, arguments⟩ =
      (run (arguments.getD [])).map fun r => (text env r.1, r.2) := by
  simp only [callTool, dispatch, hrun]

theorem withArgs_read {α : Type} {name : String} {read : List (String × Json) → Option α}
    {arguments : List (String × Json)} {args : α} (h : read arguments = some args)
    (run : α → Option Result) : withArgs srv s name read run arguments = run args := by
  rw [withArgs, h]

section
variable (h : ReadsBack srv.parse)
include h

theorem parseId_toString (field : String) (uuid : Uuid) :
    parseId srv.parse field uuid.toString = .ok uuid := by
  rw [parseId, h]
  rfl

theorem parseParticipants_toString (ids : List AgentId) :
    parseParticipants srv (ids.map AgentId.toString) = .ok ids := by
  induction ids with
  | nil => rfl
  | cons id ids ih =>
    simp only [List.map_cons, parseParticipants, AgentId.toString, h id.uuid]
    rw [ih]
    rfl

theorem taskFilter_printed (filter : TaskFilter) :
    taskFilter srv ⟨filter.contextId.map ContextId.toString, filter.state.map TaskState.name,
      filter.assignee.map AgentId.toString⟩ = .ok filter :=
  TaskFilter.read_printed (parseId_toString h) (fun state => by cases state <;> rfl) filter

end

/-- A call as a client writes it is answered as that call. -/
theorem callTool_toolCallOf (h : ReadsBack srv.parse) {c : Call} {request : CallToolRequest}
    (hc : toolCallOf c = some request) :
    callTool srv env d s request = (call env d s c).map (result srv env c) := by
  cases c with
  | registerAgent name capabilities =>
    cases hc
    have hread : RegisterAgentArgs.read [("name", .string name),
        ("capabilities", .option AgentCapabilities.toJson capabilities)] =
          some ⟨name, capabilities⟩ := by
      have hcaps := Json.nullable_option id AgentCapabilities.ofJson_toJson nofun capabilities
      simp only [Option.map_id, id] at hcaps
      simp [RegisterAgentArgs.read, field, fieldOr, hcaps]
    rw [callTool_own rfl, Option.getD_some, withArgs_read hread]
    exact congrArg some (told (.registerAgent name capabilities) _ _ .agent)
  | heartbeatAgent id =>
    cases hc
    have hread : HeartbeatAgentArgs.read [("agent_id", .string id.toString)] =
      some ⟨id.toString⟩ := rfl
    rw [callTool_own rfl, Option.getD_some, withArgs_read hread]
    simp only [heartbeatAgent, AgentId.toString, parseId_toString h]
    exact congrArg some (told (.heartbeatAgent id) _ _ .agent)
  | deregisterAgent id =>
    cases hc
    have hread : DeregisterAgentArgs.read [("agent_id", .string id.toString)] =
      some ⟨id.toString⟩ := rfl
    rw [callTool_own rfl, Option.getD_some, withArgs_read hread]
    simp only [deregisterAgent, AgentId.toString, parseId_toString h]
    exact congrArg some (told (.deregisterAgent id) _ _ .agent)
  | createConversation name participants =>
    cases hc
    have hread : CreateConversationArgs.read [("name", .option .string name),
        ("participants", .strings (participants.map AgentId.toString))] =
          some ⟨name, participants.map AgentId.toString⟩ := by
      simp [CreateConversationArgs.read, optionalStr, field, fieldOr]
    rw [callTool_own rfl, Option.getD_some, withArgs_read hread]
    simp only [createConversation, parseParticipants_toString h]
    exact congrArg some (told (.createConversation name participants) _ _ .conversation)
  | sendMessage id sender content =>
    cases hc
    have hread : SendMessageArgs.read [("conversation_id", .string id.toString),
        ("sender_agent_id", .string sender.toString), ("content", .string content)] =
          some ⟨id.toString, sender.toString, content⟩ := rfl
    rw [callTool_own rfl, Option.getD_some, withArgs_read hread]
    simp only [sendMessage, ConversationId.toString, AgentId.toString, parseId_toString h]
    exact congrArg some (told (.sendMessage id sender content) _ _ .message)
  | getMessages id =>
    cases hc
    have hread : GetMessagesArgs.read [("conversation_id", .string id.toString)] =
      some ⟨id.toString⟩ := rfl
    rw [callTool_own rfl, Option.getD_some, withArgs_read hread]
    simp only [getMessages, ConversationId.toString, parseId_toString h]
    exact congrArg some (told (.getMessages id) _ _ .messages)
  | getTask id =>
    cases hc
    have hread : GetTaskArgs.read [("task_id", .string id.toString)] =
      some ⟨id.toString⟩ := rfl
    rw [callTool_own rfl, Option.getD_some, withArgs_read hread]
    simp only [getTask, TaskId.toString, parseId_toString h, call]
    cases s.tasks.get id <;> rfl
  | cancelTask id =>
    cases hc
    have hread : CancelTaskArgs.read [("task_id", .string id.toString)] =
      some ⟨id.toString, none⟩ := rfl
    rw [callTool_own rfl, Option.getD_some, withArgs_read hread]
    simp only [cancelTask, TaskId.toString, parseId_toString h]
    exact congrArg some (told (.cancelTask id) _ _ .task)
  | listTasks filter =>
    cases hc
    have hread : ListTasksArgs.read [
        ("context_id", .option .string (filter.contextId.map ContextId.toString)),
        ("state", .option .string (filter.state.map TaskState.name)),
        ("assignee", .option .string (filter.assignee.map AgentId.toString))] =
          some ⟨filter.contextId.map ContextId.toString, filter.state.map TaskState.name,
            filter.assignee.map AgentId.toString⟩ := by
      simp [ListTasksArgs.read, optionalStr, fieldOr]
    rw [callTool_own rfl, Option.getD_some, withArgs_read hread]
    simp only [listTasks, taskFilter_printed h]
    rfl
  | listAgents | listConversations | listTools =>
    cases hc
    rfl
  | getConversation id | getTool name => cases hc
  | submitTask message contextId assignee deadlineMs deadlineAt =>
    cases deadlineAt with
    | some instant => cases hc
    | none =>
      cases hc
      have hdeadline : Json.nullable Json.asU64
          (Json.option (fun ms => .number (.posInt ms)) deadlineMs) = some deadlineMs := by
        cases deadlineMs <;> rfl
      have hread : SubmitTaskArgs.read [("message", .string message),
          ("context_id", .option .string (contextId.map ContextId.toString)),
          ("assignee", .option .string (assignee.map AgentId.toString)),
          ("deadline_ms", .option (fun ms => .number (.posInt ms)) deadlineMs)] =
            some ⟨message, contextId.map ContextId.toString, assignee.map AgentId.toString,
              deadlineMs⟩ := by
        simp [SubmitTaskArgs.read, optionalStr, field, fieldOr, hdeadline]
      rw [callTool_own rfl, Option.getD_some, withArgs_read hread]
      simp only [submitTask, readField_contextId (parseId_toString h _),
        readField_assignee (parseId_toString h _), call, due, Option.map_map]
      refine congrArg (fun f => Option.map f (relativeDeadline d.now deadlineMs))
        (funext fun deadline => ?_)
      simp only [Function.comp_apply]
      cases contextId <;> cases assignee <;>
        exact told (.submitTask message _ _ deadlineMs none) _ _ .task
  | invokeTool name input =>
    have hname : name ∉ ownTools := by
      intro hmem
      simp only [toolCallOf, hmem, if_true] at hc
      cases hc
    have hinvoke : ∀ arguments : Option (List (String × Json)),
        (match arguments with | some fields => Json.object fields | none => .null) = input →
        callTool srv env d s ⟨name, arguments⟩ =
          (call env d s (.invokeTool name input)).map
            (result srv env (.invokeTool name input)) := by
      rintro arguments rfl
      simp only [callTool, dispatch, toolRouter_other hname, call, Option.map_map]
      exact congrArg (fun f => Option.map f _)
        (funext fun r => told (.invokeTool name _) r.1 _ .invoked)
    simp only [toolCallOf, hname, if_false] at hc
    cases input <;> cases hc
    · exact hinvoke none rfl
    · exact hinvoke (some _) rfl

/-! ## Whatever is asked -/

/-- A result that refuses the request with nothing changed, or that stems from a call. -/
inductive Stems (srv : Setup) (env : Env) (d : Draws) (s : AppState) : Result → Prop
  | refused (e : McpError) : Stems srv env d s (.error e, s)
  | called (c : Call) (o : Outcome) (h : call env d s c = some o) :
    Stems srv env d s ((o.1.mapError (errorOf c)).map (answerOf srv.txt), o.2)

theorem Stems.of {α : Type} (c : Call) (r : Except Error α) (t : AppState) (f : α → Answer)
    (h : call env d s c = some (r.map f, t)) :
    Stems srv env d s ((r.mapError (errorOf c)).map fun a => answerOf srv.txt (f a), t) := by
  have hc : Stems srv env d s _ := .called c _ h
  cases r <;> exact hc

theorem withArgs_stems {α : Type} {name : String} {read : List (String × Json) → Option α}
    {run : α → Option Result} {arguments : List (String × Json)} {r : Result}
    (hrun : ∀ args, run args = some r → Stems srv env d s r)
    (h : withArgs srv s name read run arguments = some r) : Stems srv env d s r := by
  unfold withArgs at h
  cases hread : read arguments with
  | none =>
    rw [hread] at h
    cases h
    exact .refused _
  | some args =>
    rw [hread] at h
    exact hrun args h

theorem registerAgent_stems (args : RegisterAgentArgs) :
    Stems srv env d s (registerAgent srv d s args) :=
  .of (.registerAgent args.name args.capabilities) _ _ .agent rfl

theorem heartbeatAgent_stems (args : HeartbeatAgentArgs) :
    Stems srv env d s (heartbeatAgent srv d s args) := by
  unfold heartbeatAgent
  cases parseId srv.parse "agent_id" args.agentId with
  | error e => exact .refused e
  | ok uuid => exact .of (.heartbeatAgent ⟨uuid⟩) _ _ .agent rfl

theorem deregisterAgent_stems (args : DeregisterAgentArgs) :
    Stems srv env d s (deregisterAgent srv s args) := by
  unfold deregisterAgent
  cases parseId srv.parse "agent_id" args.agentId with
  | error e => exact .refused e
  | ok uuid => exact .of (.deregisterAgent ⟨uuid⟩) _ _ .agent rfl

theorem createConversation_stems (args : CreateConversationArgs) :
    Stems srv env d s (createConversation srv d s args) := by
  unfold createConversation
  cases parseParticipants srv args.participants with
  | error e => exact .refused e
  | ok participants => exact .of (.createConversation args.name participants) _ _ .conversation rfl

theorem sendMessage_stems (args : SendMessageArgs) :
    Stems srv env d s (sendMessage srv d s args) := by
  unfold sendMessage
  cases parseId srv.parse "conversation_id" args.conversationId with
  | error e => exact .refused e
  | ok id =>
    simp only
    cases parseId srv.parse "sender_agent_id" args.senderAgentId with
    | error e => exact .refused e
    | ok sender => exact .of (.sendMessage ⟨id⟩ ⟨sender⟩ args.content) _ _ .message rfl

theorem getMessages_stems (args : GetMessagesArgs) :
    Stems srv env d s (getMessages srv s args) := by
  unfold getMessages
  cases parseId srv.parse "conversation_id" args.conversationId with
  | error e => exact .refused e
  | ok id => exact .of (.getMessages ⟨id⟩) _ _ .messages rfl

theorem getTask_stems (args : GetTaskArgs) : Stems srv env d s (getTask srv s args) := by
  unfold getTask
  cases parseId srv.parse "task_id" args.taskId with
  | error e => exact .refused e
  | ok id =>
    simp only
    cases hg : s.tasks.get ⟨id⟩ with
    | none => exact .refused _
    | some task =>
      exact .called (.getTask ⟨id⟩) (.ok (.task task), s) (by simp only [call, hg])

theorem listTasks_stems (args : ListTasksArgs) : Stems srv env d s (listTasks srv s args) := by
  unfold listTasks
  cases taskFilter srv args with
  | error e => exact .refused e
  | ok filter => exact .called (.listTasks filter) _ rfl

theorem cancelTask_stems (args : CancelTaskArgs) :
    Stems srv env d s (cancelTask srv d s args) := by
  unfold cancelTask
  cases parseId srv.parse "task_id" args.taskId with
  | error e => exact .refused e
  | ok id => exact .of (.cancelTask ⟨id⟩) _ _ .task rfl

theorem submitTask_stems (args : SubmitTaskArgs) {r : Result}
    (h : (submitTask srv.parse s.registry s.tasks d.request args).map (fun r =>
      (r.1.map (Task.toJson srv.txt), { s with tasks := r.2 })) = some r) :
    Stems srv env d s r := by
  unfold submitTask at h
  cases hcontext : readField (parseId srv.parse "context_id") args.contextId with
  | error e =>
    rw [hcontext] at h
    cases h
    exact .refused e
  | ok contextId =>
    simp only [hcontext] at h
    cases hassignee : readField (parseId srv.parse "assignee") args.assignee with
    | error e =>
      rw [hassignee] at h
      cases h
      exact .refused e
    | ok assignee =>
      simp only [hassignee, Option.map_map, Option.map_eq_some_iff] at h
      obtain ⟨deadline, hdeadline, rfl⟩ := h
      refine .of (.submitTask args.message (contextId.map ContextId.mk) (assignee.map AgentId.mk)
        args.deadlineMs none) _ _ .task ?_
      exact Option.map_eq_some_iff.mpr ⟨deadline, hdeadline, rfl⟩

theorem toolRouter_stems {name : String} {run : List (String × Json) → Option Result}
    (hrun : toolRouter srv d s name = some run) {arguments : List (String × Json)} {r : Result}
    (h : run arguments = some r) : Stems srv env d s r := by
  have of_args : ∀ {α : Type} {read : List (String × Json) → Option α} {handler : α → Result},
      (∀ args, Stems srv env d s (handler args)) →
      withArgs srv s name read (fun args => some (handler args)) arguments = some r →
      Stems srv env d s r := by
    intro α read handler hs hr
    exact withArgs_stems (fun args h => Option.some.inj h ▸ hs args) hr
  unfold toolRouter at hrun
  split at hrun <;> cases hrun
  · cases h
    exact .called .listAgents _ rfl
  · exact of_args registerAgent_stems h
  · exact of_args heartbeatAgent_stems h
  · exact of_args deregisterAgent_stems h
  · exact of_args createConversation_stems h
  · cases h
    exact .called .listTools _ rfl
  · cases h
    exact .called .listConversations _ rfl
  · exact of_args sendMessage_stems h
  · exact of_args getMessages_stems h
  · exact withArgs_stems (fun args hr => submitTask_stems args hr) h
  · exact of_args getTask_stems h
  · exact of_args listTasks_stems h
  · exact of_args cancelTask_stems h

/-- Whatever is called, the result stems from one call of the nexus, or is a refusal. -/
theorem dispatch_stems {request : CallToolRequest} {r : Result}
    (h : dispatch srv env d s request = some r) : Stems srv env d s r := by
  unfold dispatch at h
  cases hrun : toolRouter srv d s request.name with
  | some run =>
    rw [hrun] at h
    exact toolRouter_stems hrun h
  | none =>
    simp only [hrun, Option.map_eq_some_iff] at h
    obtain ⟨out, hout, rfl⟩ := h
    exact .of (.invokeTool request.name _) out.1 _ .invoked
      (Option.map_eq_some_iff.mpr ⟨out, hout, rfl⟩)

end

end TrumpetMcpServer

end Trumpet
