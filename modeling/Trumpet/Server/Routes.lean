import Trumpet.Cli.Watch
import Trumpet.Core.ErrorCode
import Trumpet.Server.Nexus

/-! The HTTP API: the handlers, the responses they give, and the call each request is. -/

namespace Trumpet

namespace Nexus.Draws

def request (d : Draws) : RequestDraws := ⟨d.now, d.message, d.temp, d.mint⟩

end Nexus.Draws

namespace Routes

/-! ## Requests -/

structure RegisterRequest where
  name : String
  capabilities : Option AgentCapabilities

structure DeregisterRequest where
  agentId : AgentId

structure CreateConversationRequest where
  name : Option String
  participants : List AgentId

structure SendMessageRequest where
  sender : AgentId
  content : String

structure InvokeToolRequest where
  input : Json

structure ListTasksQuery where
  contextId : Option String
  state : Option String
  assignee : Option String

/-- A request as the router hands it over: the path segments as they stand, the body and
the query decoded. -/
inductive Request where
  | listAgents
  | registerAgent (req : RegisterRequest)
  | deregisterAgent (req : DeregisterRequest)
  | heartbeatAgent (id : String)
  | createConversation (req : CreateConversationRequest)
  | listConversations
  | getConversation (id : String)
  | sendMessage (id : String) (req : SendMessageRequest)
  | getMessages (id : String)
  | listTools
  | getToolByName (name : String)
  | invokeTool (name : String) (req : InvokeToolRequest)
  | submitTask (req : SubmitTaskRequest)
  | listTasks (query : ListTasksQuery)
  | getTaskById (id : String)
  | cancelTask (id : String)

structure Response where
  status : Nat
  body : Json

/-- A result as axum makes a response of it. -/
def respond : Except Error Json → Response
  | .ok body => ⟨200, body⟩
  | .error e => ⟨e.httpStatus, e.toJsonBody⟩

/-! ## Handlers -/

section
variable (txt : TextForms) (parse : UuidParser) (env : Nexus.Env) (d : Nexus.Draws) (s : AppState)

def parseConversationId (raw : String) : Except Error ConversationId :=
  match parse raw with
  | .ok id => .ok ⟨id⟩
  | .error _ => .error (.conversationNotFound raw)

def parseTaskId (id : String) : Except Error TaskId :=
  match parse id with
  | .ok uuid => .ok ⟨uuid⟩
  | .error _ => .error (.taskNotFound id)

def registerAgent (req : RegisterRequest) : Except Error AgentInfo × AppState :=
  let r := s.registry.register d.agent d.now req.name req.capabilities
  (r.1, { s with registry := r.2 })

def deregisterAgent (req : DeregisterRequest) : Except Error AgentInfo × AppState :=
  let r := s.registry.deregister req.agentId
  (r.1, { s with registry := r.2 })

def heartbeatAgent (id : String) : Except Error AgentInfo × AppState :=
  match parse id with
  | .error _ => (.error (.agentNotFound id), s)
  | .ok uuid =>
    let r := s.registry.heartbeat ⟨uuid⟩ d.now
    (r.1, { s with registry := r.2 })

def listAgents : List AgentInfo := s.registry.list

def createConversation (req : CreateConversationRequest) : Except Error Conversation × AppState :=
  let r := s.chat.createConversation d.conversation d.now req.name req.participants
  (r.1, { s with chat := r.2 })

def listConversations : List Conversation := s.chat.listConversations

def getConversation (id : String) : Except Error Conversation :=
  match parseConversationId parse id with
  | .error e => .error e
  | .ok convId =>
    match s.chat.getConversation convId with
    | none => .error (.conversationNotFound id)
    | some conv => .ok conv

def sendMessage (id : String) (req : SendMessageRequest) : Except Error ChatMessage × AppState :=
  match parseConversationId parse id with
  | .error e => (.error e, s)
  | .ok convId =>
    let r := s.chat.sendMessage d.message d.now convId req.sender req.content
    (r.1, { s with chat := r.2 })

def getMessages (id : String) : Except Error (List ChatMessage) :=
  match parseConversationId parse id with
  | .error e => .error e
  | .ok convId => s.chat.getMessages convId

def listTools : List ToolInfo := s.tools.list

def getToolByName (name : String) : Except Error ToolInfo :=
  match s.tools.findByName name with
  | none => .error (.toolNotFound name)
  | some info => .ok info

/-- The result is always serializable. -/
def invokeTool (name : String) (req : InvokeToolRequest) :
    Option (Except Error ToolResult × AppState) :=
  let invoker : ToolInvoker := ⟨s.tools, env.codeTools, s.tasks, s.registry⟩
  (invoker.invoke env.host env.serialize env.fuel ⟨d.message, d.temp, d.mint⟩ name
    req.input).map fun r => (r.1, { s with tasks := r.2.tasks })

def getTaskById (id : String) : Except Error Task :=
  match parseTaskId parse id with
  | .error e => .error e
  | .ok taskId =>
    match s.tasks.get taskId with
    | none => .error (.taskNotFound taskId.toString)
    | some task => .ok task

def parseState (text : String) : Except Error TaskState :=
  match TaskState.fromStr text with
  | some state => .ok state
  | none => .error (.invalidInput ("'" ++ text ++ "' is not a valid task state"))

def taskFilter (query : ListTasksQuery) : Except Error TaskFilter :=
  TaskFilter.read (parseId parse) parseState query.contextId query.state query.assignee

def listTasksHandler (query : ListTasksQuery) : Except Error (List Task) :=
  (taskFilter parse query).map s.tasks.listFiltered

def cancelTaskHandler (id : String) : Except Error Task × AppState :=
  match parseTaskId parse id with
  | .error e => (.error e, s)
  | .ok taskId =>
    let r := s.tasks.cancel taskId none d.now
    (r.1, { s with tasks := r.2 })

/-- What a request is answered, and the state after it; nothing stands for a panic, and
for a tool that runs out of fuel. -/
def serve : Request → Option (Response × AppState)
  | .listAgents => some (respond (.ok (.array ((listAgents s).map (AgentInfo.toJson txt)))), s)
  | .registerAgent req =>
    let r := registerAgent d s req
    some (respond (r.1.map (AgentInfo.toJson txt)), r.2)
  | .deregisterAgent req =>
    let r := deregisterAgent s req
    some (respond (r.1.map (AgentInfo.toJson txt)), r.2)
  | .heartbeatAgent id =>
    let r := heartbeatAgent parse d s id
    some (respond (r.1.map (AgentInfo.toJson txt)), r.2)
  | .createConversation req =>
    let r := createConversation d s req
    some (respond (r.1.map (Conversation.toJson txt)), r.2)
  | .listConversations =>
    some (respond (.ok (.array ((listConversations s).map (Conversation.toJson txt)))), s)
  | .getConversation id =>
    some (respond ((getConversation parse s id).map (Conversation.toJson txt)), s)
  | .sendMessage id req =>
    let r := sendMessage parse d s id req
    some (respond (r.1.map (ChatMessage.toJson txt)), r.2)
  | .getMessages id =>
    some (respond ((getMessages parse s id).map fun msgs =>
      .array (msgs.map (ChatMessage.toJson txt))), s)
  | .listTools => some (respond (.ok (.array ((listTools s).map ToolInfo.toJson))), s)
  | .getToolByName name => some (respond ((getToolByName s name).map ToolInfo.toJson), s)
  | .invokeTool name req =>
    (invokeTool env d s name req).map fun r =>
      (respond (r.1.map fun result => (result.toJson txt).byName), r.2)
  | .submitTask req =>
    (submitTask parse s.registry s.tasks d.request req).map fun r =>
      (respond (r.1.map (Task.toJson txt)), { s with tasks := r.2 })
  | .listTasks query =>
    some (respond ((listTasksHandler parse s query).map fun tasks =>
      .array (tasks.map (Task.toJson txt))), s)
  | .getTaskById id => some (respond ((getTaskById parse s id).map (Task.toJson txt)), s)
  | .cancelTask id =>
    let r := cancelTaskHandler parse d s id
    some (respond (r.1.map (Task.toJson txt)), r.2)

end

/-! ## The calls behind the requests -/

open Nexus

/-- The request a client writes for a call. -/
def requestOf : Call → Request
  | .registerAgent name capabilities => .registerAgent ⟨name, capabilities⟩
  | .heartbeatAgent id => .heartbeatAgent id.toString
  | .deregisterAgent id => .deregisterAgent ⟨id⟩
  | .listAgents => .listAgents
  | .createConversation name participants => .createConversation ⟨name, participants⟩
  | .listConversations => .listConversations
  | .getConversation id => .getConversation id.toString
  | .sendMessage id sender content => .sendMessage id.toString ⟨sender, content⟩
  | .getMessages id => .getMessages id.toString
  | .listTools => .listTools
  | .getTool name => .getToolByName name
  | .invokeTool name input => .invokeTool name ⟨input⟩
  | .submitTask message contextId assignee deadlineMs deadlineAt =>
    .submitTask ⟨message, contextId.map ContextId.toString, assignee.map AgentId.toString,
      deadlineMs, deadlineAt⟩
  | .getTask id => .getTaskById id.toString
  | .listTasks filter =>
    .listTasks ⟨filter.contextId.map ContextId.toString, filter.state.map TaskState.name,
      filter.assignee.map AgentId.toString⟩
  | .cancelTask id => .cancelTask id.toString

/-- The call a request is, or the error it is refused with. -/
def decode (parse : UuidParser) : Request → Except Error Call
  | .registerAgent req => .ok (.registerAgent req.name req.capabilities)
  | .heartbeatAgent id =>
    match parse id with
    | .ok uuid => .ok (.heartbeatAgent ⟨uuid⟩)
    | .error _ => .error (.agentNotFound id)
  | .deregisterAgent req => .ok (.deregisterAgent req.agentId)
  | .listAgents => .ok .listAgents
  | .createConversation req => .ok (.createConversation req.name req.participants)
  | .listConversations => .ok .listConversations
  | .getConversation id => (parseConversationId parse id).map .getConversation
  | .sendMessage id req =>
    (parseConversationId parse id).map fun convId => .sendMessage convId req.sender req.content
  | .getMessages id => (parseConversationId parse id).map .getMessages
  | .listTools => .ok .listTools
  | .getToolByName name => .ok (.getTool name)
  | .invokeTool name req => .ok (.invokeTool name req.input)
  | .submitTask req => do
    let contextId ← readField (parseId parse "context_id") req.contextId
    let assignee ← readField (parseId parse "assignee") req.assignee
    pure (.submitTask req.message (contextId.map ContextId.mk) (assignee.map AgentId.mk)
      req.deadlineMs req.deadlineAt)
  | .getTaskById id => (parseTaskId parse id).map .getTask
  | .listTasks query => (taskFilter parse query).map .listTasks
  | .cancelTask id => (parseTaskId parse id).map .cancelTask

/-- The response for what a call came to. -/
def response (txt : TextForms) (o : Outcome) : Response × AppState :=
  (respond (o.1.map (Answer.toJson txt)), o.2)

section
variable {txt : TextForms} {parse : UuidParser} {env : Env} {d : Draws} {s : AppState}

theorem answered {α : Type} (r : Except Error α) (t : AppState) (f : α → Answer) :
    (respond (r.map fun a => (f a).toJson txt), t) = response txt (r.map f, t) := by
  cases r <;> rfl

/-- Serving a request is serving the call it is; only an unknown conversation is named
by the text of the request. -/
theorem serve_eq {r : Request} (hr : ∀ id, r ≠ .getConversation id) :
    serve txt parse env d s r = match decode parse r with
      | .error e => some (respond (.error e), s)
      | .ok c => (call env d s c).map (response txt) := by
  cases r with
  | registerAgent | deregisterAgent => exact congrArg some (answered _ _ .agent)
  | createConversation => exact congrArg some (answered _ _ .conversation)
  | listAgents | listConversations | listTools => rfl
  | getConversation id => exact absurd rfl (hr id)
  | heartbeatAgent id =>
    simp only [serve, decode, heartbeatAgent]
    cases parse id with
    | error e => rfl
    | ok uuid => exact congrArg some (answered _ _ .agent)
  | sendMessage id req =>
    simp only [serve, decode, sendMessage]
    cases parseConversationId parse id with
    | error e => rfl
    | ok convId => exact congrArg some (answered _ _ .message)
  | getMessages id =>
    simp only [serve, decode, getMessages]
    cases parseConversationId parse id with
    | error e => rfl
    | ok convId => exact congrArg some (answered _ _ .messages)
  | getToolByName name =>
    simp only [serve, decode, getToolByName, call]
    cases s.tools.findByName name <;> rfl
  | invokeTool name req =>
    simp only [serve, decode, invokeTool, call, Option.map_map]
    exact congrArg (fun f => Option.map f _) (funext fun r => answered r.1 _ .invoked)
  | submitTask req =>
    simp only [serve, decode, submitTask]
    cases readField (parseId parse "context_id") req.contextId with
    | error e => rfl
    | ok contextId =>
      cases readField (parseId parse "assignee") req.assignee with
      | error e => rfl
      | ok assignee =>
        simp only [bind, Except.bind, pure, Except.pure, call, Option.map_map]
        exact congrArg (fun f => Option.map f (due d.now req.deadlineMs req.deadlineAt))
          (funext fun deadline => answered _ _ .task)
  | getTaskById id =>
    simp only [serve, decode, getTaskById]
    cases parseTaskId parse id with
    | error e => rfl
    | ok taskId =>
      simp only [call, Except.map]
      cases s.tasks.get taskId <;> rfl
  | listTasks query =>
    simp only [serve, decode, listTasksHandler]
    cases taskFilter parse query with
    | error e => rfl
    | ok filter => exact congrArg some (answered _ _ .tasks)
  | cancelTask id =>
    simp only [serve, decode, cancelTaskHandler]
    cases parseTaskId parse id with
    | error e => rfl
    | ok taskId => exact congrArg some (answered _ _ .task)

/-- Every request is refused with nothing changed, or served as the call it is. -/
theorem serve_cases (r : Request) :
    (∃ e, serve txt parse env d s r = some (respond (.error e), s)) ∨
      ∃ c, serve txt parse env d s r = (call env d s c).map (response txt) := by
  by_cases hr : ∃ id, r = .getConversation id
  · obtain ⟨id, rfl⟩ := hr
    simp only [serve, getConversation]
    cases parseConversationId parse id with
    | error e => exact .inl ⟨e, rfl⟩
    | ok convId =>
      simp only
      cases hg : s.chat.getConversation convId with
      | none => exact .inl ⟨_, rfl⟩
      | some conv => exact .inr ⟨.getConversation convId, by simp only [call, hg]; rfl⟩
  · rw [serve_eq fun id e => hr ⟨id, e⟩]
    cases decode parse r with
    | error e => exact .inl ⟨e, rfl⟩
    | ok c => exact .inr ⟨c, rfl⟩

section
variable (h : ReadsBack parse)
include h

theorem parseConversationId_toString (id : ConversationId) :
    parseConversationId parse id.toString = .ok id := by
  rw [parseConversationId, ConversationId.toString, h]

theorem parseTaskId_toString (id : TaskId) : parseTaskId parse id.toString = .ok id := by
  rw [parseTaskId, TaskId.toString, h]

theorem parseId_toString (field : String) (uuid : Uuid) :
    parseId parse field uuid.toString = .ok uuid := by
  rw [parseId, h uuid]
  rfl

theorem taskFilter_printed (filter : TaskFilter) :
    taskFilter parse ⟨filter.contextId.map ContextId.toString, filter.state.map TaskState.name,
      filter.assignee.map AgentId.toString⟩ = .ok filter :=
  TaskFilter.read_printed (parseId_toString h) (fun state => by cases state <;> rfl) filter

theorem decode_requestOf (c : Call) : decode parse (requestOf c) = .ok c := by
  cases c with
  | heartbeatAgent id => simp only [requestOf, decode, AgentId.toString, h id.uuid]
  | getConversation id | sendMessage id | getMessages id =>
    simp only [requestOf, decode, parseConversationId_toString h, Except.map]
  | getTask id | cancelTask id =>
    simp only [requestOf, decode, parseTaskId_toString h, Except.map]
  | submitTask message contextId assignee deadlineMs deadlineAt =>
    simp only [requestOf, decode, readField_contextId (parseId_toString h _),
      readField_assignee (parseId_toString h _), bind, Except.bind, pure, Except.pure]
    cases contextId <;> cases assignee <;> rfl
  | listTasks filter => simp only [requestOf, decode, taskFilter_printed h, Except.map]
  | _ => rfl

/-- A call as a client writes it is served as that call. -/
theorem serve_requestOf (c : Call) :
    serve txt parse env d s (requestOf c) = (call env d s c).map (response txt) := by
  by_cases hc : ∃ id, c = .getConversation id
  · obtain ⟨id, rfl⟩ := hc
    simp only [requestOf, serve, getConversation, parseConversationId_toString h, call]
    cases s.chat.getConversation id <;> rfl
  · have hr : ∀ id, requestOf c ≠ .getConversation id := by
      intro id e
      cases c with
      | getConversation id => exact hc ⟨id, rfl⟩
      | _ => cases e
    rw [serve_eq hr, decode_requestOf h]

end

end

end Routes

end Trumpet
