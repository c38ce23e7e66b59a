import Trumpet.Core.ToolInvoker
import Trumpet.Lib.Fallible
import Trumpet.Server.Restart
import Trumpet.Server.Submit
import Trumpet.State.Serde

/-! The nexus behind the transports: what a client can ask for, and what comes of it. -/

namespace Trumpet

def ToolResult.toJson (txt : TextForms) : ToolResult → Json
  | immediate output => .object [("type", .string "immediate"), ("output", output)]
  | taskCreated task =>
    .object [("type", .string "task_created"), ("task", Task.toJson txt task)]

namespace Nexus

/-- What the tools run on, besides the stores. -/
structure Env where
  host : Host
  codeTools : Option CodeTools
  fuel : Nat
  serialize : Json → Except String String

/-- What a request draws, if it needs to. -/
structure Draws where
  agent : AgentId
  conversation : ConversationId
  message : MessageId
  temp : Mint
  mint : Mint
  now : DateTime

/-- A call of a client, whatever transport it comes by. -/
inductive Call where
  | registerAgent (name : String) (capabilities : Option AgentCapabilities)
  | heartbeatAgent (id : AgentId)
  | deregisterAgent (id : AgentId)
  | listAgents
  | createConversation (name : Option String) (participants : List AgentId)
  | listConversations
  | getConversation (id : ConversationId)
  | sendMessage (id : ConversationId) (sender : AgentId) (content : String)
  | getMessages (id : ConversationId)
  | listTools
  | getTool (name : String)
  | invokeTool (name : String) (input : Json)
  | submitTask (message : String) (contextId : Option ContextId) (assignee : Option AgentId)
      (deadlineMs : Option UInt64) (deadlineAt : Option DateTime)
  | getTask (id : TaskId)
  | listTasks (filter : TaskFilter)
  | cancelTask (id : TaskId)

inductive Answer where
  | agent (info : AgentInfo)
  | agents (infos : List AgentInfo)
  | conversation (conv : Conversation)
  | conversations (convs : List Conversation)
  | message (msg : ChatMessage)
  | messages (msgs : List ChatMessage)
  | tool (info : ToolInfo)
  | tools (infos : List ToolInfo)
  | invoked (result : ToolResult)
  | task (task : Task)
  | tasks (tasks : List Task)

def Answer.toJson (txt : TextForms) : Answer → Json
  | agent info => info.toJson txt
  | agents infos => .array (infos.map (AgentInfo.toJson txt))
  | conversation conv => conv.toJson txt
  | conversations convs => .array (convs.map (Conversation.toJson txt))
  | message msg => msg.toJson txt
  | messages msgs => .array (msgs.map (ChatMessage.toJson txt))
  | tool info => info.toJson
  | tools infos => .array (infos.map ToolInfo.toJson)
  | invoked result => (result.toJson txt).byName
  | task t => t.toJson txt
  | tasks ts => .array (ts.map (Task.toJson txt))

abbrev Outcome := Except Error Answer × AppState

section
variable (env : Env) (d : Draws) (s : AppState)

def invoker : ToolInvoker := ⟨s.tools, env.codeTools, s.tasks, s.registry⟩

/-- The instant a task is due, if any; nothing stands for an overflow. -/
def due (now : DateTime) (deadlineMs : Option UInt64) (deadlineAt : Option DateTime) :
    Option (Option DateTime) :=
  match deadlineAt with
  | some instant => some (some instant)
  | none => relativeDeadline now deadlineMs

/-- Nothing stands for a panic, and for a tool that runs out of `fuel`. -/
def call : Call → Option Outcome
  | .registerAgent name capabilities =>
    let r := s.registry.register d.agent d.now name capabilities
    some (r.1.map .agent, { s with registry := r.2 })
  | .heartbeatAgent id =>
    let r := s.registry.heartbeat id d.now
    some (r.1.map .agent, { s with registry := r.2 })
  | .deregisterAgent id =>
    let r := s.registry.deregister id
    some (r.1.map .agent, { s with registry := r.2 })
  | .listAgents => some (.ok (.agents s.registry.list), s)
  | .createConversation name participants =>
    let r := s.chat.createConversation d.conversation d.now name participants
    some (r.1.map .conversation, { s with chat := r.2 })
  | .listConversations => some (.ok (.conversations s.chat.listConversations), s)
  | .getConversation id =>
    match s.chat.getConversation id with
    | none => some (.error (.conversationNotFound id.toString), s)
    | some conv => some (.ok (.conversation conv), s)
  | .sendMessage id sender content =>
    let r := s.chat.sendMessage d.message d.now id sender content
    some (r.1.map .message, { s with chat := r.2 })
  | .getMessages id => some ((s.chat.getMessages id).map .messages, s)
  | .listTools => some (.ok (.tools s.tools.list), s)
  | .getTool name =>
    match s.tools.findByName name with
    | none => some (.error (.toolNotFound name), s)
    | some info => some (.ok (.tool info), s)
  | .invokeTool name input =>
    ((invoker env s).invoke env.host env.serialize env.fuel ⟨d.message, d.temp, d.mint⟩ name
      input).map fun r => (r.1.map .invoked, { s with tasks := r.2.tasks })
  | .submitTask message contextId assignee deadlineMs deadlineAt =>
    (due d.now deadlineMs deadlineAt).map fun deadline =>
      let r := TaskFacade.submitTaskWithDeadline s.registry s.tasks
        ⟨userMessage d.message message, contextId, assignee, none, deadline⟩ d.temp d.mint
      (r.1.map .task, { s with tasks := r.2 })
  | .getTask id =>
    match s.tasks.get id with
    | none => some (.error (.taskNotFound id.toString), s)
    | some task => some (.ok (.task task), s)
  | .listTasks filter => some (.ok (.tasks (s.tasks.listFiltered filter)), s)
  | .cancelTask id =>
    let r := s.tasks.cancel id none d.now
    some (r.1.map .task, { s with tasks := r.2 })

/-- The identifiers drawn are not in use. -/
structure Fresh : Prop where
  agent : s.registry.get d.agent = none
  conversation : s.chat.getConversation d.conversation = none
  task : s.tasks.get d.mint.id = none

end

/-! ## A call is at most one operation -/

/-- The operations that clients have. -/
inductive Client : AppState.Op → Prop
  | registerAgent (id : AgentId) (now : DateTime) (name : String)
    (caps : Option AgentCapabilities) : Client (.registerAgent id now name caps)
  | heartbeat (id : AgentId) (now : DateTime) : Client (.heartbeat id now)
  | deregisterAgent (id : AgentId) : Client (.deregisterAgent id)
  | createConversation (id : ConversationId) (now : DateTime) (name : Option String)
    (participants : List AgentId) : Client (.createConversation id now name participants)
  | sendMessage (id : MessageId) (now : DateTime) (conversationId : ConversationId)
    (sender : AgentId) (content : String) :
    Client (.sendMessage id now conversationId sender content)
  | createTask (mint : Mint) (args : NewTask) (creator : args.creator = none)
    (metadata : args.metadata = none) : Client (.createTask mint args)
  | cancel (id : TaskId) (now : DateTime) : Client (.cancel id none now)

variable {env : Env} {d : Draws} {s t : AppState}

/-- No client touches the tools. -/
theorem Client.tools {op : AppState.Op} (c : Client op) (h : s.apply op = some t) :
    t.tools = s.tools := by
  cases c with
  | registerAgent | createConversation | createTask =>
    simp only [AppState.apply, Option.ite_none_right_eq_some, Option.some.injEq] at h
    obtain ⟨-, rfl⟩ := h
    rfl
  | heartbeat | deregisterAgent | sendMessage | cancel =>
    cases h
    rfl

/-- What a request may come to: a refusal or an answer that changes nothing, or one
operation, answered. -/
inductive Comes {ε α : Type} (s : AppState) : Except ε α → AppState → Prop
  | refused (e : ε) : Comes s (.error e) s
  | read (a : α) : Comes s (.ok a) s
  | wrote (a : α) {op : AppState.Op} (client : Client op) {t : AppState}
    (h : s.apply op = some t) : Comes s (.ok a) t

section
variable {ε ε' α β : Type} {r : Except ε α}

theorem Comes.of_read (r : Except ε α) : Comes s r s := by
  cases r with
  | error e => exact .refused e
  | ok a => exact .read a

theorem Comes.map (h : Comes s r t) (f : α → β) : Comes s (r.map f) t := by
  cases h with
  | refused e => exact .refused e
  | read a => exact .read (f a)
  | wrote a client h => exact .wrote (f a) client h

theorem Comes.mapError (h : Comes s r t) (f : ε → ε') : Comes s (r.mapError f) t := by
  cases h with
  | refused e => exact .refused (f e)
  | read a => exact .read a
  | wrote a client h => exact .wrote a client h

theorem Comes.unchanged (h : Comes s r t) (failed : r.isOk = false) : t = s := by
  cases h with
  | refused => rfl
  | read | wrote => cases failed

end

theorem submit_comes (hf : s.tasks.get d.mint.id = none) {args : TaskFacade.Submission}
    (hm : args.metadata = none) :
    let r := TaskFacade.submitTaskWithDeadline s.registry s.tasks args d.temp d.mint
    Comes s r.1 { s with tasks := r.2 } := by
  rcases TaskFacade.submit_cases s.registry s.tasks args d.temp d.mint with
    ⟨e, -, he⟩ | ⟨resolved, -, hr⟩
  · rw [he]
    exact .refused e
  · rw [hr]
    refine .wrote _ (.createTask d.mint (args.newTask resolved) rfl hm) ?_
    simp only [AppState.apply, hf, Option.isNone_none, if_true]

theorem cancel_comes (id : TaskId) :
    Comes s (s.tasks.cancel id none d.now).1
      { s with tasks := (s.tasks.cancel id none d.now).2 } := by
  rcases TaskManager.updateStatus_cases s.tasks id .canceled none d.now with
    ⟨e, he⟩ | ⟨task, -, -, hr⟩
  · rw [TaskManager.cancel, he]
    exact .refused e
  · rw [TaskManager.cancel, hr]
    exact .wrote _ (.cancel id d.now) (by rw [AppState.apply, TaskManager.cancel, hr])

/-- An invocation fails or answers at once, or is one submission. -/
theorem invoke_cases {name : String} {input : Json} {r : Except Error ToolResult × ToolInvoker}
    (h : (invoker env s).invoke env.host env.serialize env.fuel ⟨d.message, d.temp, d.mint⟩ name
      input = some r) :
    (∃ e, r = (.error e, invoker env s)) ∨
    (∃ output, r = (.ok (.immediate output), invoker env s)) ∨
    ∃ args : TaskFacade.Submission, args.metadata = none ∧ r = (
      (TaskFacade.submitTaskWithDeadline s.registry s.tasks args d.temp d.mint).1.map .taskCreated,
      { invoker env s with tasks :=
        (TaskFacade.submitTaskWithDeadline s.registry s.tasks args d.temp d.mint).2 }) := by
  unfold ToolInvoker.invoke at h
  cases htool : (invoker env s).tools.findByName name with
  | none =>
    rw [htool] at h
    cases h
    exact .inl ⟨_, rfl⟩
  | some tool =>
    simp only [htool] at h
    cases hp : tool.provider with
    | builtIn =>
      simp only [hp] at h
      cases hct : (invoker env s).codeTools with
      | none =>
        rw [hct] at h
        cases h
        exact .inl ⟨_, rfl⟩
      | some ct =>
        simp only [hct, Option.map_eq_some_iff] at h
        obtain ⟨out, -, rfl⟩ := h
        cases out with
        | error e => exact .inl ⟨e, rfl⟩
        | ok output => exact .inr (.inl ⟨output, rfl⟩)
    | agent agentId =>
      simp only [hp, Option.some.injEq] at h
      subst h
      unfold ToolInvoker.invokeAgent
      cases (invoker env s).registry.get agentId with
      | none => exact .inl ⟨_, rfl⟩
      | some agent =>
        simp only
        split
        · exact .inl ⟨_, rfl⟩
        · cases env.serialize input with
          | error e => exact .inl ⟨_, rfl⟩
          | ok text => exact .inr (.inr ⟨_, rfl, rfl⟩)

theorem invoke_comes (hf : s.tasks.get d.mint.id = none) {name : String} {input : Json}
    {r : Except Error ToolResult × ToolInvoker}
    (h : (invoker env s).invoke env.host env.serialize env.fuel ⟨d.message, d.temp, d.mint⟩ name
      input = some r) :
    Comes s r.1 { s with tasks := r.2.tasks } := by
  rcases invoke_cases h with ⟨e, rfl⟩ | ⟨output, rfl⟩ | ⟨args, hm, rfl⟩
  · exact .refused e
  · exact .read _
  · exact (submit_comes hf hm).map _

/-- Whatever a client calls with fresh draws comes to at most one operation, and an
error to none. -/
theorem call_comes (hf : Fresh d s) {c : Call} {o : Outcome} (h : call env d s c = some o) :
    Comes s o.1 o.2 := by
  cases c with
  | registerAgent name caps =>
    cases h
    rcases AgentRegistry.register_cases s.registry d.agent d.now name caps with
      ⟨e, he⟩ | ⟨-, -, info, -, hr⟩
    · rw [he]
      exact .refused e
    · rw [hr]
      exact .wrote _ (.registerAgent d.agent d.now name caps)
        (by rw [AppState.apply, if_pos hf.agent, hr])
  | heartbeatAgent id =>
    cases h
    rcases AgentRegistry.heartbeat_cases s.registry id d.now with ⟨-, e, he⟩ | ⟨info, -, hr, -⟩
    · rw [he]
      exact .refused e
    · rw [hr]
      exact .wrote _ (.heartbeat id d.now) rfl
  | deregisterAgent id =>
    cases h
    rcases AgentRegistry.deregister_cases s.registry id with ⟨-, e, he⟩ | ⟨info, -, hr⟩
    · rw [he]
      exact .refused e
    · rw [hr]
      exact .wrote _ (.deregisterAgent id) (by rw [AppState.apply, hr])
  | createConversation name participants =>
    cases h
    rcases ChatManager.createConversation_cases s.chat d.conversation d.now name participants with
      ⟨e, he⟩ | ⟨-, hr⟩
    · rw [he]
      exact .refused e
    · rw [hr]
      exact .wrote _ (.createConversation d.conversation d.now name participants)
        (by rw [AppState.apply, if_pos hf.conversation, hr])
  | sendMessage id sender content =>
    cases h
    rcases ChatManager.sendMessage_cases s.chat d.message d.now id sender content with
      ⟨e, he⟩ | ⟨conv, -, -, hr⟩
    · rw [he]
      exact .refused e
    · rw [hr]
      exact .wrote _ (.sendMessage d.message d.now id sender content)
        (by rw [AppState.apply, hr])
  | submitTask message contextId assignee deadlineMs deadlineAt =>
    obtain ⟨deadline, -, rfl⟩ := Option.map_eq_some_iff.mp h
    exact Comes.map (submit_comes hf.task rfl) Answer.task
  | cancelTask id =>
    cases h
    exact (cancel_comes id).map Answer.task
  | invokeTool name input =>
    obtain ⟨r, hr, rfl⟩ := Option.map_eq_some_iff.mp h
    exact (invoke_comes hf.task hr).map Answer.invoked
  | getMessages id =>
    cases h
    exact .of_read _
  | getConversation id | getTool name | getTask id =>
    simp only [call] at h
    split at h <;> cases h
    · exact .refused _
    · exact .read _
  | listAgents | listConversations | listTools | listTasks filter =>
    cases h
    exact .read _

/-! ## Kinds of answers -/

/-- What a call is answered with, if it is not refused. -/
inductive Answers : Call → Answer → Prop
  | registerAgent {name caps} (info) : Answers (.registerAgent name caps) (.agent info)
  | heartbeatAgent {id} (info) : Answers (.heartbeatAgent id) (.agent info)
  | deregisterAgent {id} (info) : Answers (.deregisterAgent id) (.agent info)
  | listAgents (infos) : Answers .listAgents (.agents infos)
  | createConversation {name participants} (conv) :
    Answers (.createConversation name participants) (.conversation conv)
  | listConversations (convs) : Answers .listConversations (.conversations convs)
  | getConversation {id} (conv) : Answers (.getConversation id) (.conversation conv)
  | sendMessage {id sender content} (msg) : Answers (.sendMessage id sender content) (.message msg)
  | getMessages {id} (msgs) : Answers (.getMessages id) (.messages msgs)
  | listTools (infos) : Answers .listTools (.tools infos)
  | getTool {name} (info) : Answers (.getTool name) (.tool info)
  | invokeTool {name input} (result) : Answers (.invokeTool name input) (.invoked result)
  | submitTask {message contextId assignee deadlineMs deadlineAt} (task) :
    Answers (.submitTask message contextId assignee deadlineMs deadlineAt) (.task task)
  | getTask {id} (task) : Answers (.getTask id) (.task task)
  | listTasks {filter} (tasks) : Answers (.listTasks filter) (.tasks tasks)
  | cancelTask {id} (task) : Answers (.cancelTask id) (.task task)

theorem call_answers {c : Call} {a : Answer} (h : call env d s c = some (.ok a, t)) :
    Answers c a := by
  cases c with
  | registerAgent | heartbeatAgent | deregisterAgent | createConversation | sendMessage
  | getMessages | cancelTask =>
    obtain ⟨x, -, rfl⟩ := Except.of_map_ok (Prod.mk.inj (Option.some.inj h)).1
    constructor
  | listAgents | listConversations | listTools | listTasks =>
    cases h
    constructor
  | getConversation | getTool | getTask =>
    simp only [call] at h
    split at h <;> cases h
    constructor
  | submitTask | invokeTool =>
    obtain ⟨o, -, ho⟩ := Option.map_eq_some_iff.mp h
    obtain ⟨x, -, rfl⟩ := Except.of_map_ok (Prod.mk.inj ho).1
    constructor

end Nexus

end Trumpet
