import Trumpet.Core.CodeSandbox
import Trumpet.Core.EventJson
import Trumpet.Core.JsonText
import Trumpet.Core.TaskFacade
import Trumpet.Core.Tools

/-! Invoking a tool: a built-in one runs in the daemon, one of an agent becomes a task. -/

namespace Trumpet

/-! ## The code tools by name -/

def Json.nat (n : Nat) : Json := .number (.posInt (.ofNat n))

def FileEntry.toJson (e : FileEntry) : Json :=
  .object [("path", .string e.path), ("language", .option .string e.language),
    ("size_bytes", .nat e.sizeBytes), ("line_count", .nat e.lineCount)]

def ScanResult.toJson (r : ScanResult) : Json :=
  .object [("files", .array (r.files.map FileEntry.toJson)), ("total_found", .nat r.totalFound),
    ("truncated", .bool r.truncated)]

def ReadResult.toJson (r : ReadResult) : Json :=
  .object [("path", .string r.path), ("language", .option .string r.language),
    ("content", .string r.content), ("line_count", .nat r.lineCount)]

def ParseResult.toJson (r : ParseResult) : Json :=
  .object [("path", .string r.path), ("language", .option .string r.language),
    ("items", r.items)]

/-- Each result has a JSON form, and is given as a value; undefined when a scan runs out of
`fuel`. -/
def CodeTools.dispatch (host : Host) (self : CodeTools) (fuel : Nat) (name : String)
    (input : Json) : Option (Except Error Json) :=
  match (input.get "path").bind Json.asStr with
  | none =>
    some (.error (.toolInvocationFailed name "missing required 'path' parameter"))
  | some path =>
    match name with
    | "code.scan_repo" =>
      (self.scanRepo host fuel path).map (Except.map fun result => result.toJson.byName)
    | "code.read_file" =>
      some ((self.readFile host path).map fun result => result.toJson.byName)
    | "code.parse_file" =>
      some ((self.parseFile host path).map fun result => result.toJson.byName)
    | _ => some (.error (.toolNotFound name))

/-- Every dispatch ends. -/
theorem CodeTools.dispatch_total (host : Host) (self : CodeTools) (name : String)
    (input : Json) : ∃ r, ∀ fuel, sizeOf host.tree.root < fuel →
      self.dispatch host fuel name input = some r := by
  unfold CodeTools.dispatch
  cases (input.get "path").bind Json.asStr with
  | none => exact ⟨_, fun _ _ => rfl⟩
  | some path =>
    simp only
    split
    · obtain ⟨r, hr⟩ := CodeTools.scanRepo_total host self path
      exact ⟨r.map fun result => result.toJson.byName, fun fuel hfuel => by rw [hr fuel hfuel]; rfl⟩
    · exact ⟨_, fun _ _ => rfl⟩
    · exact ⟨_, fun _ _ => rfl⟩
    · exact ⟨_, fun _ _ => rfl⟩

/-! ## Invocation -/

inductive ToolResult where
  | immediate (output : Json)
  | taskCreated (task : Task)

/-- The stores an invocation works on; the facade's own are `tasks` and `registry`. -/
structure ToolInvoker where
  tools : ToolRegistry
  codeTools : Option CodeTools
  tasks : TaskManager
  registry : AgentRegistry

/-- What an invocation draws: the id of its message, and of its task. -/
structure InvocationDraws where
  message : MessageId
  temp : Mint
  mint : Mint

namespace ToolInvoker

variable (host : Host) (serialize : Json → Except String String)

def toolMessage (id : MessageId) (name text : String) : TaskMessage :=
  ⟨id, .user, [.text text], some (.object [("tool_name", .string name)])⟩

/-- A tool of an agent: the agent is looked up here and again by the facade. -/
def invokeAgent (self : ToolInvoker) (draws : InvocationDraws) (name : String) (input : Json)
    (agentId : AgentId) : Except Error ToolResult × ToolInvoker :=
  match self.registry.get agentId with
  | none => (.error (.toolProviderUnavailable name), self)
  | some agent =>
    if agent.status ≠ .connected then (.error (.toolProviderUnavailable name), self)
    else match serialize input with
      | .error e =>
        (.error (.toolInvocationFailed name ("failed to serialize input: " ++ e)), self)
      | .ok text =>
        let args : TaskFacade.Submission :=
          ⟨toolMessage draws.message name text, none, some agentId, none, none⟩
        let r := TaskFacade.submitTaskWithDeadline self.registry self.tasks args draws.temp
          draws.mint
        (r.1.map .taskCreated, { self with tasks := r.2 })

/-- Undefined when a scan runs out of `fuel`. -/
def invoke (self : ToolInvoker) (fuel : Nat) (draws : InvocationDraws) (name : String)
    (input : Json) : Option (Except Error ToolResult × ToolInvoker) :=
  match self.tools.findByName name with
  | none => some (.error (.toolNotFound name), self)
  | some info =>
    match info.provider with
    | .builtIn =>
      match self.codeTools with
      | none =>
        some (.error (.toolInvocationFailed name "built-in tools not initialized"), self)
      | some ct =>
        (ct.dispatch host fuel name input).map fun r => (r.map .immediate, self)
    | .agent agentId => some (self.invokeAgent serialize draws name input agentId)

/-! ## All or nothing -/

/-- The one task an invocation created, and nothing else. Its message is the user's,
with the serialized input for its text and the tool's name beside it. -/
structure Created (self : ToolInvoker) (draws : InvocationDraws) (name : String)
    (input : Json) (task : Task) (after : ToolInvoker) : Prop where
  provider : ∃ tool agentId info, self.tools.findByName name = some tool ∧
    tool.provider = .agent agentId ∧ task.assignee = some agentId ∧
    self.registry.get agentId = some info ∧ info.status = .connected
  message : ∃ text msg, serialize input = .ok text ∧ msg.id = draws.message ∧ msg.role = .user ∧
    msg.parts = [.text text] ∧ msg.metadata = some (.object [("tool_name", .string name)]) ∧
    task.status = ⟨.submitted, some msg, draws.mint.now⟩ ∧ task.history = [msg]
  unused : self.tasks.get task.id = none
  stored : ∀ id, after.tasks.get id = if id = task.id then some task else self.tasks.get id
  eventTx : after.tasks.eventTx = self.tasks.eventTx ++ [.taskCreated task]
  published : after.tasks.bus.published = self.tasks.bus.published ++ [.taskCreated task]
  rest : after = { self with tasks := after.tasks }

/-- The stores are untouched, unless a task is created. -/
def AllOrNothing (self : ToolInvoker) (draws : InvocationDraws) (name : String)
    (input : Json) : Except Error ToolResult × ToolInvoker → Prop
  | (.ok (.taskCreated task), after) => Created serialize self draws name input task after
  | (.ok (.immediate _), after) => after = self
  | (.error _, after) => after = self

variable {host} {serialize}

/-- A submission for a connected agent creates the task. -/
theorem submit_connected {reg : AgentRegistry} {id : AgentId} {info : AgentInfo}
    (hg : reg.get id = some info) (hc : info.status = .connected) (mgr : TaskManager)
    (message : TaskMessage) (temp mint : Mint) :
    let args : TaskFacade.Submission := ⟨message, none, some id, none, none⟩
    TaskFacade.submitTaskWithDeadline reg mgr args temp mint =
      mgr.createTaskWithDeadline mint (args.newTask (some id)) := by
  intro args
  unfold TaskFacade.submitTaskWithDeadline TaskFacade.resolveAssignee
  simp only [args, hg, hc, ne_eq, not_true_eq_false, if_false]

theorem invokeAgent_allOrNothing {self : ToolInvoker} {draws : InvocationDraws}
    (fresh : self.tasks.get draws.mint.id = none) {name : String} (input : Json) {tool : ToolInfo}
    {agentId : AgentId} (htool : self.tools.findByName name = some tool)
    (hprovider : tool.provider = .agent agentId) :
    AllOrNothing serialize self draws name input
      (self.invokeAgent serialize draws name input agentId) := by
  unfold invokeAgent
  cases hg : self.registry.get agentId with
  | none => rfl
  | some info =>
    by_cases hc : info.status = .connected
    · simp only [hc, ne_eq, not_true_eq_false, if_false]
      cases ht : serialize input with
      | error e => rfl
      | ok text =>
        simp only [submit_connected hg hc]
        refine ⟨⟨tool, agentId, info, htool, hprovider, rfl, hg, hc⟩,
          ⟨text, _, ht, rfl, rfl, rfl, rfl, rfl, rfl⟩, fresh, ?_, rfl, rfl, rfl⟩
        intro id
        exact TaskManager.get_createTaskWithDeadline self.tasks draws.mint _ id
    · simp only [hc, ne_eq, not_false_eq_true, if_true]
      rfl

/-- An invocation ends. It fails or answers at once with every store untouched, or
creates one task for the connected agent that provides the tool. -/
theorem invoke_allOrNothing (self : ToolInvoker) {draws : InvocationDraws}
    (fresh : self.tasks.get draws.mint.id = none) (name : String) (input : Json) :
    ∃ r, (∀ fuel, sizeOf host.tree.root < fuel →
        self.invoke host serialize fuel draws name input = some r) ∧
      AllOrNothing serialize self draws name input r := by
  unfold invoke
  cases htool : self.tools.findByName name with
  | none => exact ⟨_, fun _ _ => rfl, rfl⟩
  | some tool =>
    simp only
    cases hprovider : tool.provider with
    | agent agentId =>
      exact ⟨_, fun _ _ => rfl, invokeAgent_allOrNothing fresh input htool hprovider⟩
    | builtIn =>
      cases self.codeTools with
      | none => exact ⟨_, fun _ _ => rfl, rfl⟩
      | some ct =>
        obtain ⟨r, hr⟩ := ct.dispatch_total host name input
        refine ⟨(r.map .immediate, self), fun fuel hfuel => ?_, ?_⟩
        · simp only [hr fuel hfuel]
          rfl
        · cases r with
          | error e => rfl
          | ok output => rfl

/-! ### A tool of a connected agent -/

def sampleProvider : AgentInfo := ⟨⟨.ofOctet 1⟩, "agent", 0, 0, .connected, none⟩

/-- An agent and its one tool. -/
def sampleInvoker : ToolInvoker where
  tools := ToolRegistry.new.restore
    [⟨⟨.ofOctet 2⟩, "echo", "echoes", .null, .null, .agent sampleProvider.id⟩]
  codeTools := none
  tasks := .new
  registry := AgentRegistry.new.restore [sampleProvider]

def sampleDraws : InvocationDraws :=
  let mint : Mint := ⟨⟨.ofOctet 3⟩, ⟨.ofOctet 4⟩, 0⟩
  ⟨⟨.ofOctet 5⟩, mint, mint⟩

theorem invoke_allOrNothing_echo :
    let host := CodeTools.sampleHost
    let serialize : Json → Except String String := fun json => .ok json.compact
    (∃ r, (∀ fuel, sizeOf host.tree.root < fuel →
        sampleInvoker.invoke host serialize fuel sampleDraws "echo" (.object []) = some r) ∧
      AllOrNothing serialize sampleInvoker sampleDraws "echo" (.object []) r) ∧
    ∃ task after, sampleInvoker.invoke host serialize 0 sampleDraws "echo" (.object []) =
      some (.ok (.taskCreated task), after) :=
  ⟨invoke_allOrNothing sampleInvoker rfl "echo" (.object []), _, _, rfl⟩

end ToolInvoker

end Trumpet
