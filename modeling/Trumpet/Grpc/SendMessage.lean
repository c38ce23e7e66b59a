import Trumpet.Core.TaskFacade
import Trumpet.Grpc.TaskStream

/-! The two sending calls of the A2A service, and the agent their task is assigned to. -/

namespace Trumpet

namespace Proto

structure SendMessageRequest where
  message : Option Message
  metadata : Option Struct

inductive SendMessageResponse where
  | task (task : Task)

def Struct.get (s : Struct) (name : String) : Option Value :=
  (s.fields.find? fun f => f.1 = name).map Prod.snd

end Proto

namespace A2aService

variable (parse : String → Option Uuid)

/-- What a sending call draws: an id for a message that has none, and the identifiers
of the router's task and of the one it creates. -/
structure SendDraws where
  message : MessageId
  temp : Mint
  mint : Mint

def contextIdOf (text : String) : Except Status (Option ContextId) :=
  if text = "" then .ok none
  else
    match parse text with
    | some id => .ok (some ⟨id⟩)
    | none => .error (.invalidArgument "invalid context_id")

/-- What both sending calls submit. -/
def submission (fresh : MessageId) (req : Proto.SendMessageRequest) :
    Except Status TaskFacade.Submission :=
  match req.message with
  | none => .error (.invalidArgument "message is required")
  | some msg => do
    let coreMsg ← Convert.protoMessageToCore parse fresh msg
    let contextId ← contextIdOf parse msg.contextId
    -- Neither metadata of the request is handed on.
    pure ⟨coreMsg, contextId, none, none, none⟩

def submitTask (reg : AgentRegistry) (mgr : TaskManager) (draws : SendDraws)
    (req : Proto.SendMessageRequest) : Except Status Task × TaskManager :=
  match submission parse draws.message req with
  | .error e => (.error e, mgr)
  | .ok args =>
    let (task, mgr) := TaskFacade.submitTaskWithDeadline reg mgr args draws.temp draws.mint
    (task.mapError fun e => .internal e.toString, mgr)

def sendMessage (reg : AgentRegistry) (mgr : TaskManager) (draws : SendDraws)
    (req : Proto.SendMessageRequest) : Except Status Proto.SendMessageResponse × TaskManager :=
  let (task, mgr) := submitTask parse reg mgr draws req
  (task.map fun task => .task (Convert.coreTaskToProto task), mgr)

/-- The stream's worker starts with the task. -/
def sendStreamingMessage (reg : AgentRegistry) (mgr : TaskManager) (draws : SendDraws)
    (req : Proto.SendMessageRequest) : Except Status Subscriber × TaskManager :=
  let (task, mgr) := submitTask parse reg mgr draws req
  (task.map fun task => StreamSystem.spawnTaskStream ⟨mgr, .read task⟩ task, mgr)

/-! ## The assignee -/

/-- The tags of an array of strings named `required_tags` in the metadata of the
request or of its message. -/
def Requires (req : Proto.SendMessageRequest) (tag : String) : Prop :=
  ∃ (metadata : Proto.Struct) (tags : List String),
    (req.metadata = some metadata ∨ ∃ msg, req.message = some msg ∧ msg.metadata = some metadata) ∧
      metadata.get "required_tags" = some (.listValue (tags.map .stringValue)) ∧ tag ∈ tags

/-- The agent is connected and carries every required tag. -/
structure Qualified (req : Proto.SendMessageRequest) (a : AgentInfo) : Prop where
  connected : a.status = .connected
  carries : ∀ tag, Requires req tag → ∃ caps, a.capabilities = some caps ∧ tag ∈ caps.skillTags

/-- The task is assigned to a qualified agent, if it is assigned. -/
structure Routed (reg : AgentRegistry) (req : Proto.SendMessageRequest) (task : Task) : Prop where
  assigned : ∀ id, task.assignee = some id → ∃ a ∈ reg.list, a.id = id ∧ Qualified req a
  unassigned : (∀ a ∈ reg.list, ¬ Qualified req a) → task.assignee = none

/-- The first connected agent of the registry, if it has one, is qualified. -/
def FirstQualified (reg : AgentRegistry) (req : Proto.SendMessageRequest) : Prop :=
  ∀ before a after, reg.list = before ++ a :: after → (∀ b ∈ before, b.status ≠ .connected) →
    a.status = .connected → Qualified req a

/-- A message that is accepted is submitted without an assignee and without metadata. -/
theorem submission_eq {fresh : MessageId} {req : Proto.SendMessageRequest}
    {args : TaskFacade.Submission} (h : submission parse fresh req = .ok args) :
    args.assignee = none ∧ args.metadata = none := by
  unfold submission at h
  cases hm : req.message with
  | none =>
    rw [hm] at h
    cases h
  | some msg =>
    simp only [hm, bind, Except.bind] at h
    cases hc : Convert.protoMessageToCore parse fresh msg with
    | error e =>
      rw [hc] at h
      cases h
    | ok coreMsg =>
      rw [hc] at h
      cases hx : contextIdOf parse msg.contextId with
      | error e =>
        simp only [hx] at h
        cases h
      | ok contextId =>
        simp only [hx] at h
        cases h
        exact ⟨rfl, rfl⟩

/-- Without an assignee and metadata the router takes the first connected agent. -/
theorem resolveAssignee_eq {reg : AgentRegistry} {args : TaskFacade.Submission} {temp : Mint}
    (ha : args.assignee = none) (hm : args.metadata = none) :
    TaskFacade.resolveAssignee reg args temp =
      .ok ((reg.list.find? DefaultTaskRouter.connected).map AgentInfo.id) := by
  have htags : DefaultTaskRouter.requiredTags (args.temp temp) = [] := by
    unfold DefaultTaskRouter.requiredTags TaskFacade.Submission.temp
    rw [hm]
    rfl
  have hexplicit : DefaultTaskRouter.explicit (args.temp temp) reg.list = none := rfl
  unfold TaskFacade.resolveAssignee
  rw [ha]
  simp only [DefaultTaskRouter.selectAgent, hexplicit, htags]
  rfl

/-- The task a sending call creates is stored, assigned to the first connected agent. -/
theorem submitTask_ok {reg : AgentRegistry} {mgr : TaskManager} {draws : SendDraws}
    {req : Proto.SendMessageRequest} {task : Task}
    (h : (submitTask parse reg mgr draws req).1 = .ok task) :
    (submitTask parse reg mgr draws req).2.get task.id = some task ∧
      task.assignee = (reg.list.find? DefaultTaskRouter.connected).map AgentInfo.id := by
  unfold submitTask at h ⊢
  cases hs : submission parse draws.message req with
  | error e =>
    rw [hs] at h
    cases h
  | ok args =>
    obtain ⟨ha, hm⟩ := submission_eq parse hs
    simp only [hs, TaskFacade.submitTaskWithDeadline, resolveAssignee_eq ha hm] at h ⊢
    cases h
    refine ⟨?_, rfl⟩
    exact (TaskManager.get_createTaskWithDeadline _ _ _ _).trans (if_pos rfl)

/-- A task of the first connected agent is routed exactly if that agent is qualified. -/
theorem routed_iff {reg : AgentRegistry} {task : Task} (req : Proto.SendMessageRequest)
    (h : task.assignee = (reg.list.find? DefaultTaskRouter.connected).map AgentInfo.id) :
    Routed reg req task ↔ FirstQualified reg req := by
  constructor
  · intro hr before a after hlist hbefore hc
    have hfind : reg.list.find? DefaultTaskRouter.connected = some a := by
      rw [List.find?_eq_some_iff_append]
      refine ⟨decide_eq_true hc, before, after, hlist, ?_⟩
      intro b hb
      rw [DefaultTaskRouter.connected, decide_eq_false (hbefore b hb)]
      rfl
    rw [hfind] at h
    obtain ⟨b, hb, hid, hq⟩ := hr.assigned a.id h
    have ha : a ∈ reg.list := List.mem_of_find?_eq_some hfind
    have hget := KeyedMap.get_of_mem (m := reg.agents) hb
    rw [hid, KeyedMap.get_of_mem (m := reg.agents) ha] at hget
    cases hget
    exact hq
  · intro hf
    cases hfind : reg.list.find? DefaultTaskRouter.connected with
    | none =>
      rw [hfind] at h
      refine ⟨fun id hid => ?_, fun _ => h⟩
      rw [h] at hid
      cases hid
    | some a =>
      rw [hfind] at h
      obtain ⟨hc, before, after, hlist, hbefore⟩ := List.find?_eq_some_iff_append.mp hfind
      have ha : a ∈ reg.list := List.mem_of_find?_eq_some hfind
      have hq : Qualified req a := by
        apply hf before a after hlist
        · intro b hb hbc
          have hnot := hbefore b hb
          rw [DefaultTaskRouter.connected, decide_eq_true hbc] at hnot
          cases hnot
        · exact of_decide_eq_true hc
      refine ⟨fun id hid => ?_, fun hall => absurd hq (hall a ha)⟩
      rw [h] at hid
      exact ⟨a, ha, Option.some.inj hid, hq⟩

/-- Whichever call creates it, the task goes to a connected agent with all tags the
request requires exactly if the first connected agent of the registry has them. -/
theorem send_routed_iff (reg : AgentRegistry) (mgr : TaskManager) (draws : SendDraws)
    (req : Proto.SendMessageRequest) :
    (∀ resp, (sendMessage parse reg mgr draws req).1 = .ok resp →
      ∃ task, resp = .task (Convert.coreTaskToProto task) ∧
        (sendMessage parse reg mgr draws req).2.get task.id = some task ∧
        (Routed reg req task ↔ FirstQualified reg req)) ∧
    ∀ sub, (sendStreamingMessage parse reg mgr draws req).1 = .ok sub →
      ∃ task, sub.latest = some task ∧
        (sendStreamingMessage parse reg mgr draws req).2.get task.id = some task ∧
        (Routed reg req task ↔ FirstQualified reg req) := by
  unfold sendMessage sendStreamingMessage
  cases hs : (submitTask parse reg mgr draws req).1 with
  | error e =>
    refine ⟨fun resp h => ?_, fun sub h => ?_⟩
    · simp only [hs] at h
      cases h
    · simp only [hs] at h
      cases h
  | ok task =>
    obtain ⟨hget, ha⟩ := submitTask_ok parse hs
    refine ⟨fun resp h => ?_, fun sub h => ?_⟩
    · simp only [hs] at h
      cases h
      exact ⟨task, rfl, hget, routed_iff req ha⟩
    · simp only [hs] at h
      cases h
      exact ⟨task, rfl, hget, routed_iff req ha⟩

/-! ## A request for a tag no agent has -/

/-- A connected agent without capabilities. -/
def sampleWriter : AgentInfo := ⟨⟨.ofOctet 1⟩, "writer", 0, 0, .connected, none⟩

def sampleTags : Proto.Struct := ⟨[("required_tags", .listValue [.stringValue "rust"])]⟩

def sampleSend : Proto.SendMessageRequest :=
  { message := some
      { messageId := ""
        contextId := ""
        taskId := ""
        role := .user
        parts := [⟨some (.text "review"), none, "", ""⟩]
        metadata := some sampleTags
        extensions := []
        referenceTaskIds := [] }
    metadata := some sampleTags }

def sampleDraws : SendDraws :=
  ⟨⟨.ofOctet 2⟩, ⟨⟨.ofOctet 3⟩, ⟨.ofOctet 4⟩, 0⟩, ⟨⟨.ofOctet 5⟩, ⟨.ofOctet 6⟩, 0⟩⟩

theorem sampleWriter_unqualified : ¬ Qualified sampleSend sampleWriter := by
  intro h
  obtain ⟨caps, hcaps, _⟩ :=
    h.carries "rust" ⟨sampleTags, ["rust"], .inl rfl, rfl, List.mem_singleton.mpr rfl⟩
  cases hcaps

/-- Both calls assign the task to the agent without the tag. -/
theorem send_ignores_required_tags :
    ∃ (reg : AgentRegistry) (task : Task) (sub : Subscriber),
      (sendMessage (fun _ => none) reg .new sampleDraws sampleSend).1 =
        .ok (.task (Convert.coreTaskToProto task)) ∧
      (sendStreamingMessage (fun _ => none) reg .new sampleDraws sampleSend).1 = .ok sub ∧
      sub.latest = some task ∧ task.assignee = some sampleWriter.id ∧
      ¬ Routed reg sampleSend task := by
  refine ⟨AgentRegistry.new.restore [sampleWriter], _, _, rfl, rfl, rfl, rfl, fun h => ?_⟩
  obtain ⟨a, ha, _, hq⟩ := h.assigned sampleWriter.id rfl
  obtain rfl : a = sampleWriter := List.mem_singleton.mp ha
  exact sampleWriter_unqualified hq

end A2aService

end Trumpet
