import Trumpet.Core.Registry
import Trumpet.Core.Router
import Trumpet.Core.TaskManager

/-! Submitting a task: the assignee is resolved under the registry lock, the
task is then created under the task lock. -/

namespace Trumpet

namespace TaskFacade

/-- The caller's arguments of a submission. -/
structure Submission where
  message : TaskMessage
  contextId : Option ContextId
  assignee : Option AgentId
  metadata : Option Json
  deadline : Option DateTime

/-- The temporary task the router inspects. -/
def Submission.temp (args : Submission) (mint : Mint) : Task :=
  { id := mint.id
    contextId := args.contextId.getD mint.contextId
    status := ⟨.submitted, none, mint.now⟩
    artifacts := []
    history := []
    metadata := args.metadata
    assignee := none
    creator := none
    deadline := args.deadline }

def Submission.newTask (args : Submission) (resolved : Option AgentId) : NewTask :=
  ⟨args.message, args.contextId, resolved, none, args.metadata, args.deadline⟩

/-- The part of `submit_task_with_deadline` that runs under the registry lock:
a pinned assignee must be known and connected, otherwise the router selects. -/
def resolveAssignee (reg : AgentRegistry) (args : Submission) (mint : Mint) :
    Except Error (Option AgentId) :=
  match args.assignee with
  | some id =>
    match reg.get id with
    | none => .error (.agentNotFound id.toString)
    | some info =>
      if info.status ≠ .connected then .error (.agentDisconnected info.name)
      else .ok (some id)
  | none => .ok (DefaultTaskRouter.selectAgent (args.temp mint) reg.list)

/-- A submission with nothing between its two locks. The router sees a task of its
own, `temp`. -/
def submitTaskWithDeadline (reg : AgentRegistry) (mgr : TaskManager) (args : Submission)
    (temp mint : Mint) : Except Error Task × TaskManager :=
  match resolveAssignee reg args temp with
  | .error e => (.error e, mgr)
  | .ok resolved => mgr.createTaskWithDeadline mint (args.newTask resolved)

/-- A submission is refused and changes nothing, or creates the task for the
assignee it resolved to. -/
theorem submit_cases (reg : AgentRegistry) (mgr : TaskManager) (args : Submission)
    (temp mint : Mint) :
    (∃ e, resolveAssignee reg args temp = .error e ∧
      submitTaskWithDeadline reg mgr args temp mint = (.error e, mgr)) ∨
    ∃ resolved, resolveAssignee reg args temp = .ok resolved ∧
      submitTaskWithDeadline reg mgr args temp mint =
        mgr.createTaskWithDeadline mint (args.newTask resolved) := by
  unfold submitTaskWithDeadline
  cases resolveAssignee reg args temp with
  | error e => exact .inl ⟨e, rfl, rfl⟩
  | ok resolved => exact .inr ⟨resolved, rfl, rfl⟩

/-- A submission is refused, or stores its task with the deadline it was given. -/
theorem submit_stores (reg : AgentRegistry) (mgr : TaskManager)
    (args : Submission) (temp mint : Mint) :
    (∃ e, (submitTaskWithDeadline reg mgr args temp mint).1 = .error e) ∨
    ∃ task, (submitTaskWithDeadline reg mgr args temp mint).1 = .ok task ∧
      (submitTaskWithDeadline reg mgr args temp mint).2.get task.id = some task ∧
      task.deadline = args.deadline := by
  rcases submit_cases reg mgr args temp mint with ⟨e, -, h⟩ | ⟨resolved, -, h⟩
  · exact .inl ⟨e, by rw [h]⟩
  · rw [h]
    refine .inr ⟨TaskManager.created mint (args.newTask resolved), rfl, ?_, rfl⟩
    exact (TaskManager.get_createTaskWithDeadline _ _ _ _).trans (if_pos rfl)

/-- A resolved assignee is connected in the registry it was resolved against. -/
theorem resolveAssignee_connected {reg : AgentRegistry} {args : Submission} {mint : Mint}
    {id : AgentId} (h : resolveAssignee reg args mint = .ok (some id)) :
    ∃ info, reg.get id = some info ∧ info.status = .connected := by
  unfold resolveAssignee at h
  split at h
  · split at h
    · cases h
    · rename_i info hg
      split at h
      · cases h
      · rename_i hs
        cases h
        exact ⟨info, hg, Decidable.of_not_not hs⟩
  · obtain ⟨a, ha, rfl, hc⟩ :=
      DefaultTaskRouter.selectAgent_connected (Except.ok.inj h)
    exact ⟨a, KeyedMap.get_of_mem ha, hc⟩

end TaskFacade

end Trumpet
