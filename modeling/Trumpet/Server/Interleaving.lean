import Trumpet.Core.TaskFacade
import Trumpet.Lib.Transition
import Trumpet.Server.State

/-! The daemon at lock-acquisition granularity: requests, the watchdog sweep and
restarts, one step for each stretch under one lock. -/

namespace Trumpet

/-- A submission that has resolved its assignee and waits for the task lock. -/
structure PendingSubmit where
  args : TaskFacade.Submission
  resolved : Option AgentId

/-- Where the watchdog's sweep stands between two lock acquisitions. -/
inductive Sweep where
  | idle
  | collected (now cutoff : DateTime) (ids : List AgentId)
  | failing (now : DateTime) (ids : List AgentId)
  | scanning (now : DateTime)
  | expiring (todo : List (TaskId × TaskState))

/-- The flipped agents whose tasks the sweep has yet to fail. -/
def Sweep.awaiting : Sweep → List AgentId
  | failing _ ids => ids
  | _ => []

/-- `saved` holds every snapshot taken so far. -/
structure Nexus where
  app : AppState
  submits : List PendingSubmit
  sweep : Sweep
  saved : List StateSnapshot

namespace Nexus

inductive Label where
  | register (id : AgentId) (now : DateTime) (name : String)
      (capabilities : Option AgentCapabilities)
  | heartbeat (id : AgentId) (now : DateTime)
  | resolve (args : TaskFacade.Submission) (mint : Mint)
  | create (i : Nat) (mint : Mint)
  | updateStatus (id : TaskId) (new : TaskState) (message : Option TaskMessage) (now : DateTime)
  | cancel (id : TaskId) (message : Option TaskMessage) (now : DateTime)
  | collect (now : DateTime)
  | flip
  | failAgent (draw : Watchdog.Draws)
  | scan
  | expire (draw : Watchdog.Draws)
  | save
  | restart (i : Nat) (ids : String → ToolId)
  | reorderAgents (ids : List AgentId)
  | reorderTasks (ids : List TaskId)

/-- A daemon first started without a snapshot. -/
def start (ids : String → ToolId) : Nexus := ⟨.start none ids, [], .idle, []⟩

def setRegistry (s : Nexus) (registry : AgentRegistry) : Nexus :=
  { s with app := { s.app with registry := registry } }

def setTasks (s : Nexus) (tasks : TaskManager) : Nexus :=
  { s with app := { s.app with tasks := tasks } }

/-- Phase 1 has run: without a stale agent the sweep goes on to the deadlines. -/
def afterCollect (now cutoff : DateTime) : List AgentId → Sweep
  | [] => .scanning now
  | id :: ids => .collected now cutoff (id :: ids)

/-- One agent's tasks have been failed. -/
def afterFail (now : DateTime) : List AgentId → Sweep
  | [] => .scanning now
  | id :: ids => .failing now (id :: ids)

/-- The deadlines have been read: without an expired task the sweep is over. -/
def afterScan : List (TaskId × TaskState) → Sweep
  | [] => .idle
  | todo :: todos => .expiring (todo :: todos)

/-- One step; `timeout` is the configured silence window. A collection whose
cutoff cannot be computed panics and is not a step. -/
def step (timeout : Nat) (s : Nexus) : Label → Option Nexus
  | .register id now name caps =>
    if s.app.registry.get id = none then
      some (s.setRegistry (s.app.registry.register id now name caps).2)
    else none
  | .heartbeat id now => some (s.setRegistry (s.app.registry.heartbeat id now).2)
  | .resolve args mint =>
    match TaskFacade.resolveAssignee s.app.registry args mint with
    | .error _ => some s
    | .ok resolved => some { s with submits := s.submits ++ [⟨args, resolved⟩] }
  | .create i mint =>
    match s.submits[i]? with
    | none => none
    | some p =>
      if (s.app.tasks.get mint.id).isSome then none
      else some { s.setTasks
          (s.app.tasks.createTaskWithDeadline mint (p.args.newTask p.resolved)).2 with
        submits := s.submits.eraseIdx i }
  | .updateStatus id new message now =>
    some (s.setTasks (s.app.tasks.updateStatus id new message now).2)
  | .cancel id message now => some (s.setTasks (s.app.tasks.cancel id message now).2)
  | .collect now =>
    match s.sweep, Watchdog.cutoff now timeout with
    | .idle, some cutoff =>
      some { s with
        sweep := afterCollect now cutoff (Watchdog.staleIds s.app.registry cutoff) }
    | _, _ => none
  | .flip =>
    match s.sweep with
    | .collected now _ ids =>
      some { s.setRegistry (Watchdog.flip s.app.registry ids) with sweep := .failing now ids }
    | _ => none
  | .failAgent draw =>
    match s.sweep with
    | .failing now (id :: ids) =>
      some { s.setTasks (Watchdog.failInFlight s.app.tasks id draw) with
        sweep := afterFail now ids }
    | _ => none
  | .scan =>
    match s.sweep with
    | .scanning now => some { s with sweep := afterScan (Watchdog.expired s.app.tasks now) }
    | _ => none
  | .expire draw =>
    match s.sweep with
    | .expiring todo =>
      some { s.setTasks (Watchdog.failExpired s.app.tasks todo draw) with sweep := .idle }
    | _ => none
  | .save => some { s with saved := s.saved ++ [s.app.toSnapshot] }
  | .restart i ids =>
    match s.saved[i]? with
    | none => none
    | some snapshot => some ⟨.start (some snapshot) ids, [], .idle, s.saved⟩
  | .reorderAgents ids => some (s.setRegistry (s.app.registry.reorder ids))
  | .reorderTasks ids => some (s.setTasks (s.app.tasks.reorder ids))

/-- No submission and no sweep is in progress. -/
def Quiescent (s : Nexus) : Prop := s.submits = [] ∧ s.sweep = .idle

@[simp] theorem awaiting_afterCollect (now cutoff : DateTime) (ids : List AgentId) :
    (afterCollect now cutoff ids).awaiting = [] := by
  cases ids <;> rfl

@[simp] theorem awaiting_afterFail (now : DateTime) (ids : List AgentId) :
    (afterFail now ids).awaiting = ids := by
  cases ids <;> rfl

@[simp] theorem awaiting_afterScan (todo : List (TaskId × TaskState)) :
    (afterScan todo).awaiting = [] := by
  cases todo <;> rfl

end Nexus

end Trumpet
