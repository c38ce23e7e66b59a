import Trumpet.Core.ContextIndex
import Trumpet.Core.Lifecycle

/-! Filtered listings over runs of any length: what the context index finds is what a
scan of all tasks finds. -/

namespace Trumpet

namespace TaskManager

/-- Reading every task and keeping those that satisfy every field of the filter. -/
def scan (m : TaskManager) (filter : TaskFilter) : List Task := m.list.filter filter.accepts

theorem accepts_iff (filter : TaskFilter) (t : Task) :
    filter.accepts t = true ↔ (∀ c, filter.contextId = some c → t.contextId = c) ∧
      (∀ s, filter.state = some s → t.status.state = s) ∧
      ∀ a, filter.assignee = some a → t.assignee = some a := by
  simp [TaskFilter.accepts, TaskFilter.matches, Option.all_eq_true]

theorem perform_indexed {m : TaskManager} (h : m.Indexed) {op : TaskOp}
    (hen : m.Enabled op = true) : (m.perform op).2.Indexed := by
  cases op with
  | create mint args => exact createTask_indexed h (Option.isNone_iff_eq_none.mp hen) args
  | updateStatus id new message now => exact updateStatus_indexed h _ _ _ _
  | cancel id message now => exact updateStatus_indexed h _ _ _ _
  | addArtifact id artifact => exact addArtifact_indexed h _ _
  | failInFlight id draw => exact failEach_indexed h _ _ _
  | failExpired todo draw => exact failEach_indexed h _ _ _
  | reorder ids => exact reorder_indexed h ids

/-- The operations of a run; any list of tasks with distinct ids may be restored. -/
inductive StoreOp where
  | op (op : TaskOp)
  | restore (tasks : List Task)

def storeStep (m : TaskManager) : StoreOp → Option TaskManager
  | .op op => if m.Enabled op then some (m.perform op).2 else none
  | .restore tasks => if (tasks.map Task.id).Nodup then some (m.restore tasks) else none

theorem storeStep_indexed {m m' : TaskManager} {op : StoreOp} (h : m.Indexed)
    (hs : m.storeStep op = some m') : m'.Indexed := by
  cases op with
  | op op =>
    simp only [storeStep, Option.ite_none_right_eq_some, Option.some.injEq] at hs
    obtain ⟨hen, rfl⟩ := hs
    exact perform_indexed h hen
  | restore tasks =>
    simp only [storeStep, Option.ite_none_right_eq_some, Option.some.injEq] at hs
    obtain ⟨hn, rfl⟩ := hs
    exact restore_indexed hn m

/-- In every reachable store a filtered listing returns each task that satisfies all
set fields of the filter, once, and no other: it is the scan of all tasks, up to
order. -/
theorem listing_eq_scan {ops : List StoreOp} {m : TaskManager}
    (h : Transition.exec storeStep new ops = some m) (filter : TaskFilter) :
    (m.listFiltered filter).Perm (m.scan filter) ∧
    ((m.listFiltered filter).map Task.id).Nodup ∧
    ∀ t, t ∈ m.listFiltered filter ↔ m.get t.id = some t ∧
      (∀ c, filter.contextId = some c → t.contextId = c) ∧
      (∀ s, filter.state = some s → t.status.state = s) ∧
      ∀ a, filter.assignee = some a → t.assignee = some a := by
  have hi : m.Indexed := Transition.invariant (fun _ _ _ => storeStep_indexed) new_indexed h
  have hp : (m.listFiltered filter).Perm (m.scan filter) := listFiltered_perm hi filter
  refine ⟨hp, (hp.map Task.id).nodup_iff.mpr (m.tasks.nodup_filter _), fun t => ?_⟩
  rw [mem_listFiltered hi, accepts_iff]

def sampleContext : ContextId := ⟨.ofOctet 9⟩

def submittedIn (context : ContextId) : NewTask :=
  ⟨⟨⟨.ofOctet 3⟩, .user, [.text "work"], none⟩, some context, none, none, none, none⟩

/-- Two tasks of one context, one of them picked up. -/
def sampleStoreOps : List StoreOp :=
  [.restore [], .op (.create ⟨⟨.ofOctet 1⟩, ⟨.ofOctet 0⟩, 0⟩ (submittedIn sampleContext)),
    .op (.create ⟨⟨.ofOctet 2⟩, ⟨.ofOctet 0⟩, 1⟩ (submittedIn sampleContext)),
    .op (.updateStatus ⟨.ofOctet 1⟩ .working none 2)]

theorem listing_eq_scan_two_tasks :
    ∃ m, Transition.exec storeStep new sampleStoreOps = some m ∧
      (m.listFiltered ⟨some sampleContext, some .working, none⟩).Perm
        (m.scan ⟨some sampleContext, some .working, none⟩) :=
  ⟨_, rfl, (@listing_eq_scan sampleStoreOps _ rfl _).1⟩

end TaskManager

end Trumpet
