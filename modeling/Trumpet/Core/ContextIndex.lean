import Trumpet.Core.Watchdog
import Trumpet.Lib.Index

/-! The context index of the task store: each context lists exactly its tasks,
and filtered listings through it miss and repeat nothing. -/

namespace Trumpet

/-- The task satisfies every field of the filter. -/
def TaskFilter.accepts (filter : TaskFilter) (t : Task) : Bool :=
  filter.contextId.all (t.contextId = ·) && filter.matches t

namespace TaskManager

/-- Each context's entry holds the ids of exactly its tasks, each once. -/
def Indexed (m : TaskManager) : Prop := GroupIndex Task.contextId m.tasks m.contextIndex

theorem new_indexed : Indexed new := GroupIndex.empty

theorem createTask_indexed {m : TaskManager} (h : Indexed m) {mint : Mint}
    (fresh : m.get mint.id = none) (args : NewTask) :
    Indexed (m.createTaskWithDeadline mint args).2 :=
  GroupIndex.insert h (v := created mint args) fresh

theorem updateStatus_indexed {m : TaskManager} (h : Indexed m) (id : TaskId) (new : TaskState)
    (msg : Option TaskMessage) (now : DateTime) : Indexed (m.updateStatus id new msg now).2 := by
  rcases updateStatus_cases m id new msg now with ⟨e, he⟩ | ⟨t, hg, _, he⟩
  · rw [he]; exact h
  · rw [he]
    have hid := id_of_get hg
    exact GroupIndex.update h (v := t.moveTo new msg now) (w := t) (hid ▸ hg) rfl

theorem addArtifact_indexed {m : TaskManager} (h : Indexed m) (id : TaskId) (artifact : Artifact) :
    Indexed (m.addArtifact id artifact).2 := by
  rcases addArtifact_cases m id artifact with ⟨e, he⟩ | ⟨t, hg, _, he⟩
  · rw [he]; exact h
  · rw [he]
    have hid := id_of_get hg
    exact GroupIndex.update h (v := t.attach artifact) (w := t) (hid ▸ hg) rfl

theorem failEach_indexed {m : TaskManager} (h : Indexed m) (text : String)
    (todo : List (TaskId × TaskState)) (draw : Watchdog.Draws) :
    Indexed (Watchdog.failEach m text todo draw) := by
  induction todo generalizing m with
  | nil => exact h
  | cons e todo ih => exact ih (updateStatus_indexed h _ _ _ _)

theorem reorder_indexed {m : TaskManager} (h : Indexed m) (ids : List TaskId) :
    Indexed (m.reorder ids) :=
  GroupIndex.reorder h ids

/-- Whatever list of tasks with distinct ids is restored, the index is rebuilt. -/
theorem restore_indexed {tasks : List Task} (hn : (tasks.map Task.id).Nodup) (m : TaskManager) :
    Indexed (m.restore tasks) :=
  GroupIndex.empty.foldl_load hn fun _ _ => rfl

/-- A filtered listing holds the tasks that satisfy every field of the filter. -/
theorem listFiltered_perm {m : TaskManager} (h : Indexed m) (filter : TaskFilter) :
    (m.listFiltered filter).Perm
      (m.list.filter fun t => filter.contextId.all (t.contextId = ·) && filter.matches t) := by
  unfold listFiltered
  cases hc : filter.contextId with
  | none => simp [list]
  | some ctx =>
    have hp := (GroupIndex.members_perm h ctx).filter filter.matches
    refine hp.trans (List.Perm.of_eq ?_)
    rw [List.filter_filter, list]
    apply List.filter_congr
    intro t _
    simp [Bool.and_comm]

theorem mem_listFiltered {m : TaskManager} (h : Indexed m) {filter : TaskFilter} {t : Task} :
    t ∈ m.listFiltered filter ↔ m.get t.id = some t ∧ filter.accepts t = true := by
  rw [(listFiltered_perm h filter).mem_iff, List.mem_filter, mem_list]
  rfl

/-- Two stores with the same lookups give the same filtered listings, up to
order. -/
theorem listFiltered_congr {a b : TaskManager} (ha : Indexed a) (hb : Indexed b)
    (h : ∀ id, a.get id = b.get id) (filter : TaskFilter) :
    (a.listFiltered filter).Perm (b.listFiltered filter) :=
  (listFiltered_perm ha filter).trans
    (((KeyedMap.values_perm h).filter _).trans (listFiltered_perm hb filter).symm)

theorem tasksForAgent_congr {a b : TaskManager} (h : ∀ id, a.get id = b.get id)
    (agentId : AgentId) :
    (a.tasksForAgent agentId).Perm (b.tasksForAgent agentId) :=
  (KeyedMap.values_perm h).filter _

end TaskManager

end Trumpet
