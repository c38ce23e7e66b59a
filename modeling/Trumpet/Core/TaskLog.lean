import Trumpet.Core.Watchdog
import Trumpet.Lib.Transition

/-! The task event log: replaying the events on the bus over the state they
started from reproduces the store. -/

namespace Trumpet

/-- The operations on a task manager. The watchdog's two passes make a status
update for each task they fail; `reorder` picks the iteration order of the map. -/
inductive TaskOp where
  | create (mint : Mint) (args : NewTask)
  | updateStatus (id : TaskId) (new : TaskState) (message : Option TaskMessage) (now : DateTime)
  | cancel (id : TaskId) (message : Option TaskMessage) (now : DateTime)
  | addArtifact (id : TaskId) (artifact : Artifact)
  | failInFlight (id : AgentId) (draw : Watchdog.Draws)
  | failExpired (todo : List (TaskId × TaskState)) (draw : Watchdog.Draws)
  | reorder (ids : List TaskId)

def Task.summary (t : Task) : TaskState × List ArtifactId :=
  (t.status.state, t.artifacts.map Artifact.id)

namespace TaskManager

/-- Whether a call failed, and the manager it left. -/
def outcome (r : Except Error Task × TaskManager) : Except Error Unit × TaskManager :=
  (r.1.map fun _ => (), r.2)

def perform (m : TaskManager) : TaskOp → Except Error Unit × TaskManager
  | .create mint args => outcome (m.createTaskWithDeadline mint args)
  | .updateStatus id new message now => outcome (m.updateStatus id new message now)
  | .cancel id message now => outcome (m.cancel id message now)
  | .addArtifact id artifact => outcome (m.addArtifact id artifact)
  | .failInFlight id draw => (.ok (), Watchdog.failInFlight m id draw)
  | .failExpired todo draw => (.ok (), Watchdog.failExpired m todo draw)
  | .reorder ids => (.ok (), m.reorder ids)

/-- The manager after a list of operations. -/
def runOps (m : TaskManager) (ops : List TaskOp) : TaskManager :=
  ops.foldl (fun m op => (m.perform op).2) m

/-- What the log tells of a store: each task's state and artifact ids, in order. -/
abbrev View := TaskId → Option (TaskState × List ArtifactId)

def view (m : TaskManager) : View := fun id => (m.get id).map Task.summary

/-- Replace what is known of one task. -/
def View.set (v : View) (id : TaskId) (s : Option (TaskState × List ArtifactId)) : View :=
  fun k => if k = id then s else v k

/-- What a subscriber does with an event. -/
def View.apply (v : View) : Event → View
  | .taskCreated task => v.set task.id (some (Task.summary task))
  | .taskStatusChanged id _ newState => v.set id ((v id).map fun s => (newState, s.2))
  | .taskArtifactAdded id artifactId => v.set id ((v id).map fun s => (s.1, s.2 ++ [artifactId]))
  | _ => v

def View.replay (v : View) (events : List Event) : View := events.foldl View.apply v

/-- A status event's old state is the one the view holds. -/
def View.Accepts (v : View) : Event → Prop
  | .taskStatusChanged id oldState _ => (v id).map Prod.fst = some oldState
  | _ => True

/-- Every status event's old state is the one left by the events before it. -/
def View.Chained : View → List Event → Prop
  | _, [] => True
  | v, e :: es => v.Accepts e ∧ Chained (v.apply e) es

theorem View.replay_append (v : View) (es ds : List Event) :
    v.replay (es ++ ds) = (v.replay es).replay ds :=
  List.foldl_append

theorem View.chained_append (v : View) (es ds : List Event) :
    v.Chained (es ++ ds) ↔ v.Chained es ∧ (v.replay es).Chained ds := by
  induction es generalizing v with
  | nil => simp [Chained, replay]
  | cons e es ih =>
    simp only [List.cons_append, Chained, ih, and_assoc]
    rfl

/-- `m'` is `m` after changes that were published, each on both channels. -/
structure Committed (m m' : TaskManager) (events : List TaskEvent) : Prop where
  bus : m'.bus.published = m.bus.published ++ events.map TaskEvent.mirror
  eventTx : m'.eventTx = m.eventTx ++ events
  replay : m.view.replay (events.map TaskEvent.mirror) = m'.view
  chained : m.view.Chained (events.map TaskEvent.mirror)

theorem Committed.none (m : TaskManager) : Committed m m [] :=
  ⟨(List.append_nil _).symm, (List.append_nil _).symm, rfl, trivial⟩

theorem Committed.trans {m m' m'' : TaskManager} {es ds : List TaskEvent}
    (h : Committed m m' es) (h' : Committed m' m'' ds) : Committed m m'' (es ++ ds) := by
  refine ⟨?_, ?_, ?_, ?_⟩
  · rw [h'.bus, h.bus, List.map_append, List.append_assoc]
  · rw [h'.eventTx, h.eventTx, List.append_assoc]
  · rw [List.map_append, View.replay_append, h.replay, h'.replay]
  · rw [List.map_append, View.chained_append, h.replay]
    exact ⟨h.chained, h'.chained⟩

/-- A bus that replays to the store before the changes does so after them. -/
theorem Committed.replayed {m m' : TaskManager} {events : List TaskEvent}
    (h : Committed m m' events) {v : View} (hv : v.replay m.bus.published = m.view) :
    v.replay m'.bus.published = m'.view := by
  rw [h.bus, View.replay_append, hv, h.replay]

/-- Publishing one event for one change of one task. -/
theorem Committed.publish {m m' : TaskManager} {e : TaskEvent} (bus : m'.bus = m.bus)
    (eventTx : m'.eventTx = m.eventTx) (change : m.view.apply e.mirror = m'.view)
    (accepted : m.view.Accepts e.mirror) : Committed m (m'.publish e) [e] :=
  ⟨by rw [publish_published, bus]; rfl, by rw [publish_eventTx, eventTx], change,
    accepted, trivial⟩

/-- The view after a task is stored. -/
theorem view_insert (m : TaskManager) (t : Task) :
    view { m with tasks := m.tasks.insert t } = m.view.set t.id (some (Task.summary t)) := by
  funext k
  simp only [view, get, KeyedMap.get_insert, View.set]
  split <;> rfl

theorem create_committed (m : TaskManager) (mint : Mint) (args : NewTask) :
    ∃ events, Committed m (m.createTaskWithDeadline mint args).2 events :=
  ⟨_, .publish rfl rfl (view_insert m _).symm trivial⟩

theorem updateStatus_committed (m : TaskManager) (id : TaskId) (new : TaskState)
    (msg : Option TaskMessage) (now : DateTime) :
    ∃ events, Committed m (m.updateStatus id new msg now).2 events := by
  rcases updateStatus_cases m id new msg now with ⟨e, he⟩ | ⟨t, hg, _, he⟩
  · rw [he]
    exact ⟨[], .none m⟩
  · rw [he]
    have hv : m.view id = some (Task.summary t) := by rw [view, hg, Option.map_some]
    have hid : (t.moveTo new msg now).id = id := (t.moveTo_id ..).trans (id_of_get hg)
    refine ⟨_, .publish rfl rfl ?_ ?_⟩
    · rw [view_insert, hid]
      simp only [TaskEvent.mirror, View.apply, hv]
      rfl
    · simp only [TaskEvent.mirror, View.Accepts, hv]
      rfl

theorem addArtifact_committed (m : TaskManager) (id : TaskId) (artifact : Artifact) :
    ∃ events, Committed m (m.addArtifact id artifact).2 events := by
  rcases addArtifact_cases m id artifact with ⟨e, he⟩ | ⟨t, hg, _, he⟩
  · rw [he]
    exact ⟨[], .none m⟩
  · rw [he]
    have hv : m.view id = some (Task.summary t) := by rw [view, hg, Option.map_some]
    have hid : (t.attach artifact).id = id := (t.attach_id _).trans (id_of_get hg)
    refine ⟨_, .publish rfl rfl ?_ trivial⟩
    rw [view_insert, hid]
    simp only [TaskEvent.mirror, View.apply, hv]
    simp [Task.summary, Task.attach]

theorem failEach_committed (m : TaskManager) (text : String) (todo : List (TaskId × TaskState))
    (draw : Watchdog.Draws) :
    ∃ events, Committed m (Watchdog.failEach m text todo draw) events := by
  induction todo generalizing m with
  | nil => exact ⟨[], .none m⟩
  | cons e todo ih =>
    obtain ⟨first, hfirst⟩ := updateStatus_committed m e.1 (Watchdog.target e.2)
      (some (Watchdog.reason text (draw e.1).1)) (draw e.1).2
    obtain ⟨rest, hrest⟩ := ih (Watchdog.failOne text draw m e)
    exact ⟨first ++ rest, hfirst.trans hrest⟩

theorem reorder_committed (m : TaskManager) (ids : List TaskId) :
    ∃ events, Committed m (m.reorder ids) events := by
  refine ⟨[], (List.append_nil _).symm, (List.append_nil _).symm, ?_, trivial⟩
  funext k
  show m.view k = (m.reorder ids).view k
  rw [view, view, get_reorder]

/-- Each operation publishes what it changes, and only that. -/
theorem perform_committed (m : TaskManager) (op : TaskOp) :
    ∃ events, Committed m (m.perform op).2 events := by
  cases op with
  | create mint args => exact create_committed m mint args
  | updateStatus id new message now => exact updateStatus_committed m _ _ _ _
  | cancel id message now => exact updateStatus_committed m _ _ _ _
  | addArtifact id artifact => exact addArtifact_committed m _ _
  | failInFlight id draw => exact failEach_committed m _ _ _
  | failExpired todo draw => exact failEach_committed m _ _ _
  | reorder ids => exact reorder_committed m ids

theorem runOps_committed (m : TaskManager) (ops : List TaskOp) :
    ∃ events, Committed m (m.runOps ops) events := by
  induction ops generalizing m with
  | nil => exact ⟨[], .none m⟩
  | cons op ops ih =>
    obtain ⟨first, hfirst⟩ := perform_committed m op
    obtain ⟨rest, hrest⟩ := ih (m.perform op).2
    exact ⟨first ++ rest, hfirst.trans hrest⟩

/-- The events published since a restore, replayed over the restored state, give
the store; each status event starts from the state the events before it left;
and the task-scoped channel carries the same events in the same order. -/
theorem task_log_faithful (tasks : List Task) (ops : List TaskOp) :
    let restored := new.restore tasks
    let m := restored.runOps ops
    restored.view.replay m.bus.published = m.view ∧
      restored.view.Chained m.bus.published ∧
      m.eventTx.map TaskEvent.mirror = m.bus.published := by
  obtain ⟨events, hrun⟩ := runOps_committed (new.restore tasks) ops
  have hbus : ((new.restore tasks).runOps ops).bus.published = events.map TaskEvent.mirror :=
    hrun.bus
  have hchannel : ((new.restore tasks).runOps ops).eventTx = events := hrun.eventTx
  intro restored m
  rw [hbus, hchannel]
  exact ⟨hrun.replay, hrun.chained, rfl⟩

end TaskManager

end Trumpet
