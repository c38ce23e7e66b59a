import Trumpet.Core.Lifecycle
import Trumpet.Grpc.Convert

/-! Task streams: a snapshot of the task, then an item for each of its events on
the bus, against concurrent writers. -/

namespace Trumpet

/-- The worker of one stream: the position in the bus of the next event it
receives, the task it last fetched, and the items it has sent. -/
structure Subscriber where
  taskId : TaskId
  contextId : ContextId
  cursor : Nat
  latest : Option Task
  items : List Proto.StreamResponse

/-- A streaming call: before the task is read, between the read and the
subscription to the bus, and after it. -/
inductive StreamCall where
  | pending
  | read (task : Task)
  | live (sub : Subscriber)

/-- The task manager and one call. The daemon's stores share one bus, and the
manager's handle holds all that was published on it. -/
structure StreamSystem where
  tasks : TaskManager
  call : StreamCall

/-- The event is one the task manager publishes. -/
def Event.ofTasks : Event → Bool
  | taskCreated _ => true
  | taskStatusChanged _ _ _ => true
  | taskArtifactAdded _ _ => true
  | _ => false

namespace StreamSystem

inductive Label where
  | op (op : TaskOp)
  /-- `SubscribeToTask` reads the task. -/
  | fetch (id : TaskId)
  /-- `SendStreamingMessage` creates the task. -/
  | submit (mint : Mint) (args : NewTask)
  | subscribe
  | receive (now : DateTime)
  /-- Another store publishes on the bus. -/
  | publish (event : Event)

/-- The events on the bus so far. -/
def bus (s : StreamSystem) : List Event := s.tasks.bus.published

/-- The stream starts with the task it was given. -/
def spawnTaskStream (s : StreamSystem) (task : Task) : Subscriber :=
  ⟨task.id, task.contextId, s.bus.length, some task, [.task (Convert.coreTaskToProto task)]⟩

/-- The task an artifact event is looked up in: on such an event of its own task
the worker fetches the task again. -/
def refresh (s : StreamSystem) (sub : Subscriber) : Event → Option Task
  | .taskArtifactAdded tid _ =>
    if tid = sub.taskId then (s.tasks.get sub.taskId).or sub.latest else sub.latest
  | _ => sub.latest

def receive (s : StreamSystem) (sub : Subscriber) (now : DateTime) (event : Event) : Subscriber :=
  let latest := refresh s sub event
  { sub with
    cursor := sub.cursor + 1
    latest := latest
    items := sub.items ++
      (Convert.taskEventToStreamResponse now event sub.taskId sub.contextId latest).toList }

def step (s : StreamSystem) : Label → Option StreamSystem
  | .op op =>
    if s.tasks.Enabled op then some { s with tasks := (s.tasks.perform op).2 } else none
  | .fetch id =>
    match s.call, s.tasks.get id with
    | .pending, some task => some { s with call := .read task }
    | _, _ => none
  | .submit mint args =>
    match s.call, s.tasks.get mint.id, s.tasks.createTaskWithDeadline mint args with
    | .pending, none, (.ok task, tasks) => some ⟨tasks, .read task⟩
    | _, _, _ => none
  | .subscribe =>
    match s.call with
    | .read task => some { s with call := .live (s.spawnTaskStream task) }
    | _ => none
  | .receive now =>
    match s.call with
    | .live sub =>
      match s.bus[sub.cursor]? with
      | some event => some { s with call := .live (s.receive sub now event) }
      | none => none
    | _ => none
  | .publish event =>
    if event.ofTasks then none
    else some { s with tasks := { s.tasks with bus := s.tasks.bus.publish event } }

/-- A daemon that has restored `tasks`, and a call that has not begun. -/
def init (tasks : List Task) : StreamSystem := ⟨TaskManager.new.restore tasks, .pending⟩

end StreamSystem

/-! ## The client -/

/-- What a client knows of the task's state and artifacts. -/
structure ClientTask where
  state : Proto.TaskState
  artifacts : List Proto.Artifact

namespace ClientTask

/-- Applying one item: a task replaces everything, an update changes what it is
about. -/
def apply (c : Option ClientTask) : Proto.StreamResponse → Option ClientTask
  | .task task => task.status.map fun status => ⟨status.state, task.artifacts⟩
  | .statusUpdate update =>
    c.map fun c => { c with state := (update.status.map Proto.TaskStatus.state).getD c.state }
  | .artifactUpdate update =>
    c.map fun c => { c with artifacts := c.artifacts ++ update.artifact.toList }

def ofItems (items : List Proto.StreamResponse) : Option ClientTask := items.foldl apply none

/-- What the server would answer. -/
def ofTask (task : Task) : ClientTask :=
  ⟨Convert.coreStateToProto task.status.state, task.artifacts.map Convert.coreArtifactToProto⟩

theorem ofItems_concat (items : List Proto.StreamResponse) (item : Proto.StreamResponse) :
    ofItems (items ++ [item]) = apply (ofItems items) item := by
  rw [ofItems, List.foldl_append]
  rfl

end ClientTask

/-! ## What the events of one task add up to -/

def stateStep (id : TaskId) (s : TaskState) : Event → TaskState
  | .taskStatusChanged k _ new => if k = id then new else s
  | _ => s

def artifactOf (id : TaskId) : Event → Option ArtifactId
  | .taskArtifactAdded k a => if k = id then some a else none
  | _ => none

def changesStatus (id : TaskId) : Event → Bool
  | .taskStatusChanged k _ _ => k = id
  | _ => false

def creates (id : TaskId) : Event → Bool
  | .taskCreated t => t.id = id
  | _ => false

/-- The state after a list of events, from `s`. -/
def stateAfter (id : TaskId) (s : TaskState) (events : List Event) : TaskState :=
  events.foldl (stateStep id) s

/-- The artifact ids a list of events announces. -/
def artifactIds (id : TaskId) (events : List Event) : List ArtifactId :=
  events.filterMap (artifactOf id)

theorem stateAfter_concat (id : TaskId) (s : TaskState) (events : List Event) (e : Event) :
    stateAfter id s (events ++ [e]) = stateStep id (stateAfter id s events) e := by
  rw [stateAfter, List.foldl_append]
  rfl

theorem artifactIds_concat (id : TaskId) (events : List Event) (e : Event) :
    artifactIds id (events ++ [e]) = artifactIds id events ++ (artifactOf id e).toList := by
  rw [artifactIds, List.filterMap_append, List.filterMap_cons]
  cases artifactOf id e <;> rfl

/-- The final state does not depend on the first one just when some event sets it. -/
theorem stateAfter_eq_iff (id : TaskId) (s s' : TaskState) (events : List Event) :
    stateAfter id s events = stateAfter id s' events ↔
      s = s' ∨ events.any (changesStatus id) = true := by
  induction events generalizing s s' with
  | nil => simp [stateAfter]
  | cons e events ih =>
    rw [List.any_cons]
    refine (ih (stateStep id s e) (stateStep id s' e)).trans ?_
    cases e with
    | taskStatusChanged k old new =>
      by_cases hk : k = id
      · simp [changesStatus, stateStep, hk]
      · simp [changesStatus, stateStep, hk]
    | _ => simp [changesStatus, stateStep]

/-- One event, if it does not create the task. -/
theorem apply_summary {id : TaskId} {v : TaskManager.View} {s : TaskState}
    {as : List ArtifactId} (hv : v id = some (s, as)) {e : Event} (hc : creates id e = false) :
    v.apply e id = some (stateStep id s e, as ++ (artifactOf id e).toList) := by
  cases e with
  | taskCreated t =>
    have hne : ¬ id = t.id := fun h => by simp [creates, h] at hc
    simp [TaskManager.View.apply, TaskManager.View.set, hne, hv, stateStep, artifactOf]
  | taskStatusChanged k old new =>
    by_cases hk : k = id
    · subst hk
      simp [TaskManager.View.apply, TaskManager.View.set, hv, stateStep, artifactOf]
    · have hk' : ¬ id = k := fun h => hk h.symm
      simp [TaskManager.View.apply, TaskManager.View.set, hv, stateStep, artifactOf, hk, hk']
  | taskArtifactAdded k a =>
    by_cases hk : k = id
    · subst hk
      simp [TaskManager.View.apply, TaskManager.View.set, hv, stateStep, artifactOf]
    · have hk' : ¬ id = k := fun h => hk h.symm
      simp [TaskManager.View.apply, TaskManager.View.set, hv, stateStep, artifactOf, hk, hk']
  | _ => simp [TaskManager.View.apply, hv, stateStep, artifactOf]

/-- Replaying events that do not create the task. -/
theorem replay_summary {id : TaskId} {v : TaskManager.View} {s : TaskState}
    {as : List ArtifactId} (hv : v id = some (s, as)) {events : List Event}
    (hc : events.any (creates id) = false) :
    v.replay events id = some (stateAfter id s events, as ++ artifactIds id events) := by
  induction events generalizing v s as with
  | nil => simpa [TaskManager.View.replay, stateAfter, artifactIds] using hv
  | cons e events ih =>
    rw [List.any_cons, Bool.or_eq_false_iff] at hc
    refine (ih (apply_summary hv hc.1) hc.2).trans ?_
    rw [List.append_assoc, artifactIds, artifactIds, List.filterMap_cons]
    cases artifactOf id e <;> rfl

/-! ## What operations publish -/

/-- `m'` has published more than `m`, and created no task that `m` has. -/
def Publishes (m m' : TaskManager) : Prop :=
  ∃ events, m'.bus.published = m.bus.published ++ events ∧
    ∀ id, (m.get id).isSome = true → events.any (creates id) = false

theorem updateStatus_publishes (m : TaskManager) (id : TaskId) (new : TaskState)
    (msg : Option TaskMessage) (now : DateTime) :
    ∃ events, (m.updateStatus id new msg now).2.bus.published = m.bus.published ++ events ∧
      ∀ k, events.any (creates k) = false := by
  rcases TaskManager.updateStatus_cases m id new msg now with ⟨e, he⟩ | ⟨t, _, _, he⟩
  · rw [he]; exact ⟨[], by simp, fun _ => rfl⟩
  · rw [he]; exact ⟨_, rfl, fun _ => rfl⟩

/-- What holds of the events of each update holds of those of all, one after another. -/
theorem failEach_events {Q : List Event → Prop} (hnil : Q [])
    (happend : ∀ {events more}, Q events → Q more → Q (events ++ more))
    (hone : ∀ (m : TaskManager) id new msg now, ∃ events,
      (m.updateStatus id new msg now).2.bus.published = m.bus.published ++ events ∧ Q events)
    (m : TaskManager) (text : String) (todo : List (TaskId × TaskState))
    (draw : Watchdog.Draws) :
    ∃ events, (Watchdog.failEach m text todo draw).bus.published = m.bus.published ++ events ∧
      Q events := by
  induction todo generalizing m with
  | nil => exact ⟨[], by simp [Watchdog.failEach], hnil⟩
  | cons e todo ih =>
    obtain ⟨first, hf, hfirst⟩ := hone m e.1 (Watchdog.target e.2)
      (some (Watchdog.reason text (draw e.1).1)) (draw e.1).2
    obtain ⟨rest, hr, hrest⟩ := ih (Watchdog.failOne text draw m e)
    refine ⟨first ++ rest, ?_, happend hfirst hrest⟩
    rw [← List.append_assoc, ← hf]
    exact hr

theorem failEach_publishes (m : TaskManager) (text : String) (todo : List (TaskId × TaskState))
    (draw : Watchdog.Draws) :
    ∃ events, (Watchdog.failEach m text todo draw).bus.published = m.bus.published ++ events ∧
      ∀ k, events.any (creates k) = false := by
  apply failEach_events (fun _ => rfl) _ updateStatus_publishes
  intro events more hevents hmore k
  rw [List.any_append, hevents, hmore]
  rfl

theorem perform_publishes {m : TaskManager} {op : TaskOp} (h : m.Enabled op = true) :
    Publishes m (m.perform op).2 := by
  cases op with
  | create mint args =>
    refine ⟨_, rfl, fun id hid => ?_⟩
    have hne : mint.id ≠ id := by
      rintro rfl
      rw [Option.isNone_iff_eq_none.mp h] at hid
      cases hid
    simp [creates, TaskEvent.mirror, hne]
  | updateStatus id new message now =>
    obtain ⟨events, he, hc⟩ := updateStatus_publishes m id new message now
    exact ⟨events, he, fun k _ => hc k⟩
  | cancel id message now =>
    obtain ⟨events, he, hc⟩ := updateStatus_publishes m id .canceled message now
    exact ⟨events, he, fun k _ => hc k⟩
  | addArtifact id artifact =>
    show Publishes m (m.addArtifact id artifact).2
    rcases TaskManager.addArtifact_cases m id artifact with ⟨e, he⟩ | ⟨t, _, _, he⟩
    · rw [he]; exact ⟨[], by simp, fun _ _ => rfl⟩
    · rw [he]; exact ⟨_, rfl, fun _ _ => rfl⟩
  | failInFlight id draw =>
    obtain ⟨events, he, hc⟩ := failEach_publishes m _ _ draw
    exact ⟨events, he, fun k _ => hc k⟩
  | failExpired todo draw =>
    obtain ⟨events, he, hc⟩ := failEach_publishes m _ todo draw
    exact ⟨events, he, fun k _ => hc k⟩
  | reorder ids => exact ⟨[], by simp [TaskManager.perform, TaskManager.reorder], fun _ _ => rfl⟩

/-- What other stores publish tells nothing of tasks. -/
theorem apply_of_not_ofTasks {e : Event} (h : e.ofTasks = false) (v : TaskManager.View) :
    v.apply e = v := by
  cases e <;> first | rfl | cases h

theorem creates_of_not_ofTasks {e : Event} (h : e.ofTasks = false) (id : TaskId) :
    creates id e = false := by
  cases e <;> first | rfl | cases h

/-- Another store's event keeps the bus a log of the tasks. -/
theorem replayed_publish {v : TaskManager.View} {m : TaskManager} {e : Event}
    (hv : v.replay m.bus.published = m.view) (h : e.ofTasks = false) :
    v.replay (m.bus.publish e).published = m.view := by
  rw [MessageBus.published_publish, TaskManager.View.replay_append, hv]
  exact apply_of_not_ofTasks h m.view

/-! ## A stream in progress -/

/-- The image of the first artifact with the given id. -/
def firstImage (artifacts : List Artifact) (id : ArtifactId) : Option Proto.Artifact :=
  (artifacts.find? fun a => a.id = id).map Convert.coreArtifactToProto

theorem firstImage_isSome {as : List Artifact} {id : ArtifactId} (h : id ∈ as.map Artifact.id) :
    (firstImage as id).isSome = true := by
  obtain ⟨a, ha, rfl⟩ := List.mem_map.mp h
  rw [firstImage, Option.isSome_map, List.find?_isSome]
  exact ⟨a, ha, by simp⟩

/-- Artifacts that come later do not change the image of one already there. -/
theorem firstImage_append {as : List Artifact} {id : ArtifactId} (h : id ∈ as.map Artifact.id)
    (bs : List Artifact) : firstImage (as ++ bs) id = firstImage as id := by
  obtain ⟨a, ha⟩ := Option.isSome_iff_exists.mp (firstImage_isSome h)
  obtain ⟨b, hb, _⟩ := Option.map_eq_some_iff.mp ha
  rw [firstImage, firstImage, List.find?_append, hb, Option.some_or]

/-- One event, received while the server's task is `t`. -/
theorem receive_ofItems {s : StreamSystem} {sub : Subscriber} {t : Task} {st : TaskState}
    {as : List Proto.Artifact} (hg : s.tasks.get sub.taskId = some t)
    (hc : ClientTask.ofItems sub.items = some ⟨Convert.coreStateToProto st, as⟩) {e : Event}
    (hcreate : creates sub.taskId e = false) (now : DateTime) :
    ClientTask.ofItems (s.receive sub now e).items =
      some ⟨Convert.coreStateToProto (stateStep sub.taskId st e),
        as ++ (artifactOf sub.taskId e).toList.filterMap (firstImage t.artifacts)⟩ := by
  cases e with
  | taskCreated u =>
    have hne : ¬ u.id = sub.taskId := by simpa [creates] using hcreate
    simp [StreamSystem.receive, Convert.taskEventToStreamResponse, hne, hc, stateStep, artifactOf]
  | taskStatusChanged k old new =>
    by_cases hk : k = sub.taskId
    · simp [StreamSystem.receive, Convert.taskEventToStreamResponse, hk, stateStep, artifactOf,
        ClientTask.ofItems_concat, hc, ClientTask.apply, Convert.statusUpdate]
    · simp [StreamSystem.receive, Convert.taskEventToStreamResponse, hk, stateStep, artifactOf, hc]
  | taskArtifactAdded k a =>
    by_cases hk : k = sub.taskId
    · cases hf : t.artifacts.find? fun b => b.id = a with
      | none =>
        simp [StreamSystem.receive, StreamSystem.refresh, Convert.taskEventToStreamResponse, hk,
          stateStep, artifactOf, hg, hf, firstImage, hc]
      | some b =>
        simp [StreamSystem.receive, StreamSystem.refresh, Convert.taskEventToStreamResponse, hk,
          stateStep, artifactOf, hg, hf, firstImage, ClientTask.ofItems_concat, hc,
          ClientTask.apply, Convert.artifactUpdate]
    · simp [StreamSystem.receive, Convert.taskEventToStreamResponse, hk, stateStep, artifactOf, hc]
  | _ =>
    simp [StreamSystem.receive, Convert.taskEventToStreamResponse, hc, stateStep, artifactOf]

/-- The call before it has subscribed: a task that was read is still there, at a
later time. -/
structure Reading (v : TaskManager.View) (s : StreamSystem) : Prop where
  faithful : v.replay s.bus = s.tasks.view
  task : ∀ snap, s.call = .read snap → ∃ t, s.tasks.get snap.id = some t ∧ Grows snap t

/-- A stream that subscribed when the manager was `m`, with the item of `snap`:
`seen` has been received since, and `rest` is still to come. -/
structure Watching (v : TaskManager.View) (m : TaskManager) (snap : Task) (s : StreamSystem) :
    Prop where
  faithful : v.replay s.bus = s.tasks.view
  evolves : TaskManager.Evolves m s.tasks
  live : ∃ sub seen rest, s.call = .live sub ∧ sub.taskId = snap.id ∧
    s.bus = m.bus.published ++ seen ++ rest ∧
    sub.cursor = (m.bus.published ++ seen).length ∧
    (seen ++ rest).any (creates snap.id) = false ∧
    ∀ t, s.tasks.get snap.id = some t → ClientTask.ofItems sub.items = some
      ⟨Convert.coreStateToProto (stateAfter snap.id snap.status.state seen),
        snap.artifacts.map Convert.coreArtifactToProto ++
          (artifactIds snap.id seen).filterMap (firstImage t.artifacts)⟩

/-- The server's task since the subscription, from the events. -/
theorem summary_since {v : TaskManager.View} {m m' : TaskManager}
    (h : v.replay m.bus.published = m.view) (h' : v.replay m'.bus.published = m'.view)
    {events : List Event} (hb : m'.bus.published = m.bus.published ++ events) {id : TaskId}
    {t t' : Task} (hg : m.get id = some t) (hg' : m'.get id = some t')
    (hc : events.any (creates id) = false) :
    t'.status.state = stateAfter id t.status.state events ∧
      t'.artifacts.map Artifact.id = t.artifacts.map Artifact.id ++ artifactIds id events := by
  have hv : m.view id = some (t.summary) := by rw [TaskManager.view, hg]; rfl
  have hr : m.view.replay events = m'.view := by
    rw [← h', hb, TaskManager.View.replay_append, h]
  have hsum := replay_summary hv hc
  rw [hr, TaskManager.view, hg', Option.map_some, Option.some.injEq] at hsum
  exact ⟨congrArg Prod.fst hsum, congrArg Prod.snd hsum⟩

theorem step_reading {v : TaskManager.View} {s s' : StreamSystem} {l : StreamSystem.Label}
    (h : Reading v s) (hs : s.step l = some s') : Reading v s' := by
  cases l with
  | op op =>
    simp only [StreamSystem.step, Option.ite_none_right_eq_some, Option.some.injEq] at hs
    obtain ⟨hen, rfl⟩ := hs
    obtain ⟨_, hcommit⟩ := TaskManager.perform_committed s.tasks op
    refine ⟨hcommit.replayed h.faithful, fun snap hc => ?_⟩
    obtain ⟨t, hg, hgrow⟩ := h.task snap hc
    obtain ⟨u, hu, gu⟩ := (TaskManager.perform_steps hen).evolves snap.id t hg
    exact ⟨u, hu, hgrow.trans gu⟩
  | fetch id =>
    simp only [StreamSystem.step] at hs
    split at hs
    · rename_i task _ hg
      cases hs
      refine ⟨h.faithful, fun snap hc => ?_⟩
      cases hc
      have hid := TaskManager.id_of_get hg
      exact ⟨task, hid ▸ hg, .refl task⟩
    · cases hs
  | submit mint args =>
    simp only [StreamSystem.step] at hs
    split at hs
    · rename_i task tasks _ hfresh hcreate
      cases hs
      have ht : tasks = (s.tasks.createTaskWithDeadline mint args).2 := by rw [hcreate]
      obtain ⟨_, hcommit⟩ := TaskManager.create_committed s.tasks mint args
      refine ⟨ht ▸ hcommit.replayed h.faithful, fun snap hc => ?_⟩
      cases hc
      cases hcreate
      exact ⟨_, @KeyedMap.get_insert_self _ _ Task.id _ _ _, .refl _⟩
    · cases hs
  | subscribe =>
    simp only [StreamSystem.step] at hs
    split at hs
    · cases hs
      exact ⟨h.faithful, fun snap hc => by cases hc⟩
    · cases hs
  | receive now =>
    simp only [StreamSystem.step] at hs
    split at hs
    · split at hs
      · cases hs
        exact ⟨h.faithful, fun snap hc => by cases hc⟩
      · cases hs
    · cases hs
  | publish event =>
    simp only [StreamSystem.step, Option.ite_none_left_eq_some, Option.some.injEq,
      Bool.not_eq_true] at hs
    obtain ⟨hforeign, rfl⟩ := hs
    exact ⟨replayed_publish h.faithful hforeign, h.task⟩

/-- Subscribing begins the watch with nothing seen. -/
theorem subscribe_watching {v : TaskManager.View} {s s' : StreamSystem} {snap : Task}
    (h : Reading v s) (hc : s.call = .read snap) (hs : s.step .subscribe = some s') :
    Watching v s.tasks snap s' := by
  simp only [StreamSystem.step, hc, Option.some.injEq] at hs
  subst hs
  refine ⟨h.faithful, fun id t hg => ⟨t, hg, .refl t⟩, s.spawnTaskStream snap, [], [], rfl, rfl,
    by simp [StreamSystem.bus], by simp [StreamSystem.spawnTaskStream, StreamSystem.bus], rfl,
    fun t _ => ?_⟩
  simp [StreamSystem.spawnTaskStream, ClientTask.ofItems, ClientTask.apply,
    Convert.coreTaskToProto, Convert.coreStatusToProto, stateAfter, artifactIds]

theorem step_watching {v : TaskManager.View} {m : TaskManager} {snap t₁ : Task}
    (hm : v.replay m.bus.published = m.view) (hg₁ : m.get snap.id = some t₁) {s s' : StreamSystem}
    {l : StreamSystem.Label} (h : Watching v m snap s) (hs : s.step l = some s') :
    Watching v m snap s' := by
  obtain ⟨hf, hev, sub, seen, rest, hcall, hid, hbus, hcur, hcr, hview⟩ := h
  obtain ⟨t, hg, hgrow⟩ := hev snap.id t₁ hg₁
  -- Every artifact announced so far is on the server's task.
  have hids := (summary_since hm hf (hbus.trans (List.append_assoc _ _ _)) hg₁ hg hcr).2
  cases l with
  | op op =>
    simp only [StreamSystem.step, Option.ite_none_right_eq_some, Option.some.injEq] at hs
    obtain ⟨hen, rfl⟩ := hs
    have hstep := (TaskManager.perform_steps hen).evolves
    obtain ⟨u, hu, gu⟩ := hstep snap.id t hg
    obtain ⟨events, he, hec⟩ := perform_publishes hen
    have hcr' : (seen ++ (rest ++ events)).any (creates snap.id) = false := by
      rw [← List.append_assoc, List.any_append, hcr, hec snap.id (by rw [hg]; rfl)]
      rfl
    obtain ⟨_, hcommit⟩ := TaskManager.perform_committed s.tasks op
    refine ⟨hcommit.replayed hf, hev.trans hstep, sub, seen, rest ++ events, hcall,
      hid, ?_, hcur, hcr', fun u' hu' => ?_⟩
    · rw [StreamSystem.bus, he, ← List.append_assoc]
      exact congrArg (· ++ events) hbus
    · obtain rfl : u = u' := Option.some.inj (hu.symm.trans hu')
      obtain ⟨more, hmore⟩ := gu.artifacts
      rw [hview t hg]
      have himages : (artifactIds snap.id seen).filterMap (firstImage u.artifacts) =
          (artifactIds snap.id seen).filterMap (firstImage t.artifacts) := by
        apply List.filterMap_congr
        intro a ha
        rw [← hmore]
        refine firstImage_append ?_ more
        rw [hids, artifactIds, List.filterMap_append]
        exact List.mem_append_right _ (List.mem_append_left _ ha)
      rw [himages]
  | fetch id => simp [StreamSystem.step, hcall] at hs
  | submit mint args => simp [StreamSystem.step, hcall] at hs
  | subscribe => simp [StreamSystem.step, hcall] at hs
  | receive now =>
    simp only [StreamSystem.step, hcall] at hs
    split at hs
    · rename_i e hnext
      cases hs
      obtain ⟨rest', rfl⟩ : ∃ rest', rest = e :: rest' := by
        rw [hcur, hbus, List.getElem?_append_right (Nat.le_refl _), Nat.sub_self] at hnext
        cases rest with
        | nil => cases hnext
        | cons d rest' => cases hnext; exact ⟨rest', rfl⟩
      have he : creates snap.id e = false := by
        simp only [List.any_append, List.any_cons, Bool.or_eq_false_iff] at hcr
        exact hcr.2.1
      refine ⟨hf, hev, s.receive sub now e, seen ++ [e], rest', rfl, hid, ?_, ?_, ?_,
        fun u hu => ?_⟩
      · rw [StreamSystem.bus] at hbus ⊢
        simpa using hbus
      · simp only [StreamSystem.receive, hcur, List.length_append, List.length_singleton]
        omega
      · simpa using hcr
      · obtain rfl : t = u := Option.some.inj (hg.symm.trans hu)
        rw [← hid] at hg he
        rw [receive_ofItems hg (hview t (hid ▸ hg)) he now, hid, stateAfter_concat,
          artifactIds_concat, List.filterMap_append, List.append_assoc]
    · cases hs
  | publish event =>
    simp only [StreamSystem.step, Option.ite_none_left_eq_some, Option.some.injEq,
      Bool.not_eq_true] at hs
    obtain ⟨hforeign, rfl⟩ := hs
    refine ⟨replayed_publish hf hforeign, hev, sub, seen, rest ++ [event], hcall, hid, ?_, hcur, ?_,
      hview⟩
    · rw [← List.append_assoc, ← hbus]
      rfl
    · rw [← List.append_assoc, List.any_append, hcr, List.any_cons,
        creates_of_not_ofTasks hforeign]
      rfl

/-! ## When the client ends with the server's task -/

/-- Nothing gets between the snapshot and the subscription that the stream does
not make up for: no artifact is added, and the task's state is the same again or
changes once more later; and no artifact is added later under the id of another,
unless it converts to the same message as the first of that id. Here `m` is the
manager at the subscription and `m'` the manager in the end. -/
structure Undisturbed (snap : Task) (m m' : TaskManager) : Prop where
  artifacts : ∀ t ∈ m.get snap.id, t.artifacts = snap.artifacts
  state : ∀ t ∈ m.get snap.id, t.status.state = snap.status.state ∨
    (m'.bus.published.drop m.bus.published.length).any (changesStatus snap.id) = true
  distinct : ∀ t ∈ m.get snap.id, ∀ t' ∈ m'.get snap.id,
    ∀ a ∈ t'.artifacts.drop t.artifacts.length,
      firstImage t'.artifacts a.id = some (Convert.coreArtifactToProto a)

/-- The images looked up for a list of artifacts are their own exactly when each
of them is found. -/
theorem filterMap_firstImage_eq_iff {all added : List Artifact}
    (h : ∀ a ∈ added, (firstImage all a.id).isSome = true) :
    (added.map Artifact.id).filterMap (firstImage all) = added.map Convert.coreArtifactToProto ↔
      ∀ a ∈ added, firstImage all a.id = some (Convert.coreArtifactToProto a) := by
  induction added with
  | nil => simp
  | cons a added ih =>
    obtain ⟨b, hb⟩ := Option.isSome_iff_exists.mp (h a List.mem_cons_self)
    rw [List.map_cons, List.map_cons, List.filterMap_cons, hb]
    simp only [List.cons.injEq, List.forall_mem_cons, hb, Option.some.injEq,
      ih fun c hc => h c (List.mem_cons_of_mem _ hc)]

theorem length_filterMap_firstImage {all added : List Artifact}
    (h : ∀ a ∈ added, (firstImage all a.id).isSome = true) :
    ((added.map Artifact.id).filterMap (firstImage all)).length = added.length := by
  rw [← @List.length_map _ _ added Artifact.id, List.filterMap_length_eq_length]
  intro a ha
  obtain ⟨b, hb, rfl⟩ := List.mem_map.mp ha
  exact h b hb

/-- Two lists that begin alike and end in as many elements. -/
theorem append_eq_append_iff_of_length {α : Type} {base window last last' : List α}
    (h : last.length = last'.length) :
    base ++ last = base ++ window ++ last' ↔ window = [] ∧ last = last' := by
  rw [List.append_assoc, List.append_cancel_left_eq]
  constructor
  · intro e
    have hlen := congrArg List.length e
    rw [List.length_append] at hlen
    have hw : window = [] := List.length_eq_zero_iff.mp (by omega)
    rw [hw, List.nil_append] at e
    exact ⟨hw, e⟩
  · rintro ⟨rfl, rfl⟩
    rfl

/-- The conditions, for the task at the subscription and in the end, in terms of
what was added to it and of the events published in between. -/
theorem undisturbed_iff {snap t₁ t : Task} {m m' : TaskManager} {seen : List Event}
    {window added : List Artifact} (hg₁ : m.get snap.id = some t₁) (hg : m'.get snap.id = some t)
    (hseen : m'.bus.published = m.bus.published ++ seen)
    (hwin : snap.artifacts ++ window = t₁.artifacts) (hadd : t₁.artifacts ++ added = t.artifacts) :
    Undisturbed snap m m' ↔
      (t₁.status.state = snap.status.state ∨ seen.any (changesStatus snap.id) = true) ∧
        window = [] ∧
        ∀ a ∈ added, firstImage t.artifacts a.id = some (Convert.coreArtifactToProto a) := by
  have hsince : m'.bus.published.drop m.bus.published.length = seen := by
    rw [hseen, List.drop_left]
  have hlater : t.artifacts.drop t₁.artifacts.length = added := by
    rw [← hadd, List.drop_left]
  constructor
  · rintro ⟨hart, hst, hdist⟩
    refine ⟨?_, ?_, ?_⟩
    · have hst := hst t₁ hg₁
      rwa [hsince] at hst
    · have hart := hart t₁ hg₁
      rw [← hwin] at hart
      exact List.append_right_eq_self.mp hart
    · have hdist := hdist t₁ hg₁ t hg
      rwa [hlater] at hdist
  · rintro ⟨hst, hw, hdist⟩
    refine ⟨?_, ?_, ?_⟩ <;> intro u hu <;>
      obtain rfl : t₁ = u := Option.some.inj (hg₁.symm.trans hu)
    · rw [← hwin, hw, List.append_nil]
    · rwa [hsince]
    · intro u' hu'
      obtain rfl : t = u' := Option.some.inj (hg.symm.trans hu')
      rwa [hlater]

/-- A client that starts from the snapshot item and applies every later one ends,
once all published events have been received, with the server's state and
artifacts of the task, if and only if nothing disturbed the stream. -/
theorem stream_complete_iff {tasks : List Task} {pre post : List StreamSystem.Label}
    {s s' : StreamSystem} {snap : Task} {sub : Subscriber}
    (hpre : Transition.exec StreamSystem.step (.init tasks) pre = some s)
    (hread : s.call = .read snap)
    (hpost : Transition.exec StreamSystem.step s (.subscribe :: post) = some s')
    (hlive : s'.call = .live sub) (hall : sub.cursor = s'.bus.length) :
    ClientTask.ofItems sub.items = (s'.tasks.get snap.id).map ClientTask.ofTask ↔
      Undisturbed snap s.tasks s'.tasks := by
  have hstart : Reading (TaskManager.new.restore tasks).view (.init tasks) :=
    ⟨rfl, fun _ h => by cases h⟩
  have hR := Transition.invariant (P := Reading _) (fun _ _ _ => step_reading) hstart hpre
  obtain ⟨t₁, hg₁, hgrow⟩ := hR.task snap hread
  obtain ⟨s₁, hs₁, hrun⟩ := Option.bind_eq_some_iff.mp hpost
  obtain ⟨hf, hev, sub', seen, rest, hcall, hid, hbus, hcur, hcr, hview⟩ :=
    Transition.invariant (P := Watching _ s.tasks snap)
      (fun _ _ _ => step_watching hR.faithful hg₁) (subscribe_watching hR hread hs₁) hrun
  obtain rfl : sub' = sub := by
    rw [hcall] at hlive
    exact StreamCall.live.inj hlive
  obtain rfl : rest = [] := by
    rw [hall, hbus, List.length_append] at hcur
    exact List.length_eq_zero_iff.mp (by omega)
  rw [List.append_nil] at hbus hcr
  obtain ⟨t, hg, gt⟩ := hev snap.id t₁ hg₁
  obtain ⟨hstate, hids⟩ := summary_since hR.faithful hf hbus hg₁ hg hcr
  obtain ⟨window, hwin⟩ := hgrow.artifacts
  obtain ⟨added, hadd⟩ := gt.artifacts
  -- The artifacts added since the subscription are those the events announce.
  have hadded : artifactIds snap.id seen = added.map Artifact.id := by
    rw [← hadd, List.map_append, List.append_cancel_left_eq] at hids
    exact hids.symm
  have hfound : ∀ a ∈ added, (firstImage t.artifacts a.id).isSome = true := fun a ha =>
    firstImage_isSome (List.mem_map_of_mem (hadd ▸ List.mem_append_right _ ha))
  have hlist : t.artifacts.map Convert.coreArtifactToProto =
      snap.artifacts.map Convert.coreArtifactToProto ++
        window.map Convert.coreArtifactToProto ++ added.map Convert.coreArtifactToProto := by
    rw [← hadd, ← hwin, List.map_append, List.map_append]
  rw [hview t hg, hg, hadded, Option.map_some, Option.some.injEq, ClientTask.ofTask, hstate, hlist,
    ClientTask.mk.injEq,
    append_eq_append_iff_of_length (by rw [length_filterMap_firstImage hfound, List.length_map]),
    filterMap_firstImage_eq_iff hfound, List.map_eq_nil_iff,
    undisturbed_iff hg₁ hg hbus hwin hadd]
  apply and_congr_left
  intro _
  rw [Convert.coreStateToProto_inj.eq_iff, stateAfter_eq_iff, eq_comm]

/-! ### An update between the snapshot and the subscription -/

def sampleSubmit : StreamSystem.Label :=
  .submit ⟨⟨.ofOctet 1⟩, ⟨.ofOctet 2⟩, 0⟩
    ⟨⟨⟨.ofOctet 3⟩, .user, [.text "work"], none⟩, none, none, none, none, none⟩

def samplePickUp : StreamSystem.Label := .op (.updateStatus ⟨.ofOctet 1⟩ .working none 1)

/-- The task is picked up after the stream has subscribed. -/
theorem stream_complete_iff_late_pick_up :
    ∃ s s' snap sub,
      Transition.exec StreamSystem.step (.init []) [sampleSubmit] = some s ∧
      s.call = .read snap ∧
      Transition.exec StreamSystem.step s [.subscribe, samplePickUp, .receive 2] = some s' ∧
      s'.call = .live sub ∧ sub.cursor = s'.bus.length ∧
      (ClientTask.ofItems sub.items = (s'.tasks.get snap.id).map ClientTask.ofTask ↔
        Undisturbed snap s.tasks s'.tasks) :=
  ⟨_, _, _, _, rfl, rfl, rfl, rfl, rfl,
    @stream_complete_iff [] [sampleSubmit] [samplePickUp, .receive 2] _ _ _ _
      rfl rfl rfl rfl rfl⟩

/-- The task is picked up after it was created and before the stream subscribes:
the client is left with the submitted task. -/
theorem early_pick_up_missed :
    ¬ ∀ tasks pre post s s' snap sub,
      Transition.exec StreamSystem.step (.init tasks) pre = some s → s.call = .read snap →
      Transition.exec StreamSystem.step s (.subscribe :: post) = some s' →
      s'.call = .live sub → sub.cursor = s'.bus.length →
      ClientTask.ofItems sub.items = (s'.tasks.get snap.id).map ClientTask.ofTask := by
  intro h
  have hc := h [] [sampleSubmit, samplePickUp] [] _ _ _ _ rfl rfl rfl rfl rfl
  have hs := congrArg (Option.map ClientTask.state) hc
  exact absurd hs (by decide)

end Trumpet
