import Trumpet.Grpc.TaskStream

/-! What a task stream sends after its first item: the image of each event of its
task, in publication order, with the artifact the event announced. -/

namespace Trumpet

/-! ## The events of a run, with what they announce -/

namespace StreamSystem

/-- The artifact a step adds to a task, if it is of that kind. -/
def Label.body : Label → Option Artifact
  | .op (.addArtifact _ artifact) => some artifact
  | _ => none

/-- The events a step publishes, each with the artifact the step added. -/
def announced (s : StreamSystem) (l : Label) : List (Event × Option Artifact) :=
  match s.step l with
  | none => []
  | some t => (t.bus.drop s.bus.length).map (·, l.body)

def log (s : StreamSystem) : List Label → List (Event × Option Artifact)
  | [] => []
  | l :: ls => s.announced l ++ ((s.step l).map fun t => log t ls).getD []

theorem log_concat {s t : StreamSystem} {ls : List Label}
    (h : Transition.exec step s ls = some t) (l : Label) :
    s.log (ls ++ [l]) = s.log ls ++ t.announced l := by
  induction ls generalizing s with
  | nil =>
    cases h
    rw [List.nil_append, log, log, List.nil_append]
    cases t.step l <;> simp [log]
  | cons m ls ih =>
    obtain ⟨u, hu, hrun⟩ := Option.bind_eq_some_iff.mp h
    rw [List.cons_append, log, log, hu, Option.map_some, Option.map_some, Option.getD_some,
      Option.getD_some, ih hrun, List.append_assoc]

end StreamSystem

/-- The event is about the task. -/
def Event.concerns (id : TaskId) : Event → Bool
  | taskCreated t => t.id = id
  | taskStatusChanged tid _ _ => tid = id
  | taskArtifactAdded tid _ => tid = id
  | _ => false

/-! ## The image of an event -/

def contentOf : Part → Proto.Content
  | .text text => .text text
  | .url url => .url url
  | .data data => .data (Convert.jsonToProstValue data)
  | .bytes bytes => .raw bytes

/-- The message carries the artifact: its id, name and description, the content of
its parts in order, and its metadata. -/
structure Carries (artifact : Artifact) (p : Proto.Artifact) : Prop where
  artifactId : p.artifactId = artifact.id.toString
  name : p.name = artifact.name.getD ""
  description : p.description = artifact.description.getD ""
  parts : p.parts = artifact.parts.map fun part => ⟨some (contentOf part), none, "", ""⟩
  metadata : p.metadata = artifact.metadata.map Convert.jsonToProstStruct
  extensions : p.extensions = []

/-- The message shows the task, with every artifact and message it has. -/
structure Shows (t : Task) (p : Proto.Task) : Prop where
  id : p.id = t.id.toString
  contextId : p.contextId = t.contextId.toString
  state : p.status.map Proto.TaskStatus.state = some (Convert.coreStateToProto t.status.state)
  status : p.status = some (Convert.coreStatusToProto t.status)
  artifacts : List.Forall₂ Carries t.artifacts p.artifacts
  history : p.history = t.history.map Convert.coreMessageToProto
  metadata : p.metadata = t.metadata.map Convert.jsonToProstStruct

/-- The item is the image of the event: it names the task and its context, and
tells the created task, the new state, or the artifact that was added. The instant
of a status update is that of its sending. -/
def IsImage (id : TaskId) (contextId : ContextId) :
    Event × Option Artifact → Proto.StreamResponse → Prop
  | (.taskCreated t, _), item => ∃ p, item = .task p ∧ Shows t p
  | (.taskStatusChanged _ _ new, _), item =>
    ∃ now, item = .statusUpdate
      { taskId := id.toString
        contextId := contextId.toString
        status := some ⟨Convert.coreStateToProto new, none, some (Convert.datetimeToTimestamp now)⟩
        metadata := none }
  | (.taskArtifactAdded _ _, some artifact), item =>
    ∃ p, Carries artifact p ∧ item = .artifactUpdate
      { taskId := id.toString
        contextId := contextId.toString
        artifact := some p
        append := false
        lastChunk := false
        metadata := none }
  | _, _ => False

theorem carries_artifact (artifact : Artifact) :
    Carries artifact (Convert.coreArtifactToProto artifact) := by
  refine ⟨rfl, rfl, rfl, ?_, rfl, rfl⟩
  apply List.map_congr_left
  intro part _
  cases part <;> rfl

theorem shows_task (t : Task) : Shows t (Convert.coreTaskToProto t) := by
  refine ⟨rfl, rfl, rfl, rfl, ?_, rfl, rfl⟩
  rw [Convert.coreTaskToProto, List.forall₂_map_right_iff, List.forall₂_same]
  exact fun artifact _ => carries_artifact artifact

theorem created_isImage (id : TaskId) (contextId : ContextId) (t : Task)
    (body : Option Artifact) :
    IsImage id contextId (.taskCreated t, body) (.task (Convert.coreTaskToProto t)) :=
  ⟨_, rfl, shows_task t⟩

theorem status_isImage (id : TaskId) (contextId : ContextId) (tid : TaskId)
    (old new : TaskState) (body : Option Artifact) (now : DateTime) :
    IsImage id contextId (.taskStatusChanged tid old new, body)
      (Convert.statusUpdate id contextId new now) :=
  ⟨now, rfl⟩

theorem artifact_isImage (id : TaskId) (contextId : ContextId) (tid : TaskId) (a : ArtifactId)
    (artifact : Artifact) :
    IsImage id contextId (.taskArtifactAdded tid a, some artifact)
      (Convert.artifactUpdate id contextId artifact) :=
  ⟨_, carries_artifact artifact, rfl⟩

/-! ## What one step publishes -/

/-- Where an artifact event of a task comes from: the artifact was added by the
same step, and is on the task. -/
def Backed (m : TaskManager) (id : TaskId) : Event × Option Artifact → Prop
  | (.taskArtifactAdded tid a, body) => tid = id →
    ∃ artifact t, body = some artifact ∧ artifact.id = a ∧ m.get id = some t ∧
      artifact ∈ t.artifacts
  | _ => True

/-- What is on a task stays on it. -/
theorem Backed.evolves {m m' : TaskManager} (h : TaskManager.Evolves m m') {id : TaskId}
    {e : Event × Option Artifact} (hb : Backed m id e) : Backed m' id e := by
  obtain ⟨e, body⟩ := e
  cases e with
  | taskArtifactAdded tid a =>
    intro hid
    obtain ⟨artifact, t, hbody, ha, hg, hmem⟩ := hb hid
    obtain ⟨u, hu, gu⟩ := h id t hg
    exact ⟨artifact, u, hbody, ha, hu, gu.artifacts.subset hmem⟩
  | _ => trivial

theorem backed_of_not_ofTasks {e : Event} (h : e.ofTasks = false) (m : TaskManager) (id : TaskId)
    (body : Option Artifact) : Backed m id (e, body) := by
  cases e <;> trivial

theorem updateStatus_announces (m : TaskManager) (id : TaskId) (new : TaskState)
    (msg : Option TaskMessage) (now : DateTime) :
    ∃ events, (m.updateStatus id new msg now).2.bus.published = m.bus.published ++ events ∧
      ∀ e ∈ events, ∀ m' k body, Backed m' k (e, body) := by
  rcases TaskManager.updateStatus_cases m id new msg now with ⟨e, he⟩ | ⟨t, _, _, he⟩
  · rw [he]
    exact ⟨[], by simp, fun _ h => by cases h⟩
  · rw [he]
    refine ⟨_, rfl, fun e h => ?_⟩
    obtain rfl := List.mem_singleton.mp h
    exact fun _ _ _ => trivial

theorem failEach_announces (m : TaskManager) (text : String) (todo : List (TaskId × TaskState))
    (draw : Watchdog.Draws) :
    ∃ events, (Watchdog.failEach m text todo draw).bus.published = m.bus.published ++ events ∧
      ∀ e ∈ events, ∀ m' k body, Backed m' k (e, body) := by
  apply failEach_events (fun _ h => by cases h) _ updateStatus_announces
  intro events more hevents hmore d hd
  rcases List.mem_append.mp hd with hd | hd
  · exact hevents d hd
  · exact hmore d hd

/-- An operation publishes at the end of the bus, and backs its artifact events. -/
theorem perform_announces (m : TaskManager) (op : TaskOp) :
    ∃ events, (m.perform op).2.bus.published = m.bus.published ++ events ∧
      ∀ e ∈ events, ∀ id, Backed (m.perform op).2 id (e, (StreamSystem.Label.op op).body) := by
  cases op with
  | create mint args =>
    refine ⟨_, rfl, fun e h id => ?_⟩
    obtain rfl := List.mem_singleton.mp h
    trivial
  | updateStatus id new message now =>
    obtain ⟨events, he, hb⟩ := updateStatus_announces m id new message now
    exact ⟨events, he, fun e h k => hb e h _ k _⟩
  | cancel id message now =>
    obtain ⟨events, he, hb⟩ := updateStatus_announces m id .canceled message now
    exact ⟨events, he, fun e h k => hb e h _ k _⟩
  | addArtifact id artifact =>
    show ∃ events, (m.addArtifact id artifact).2.bus.published = _ ∧
      ∀ e ∈ events, ∀ k, Backed (m.addArtifact id artifact).2 k (e, some artifact)
    rcases TaskManager.addArtifact_cases m id artifact with ⟨e, he⟩ | ⟨t, hg, _, he⟩
    · rw [he]
      exact ⟨[], by simp, fun _ h => by cases h⟩
    · rw [he]
      refine ⟨_, rfl, fun e h k => ?_⟩
      obtain rfl := List.mem_singleton.mp h
      rintro rfl
      have hid : (t.attach artifact).id = id := (t.attach_id _).trans (TaskManager.id_of_get hg)
      refine ⟨artifact, t.attach artifact, rfl, rfl, ?_, by simp [Task.attach]⟩
      simp only [TaskManager.get, TaskManager.publish_tasks, KeyedMap.get_insert, hid, if_true]
  | failInFlight id draw =>
    obtain ⟨events, he, hb⟩ := failEach_announces m _ _ draw
    exact ⟨events, he, fun e h k => hb e h _ k _⟩
  | failExpired todo draw =>
    obtain ⟨events, he, hb⟩ := failEach_announces m _ todo draw
    exact ⟨events, he, fun e h k => hb e h _ k _⟩
  | reorder ids =>
    exact ⟨[], by simp [TaskManager.perform, TaskManager.reorder], fun _ h => by cases h⟩

/-! ## One event received -/

/-- With distinct ids, the artifact looked up is the one that was added. -/
theorem find_artifact {as : List Artifact} (hn : (as.map Artifact.id).Nodup) {artifact : Artifact}
    (h : artifact ∈ as) : (as.find? fun a => a.id = artifact.id) = some artifact := by
  cases hf : as.find? fun a => a.id = artifact.id with
  | none =>
    have := List.find?_eq_none.mp hf artifact h
    simp at this
  | some a =>
    have hid := List.find?_some hf
    rw [List.inj_on_of_nodup_map hn (List.mem_of_find?_eq_some hf) h (by simpa using hid)]

/-- An event makes an item exactly when it is about the task, and the item is its
image. -/
theorem receive_image {s : StreamSystem} {sub : Subscriber} {t : Task}
    (hg : s.tasks.get sub.taskId = some t) {e : Event × Option Artifact}
    (hb : Backed s.tasks sub.taskId e) (now : DateTime) :
    ∃ items, (s.receive sub now e.1).items = sub.items ++ items ∧
      ((t.artifacts.map Artifact.id).Nodup →
        List.Forall₂ (IsImage sub.taskId sub.contextId)
          ([e].filter fun d => d.1.concerns sub.taskId) items) := by
  obtain ⟨e, body⟩ := e
  refine ⟨_, rfl, fun hn => ?_⟩
  cases e with
  | taskCreated u =>
    by_cases hu : u.id = sub.taskId
    · simp [Convert.taskEventToStreamResponse, Event.concerns, hu, created_isImage]
    · simp [Convert.taskEventToStreamResponse, Event.concerns, hu]
  | taskStatusChanged tid old new =>
    by_cases ht : tid = sub.taskId
    · simp [Convert.taskEventToStreamResponse, Event.concerns, ht, status_isImage]
    · simp [Convert.taskEventToStreamResponse, Event.concerns, ht]
  | taskArtifactAdded tid a =>
    by_cases ht : tid = sub.taskId
    · obtain ⟨artifact, u, rfl, rfl, hu, hmem⟩ := hb ht
      obtain rfl : t = u := Option.some.inj (hg.symm.trans hu)
      have hf := find_artifact hn hmem
      simp [Convert.taskEventToStreamResponse, StreamSystem.refresh, Event.concerns, ht, hg, hf,
        artifact_isImage]
    · simp [Convert.taskEventToStreamResponse, Event.concerns, ht]
  | _ => simp [Convert.taskEventToStreamResponse, Event.concerns]

/-! ## The stream -/

/-- A stream that subscribed when `base` was on the bus, with the item of `snap`:
it has received the first `received` of the events logged since. -/
structure Sending (snap : Task) (base : List Event) (log : List (Event × Option Artifact))
    (s : StreamSystem) : Prop where
  backed : ∀ e ∈ log, Backed s.tasks snap.id e
  bus : s.bus = base ++ log.map Prod.fst
  live : ∃ sub t received rest, s.call = .live sub ∧ sub.taskId = snap.id ∧
    sub.contextId = snap.contextId ∧ s.tasks.get snap.id = some t ∧
    sub.cursor = base.length + received ∧ received ≤ log.length ∧
    sub.items = .task (Convert.coreTaskToProto snap) :: rest ∧
    ((t.artifacts.map Artifact.id).Nodup → List.Forall₂ (IsImage snap.id snap.contextId)
      ((log.take received).filter fun e => e.1.concerns snap.id) rest)

theorem subscribe_sending {v : TaskManager.View} {s s' : StreamSystem} {snap : Task}
    (h : Reading v s) (hc : s.call = .read snap) (hs : s.step .subscribe = some s') :
    Sending snap s.bus [] s' := by
  obtain ⟨t, hg, _⟩ := h.task snap hc
  simp only [StreamSystem.step, hc, Option.some.injEq] at hs
  subst hs
  refine ⟨fun _ h => by (cases h), by simp [StreamSystem.bus], s.spawnTaskStream snap, t, 0, [],
    rfl, rfl, rfl, hg, rfl, Nat.le_refl 0, rfl, fun _ => .nil⟩

theorem step_sending {snap : Task} {base : List Event} {log : List (Event × Option Artifact)}
    {s s' : StreamSystem} {l : StreamSystem.Label} (h : Sending snap base log s)
    (hs : s.step l = some s') : Sending snap base (log ++ s.announced l) s' := by
  obtain ⟨hback, hbus, sub, t, received, rest, hcall, hid, hctx, hg, hcur, hle, hitems, himg⟩ := h
  cases l with
  | op op =>
    have hann : s.announced (.op op) =
        (s'.bus.drop s.bus.length).map (·, (StreamSystem.Label.op op).body) := by
      rw [StreamSystem.announced, hs]
    simp only [StreamSystem.step, Option.ite_none_right_eq_some, Option.some.injEq] at hs
    obtain ⟨hen, rfl⟩ := hs
    have hev := (TaskManager.perform_steps hen).evolves
    obtain ⟨u, hu, gu⟩ := hev snap.id t hg
    obtain ⟨events, he, hb⟩ := perform_announces s.tasks op
    have hann : s.announced (.op op) = events.map (·, (StreamSystem.Label.op op).body) := by
      rw [hann, StreamSystem.bus, StreamSystem.bus, he, List.drop_left]
    rw [hann]
    refine ⟨?_, ?_, sub, u, received, rest, hcall, hid, hctx, hu, hcur,
      by rw [List.length_append]; omega, hitems, fun hn => ?_⟩
    · intro e hm
      rcases List.mem_append.mp hm with hm | hm
      · exact (hback e hm).evolves hev
      · obtain ⟨d, hd, rfl⟩ := List.mem_map.mp hm
        exact hb d hd snap.id
    · rw [List.map_append, List.map_map, ← List.append_assoc, ← hbus, StreamSystem.bus, he]
      simp [StreamSystem.bus, Function.comp_def]
    · rw [List.take_append_of_le_length hle]
      exact himg (hn.sublist (gu.artifacts.sublist.map _))
  | fetch id => simp [StreamSystem.step, hcall] at hs
  | submit mint args => simp [StreamSystem.step, hcall] at hs
  | subscribe => simp [StreamSystem.step, hcall] at hs
  | receive now =>
    have hann : s.announced (.receive now) = [] := by
      rw [StreamSystem.announced, hs]
      simp only [StreamSystem.step, hcall] at hs
      split at hs
      · cases hs
        simp [StreamSystem.bus]
      · cases hs
    rw [hann, List.append_nil]
    simp only [StreamSystem.step, hcall] at hs
    split at hs
    · rename_i e hnext
      cases hs
      -- The next event on the bus is the next one of the log.
      obtain ⟨d, hd, rfl⟩ : ∃ d, log[received]? = some d ∧ d.1 = e := by
        rw [hcur, hbus, List.getElem?_append_right (Nat.le_add_right _ _), Nat.add_sub_cancel_left,
          List.getElem?_map] at hnext
        exact Option.map_eq_some_iff.mp hnext
      obtain ⟨hlt, _⟩ := List.getElem?_eq_some_iff.mp hd
      obtain ⟨items, hi, himage⟩ := receive_image (hid ▸ hg)
        (hid ▸ hback d (List.mem_of_getElem? hd)) now
      refine ⟨hback, hbus, s.receive sub now d.1, t, received + 1, rest ++ items, rfl, hid, hctx,
        hg, ?_, hlt, ?_, fun hn => ?_⟩
      · simp only [StreamSystem.receive, hcur, Nat.add_assoc]
      · rw [hi, hitems, List.cons_append]
      · rw [List.take_add_one, hd, List.filter_append]
        rw [hid, hctx] at himage
        exact List.rel_append (himg hn) (himage hn)
    · cases hs
  | publish event =>
    have hann : s.announced (.publish event) = (s'.bus.drop s.bus.length).map (·, none) := by
      rw [StreamSystem.announced, hs]
      rfl
    simp only [StreamSystem.step, Option.ite_none_left_eq_some, Option.some.injEq,
      Bool.not_eq_true] at hs
    obtain ⟨hforeign, rfl⟩ := hs
    have hnew : StreamSystem.bus
        { s with tasks := { s.tasks with bus := s.tasks.bus.publish event } } =
        s.bus ++ [event] := rfl
    rw [hann, hnew, List.drop_left, List.map_singleton]
    refine ⟨?_, ?_, sub, t, received, rest, hcall, hid, hctx, hg, hcur,
      by rw [List.length_append]; omega, hitems, fun hn => ?_⟩
    · intro e hm
      rcases List.mem_append.mp hm with hm | hm
      · exact hback e hm
      · obtain rfl := List.mem_singleton.mp hm
        exact backed_of_not_ofTasks hforeign _ _ _
    · rw [hnew, hbus, List.map_append, List.append_assoc]
      rfl
    · rw [List.take_append_of_le_length hle]
      exact himg hn

/-- After its first item a stream has sent, for each event of its task that it has
received since its subscription, the image of the event, and nothing else. -/
theorem stream_items_are_images {tasks : List Task} {pre post : List StreamSystem.Label}
    {s s₁ s' : StreamSystem} {snap t : Task} {sub : Subscriber}
    (hpre : Transition.exec StreamSystem.step (.init tasks) pre = some s)
    (hread : s.call = .read snap) (hsub : s.step .subscribe = some s₁)
    (hpost : Transition.exec StreamSystem.step s₁ post = some s')
    (hlive : s'.call = .live sub) (hg : s'.tasks.get snap.id = some t)
    (hn : (t.artifacts.map Artifact.id).Nodup) :
    s'.bus = s.bus ++ (s₁.log post).map Prod.fst ∧
      ∃ received rest, sub.cursor = s.bus.length + received ∧ received ≤ (s₁.log post).length ∧
        sub.items = .task (Convert.coreTaskToProto snap) :: rest ∧
        List.Forall₂ (IsImage snap.id snap.contextId)
          (((s₁.log post).take received).filter fun e => e.1.concerns snap.id) rest := by
  have hstart : Reading (TaskManager.new.restore tasks).view (.init tasks) :=
    ⟨rfl, fun _ h => by cases h⟩
  have hR := Transition.invariant (P := Reading _) (fun _ _ _ => step_reading) hstart hpre
  have hS : Sending snap s.bus (s₁.log post) s' := by
    refine Transition.history_induction (P := fun ls u => Sending snap s.bus (s₁.log ls) u)
      (subscribe_sending hR hread hsub) (fun ls u l u' hrun ih hl => ?_) hpost
    rw [StreamSystem.log_concat hrun]
    exact step_sending ih hl
  obtain ⟨_, hbus, sub', u, received, rest, hcall, _, _, hu, hcur, hle, hitems, himg⟩ := hS
  obtain rfl : sub' = sub := StreamCall.live.inj (hcall.symm.trans hlive)
  obtain rfl : u = t := Option.some.inj (hu.symm.trans hg)
  exact ⟨hbus, received, rest, hcur, hle, hitems, himg hn⟩

def sampleArtifact (b : UInt8) : Artifact := ⟨⟨.ofOctet b⟩, none, none, [.text "result"], none⟩

def sampleAttach (b : UInt8) : StreamSystem.Label :=
  .op (.addArtifact ⟨.ofOctet 1⟩ (sampleArtifact b))

/-- An agent leaves, two artifacts are added and the task is completed before the
stream receives the first of the events. -/
def lateReader : List StreamSystem.Label :=
  [samplePickUp, .publish (.agentDeregistered ⟨.ofOctet 7⟩), sampleAttach 8, sampleAttach 9,
    .op (.updateStatus ⟨.ofOctet 1⟩ .completed none 2), .receive 3, .receive 3, .receive 3]

theorem stream_items_are_images_late_reader :
    ∃ s s₁ s' snap t sub,
      Transition.exec StreamSystem.step (.init []) [sampleSubmit] = some s ∧
      s.call = .read snap ∧ s.step .subscribe = some s₁ ∧
      Transition.exec StreamSystem.step s₁ lateReader = some s' ∧
      s'.call = .live sub ∧ s'.tasks.get snap.id = some t ∧
      s'.bus = s.bus ++ (s₁.log lateReader).map Prod.fst ∧
      ∃ received rest, sub.cursor = s.bus.length + received ∧
        received ≤ (s₁.log lateReader).length ∧
        sub.items = .task (Convert.coreTaskToProto snap) :: rest ∧
        List.Forall₂ (IsImage snap.id snap.contextId)
          (((s₁.log lateReader).take received).filter fun e => e.1.concerns snap.id) rest :=
  ⟨_, _, _, _, _, _, rfl, rfl, rfl, rfl, rfl, rfl,
    @stream_items_are_images [] [sampleSubmit] lateReader _ _ _ _ _ _
      rfl rfl rfl rfl rfl rfl (by decide)⟩

end Trumpet
