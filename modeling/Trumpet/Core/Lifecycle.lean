import Mathlib.Data.List.Chain
import Trumpet.Core.TaskLog
import Trumpet.Lib.Rewind

/-! The task lifecycle over runs of any length: the states a task passes through,
what never changes about it, and what a restore rewinds. -/

namespace Trumpet

/-! ## One task -/

/-- What one operation does to a task: nothing, one edge of the state graph, or
one more artifact. -/
inductive Advance (t : Task) : Task → Prop
  | keep : Advance t t
  | move (new : TaskState) (message : Option TaskMessage) (now : DateTime)
      (edge : TaskState.Edge t.status.state new) : Advance t (t.moveTo new message now)
  | attach (artifact : Artifact) (live : t.terminal = false) : Advance t (t.attach artifact)

/-- `b` is `a` at a later time. -/
structure Grows (a b : Task) : Prop where
  id : b.id = a.id
  contextId : b.contextId = a.contextId
  assignee : b.assignee = a.assignee
  creator : b.creator = a.creator
  metadata : b.metadata = a.metadata
  deadline : b.deadline = a.deadline
  history : a.history <+: b.history
  artifacts : a.artifacts <+: b.artifacts
  final : a.terminal = true → b = a

theorem Grows.refl (t : Task) : Grows t t :=
  ⟨rfl, rfl, rfl, rfl, rfl, rfl, List.prefix_rfl, List.prefix_rfl, fun _ => rfl⟩

theorem Grows.trans {a b c : Task} (h : Grows a b) (h' : Grows b c) : Grows a c where
  id := h'.id.trans h.id
  contextId := h'.contextId.trans h.contextId
  assignee := h'.assignee.trans h.assignee
  creator := h'.creator.trans h.creator
  metadata := h'.metadata.trans h.metadata
  deadline := h'.deadline.trans h.deadline
  history := h.history.trans h'.history
  artifacts := h.artifacts.trans h'.artifacts
  final ht := by
    have hb := h.final ht
    subst hb
    exact h'.final ht

/-- Equal, or one edge of the state graph. -/
def Follows (a b : TaskState) : Prop := a = b ∨ TaskState.Edge a b

theorem Advance.follows {t u : Task} (h : Advance t u) : Follows t.status.state u.status.state := by
  cases h with
  | keep => exact .inl rfl
  | move new message now edge => exact .inr edge
  | attach artifact live => exact .inl rfl

theorem Advance.grows {t u : Task} (h : Advance t u) : Grows t u := by
  cases h with
  | keep => exact .refl t
  | move new message now edge =>
    refine ⟨rfl, rfl, rfl, rfl, rfl, rfl, List.prefix_append _ _, List.prefix_rfl, fun ht => ?_⟩
    rw [Task.terminal, edge.not_terminal] at ht
    cases ht
  | attach artifact live =>
    refine ⟨rfl, rfl, rfl, rfl, rfl, rfl, List.prefix_rfl, List.prefix_append _ _, fun ht => ?_⟩
    rw [live] at ht
    cases ht

namespace TaskManager

/-! ## One operation -/

/-- Every task advances, and every new one is submitted. -/
structure Steps (m m' : TaskManager) : Prop where
  old : ∀ id t, m.get id = some t → ∃ u, m'.get id = some u ∧ Advance t u
  new : ∀ id u, m'.get id = some u → m.get id = none → u.status.state = .submitted

theorem Steps.of_get {m m' : TaskManager} (h : ∀ id, m'.get id = m.get id) : Steps m m' := by
  constructor
  · intro id t hg
    exact ⟨t, (h id).trans hg, .keep⟩
  · intro id u hg hn
    rw [h id, hn] at hg
    cases hg

/-- An operation that changes each task by a function, and stores no new one. -/
theorem Steps.of_map {m m' : TaskManager} {f : TaskId → Task → Task}
    (h : ∀ id, m'.get id = (m.get id).map (f id)) (adv : ∀ id t, Advance t (f id t)) :
    Steps m m' := by
  constructor
  · intro id t hg
    have hf : m'.get id = some (f id t) := by rw [h id, hg, Option.map_some]
    exact ⟨f id t, hf, adv id t⟩
  · intro id u hg hn
    rw [h id, hn] at hg
    cases hg

/-- What a status update does to one task. -/
theorem advance_of_edge (t : Task) (new : TaskState) (message : Option TaskMessage)
    (now : DateTime) :
    Advance t (if t.status.state.canTransitionTo new then t.moveTo new message now else t) := by
  split
  · rename_i h
    exact .move new message now ((TaskState.canTransitionTo_iff _ _).mp h)
  · exact .keep

theorem create_steps {m : TaskManager} {mint : Mint} (fresh : m.get mint.id = none)
    (args : NewTask) : Steps m (m.createTaskWithDeadline mint args).2 := by
  constructor
  · intro id t hg
    refine ⟨t, ?_, .keep⟩
    have hne : id ≠ mint.id := by rintro rfl; rw [fresh] at hg; cases hg
    rw [get_createTaskWithDeadline, if_neg hne, hg]
  · intro id u hg hn
    rw [get_createTaskWithDeadline, hn] at hg
    split at hg
    · cases hg; rfl
    · cases hg

theorem updateStatus_steps (m : TaskManager) (id : TaskId) (new : TaskState)
    (message : Option TaskMessage) (now : DateTime) :
    Steps m (m.updateStatus id new message now).2 := by
  refine .of_map (f := fun k t => if k = id then
    if t.status.state.canTransitionTo new then t.moveTo new message now else t else t) ?_ ?_
  · intro k
    rw [get_updateStatus]
    split
    · rfl
    · simp
  · intro k t
    split
    · exact advance_of_edge t new message now
    · exact .keep

theorem addArtifact_steps (m : TaskManager) (id : TaskId) (artifact : Artifact) :
    Steps m (m.addArtifact id artifact).2 := by
  rcases addArtifact_cases m id artifact with ⟨e, he⟩ | ⟨t, hg, live, he⟩
  · rw [he]; exact .of_get fun _ => rfl
  · rw [he]
    have hid : (t.attach artifact).id = id := (t.attach_id _).trans (id_of_get hg)
    constructor
    · intro k u hk
      simp only [get, publish_tasks, KeyedMap.get_insert, hid]
      by_cases hki : k = id
      · subst hki
        obtain rfl : t = u := Option.some.inj (hg.symm.trans hk)
        exact ⟨_, if_pos rfl, .attach artifact live⟩
      · exact ⟨u, (if_neg hki).trans hk, .keep⟩
    · intro k u hk hn
      simp only [get, publish_tasks, KeyedMap.get_insert, hid] at hk
      split at hk
      · rename_i hki
        rw [hki, hg] at hn
        cases hn
      · rw [show m.tasks.get k = none from hn] at hk
        cases hk

/-- A pass of the watchdog moves each of its tasks once. -/
theorem failEach_steps (m : TaskManager) (text : String) {todo : List (TaskId × TaskState)}
    (hn : (todo.map Prod.fst).Nodup) (draw : Watchdog.Draws) :
    Steps m (Watchdog.failEach m text todo draw) := by
  apply Steps.of_map (Watchdog.get_failEach m text hn draw)
  intro k t
  unfold Watchdog.failed
  split
  · exact .keep
  · exact advance_of_edge t _ _ _

/-- A task is created under an unused id, and the watchdog's list of expired
tasks names each once. -/
def Enabled (m : TaskManager) : TaskOp → Bool
  | .create mint _ => (m.get mint.id).isNone
  | .failExpired todo _ => decide (todo.map Prod.fst).Nodup
  | _ => true

/-- The list the watchdog makes is one it may use. -/
theorem expired_enabled (m m' : TaskManager) (now : DateTime) (draw : Watchdog.Draws) :
    Enabled m' (.failExpired (Watchdog.expired m now) draw) = true :=
  decide_eq_true (Watchdog.pending_nodup _)

theorem perform_steps {m : TaskManager} {op : TaskOp} (h : Enabled m op = true) :
    Steps m (m.perform op).2 := by
  cases op with
  | create mint args => exact create_steps (Option.isNone_iff_eq_none.mp h) args
  | updateStatus id new message now => exact updateStatus_steps m _ _ _ _
  | cancel id message now => exact updateStatus_steps m _ _ _ _
  | addArtifact id artifact => exact addArtifact_steps m _ _
  | failInFlight id draw =>
    refine failEach_steps m _ ?_ draw
    rw [Watchdog.inFlight_eq]
    exact Watchdog.pending_nodup _
  | failExpired todo draw => exact failEach_steps m _ (of_decide_eq_true h) draw
  | reorder ids => exact .of_get fun id => get_reorder m ids id

/-- A failed operation leaves the tasks, the index and both channels alone. -/
theorem perform_error {m : TaskManager} {op : TaskOp} {e : Error}
    (h : (m.perform op).1 = .error e) : (m.perform op).2 = m := by
  have error_of_outcome : ∀ r : Except Error Task × TaskManager,
      (outcome r).1 = .error e → r.1 = .error e := by
    rintro ⟨r | t, m'⟩ he
    · simpa [outcome, Except.map] using he
    · cases he
  cases op with
  | create mint args => cases h
  | updateStatus id new message now => exact updateStatus_error (error_of_outcome _ h)
  | cancel id message now => exact updateStatus_error (error_of_outcome _ h)
  | addArtifact id artifact => exact addArtifact_error (error_of_outcome _ h)
  | failInFlight id draw => cases h
  | failExpired todo draw => cases h
  | reorder ids => cases h

/-! ## Lines of states -/

/-- Every task of `m` is in `m'` at a later time. -/
def Evolves (m m' : TaskManager) : Prop :=
  ∀ id t, m.get id = some t → ∃ u, m'.get id = some u ∧ Grows t u

theorem Steps.evolves {m m' : TaskManager} (h : Steps m m') : Evolves m m' := by
  intro id t hg
  obtain ⟨u, hu, adv⟩ := h.old id t hg
  exact ⟨u, hu, adv.grows⟩

theorem Evolves.trans {a b c : TaskManager} (h : Evolves a b) (h' : Evolves b c) :
    Evolves a c := by
  intro id t hg
  obtain ⟨u, hu, gu⟩ := h id t hg
  obtain ⟨v, hv, gv⟩ := h' id u hu
  exact ⟨v, hv, gu.trans gv⟩

/-- The successive states of a task along a line of managers. -/
def statesOf (id : TaskId) (line : List TaskManager) : List TaskState :=
  line.filterMap fun m => (m.get id).map fun t => t.status.state

/-- A path of the state graph that starts at `submitted`; a state may repeat. -/
def IsPath (states : List TaskState) : Prop :=
  (∀ s ∈ states.head?, s = .submitted) ∧ states.IsChain Follows

/-- The lifecycle of every task along a line of managers, oldest first. -/
structure Lifecycle (line : List TaskManager) : Prop where
  path : ∀ id, IsPath (statesOf id line)
  grows : line.Pairwise Evolves

theorem statesOf_concat (id : TaskId) (line : List TaskManager) (m : TaskManager) :
    statesOf id (line ++ [m]) =
      statesOf id line ++ ((m.get id).map fun t => t.status.state).toList := by
  simp only [statesOf, List.filterMap_append, List.filterMap_cons, List.filterMap_nil]
  cases m.get id <;> rfl

/-- A task the newest manager does not have was never there. -/
theorem statesOf_eq_nil {line : List TaskManager} {m : TaskManager}
    (h : ∀ p ∈ line, Evolves p m) {id : TaskId} (hn : m.get id = none) : statesOf id line = [] := by
  rw [statesOf, List.filterMap_eq_nil_iff]
  intro p hp
  cases hg : p.get id with
  | none => rfl
  | some t =>
    obtain ⟨u, hu, _⟩ := h p hp id t hg
    rw [hn] at hu
    cases hu

/-- A line with a lifecycle, continued by a step from its newest manager. -/
theorem Lifecycle.concat {past : List TaskManager} {now next : TaskManager}
    (h : Lifecycle (past ++ [now])) (hs : Steps now next) :
    Lifecycle (past ++ [now] ++ [next]) := by
  have hnow : ∀ p ∈ past, Evolves p now := fun p hp =>
    (List.pairwise_append.mp h.grows).2.2 p hp now (List.mem_singleton.mpr rfl)
  constructor
  · intro id
    obtain ⟨hhead, hchain⟩ := h.path id
    rw [statesOf_concat]
    cases hg : now.get id with
    | none =>
      have hnil : statesOf id (past ++ [now]) = [] := by
        rw [statesOf_concat, hg, statesOf_eq_nil hnow hg]
        rfl
      rw [hnil, List.nil_append]
      cases hu : next.get id with
      | none => exact ⟨fun _ hm => by (cases hm), List.isChain_nil⟩
      | some u =>
        refine ⟨fun s hm => ?_, List.isChain_singleton _⟩
        have := hs.new id u hu hg
        simpa [this, eq_comm] using hm
    | some t =>
      obtain ⟨u, hu, adv⟩ := hs.old id t hg
      rw [statesOf_concat, hg] at hhead hchain ⊢
      rw [hu]
      constructor
      · intro s hm
        apply hhead s
        simpa using hm
      · apply List.IsChain.append hchain (List.isChain_singleton _)
        intro a ha b hb
        have ha : t.status.state = a := by simpa using ha
        have hb : u.status.state = b := by simpa using hb
        rw [← ha, ← hb]
        exact adv.follows
  · refine List.pairwise_append.mpr ⟨h.grows, List.pairwise_singleton _ _, ?_⟩
    intro p hp m hm
    rw [List.mem_singleton.mp hm]
    rcases List.mem_append.mp hp with hp | hp
    · exact (hnow p hp).trans hs.evolves
    · rw [List.mem_singleton.mp hp]
      exact hs.evolves

end TaskManager

/-! ## Runs with restores -/

namespace TaskRun

def next (m : TaskManager) (op : TaskOp) : Option TaskManager :=
  if m.Enabled op then some (m.perform op).2 else none

/-- A restore continues the line of the manager its list was taken from. -/
def load (now src : TaskManager) : TaskManager := now.restore src.list

abbrev step := Rewind.step next load

theorem next_steps {m m' : TaskManager} {op : TaskOp} (h : next m op = some m') :
    TaskManager.Steps m m' := by
  simp only [next, Option.ite_none_right_eq_some, Option.some.injEq] at h
  obtain ⟨hen, rfl⟩ := h
  exact TaskManager.perform_steps hen

theorem load_steps (now src : TaskManager) : TaskManager.Steps src (load now src) :=
  .of_get (TaskManager.get_restore (.refl _) _)

theorem new_lifecycle : TaskManager.Lifecycle [.new] := by
  refine ⟨fun id => ⟨fun s hs => ?_, ?_⟩, List.pairwise_singleton _ _⟩
  · cases hs
  · exact List.isChain_nil

/-- In every run with restores, along the line of managers that leads to the
current one, the states of each task follow the state graph from `submitted`, a
task only grows and is final once terminal; and an operation that fails changes
nothing and publishes nothing. -/
theorem lifecycle {ls : List (Rewind.Label TaskOp)} {r : Rewind.Run TaskManager}
    (h : Transition.exec step (Rewind.start .new) ls = some r) :
    TaskManager.Lifecycle r.current.states ∧
      ∀ op e, (r.current.now.perform op).1 = .error e → (r.current.now.perform op).2 =
        r.current.now := by
  have hlines := Rewind.line_induction (P := fun b => TaskManager.Lifecycle b.states)
    new_lifecycle (fun _ _ _ hb hs => hb.concat (next_steps hs))
    (fun _ now hb => hb.concat (load_steps now _)) h
  exact ⟨hlines r.current (by simp [Rewind.Run.visited]),
    fun _ _ => TaskManager.perform_error⟩

/-! ### A restore rewinds -/

def sampleMint : Mint := ⟨⟨.ofOctet 1⟩, ⟨.ofOctet 2⟩, 0⟩

def sampleTask : NewTask :=
  ⟨⟨⟨.ofOctet 3⟩, .user, [.text "work"], none⟩, none, none, none, none, none⟩

/-- A task is submitted, picked up and completed; then the list taken before it
was picked up is restored. -/
def rewinding : List (Rewind.Label TaskOp) :=
  [.op (.create sampleMint sampleTask), .op (.updateStatus sampleMint.id .working none 1),
    .op (.updateStatus sampleMint.id .completed none 2), .reload 1]

theorem lifecycle_rewinding :
    ∃ r, Transition.exec step (Rewind.start .new) rewinding = some r ∧
      TaskManager.Lifecycle r.current.states ∧
      ∀ op e, (r.current.now.perform op).1 = .error e → (r.current.now.perform op).2 =
        r.current.now :=
  ⟨_, rfl, @lifecycle rewinding _ rfl⟩

/-- In the order of the run itself the completed task goes back to `submitted`. -/
theorem restore_rewinds :
    ¬ ∀ ls r, Transition.exec step (Rewind.start .new) ls = some r →
      TaskManager.Lifecycle (r.visited.map Rewind.Line.now) := by
  intro h
  have hl : [TaskState.submitted, .working, .completed, .submitted].IsChain Follows :=
    ((h rewinding _ rfl).path sampleMint.id).2
  obtain ⟨_, hl⟩ := List.isChain_cons_cons.mp hl
  obtain ⟨_, hl⟩ := List.isChain_cons_cons.mp hl
  obtain ⟨hback, _⟩ := List.isChain_cons_cons.mp hl
  rcases hback with heq | edge
  · cases heq
  · cases edge

end TaskRun

end Trumpet
