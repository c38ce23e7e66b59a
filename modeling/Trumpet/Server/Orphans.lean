import Trumpet.Server.Interleaving
import Trumpet.Server.Restart

/-! Work stuck on a disconnected agent: which steps can leave it there. -/

namespace Trumpet

/-- `b` has no live task that `a` has not, under the same assignee. -/
def TaskManager.LiveFrom (a b : TaskManager) : Prop :=
  ∀ k t, b.get k = some t → t.terminal = false →
    ∃ u, a.get k = some u ∧ u.terminal = false ∧ u.assignee = t.assignee

namespace TaskManager

theorem LiveFrom.refl (m : TaskManager) : LiveFrom m m := fun _ t hg hl => ⟨t, hg, hl, rfl⟩

theorem LiveFrom.trans {a b c : TaskManager} (h : LiveFrom a b) (h' : LiveFrom b c) :
    LiveFrom a c := by
  intro k t hg hl
  obtain ⟨u, hu, hul, hua⟩ := h' k t hg hl
  obtain ⟨v, hv, hvl, hva⟩ := h k u hu hul
  exact ⟨v, hv, hvl, hva.trans hua⟩

theorem LiveFrom.of_get {a b : TaskManager} (h : ∀ k, b.get k = a.get k) : LiveFrom a b :=
  fun k t hg hl => ⟨t, (h k).symm.trans hg, hl, rfl⟩

theorem updateStatus_liveFrom (m : TaskManager) (id : TaskId) (new : TaskState)
    (msg : Option TaskMessage) (now : DateTime) : LiveFrom m (m.updateStatus id new msg now).2 := by
  intro k t hg hl
  rw [get_updateStatus] at hg
  split at hg
  · obtain ⟨u, hu, rfl⟩ := Option.map_eq_some_iff.mp hg
    split at hl
    · rename_i hc
      have edge := (TaskState.canTransitionTo_iff _ _).mp hc
      refine ⟨u, hu, edge.not_terminal, ?_⟩
      rw [if_pos hc]; rfl
    · rename_i hc
      refine ⟨u, hu, hl, ?_⟩
      rw [if_neg hc]
  · exact ⟨t, hg, hl, rfl⟩

theorem failEach_liveFrom (m : TaskManager) (text : String) (todo : List (TaskId × TaskState))
    (draw : Watchdog.Draws) : LiveFrom m (Watchdog.failEach m text todo draw) := by
  induction todo generalizing m with
  | nil => exact .refl m
  | cons e todo ih => exact (updateStatus_liveFrom m _ _ _ _).trans (ih _)

end TaskManager

namespace AppState

/-- The agent is disconnected and has a live task. -/
def Orphaned (s : AppState) (id : AgentId) : Prop :=
  (s.registry.get id).any (fun info => info.status = .disconnected) = true ∧
    s.tasks.list.any (fun t => t.assignee = some id && !t.terminal) = true

theorem orphaned_iff {s : AppState} {id : AgentId} :
    Orphaned s id ↔
      (∃ info, s.registry.get id = some info ∧ info.status = .disconnected) ∧
        ∃ k t, s.tasks.get k = some t ∧ t.assignee = some id ∧ t.terminal = false := by
  simp only [Orphaned, Option.any_eq_true, List.any_eq_true, decide_eq_true_eq,
    Bool.and_eq_true, Bool.not_eq_true']
  refine and_congr_right fun _ => ⟨?_, ?_⟩
  · rintro ⟨t, hm, ha, hl⟩
    exact ⟨t.id, t, TaskManager.mem_list.mp hm, ha, hl⟩
  · rintro ⟨k, t, hg, ha, hl⟩
    exact ⟨t, KeyedMap.mem_of_get hg, ha, hl⟩

/-- The two stores an orphan depends on, up to lookups. -/
theorem Orphaned.congr {a b : AppState} (hr : ∀ id, a.registry.get id = b.registry.get id)
    (ht : ∀ k, a.tasks.get k = b.tasks.get k) {id : AgentId} : Orphaned a id ↔ Orphaned b id := by
  simp only [orphaned_iff, hr, ht]

/-- Without an agent that is disconnected anew, an orphan comes from the tasks. -/
theorem Orphaned.of_same {a : AppState} {registry : AgentRegistry}
    (same : ∀ id info, registry.get id = some info → info.status = .disconnected →
      a.registry.get id = some info) {id : AgentId}
    (ho : Orphaned { a with registry := registry } id) : Orphaned a id := by
  obtain ⟨⟨info, hg, hd⟩, hk⟩ := orphaned_iff.mp ho
  exact orphaned_iff.mpr ⟨⟨info, same id info hg hd, hd⟩, hk⟩

/-- Without a new live task, an orphan comes from the agents. -/
theorem Orphaned.of_liveFrom {a : AppState} {tasks : TaskManager}
    (h : TaskManager.LiveFrom a.tasks tasks) {id : AgentId}
    (ho : Orphaned { a with tasks := tasks } id) : Orphaned a id := by
  obtain ⟨hd, k, t, hg, ha, hl⟩ := orphaned_iff.mp ho
  obtain ⟨u, hu, hul, hua⟩ := h k t hg hl
  exact orphaned_iff.mpr ⟨hd, k, u, hu, hua.trans ha, hul⟩

/-- A start from a snapshot brings back the orphans of the state it was taken of,
and no others. -/
theorem orphaned_start {s : AppState} (h : s.registry.Valid) (ids : String → ToolId)
    (id : AgentId) : Orphaned (start (some s.toSnapshot) ids) id ↔ Orphaned s id :=
  Orphaned.congr (AgentRegistry.restore_list h (.refl _) AgentRegistry.new).2
    (TaskManager.get_restore (.refl _) TaskManager.new)

end AppState

namespace Nexus

/-- What a step must respect for no work to be orphaned. A task is created only
for an assignee that is still connected or whose tasks the sweep has yet to
fail; and no snapshot is taken while such an agent has a live task. -/
def Respects (s : Nexus) : Label → Prop
  | .create i _ => ∀ p ∈ s.submits[i]?, ∀ id ∈ p.resolved,
      (s.app.registry.get id).any (fun info => info.status = .disconnected) = true →
        id ∈ s.sweep.awaiting
  | .save => ∀ id ∈ s.sweep.awaiting, ¬ s.app.Orphaned id
  | _ => True

/-- Only agents whose tasks are yet to be failed have orphans, and no saved
snapshot restores one. -/
structure Clean (s : Nexus) : Prop where
  registry : s.app.registry.Valid
  orphans : ∀ id, s.app.Orphaned id → id ∈ s.sweep.awaiting
  saved : ∀ snapshot ∈ s.saved, ∀ ids,
    (AppState.start (some snapshot) ids).registry.Valid ∧
      ∀ id, ¬ (AppState.start (some snapshot) ids).Orphaned id

theorem start_clean (ids : String → ToolId) : Clean (start ids) := by
  refine ⟨AgentRegistry.new_valid, ?_, fun _ h => by cases h⟩
  rintro id ⟨h, _⟩
  cases h

/-- A step on the tasks that makes none live, in an unchanged sweep or one that
awaits as many agents. -/
theorem Clean.setTasks {s : Nexus} (h : Clean s) {tasks : TaskManager}
    (live : TaskManager.LiveFrom s.app.tasks tasks) : Clean (s.setTasks tasks) :=
  ⟨h.registry, fun id ho => h.orphans id (AppState.Orphaned.of_liveFrom live ho), h.saved⟩

/-- A step on the agents that disconnects none. -/
theorem Clean.setRegistry {s : Nexus} (h : Clean s) {registry : AgentRegistry}
    (valid : registry.Valid)
    (same : ∀ id info, registry.get id = some info → info.status = .disconnected →
      s.app.registry.get id = some info) : Clean (s.setRegistry registry) :=
  ⟨valid, fun id ho => h.orphans id (AppState.Orphaned.of_same same ho), h.saved⟩

theorem Clean.setSweep {s : Nexus} (h : Clean s) {sweep : Sweep}
    (awaits : ∀ id ∈ s.sweep.awaiting, id ∈ sweep.awaiting) : Clean { s with sweep := sweep } :=
  ⟨h.registry, fun id ho => awaits id (h.orphans id ho), h.saved⟩

/-- Creating a task orphans at most its own assignee. -/
theorem orphaned_create {s : AppState} {mint : Mint} {args : NewTask} {id : AgentId}
    (h : AppState.Orphaned { s with tasks := (s.tasks.createTaskWithDeadline mint args).2 } id) :
    s.Orphaned id ∨ args.assignee = some id := by
  obtain ⟨hd, k, t, hg, ha, hl⟩ := AppState.orphaned_iff.mp h
  rw [TaskManager.get_createTaskWithDeadline] at hg
  split at hg
  · cases hg; exact .inr ha
  · exact .inl (AppState.orphaned_iff.mpr ⟨hd, k, t, hg, ha, hl⟩)

/-- Every step that respects the guard keeps the state clean. -/
theorem step_clean {timeout : Nat} {s t : Nexus} {l : Label} (h : Clean s) (hg : Respects s l)
    (hs : step timeout s l = some t) : Clean t := by
  cases l with
  | register id now name caps =>
    simp only [step, Option.ite_none_right_eq_some, Option.some.injEq] at hs
    obtain ⟨fresh, rfl⟩ := hs
    exact h.setRegistry (AgentRegistry.register_valid h.registry fresh _ _ _)
      fun _ _ => AgentRegistry.disconnected_of_register
  | heartbeat id now =>
    cases hs
    exact h.setRegistry (AgentRegistry.heartbeat_valid h.registry _ _)
      fun _ _ => AgentRegistry.disconnected_of_heartbeat
  | resolve args mint =>
    simp only [step] at hs
    split at hs
    · cases hs; exact h
    · cases hs; exact ⟨h.registry, h.orphans, h.saved⟩
  | create i mint =>
    simp only [step] at hs
    split at hs
    · cases hs
    · rename_i p hp
      simp only [Option.ite_none_left_eq_some, Option.some.injEq] at hs
      obtain ⟨_, rfl⟩ := hs
      refine ⟨h.registry, fun id ho => ?_, h.saved⟩
      rcases orphaned_create ho with hold | hnew
      · exact h.orphans id hold
      · exact hg p hp id hnew ho.1
  | updateStatus id new message now =>
    cases hs
    exact h.setTasks (TaskManager.updateStatus_liveFrom _ _ _ _ _)
  | cancel id message now =>
    cases hs
    exact h.setTasks (TaskManager.updateStatus_liveFrom _ _ _ _ _)
  | collect now =>
    simp only [step] at hs
    split at hs
    · rename_i hsw _
      cases hs
      exact h.setSweep fun id hid => by rw [hsw] at hid; cases hid
    · cases hs
  | flip =>
    simp only [step] at hs
    split at hs
    · rename_i now _ ids hsw
      cases hs
      refine ⟨Watchdog.flip_valid h.registry ids, fun id ho => ?_, h.saved⟩
      -- The sweep awaited no one, so an orphan's agent is one of those just flipped.
      by_contra hid
      have hsame : (Watchdog.flip s.app.registry ids).get id = s.app.registry.get id := by
        rw [Watchdog.get_flip]; exact if_neg hid
      have hold : s.app.Orphaned id := by
        obtain ⟨⟨info, hg, hd⟩, hk⟩ := AppState.orphaned_iff.mp ho
        exact AppState.orphaned_iff.mpr ⟨⟨info, hsame ▸ hg, hd⟩, hk⟩
      have := h.orphans id hold
      rw [hsw] at this
      cases this
    · cases hs
  | failAgent draw =>
    simp only [step] at hs
    split at hs
    · rename_i now id ids hsw
      cases hs
      have hclean : Clean (s.setTasks (Watchdog.failInFlight s.app.tasks id draw)) :=
        h.setTasks (TaskManager.failEach_liveFrom _ _ _ _)
      refine ⟨h.registry, fun j ho => ?_, h.saved⟩
      have hj := hclean.orphans j ho
      simp only [Nexus.setTasks, hsw, Sweep.awaiting, List.mem_cons] at hj
      simp only [awaiting_afterFail]
      apply hj.resolve_left
      rintro rfl
      -- The agent just passed has no live task left.
      obtain ⟨_, k, t, hk, ha, hl⟩ := AppState.orphaned_iff.mp ho
      have ht := Watchdog.terminal_of_failInFlight hk ha
      rw [hl] at ht
      cases ht
    · cases hs
  | scan =>
    simp only [step] at hs
    split at hs
    · rename_i now hsw
      cases hs
      exact h.setSweep fun id hid => by rw [hsw] at hid; cases hid
    · cases hs
  | expire draw =>
    simp only [step] at hs
    split at hs
    · rename_i todo hsw
      cases hs
      have hclean : Clean (s.setTasks (Watchdog.failExpired s.app.tasks todo draw)) :=
        h.setTasks (TaskManager.failEach_liveFrom _ _ _ _)
      exact hclean.setSweep fun id hid => by
        simp only [Nexus.setTasks, hsw] at hid; cases hid
    · cases hs
  | save =>
    cases hs
    refine ⟨h.registry, h.orphans, fun snapshot hm ids => ?_⟩
    rcases List.mem_append.mp hm with hm | hm
    · exact h.saved snapshot hm ids
    · obtain rfl := List.mem_singleton.mp hm
      refine ⟨(AgentRegistry.restore_list h.registry (.refl _) _).1, fun id ho => ?_⟩
      have ho := (AppState.orphaned_start h.registry ids id).mp ho
      exact hg id (h.orphans id ho) ho
  | restart i ids =>
    simp only [step] at hs
    split at hs
    · cases hs
    · rename_i snapshot hsn
      cases hs
      obtain ⟨hv, hno⟩ := h.saved snapshot (List.mem_of_getElem? hsn) ids
      exact ⟨hv, fun id ho => absurd ho (hno id), h.saved⟩
  | reorderAgents ids =>
    cases hs
    apply h.setRegistry (AgentRegistry.reorder_valid h.registry ids)
    intro id info hid _
    rwa [AgentRegistry.get_reorder] at hid
  | reorderTasks ids =>
    cases hs
    exact h.setTasks (.of_get fun k => TaskManager.get_reorder _ _ _)

/-- An orphan survives a snapshot and a restart, which leave the daemon at rest. -/
theorem orphan_after_restart {timeout : Nat} {s : Nexus} (hv : s.app.registry.Valid)
    (id : AgentId) (ho : s.app.Orphaned id) (ids : String → ToolId) :
    ∃ ms u, Transition.exec (step timeout) s ms = some u ∧ Quiescent u ∧
      ∃ id, u.app.Orphaned id := by
  refine ⟨[.save, .restart s.saved.length ids],
    ⟨.start (some s.app.toSnapshot) ids, [], .idle, s.saved ++ [s.app.toSnapshot]⟩, ?_,
    ⟨rfl, rfl⟩, id, (AppState.orphaned_start hv ids id).mpr ho⟩
  simp [Transition.exec, step]

/-- A step that does not respect the guard leads, through a snapshot and a
restart, to a daemon at rest with an orphan. -/
theorem orphan_of_disrespect {timeout : Nat} {s t : Nexus} {l : Label} (h : Clean s)
    (hg : ¬ Respects s l) (hs : step timeout s l = some t) (ids : String → ToolId) :
    ∃ ms u, Transition.exec (step timeout) t ms = some u ∧ Quiescent u ∧
      ∃ id, u.app.Orphaned id := by
  cases l with
  | create i mint =>
    simp only [Respects, not_forall] at hg
    obtain ⟨p, hp, id, hid, hd, _⟩ := hg
    simp only [Option.mem_def] at hp hid
    simp only [step, hp, Option.ite_none_left_eq_some, Option.some.injEq] at hs
    obtain ⟨_, rfl⟩ := hs
    obtain ⟨info, hi, hdis⟩ := (Option.any_eq_true _ _).mp hd
    refine orphan_after_restart h.registry id ?_ ids
    exact AppState.orphaned_iff.mpr ⟨⟨info, hi, by simpa using hdis⟩, mint.id, _,
      @KeyedMap.get_insert_self _ _ Task.id _ _ _, hid, rfl⟩
  | save =>
    simp only [Respects, not_forall, not_not] at hg
    obtain ⟨id, _, ho⟩ := hg
    cases hs
    exact orphan_after_restart h.registry id ho ids
  | _ => exact absurd trivial hg

/-- In every run whose steps respect the guard, no state at rest has an orphan;
and no step may be exempted from it, since one that does not respect it can be
followed by steps that end at rest with an orphan. -/
theorem no_orphans_when_respected (timeout : Nat) (ids : String → ToolId) :
    (∀ ls s, Transition.exec (step timeout) (start ids) ls = some s →
      Transition.EachStep (step timeout) (fun _ => Respects) (start ids) ls →
      Quiescent s → ∀ id, ¬ s.app.Orphaned id) ∧
    ∀ ls s l t, Transition.exec (step timeout) (start ids) ls = some s →
      Transition.EachStep (step timeout) (fun _ => Respects) (start ids) ls →
      step timeout s l = some t → ¬ Respects s l →
      ∃ ms u, Transition.exec (step timeout) t ms = some u ∧ Quiescent u ∧
        ∃ id, u.app.Orphaned id := by
  have clean : ∀ ls s, Transition.exec (step timeout) (start ids) ls = some s →
      Transition.EachStep (step timeout) (fun _ => Respects) (start ids) ls → Clean s :=
    fun ls s hrun hg => Transition.guarded_invariant (P := Clean) (fun _ _ _ => step_clean)
      (start_clean ids) hg hrun
  constructor
  · intro ls s hrun hg ⟨_, hidle⟩ id ho
    have := (clean ls s hrun hg).orphans id ho
    rw [hidle] at this
    cases this
  · intro ls s l t hrun hg hs hno
    exact orphan_of_disrespect (clean ls s hrun hg) hno hs ids

/-! ### Creations in time, and one that comes too late -/

def sampleAgent : AgentId := ⟨.ofOctet 1⟩

def samplePinned : TaskFacade.Submission :=
  ⟨⟨⟨.ofOctet 2⟩, .user, [.text "work"], none⟩, none, some sampleAgent, none, none⟩

def sampleMint : Mint := ⟨⟨.ofOctet 3⟩, ⟨.ofOctet 4⟩, 0⟩

/-- Two pinned submissions find their agent connected; one task is created before the
sweep, the other between the flip and the failing of the agent's tasks. -/
def timelyCreations : List Label :=
  [.register sampleAgent 0 "worker" none, .resolve samplePinned sampleMint,
    .resolve samplePinned sampleMint, .create 0 sampleMint, .collect 2000000000, .flip,
    .create 0 ⟨⟨.ofOctet 6⟩, ⟨.ofOctet 7⟩, 2000000000⟩,
    .failAgent fun _ => (⟨.ofOctet 5⟩, 2000000000), .scan, .save,
    .restart 0 AppState.sampleIds]

theorem timely_creations_failed :
    ∃ s, Transition.exec (step 1000000000) (start AppState.sampleIds) timelyCreations = some s ∧
      Transition.EachStep (step 1000000000) (fun _ => Respects) (start AppState.sampleIds)
        timelyCreations ∧ Quiescent s ∧ s.app.registry.list.map AgentInfo.status = [.disconnected] ∧
      s.app.tasks.list.map (fun t => (t.assignee, t.status.state)) =
        [(some sampleAgent, .rejected), (some sampleAgent, .rejected)] ∧
      ∀ id, ¬ s.app.Orphaned id := by
  have hrun : Transition.exec (step 1000000000) (start AppState.sampleIds) timelyCreations =
      some _ := rfl
  have hguard : Transition.EachStep (step 1000000000) (fun _ => Respects)
      (start AppState.sampleIds) timelyCreations := by
    refine .next trivial rfl (.next trivial rfl (.next trivial rfl (.next ?_ rfl
      (.next trivial rfl (.next trivial rfl (.next ?_ rfl (.next trivial rfl (.next trivial rfl
        (.next ?_ rfl (.next trivial rfl .nil))))))))))
    · rintro p ⟨⟩ id ⟨⟩ hd
      cases hd
    · rintro p ⟨⟩ id ⟨⟩ -
      exact List.mem_cons_self
    · rintro id ⟨⟩
  exact ⟨_, hrun, hguard, ⟨rfl, rfl⟩, rfl, rfl,
    (no_orphans_when_respected 1000000000 AppState.sampleIds).1 _ _ hrun hguard ⟨rfl, rfl⟩⟩

/-- A pinned submission finds its agent connected; before the task is created, a
whole sweep flips the agent and fails the tasks it has so far, none. -/
def lateCreation : List Label :=
  [.register sampleAgent 0 "worker" none, .resolve samplePinned sampleMint,
    .collect 2000000000, .flip, .failAgent fun _ => (⟨.ofOctet 5⟩, 2000000000), .scan,
    .create 0 sampleMint]

theorem late_creation_orphans :
    ¬ ∀ ls s, Transition.exec (step 1000000000) (start AppState.sampleIds) ls = some s →
      Quiescent s → ∀ id, ¬ s.app.Orphaned id := by
  intro h
  exact h lateCreation _ rfl ⟨rfl, rfl⟩ sampleAgent ⟨rfl, rfl⟩

end Nexus

end Trumpet
