import Trumpet.Server.Orphans

/-! Requests and whole sweeps one after another: what becomes of the work of an
agent that is deregistered. -/

namespace Trumpet

namespace AppState

/-- Every live task with an assignee has one that is registered and connected. -/
def NoStuckWork (s : AppState) : Prop :=
  ∀ k t, Watchdog.LiveAt s.tasks k t → ∀ id ∈ t.assignee,
    ∃ info, s.registry.get id = some info ∧ info.status = .connected

/-- Every live task with an assignee has one that is registered, or a deadline that
has passed. -/
def Undeserted (s : AppState) (now : DateTime) : Prop :=
  ∀ k t, Watchdog.LiveAt s.tasks k t → ∀ id ∈ t.assignee,
    (s.registry.get id).isSome = true ∨ t.deadline.any (· < now) = true

end AppState

namespace Sequential

inductive Label where
  | register (id : AgentId) (now : DateTime) (name : String)
      (capabilities : Option AgentCapabilities)
  | heartbeat (id : AgentId) (now : DateTime)
  | deregister (id : AgentId)
  /-- The router sees a task of its own, `temp`. -/
  | submit (args : TaskFacade.Submission) (temp mint : Mint)
  | updateStatus (id : TaskId) (new : TaskState) (message : Option TaskMessage) (now : DateTime)
  | cancel (id : TaskId) (message : Option TaskMessage) (now : DateTime)
  | sweep (now : DateTime) (draw : AgentId → Watchdog.Draws) (last : Watchdog.Draws)
  | reorderAgents (ids : List AgentId)
  | reorderTasks (ids : List TaskId)

/-- A refused submission changes nothing. -/
def submit (s : AppState) (args : TaskFacade.Submission) (temp mint : Mint) : AppState :=
  match TaskFacade.resolveAssignee s.registry args temp with
  | .error _ => s
  | .ok resolved =>
    { s with tasks := (s.tasks.createTaskWithDeadline mint (args.newTask resolved)).2 }

/-- Each request runs to its end before the next one or a sweep begins. -/
def step (timeout : Nat) (s : AppState) : Label → Option AppState
  | .register id now name caps =>
    if s.registry.get id = none then
      some { s with registry := (s.registry.register id now name caps).2 }
    else none
  | .heartbeat id now => some { s with registry := (s.registry.heartbeat id now).2 }
  | .deregister id => some { s with registry := (s.registry.deregister id).2 }
  | .submit args temp mint =>
    if (s.tasks.get mint.id).isSome then none else some (submit s args temp mint)
  | .updateStatus id new message now =>
    some { s with tasks := (s.tasks.updateStatus id new message now).2 }
  | .cancel id message now => some { s with tasks := (s.tasks.cancel id message now).2 }
  | .sweep now draw last =>
    (Watchdog.sweep s.registry s.tasks timeout now draw last).map fun r =>
      { s with registry := r.1, tasks := r.2 }
  | .reorderAgents ids => some { s with registry := s.registry.reorder ids }
  | .reorderTasks ids => some { s with tasks := s.tasks.reorder ids }

/-! ## No work is left to a disconnected agent -/

/-- No live task is assigned to a disconnected agent. -/
def NoOrphans (s : AppState) : Prop := ∀ id, ¬ s.Orphaned id

theorem start_noOrphans (ids : String → ToolId) : NoOrphans (.start none ids) := by
  rintro id ⟨h, _⟩
  cases h

/-- A new task's assignee is connected. -/
theorem submit_noOrphans {s : AppState} (h : NoOrphans s) (args : TaskFacade.Submission)
    (temp mint : Mint) : NoOrphans (submit s args temp mint) := by
  unfold submit
  split
  · exact h
  · rename_i resolved hr
    intro id ho
    rcases Nexus.orphaned_create ho with hold | hnew
    · exact h id hold
    · have hnew : resolved = some id := hnew
      subst hnew
      obtain ⟨info, hg, hc⟩ := TaskFacade.resolveAssignee_connected hr
      obtain ⟨⟨info', hg', hd⟩, _⟩ := AppState.orphaned_iff.mp ho
      obtain rfl : info = info' := Option.some.inj (hg.symm.trans hg')
      rw [hc] at hd
      cases hd

/-- The agents a sweep disconnects lose their live tasks in the same sweep. -/
theorem sweep_noOrphans {s : AppState} (h : NoOrphans s) {timeout : Nat} {now : DateTime}
    {draw : AgentId → Watchdog.Draws} {last : Watchdog.Draws} {r : AgentRegistry × TaskManager}
    (hs : Watchdog.sweep s.registry s.tasks timeout now draw last = some r) :
    NoOrphans { s with registry := r.1, tasks := r.2 } := by
  obtain ⟨ids, hreg, _, hlive⟩ := Watchdog.live_sweep hs
  intro id ho
  obtain ⟨⟨info, hg, hd⟩, k, t, hk, ha, hl⟩ := AppState.orphaned_iff.mp ho
  obtain ⟨⟨hk, _⟩, hne, _⟩ := (hlive k t).mp ⟨hk, hl⟩
  have hid : id ∉ ids := fun hm => hne id hm ha
  have hg : (Watchdog.flip s.registry ids).get id = some info := hreg ▸ hg
  rw [Watchdog.get_flip, if_neg hid] at hg
  exact h id (AppState.orphaned_iff.mpr ⟨⟨info, hg, hd⟩, k, t, hk, ha, hl⟩)

theorem step_noOrphans {timeout : Nat} {s t : AppState} {l : Label} (h : NoOrphans s)
    (hs : step timeout s l = some t) : NoOrphans t := by
  cases l with
  | register id now name caps =>
    simp only [step, Option.ite_none_right_eq_some, Option.some.injEq] at hs
    obtain ⟨_, rfl⟩ := hs
    exact fun id ho => h id
      (AppState.Orphaned.of_same (fun _ _ => AgentRegistry.disconnected_of_register) ho)
  | heartbeat id now =>
    cases hs
    exact fun id ho => h id
      (AppState.Orphaned.of_same (fun _ _ => AgentRegistry.disconnected_of_heartbeat) ho)
  | deregister id =>
    cases hs
    refine fun j ho => h j (AppState.Orphaned.of_same (fun k info hg _ => ?_) ho)
    rw [AgentRegistry.get_deregister] at hg
    split at hg
    · cases hg
    · exact hg
  | submit args temp mint =>
    simp only [step, Option.ite_none_left_eq_some, Option.some.injEq] at hs
    obtain ⟨_, rfl⟩ := hs
    exact submit_noOrphans h args temp mint
  | updateStatus id new message now =>
    cases hs
    exact fun id ho => h id
      (AppState.Orphaned.of_liveFrom (TaskManager.updateStatus_liveFrom _ _ _ _ _) ho)
  | cancel id message now =>
    cases hs
    exact fun id ho => h id
      (AppState.Orphaned.of_liveFrom (TaskManager.updateStatus_liveFrom _ _ _ _ _) ho)
  | sweep now draw last =>
    obtain ⟨r, hr, rfl⟩ := Option.map_eq_some_iff.mp hs
    exact sweep_noOrphans h hr
  | reorderAgents ids =>
    cases hs
    refine fun id ho => h id (AppState.Orphaned.of_same (fun k info hg _ => ?_) ho)
    rwa [AgentRegistry.get_reorder] at hg
  | reorderTasks ids =>
    cases hs
    exact fun id ho => h id
      (AppState.Orphaned.of_liveFrom (.of_get (TaskManager.get_reorder _ _)) ho)

/-! ## Right after a sweep -/

/-- A sweep leaves no stuck work exactly when it finds no live task of an agent that
is no longer registered, but for tasks whose own deadline has passed. -/
theorem sweep_noStuckWork_iff {s : AppState} (h : NoOrphans s) {timeout : Nat} {now : DateTime}
    {draw : AgentId → Watchdog.Draws} {last : Watchdog.Draws} {r : AgentRegistry × TaskManager}
    (hs : Watchdog.sweep s.registry s.tasks timeout now draw last = some r) :
    AppState.NoStuckWork { s with registry := r.1, tasks := r.2 } ↔ s.Undeserted now := by
  obtain ⟨ids, hreg, hknown, hlive⟩ := Watchdog.live_sweep hs
  constructor
  · intro hno k t hl id ha
    cases hd : t.deadline.any (· < now) with
    | true => exact .inr rfl
    | false =>
      refine .inl ?_
      by_cases hid : id ∈ ids
      · exact hknown id hid
      · -- The task outlives the sweep, so its assignee is registered.
        have hout : Watchdog.LiveAt r.2 k t := by
          refine (hlive k t).mpr ⟨hl, fun j hj hja => ?_, hd⟩
          rw [Option.mem_def.mp ha] at hja
          exact hid (Option.some.inj hja ▸ hj)
        obtain ⟨info, hg, _⟩ := hno k t hout id ha
        have hg : r.1.get id = some info := hg
        rw [hreg, Watchdog.get_flip, if_neg hid] at hg
        rw [hg]
        rfl
  · intro hun k t hl id ha
    obtain ⟨hl, hne, hd⟩ := (hlive k t).mp hl
    have hid : id ∉ ids := fun hm => hne id hm ha
    rcases hun k t hl id ha with hreg' | hpast
    · obtain ⟨info, hg⟩ := Option.isSome_iff_exists.mp hreg'
      refine ⟨info, ?_, ?_⟩
      · show r.1.get id = some info
        rw [hreg, Watchdog.get_flip, if_neg hid, hg]
      · cases hst : info.status with
        | connected => rfl
        | disconnected =>
          exact absurd (AppState.orphaned_iff.mpr ⟨⟨info, hg, hst⟩, k, t, hl.1, ha, hl.2⟩) (h id)
    · rw [hd] at hpast
      cases hpast

/-! ## Deregistering only agents without live tasks -/

/-- An agent is deregistered only when it has no live task. -/
def Respects (s : AppState) : Label → Prop
  | .deregister id => ∀ k t, Watchdog.LiveAt s.tasks k t → t.assignee ≠ some id
  | _ => True

/-- Every live task with an assignee has one that is registered. -/
def Assigned (s : AppState) : Prop :=
  ∀ k t, Watchdog.LiveAt s.tasks k t → ∀ id ∈ t.assignee, (s.registry.get id).isSome = true

theorem Assigned.setRegistry {s : AppState} (h : Assigned s) {registry : AgentRegistry}
    (known : ∀ id, (s.registry.get id).isSome = true → (registry.get id).isSome = true) :
    Assigned { s with registry := registry } :=
  fun k t hl id ha => known id (h k t hl id ha)

theorem Assigned.setTasks {s : AppState} (h : Assigned s) {tasks : TaskManager}
    (live : TaskManager.LiveFrom s.tasks tasks) : Assigned { s with tasks := tasks } := by
  rintro k t ⟨hg, hl⟩ id ha
  obtain ⟨u, hu, hul, hua⟩ := live k t hg hl
  exact h k u ⟨hu, hul⟩ id (by rw [hua]; exact ha)

theorem submit_assigned {s : AppState} (h : Assigned s) (args : TaskFacade.Submission)
    (temp mint : Mint) : Assigned (submit s args temp mint) := by
  unfold submit
  split
  · exact h
  · rename_i resolved hr
    rintro k t ⟨hg, hl⟩ id ha
    rw [TaskManager.get_createTaskWithDeadline] at hg
    split at hg
    · cases hg
      have ha : resolved = some id := ha
      subst ha
      obtain ⟨info, hi, _⟩ := TaskFacade.resolveAssignee_connected hr
      exact Option.isSome_iff_exists.mpr ⟨info, hi⟩
    · exact h k t ⟨hg, hl⟩ id ha

theorem step_assigned {timeout : Nat} {s t : AppState} {l : Label} (h : Assigned s)
    (hg : Respects s l) (hs : step timeout s l = some t) : Assigned t := by
  cases l with
  | register id now name caps =>
    simp only [step, Option.ite_none_right_eq_some, Option.some.injEq] at hs
    obtain ⟨_, rfl⟩ := hs
    apply h.setRegistry
    intro j hj
    rcases AgentRegistry.get_register s.registry id j now name caps with e | ⟨_, i, hi, _⟩
    · rw [e]
      exact hj
    · rw [hi]
      rfl
  | heartbeat id now =>
    cases hs
    apply h.setRegistry
    intro j hj
    rw [AgentRegistry.get_heartbeat]
    split
    · rw [Option.isSome_map]
      exact hj
    · exact hj
  | deregister id =>
    cases hs
    intro k u hl j ha
    show ((s.registry.deregister id).2.get j).isSome = true
    rw [AgentRegistry.get_deregister]
    split
    · rename_i hj
      exact absurd (hj ▸ ha) (hg k u hl)
    · exact h k u hl j ha
  | submit args temp mint =>
    simp only [step, Option.ite_none_left_eq_some, Option.some.injEq] at hs
    obtain ⟨_, rfl⟩ := hs
    exact submit_assigned h args temp mint
  | updateStatus id new message now =>
    cases hs
    exact h.setTasks (TaskManager.updateStatus_liveFrom _ _ _ _ _)
  | cancel id message now =>
    cases hs
    exact h.setTasks (TaskManager.updateStatus_liveFrom _ _ _ _ _)
  | sweep now draw last =>
    obtain ⟨r, hr, rfl⟩ := Option.map_eq_some_iff.mp hs
    obtain ⟨ids, hreg, _, hlive⟩ := Watchdog.live_sweep hr
    intro k u hl j ha
    have hj := h k u ((hlive k u).mp hl).1 j ha
    show (r.1.get j).isSome = true
    rw [hreg, Watchdog.get_flip]
    split
    · rw [Option.isSome_map]
      exact hj
    · exact hj
  | reorderAgents ids =>
    cases hs
    apply h.setRegistry
    intro j hj
    rw [AgentRegistry.get_reorder]
    exact hj
  | reorderTasks ids =>
    cases hs
    exact h.setTasks (.of_get (TaskManager.get_reorder _ _))

/-- Right after a sweep of any run there is no stuck work exactly when the sweep found
no live task of an agent that is no longer registered, but for those past their
deadline; and so in every run in which only agents without live tasks are
deregistered. -/
theorem no_stuck_work_iff (timeout : Nat) (ids : String → ToolId) :
    (∀ ls s now draw last t, Transition.exec (step timeout) (.start none ids) ls = some s →
      step timeout s (.sweep now draw last) = some t → (t.NoStuckWork ↔ s.Undeserted now)) ∧
    ∀ ls s now draw last t, Transition.exec (step timeout) (.start none ids) ls = some s →
      Transition.EachStep (step timeout) (fun _ => Respects) (.start none ids) ls →
      step timeout s (.sweep now draw last) = some t → t.NoStuckWork := by
  have exact_after : ∀ ls s now draw last t,
      Transition.exec (step timeout) (.start none ids) ls = some s →
      step timeout s (.sweep now draw last) = some t → (t.NoStuckWork ↔ s.Undeserted now) := by
    intro ls s now draw last t hrun hs
    have hno : NoOrphans s := Transition.invariant (P := NoOrphans) (fun _ _ _ => step_noOrphans)
      (start_noOrphans ids) hrun
    obtain ⟨r, hr, rfl⟩ := Option.map_eq_some_iff.mp hs
    exact sweep_noStuckWork_iff hno hr
  refine ⟨exact_after, fun ls s now draw last t hrun hg hs => ?_⟩
  have hassigned : Assigned s := Transition.guarded_invariant (P := Assigned)
    (fun _ _ _ => step_assigned) (fun k t hl => by cases hl.1) hg hrun
  exact (exact_after ls s now draw last t hrun hs).mpr
    fun k u hl id ha => .inl (hassigned k u hl id ha)

/-! ## A task of a deregistered agent -/

/-- An agent registers, is given a task, and is deregistered. -/
def deserted : List Label :=
  [.register Nexus.sampleAgent 0 "worker" none,
    .submit Nexus.samplePinned ⟨⟨.ofOctet 8⟩, ⟨.ofOctet 9⟩, 0⟩ ⟨⟨.ofOctet 3⟩, ⟨.ofOctet 4⟩, 0⟩,
    .deregister Nexus.sampleAgent]

theorem deregistered_agents_task_stuck :
    ¬ ∀ ls s now draw last t,
      Transition.exec (step 1000000000) (.start none AppState.sampleIds) ls = some s →
      step 1000000000 s (.sweep now draw last) = some t → t.NoStuckWork := by
  intro h
  have hno := h deserted _ 2000000000 (fun _ _ => (⟨.ofOctet 5⟩, 0)) (fun _ => (⟨.ofOctet 5⟩, 0)) _
    rfl rfl
  obtain ⟨info, hg, _⟩ := hno ⟨.ofOctet 3⟩ _ ⟨rfl, rfl⟩ Nexus.sampleAgent rfl
  cases hg

end Sequential

end Trumpet
