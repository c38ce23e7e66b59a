import Trumpet.Server.Interleaving
import Trumpet.Server.Restart

/-! What a sweep writes on account of a heartbeat timeout, and when each write is
justified by the state it is made in. -/

namespace Trumpet

namespace Nexus

/-! ## The heartbeats of a run -/

/-- The instant of a heartbeat of agent `id`. -/
def Label.beat (id : AgentId) : Label → Option DateTime
  | .heartbeat j now => if j = id then some now else none
  | _ => none

def Label.isCollect : Label → Bool
  | .collect _ => true
  | _ => false

def Label.isFlip : Label → Bool
  | .flip => true
  | _ => false

/-- The labels since the last marked one, newest first. -/
def since (mark : Label → Bool) (ls : List Label) : List Label :=
  ls.reverse.takeWhile fun l => !mark l

/-- The agent's latest heartbeat since the stale agents were collected. -/
def beatSinceCollect (id : AgentId) (ls : List Label) : Option DateTime :=
  (since Label.isCollect ls).findSome? (Label.beat id)

/-- The agent's latest heartbeat since the collected agents were flipped. -/
def beatSinceFlip (id : AgentId) (ls : List Label) : Option DateTime :=
  (since Label.isFlip ls).findSome? (Label.beat id)

theorem since_concat (mark : Label → Bool) (ls : List Label) (l : Label) :
    since mark (ls ++ [l]) = if mark l then [] else l :: since mark ls := by
  unfold since
  rw [List.reverse_append, List.reverse_singleton, List.singleton_append, List.takeWhile_cons]
  cases mark l <;> rfl

/-- A label that is neither a mark nor a heartbeat of the agent. -/
theorem findSome_since_concat {mark : Label → Bool} {id : AgentId} {l : Label}
    (hm : mark l = false) (hb : l.beat id = none) (ls : List Label) :
    (since mark (ls ++ [l])).findSome? (Label.beat id) =
      (since mark ls).findSome? (Label.beat id) := by
  rw [since_concat, hm, if_neg Bool.false_ne_true, List.findSome?_cons, hb]

/-! ## Justified writes -/

/-- Every agent the step disconnects had its last heartbeat before the cutoff. -/
def FlipJustified (s t : Nexus) (cutoff : DateTime) : Prop :=
  ∀ id old new, s.app.registry.get id = some old → t.app.registry.get id = some new →
    old.status ≠ .disconnected → new.status = .disconnected → old.lastHeartbeatAt < cutoff

/-- Every task whose state the step changes has a disconnected assignee. -/
def FailJustified (s t : Nexus) : Prop :=
  ∀ k old new, s.app.tasks.get k = some old → t.app.tasks.get k = some new →
    new.status.state ≠ old.status.state →
      ∃ id info, old.assignee = some id ∧ s.app.registry.get id = some info ∧
        info.status = .disconnected

/-- The step's writes on account of a heartbeat timeout are justified. -/
def Justified (timeout : Nat) (s : Nexus) (l : Label) : Prop :=
  ∀ t, step timeout s l = some t →
    match l, s.sweep with
    | .flip, .collected _ cutoff _ => FlipJustified s t cutoff
    | .failAgent _, .failing _ _ => FailJustified s t
    | _, _ => True

/-- No heartbeat gets in the way. Before a flip: each collected agent's latest
heartbeat since the collection, if there is one, is stamped before the cutoff.
Before an agent's tasks are failed: it has sent none since the flip, or has no
live task. -/
def Undisturbed (pre : List Label) (s : Nexus) : Label → Prop
  | .flip => ∀ now cutoff ids, s.sweep = .collected now cutoff ids →
      ∀ id ∈ ids, ∀ at_ ∈ beatSinceCollect id pre, at_ < cutoff
  | .failAgent _ => ∀ now id ids, s.sweep = .failing now (id :: ids) →
      beatSinceFlip id pre = none ∨
        ∀ t ∈ s.app.tasks.list, t.assignee = some id → t.terminal = true
  | _ => True

/-! ## What a sweep in progress knows -/

/-- A collected agent is connected, and its last heartbeat is the latest since the
collection or an older one before the cutoff. A flipped agent is disconnected
unless it has sent a heartbeat since. -/
structure Tracked (pre : List Label) (s : Nexus) : Prop where
  collected : ∀ now cutoff ids, s.sweep = .collected now cutoff ids → ∀ id ∈ ids,
    ∃ info, s.app.registry.get id = some info ∧ info.status = .connected ∧
      match beatSinceCollect id pre with
      | some at_ => info.lastHeartbeatAt = at_
      | none => info.lastHeartbeatAt < cutoff
  failing : ∀ now ids, s.sweep = .failing now ids → ∀ id ∈ ids,
    ∃ info, s.app.registry.get id = some info ∧
      (info.status = .disconnected ↔ beatSinceFlip id pre = none)

theorem collected_of_afterCollect {now cutoff begun cut : DateTime} {found ids : List AgentId}
    (h : afterCollect now cutoff found = .collected begun cut ids) :
    begun = now ∧ cut = cutoff ∧ ids = found := by
  cases found with
  | nil => cases h
  | cons id found => cases h; exact ⟨rfl, rfl, rfl⟩

theorem afterCollect_ne_failing (now cutoff begun : DateTime) (found ids : List AgentId) :
    afterCollect now cutoff found ≠ .failing begun ids := by
  cases found <;> exact fun h => by cases h

theorem start_tracked (ids : String → ToolId) : Tracked [] (start ids) := by
  constructor
  · intro now cutoff ids h
    cases h
  · intro now ids h
    cases h

/-- A step that neither beats nor collects nor flips, and leaves the agents of the
sweep as they are. -/
theorem Tracked.keep {pre : List Label} {s t : Nexus} {l : Label} (h : Tracked pre s)
    (hc : l.isCollect = false) (hf : l.isFlip = false) (hb : ∀ id, l.beat id = none)
    (same : ∀ id info, s.app.registry.get id = some info → t.app.registry.get id = some info)
    (col : ∀ now cutoff ids, t.sweep = .collected now cutoff ids →
      s.sweep = .collected now cutoff ids)
    (fail : ∀ now ids, t.sweep = .failing now ids →
      ∃ ids', s.sweep = .failing now ids' ∧ ∀ id ∈ ids, id ∈ ids') :
    Tracked (pre ++ [l]) t := by
  constructor
  · intro now cutoff ids hs id hid
    obtain ⟨info, hi, hcon, hbeat⟩ := h.collected now cutoff ids (col now cutoff ids hs) id hid
    refine ⟨info, same id info hi, hcon, ?_⟩
    rw [beatSinceCollect, findSome_since_concat hc (hb id)]
    exact hbeat
  · intro now ids hs id hid
    obtain ⟨ids', hs', hsub⟩ := fail now ids hs
    obtain ⟨info, hi, hiff⟩ := h.failing now ids' hs' id (hsub id hid)
    refine ⟨info, same id info hi, ?_⟩
    rw [beatSinceFlip, findSome_since_concat hf (hb id)]
    exact hiff

/-- The same of a step that leaves the sweep where it is. -/
theorem Tracked.keepSweep {pre : List Label} {s t : Nexus} {l : Label} (h : Tracked pre s)
    (hc : l.isCollect = false) (hf : l.isFlip = false) (hb : ∀ id, l.beat id = none)
    (same : ∀ id info, s.app.registry.get id = some info → t.app.registry.get id = some info)
    (hs : t.sweep = s.sweep) : Tracked (pre ++ [l]) t := by
  apply h.keep hc hf hb same
  · intro now cutoff ids e
    rw [← hs]
    exact e
  · intro now ids e
    rw [hs] at e
    exact ⟨ids, e, fun _ m => m⟩

/-- A state whose sweep is at rest knows nothing. -/
theorem Tracked.of_idle {pre : List Label} {s : Nexus}
    (hc : ∀ now cutoff ids, s.sweep ≠ .collected now cutoff ids)
    (hf : ∀ now ids, s.sweep ≠ .failing now ids) : Tracked pre s := by
  constructor
  · intro now cutoff ids h
    exact absurd h (hc now cutoff ids)
  · intro now ids h
    exact absurd h (hf now ids)

theorem heartbeat_tracked {pre : List Label} {s : Nexus} (h : Tracked pre s) (id : AgentId)
    (now : DateTime) :
    Tracked (pre ++ [.heartbeat id now]) (s.setRegistry (s.app.registry.heartbeat id now).2) := by
  have beat_self : (Label.heartbeat id now).beat id = some now := if_pos rfl
  have beat_other : ∀ j, j ≠ id → (Label.heartbeat id now).beat j = none :=
    fun j hj => if_neg fun e => hj e.symm
  constructor
  · intro begun cutoff ids hs j hj
    obtain ⟨info, hi, hcon, hbeat⟩ := h.collected begun cutoff ids hs j hj
    simp only [setRegistry, AgentRegistry.get_heartbeat, hi]
    by_cases hji : j = id
    · subst hji
      refine ⟨AgentRegistry.beat info now, if_pos rfl, rfl, ?_⟩
      rw [beatSinceCollect, since_concat, if_neg (by simp [Label.isCollect]),
        List.findSome?_cons, beat_self]
      rfl
    · refine ⟨info, if_neg hji, hcon, ?_⟩
      rw [beatSinceCollect, findSome_since_concat rfl (beat_other j hji)]
      exact hbeat
  · intro begun ids hs j hj
    obtain ⟨info, hi, hiff⟩ := h.failing begun ids hs j hj
    simp only [setRegistry, AgentRegistry.get_heartbeat, hi]
    by_cases hji : j = id
    · subst hji
      refine ⟨AgentRegistry.beat info now, if_pos rfl, ?_⟩
      rw [beatSinceFlip, since_concat, if_neg (by simp [Label.isFlip]),
        List.findSome?_cons, beat_self]
      simp [AgentRegistry.beat]
    · refine ⟨info, if_neg hji, ?_⟩
      rw [beatSinceFlip, findSome_since_concat rfl (beat_other j hji)]
      exact hiff

theorem step_tracked {timeout : Nat} {pre : List Label} {s t : Nexus} {l : Label}
    (h : Tracked pre s) (hs : step timeout s l = some t) : Tracked (pre ++ [l]) t := by
  cases l with
  | register id now name caps =>
    simp only [step, Option.ite_none_right_eq_some, Option.some.injEq] at hs
    obtain ⟨fresh, rfl⟩ := hs
    refine h.keepSweep rfl rfl (fun _ => rfl) ?_ rfl
    intro j info hj
    rcases AgentRegistry.get_register s.app.registry id j now name caps with e | ⟨rfl, _⟩
    · exact e.trans hj
    · rw [fresh] at hj; cases hj
  | heartbeat id now =>
    cases hs
    exact heartbeat_tracked h id now
  | resolve args mint =>
    simp only [step] at hs
    split at hs <;> cases hs <;>
      exact h.keepSweep rfl rfl (fun _ => rfl) (fun _ _ e => e) rfl
  | create i mint =>
    simp only [step] at hs
    split at hs
    · cases hs
    · simp only [Option.ite_none_left_eq_some, Option.some.injEq] at hs
      obtain ⟨_, rfl⟩ := hs
      exact h.keepSweep rfl rfl (fun _ => rfl) (fun _ _ e => e) rfl
  | updateStatus id new message now =>
    cases hs
    exact h.keepSweep rfl rfl (fun _ => rfl) (fun _ _ e => e) rfl
  | cancel id message now =>
    cases hs
    exact h.keepSweep rfl rfl (fun _ => rfl) (fun _ _ e => e) rfl
  | collect now =>
    simp only [step] at hs
    split at hs
    · rename_i cutoff _ _
      cases hs
      constructor
      · intro begun cut ids he id hid
        obtain ⟨rfl, rfl, rfl⟩ := collected_of_afterCollect he
        obtain ⟨info, hi, hcon, hstale⟩ := Watchdog.mem_staleIds.mp hid
        refine ⟨info, hi, hcon, ?_⟩
        rw [beatSinceCollect, since_concat]
        exact hstale
      · intro begun ids he
        exact absurd he (afterCollect_ne_failing _ _ _ _ _)
    · cases hs
  | flip =>
    simp only [step] at hs
    split at hs
    · rename_i now cutoff ids hsw
      cases hs
      refine ⟨fun _ _ _ e => by (cases e), fun begun js e id hid => ?_⟩
      cases e
      obtain ⟨info, hi, _⟩ := h.collected now cutoff ids hsw id hid
      refine ⟨AgentRegistry.drop info, ?_, ?_⟩
      · simp only [setRegistry, Watchdog.get_flip, hi, if_pos hid, Option.map_some]
      · rw [beatSinceFlip, since_concat]
        simp [Label.isFlip, AgentRegistry.drop]
    · cases hs
  | failAgent draw =>
    simp only [step] at hs
    split at hs
    · rename_i now id ids hsw
      cases hs
      refine h.keep rfl rfl (fun _ => rfl) (fun _ _ e => e) ?_ ?_
      · intro begun cutoff js e
        cases ids <;> cases e
      · intro begun js e
        cases ids with
        | nil => cases e
        | cons j ids =>
          cases e
          exact ⟨id :: j :: ids, hsw, fun _ m => List.mem_cons_of_mem _ m⟩
    · cases hs
  | scan =>
    simp only [step] at hs
    split at hs
    · cases hs
      refine .of_idle ?_ ?_ <;> intros <;> simp only [afterScan] <;> split <;> simp
    · cases hs
  | expire draw =>
    simp only [step] at hs
    split at hs
    · cases hs
      exact .of_idle (fun _ _ _ e => by cases e) (fun _ _ e => by cases e)
    · cases hs
  | save =>
    cases hs
    exact h.keepSweep rfl rfl (fun _ => rfl) (fun _ _ e => e) rfl
  | restart i ids =>
    simp only [step] at hs
    split at hs
    · cases hs
    · cases hs
      exact .of_idle (fun _ _ _ e => by cases e) (fun _ _ e => by cases e)
  | reorderAgents ids =>
    cases hs
    refine h.keepSweep rfl rfl (fun _ => rfl) ?_ rfl
    intro id info hi
    exact (AgentRegistry.get_reorder _ _ _).trans hi
  | reorderTasks ids =>
    cases hs
    exact h.keepSweep rfl rfl (fun _ => rfl) (fun _ _ e => e) rfl

theorem run_tracked {timeout : Nat} {ids : String → ToolId} {pre : List Label} {s : Nexus}
    (h : Transition.exec (step timeout) (start ids) pre = some s) : Tracked pre s :=
  Transition.history_induction (P := Tracked) (start_tracked ids)
    (fun _ _ _ _ _ => step_tracked) h

/-! ## When the writes are justified -/

theorem flip_justified_iff {timeout : Nat} {pre : List Label} {s : Nexus} (h : Tracked pre s) :
    Justified timeout s .flip ↔ Undisturbed pre s .flip := by
  cases hsw : s.sweep with
  | collected now cutoff ids =>
    simp only [Justified, Undisturbed, step, hsw, Option.some.injEq, forall_eq']
    constructor
    · intro hj now' cutoff' ids' e id hid at_ hat
      cases e
      obtain ⟨info, hi, hcon, hbeat⟩ := h.collected now cutoff ids hsw id hid
      rw [Option.mem_def.mp hat] at hbeat
      rw [← hbeat]
      refine hj id info (AgentRegistry.drop info) hi ?_ (by simp [hcon]) rfl
      simp only [setRegistry, Watchdog.get_flip, hi, if_pos hid, Option.map_some]
    · intro hu id old new ho hn hcon hdis
      have hid : id ∈ ids := by
        by_contra hid
        simp only [setRegistry, Watchdog.get_flip, if_neg hid] at hn
        exact hcon (Option.some.inj (ho.symm.trans hn) ▸ hdis)
      obtain ⟨info, hi, _, hbeat⟩ := h.collected now cutoff ids hsw id hid
      obtain rfl : info = old := Option.some.inj (hi.symm.trans ho)
      cases hb : beatSinceCollect id pre with
      | none => rwa [hb] at hbeat
      | some at_ =>
        rw [hb] at hbeat
        rw [show info.lastHeartbeatAt = at_ from hbeat]
        exact hu now cutoff ids rfl id hid at_ (Option.mem_def.mpr hb)
  | _ => simp [Justified, Undisturbed, hsw]

/-- The tasks a pass over an agent changes are its live ones. -/
theorem failInFlight_changes_iff {mgr : TaskManager} {id : AgentId} {draw : Watchdog.Draws}
    {k : TaskId} {old new : Task} (ho : mgr.get k = some old)
    (hn : (Watchdog.failInFlight mgr id draw).get k = some new) :
    new.status.state ≠ old.status.state ↔ old.assignee = some id ∧ old.terminal = false := by
  rw [Watchdog.get_failInFlight, ho, Option.map_some, Option.some.injEq] at hn
  subst hn
  split
  · rename_i hlive
    refine iff_of_true (fun e => ?_) hlive
    have ht := Watchdog.target_terminal old.status.state
    have hlive := hlive.2
    rw [Task.terminal, ← show _ = old.status.state from e] at hlive
    exact Bool.false_ne_true (hlive.symm.trans ht)
  · rename_i hlive
    exact iff_of_false (fun e => e rfl) hlive

theorem failAgent_justified_iff {timeout : Nat} {pre : List Label} {s : Nexus}
    (h : Tracked pre s) (draw : Watchdog.Draws) :
    Justified timeout s (.failAgent draw) ↔ Undisturbed pre s (.failAgent draw) := by
  cases hsw : s.sweep with
  | failing now ids =>
    cases ids with
    | nil => simp [Justified, Undisturbed, step, hsw]
    | cons id ids =>
      obtain ⟨info, hi, hiff⟩ := h.failing now (id :: ids) hsw id List.mem_cons_self
      simp only [Justified, Undisturbed, step, hsw, Option.some.injEq, forall_eq']
      constructor
      · intro hj now' id' ids' e
        cases e
        apply or_iff_not_imp_left.mpr
        intro hbeat t ht ha
        -- Otherwise the pass changes this task of a connected agent.
        by_contra hlive
        have hlive : t.terminal = false := by simpa using hlive
        have ho := TaskManager.mem_list.mp ht
        obtain ⟨new, hn⟩ : ∃ new, (Watchdog.failInFlight s.app.tasks id draw).get t.id = some new :=
          ⟨_, by rw [Watchdog.get_failInFlight, ho, Option.map_some]⟩
        obtain ⟨a, info', hassign, hinfo, hdis⟩ :=
          hj t.id t new ho hn ((failInFlight_changes_iff ho hn).mpr ⟨ha, hlive⟩)
        obtain rfl : id = a := Option.some.inj (ha.symm.trans hassign)
        obtain rfl : info = info' := Option.some.inj (hi.symm.trans hinfo)
        exact hbeat (hiff.mp hdis)
      · intro hu k old new ho hn hchange
        obtain ⟨ha, hlive⟩ := (failInFlight_changes_iff ho hn).mp hchange
        rcases hu now id ids rfl with hbeat | hdone
        · exact ⟨id, info, ha, hi, hiff.mpr hbeat⟩
        · have := hdone old (KeyedMap.mem_of_get ho) ha
          rw [hlive] at this
          cases this
  | _ => simp [Justified, Undisturbed, hsw]

/-- In every reachable state, and so along every run, the writes of a step are
justified exactly when no heartbeat gets in the way. -/
theorem sweep_writes_justified_iff (timeout : Nat) (ids : String → ToolId) :
    (∀ pre s l, Transition.exec (step timeout) (start ids) pre = some s →
      (Justified timeout s l ↔ Undisturbed pre s l)) ∧
    ∀ ls, Transition.EachStep (step timeout) (fun _ => Justified timeout) (start ids) ls ↔
      Transition.EachStep (step timeout) Undisturbed (start ids) ls := by
  have each : ∀ pre s l, Transition.exec (step timeout) (start ids) pre = some s →
      (Justified timeout s l ↔ Undisturbed pre s l) := by
    intro pre s l hrun
    have h := run_tracked hrun
    cases l with
    | flip => exact flip_justified_iff h
    | failAgent draw => exact failAgent_justified_iff h draw
    | _ => simp [Justified, Undisturbed]
  exact ⟨each, fun ls => Transition.EachStep.congr each⟩

/-! ### A heartbeat between collection and flip -/

/-- The agent registers and falls silent; the sweep collects it, and its next
heartbeat arrives before the flip. -/
def lateHeartbeat : List Label :=
  [.register ⟨.ofOctet 1⟩ 0 "worker" none, .collect 2000000000,
    .heartbeat ⟨.ofOctet 1⟩ 2000000000]

theorem late_heartbeat_unjustified :
    ¬ ∀ ls s l, Transition.exec (step 1000000000) (start AppState.sampleIds) ls = some s →
      Justified 1000000000 s l := by
  intro h
  have hj := h lateHeartbeat _ .flip rfl _ rfl ⟨.ofOctet 1⟩ _ _ rfl rfl
    (fun e => by cases e) rfl
  exact absurd hj (by decide)

end Nexus

end Trumpet
