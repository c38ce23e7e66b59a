import Trumpet.Core.Watchdog

/-! What an uninterrupted sweep does, agent by agent and task by task. -/

namespace Trumpet

def TaskEvent.taskId : TaskEvent → TaskId
  | taskCreated task => task.id
  | taskStatusChanged taskId _ _ => taskId
  | taskArtifactAdded taskId _ => taskId

namespace Watchdog

/-! ## Effects on the tasks -/

/-- What becomes of a task under its id; nothing, where it is left alone. -/
abbrev Fate := TaskId → Task → Option Task

/-- The events that tell the fate of one task. -/
def Fate.told (f : Fate) (m : TaskManager) (k : TaskId) : List TaskEvent :=
  (((m.get k).bind fun t => (f k t).map fun u =>
    TaskEvent.taskStatusChanged k t.status.state u.status.state)).toList

/-- `m'` is `m` with every task met by its fate, each announced once; nothing else
changed. -/
structure Effect (f : Fate) (m m' : TaskManager) : Prop where
  tasks : ∀ k, m'.get k = (m.get k).map fun t => (f k t).getD t
  index : m'.contextIndex = m.contextIndex
  events : ∃ es, m'.eventTx = m.eventTx ++ es ∧
    m'.bus.published = m.bus.published ++ es.map TaskEvent.mirror ∧
    ∀ k, (es.filter fun e => e.taskId = k) = f.told m k

namespace Effect

theorem none (m : TaskManager) : Effect (fun _ _ => Option.none) m m := by
  refine ⟨fun k => ?_, rfl, [], (List.append_nil _).symm, (List.append_nil _).symm, fun k => ?_⟩
  · simp
  · cases h : m.get k <;> simp [Fate.told, h]

/-- Fates that agree on the stored tasks have the same effect. -/
theorem congr {f g : Fate} {m m' : TaskManager} (h : Effect f m m')
    (same : ∀ k t, m.get k = some t → f k t = g k t) : Effect g m m' := by
  obtain ⟨es, htx, hbus, htold⟩ := h.events
  refine ⟨fun k => ?_, h.index, es, htx, hbus, fun k => ?_⟩
  · rw [h.tasks]
    cases hg : m.get k with
    | none => rfl
    | some t => rw [Option.map_some, Option.map_some, same k t hg]
  · rw [htold, Fate.told, Fate.told]
    cases hg : m.get k with
    | none => rfl
    | some t => rw [Option.bind_some, Option.bind_some, same k t hg]

/-- One effect after another, where what the first one met the second leaves alone. -/
theorem trans {f g : Fate} {m m' m'' : TaskManager} (h : Effect f m m') (h' : Effect g m' m'')
    (apart : ∀ k t u, f k t = some u → g k u = Option.none) :
    Effect (fun k t => (f k t).or (g k t)) m m'' := by
  obtain ⟨es, htx, hbus, htold⟩ := h.events
  obtain ⟨es', htx', hbus', htold'⟩ := h'.events
  refine ⟨fun k => ?_, h'.index.trans h.index, es ++ es', ?_, ?_, fun k => ?_⟩
  · rw [h'.tasks, h.tasks, Option.map_map]
    congr 1
    funext t
    cases hf : f k t with
    | none => simp [hf]
    | some u => simp [hf, apart k t u hf]
  · rw [htx', htx, List.append_assoc]
  · rw [hbus', hbus, List.map_append, List.append_assoc]
  · rw [List.filter_append, htold, htold', Fate.told, Fate.told, Fate.told, h.tasks]
    cases hg : m.get k with
    | none => rfl
    | some t =>
      cases hf : f k t with
      | none => simp [hf]
      | some u => simp [hf, apart k t u hf]

end Effect

/-! ## A pass over a list of tasks -/

/-- The task as the watchdog fails it. -/
def fail (t : Task) (text : String) (drawn : MessageId × DateTime) : Task :=
  t.moveTo (target t.status.state) (some (reason text drawn.1)) drawn.2

/-- The results of the status updates of a pass, in order. -/
def attempts (text : String) (draw : Draws) :
    TaskManager → List (TaskId × TaskState) → List (Except Error Task)
  | _, [] => []
  | mgr, e :: todo =>
    (mgr.updateStatus e.1 (target e.2) (some (reason text (draw e.1).1)) (draw e.1).2).1 ::
      attempts text draw (failOne text draw mgr e) todo

/-- The list names live tasks, once each, in the states they are in. -/
structure Current (mgr : TaskManager) (todo : List (TaskId × TaskState)) : Prop where
  nodup : (todo.map Prod.fst).Nodup
  live : ∀ e ∈ todo, ∃ t, mgr.get e.1 = some t ∧ t.status.state = e.2 ∧ t.terminal = false

theorem current_pending (mgr : TaskManager) {p : Task → Bool}
    (live : ∀ t, p t = true → t.terminal = false) :
    Current mgr ((mgr.list.filter p).map pending) := by
  refine ⟨pending_nodup p, ?_⟩
  intro e he
  obtain ⟨t, ht, rfl⟩ := List.mem_map.mp he
  obtain ⟨hm, hp⟩ := List.mem_filter.mp ht
  exact ⟨t, TaskManager.mem_list.mp hm, rfl, live t hp⟩

/-- One listed task is failed, and announced. -/
theorem failOne_effect {mgr : TaskManager} {e : TaskId × TaskState} {t : Task}
    (hg : mgr.get e.1 = some t) (hs : t.status.state = e.2) (hl : t.terminal = false)
    (text : String) (draw : Draws) :
    Effect (fun k t => if k = e.1 then some (fail t text (draw e.1)) else none) mgr
      (failOne text draw mgr e) ∧
    (mgr.updateStatus e.1 (target e.2) (some (reason text (draw e.1).1)) (draw e.1).2).1.isOk =
      true := by
  have edge : TaskState.Edge t.status.state (target e.2) := by
    rw [← hs]
    exact (TaskState.canTransitionTo_iff _ _).mp (target_edge hl)
  have hup := TaskManager.updateStatus_of_edge hg edge (some (reason text (draw e.1).1))
    (draw e.1).2
  have hid : t.id = e.1 := TaskManager.id_of_get hg
  rw [failOne, hup]
  refine ⟨⟨fun k => ?_, rfl, [.taskStatusChanged e.1 t.status.state (target e.2)], rfl, rfl,
    fun k => ?_⟩, rfl⟩
  · simp only [TaskManager.get, TaskManager.publish_tasks, KeyedMap.get_insert, Task.moveTo_id, hid]
    by_cases hk : k = e.1
    · have hg' : mgr.tasks.get k = some t := hk ▸ hg
      rw [if_pos hk, hg', Option.map_some, if_pos hk, Option.getD_some, fail, hs]
    · rw [if_neg hk]
      simp [hk]
  · by_cases hk : k = e.1
    · subst hk
      simp [Fate.told, hg, fail, Task.moveTo, TaskEvent.taskId, hs]
    · have hk' : ¬ e.1 = k := fun h => hk h.symm
      cases hgk : mgr.get k <;> simp [Fate.told, hgk, TaskEvent.taskId, hk, hk']

/-- A pass fails each task it lists, and none of its updates is refused. -/
theorem failEach_effect {mgr : TaskManager} {todo : List (TaskId × TaskState)}
    (h : Current mgr todo) (text : String) (draw : Draws) :
    Effect (fun k t => if k ∈ todo.map Prod.fst then some (fail t text (draw k)) else none) mgr
      (failEach mgr text todo draw) ∧
    ∀ r ∈ attempts text draw mgr todo, r.isOk = true := by
  induction todo generalizing mgr with
  | nil => exact ⟨(Effect.none mgr).congr fun _ _ _ => by simp, fun _ hr => by (cases hr)⟩
  | cons e todo ih =>
    obtain ⟨hne, hn⟩ := List.nodup_cons.mp h.nodup
    obtain ⟨t, hg, hs, hl⟩ := h.live e List.mem_cons_self
    obtain ⟨head, hok⟩ := failOne_effect hg hs hl text draw
    have hnext : Current (failOne text draw mgr e) todo := by
      refine ⟨hn, fun d hd => ?_⟩
      have hkey : d.1 ≠ e.1 := fun he => hne (he ▸ List.mem_map_of_mem hd)
      obtain ⟨u, hu, hrest⟩ := h.live d (List.mem_cons_of_mem _ hd)
      refine ⟨u, ?_, hrest⟩
      rw [head.tasks, hu, Option.map_some, if_neg hkey, Option.getD_none]
    obtain ⟨tail, hoks⟩ := ih hnext
    constructor
    · refine (head.trans tail ?_).congr ?_
      · intro k t u hk
        split at hk
        · rename_i hke
          rw [if_neg (hke ▸ hne)]
        · cases hk
      · intro k t _
        simp only [List.map_cons, List.mem_cons]
        by_cases hk : k = e.1
        · simp only [hk, if_true, true_or, Option.some_or]
        · simp only [hk, if_false, false_or, Option.none_or]
    · intro r hr
      rcases List.mem_cons.mp hr with rfl | hr
      · exact hok
      · exact hoks r hr

/-- A pass over the live tasks that satisfy `p`. -/
theorem failPending_effect (mgr : TaskManager) {p : Task → Bool}
    (live : ∀ t, p t = true → t.terminal = false) (text : String) (draw : Draws) :
    Effect (fun k t => if p t then some (fail t text (draw k)) else none) mgr
      (failEach mgr text ((mgr.list.filter p).map pending) draw) ∧
    ∀ r ∈ attempts text draw mgr ((mgr.list.filter p).map pending), r.isOk = true := by
  obtain ⟨heff, hok⟩ := failEach_effect (current_pending mgr live) text draw
  refine ⟨heff.congr fun k t hg => ?_, hok⟩
  have hmem : k ∈ ((mgr.list.filter p).map pending).map Prod.fst ↔ p t = true := by
    simp only [List.map_map, List.mem_map, List.mem_filter]
    constructor
    · rintro ⟨u, ⟨hu, hp⟩, rfl⟩
      have hgu := TaskManager.mem_list.mp hu
      obtain rfl : u = t := Option.some.inj (hgu.symm.trans hg)
      exact hp
    · intro hp
      have hid := TaskManager.id_of_get hg
      exact ⟨t, ⟨TaskManager.mem_list.mpr (hid ▸ hg), hp⟩, hid⟩
  simp only [hmem]

/-! ## The phases -/

/-- The results of the status updates of phase 3. -/
def inFlightAttempts (draw : AgentId → Draws) :
    TaskManager → List AgentId → List (Except Error Task)
  | _, [] => []
  | mgr, id :: ids =>
    attempts (disconnectReason id) (draw id) mgr (inFlight mgr id) ++
      inFlightAttempts draw (failInFlight mgr id (draw id)) ids

/-- A failed task stays as it is for the rest of the sweep. -/
theorem fail_terminal (t : Task) (text : String) (drawn : MessageId × DateTime) :
    (fail t text drawn).terminal = true :=
  target_terminal t.status.state

/-- The fate of the live tasks of the collected agents. -/
def collected (ids : List AgentId) (draw : AgentId → Draws) : Fate := fun k t =>
  if t.terminal then none
  else (t.assignee.filter (· ∈ ids)).map fun id => fail t (disconnectReason id) (draw id k)

theorem failInFlights_effect (mgr : TaskManager) (ids : List AgentId) (draw : AgentId → Draws) :
    Effect (collected ids draw) mgr
      (ids.foldl (fun mgr id => failInFlight mgr id (draw id)) mgr) ∧
    ∀ r ∈ inFlightAttempts draw mgr ids, r.isOk = true := by
  induction ids generalizing mgr with
  | nil =>
    refine ⟨(Effect.none mgr).congr fun k t _ => ?_, fun _ hr => by (cases hr)⟩
    simp [collected]
  | cons id ids ih =>
    obtain ⟨head, hok⟩ := failPending_effect mgr
      (p := fun t => t.assignee = some id && !t.terminal)
      (fun t ht => by simpa using (Bool.and_eq_true_iff.mp ht).2) (disconnectReason id) (draw id)
    rw [← inFlight_eq] at head hok
    obtain ⟨tail, hoks⟩ := ih (failInFlight mgr id (draw id))
    constructor
    · refine (head.trans tail ?_).congr ?_
      · intro k t u hk
        simp only [Option.ite_none_right_eq_some, Option.some.injEq] at hk
        obtain ⟨_, rfl⟩ := hk
        rw [collected, fail_terminal, if_pos rfl]
      · intro k t _
        by_cases hl : t.terminal = true
        · simp [collected, hl]
        · have hl : t.terminal = false := by simpa using hl
          cases ha : t.assignee with
          | none => simp [collected, ha]
          | some j =>
            by_cases hj : j = id
            · subst hj
              simp [collected, ha, hl, Option.filter]
            · simp [collected, ha, hl, hj, Option.filter]
    · intro r hr
      rcases List.mem_append.mp hr with hr | hr
      · exact hok r hr
      · exact hoks r hr

/-- The fate of the live tasks whose deadline has passed. -/
def overdue (now : DateTime) (draw : Draws) : Fate := fun k t =>
  if !t.terminal && t.deadline.any (· < now) then some (fail t "task deadline exceeded" (draw k))
  else none

theorem failExpired_effect (mgr : TaskManager) (now : DateTime) (draw : Draws) :
    Effect (overdue now draw) mgr (failExpired mgr (expired mgr now) draw) ∧
    ∀ r ∈ attempts "task deadline exceeded" draw mgr (expired mgr now), r.isOk = true :=
  failPending_effect mgr (p := fun t => !t.terminal && t.deadline.any (· < now))
    (fun t ht => by simpa using (Bool.and_eq_true_iff.mp ht).1) "task deadline exceeded" draw

/-! ## Flipping, announced -/

theorem flip_nameIndex (reg : AgentRegistry) (ids : List AgentId) :
    (flip reg ids).nameIndex = reg.nameIndex := by
  induction ids generalizing reg with
  | nil => rfl
  | cons id ids ih =>
    refine (ih (reg.markDisconnected id).2).trans ?_
    rcases AgentRegistry.markDisconnected_cases reg id with ⟨he, _⟩ | ⟨_, _, _, _, hi⟩
    · rw [he]
    · exact hi

/-- Each connected agent of the list is announced, in turn. -/
theorem flip_published {reg : AgentRegistry} {infos : List AgentInfo}
    (hn : (infos.map AgentInfo.id).Nodup)
    (h : ∀ info ∈ infos, reg.get info.id = some info ∧ info.status = .connected) :
    (flip reg (infos.map AgentInfo.id)).bus.published =
      reg.bus.published ++ infos.map fun info => .agentDisconnected (AgentRegistry.drop info) := by
  induction infos generalizing reg with
  | nil => exact (List.append_nil _).symm
  | cons info infos ih =>
    obtain ⟨hne, hn⟩ := List.nodup_cons.mp hn
    obtain ⟨hg, hc⟩ := h info List.mem_cons_self
    have hrest : ∀ i ∈ infos, (reg.markDisconnected info.id).2.get i.id = some i ∧
        i.status = .connected := by
      intro i hi
      have hid : i.id ≠ info.id := fun e => hne (e ▸ List.mem_map_of_mem hi)
      rw [AgentRegistry.get_markDisconnected, if_neg hid]
      exact h i (List.mem_cons_of_mem _ hi)
    refine (ih hn hrest).trans ?_
    rw [AgentRegistry.markDisconnected_bus hg hc, MessageBus.published_publish, List.append_assoc]
    rfl

/-! ## The whole sweep -/

/-- The stale agent a task is assigned to. -/
def staleAssignee (reg : AgentRegistry) (cutoff : DateTime) (t : Task) : Option AgentId :=
  t.assignee.filter fun id => (reg.get id).any (stale cutoff)

/-- What a sweep makes of a task: rejected or failed, with one reason, if it is live
and its agent is stale or its deadline has passed. -/
def verdict (reg : AgentRegistry) (cutoff now : DateTime) (draw : AgentId → Draws)
    (last : Draws) : Fate := fun k t =>
  if t.terminal then none
  else match staleAssignee reg cutoff t with
    | some id => some (fail t (disconnectReason id) (draw id k))
    | none =>
      if t.deadline.any (· < now) then some (fail t "task deadline exceeded" (last k)) else none

/-- The results of all status updates of a sweep. -/
def sweepAttempts (reg : AgentRegistry) (mgr : TaskManager) (cutoff now : DateTime)
    (draw : AgentId → Draws) (last : Draws) : List (Except Error Task) :=
  let ids := staleIds reg cutoff
  let mgr' := ids.foldl (fun mgr id => failInFlight mgr id (draw id)) mgr
  inFlightAttempts draw mgr ids ++ attempts "task deadline exceeded" last mgr' (expired mgr' now)

theorem mem_staleIds_iff {reg : AgentRegistry} {cutoff : DateTime} {id : AgentId} :
    id ∈ staleIds reg cutoff ↔ (reg.get id).any (stale cutoff) = true := by
  rw [mem_staleIds]
  cases reg.get id <;> simp [stale]

/-- The two passes over the tasks together. -/
theorem verdict_eq (reg : AgentRegistry) (cutoff now : DateTime) (draw : AgentId → Draws)
    (last : Draws) (k : TaskId) (t : Task) :
    (collected (staleIds reg cutoff) draw k t).or (overdue now last k t) =
      verdict reg cutoff now draw last k t := by
  have hfilter : t.assignee.filter (· ∈ staleIds reg cutoff) = staleAssignee reg cutoff t := by
    unfold staleAssignee
    congr 1
    funext id
    rw [Bool.eq_iff_iff, decide_eq_true_iff, mem_staleIds_iff]
  unfold collected overdue verdict
  rw [hfilter]
  by_cases hl : t.terminal = true
  · simp [hl]
  · cases staleAssignee reg cutoff t <;> simp [hl]

/-- The agents after a sweep. -/
theorem get_flip_staleIds (reg : AgentRegistry) (cutoff : DateTime) (id : AgentId) :
    (flip reg (staleIds reg cutoff)).get id =
      (reg.get id).map fun info => if stale cutoff info then AgentRegistry.drop info else info := by
  rw [get_flip]
  cases hg : reg.get id with
  | none => simp
  | some info =>
    have hiff : id ∈ staleIds reg cutoff ↔ stale cutoff info = true := by
      rw [mem_staleIds_iff, hg, Option.any_some]
    simp only [hiff, Option.map_some]
    split <;> rfl

/-- After a sweep no agent is stale. -/
theorem staleIds_flip (reg : AgentRegistry) (cutoff : DateTime) :
    staleIds (flip reg (staleIds reg cutoff)) cutoff = [] := by
  rw [List.eq_nil_iff_forall_not_mem]
  intro id hid
  obtain ⟨info, hg, hc, hlt⟩ := mem_staleIds.mp hid
  rw [get_flip_staleIds] at hg
  obtain ⟨old, _, rfl⟩ := Option.map_eq_some_iff.mp hg
  split at hc
  · cases hc
  · rename_i hfresh
    rw [if_neg hfresh] at hlt
    exact hfresh (by simp [stale, hc, hlt])

/-- After the last phase no live task is past its deadline. -/
theorem expired_failExpired (mgr : TaskManager) (now : DateTime) (draw : Draws) :
    expired (failExpired mgr (expired mgr now) draw) now = [] := by
  rw [expired, List.map_eq_nil_iff, List.filter_eq_nil_iff]
  intro t ht hp
  obtain ⟨hl, hd⟩ := Bool.and_eq_true_iff.mp hp
  have hlive : LiveAt (failExpired mgr (expired mgr now) draw) t.id t :=
    ⟨TaskManager.mem_list.mp ht, by simpa using hl⟩
  rw [(live_failExpired.mp hlive).2] at hd
  cases hd

/-- A sweep whose cutoff is representable flips exactly the stale agents and
announces each, fails exactly the live tasks that are assigned to one of them or past
their deadline, with one reason and one event for each and no update refused, and
leaves all else alone; another sweep at the same time changes nothing. -/
theorem sweep_exact (reg : AgentRegistry) (mgr : TaskManager) {timeout : Nat}
    {now cutoff : DateTime} (h : Watchdog.cutoff now timeout = some cutoff)
    (draw : AgentId → Draws) (last : Draws) :
    ∃ reg' mgr', sweep reg mgr timeout now draw last = some (reg', mgr') ∧
      (∀ id, reg'.get id = (reg.get id).map fun info =>
        if stale cutoff info then AgentRegistry.drop info else info) ∧
      reg'.nameIndex = reg.nameIndex ∧
      reg'.bus.published = reg.bus.published ++
        (reg.list.filter (stale cutoff)).map (fun info =>
          .agentDisconnected (AgentRegistry.drop info)) ∧
      Effect (verdict reg cutoff now draw last) mgr mgr' ∧
      (∀ r ∈ sweepAttempts reg mgr cutoff now draw last, r.isOk = true) ∧
      ∀ draw' last', sweep reg' mgr' timeout now draw' last' = some (reg', mgr') := by
  obtain ⟨heff, hoks⟩ := failInFlights_effect mgr (staleIds reg cutoff) draw
  obtain ⟨heff', hoks'⟩ := failExpired_effect
    ((staleIds reg cutoff).foldl (fun mgr id => failInFlight mgr id (draw id)) mgr) now last
  refine ⟨_, _, by rw [sweep, h]; rfl, get_flip_staleIds reg cutoff, flip_nameIndex _ _, ?_,
    ?_, ?_, ?_⟩
  · apply flip_published (reg.agents.nodup_filter _)
    intro info hinfo
    obtain ⟨hm, hs⟩ := List.mem_filter.mp hinfo
    exact ⟨KeyedMap.get_of_mem hm, of_decide_eq_true (Bool.and_eq_true_iff.mp hs).1⟩
  · refine (heff.trans heff' ?_).congr fun k t _ => verdict_eq reg cutoff now draw last k t
    intro k t u hk
    have hterm : u.terminal = true := by
      unfold collected at hk
      split at hk
      · cases hk
      · obtain ⟨id, _, rfl⟩ := Option.map_eq_some_iff.mp hk
        exact fail_terminal _ _ _
    simp [overdue, hterm]
  · intro r hr
    rcases List.mem_append.mp hr with hr | hr
    · exact hoks r hr
    · exact hoks' r hr
  · intro draw' last'
    rw [sweep, h, Option.map_some, staleIds_flip]
    simp only [List.foldl_nil]
    rw [expired_failExpired]
    rfl

/-! ### A task with two reasons to fail -/

def silentAgent : AgentInfo := ⟨⟨.ofOctet 1⟩, "silent", 0, 0, .connected, none⟩

def sampleRegistry : AgentRegistry := AgentRegistry.new.restore [silentAgent]

/-- A live task of the silent agent, past its deadline. -/
def overdueTask : Task :=
  { id := ⟨.ofOctet 2⟩, contextId := ⟨.ofOctet 3⟩, status := ⟨.working, none, 0⟩, artifacts := []
    history := [], metadata := none, assignee := some silentAgent.id, creator := none
    deadline := some 5 }

def sampleDraws : Draws := fun _ => (⟨.ofOctet 4⟩, 30)

theorem sweep_exact_two_reasons :
    ∃ reg' mgr', sweep sampleRegistry (TaskManager.new.restore [overdueTask]) 10 20
        (fun _ => sampleDraws) sampleDraws = some (reg', mgr') ∧
      Effect (verdict sampleRegistry 10 20 (fun _ => sampleDraws) sampleDraws)
        (TaskManager.new.restore [overdueTask]) mgr' := by
  obtain ⟨reg', mgr', hs, _, _, _, heff, _⟩ := @sweep_exact sampleRegistry
    (TaskManager.new.restore [overdueTask]) 10 20 10 (by decide) (fun _ => sampleDraws) sampleDraws
  exact ⟨reg', mgr', hs, heff⟩

end Watchdog

end Trumpet
