import Trumpet.Core.Chrono
import Trumpet.Core.Registry
import Trumpet.Core.TaskManager

/-! The watchdog sweep, one definition for each stretch between two lock
acquisitions. -/

namespace Trumpet

namespace Watchdog

/-- The instant before which a heartbeat is stale, unless computing it panics: a window
that is no duration is replaced by `Duration::seconds(i64::MAX / 2)`, which is none
either, and subtracting past the first instant panics too. -/
def cutoff (now : DateTime) (timeout : Nat) : Option DateTime :=
  if (timeout : Int) ≤ Chrono.maxDuration ∧ Chrono.minUtc ≤ now - timeout then
    some (now - timeout)
  else none

def stale (cutoff : DateTime) (info : AgentInfo) : Bool :=
  info.status = .connected && info.lastHeartbeatAt < cutoff

/-- Phase 1: the connected agents whose last heartbeat is older than the cutoff. -/
def staleIds (reg : AgentRegistry) (cutoff : DateTime) : List AgentId :=
  (reg.list.filter (stale cutoff)).map AgentInfo.id

/-- Phase 2: flip each collected agent. -/
def flip (reg : AgentRegistry) (ids : List AgentId) : AgentRegistry :=
  ids.foldl (fun reg id => (reg.markDisconnected id).2) reg

/-- Submitted tasks have not started yet and are rejected; others fail. -/
def target (current : TaskState) : TaskState :=
  if current = .submitted then .rejected else .failed

def reason (text : String) (id : MessageId) : TaskMessage := ⟨id, .agent, [.text text], none⟩

/-- The message id and the instant drawn for each task that is failed. -/
abbrev Draws := TaskId → MessageId × DateTime

/-- Move one listed task to its target; an error is logged and ignored. -/
def failOne (text : String) (draw : Draws) (mgr : TaskManager) (todo : TaskId × TaskState) :
    TaskManager :=
  (mgr.updateStatus todo.1 (target todo.2) (some (reason text (draw todo.1).1)) (draw todo.1).2).2

def failEach (mgr : TaskManager) (text : String) (todo : List (TaskId × TaskState))
    (draw : Draws) : TaskManager :=
  todo.foldl (failOne text draw) mgr

def pending (t : Task) : TaskId × TaskState := (t.id, t.status.state)

def disconnectReason (id : AgentId) : String := "assignee " ++ id.toString ++ " disconnected"

/-- The non-terminal tasks of an agent. -/
def inFlight (mgr : TaskManager) (id : AgentId) : List (TaskId × TaskState) :=
  ((mgr.listFiltered ⟨none, none, some id⟩).filter fun t => !t.terminal).map pending

/-- Phase 3, for one collected agent: fail its in-flight tasks. -/
def failInFlight (mgr : TaskManager) (id : AgentId) (draw : Draws) : TaskManager :=
  failEach mgr (disconnectReason id) (inFlight mgr id) draw

/-- Phase 4, under the read lock: the live tasks whose deadline has passed. -/
def expired (mgr : TaskManager) (now : DateTime) : List (TaskId × TaskState) :=
  (mgr.list.filter fun t => !t.terminal && t.deadline.any (· < now)).map pending

/-- Phase 4, under the write lock. -/
def failExpired (mgr : TaskManager) (todo : List (TaskId × TaskState)) (draw : Draws) :
    TaskManager :=
  failEach mgr "task deadline exceeded" todo draw

/-- A whole sweep, with nothing between its phases, unless computing the cutoff
panics. -/
def sweep (reg : AgentRegistry) (mgr : TaskManager) (timeout : Nat) (now : DateTime)
    (draw : AgentId → Draws) (last : Draws) : Option (AgentRegistry × TaskManager) :=
  (cutoff now timeout).map fun cutoff =>
    let ids := staleIds reg cutoff
    let mgr := ids.foldl (fun mgr id => failInFlight mgr id (draw id)) mgr
    (flip reg ids, failExpired mgr (expired mgr now) last)

/-! ## Flipping -/

theorem mem_staleIds {reg : AgentRegistry} {cutoff : DateTime} {id : AgentId} :
    id ∈ staleIds reg cutoff ↔
      ∃ info, reg.get id = some info ∧ info.status = .connected ∧
        info.lastHeartbeatAt < cutoff := by
  simp only [staleIds, List.mem_map, List.mem_filter, stale, Bool.and_eq_true,
    decide_eq_true_eq]
  constructor
  · rintro ⟨info, ⟨hm, hs⟩, rfl⟩
    exact ⟨info, KeyedMap.get_of_mem hm, hs⟩
  · rintro ⟨info, hg, hs⟩
    obtain ⟨hm, rfl⟩ := KeyedMap.get_eq_some.mp hg
    exact ⟨info, ⟨hm, hs⟩, rfl⟩

theorem get_flip (reg : AgentRegistry) (ids : List AgentId) (id : AgentId) :
    (flip reg ids).get id =
      if id ∈ ids then (reg.get id).map AgentRegistry.drop else reg.get id := by
  induction ids generalizing reg with
  | nil => simp [flip]
  | cons j ids ih =>
    rw [flip, List.foldl_cons]
    refine (ih _).trans ?_
    rw [AgentRegistry.get_markDisconnected]
    by_cases hj : id = j
    · subst hj
      simp only [if_true, List.mem_cons, true_or]
      split
      · cases reg.get id <;> rfl
      · rfl
    · simp only [hj, if_false, List.mem_cons, false_or]

theorem flip_valid {reg : AgentRegistry} (h : reg.Valid) (ids : List AgentId) :
    (flip reg ids).Valid := by
  induction ids generalizing reg with
  | nil => exact h
  | cons j ids ih => exact ih (AgentRegistry.markDisconnected_valid h j)

/-! ## Failing tasks -/

/-- Every live task can take the edge the watchdog picks for it. -/
theorem target_edge {s : TaskState} (h : s.isTerminal = false) :
    s.canTransitionTo (target s) = true := by
  cases s <;> first | rfl | cases h

theorem target_terminal (s : TaskState) : (target s).isTerminal = true := by
  unfold target
  split <;> rfl

/-- The task stored as `k` after the tasks of `todo` are failed. -/
def failed (text : String) (todo : List (TaskId × TaskState)) (draw : Draws) (k : TaskId)
    (t : Task) : Task :=
  match todo.find? fun e => e.1 = k with
  | none => t
  | some e =>
    if t.status.state.canTransitionTo (target e.2) then
      t.moveTo (target e.2) (some (reason text (draw k).1)) (draw k).2
    else t

/-- Failing a list of tasks changes each task on its own. -/
theorem get_failEach (mgr : TaskManager) (text : String) {todo : List (TaskId × TaskState)}
    (hn : (todo.map Prod.fst).Nodup) (draw : Draws) (k : TaskId) :
    (failEach mgr text todo draw).get k = (mgr.get k).map (failed text todo draw k) := by
  induction todo generalizing mgr with
  | nil => exact Option.map_id'.symm
  | cons e todo ih =>
    obtain ⟨he, hn⟩ := List.nodup_cons.mp hn
    rw [failEach, List.foldl_cons]
    refine (ih (failOne text draw mgr e) hn).trans ?_
    rw [failOne, TaskManager.get_updateStatus]
    by_cases hk : k = e.1
    · have hnone : (todo.find? fun d => d.1 = e.1) = none := by
        apply List.find?_eq_none.mpr
        intro d hd hde
        have hmem := List.mem_map_of_mem (f := Prod.fst) hd
        rw [of_decide_eq_true hde] at hmem
        exact he hmem
      subst hk
      rw [if_pos rfl, Option.map_map]
      congr 1
      funext t
      simp [failed, hnone]
    · have hk' : ¬ e.1 = k := fun h => hk h.symm
      rw [if_neg hk]
      congr 1
      funext t
      simp [failed, hk']

/-- The distinct ids of a list of stored tasks. -/
theorem pending_nodup {mgr : TaskManager} (p : Task → Bool) :
    (((mgr.list.filter p).map pending).map Prod.fst).Nodup := by
  rw [List.map_map]
  exact mgr.tasks.nodup_filter p

theorem find_pending {mgr : TaskManager} (p : Task → Bool) (k : TaskId) :
    (((mgr.list.filter p).map pending).find? fun e => e.1 = k) =
      ((mgr.get k).filter p).map pending := by
  rw [List.find?_map]
  exact congrArg (Option.map pending) (mgr.tasks.get_filter p k)

theorem inFlight_eq (mgr : TaskManager) (id : AgentId) :
    inFlight mgr id =
      (mgr.list.filter fun t => t.assignee = some id && !t.terminal).map pending := by
  simp only [inFlight, TaskManager.listFiltered, TaskFilter.matches, List.filter_filter]
  congr 1
  apply List.filter_congr
  intro t _
  simp [Bool.and_comm]

/-- Phase 3 fails exactly the live tasks of the agent. -/
theorem get_failInFlight (mgr : TaskManager) (id : AgentId) (draw : Draws) (k : TaskId) :
    (failInFlight mgr id draw).get k = (mgr.get k).map fun t =>
      if t.assignee = some id ∧ t.terminal = false then
        t.moveTo (target t.status.state) (some (reason (disconnectReason id) (draw k).1)) (draw k).2
      else t := by
  rw [failInFlight, inFlight_eq, get_failEach _ _ (pending_nodup _)]
  cases hg : mgr.get k with
  | none => rfl
  | some t =>
    rw [Option.map_some, Option.map_some, failed, find_pending, hg]
    by_cases hp : t.assignee = some id ∧ t.terminal = false
    · have he := target_edge hp.2
      simp [Option.filter, pending, he, hp]
    · have hf : (t.assignee = some id && !t.terminal) = false := by
        cases ht : t.terminal <;> simp_all
      simp [Option.filter, hf, hp]

/-- After the pass over an agent, all its tasks are terminal. -/
theorem terminal_of_failInFlight {mgr : TaskManager} {id : AgentId} {draw : Draws} {k : TaskId}
    {t : Task} (hg : (failInFlight mgr id draw).get k = some t) (ha : t.assignee = some id) :
    t.terminal = true := by
  rw [get_failInFlight] at hg
  obtain ⟨u, _, rfl⟩ := Option.map_eq_some_iff.mp hg
  split at ha
  · rename_i hlive
    rw [if_pos hlive]
    exact target_terminal u.status.state
  · rename_i hlive
    rw [if_neg hlive]
    cases ht : u.terminal with
    | true => rfl
    | false => exact absurd ⟨ha, ht⟩ hlive

/-! ## What is live after a sweep -/

/-- The task stored as `k` is `t`, and live. -/
def LiveAt (mgr : TaskManager) (k : TaskId) (t : Task) : Prop :=
  mgr.get k = some t ∧ t.terminal = false

/-- A pass over an agent leaves the live tasks of the others. -/
theorem live_failInFlight {mgr : TaskManager} {id : AgentId} {draw : Draws} {k : TaskId}
    {t : Task} :
    LiveAt (failInFlight mgr id draw) k t ↔ LiveAt mgr k t ∧ t.assignee ≠ some id := by
  constructor
  · rintro ⟨hg, hl⟩
    have hne : t.assignee ≠ some id := by
      intro ha
      rw [terminal_of_failInFlight hg ha] at hl
      cases hl
    rw [get_failInFlight] at hg
    obtain ⟨u, hu, rfl⟩ := Option.map_eq_some_iff.mp hg
    split at hne
    · rename_i hlive
      exact absurd hlive.1 hne
    · rename_i hlive
      rw [if_neg hlive] at hl ⊢
      exact ⟨⟨hu, hl⟩, hne⟩
  · rintro ⟨⟨hg, hl⟩, hne⟩
    refine ⟨?_, hl⟩
    rw [get_failInFlight, hg, Option.map_some, if_neg fun h => hne h.1]

theorem live_failInFlights {mgr : TaskManager} {ids : List AgentId} {draw : AgentId → Draws}
    {k : TaskId} {t : Task} :
    LiveAt (ids.foldl (fun mgr id => failInFlight mgr id (draw id)) mgr) k t ↔
      LiveAt mgr k t ∧ ∀ id ∈ ids, t.assignee ≠ some id := by
  induction ids generalizing mgr with
  | nil => simp
  | cons id ids ih =>
    rw [List.foldl_cons, ih, live_failInFlight, List.forall_mem_cons, and_assoc]

/-- The last phase leaves the live tasks whose deadline has not passed. -/
theorem live_failExpired {mgr : TaskManager} {now : DateTime} {draw : Draws} {k : TaskId}
    {t : Task} :
    LiveAt (failExpired mgr (expired mgr now) draw) k t ↔
      LiveAt mgr k t ∧ t.deadline.any (· < now) = false := by
  have hget : (failExpired mgr (expired mgr now) draw).get k =
      (mgr.get k).map (failed "task deadline exceeded" (expired mgr now) draw k) :=
    get_failEach _ _ (pending_nodup _) _ _
  rw [LiveAt, hget]
  cases hg : mgr.get k with
  | none => simp [LiveAt, hg]
  | some u =>
    have hfind : ((expired mgr now).find? fun e => e.1 = k) = _ := find_pending _ k
    rw [hg] at hfind
    rw [Option.map_some, Option.some.injEq, failed, hfind, LiveAt, hg, Option.some.injEq]
    by_cases hp : (!u.terminal && u.deadline.any (· < now)) = true
    · rw [Option.filter_some, if_pos hp]
      simp only [Bool.and_eq_true, Bool.not_eq_true'] at hp
      simp only [Option.map_some, pending, target_edge hp.1, if_true]
      constructor
      · rintro ⟨rfl, hl⟩
        have ht : (u.moveTo (target u.status.state)
          (some (reason "task deadline exceeded" (draw k).1)) (draw k).2).terminal = true :=
          target_terminal u.status.state
        rw [ht] at hl
        cases hl
      · rintro ⟨⟨rfl, _⟩, hd⟩
        rw [hp.2] at hd
        cases hd
    · rw [Option.filter_some, if_neg hp]
      simp only [Option.map_none]
      constructor
      · rintro ⟨rfl, hl⟩
        rw [hl] at hp
        exact ⟨⟨rfl, hl⟩, by simpa using hp⟩
      · exact And.left

/-- A sweep leaves the live tasks that are neither of a collected agent nor past
their deadline. -/
theorem live_sweep {reg reg' : AgentRegistry} {mgr mgr' : TaskManager} {timeout : Nat}
    {now : DateTime} {draw : AgentId → Draws} {last : Draws}
    (h : sweep reg mgr timeout now draw last = some (reg', mgr')) :
    ∃ ids, reg' = flip reg ids ∧ (∀ id ∈ ids, (reg.get id).isSome = true) ∧
      ∀ k t, LiveAt mgr' k t ↔ LiveAt mgr k t ∧ (∀ id ∈ ids, t.assignee ≠ some id) ∧
        t.deadline.any (· < now) = false := by
  obtain ⟨c, _, he⟩ := Option.map_eq_some_iff.mp h
  cases he
  refine ⟨staleIds reg c, rfl, fun id hid => ?_, fun k t => ?_⟩
  · obtain ⟨info, hg, _⟩ := mem_staleIds.mp hid
    rw [hg]
    rfl
  · rw [live_failExpired, live_failInFlights, and_assoc]

end Watchdog

end Trumpet
