import Trumpet.Core.Bus
import Trumpet.Lib.Broadcast
import Trumpet.Lib.Transition

/-! The tool-list notifier: a receiver of the bus that coalesces tool changes into
notifications to its client. -/

namespace Trumpet

namespace Notifier

def isToolEvent : Event → Bool
  | .toolRegistered _ | .toolDeregistered _ => true
  | _ => false

/-- The capacity of the daemon's bus. -/
def busCapacity : Nat := 1024

/-- Where the notifier stands: at its outer wait, in the coalescing window, or
sending; `upTo` events had been published when the send began. A send that
follows the closing of the bus is the `last`. -/
inductive Phase where
  | waiting
  | coalescing
  | sending (upTo : Nat) (last : Bool)
  | stopped

/-- The events published since the notifier subscribed, and its position among
them. `sent` counts the notifications, `announced` the events published before
the latest one, and `overruns` the times the receiver has lagged. -/
structure State where
  published : List Event
  closed : Bool
  next : Nat
  phase : Phase
  sent : Nat
  announced : Nat
  overruns : Nat

inductive Label where
  | publish (event : Event)
  | close
  | recv
  /-- The coalescing window is over. -/
  | elapse
  | sent
  | sendFails

def init : State := ⟨[], false, 0, .waiting, 0, 0, 0⟩

/-- The outer wait, given what the receiver returns. -/
def receiveFirst (s : State) : Broadcast.Recv Event → Option State
  | .item event => some { s with phase := if isToolEvent event then .coalescing else .waiting }
  | .lagged _ => some { s with overruns := s.overruns + 1 }
  | .empty => if s.closed then some { s with phase := .stopped } else none

/-- One turn of the inner loop. -/
def receiveMore (s : State) : Broadcast.Recv Event → Option State
  | .item _ => some s
  | .lagged _ => some { s with overruns := s.overruns + 1 }
  | .empty =>
    if s.closed then some { s with phase := .sending s.published.length true } else none

def step (capacity : Nat) (s : State) : Label → Option State
  | .publish event =>
    if s.closed then none else some { s with published := s.published ++ [event] }
  | .close => some { s with closed := true }
  | .recv =>
    let (received, next) := Broadcast.recv capacity s.published s.next
    match s.phase with
    | .waiting => receiveFirst { s with next := next } received
    | .coalescing => receiveMore { s with next := next } received
    | _ => none
  | .elapse =>
    match s.phase with
    | .coalescing => some { s with phase := .sending s.published.length false }
    | _ => none
  | .sent =>
    match s.phase with
    | .sending upTo last =>
      some { s with
        sent := s.sent + 1
        announced := upTo
        phase := if last then .stopped else .waiting }
    | _ => none
  | .sendFails =>
    match s.phase with
    | .sending _ _ => some { s with phase := .stopped }
    | _ => none

/-- There is a tool event at a position from `lo` to below `hi`. -/
def ChangeIn (events : List Event) (lo hi : Nat) : Prop :=
  ∃ i event, lo ≤ i ∧ i < hi ∧ events[i]? = some event ∧ isToolEvent event = true

/-- The notifier is back at its outer wait, with nothing left to receive. -/
def Idle (s : State) : Prop := s.phase = .waiting ∧ s.next = s.published.length

/-- Every tool event was published before the latest notification was sent. -/
def AllAnnounced (s : State) : Prop := ¬ ChangeIn s.published s.announced s.published.length

/-- An overrun at the outer wait that drops a tool event not yet announced leaves
another one to be received. -/
def Respects (capacity : Nat) (s : State) : Label → Prop
  | .recv => s.phase = .waiting →
    ChangeIn s.published (max s.next s.announced) (Broadcast.oldest capacity s.published) →
      ChangeIn s.published (Broadcast.oldest capacity s.published) s.published.length
  | _ => True

/-! ## Tool events by position -/

theorem ChangeIn.append {events : List Event} {lo hi : Nat} (h : ChangeIn events lo hi)
    (more : List Event) : ChangeIn (events ++ more) lo hi := by
  obtain ⟨i, event, hlo, hhi, hi, ht⟩ := h
  have hlt := (List.getElem?_eq_some_iff.mp hi).1
  exact ⟨i, event, hlo, hhi, (List.getElem?_append_left hlt).trans hi, ht⟩

theorem ChangeIn.of_append {events more : List Event} {lo hi : Nat}
    (h : ChangeIn (events ++ more) lo hi) (hle : hi ≤ events.length) : ChangeIn events lo hi := by
  obtain ⟨i, event, hlo, hhi, hi, ht⟩ := h
  rw [List.getElem?_append_left (by omega)] at hi
  exact ⟨i, event, hlo, hhi, hi, ht⟩

theorem ChangeIn.mono {events : List Event} {lo hi lo' hi' : Nat} (h : ChangeIn events lo hi)
    (hlo : lo' ≤ lo) (hhi : hi ≤ hi') : ChangeIn events lo' hi' := by
  obtain ⟨i, event, h1, h2, hi, ht⟩ := h
  exact ⟨i, event, by omega, by omega, hi, ht⟩

/-- One more event, not about a tool, makes no difference at either end. -/
theorem ChangeIn.skip_last {events : List Event} {lo n : Nat} {event : Event}
    (h : ChangeIn events lo (n + 1)) (hn : events[n]? = some event)
    (ht : isToolEvent event = false) : ChangeIn events lo n := by
  obtain ⟨i, e, h1, h2, hi, hte⟩ := h
  rcases Nat.lt_or_eq_of_le (Nat.le_of_lt_succ h2) with hlt | rfl
  · exact ⟨i, e, h1, hlt, hi, hte⟩
  · rw [hn] at hi
    cases hi
    rw [ht] at hte
    cases hte

theorem ChangeIn.skip_first {events : List Event} {n hi : Nat} {event : Event}
    (h : ChangeIn events n hi) (hn : events[n]? = some event)
    (ht : isToolEvent event = false) : ChangeIn events (n + 1) hi := by
  obtain ⟨i, e, h1, h2, hi, hte⟩ := h
  rcases Nat.lt_or_eq_of_le h1 with hlt | rfl
  · exact ⟨i, e, hlt, h2, hi, hte⟩
  · rw [hn] at hi
    cases hi
    rw [ht] at hte
    cases hte

/-! ## Every run -/

/-- Notifications due for events already received. -/
def owed : Phase → Nat
  | .coalescing | .sending _ _ => 1
  | _ => 0

/-- What holds in every run: a send covers all that was received, and there is a
tool event received for each notification sent or due. -/
structure Valid (s : State) : Prop where
  next_le : s.next ≤ s.published.length
  covers : ∀ upTo last, s.phase = .sending upTo last → s.next ≤ upTo
  sent : s.sent + owed s.phase ≤ (s.published.take s.next).countP isToolEvent

theorem init_valid : Valid init :=
  ⟨Nat.le_refl 0, fun _ _ h => by (cases h), Nat.le_refl 0⟩

/-- Receiving moves the position forward. -/
theorem countP_take_mono {events : List Event} {m n : Nat} (h : m ≤ n) :
    (events.take m).countP isToolEvent ≤ (events.take n).countP isToolEvent :=
  List.Sublist.countP_le (List.take_sublist_take_left h)

theorem countP_take_succ {events : List Event} {n : Nat} {event : Event}
    (hn : events[n]? = some event) : (events.take (n + 1)).countP isToolEvent =
      (events.take n).countP isToolEvent + (if isToolEvent event then 1 else 0) := by
  rw [List.take_add_one, hn, List.countP_append, Option.toList_some, List.countP_singleton]

theorem step_valid {capacity : Nat} {s t : State} {l : Label} (h : Valid s)
    (hs : step capacity s l = some t) : Valid t := by
  have hsent := h.sent
  cases l with
  | publish event =>
    simp only [step, Option.ite_none_left_eq_some, Option.some.injEq] at hs
    obtain ⟨_, rfl⟩ := hs
    refine ⟨?_, h.covers, ?_⟩
    · simp only [List.length_append]
      exact Nat.le_trans h.next_le (Nat.le_add_right _ _)
    · rw [List.take_append_of_le_length h.next_le]
      exact hsent
  | close =>
    cases hs
    exact ⟨h.next_le, h.covers, hsent⟩
  | recv =>
    simp only [step] at hs
    rcases @Broadcast.recv_cases _ capacity s.next s.published with
      ⟨hlt, hr⟩ | ⟨_, event, he, hr⟩ | ⟨_, hr⟩
    · have hmono := @countP_take_mono s.published _ _ (Nat.le_of_lt hlt)
      have hle : Broadcast.oldest capacity s.published ≤ s.published.length := Broadcast.oldest_le
      rw [hr] at hs
      split at hs
      · rename_i hph
        cases hs
        refine ⟨hle, fun _ _ hp => ?_, Nat.le_trans hsent hmono⟩
        rw [hph] at hp
        cases hp
      · rename_i hph
        cases hs
        refine ⟨hle, fun _ _ hp => ?_, Nat.le_trans hsent hmono⟩
        rw [hph] at hp
        cases hp
      · cases hs
    · have hlt := (List.getElem?_eq_some_iff.mp he).1
      have hcount := countP_take_succ he
      rw [hr] at hs
      split at hs
      · rename_i hph
        cases hs
        rw [hph] at hsent
        refine ⟨hlt, fun _ _ hp => ?_, ?_⟩
        · simp only at hp
          split at hp <;> cases hp
        · simp only [hcount]
          cases ht : isToolEvent event <;> simp [owed] at hsent ⊢ <;> exact hsent
      · rename_i hph
        cases hs
        refine ⟨hlt, fun _ _ hp => ?_, ?_⟩
        · rw [hph] at hp
          cases hp
        · exact Nat.le_trans hsent (countP_take_mono (Nat.le_succ _))
      · cases hs
    · rw [hr] at hs
      split at hs
      · rename_i hph
        simp only [receiveFirst, Option.ite_none_right_eq_some, Option.some.injEq] at hs
        obtain ⟨_, rfl⟩ := hs
        rw [hph] at hsent
        exact ⟨h.next_le, fun _ _ hp => by (cases hp), hsent⟩
      · rename_i hph
        simp only [receiveMore, Option.ite_none_right_eq_some, Option.some.injEq] at hs
        obtain ⟨_, rfl⟩ := hs
        rw [hph] at hsent
        refine ⟨h.next_le, fun _ _ hp => ?_, hsent⟩
        cases hp
        exact h.next_le
      · cases hs
  | elapse =>
    simp only [step] at hs
    split at hs
    · rename_i hph
      cases hs
      rw [hph] at hsent
      refine ⟨h.next_le, fun _ _ hp => ?_, hsent⟩
      cases hp
      exact h.next_le
    · cases hs
  | sent =>
    simp only [step] at hs
    split at hs
    · rename_i upTo last hph
      cases hs
      rw [hph] at hsent
      refine ⟨h.next_le, fun _ _ hp => ?_, ?_⟩
      · simp only at hp
        split at hp <;> cases hp
      · cases last <;> exact hsent
    · cases hs
  | sendFails =>
    simp only [step] at hs
    split at hs
    · rename_i upTo last hph
      cases hs
      rw [hph] at hsent
      exact ⟨h.next_le, fun _ _ hp => by (cases hp), Nat.le_of_succ_le hsent⟩
    · cases hs

/-- What holds at the outer wait when no overrun has dropped the last tool event:
one already received that is not announced is followed by another to receive. -/
def Pending (s : State) : Prop :=
  s.phase = .waiting → ChangeIn s.published s.announced s.next →
    ChangeIn s.published s.next s.published.length

theorem init_pending : Pending init := by
  rintro - ⟨i, event, _, hi, _⟩
  exact absurd hi (Nat.not_lt_zero i)

theorem Pending.of_phase {s : State} (h : s.phase ≠ .waiting) : Pending s :=
  fun hp => absurd hp h

theorem lagged_pending {capacity : Nat} {s : State} (h : Pending s) (hg : Respects capacity s .recv)
    (hph : s.phase = .waiting)
    (hc : ChangeIn s.published s.announced (Broadcast.oldest capacity s.published)) :
    ChangeIn s.published (Broadcast.oldest capacity s.published) s.published.length := by
  obtain ⟨i, event, hlo, hhi, hi, ht⟩ := hc
  by_cases hin : i < s.next
  · -- the event was received before; the one that follows it may be dropped too
    obtain ⟨j, e, hj, hjl, he, hte⟩ := h hph ⟨i, event, hlo, hin, hi, ht⟩
    by_cases hjo : j < Broadcast.oldest capacity s.published
    · exact hg hph ⟨j, e, by omega, hjo, he, hte⟩
    · exact ⟨j, e, by omega, hjl, he, hte⟩
  · exact hg hph ⟨i, event, by omega, hhi, hi, ht⟩

theorem step_pending {capacity : Nat} {s t : State} {l : Label} (hv : Valid s) (h : Pending s)
    (hg : Respects capacity s l) (hs : step capacity s l = some t) : Pending t := by
  cases l with
  | publish event =>
    simp only [step, Option.ite_none_left_eq_some, Option.some.injEq] at hs
    obtain ⟨_, rfl⟩ := hs
    intro hph hc
    have hleft := (h hph (hc.of_append hv.next_le)).append [event]
    exact hleft.mono (Nat.le_refl _) (by simp)
  | close =>
    cases hs
    exact h
  | recv =>
    simp only [step] at hs
    rcases @Broadcast.recv_cases _ capacity s.next s.published with
      ⟨_, hr⟩ | ⟨_, event, he, hr⟩ | ⟨_, hr⟩
    · rw [hr] at hs
      split at hs
      · rename_i hph
        cases hs
        intro _ hc
        exact @lagged_pending capacity s h hg hph hc
      · rename_i hph
        cases hs
        exact .of_phase (by simp only [hph]; simp)
      · cases hs
    · rw [hr] at hs
      split at hs
      · rename_i hph
        cases hs
        intro hw hc
        have ht : isToolEvent event = false := by
          cases hte : isToolEvent event with
          | false => rfl
          | true => simp [hte] at hw
        exact (h hph (hc.skip_last he ht)).skip_first he ht
      · rename_i hph
        cases hs
        exact .of_phase (by simp only [hph]; simp)
      · cases hs
    · rw [hr] at hs
      split at hs
      · simp only [receiveFirst, Option.ite_none_right_eq_some, Option.some.injEq] at hs
        obtain ⟨_, rfl⟩ := hs
        exact .of_phase (by simp)
      · simp only [receiveMore, Option.ite_none_right_eq_some, Option.some.injEq] at hs
        obtain ⟨_, rfl⟩ := hs
        exact .of_phase (by simp)
      · cases hs
  | elapse =>
    simp only [step] at hs
    split at hs
    · cases hs
      exact .of_phase (by simp)
    · cases hs
  | sent =>
    simp only [step] at hs
    split at hs
    · rename_i upTo last hph
      cases hs
      -- the send covers all that was received
      rintro - ⟨i, event, hlo, hhi, _⟩
      have hle := hv.covers upTo last hph
      simp only at hlo hhi
      omega
    · cases hs
  | sendFails =>
    simp only [step] at hs
    split at hs
    · cases hs
      exact .of_phase (by simp)
    · cases hs

/-! ## What an overrun drops -/

theorem step_recv_lagged {capacity : Nat} {s : State} (hph : s.phase = .waiting)
    (hlt : s.next < Broadcast.oldest capacity s.published) :
    step capacity s .recv = some { s with
      next := Broadcast.oldest capacity s.published
      overruns := s.overruns + 1 } := by
  have hr : Broadcast.recv capacity s.published s.next =
      (.lagged (Broadcast.oldest capacity s.published - s.next),
        Broadcast.oldest capacity s.published) := if_pos hlt
  simp only [step, hr, hph, receiveFirst]

/-- Without tool events to receive, the notifier reads on to the end and stays
at its outer wait. -/
theorem exec_recv {capacity : Nat} (n : Nat) {s : State} (hph : s.phase = .waiting)
    (ho : Broadcast.oldest capacity s.published ≤ s.next)
    (hn : s.next + n = s.published.length)
    (hc : ¬ ChangeIn s.published s.next s.published.length) :
    Transition.exec (step capacity) s (List.replicate n .recv) =
      some { s with next := s.published.length } := by
  induction n generalizing s with
  | zero => rw [← hn]; rfl
  | succ n ih =>
    have hlt : s.next < s.published.length := by omega
    have he := List.getElem?_eq_getElem hlt
    have ht : isToolEvent s.published[s.next] = false := by
      cases hte : isToolEvent s.published[s.next] with
      | false => rfl
      | true => exact absurd ⟨s.next, _, Nat.le_refl _, hlt, he, hte⟩ hc
    have hstep : step capacity s .recv = some { s with next := s.next + 1 } := by
      have hr : Broadcast.recv capacity s.published s.next =
          (.item s.published[s.next], s.next + 1) := by
        simp only [Broadcast.recv, if_neg (Nat.not_lt.mpr ho), he]
      simp only [step, hr, hph, receiveFirst, ht]
      simp
    rw [List.replicate_succ, Transition.exec, hstep]
    refine ih hph (Nat.le_succ_of_le ho) ?_ fun h => hc (h.mono (Nat.le_succ _) (Nat.le_refl _))
    simp only
    omega

/-- After an overrun that drops the last tool event, the notifier comes to rest
with the change not announced. -/
theorem unannounced_of_disrespect {capacity : Nat} {s t : State} {l : Label}
    (hs : step capacity s l = some t) (hno : ¬ Respects capacity s l) :
    ∃ ms u, Transition.exec (step capacity) t ms = some u ∧ Idle u ∧ ¬ AllAnnounced u := by
  cases l with
  | recv =>
    simp only [Respects, Classical.not_imp] at hno
    obtain ⟨hph, hc, hnone⟩ := hno
    have hlt : s.next < Broadcast.oldest capacity s.published := by
      obtain ⟨i, _, hlo, hhi, _⟩ := hc
      omega
    rw [step_recv_lagged hph hlt, Option.some.injEq] at hs
    subst hs
    have hle := @Broadcast.oldest_le _ capacity s.published
    refine ⟨_, _, exec_recv _ hph (Nat.le_refl _) (Nat.add_sub_of_le hle) hnone, ⟨hph, rfl⟩, ?_⟩
    exact not_not_intro (hc.mono (Nat.le_max_right _ _) hle)
  | publish | close | elapse | sent | sendFails => exact absurd trivial hno

/-- At every capacity: in each run whose overruns at the outer wait leave a tool
event to receive for those they drop, all is announced whenever the notifier is
idle; the notifications never exceed the tool events and the overruns. No
overrun may be exempted from the guard. -/
theorem announces_all_when_respected (capacity : Nat) :
    (∀ ls s, Transition.exec (step capacity) init ls = some s →
      (Transition.EachStep (step capacity) (fun _ => Respects capacity) init ls →
        Idle s → AllAnnounced s) ∧
      s.sent ≤ s.published.countP isToolEvent + s.overruns) ∧
    ∀ ls s l t, Transition.exec (step capacity) init ls = some s →
      Transition.EachStep (step capacity) (fun _ => Respects capacity) init ls →
      step capacity s l = some t → ¬ Respects capacity s l →
      ∃ ms u, Transition.exec (step capacity) t ms = some u ∧ Idle u ∧ ¬ AllAnnounced u := by
  constructor
  · intro ls s hrun
    have hv : Valid s := Transition.invariant (P := Valid) (fun _ _ _ => step_valid) init_valid hrun
    refine ⟨fun hg hidle hc => ?_, ?_⟩
    · have hboth : Valid s ∧ Pending s := Transition.guarded_invariant
        (P := fun s => Valid s ∧ Pending s)
        (fun _ _ _ h hg hs => ⟨step_valid h.1 hs, step_pending h.1 h.2 hg hs⟩)
        ⟨init_valid, init_pending⟩ hg hrun
      obtain ⟨hph, hnext⟩ := hidle
      rw [← hnext] at hc
      obtain ⟨i, _, hlo, hhi, _⟩ := hboth.2 hph hc
      omega
    · have hsent := hv.sent
      have hall := List.Sublist.countP_le (p := isToolEvent)
        (List.take_sublist s.next s.published)
      omega
  · intro ls s l t _ _ hs hno
    exact unannounced_of_disrespect hs hno

/-! ## Bursts -/

/-- A change overruns the one before it in a channel of one event. -/
def twoChanges : List Label :=
  [.publish (.toolDeregistered ⟨.ofOctet 1⟩), .publish (.toolDeregistered ⟨.ofOctet 2⟩), .recv,
    .recv, .elapse, .sent]

theorem two_changes_announced :
    ∃ s, Transition.exec (step 1) init twoChanges = some s ∧
      Transition.EachStep (step 1) (fun _ => Respects 1) init twoChanges ∧
      s.overruns = 1 ∧ s.sent = 1 ∧ Idle s ∧ AllAnnounced s := by
  have hrun : Transition.exec (step 1) init twoChanges = some _ := rfl
  have hguard : Transition.EachStep (step 1) (fun _ => Respects 1) init twoChanges := by
    refine .next trivial rfl (.next trivial rfl (.next ?_ rfl (.next ?_ rfl (.next trivial rfl
      (.next trivial rfl .nil)))))
    all_goals exact fun _ _ => ⟨1, _, Nat.le_refl 1, Nat.lt_succ_self 1, rfl, rfl⟩
  exact ⟨_, hrun, hguard, rfl, rfl, ⟨rfl, rfl⟩,
    ((announces_all_when_respected 1).1 _ _ hrun).1 hguard ⟨rfl, rfl⟩⟩

theorem exec_publish {capacity : Nat} {s : State} (hc : s.closed = false) (events : List Event) :
    Transition.exec (step capacity) s (events.map .publish) =
      some { s with published := s.published ++ events } := by
  induction events generalizing s with
  | nil => simp
  | cons event events ih =>
    have hstep : step capacity s (.publish event) =
        some { s with published := s.published ++ [event] } := by
      simp [step, hc]
    rw [List.map_cons, Transition.exec, hstep]
    have hrest := @ih { s with published := s.published ++ [event] } hc
    simpa using hrest

/-- A tool is deregistered, and a burst of other events fills the channel before
the notifier is scheduled. -/
def burst : List Event :=
  .toolDeregistered ⟨.ofOctet 1⟩ :: List.replicate busCapacity (.agentDeregistered ⟨.ofOctet 2⟩)

theorem burst_drops_change : ¬ Respects busCapacity { init with published := burst } .recv := by
  intro h
  have hoff : Broadcast.oldest busCapacity burst = 1 := by simp [Broadcast.oldest, burst]
  obtain ⟨i, event, hlo, _, hi, ht⟩ := h rfl (by
    refine ⟨0, .toolDeregistered ⟨.ofOctet 1⟩, Nat.le_refl 0, ?_, rfl, rfl⟩
    exact hoff ▸ Nat.one_pos)
  rw [hoff] at hlo
  obtain ⟨i, rfl⟩ := Nat.exists_eq_add_of_le' hlo
  have hmem := List.mem_of_getElem? (show (List.replicate busCapacity _)[i]? = some event from hi)
  rw [List.eq_of_mem_replicate hmem] at ht
  cases ht

theorem burst_unannounced :
    ¬ ∀ ls s, Transition.exec (step busCapacity) init ls = some s → Idle s → AllAnnounced s := by
  intro h
  have hrun := @exec_publish busCapacity init rfl burst
  have hlen : 0 < Broadcast.oldest busCapacity burst := by simp [Broadcast.oldest, burst]
  have hstep : step busCapacity { init with published := burst } .recv =
      some { init with
        published := burst
        next := Broadcast.oldest busCapacity burst
        overruns := 1 } := step_recv_lagged rfl hlen
  obtain ⟨ms, u, hms, hidle, hno⟩ := unannounced_of_disrespect hstep burst_drops_change
  have hrest : Transition.exec (step busCapacity) { init with published := burst }
      (.recv :: ms) = some u := by
    rw [Transition.exec, hstep]
    exact hms
  exact hno (h _ u (Transition.exec_trans hrun hrest) hidle)

end Notifier

end Trumpet
