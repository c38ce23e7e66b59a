import Mathlib.Logic.Function.Iterate
import Mathlib.Data.List.Basic

/-!
# Bounded retry with backoff

An attempt that fails is made again after a pause, at most `limit` more times;
each pause sets the length of the next. The loop keeps what it has done.
-/

namespace Retry

inductive Action (ε δ : Type) where
  | tried (result : Except ε Unit)
  | paused (delay : δ)

inductive Phase where
  | attempting
  | pausing
  | succeeded
  | gaveUp
  deriving DecidableEq

/-- `attempt` counts the retries so far, and `delay` is the next pause. -/
structure Loop (ε δ : Type) where
  attempt : Nat
  delay : δ
  phase : Phase
  done : List (Action ε δ)

variable {ε δ : Type}

def start (delay : δ) : Loop ε δ := ⟨0, delay, .attempting, []⟩

/-- An attempt ends. -/
def Loop.report (limit : Nat) (l : Loop ε δ) (result : Except ε Unit) : Option (Loop ε δ) :=
  match l.phase with
  | .attempting =>
    let done := l.done ++ [Action.tried result]
    match result with
    | .ok () => some { l with phase := .succeeded, done := done }
    | .error _ =>
      if l.attempt < limit then
        some { l with attempt := l.attempt + 1, phase := .pausing, done := done }
      else some { l with phase := .gaveUp, done := done }
  | _ => none

/-- A pause ends. -/
def Loop.resume (longer : δ → δ) (l : Loop ε δ) : Option (Loop ε δ) :=
  match l.phase with
  | .pausing =>
    some { l with
      delay := longer l.delay
      phase := .attempting
      done := l.done ++ [.paused l.delay] }
  | _ => none

/-- The failed attempts `errors`, each followed by its pause. -/
def failures (longer : δ → δ) (delay : δ) : List ε → List (Action ε δ)
  | [] => []
  | e :: errors => .tried (.error e) :: .paused delay :: failures longer (longer delay) errors

def isTry : Action ε δ → Bool
  | .tried _ => true
  | .paused _ => false

def pause? : Action ε δ → Option δ
  | .tried _ => none
  | .paused d => some d

/-- The attempts made. -/
def Loop.attempts (l : Loop ε δ) : Nat := l.done.countP isTry

/-- The pauses taken, in order. -/
def Loop.pauses (l : Loop ε δ) : List δ := l.done.filterMap pause?

variable {limit : Nat} {longer : δ → δ} {delay : δ}

theorem failures_concat (errors : List ε) (e : ε) :
    failures longer delay (errors ++ [e]) = failures longer delay errors ++
      [.tried (.error e), .paused (longer^[errors.length] delay)] := by
  induction errors generalizing delay with
  | nil => rfl
  | cons e' errors ih =>
    simp only [List.cons_append, failures, ih, List.length_cons, Function.iterate_succ_apply]

@[simp] theorem countP_failures (errors : List ε) :
    (failures longer delay errors).countP isTry = errors.length := by
  induction errors generalizing delay with
  | nil => rfl
  | cons e errors ih => simp only [failures, List.countP_cons, isTry, ih, List.length_cons]; rfl

theorem filterMap_failures (errors : List ε) :
    (failures longer delay errors).filterMap pause? =
      (List.range errors.length).map fun n => longer^[n] delay := by
  induction errors generalizing delay with
  | nil => rfl
  | cons e errors ih =>
    simp only [failures, List.filterMap_cons, pause?, ih, List.length_cons,
      List.range_succ_eq_map, List.map_cons, List.map_map, Function.iterate_zero, id]
    rfl

/-- What a loop has done, by phase, from the errors met so far. -/
def Trail (limit : Nat) (longer : δ → δ) (delay : δ) (l : Loop ε δ) (errors : List ε) : Prop :=
  l.delay = longer^[errors.length] delay ∧
  match l.phase with
  | .attempting =>
    l.done = failures longer delay errors ∧ l.attempt = errors.length ∧ errors.length ≤ limit
  | .pausing => ∃ e, l.done = failures longer delay errors ++ [.tried (.error e)] ∧
    l.attempt = errors.length + 1 ∧ errors.length < limit
  | .succeeded => l.done = failures longer delay errors ++ [.tried (.ok ())] ∧
    errors.length ≤ limit
  | .gaveUp => ∃ e, l.done = failures longer delay errors ++ [.tried (.error e)] ∧
    errors.length = limit

/-- The loop has followed the retry discipline so far. -/
def Valid (limit : Nat) (longer : δ → δ) (delay : δ) (l : Loop ε δ) : Prop :=
  ∃ errors, Trail limit longer delay l errors

theorem start_valid : Valid limit longer delay (@start ε δ delay) :=
  ⟨[], rfl, rfl, rfl, Nat.zero_le _⟩

theorem report_valid {l m : Loop ε δ} {result : Except ε Unit} (h : Valid limit longer delay l)
    (hr : l.report limit result = some m) : Valid limit longer delay m := by
  obtain ⟨errors, hd, ht⟩ := h
  unfold Loop.report at hr
  split at hr
  · rename_i hph
    rw [hph] at ht
    obtain ⟨hdone, hatt, hle⟩ := ht
    cases result with
    | ok _ =>
      cases hr
      exact ⟨errors, hd, by rw [hdone], hle⟩
    | error e =>
      simp only at hr
      split at hr
      · rename_i hlt
        cases hr
        exact ⟨errors, hd, e, by rw [hdone], by rw [hatt], hatt ▸ hlt⟩
      · rename_i hlt
        cases hr
        exact ⟨errors, hd, e, by rw [hdone], by omega⟩
  · cases hr

theorem resume_valid {l m : Loop ε δ} (h : Valid limit longer delay l)
    (hr : l.resume longer = some m) : Valid limit longer delay m := by
  obtain ⟨errors, hd, ht⟩ := h
  unfold Loop.resume at hr
  split at hr
  · rename_i hph
    rw [hph] at ht
    obtain ⟨e, hdone, hatt, hlt⟩ := ht
    cases hr
    refine ⟨errors ++ [e], ?_, ?_, ?_, ?_⟩
    · simp only [List.length_append, List.length_singleton, hd, Function.iterate_succ_apply']
    · rw [failures_concat, hdone, hd, List.append_assoc]
      rfl
    · simp [hatt]
    · simp only [List.length_append, List.length_singleton]
      exact hlt
  · cases hr

/-- Each report is of one attempt. -/
theorem attempts_report {l m : Loop ε δ} {result : Except ε Unit}
    (h : l.report limit result = some m) : m.attempts = l.attempts + 1 := by
  have hdone : m.done = l.done ++ [.tried result] := by
    unfold Loop.report at h
    split at h
    · simp only at h
      split at h
      · cases h; rfl
      · split at h <;> cases h <;> rfl
    · cases h
  rw [Loop.attempts, hdone, List.countP_append]
  rfl

theorem resume_pausing {l m : Loop ε δ} (h : l.resume longer = some m) : l.phase = .pausing := by
  unfold Loop.resume at h
  split at h
  · assumption
  · cases h

theorem attempts_resume {l m : Loop ε δ} (h : l.resume longer = some m) :
    m.attempts = l.attempts := by
  unfold Loop.resume at h
  split at h
  · cases h
    rw [Loop.attempts, List.countP_append]
    rfl
  · cases h

/-- Before an attempt there have been at most `limit`. -/
theorem Valid.attempting_le {l : Loop ε δ} (h : Valid limit longer delay l)
    (hp : l.phase = .attempting) : l.attempts ≤ limit := by
  obtain ⟨errors, -, ht⟩ := h
  rw [hp] at ht
  rw [Loop.attempts, ht.1, countP_failures]
  exact ht.2.2

/-- There are never more than `limit` retries. -/
theorem Valid.attempts_le {l : Loop ε δ} (h : Valid limit longer delay l) :
    l.attempts ≤ limit + 1 := by
  obtain ⟨errors, -, ht⟩ := h
  unfold Loop.attempts
  cases hph : l.phase <;> rw [hph] at ht
  case attempting =>
    rw [ht.1, countP_failures]
    exact Nat.le_succ_of_le ht.2.2
  case pausing =>
    obtain ⟨e, hdone, _, hlt⟩ := ht
    simp only [hdone, List.countP_append, countP_failures, List.countP_singleton, isTry]
    simp only [↓reduceIte]
    omega
  case succeeded =>
    simp only [ht.1, List.countP_append, countP_failures, List.countP_singleton, isTry]
    simp only [↓reduceIte]
    omega
  case gaveUp =>
    obtain ⟨e, hdone, heq⟩ := ht
    simp only [hdone, List.countP_append, countP_failures, List.countP_singleton, isTry]
    simp only [↓reduceIte]
    omega

theorem range_initial {m n : Nat} (h : m ≤ n) : List.range m <+: List.range n := by
  obtain ⟨k, rfl⟩ := Nat.exists_eq_add_of_le h
  exact ⟨_, (List.range_add).symm⟩

/-- The pauses are the first ones of the backoff, at most `limit` of them. -/
theorem Valid.pauses_initial {l : Loop ε δ} (h : Valid limit longer delay l) :
    l.pauses <+: (List.range limit).map fun k => longer^[k] delay := by
  obtain ⟨errors, -, ht⟩ := h
  have last (more : List (Action ε δ)) (hmore : more.filterMap pause? = [])
      (hl : errors.length ≤ limit) (hdone : l.done = failures longer delay errors ++ more) :
      l.pauses <+: (List.range limit).map fun k => longer^[k] delay := by
    rw [Loop.pauses, hdone, List.filterMap_append, filterMap_failures, hmore, List.append_nil]
    exact (range_initial hl).map _
  cases hph : l.phase <;> rw [hph] at ht
  case attempting => exact last [] rfl ht.2.2 (by rw [ht.1, List.append_nil])
  case pausing =>
    obtain ⟨e, hdone, _, hlt⟩ := ht
    exact last _ rfl (Nat.le_of_lt hlt) hdone
  case succeeded => exact last _ rfl ht.2 ht.1
  case gaveUp =>
    obtain ⟨e, hdone, heq⟩ := ht
    exact last _ rfl (Nat.le_of_eq heq) hdone

theorem tried_ok_notMem_failures (errors : List ε) :
    .tried (.ok ()) ∉ failures longer delay errors := by
  induction errors generalizing delay with
  | nil => exact List.not_mem_nil
  | cons e errors ih =>
    rintro (_ | ⟨_, _ | ⟨_, h⟩⟩)
    exact ih h

/-- The loop has succeeded when an attempt has. -/
theorem Valid.succeeded_iff {l : Loop ε δ} (h : Valid limit longer delay l) :
    l.phase = .succeeded ↔ .tried (.ok ()) ∈ l.done := by
  obtain ⟨errors, -, ht⟩ := h
  have hno := @tried_ok_notMem_failures ε δ longer delay errors
  cases hph : l.phase <;> rw [hph] at ht
  case attempting => simp [ht.1, hno]
  case pausing =>
    obtain ⟨e, hdone, _⟩ := ht
    simp [hdone, hno]
  case succeeded => simp [ht.1]
  case gaveUp =>
    obtain ⟨e, hdone, _⟩ := ht
    simp [hdone, hno]

/-- All before a success has failed. -/
theorem Valid.succeeded_last {l : Loop ε δ} (h : Valid limit longer delay l)
    (hs : l.phase = .succeeded) : ∃ before, l.done = before ++ [.tried (.ok ())] ∧
      .tried (.ok ()) ∉ before := by
  obtain ⟨errors, -, ht⟩ := h
  rw [hs] at ht
  exact ⟨_, ht.1, tried_ok_notMem_failures errors⟩

/-- Giving up takes every attempt allowed. -/
theorem Valid.gaveUp_attempts {l : Loop ε δ} (h : Valid limit longer delay l)
    (hg : l.phase = .gaveUp) : l.attempts = limit + 1 := by
  obtain ⟨errors, -, ht⟩ := h
  rw [hg] at ht
  obtain ⟨e, hdone, heq⟩ := ht
  simp only [Loop.attempts, hdone, List.countP_append, countP_failures, List.countP_singleton,
    isTry, heq, ↓reduceIte]

end Retry
