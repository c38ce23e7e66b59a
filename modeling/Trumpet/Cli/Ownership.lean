import Trumpet.Core.Error
import Trumpet.Lib.Transition

/-! The socket path and the PID file, which any number of `serve`, `start` and
`stop` processes share without a lock. -/

namespace Trumpet

/-- A daemon from its first look at the socket path to its exit. It serves from
the moment it has written its PID file. -/
inductive ServePhase where
  | checking
  | removing
  | binding
  | bound
  | serving
  | draining
  | removedSocket

inductive StartRun where
  | checking
  | spawning
  | polling (polls : Nat)
  | returned (result : Except Error Unit)

inductive StopRun where
  | readingPid
  | killing (pid : Nat)
  | polling (pid polls : Nat)
  | removingPidFile (result : Except Error Unit)
  | removingSocket (result : Except Error Unit)
  | returned (result : Except Error Unit)

inductive Proc where
  | serve (phase : ServePhase)
  | start (run : StartRun)
  | stop (run : StopRun)
  | ended

namespace Ownership

/-- A process id is a position in `procs`. `socket` is the daemon that bound the
socket path, and `pidFile` the one that wrote the PID file. -/
structure State where
  procs : List Proc
  socket : Option Nat
  pidFile : Option Nat

inductive Label where
  | launchServe
  | launchStart
  | launchStop
  /-- The process takes its next step; a serving daemon shuts down. -/
  | next (pid : Nat)
  /-- The process fails, or is killed. -/
  | die (pid : Nat)

def init : State := ⟨[], none, none⟩

/-- The daemon has bound the socket path, and has not removed it. -/
def holdsSocket : Proc → Bool
  | .serve .bound | .serve .serving | .serve .draining => true
  | _ => false

/-- The daemon has written the PID file, and has not removed it. -/
def holdsPidFile : Proc → Bool
  | .serve .serving | .serve .draining | .serve .removedSocket => true
  | _ => false

def listening : Proc → Bool
  | .serve .bound | .serve .serving => true
  | _ => false

def isServe : Proc → Bool
  | .serve _ => true
  | _ => false

namespace State

def set (s : State) (pid : Nat) (proc : Proc) : State := { s with procs := s.procs.set pid proc }

/-- The process exists and satisfies the test. -/
def has (s : State) (test : Proc → Bool) (pid : Nat) : Bool := (s.procs[pid]?).any test

/-- The socket path exists and a connect is accepted. -/
def isDaemonRunning (s : State) : Bool := s.socket.any (s.has listening)

end State

def stepServe (s : State) (pid : Nat) : ServePhase → State
  | .checking => s.set pid (.serve (if s.socket.isSome then .removing else .binding))
  | .removing =>
    if s.socket.isSome then { s with socket := none }.set pid (.serve .binding)
    else s.set pid .ended
  | .binding =>
    if s.socket.isSome then s.set pid .ended
    else { s with socket := some pid }.set pid (.serve .bound)
  | .bound => { s with pidFile := some pid }.set pid (.serve .serving)
  | .serving => s.set pid (.serve .draining)
  | .draining => { s with socket := none }.set pid (.serve .removedSocket)
  | .removedSocket => { s with pidFile := none }.set pid .ended

def startMaxPolls : Nat := 15

def stopMaxPolls : Nat := 25

/-- A spawned daemon is a new process. -/
def stepStart (s : State) (pid : Nat) : StartRun → Option State
  | .checking =>
    if s.isDaemonRunning then
      some (s.set pid (.start (.returned (.error (.daemonAlreadyRunning (s.pidFile.getD 0))))))
    else some (s.set pid (.start .spawning))
  | .spawning =>
    let s := s.set pid (.start (.polling 0))
    some { s with procs := s.procs ++ [.serve .checking] }
  | .polling polls =>
    if s.isDaemonRunning then some (s.set pid (.start (.returned (.ok ()))))
    else if polls + 1 < startMaxPolls then some (s.set pid (.start (.polling (polls + 1))))
    else some (s.set pid (.start (.returned (.error (.internalUnexpected
      "daemon did not become ready within 3 seconds")))))
  | .returned _ => none

def stepStop (s : State) (pid : Nat) : StopRun → Option State
  | .readingPid =>
    match s.pidFile with
    | none => some (s.set pid (.stop (.returned (.error .daemonNotRunning))))
    | some daemon => some (s.set pid (.stop (.killing daemon)))
  | .killing daemon =>
    if s.has isServe daemon then some (s.set pid (.stop (.polling daemon 0)))
    else some (s.set pid (.stop (.removingPidFile (.error .daemonNotRunning))))
  | .polling daemon polls =>
    if !s.isDaemonRunning then some (s.set pid (.stop (.removingPidFile (.ok ()))))
    else if polls + 1 < stopMaxPolls then some (s.set pid (.stop (.polling daemon (polls + 1))))
    else some (s.set pid (.stop (.returned (.error (.daemonShutdownFailed
      ("daemon (pid " ++ toString daemon ++ ") did not exit within 5 seconds"))))))
  | .removingPidFile result =>
    some ({ s with pidFile := none }.set pid (.stop (.removingSocket result)))
  | .removingSocket result =>
    some ({ s with socket := none }.set pid (.stop (.returned result)))
  | .returned _ => none

def step (s : State) : Label → Option State
  | .launchServe => some { s with procs := s.procs ++ [.serve .checking] }
  | .launchStart => some { s with procs := s.procs ++ [.start .checking] }
  | .launchStop => some { s with procs := s.procs ++ [.stop .readingPid] }
  | .next pid =>
    match s.procs[pid]? with
    | some (.serve phase) => some (stepServe s pid phase)
    | some (.start run) => stepStart s pid run
    | some (.stop run) => stepStop s pid run
    | some .ended | none => none
  | .die pid => some (s.set pid .ended)

/-- Each running daemon still has the socket path it bound and the PID file it
wrote, until it removes them itself. -/
structure Owned (s : State) : Prop where
  socket : ∀ pid, s.has holdsSocket pid = true → s.socket = some pid
  pidFile : ∀ pid, s.has holdsPidFile pid = true → s.pidFile = some pid

/-- A daemon removes an existing socket when no daemon that bound it is running,
and writes its PID file when no daemon is between its own two removals; `stop`
removes a path when no daemon that has it is running. -/
def Respects (s : State) : Label → Prop
  | .next pid =>
    match s.procs[pid]? with
    | some (.serve .removing) => ∀ q, s.has holdsSocket q = false
    | some (.serve .bound) => ∀ q : Nat, s.procs[q]? ≠ some (.serve .removedSocket)
    | some (.stop (.removingPidFile _)) => ∀ q, s.has holdsPidFile q = false
    | some (.stop (.removingSocket _)) => ∀ q, s.has holdsSocket q = false
    | _ => True
  | _ => True

/-! ## One step -/

theorem has_set_ne (s : State) (test : Proc → Bool) {pid q : Nat} (h : q ≠ pid) (proc : Proc) :
    (s.set pid proc).has test q = s.has test q := by
  unfold State.has State.set
  rw [List.getElem?_set_ne (Ne.symm h)]

theorem of_has_set {s : State} {test : Proc → Bool} {pid q : Nat} {proc : Proc}
    (h : (s.set pid proc).has test q = true) :
    q = pid ∧ test proc = true ∨ q ≠ pid ∧ s.has test q = true := by
  by_cases hq : q = pid
  · subst hq
    refine .inl ⟨rfl, ?_⟩
    unfold State.has State.set at h
    simp only [List.getElem?_set_self'] at h
    cases hs : s.procs[q]? with
    | none =>
      rw [hs] at h
      cases h
    | some old =>
      rw [hs] at h
      exact h
  · rw [has_set_ne s test hq] at h
    exact .inr ⟨hq, h⟩

theorem has_append (s : State) (test : Proc → Bool) {proc : Proc} (h : test proc = false)
    (q : Nat) : ({ s with procs := s.procs ++ [proc] } : State).has test q = s.has test q := by
  unfold State.has
  rcases Nat.lt_trichotomy q s.procs.length with hlt | rfl | hgt
  · rw [List.getElem?_append_left hlt]
  · simp [h]
  · rw [List.getElem?_eq_none (by simp; omega), List.getElem?_eq_none (by omega)]

theorem has_of_get {s : State} {test : Proc → Bool} {pid : Nat} {proc : Proc}
    (hp : s.procs[pid]? = some proc) : s.has test pid = test proc := by
  rw [State.has, hp]
  rfl

theorem init_owned : Owned init :=
  ⟨fun _ h => by (cases h), fun _ h => by (cases h)⟩

/-- A process goes on, and the others keep what they have. -/
theorem Owned.of_set {s s' : State} {pid : Nat} {proc : Proc} (hprocs : s'.procs = s.procs)
    (socket : ∀ q, q ≠ pid → s.has holdsSocket q = true → s'.socket = some q)
    (pidFile : ∀ q, q ≠ pid → s.has holdsPidFile q = true → s'.pidFile = some q)
    (ownSocket : holdsSocket proc = true → s'.socket = some pid)
    (ownPidFile : holdsPidFile proc = true → s'.pidFile = some pid) : Owned (s'.set pid proc) := by
  have hhas : ∀ test q, s'.has test q = s.has test q := by
    intro test q
    rw [State.has, State.has, hprocs]
  constructor
  · intro q hq
    rcases of_has_set hq with ⟨rfl, ht⟩ | ⟨hne, ht⟩
    · exact ownSocket ht
    · exact socket q hne (hhas _ _ ▸ ht)
  · intro q hq
    rcases of_has_set hq with ⟨rfl, ht⟩ | ⟨hne, ht⟩
    · exact ownPidFile ht
    · exact pidFile q hne (hhas _ _ ▸ ht)

/-- A step that touches neither path, of a process that comes to hold nothing. -/
theorem Owned.set_idle {s : State} (h : Owned s) (pid : Nat) {proc : Proc}
    (hsocket : holdsSocket proc = false) (hpidFile : holdsPidFile proc = false) :
    Owned (s.set pid proc) :=
  .of_set rfl (fun q _ => h.socket q) (fun q _ => h.pidFile q)
    (fun ht => by rw [hsocket] at ht; cases ht) (fun ht => by rw [hpidFile] at ht; cases ht)

theorem Owned.append {s : State} (h : Owned s) {proc : Proc} (hsocket : holdsSocket proc = false)
    (hpidFile : holdsPidFile proc = false) :
    Owned { s with procs := s.procs ++ [proc] } := by
  constructor
  · intro q hq
    rw [has_append s _ hsocket] at hq
    exact h.socket q hq
  · intro q hq
    rw [has_append s _ hpidFile] at hq
    exact h.pidFile q hq

theorem stepServe_owned {s : State} {pid : Nat} {phase : ServePhase} (h : Owned s)
    (hp : s.procs[pid]? = some (.serve phase)) (hg : Respects s (.next pid)) :
    Owned (stepServe s pid phase) := by
  have hsocket : holdsSocket (.serve phase) = true → s.socket = some pid := fun ht =>
    h.socket pid ((has_of_get hp).trans ht)
  have hpidFile : holdsPidFile (.serve phase) = true → s.pidFile = some pid := fun ht =>
    h.pidFile pid ((has_of_get hp).trans ht)
  simp only [Respects, hp] at hg
  cases phase with
  | checking =>
    simp only [stepServe]
    split <;> exact h.set_idle pid rfl rfl
  | removing =>
    simp only [stepServe]
    split
    · refine .of_set (s := s) rfl (fun q _ hq => ?_) (fun q _ => h.pidFile q)
        (fun ht => by cases ht) (fun ht => by cases ht)
      rw [hg q] at hq
      cases hq
    · exact h.set_idle pid rfl rfl
  | binding =>
    simp only [stepServe]
    split
    · exact h.set_idle pid rfl rfl
    · rename_i hfree
      refine .of_set (s := s) rfl (fun q _ hq => ?_) (fun q _ => h.pidFile q)
        (fun _ => rfl) (fun ht => by cases ht)
      rw [h.socket q hq] at hfree
      exact absurd rfl hfree
  | bound =>
    have hown := hsocket rfl
    refine .of_set (s := s) rfl (fun q _ => h.socket q) (fun q hne hq => ?_) (fun _ => hown)
      (fun _ => rfl)
    -- a daemon that still has its PID file has its socket path too, or is removing both
    unfold State.has at hq
    obtain ⟨proc, hproc, ht⟩ := (Option.any_eq_true _ _).mp hq
    have hboth : holdsSocket proc = true := by
      cases proc with
      | serve phase =>
        cases phase with
        | removedSocket => exact absurd hproc (hg q)
        | serving | draining => rfl
        | checking | removing | binding | bound => cases ht
      | start | stop | ended => cases ht
    have hother := h.socket q ((has_of_get hproc).trans hboth)
    rw [hown] at hother
    exact absurd (Option.some.inj hother).symm hne
  | serving =>
    have hown := hsocket rfl
    have hfile := hpidFile rfl
    exact .of_set (s := s) rfl (fun q _ => h.socket q) (fun q _ => h.pidFile q) (fun _ => hown)
      (fun _ => hfile)
  | draining =>
    have hown := hsocket rfl
    have hfile := hpidFile rfl
    refine .of_set (s := s) rfl (fun q hne hq => ?_) (fun q _ => h.pidFile q)
      (fun ht => by cases ht) (fun _ => hfile)
    have hother := h.socket q hq
    rw [hown] at hother
    exact absurd (Option.some.inj hother).symm hne
  | removedSocket =>
    have hfile := hpidFile rfl
    refine .of_set (s := s) rfl (fun q _ => h.socket q) (fun q hne hq => ?_)
      (fun ht => by cases ht) (fun ht => by cases ht)
    have hother := h.pidFile q hq
    rw [hfile] at hother
    exact absurd (Option.some.inj hother).symm hne

theorem stepStart_owned {s t : State} {pid : Nat} {run : StartRun} (h : Owned s)
    (hs : stepStart s pid run = some t) : Owned t := by
  cases run with
  | checking =>
    simp only [stepStart] at hs
    split at hs <;> (cases hs; exact h.set_idle pid rfl rfl)
  | spawning =>
    cases hs
    exact (h.set_idle pid rfl rfl).append rfl rfl
  | polling polls =>
    simp only [stepStart] at hs
    split at hs
    · cases hs
      exact h.set_idle pid rfl rfl
    · split at hs <;> (cases hs; exact h.set_idle pid rfl rfl)
  | returned result => cases hs

theorem stepStop_owned {s t : State} {pid : Nat} {run : StopRun} (h : Owned s)
    (hp : s.procs[pid]? = some (.stop run)) (hg : Respects s (.next pid))
    (hs : stepStop s pid run = some t) : Owned t := by
  simp only [Respects, hp] at hg
  cases run with
  | readingPid =>
    simp only [stepStop] at hs
    split at hs <;> (cases hs; exact h.set_idle pid rfl rfl)
  | killing daemon =>
    simp only [stepStop] at hs
    split at hs <;> (cases hs; exact h.set_idle pid rfl rfl)
  | polling daemon polls =>
    simp only [stepStop] at hs
    split at hs
    · cases hs
      exact h.set_idle pid rfl rfl
    · split at hs <;> (cases hs; exact h.set_idle pid rfl rfl)
  | removingPidFile result =>
    cases hs
    refine .of_set (s := s) rfl (fun q _ => h.socket q) (fun q _ hq => ?_) (fun ht => by cases ht)
      (fun ht => by cases ht)
    rw [hg q] at hq
    cases hq
  | removingSocket result =>
    cases hs
    refine .of_set (s := s) rfl (fun q _ hq => ?_) (fun q _ => h.pidFile q) (fun ht => by cases ht)
      (fun ht => by cases ht)
    rw [hg q] at hq
    cases hq
  | returned result => cases hs

theorem step_owned {s t : State} {l : Label} (h : Owned s) (hg : Respects s l)
    (hs : step s l = some t) : Owned t := by
  cases l with
  | launchServe | launchStart | launchStop =>
    cases hs
    exact h.append rfl rfl
  | next pid =>
    simp only [step] at hs
    split at hs
    · rename_i phase hp
      cases hs
      exact stepServe_owned h hp hg
    · exact stepStart_owned h hs
    · rename_i run hp
      exact stepStop_owned h hp hg hs
    · cases hs
    · cases hs
  | die pid =>
    cases hs
    exact h.set_idle pid rfl rfl

/-! ## Every run -/

/-- Another process than the one that moves keeps what it has. -/
theorem has_set_of_has {s : State} {test : Proc → Bool} {pid q : Nat} {old : Proc}
    (hp : s.procs[pid]? = some old) (hold : test old = false) (hq : s.has test q = true)
    (proc : Proc) : q ≠ pid ∧ (s.set pid proc).has test q = true := by
  have hne : q ≠ pid := by
    rintro rfl
    rw [has_of_get hp, hold] at hq
    cases hq
  exact ⟨hne, (has_set_ne s test hne proc).trans hq⟩

/-- A step that violates the guard takes a path from a running daemon. -/
theorem lost_of_disrespect {s t : State} {l : Label} (h : Owned s) (hs : step s l = some t)
    (hno : ¬ Respects s l) : ¬ Owned t := by
  cases l with
  | launchServe | launchStart | launchStop | die => exact absurd trivial hno
  | next pid =>
    intro ht
    simp only [Respects] at hno
    split at hno
    · rename_i hp
      simp only [not_forall, Bool.not_eq_false] at hno
      obtain ⟨q, hq⟩ := hno
      simp only [step, hp, stepServe, h.socket q hq, Option.isSome_some, if_true,
        Option.some.injEq] at hs
      subst hs
      cases ht.socket q (has_set_of_has hp rfl hq _).2
    · rename_i hp
      simp only [not_forall, not_not] at hno
      obtain ⟨q, hq⟩ := hno
      have hholds : s.has holdsPidFile q = true := has_of_get hq
      obtain ⟨hne, hkept⟩ := has_set_of_has hp rfl hholds (.serve .serving)
      simp only [step, hp, stepServe, Option.some.injEq] at hs
      subst hs
      exact hne (Option.some.inj (ht.pidFile q hkept)).symm
    · rename_i hp
      simp only [not_forall, Bool.not_eq_false] at hno
      obtain ⟨q, hq⟩ := hno
      simp only [step, hp, stepStop, Option.some.injEq] at hs
      subst hs
      cases ht.pidFile q (has_set_of_has hp rfl hq _).2
    · rename_i hp
      simp only [not_forall, Bool.not_eq_false] at hno
      obtain ⟨q, hq⟩ := hno
      simp only [step, hp, stepStop, Option.some.injEq] at hs
      subst hs
      cases ht.socket q (has_set_of_has hp rfl hq _).2
    · exact hno trivial

/-- A connect reaches a daemon that listens and owns its socket path. -/
theorem isDaemonRunning_of_owned {s : State} (h : Owned s) {pid : Nat}
    (hl : s.has listening pid = true) : s.socket = some pid ∧ s.isDaemonRunning = true := by
  have hholds : s.has holdsSocket pid = true := by
    obtain ⟨proc, hp, ht⟩ := (Option.any_eq_true _ _).mp hl
    rw [has_of_get hp]
    cases proc with
    | serve phase =>
      cases phase with
      | bound | serving => rfl
      | checking | removing | binding | draining | removedSocket => cases ht
    | start | stop | ended => cases ht
  have hsocket := h.socket pid hholds
  refine ⟨hsocket, ?_⟩
  rw [State.isDaemonRunning, hsocket]
  exact hl

/-- In every run that meets the guard, each running daemon keeps its socket path
and its PID file, so that it can be reached. No step may be exempted. -/
theorem paths_kept_when_respected (ls : List Label) :
    (∀ s, Transition.exec step init ls = some s →
      Transition.EachStep step (fun _ => Respects) init ls →
      Owned s ∧ ∀ pid, s.has listening pid = true →
        s.socket = some pid ∧ s.isDaemonRunning = true) ∧
    ∀ s l t, Transition.exec step init ls = some s →
      Transition.EachStep step (fun _ => Respects) init ls → step s l = some t →
      ¬ Respects s l → ¬ Owned t := by
  have owned : ∀ s, Transition.exec step init ls = some s →
      Transition.EachStep step (fun _ => Respects) init ls → Owned s := fun _ hrun hg =>
    Transition.guarded_invariant (P := Owned) (fun _ _ _ => step_owned) init_owned hg hrun
  constructor
  · intro s hrun hg
    exact ⟨owned s hrun hg, fun _ => isDaemonRunning_of_owned (owned s hrun hg)⟩
  · intro s l t hrun hg hs hno
    exact lost_of_disrespect (owned s hrun hg) hs hno

/-- A daemon is killed; the next one finds its socket and its PID file. -/
def staleSocket : List Label :=
  [.launchServe, .next 0, .next 0, .next 0, .die 0, .launchServe, .next 1, .next 1, .next 1,
    .next 1]

theorem stale_socket_replaced :
    ∃ s, Transition.exec step init staleSocket = some s ∧
      Transition.EachStep step (fun _ => Respects) init staleSocket ∧
      s.socket = some 1 ∧ s.pidFile = some 1 ∧ s.isDaemonRunning = true := by
  have hrun : Transition.exec step init staleSocket = some _ := rfl
  have hguard : Transition.EachStep step (fun _ => Respects) init staleSocket := by
    refine .next trivial rfl (.next trivial rfl (.next trivial rfl (.next ?_ rfl
      (.next trivial rfl (.next trivial rfl (.next trivial rfl (.next ?_ rfl (.next trivial rfl
        (.next ?_ rfl .nil)))))))))
    · rintro (_ | q) h <;> cases h
    · rintro (_ | _ | q) <;> rfl
    · rintro (_ | _ | q) h <;> cases h
  obtain ⟨howned, hkept⟩ := (paths_kept_when_respected staleSocket).1 _ hrun hguard
  exact ⟨_, hrun, hguard, (hkept 1 rfl).1, howned.pidFile 1 rfl, (hkept 1 rfl).2⟩

/-- A second daemon is started while the first one serves. -/
def secondServe : List Label :=
  [.launchServe, .next 0, .next 0, .next 0, .launchServe, .next 1, .next 1]

theorem second_serve_removes_socket :
    ¬ ∀ ls s, Transition.exec step init ls = some s → Owned s := by
  intro h
  have hlost := (h secondServe _ rfl).socket 0 rfl
  cases hlost

end Ownership

end Trumpet
