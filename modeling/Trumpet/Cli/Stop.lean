import Trumpet.Server.Restart

/-! Stopping the daemon: `trumpet stop` polls the socket while the daemon shuts
down, drains and saves its state. -/

namespace Trumpet

/-- The daemon from its serving state to its exit. Once the listener is closed a
connect is refused. -/
inductive DaemonPhase where
  | serving
  | draining
  | grpcDraining
  | saving (snapshot : StateSnapshot)
  /-- `save_snapshot` has returned; a failure is only logged. -/
  | finishing (saved : Bool)
  | exited (saved : Bool)

/-- The final snapshot has been saved. -/
def DaemonPhase.completed : DaemonPhase → Bool
  | finishing saved | exited saved => saved
  | _ => false

/-- Between the closing of the listener and the end of the final save. -/
def DaemonPhase.unsaved : DaemonPhase → Bool
  | draining | grpcDraining | saving _ => true
  | _ => false

/-- `run_stop`: `polling n` has polled `n` times. -/
inductive StopPhase where
  | idle
  | polling (polls : Nat)
  | removingPidFile
  | removingSocket
  | returned (result : Except Error Unit)

/-- `run_stop` has seen the daemon go down. -/
def StopPhase.down : StopPhase → Bool
  | removingPidFile | removingSocket | returned (.ok ()) => true
  | _ => false

def StopPhase.waiting : StopPhase → Bool
  | polling _ => true
  | _ => false

/-- `acked` lists the updates the daemon has acknowledged since it started in
`base`, and `before` those acknowledged when `SIGTERM` was sent. -/
structure StopSystem where
  base : AppState
  app : AppState
  acked : List AppState.Op
  before : List AppState.Op
  file : Option StateSnapshot
  daemon : DaemonPhase
  socketFile : Bool
  pidFile : Bool
  sigterm : Bool
  stop : StopPhase

namespace StopSystem

def maxPolls : Nat := 25

inductive Label where
  | acknowledge (op : AppState.Op)
  /-- The periodic snapshot. -/
  | autosave
  | closeListener
  | httpDrained
  | grpcDrained
  | saved
  | saveFails
  | exit
  | signal
  | poll
  | removePidFile
  | removeSocket

def init (base : AppState) (file : Option StateSnapshot) : StopSystem :=
  { base := base
    app := base
    acked := []
    before := []
    file := file
    daemon := .serving
    socketFile := true
    pidFile := true
    sigterm := false
    stop := .idle }

def listening : DaemonPhase → Bool
  | .serving => true
  | _ => false

/-- The socket file exists and a connect is accepted. -/
def isDaemonRunning (s : StopSystem) : Bool := s.socketFile && listening s.daemon

def isExited : DaemonPhase → Bool
  | .exited _ => true
  | _ => false

/-- The workers, the periodic snapshot among them, run until the final snapshot. -/
def workersRun : DaemonPhase → Bool
  | .serving | .draining | .grpcDraining => true
  | _ => false

def isRestart : AppState.Op → Bool
  | .restart _ => true
  | _ => false

/-- One turn of the polling loop. -/
def afterPoll (running : Bool) (pid polls : Nat) : StopPhase :=
  if !running then .removingPidFile
  else if polls + 1 < maxPolls then .polling (polls + 1)
  else .returned (.error (.daemonShutdownFailed
    ("daemon (pid " ++ toString pid ++ ") did not exit within 5 seconds")))

/-- `pid` is the process id in the PID file. A draining gRPC server that is not
done in time is left running, so updates may be acknowledged until the exit. -/
def step (pid : Nat) (s : StopSystem) : Label → Option StopSystem
  | .acknowledge op =>
    if isRestart op || isExited s.daemon then none
    else (s.app.apply op).map fun app => { s with app := app, acked := s.acked ++ [op] }
  | .autosave =>
    if workersRun s.daemon then some { s with file := some s.app.toSnapshot } else none
  | .closeListener =>
    match s.daemon with
    | .serving => if s.sigterm then some { s with daemon := .draining } else none
    | _ => none
  | .httpDrained =>
    match s.daemon with
    | .draining => some { s with daemon := .grpcDraining }
    | _ => none
  | .grpcDrained =>
    match s.daemon with
    | .grpcDraining => some { s with daemon := .saving s.app.toSnapshot }
    | _ => none
  | .saved =>
    match s.daemon with
    | .saving snapshot => some { s with file := some snapshot, daemon := .finishing true }
    | _ => none
  | .saveFails =>
    match s.daemon with
    | .saving _ => some { s with daemon := .finishing false }
    | _ => none
  | .exit =>
    match s.daemon with
    | .finishing saved =>
      some { s with daemon := .exited saved, socketFile := false, pidFile := false }
    | _ => none
  | .signal =>
    match s.stop with
    | .idle =>
      if !s.pidFile then some { s with stop := .returned (.error .daemonNotRunning) }
      else if pid ≥ 2 ^ 31 then
        some { s with stop := .returned (.error (.internalUnexpected
          ("PID " ++ toString pid ++ " exceeds i32::MAX"))) }
      else if isExited s.daemon then
        some { s with
          pidFile := false
          socketFile := false
          stop := .returned (.error .daemonNotRunning) }
      else some { s with sigterm := true, before := s.acked, stop := .polling 0 }
    | _ => none
  | .poll =>
    match s.stop with
    | .polling polls => some { s with stop := afterPoll s.isDaemonRunning pid polls }
    | _ => none
  | .removePidFile =>
    match s.stop with
    | .removingPidFile => some { s with pidFile := false, stop := .removingSocket }
    | _ => none
  | .removeSocket =>
    match s.stop with
    | .removingSocket => some { s with socketFile := false, stop := .returned (.ok ()) }
    | _ => none

/-- A daemon started from `file` has every update acknowledged before the stop:
it answers as the state after some of the acknowledged updates, those before the
stop among them. -/
def Restorable (s : StopSystem) : Prop :=
  ∃ durable app, s.before <+: durable ∧ Transition.exec AppState.apply s.base durable = some app ∧
    ∀ ids, AppState.SameAnswers (.start s.file ids) app

/-- What must not happen while `run_stop` waits: a poll between the closing of
the listener and the end of the final save, and a failing save. -/
def Respects (s : StopSystem) : Label → Prop
  | .poll => s.daemon.unsaved = false
  | .saveFails => s.stop.waiting = false
  | _ => True

/-- The snapshot of the state after some acknowledged updates, those before the
stop among them. -/
def Covers (s : StopSystem) (snapshot : StateSnapshot) : Prop :=
  ∃ durable app, s.before <+: durable ∧
    Transition.exec AppState.apply s.base durable = some app ∧ snapshot = app.toSnapshot

/-- What holds in each phase of the daemon. -/
def PhaseValid (s : StopSystem) : Prop :=
  match s.daemon with
  | .serving => s.socketFile = true ∧ s.stop.down = false
  | .draining | .grpcDraining => s.sigterm = true ∧ s.stop.down = false
  | .saving snapshot => s.sigterm = true ∧ s.stop.down = false ∧ s.Covers snapshot
  | .finishing true | .exited true =>
    s.sigterm = true ∧ ∃ snapshot, s.file = some snapshot ∧ s.Covers snapshot
  | .finishing false | .exited false =>
    s.sigterm = true ∧ s.stop.down = false ∧ s.stop.waiting = false

structure Valid (s : StopSystem) : Prop where
  base : s.base.Running
  app : Transition.exec AppState.apply s.base s.acked = some s.app
  before : s.before <+: s.acked
  idle : s.stop = .idle → s.sigterm = false
  phase : PhaseValid s

theorem init_valid {base : AppState} (h : base.Running) (file : Option StateSnapshot) :
    Valid (init base file) :=
  ⟨h, rfl, List.prefix_rfl, fun _ => rfl, rfl, rfl⟩

/-- The final snapshot is saved and covers the stop. -/
def Saved (s : StopSystem) : Prop :=
  s.sigterm = true ∧ ∃ snapshot, s.file = some snapshot ∧ s.Covers snapshot

theorem phaseValid_of_saved {s : StopSystem} (hd : s.daemon.completed = true) (h : Saved s) :
    PhaseValid s := by
  unfold PhaseValid
  split <;> rename_i e <;> rw [e] at hd <;> first | exact h | cases hd

/-- Once `run_stop` has seen the daemon go down, the final snapshot is saved. -/
theorem Valid.saved_of_down {s : StopSystem} (h : Valid s) (hd : s.stop.down = true) :
    s.daemon.completed = true ∧ Saved s := by
  have hp := h.phase
  unfold PhaseValid at hp
  split at hp <;> rename_i e
  · rw [hd] at hp; cases hp.2
  · rw [hd] at hp; cases hp.2
  · rw [hd] at hp; cases hp.2
  · rw [hd] at hp; cases hp.2.1
  · rw [e]; exact ⟨rfl, hp⟩
  · rw [e]; exact ⟨rfl, hp⟩
  · rw [hd] at hp; cases hp.2.1
  · rw [hd] at hp; cases hp.2.1

/-- Before the stop the daemon serves. -/
theorem Valid.serving_of_idle {s : StopSystem} (h : Valid s) (hi : s.stop = .idle) :
    s.daemon = .serving ∧ s.socketFile = true := by
  have hs := h.idle hi
  have hp := h.phase
  unfold PhaseValid at hp
  split at hp <;> rename_i e
  · exact ⟨e, hp.1⟩
  all_goals rw [hs] at hp; cases hp.1

/-- A start from a snapshot that covers the stop restores what was acknowledged
before it. -/
theorem restorable_of_covers {s : StopSystem} (h : s.base.Running) {snapshot : StateSnapshot}
    (hf : s.file = some snapshot) (hc : s.Covers snapshot) : s.Restorable := by
  obtain ⟨durable, app, hp, hrun, rfl⟩ := hc
  have happ : app.Running :=
    Transition.invariant (P := AppState.Running) (fun _ _ _ => AppState.apply_running) h hrun
  refine ⟨durable, app, hp, hrun, fun ids => ?_⟩
  obtain ⟨hr, hl⟩ := AppState.restart_running happ ids
  rw [hf]
  exact hl.answers hr.valid happ.valid

theorem afterPoll_running (pid polls : Nat) : (afterPoll true pid polls).down = false := by
  unfold afterPoll
  simp only [Bool.not_true, Bool.false_eq_true, if_false]
  split <;> rfl

theorem afterPoll_ne_idle (running : Bool) (pid polls : Nat) :
    afterPoll running pid polls ≠ .idle := by
  unfold afterPoll
  split
  · exact fun h => by cases h
  · split <;> exact fun h => by cases h

/-- Every step that respects the guard keeps the state valid. -/
theorem step_valid {pid : Nat} {s t : StopSystem} {l : Label} (h : Valid s) (hg : Respects s l)
    (hs : step pid s l = some t) : Valid t := by
  have hp := h.phase
  cases l with
  | acknowledge op =>
    simp only [step, Option.ite_none_left_eq_some, Option.map_eq_some_iff] at hs
    obtain ⟨_, app, happ, rfl⟩ := hs
    exact { h with
      app := Transition.exec_concat.mpr ⟨s.app, h.app, happ⟩
      before := h.before.trans (List.prefix_append _ _)
      phase := hp }
  | autosave =>
    simp only [step, Option.ite_none_right_eq_some, Option.some.injEq] at hs
    obtain ⟨hw, rfl⟩ := hs
    refine { h with phase := ?_ }
    cases hd : s.daemon <;> simp only [hd, workersRun, Bool.false_eq_true] at hw <;>
      simpa only [PhaseValid, hd] using hp
  | closeListener =>
    simp only [step] at hs
    split at hs
    · rename_i hd
      simp only [Option.ite_none_right_eq_some, Option.some.injEq] at hs
      obtain ⟨hsig, rfl⟩ := hs
      simp only [PhaseValid, hd] at hp
      exact { h with phase := ⟨hsig, hp.2⟩ }
    · cases hs
  | httpDrained =>
    simp only [step] at hs
    split at hs
    · rename_i hd
      cases hs
      simp only [PhaseValid, hd] at hp
      exact { h with phase := hp }
    · cases hs
  | grpcDrained =>
    simp only [step] at hs
    split at hs
    · rename_i hd
      cases hs
      simp only [PhaseValid, hd] at hp
      exact { h with phase := ⟨hp.1, hp.2, s.acked, s.app, h.before, h.app, rfl⟩ }
    · cases hs
  | saved =>
    simp only [step] at hs
    split at hs
    · rename_i snapshot hd
      cases hs
      simp only [PhaseValid, hd] at hp
      exact { h with phase := ⟨hp.1, snapshot, rfl, hp.2.2⟩ }
    · cases hs
  | saveFails =>
    simp only [step] at hs
    split at hs
    · rename_i snapshot hd
      cases hs
      simp only [PhaseValid, hd] at hp
      exact { h with phase := ⟨hp.1, hp.2.1, hg⟩ }
    · cases hs
  | exit =>
    simp only [step] at hs
    split at hs
    · rename_i saved hd
      cases hs
      cases saved <;> simp only [PhaseValid, hd] at hp <;> exact { h with phase := hp }
    · cases hs
  | signal =>
    simp only [step] at hs
    split at hs
    · rename_i hidle
      obtain ⟨hd, hsock⟩ := h.serving_of_idle hidle
      have phase : ∀ stop : StopPhase, stop.down = false → PhaseValid { s with stop := stop } :=
        fun stop hstop => by simpa only [PhaseValid, hd] using ⟨hsock, hstop⟩
      split at hs
      · cases hs
        exact { h with idle := fun e => by (cases e), phase := phase _ rfl }
      · split at hs
        · cases hs
          exact { h with idle := fun e => by (cases e), phase := phase _ rfl }
        · split at hs
          · rename_i hex
            rw [hd] at hex
            cases hex
          · cases hs
            refine { h with
              before := List.prefix_rfl
              idle := fun e => by (cases e)
              phase := ?_ }
            simpa only [PhaseValid, hd] using ⟨hsock, rfl⟩
    · cases hs
  | poll =>
    simp only [step] at hs
    split at hs
    · rename_i polls hpoll
      cases hs
      refine { h with idle := fun e => absurd e (afterPoll_ne_idle _ _ _), phase := ?_ }
      simp only [Respects] at hg
      cases hd : s.daemon with
      | serving =>
        simp only [PhaseValid, hd] at hp ⊢
        have hrun : s.isDaemonRunning = true := by
          rw [isDaemonRunning, hp.1, hd]; rfl
        exact ⟨hp.1, by rw [hrun]; exact afterPoll_running _ _⟩
      | draining => rw [hd] at hg; cases hg
      | grpcDraining => rw [hd] at hg; cases hg
      | saving snapshot => rw [hd] at hg; cases hg
      | finishing saved =>
        simp only [PhaseValid, hd] at hp ⊢
        cases saved with
        | true => exact hp
        | false => simp [hpoll, StopPhase.waiting] at hp
      | exited saved =>
        simp only [PhaseValid, hd] at hp ⊢
        cases saved with
        | true => exact hp
        | false => simp [hpoll, StopPhase.waiting] at hp
    · cases hs
  | removePidFile =>
    simp only [step] at hs
    split at hs
    · rename_i hstop
      cases hs
      obtain ⟨hd, hsaved⟩ := h.saved_of_down (by rw [hstop]; rfl)
      exact { h with idle := fun e => by (cases e), phase := phaseValid_of_saved hd hsaved }
    · cases hs
  | removeSocket =>
    simp only [step] at hs
    split at hs
    · rename_i hstop
      cases hs
      obtain ⟨hd, hsaved⟩ := h.saved_of_down (by rw [hstop]; rfl)
      exact { h with idle := fun e => by (cases e), phase := phaseValid_of_saved hd hsaved }
    · cases hs

theorem closed_of_unsaved {d : DaemonPhase} (h : d.unsaved = true) :
    listening d = false ∧ d.completed = false := by
  cases d with
  | draining => exact ⟨rfl, rfl⟩
  | grpcDraining => exact ⟨rfl, rfl⟩
  | saving => exact ⟨rfl, rfl⟩
  | serving => cases h
  | finishing => cases h
  | exited => cases h

/-- From a poll that finds the socket closed, `run_stop` goes on to return `Ok`,
whatever the daemon does. -/
theorem ok_of_removing {pid : Nat} {s : StopSystem} (h : s.stop = .removingPidFile) :
    ∃ ms u, Transition.exec (step pid) s ms = some u ∧ u.stop = .returned (.ok ()) ∧
      u.daemon = s.daemon :=
  ⟨[.removePidFile, .removeSocket], { s with
    pidFile := false
    socketFile := false
    stop := .returned (.ok ()) }, by simp [Transition.exec, step, h], rfl, rfl⟩

/-- A step that does not respect the guard can be followed by steps that end with
`run_stop` returning `Ok` while the final snapshot is not saved. -/
theorem ok_unsaved_of_disrespect {pid : Nat} {s t : StopSystem} {l : Label}
    (hg : ¬ Respects s l) (hs : step pid s l = some t) :
    ∃ ms u, Transition.exec (step pid) t ms = some u ∧ u.stop = .returned (.ok ()) ∧
      u.daemon.completed = false := by
  cases l with
  | poll =>
    simp only [step] at hs
    split at hs
    · rename_i polls hpoll
      cases hs
      have hun : s.daemon.unsaved = true := by simpa [Respects] using hg
      obtain ⟨hclosed, hnot⟩ := closed_of_unsaved hun
      have hrun : s.isDaemonRunning = false := by rw [isDaemonRunning, hclosed, Bool.and_false]
      obtain ⟨ms, u, hms, hok, hu⟩ := @ok_of_removing pid
        { s with stop := afterPoll s.isDaemonRunning pid polls } (by rw [hrun]; rfl)
      exact ⟨ms, u, hms, hok, by rw [hu]; exact hnot⟩
    · cases hs
  | saveFails =>
    simp only [step] at hs
    split at hs
    · rename_i snapshot hd
      cases hs
      obtain ⟨polls, hpoll⟩ : ∃ polls, s.stop = .polling polls := by
        simp only [Respects, StopPhase.waiting] at hg
        split at hg
        · rename_i polls e; exact ⟨polls, e⟩
        · exact absurd rfl hg
      obtain ⟨ms, u, hrun, hok, hu⟩ := @ok_of_removing pid
        { s with daemon := .finishing false, stop := .removingPidFile } rfl
      refine ⟨.poll :: ms, u, ?_, hok, by rw [hu]; rfl⟩
      simpa [Transition.exec, step, hpoll, isDaemonRunning, listening, afterPoll] using hrun
    · cases hs
  | _ => exact absurd trivial hg

/-- In every run whose steps respect the guard, when `run_stop` has returned `Ok`
the final snapshot is saved, and a daemon started from it has every update
acknowledged before the stop. No step may be exempted from the guard. -/
theorem stop_saves_when_respected (pid : Nat) {base : AppState} (h : base.Reachable)
    (file : Option StateSnapshot) :
    (∀ ls s, Transition.exec (step pid) (init base file) ls = some s →
      Transition.EachStep (step pid) (fun _ => Respects) (init base file) ls →
      s.stop = .returned (.ok ()) → s.daemon.completed = true ∧ s.Restorable) ∧
    ∀ ls s l t, Transition.exec (step pid) (init base file) ls = some s →
      Transition.EachStep (step pid) (fun _ => Respects) (init base file) ls →
      step pid s l = some t → ¬ Respects s l →
      ∃ ms u, Transition.exec (step pid) t ms = some u ∧ u.stop = .returned (.ok ()) ∧
        u.daemon.completed = false := by
  constructor
  · intro ls s hrun hg hok
    have hv : Valid s := Transition.guarded_invariant (P := Valid) (fun _ _ _ => step_valid)
      (init_valid h.running file) hg hrun
    obtain ⟨hd, _, snapshot, hf, hc⟩ := hv.saved_of_down (by rw [hok]; rfl)
    exact ⟨hd, restorable_of_covers hv.base hf hc⟩
  · intro ls s l t _ _ hs hno
    exact ok_unsaved_of_disrespect hno hs

/-- A daemon just started for the first time. -/
theorem stop_saves_when_respected_first_start :
    (∀ ls s, Transition.exec (step 7) (init (.start none AppState.sampleIds) none) ls = some s →
      Transition.EachStep (step 7) (fun _ => Respects) (init (.start none AppState.sampleIds) none)
        ls →
      s.stop = .returned (.ok ()) → s.daemon.completed = true ∧ s.Restorable) ∧
    ∀ ls s l t, Transition.exec (step 7) (init (.start none AppState.sampleIds) none) ls = some s →
      Transition.EachStep (step 7) (fun _ => Respects) (init (.start none AppState.sampleIds) none)
        ls →
      step 7 s l = some t → ¬ Respects s l →
      ∃ ms u, Transition.exec (step 7) t ms = some u ∧ u.stop = .returned (.ok ()) ∧
        u.daemon.completed = false :=
  stop_saves_when_respected 7 ⟨AppState.sampleIds, [], AppState.sampleIds_fresh, rfl⟩ none

/-- The listener closes, and the next poll finds it closed while a connection is
still open. -/
def earlyPoll : List Label := [.signal, .closeListener, .poll, .removePidFile, .removeSocket]

theorem early_poll_unsaved :
    ¬ ∀ ls s, Transition.exec (step 7) (init (.start none AppState.sampleIds) none) ls = some s →
      s.stop = .returned (.ok ()) → s.daemon.completed = true ∧ s.Restorable := by
  intro h
  exact absurd (h earlyPoll _ rfl rfl).1 (by decide)

end StopSystem

end Trumpet
