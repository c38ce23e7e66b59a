import Trumpet.Lib.Transition
import Trumpet.Server.Auth

/-! Rotating the token of a daemon: its start-up, its SIGHUP handler, and any number
of `auth rotate` processes. A request reads the slot and changes nothing. -/

namespace Trumpet

namespace Rotation

open Auth

inductive Daemon where
  | loading
  | writingPid
  | running
  | failed
  | killed

def Daemon.isAlive : Daemon → Bool
  | .loading | .writingPid | .running => true
  | .failed | .killed => false

/-- The spawned task. It is `disabled` when the handler could not be installed. -/
inductive Handler where
  | absent
  | spawned
  | waiting
  | reading
  | swapping (token : String)
  | disabled

/-- The daemon's handler receives the signal, in place of the default action. -/
def Handler.isInstalled : Handler → Bool
  | .waiting | .reading | .swapping _ => true
  | .absent | .spawned | .disabled => false

inductive RotateRun where
  | writing (pid : Nat)
  | written (pid : Nat) (token : Uuid)
  | renamed (pid : Nat) (token : Uuid)
  | returned (result : Except Error Uuid)

namespace RotateRun

def inProgress : RotateRun → Bool
  | .returned _ => false
  | _ => true

def isRenamed : RotateRun → Bool
  | .renamed _ _ => true
  | _ => false

end RotateRun

/-- `slot` is what the interceptor reads, and `pending` a signal that the handler
has not taken yet; signals that find one pending are coalesced with it. -/
structure State where
  file : Option (List UInt8)
  pidFile : Option Nat
  daemon : Daemon
  slot : Option String
  handler : Handler
  pending : Bool
  rotates : List RotateRun

inductive Label where
  | load (minted : Uuid)
  | writePid (pid : Nat)
  | spawn
  | install
  | installFails
  /-- Start-up fails, and the process exits. -/
  | fail
  | recv
  | read (minted : Uuid)
  | swap
  | readPid
  | writeTemp (i : Nat) (token : Uuid)
  | rename (i : Nat)
  | hangup (i : Nat)
  | giveUp (i : Nat) (reason : String)

/-- There is no PID file, and the token file is whatever a previous run left. -/
def init (file : Option (List UInt8)) : State :=
  ⟨file, none, .loading, none, .absent, false, []⟩

namespace State

/-- The process is gone, with its slot. -/
def exit (s : State) (daemon : Daemon) : State :=
  { s with daemon := daemon, slot := none, handler := .absent, pending := false }

def setRotate (s : State) (i : Nat) (run : RotateRun) : State :=
  { s with rotates := s.rotates.set i run }

end State

/-- SIGHUP is sent to the daemon: a process that has not installed its handler is
killed. -/
def hangup (s : State) (pid : Nat) (token : Uuid) : State × Except Error Uuid :=
  if !s.daemon.isAlive then
    (s, .error (.internalUnexpected
      ("failed to send SIGHUP to pid " ++ toString pid ++ ": ESRCH: No such process")))
  else if s.handler.isInstalled then ({ s with pending := true }, .ok token)
  else (s.exit .killed, .ok token)

/-- `path` is that of the token file. -/
def step (path : String) (s : State) : Label → Option State
  | .load minted =>
    match s.daemon, loadOrCreateToken path s.file minted with
    | .loading, .ok (token, file) =>
      some { s with daemon := .writingPid, slot := some token, file := file }
    | .loading, .error _ => some (s.exit .failed)
    | _, _ => none
  | .writePid pid =>
    match s.daemon with
    | .writingPid => some { s with daemon := .running, pidFile := some pid }
    | _ => none
  | .spawn =>
    match s.daemon, s.handler with
    | .running, .absent => some { s with handler := .spawned }
    | _, _ => none
  | .install =>
    match s.handler with
    | .spawned => some { s with handler := .waiting }
    | _ => none
  | .installFails =>
    match s.handler with
    | .spawned => some { s with handler := .disabled }
    | _ => none
  | .fail => if s.daemon.isAlive then some (s.exit .failed) else none
  | .recv =>
    match s.handler, s.pending with
    | .waiting, true => some { s with handler := .reading, pending := false }
    | _, _ => none
  | .read minted =>
    match s.handler, loadOrCreateToken path s.file minted with
    | .reading, .ok (token, file) => some { s with handler := .swapping token, file := file }
    | .reading, .error _ => some { s with handler := .waiting }
    | _, _ => none
  | .swap =>
    match s.handler with
    | .swapping token => some { s with handler := .waiting, slot := some token }
    | _ => none
  | .readPid =>
    match s.pidFile with
    | some pid => some { s with rotates := s.rotates ++ [.writing pid] }
    | none => some { s with rotates := s.rotates ++ [.returned (.error .daemonNotRunning)] }
  | .writeTemp i token =>
    match s.rotates[i]? with
    | some (.writing pid) => some (s.setRotate i (.written pid token))
    | _ => none
  | .rename i =>
    match s.rotates[i]? with
    | some (.written pid token) =>
      some ({ s with file := some (tokenFile token) }.setRotate i (.renamed pid token))
    | _ => none
  | .hangup i =>
    match s.rotates[i]? with
    | some (.renamed pid token) =>
      let (t, result) := hangup s pid token
      some (t.setRotate i (.returned result))
    | _ => none
  | .giveUp i reason =>
    match s.rotates[i]? with
    | some (.writing _) | some (.written _ _) =>
      some (s.setRotate i (.returned (.error (.internalUnexpected reason))))
    | _ => none

/-- No rotation is in progress, no signal pending and no reload running. -/
structure Settled (s : State) : Prop where
  rotates : ∀ run ∈ s.rotates, run.inProgress = false
  pending : s.pending = false
  handler : s.handler ≠ .reading ∧ ∀ token, s.handler ≠ .swapping token

/-- The daemon has not been killed, and once all is settled it accepts the token
of the file. -/
structure Correct (s : State) : Prop where
  alive : s.daemon ≠ .killed
  accepts : Settled s → ∀ slot, s.slot = some slot →
    ∃ token, tokenIn s.file = some token ∧ AcceptsExactly slot token

/-- SIGHUP is sent to a running daemon when its handler is installed, and the
token loaded at start-up can be read from a header that carries it. -/
def Respects (s : State) : Label → Prop
  | .load _ => ∀ token, tokenIn s.file = some token → Presentable token
  | .hangup _ => s.daemon.isAlive = true → s.handler.isInstalled = true
  | _ => True

/-- The token that the slot holds, or is about to. -/
def shown (s : State) : Option String :=
  match s.handler with
  | .swapping token => some token
  | _ => s.slot

/-- The file has a token that the daemon can accept. -/
def HasToken (file : Option (List UInt8)) : Prop :=
  ∃ token, tokenIn file = some token ∧ token ≠ "" ∧ Presentable token

/-- The invariant of the runs that meet the guard. The slot follows the file,
unless a reload of the file is still to come. -/
structure Valid (s : State) : Prop where
  alive : s.daemon ≠ .killed
  pidFile : s.daemon = .loading ∨ s.daemon = .writingPid → s.pidFile = none
  handler : s.handler ≠ .absent → s.daemon = .running
  pending : s.pending = true → s.handler ≠ .absent
  slot : s.slot.isSome = true ↔ s.daemon = .writingPid ∨ s.daemon = .running
  rotates : ∀ run ∈ s.rotates, run.inProgress = true → s.pidFile.isSome = true
  token : s.slot.isSome = true → HasToken s.file
  synced : s.slot.isSome = true → s.pending = true ∨ s.handler = .reading ∨
    s.rotates.any RotateRun.isRenamed = true ∨ shown s = tokenIn s.file

theorem init_valid (file : Option (List UInt8)) : Valid (init file) where
  alive := nofun
  pidFile _ := rfl
  handler h := absurd rfl h
  pending := nofun
  slot := by simp [init]
  rotates := nofun
  token := nofun
  synced := nofun

theorem correct_of_valid {s : State} (h : Valid s) : Correct s := by
  refine ⟨h.alive, fun hsettled slot hslot => ?_⟩
  have hsome : s.slot.isSome = true := by rw [hslot]; rfl
  obtain ⟨token, htoken, -, hpresentable⟩ := h.token hsome
  have hshown : shown s = s.slot := by
    unfold shown
    split
    · rename_i token hhandler
      exact absurd hhandler (hsettled.handler.2 token)
    · rfl
  rcases h.synced hsome with hpending | hreading | hsignal | hsync
  · rw [hsettled.pending] at hpending
    cases hpending
  · exact absurd hreading hsettled.handler.1
  · obtain ⟨run, hrun, hsignal⟩ := List.any_eq_true.mp hsignal
    have hidle := hsettled.rotates run hrun
    cases run with
    | renamed => cases hidle
    | writing | written | returned => cases hsignal
  · rw [hshown, hslot, htoken] at hsync
    rw [Option.some.inj hsync]
    exact ⟨token, htoken, acceptsExactly_self hpresentable⟩

/-! ## One step -/

section
variable {s : State}

theorem hasToken_tokenFile (token : Uuid) : HasToken (some (tokenFile token)) :=
  ⟨token.toString, tokenIn_tokenFile token, toString_ne_empty token, presentable_toString token⟩

theorem exit_valid (h : Valid s) : Valid (s.exit .failed) where
  alive := nofun
  pidFile := nofun
  handler hne := absurd rfl hne
  pending := nofun
  slot := by simp [State.exit]
  rotates := h.rotates
  token := nofun
  synced := nofun

theorem load_valid (h : Valid s) (hdaemon : s.daemon = .loading) {path : String}
    {minted : Uuid} {token : String} {file : Option (List UInt8)}
    (hload : loadOrCreateToken path s.file minted = .ok (token, file))
    (hg : ∀ token, tokenIn s.file = some token → Presentable token) :
    Valid { s with daemon := .writingPid, slot := some token, file := file } := by
  obtain ⟨htoken, hne, hfrom⟩ := loadOrCreateToken_ok hload
  have habsent : s.handler = .absent := by
    by_contra hpresent
    have hrunning := h.handler hpresent
    rw [hdaemon] at hrunning
    cases hrunning
  have hpresentable : Presentable token := by
    rcases hfrom with rfl | rfl
    · exact hg token htoken
    · exact presentable_toString minted
  exact {
    alive := nofun
    pidFile := fun _ => h.pidFile (.inl hdaemon)
    handler := fun hpresent => absurd habsent hpresent
    pending := h.pending
    slot := by simp
    rotates := h.rotates
    token := fun _ => ⟨token, htoken, hne, hpresentable⟩
    synced := fun _ => .inr (.inr (.inr (by simp only [shown, habsent, htoken]))) }

theorem writePid_valid (h : Valid s) (hdaemon : s.daemon = .writingPid) (pid : Nat) :
    Valid { s with daemon := .running, pidFile := some pid } where
  alive := nofun
  pidFile := nofun
  handler _ := rfl
  pending := h.pending
  slot := by simp [h.slot, hdaemon]
  rotates _ _ _ := rfl
  token := h.token
  synced := h.synced

/-- The handler moves on, and neither reads nor swaps. -/
theorem handler_valid (h : Valid s) {handler : Handler} (hrunning : s.daemon = .running)
    (hpresent : handler ≠ .absent) (hreading : s.handler ≠ .reading)
    (hshown : shown { s with handler := handler } = shown s) :
    Valid { s with handler := handler } where
  alive := h.alive
  pidFile := h.pidFile
  handler _ := hrunning
  pending _ := hpresent
  slot := h.slot
  rotates := h.rotates
  token := h.token
  synced hsome := by
    rcases h.synced hsome with hpending | hread | hsignal | hsync
    · exact .inl hpending
    · exact absurd hread hreading
    · exact .inr (.inr (.inl hsignal))
    · exact .inr (.inr (.inr (hshown.trans hsync)))

theorem recv_valid (h : Valid s) (hrunning : s.daemon = .running) :
    Valid { s with handler := .reading, pending := false } where
  alive := h.alive
  pidFile := h.pidFile
  handler _ := hrunning
  pending := nofun
  slot := h.slot
  rotates := h.rotates
  token := h.token
  synced _ := .inr (.inl rfl)

theorem read_valid (h : Valid s) (hrunning : s.daemon = .running) {token : String}
    (htoken : tokenIn s.file = some token) : Valid { s with handler := .swapping token } where
  alive := h.alive
  pidFile := h.pidFile
  handler _ := hrunning
  pending _ := nofun
  slot := h.slot
  rotates := h.rotates
  token := h.token
  synced _ := .inr (.inr (.inr htoken.symm))

theorem swap_valid (h : Valid s) {token : String} (hhandler : s.handler = .swapping token) :
    Valid { s with handler := .waiting, slot := some token } := by
  have hrunning := h.handler (by rw [hhandler]; nofun)
  have hsome : s.slot.isSome = true := h.slot.mpr (.inr hrunning)
  exact {
    alive := h.alive
    pidFile := h.pidFile
    handler := fun _ => hrunning
    pending := fun _ => nofun
    slot := by simp [hrunning]
    rotates := h.rotates
    token := fun _ => h.token hsome
    synced := fun _ => by
      rcases h.synced hsome with hpending | hread | hsignal | hsync
      · exact .inl hpending
      · rw [hhandler] at hread
        cases hread
      · exact .inr (.inr (.inl hsignal))
      · rw [shown, hhandler] at hsync
        exact .inr (.inr (.inr hsync)) }

theorem readPid_valid (h : Valid s) {run : RotateRun}
    (hrun : run.inProgress = true → s.pidFile.isSome = true) :
    Valid { s with rotates := s.rotates ++ [run] } where
  alive := h.alive
  pidFile := h.pidFile
  handler := h.handler
  pending := h.pending
  slot := h.slot
  rotates other hother hprogress := by
    rcases List.mem_append.mp hother with hold | hnew
    · exact h.rotates other hold hprogress
    · rw [List.mem_singleton.mp hnew] at hprogress
      exact hrun hprogress
  token := h.token
  synced hsome := by
    rcases h.synced hsome with hpending | hread | hsignal | hsync
    · exact .inl hpending
    · exact .inr (.inl hread)
    · exact .inr (.inr (.inl (by rw [List.any_append, hsignal]; rfl)))
    · exact .inr (.inr (.inr hsync))

/-- A rotation moves on. If it had renamed its file, a signal is pending or the
daemon is gone. -/
theorem setRotate_valid (h : Valid s) {i : Nat} {run run' : RotateRun}
    (hrun : s.rotates[i]? = some run) (hprogress : run.inProgress = true)
    (hsignal : run.isRenamed = true → s.slot.isSome = true → s.pending = true) :
    Valid (s.setRotate i run') where
  alive := h.alive
  pidFile := h.pidFile
  handler := h.handler
  pending := h.pending
  slot := h.slot
  rotates other hother hother' := by
    rcases List.mem_or_eq_of_mem_set hother with hold | rfl
    · exact h.rotates other hold hother'
    · exact h.rotates run (List.mem_of_getElem? hrun) hprogress
  token := h.token
  synced hsome := by
    rcases h.synced hsome with hpending | hread | hother | hsync
    · exact .inl hpending
    · exact .inr (.inl hread)
    · obtain ⟨other, hmem, hother⟩ := List.any_eq_true.mp hother
      obtain ⟨j, hj⟩ := List.getElem?_of_mem hmem
      by_cases hij : i = j
      · subst hij
        rw [hrun] at hj
        obtain rfl := Option.some.inj hj
        exact .inl (hsignal hother hsome)
      · refine .inr (.inr (.inl (List.any_eq_true.mpr ⟨other, ?_, hother⟩)))
        exact List.mem_of_getElem? (i := j) (by rw [State.setRotate, List.getElem?_set_ne hij, hj])
    · exact .inr (.inr (.inr hsync))

theorem rename_valid (h : Valid s) {i pid : Nat} {token : Uuid}
    (hrun : s.rotates[i]? = some (.written pid token)) :
    Valid ({ s with file := some (tokenFile token) }.setRotate i (.renamed pid token)) where
  alive := h.alive
  pidFile := h.pidFile
  handler := h.handler
  pending := h.pending
  slot := h.slot
  rotates other hother hother' := by
    rcases List.mem_or_eq_of_mem_set hother with hold | rfl
    · exact h.rotates other hold hother'
    · exact h.rotates _ (List.mem_of_getElem? hrun) rfl
  token _ := hasToken_tokenFile token
  synced _ := by
    obtain ⟨hlt, -⟩ := List.getElem?_eq_some_iff.mp hrun
    have hmem : RotateRun.renamed pid token ∈ s.rotates.set i (.renamed pid token) :=
      List.mem_set hlt _
    exact .inr (.inr (.inl (List.any_eq_true.mpr ⟨_, hmem, rfl⟩)))

theorem hangup_valid (h : Valid s) {i pid : Nat} {token : Uuid}
    (hrun : s.rotates[i]? = some (.renamed pid token))
    (hg : s.daemon.isAlive = true → s.handler.isInstalled = true) :
    Valid ((hangup s pid token).1.setRotate i (.returned (hangup s pid token).2)) := by
  unfold hangup
  by_cases halive : s.daemon.isAlive = true
  · have hinstalled := hg halive
    have hpresent : s.handler ≠ .absent := by
      intro habsent
      rw [habsent] at hinstalled
      cases hinstalled
    have hpending : Valid { s with pending := true } := {
      alive := h.alive
      pidFile := h.pidFile
      handler := h.handler
      pending := fun _ => hpresent
      slot := h.slot
      rotates := h.rotates
      token := h.token
      synced := fun _ => .inl rfl }
    simp only [halive, hinstalled, Bool.not_true, Bool.false_eq_true, if_false, if_true]
    exact setRotate_valid hpending hrun rfl fun _ _ => rfl
  · have hdead : s.slot.isSome = false := by
      rw [← Bool.not_eq_true, h.slot]
      rintro (hdaemon | hdaemon) <;> exact halive (by rw [hdaemon]; rfl)
    simp only [halive, Bool.not_false, if_true]
    apply setRotate_valid h hrun rfl
    intro _ hsome
    rw [hdead] at hsome
    cases hsome

end

theorem step_valid {path : String} {s t : State} {l : Label} (h : Valid s) (hg : Respects s l)
    (hs : step path s l = some t) : Valid t := by
  cases l with
  | load minted =>
    simp only [step] at hs
    split at hs
    · rename_i token file hdaemon hload
      cases hs
      exact load_valid h hdaemon hload hg
    · cases hs
      exact exit_valid h
    · cases hs
  | writePid pid =>
    simp only [step] at hs
    split at hs
    · rename_i hdaemon
      cases hs
      exact writePid_valid h hdaemon pid
    · cases hs
  | spawn =>
    simp only [step] at hs
    split at hs
    · rename_i hrunning hhandler
      cases hs
      exact handler_valid h hrunning nofun (by rw [hhandler]; nofun) (by simp [shown, hhandler])
    · cases hs
  | install | installFails =>
    simp only [step] at hs
    split at hs
    · rename_i hhandler
      cases hs
      have hrunning := h.handler (by rw [hhandler]; nofun)
      exact handler_valid h hrunning nofun (by rw [hhandler]; nofun) (by simp [shown, hhandler])
    · cases hs
  | fail =>
    simp only [step] at hs
    split at hs
    · cases hs
      exact exit_valid h
    · cases hs
  | recv =>
    simp only [step] at hs
    split at hs
    · rename_i hhandler _
      cases hs
      exact recv_valid h (h.handler (by rw [hhandler]; nofun))
    · cases hs
  | read minted =>
    by_cases hhandler : s.handler = .reading
    · have hrunning := h.handler (by rw [hhandler]; nofun)
      obtain ⟨token, htoken, hne, -⟩ := h.token (h.slot.mpr (.inr hrunning))
      simp only [step, hhandler, loadOrCreateToken_of_token htoken hne, Option.some.injEq] at hs
      subst hs
      exact read_valid h hrunning htoken
    · simp only [step] at hs
      split at hs
      · rename_i hreading _
        exact absurd hreading hhandler
      · rename_i hreading _
        exact absurd hreading hhandler
      · cases hs
  | swap =>
    simp only [step] at hs
    split at hs
    · rename_i token hhandler
      cases hs
      exact swap_valid h hhandler
    · cases hs
  | readPid =>
    simp only [step] at hs
    split at hs
    · rename_i pid hpid
      cases hs
      exact readPid_valid h fun _ => by rw [hpid]; rfl
    · cases hs
      exact readPid_valid h nofun
  | writeTemp i token =>
    simp only [step] at hs
    split at hs
    · rename_i pid hrun
      cases hs
      exact setRotate_valid h hrun rfl nofun
    · cases hs
  | rename i =>
    simp only [step] at hs
    split at hs
    · rename_i pid token hrun
      cases hs
      exact rename_valid h hrun
    · cases hs
  | hangup i =>
    simp only [step] at hs
    split at hs
    · rename_i pid token hrun
      cases hs
      exact hangup_valid h hrun hg
    · cases hs
  | giveUp i reason =>
    simp only [step] at hs
    split at hs
    · rename_i pid hrun
      cases hs
      exact setRotate_valid h hrun rfl nofun
    · rename_i pid token hrun
      cases hs
      exact setRotate_valid h hrun rfl nofun
    · cases hs

/-! ## Every run -/

/-- A signal that finds no handler kills the daemon. -/
theorem killed_of_hangup {path : String} {s t : State} {i : Nat}
    (hs : step path s (.hangup i) = some t) (hno : ¬ Respects s (.hangup i)) :
    t.daemon = .killed := by
  simp only [Respects, Classical.not_imp, Bool.not_eq_true] at hno
  obtain ⟨halive, hnot⟩ := hno
  simp only [step] at hs
  split at hs
  · cases hs
    simp only [hangup, halive, hnot, Bool.not_true, Bool.false_eq_true, if_false]
    rfl
  · cases hs

theorem not_correct_of_load {path : String} {s t : State} {minted : Uuid} (h : Valid s)
    (hs : step path s (.load minted) = some t) (hno : ¬ Respects s (.load minted)) :
    ¬ Correct t := by
  simp only [Respects, not_forall] at hno
  obtain ⟨token, htoken, hno⟩ := hno
  have hne : token ≠ "" := by
    rintro rfl
    exact hno fun _ => rfl
  simp only [step, loadOrCreateToken_of_token htoken hne] at hs
  split at hs
  · rename_i hdaemon hload
    cases hload
    cases hs
    have habsent : s.handler = .absent := by
      by_contra hpresent
      have hrunning := h.handler hpresent
      rw [hdaemon] at hrunning
      cases hrunning
    have hsettled : Settled { s with daemon := .writingPid, slot := some token } := by
      refine ⟨fun run hrun => ?_, ?_, ?_, ?_⟩
      · by_contra hprogress
        have hpid := h.rotates run hrun (Bool.not_eq_false _ ▸ hprogress)
        rw [h.pidFile (.inl hdaemon)] at hpid
        cases hpid
      · by_contra hpending
        exact h.pending (Bool.not_eq_false _ ▸ hpending) habsent
      · simp [habsent]
      · simp [habsent]
    intro hcorrect
    obtain ⟨token', htoken', haccepts⟩ := hcorrect.accepts hsettled token rfl
    rw [show tokenIn s.file = some token' from htoken', Option.some.injEq] at htoken
    subst htoken
    exact hno (presentable_of_acceptsExactly haccepts)
  · rename_i hload
    cases hload
  · cases hs

/-- In every run that meets the guard, whatever the token file at start-up, the
daemon lives and follows the file. No step may be exempted. -/
theorem follows_file_when_respected (path : String) :
    (∀ file ls s, Transition.exec (step path) (init file) ls = some s →
      Transition.EachStep (step path) (fun _ => Respects) (init file) ls → Correct s) ∧
    ∀ file ls s l t, Transition.exec (step path) (init file) ls = some s →
      Transition.EachStep (step path) (fun _ => Respects) (init file) ls →
      step path s l = some t → ¬ Respects s l → ¬ Correct t := by
  have valid : ∀ file ls s, Transition.exec (step path) (init file) ls = some s →
      Transition.EachStep (step path) (fun _ => Respects) (init file) ls → Valid s :=
    fun file _ _ hrun hg => Transition.guarded_invariant (P := Valid)
      (fun _ _ _ => step_valid) (init_valid file) hg hrun
  constructor
  · intro file ls s hrun hg
    exact correct_of_valid (valid file ls s hrun hg)
  · intro file ls s l t hrun hg hs hno
    cases l with
    | hangup => exact fun hcorrect => hcorrect.alive (killed_of_hangup hs hno)
    | load => exact not_correct_of_load (valid file ls s hrun hg) hs hno
    | _ => exact absurd trivial hno

/-- A token is minted and served; a rotation replaces it, and the handler reloads it. -/
def rotation : List Label :=
  [.load (.ofOctet 1), .writePid 7, .spawn, .install, .readPid, .writeTemp 0 (.ofOctet 2),
    .rename 0, .hangup 0, .recv, .read (.ofOctet 3), .swap]

theorem rotation_followed :
    ∃ s, Transition.exec (step "auth.token") (init none) rotation = some s ∧
      Transition.EachStep (step "auth.token") (fun _ => Respects) (init none) rotation ∧
      s.slot = some (Uuid.toString (.ofOctet 2)) ∧ Settled s ∧ Correct s := by
  have hrun : Transition.exec (step "auth.token") (init none) rotation = some _ := rfl
  have hguard : Transition.EachStep (step "auth.token") (fun _ => Respects) (init none)
      rotation := by
    refine .next ?_ rfl (.next trivial rfl (.next trivial rfl (.next trivial rfl
      (.next trivial rfl (.next trivial rfl (.next trivial rfl (.next ?_ rfl (.next trivial rfl
        (.next trivial rfl (.next trivial rfl .nil))))))))))
    · rintro token ⟨⟩
    · exact fun _ => rfl
  have hcorrect := (follows_file_when_respected "auth.token").1 none _ _ hrun hguard
  refine ⟨_, hrun, hguard, rfl, ⟨?_, rfl, ?_⟩, hcorrect⟩
  · decide
  · exact ⟨nofun, nofun⟩

/-- A rotation that finds the PID file is faster than the handler's task. -/
def earlyRotation : List Label :=
  [.load (.ofOctet 1), .writePid 7, .spawn, .readPid, .writeTemp 0 (.ofOctet 2), .rename 0,
    .hangup 0]

theorem early_rotation_kills_daemon :
    ¬ ∀ file ls s, Transition.exec (step "auth.token") (init file) ls = some s → Correct s := by
  intro h
  exact (h none earlyRotation _ rfl).alive rfl

end Rotation

end Trumpet
