import Trumpet.Server.Restart

/-! Taking a snapshot while the stores are in use: the five read locks are taken
one after another, and mutations go on under the write locks not yet blocked. -/

namespace Trumpet

inductive Store where
  | registry
  | chat
  | tools
  | tasks
  | pushNotifications
  deriving DecidableEq

/-- The store whose write lock an operation runs under. A restart is none of the
running daemon's operations. -/
def AppState.Op.store : AppState.Op → Option Store
  | .registerAgent .. | .heartbeat .. | .deregisterAgent .. | .flip .. | .reorderAgents .. =>
    some .registry
  | .createConversation .. | .sendMessage .. | .reorderConversations .. => some .chat
  | .registerTool .. | .deregisterTool .. | .reorderTools .. => some .tools
  | .createTask .. | .updateStatus .. | .cancel .. | .addArtifact .. | .failTasks ..
  | .reorderTasks .. => some .tasks
  | .createPush .. | .deletePush .. | .reorderPush .. => some .pushNotifications
  | .restart .. => none

/-- The store is the same in both states. -/
def Store.Same (a b : AppState) : Store → Prop
  | registry => a.registry = b.registry
  | chat => a.chat = b.chat
  | tools => a.tools = b.tools
  | tasks => a.tasks = b.tasks
  | pushNotifications => a.pushNotifications = b.pushNotifications

/-- An operation writes no store but the one whose lock it holds. -/
theorem AppState.apply_same {s t : AppState} {op : AppState.Op} (h : s.apply op = some t)
    {store : Store} (hs : op.store = some store) {other : Store} (hne : other ≠ store) :
    other.Same t s := by
  cases op with
  | restart ids => cases hs
  | registerAgent id | createConversation id | registerTool id | createTask mint =>
    cases hs
    simp only [AppState.apply, Option.ite_none_right_eq_some, Option.some.injEq] at h
    obtain ⟨_, rfl⟩ := h
    cases other <;> first | rfl | exact absurd rfl hne
  | deregisterTool id =>
    cases hs
    simp only [AppState.apply, Option.ite_none_left_eq_some, Option.some.injEq] at h
    obtain ⟨_, rfl⟩ := h
    cases other <;> first | rfl | exact absurd rfl hne
  | _ =>
    cases hs
    cases h
    cases other <;> first | rfl | exact absurd rfl hne

/-- One call of `to_snapshot`: it holds the first `held` locks, or all of them
and has read the first `fields` fields. -/
inductive SnapshotCall where
  | locking (held : Nat)
  | reading (fields : Nat) (draft : StateSnapshot)
  | returned (snapshot : StateSnapshot)

namespace SnapshotCall

def lockOrder : List Store := [.registry, .chat, .tools, .tasks, .pushNotifications]

/-- The read locks the call holds. -/
def holds (store : Store) : SnapshotCall → Bool
  | locking held => (lockOrder.take held).contains store
  | reading .. => true
  | returned _ => false

def inProgress : SnapshotCall → Bool
  | returned _ => false
  | _ => true

/-- The fields in the order in which they are read. -/
def readField (app : AppState) (field : Nat) (draft : StateSnapshot) : StateSnapshot :=
  match field with
  | 0 => { draft with agents := app.registry.list }
  | 1 => { draft with tools := app.tools.list }
  | 2 => { draft with conversations := app.chat.listConversations }
  | 3 => { draft with
      messages := draft.conversations.filterMap fun conv =>
        match app.chat.getMessages conv.id with
        | .ok msgs => some (conv.id, msgs)
        | .error _ => none }
  | 4 => { draft with tasks := app.tasks.list }
  | _ => { draft with pushNotifications := app.pushNotifications.all }

def fieldCount : Nat := 6

def blank : StateSnapshot := ⟨[], [], [], [], [], []⟩

/-- What has been read after `fields` fields, with the stores unchanged meanwhile. -/
def drafts (app : AppState) : Nat → StateSnapshot
  | 0 => blank
  | fields + 1 => readField app fields (drafts app fields)

/-- All fields, read from unchanged stores, are the snapshot of those stores. -/
theorem drafts_all (app : AppState) : drafts app fieldCount = app.toSnapshot := rfl

end SnapshotCall

/-- The stores, and every call of `to_snapshot` so far. -/
structure CutSystem where
  app : AppState
  calls : List SnapshotCall

namespace CutSystem

inductive Label where
  | mutate (op : AppState.Op)
  | call
  /-- Call `i` takes the next lock, reads the next field or returns. -/
  | advance (i : Nat)

/-- What a call does next. -/
def next (app : AppState) : SnapshotCall → Option SnapshotCall
  | .locking held =>
    if held + 1 < SnapshotCall.lockOrder.length then some (.locking (held + 1))
    else some (.reading 0 SnapshotCall.blank)
  | .reading fields draft =>
    if fields < SnapshotCall.fieldCount then
      some (.reading (fields + 1) (SnapshotCall.readField app fields draft))
    else some (.returned draft)
  | .returned _ => none

/-- A mutation waits for every call that holds the lock of its store. -/
def step (s : CutSystem) : Label → Option CutSystem
  | .mutate op =>
    match op.store with
    | none => none
    | some store =>
      if s.calls.any (SnapshotCall.holds store) then none
      else (s.app.apply op).map fun app => { s with app := app }
  | .call => some { s with calls := s.calls ++ [.locking 0] }
  | .advance i =>
    match s.calls[i]? with
    | none => none
    | some c => (next s.app c).map fun c => { s with calls := s.calls.set i c }

def init (app : AppState) : CutSystem := ⟨app, []⟩

/-- The snapshot is that of the stores at one instant of the run `ls`, at which
call `i` was in progress. -/
def CutAt (start : AppState) (ls : List Label) (i : Nat) (snapshot : StateSnapshot) : Prop :=
  ∃ pre post u, ls = pre ++ post ∧ Transition.exec step (init start) pre = some u ∧
    (∃ c, u.calls[i]? = some c ∧ c.inProgress = true) ∧ u.app.Running ∧
    snapshot = u.app.toSnapshot

theorem CutAt.concat {start : AppState} {ls : List Label} {i : Nat} {snapshot : StateSnapshot}
    (h : CutAt start ls i snapshot) (l : Label) : CutAt start (ls ++ [l]) i snapshot := by
  obtain ⟨pre, post, u, rfl, hu⟩ := h
  exact ⟨pre, post ++ [l], u, List.append_assoc _ _ _, hu⟩

/-- A call that reads has read from the present stores; one that has returned, from
the stores of an instant of the run. -/
def CallTracks (start : AppState) (ls : List Label) (app : AppState) (i : Nat) :
    SnapshotCall → Prop
  | .locking _ => True
  | .reading fields draft =>
    fields ≤ SnapshotCall.fieldCount ∧ draft = SnapshotCall.drafts app fields
  | .returned snapshot => CutAt start ls i snapshot

structure Tracks (start : AppState) (ls : List Label) (s : CutSystem) : Prop where
  running : s.app.Running
  calls : ∀ i c, s.calls[i]? = some c → CallTracks start ls s.app i c

theorem CallTracks.concat {start app : AppState} {ls : List Label} {i : Nat} {c : SnapshotCall}
    (h : CallTracks start ls app i c) (l : Label) : CallTracks start (ls ++ [l]) app i c := by
  cases c with
  | locking held => trivial
  | reading fields draft => exact h
  | returned snapshot => exact CutAt.concat h l

/-- The call's own next step: the last one, with all fields read, is at the instant
of the cut. -/
theorem next_tracks {start : AppState} {ls : List Label} {s : CutSystem} {i : Nat}
    {c c' : SnapshotCall} (hrun : Transition.exec step (init start) ls = some s)
    (hr : s.app.Running) (hc : s.calls[i]? = some c) (h : CallTracks start ls s.app i c)
    (hn : next s.app c = some c') : CallTracks start ls s.app i c' := by
  cases c with
  | locking held =>
    simp only [next] at hn
    split at hn
    · cases hn
      trivial
    · cases hn
      exact ⟨Nat.zero_le _, rfl⟩
  | reading fields draft =>
    obtain ⟨hle, rfl⟩ := h
    simp only [next] at hn
    split at hn
    · rename_i hlt
      cases hn
      exact ⟨hlt, rfl⟩
    · rename_i hge
      cases hn
      obtain rfl : fields = SnapshotCall.fieldCount := by omega
      exact ⟨ls, [], s, (List.append_nil _).symm, hrun, ⟨_, hc, rfl⟩, hr,
        SnapshotCall.drafts_all s.app⟩
  | returned snapshot => cases hn

theorem step_tracks {start : AppState} {ls : List Label} {s t : CutSystem} {l : Label}
    (hrun : Transition.exec step (init start) ls = some s) (h : Tracks start ls s)
    (hs : s.step l = some t) : Tracks start (ls ++ [l]) t := by
  cases l with
  | mutate op =>
    simp only [step] at hs
    split at hs
    · cases hs
    · rename_i store hstore
      simp only [Option.ite_none_left_eq_some, Option.map_eq_some_iff] at hs
      obtain ⟨hfree, app, happ, rfl⟩ := hs
      refine ⟨AppState.apply_running h.running happ, fun i c hi => ?_⟩
      have hcall := h.calls i c hi
      cases c with
      | locking held => trivial
      | reading fields draft =>
        -- A call that reads holds every lock.
        exact absurd (List.any_eq_true.mpr ⟨_, List.mem_of_getElem? hi, rfl⟩) hfree
      | returned snapshot => exact CutAt.concat hcall _
  | call =>
    cases hs
    refine ⟨h.running, fun i c hi => ?_⟩
    rw [List.getElem?_append] at hi
    split at hi
    · exact (h.calls i c hi).concat _
    · obtain rfl := List.mem_singleton.mp (List.mem_of_getElem? hi)
      trivial
  | advance j =>
    simp only [step] at hs
    split at hs
    · cases hs
    · rename_i c hc
      obtain ⟨c', hn, rfl⟩ := Option.map_eq_some_iff.mp hs
      refine ⟨h.running, fun i d hi => ?_⟩
      rw [List.getElem?_set] at hi
      split at hi
      · rename_i hij
        subst hij
        split at hi
        · cases hi
          exact (next_tracks hrun h.running hc (h.calls j c hc) hn).concat _
        · cases hi
      · exact (h.calls i d hi).concat _

/-- Every conversation listed is listed with its whole history. -/
theorem messages_complete {app : AppState} (h : app.Running) {conv : Conversation}
    (hc : conv ∈ app.toSnapshot.conversations) :
    ∃ msgs, (conv.id, msgs) ∈ app.toSnapshot.messages ∧
      app.chat.getMessages conv.id = .ok msgs := by
  have hg : app.chat.getConversation conv.id = some conv := KeyedMap.get_of_mem hc
  have hsome := h.valid.chat conv.id
  rw [hg, Option.isSome_some] at hsome
  obtain ⟨msgs, hm⟩ := Option.isSome_iff_exists.mp hsome
  refine ⟨msgs, (ChatManager.mem_histories h.valid.chat).mpr hm, ?_⟩
  rw [ChatManager.getMessages, hm]

/-- A snapshot returned by a call is that of the stores at one instant between its
call and its return, with the whole history of every conversation it lists. -/
theorem snapshot_is_cut {start : AppState} (h : start.Reachable) {ls : List Label} {s : CutSystem}
    (hrun : Transition.exec step (init start) ls = some s) {i : Nat} {snapshot : StateSnapshot}
    (hi : s.calls[i]? = some (.returned snapshot)) :
    ∃ pre post u, ls = pre ++ post ∧ Transition.exec step (init start) pre = some u ∧
      (∃ c, u.calls[i]? = some c ∧ c.inProgress = true) ∧ snapshot = u.app.toSnapshot ∧
      ∀ conv ∈ snapshot.conversations, ∃ msgs, (conv.id, msgs) ∈ snapshot.messages ∧
        u.app.chat.getMessages conv.id = .ok msgs := by
  have ht : Tracks start ls s :=
    Transition.history_induction (P := Tracks start)
      ⟨h.running, fun _ _ h => by simp [init] at h⟩
      (fun _ _ _ _ hrun h hl => step_tracks hrun h hl) hrun
  obtain ⟨pre, post, u, hls, hu, hc, hr, rfl⟩ := ht.calls i _ hi
  exact ⟨pre, post, u, hls, hu, hc, rfl, fun _ => messages_complete hr⟩

/-- A conversation is created after the call has taken its first lock, and a task
after it has taken its second. -/
def betweenLocks : List Label :=
  [.call, .advance 0, .mutate (.createConversation ⟨.ofOctet 1⟩ 0 none [⟨.ofOctet 2⟩]), .advance 0,
    .mutate (.createTask ⟨⟨.ofOctet 3⟩, ⟨.ofOctet 4⟩, 0⟩
      ⟨⟨⟨.ofOctet 5⟩, .user, [.text "work"], none⟩, none, none, none, none, none⟩)] ++
    List.replicate 10 (.advance 0)

theorem snapshot_is_cut_between_locks :
    ∃ s snapshot,
      Transition.exec step (init (.start none AppState.sampleIds)) betweenLocks = some s ∧
      s.calls[0]? = some (.returned snapshot) ∧
      ∃ pre post u, betweenLocks = pre ++ post ∧
        Transition.exec step (init (.start none AppState.sampleIds)) pre = some u ∧
        (∃ c, u.calls[0]? = some c ∧ c.inProgress = true) ∧ snapshot = u.app.toSnapshot ∧
        ∀ conv ∈ snapshot.conversations, ∃ msgs, (conv.id, msgs) ∈ snapshot.messages ∧
          u.app.chat.getMessages conv.id = .ok msgs :=
  ⟨_, _, rfl, rfl, @snapshot_is_cut (.start none AppState.sampleIds)
    ⟨AppState.sampleIds, [], AppState.sampleIds_fresh, rfl⟩ betweenLocks _ rfl 0 _ rfl⟩

end CutSystem

end Trumpet
