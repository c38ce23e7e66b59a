import Trumpet.Server.Restart
import Trumpet.State.CrashSafety

/-! Crashes and restarts: what a daemon comes up with, over the whole life of its
storage. -/

namespace Trumpet

open StateManager

def keyFile : String := "key"

/-- How the first write of the key file ends: where it stops, and whether the
file's permissions can be set. -/
structure KeyWrite where
  stop : Stop
  permissions : Except String Unit

/-- The key of the storage; without a key file, the key drawn is written to one. -/
def loadOrCreateKey (reason : String) (store : HashTable String (List UInt8)) (drawn : Key)
    (write : KeyWrite) : Except Error Key × HashTable String (List UInt8) :=
  match store.find keyFile with
  | some bytes =>
    if h : bytes.length = 32 then (.ok ⟨bytes, h⟩, store)
    else
      (.error (.stateSnapshotFailed
        ("encryption key must be 32 bytes, got " ++ toString bytes.length)), store)
  | none =>
    match (Operator.fs reason write.stop).write store keyFile drawn.bytes with
    | (.error e, store) => (.error (.stateSnapshotFailed ("writing encryption key: " ++ e)), store)
    | (.ok (), store) =>
      match write.permissions with
      | .error e =>
        (.error (.stateSnapshotFailed ("setting key file permissions: " ++ e)), store)
      | .ok () => (.ok drawn, store)

namespace Recovery

/-- A daemon that is up, and the state its timer took a snapshot of. -/
structure Daemon where
  key : Key
  app : AppState
  pending : Option AppState

/-- What the latest save to touch the snapshot file has made of it. -/
inductive Last where
  | never
  | torn
  | complete (app : AppState)

structure System where
  store : HashTable String (List UInt8)
  daemon : Option Daemon
  last : Last

inductive Label where
  | start (drawn : Key) (write : KeyWrite) (ids : String → ToolId)
  | op (op : AppState.Op)
  /-- All five stores are read for a save, by the timer or at shutdown. -/
  | snapshot
  /-- The save ends, or stops where the process dies or the disk is full. -/
  | save (nonce : Nonce) (stop : Stop)
  /-- The process ends, at any point. -/
  | die

def init : System := ⟨.empty, none, .never⟩

section
variable (aead : Aead) (rmp : Rmp) (reason : String)

/-- The daemon comes up, or its start fails. -/
def start (s : System) (drawn : Key) (write : KeyWrite) (ids : String → ToolId) : System :=
  match loadOrCreateKey reason s.store drawn write with
  | (.error _, store) => { s with store := store }
  | (.ok key, store) =>
    match (onDisk reason key .unopened).loadSnapshot aead rmp store with
    | .error _ => { s with store := store }
    | .ok saved => { s with store := store, daemon := some ⟨key, AppState.start saved ids, none⟩ }

def save (s : System) (d : Daemon) (app : AppState) (nonce : Nonce) (stop : Stop) : System :=
  let r := (onDisk reason d.key stop).saveSnapshot aead rmp s.store nonce app.toSnapshot
  { store := r.2
    daemon := some { d with pending := none }
    last :=
      match r.1 with
      | .ok () => .complete app
      | .error _ => if r.2.find snapshotFile = s.store.find snapshotFile then s.last else .torn }

def step (s : System) : Label → Option System
  | .start drawn write ids =>
    match s.daemon with
    | none => some (start aead rmp reason s drawn write ids)
    | some _ => none
  | .op op =>
    match s.daemon, op with
    | none, _ => none
    | some _, .restart _ => none
    | some d, op => (d.app.apply op).map fun app => { s with daemon := some { d with app := app } }
  | .snapshot =>
    match s.daemon with
    | none => none
    | some d => some { s with daemon := some { d with pending := some d.app } }
  | .save nonce stop =>
    match s.daemon with
    | none => none
    | some d => d.pending.map fun app => save aead rmp reason s d app nonce stop
  | .die => some { s with daemon := none }

/-- The codec reads the snapshot back, and the load accepts its size. -/
def Readable (snapshot : StateSnapshot) : Prop :=
  ∃ plaintext, rmp.toVec snapshot = .ok plaintext ∧ rmp.fromSlice plaintext = .ok snapshot ∧
    plaintext.length + 28 ≤ maxSnapshotSize

/-- The codec reads nothing else back. -/
def ReadBack (snapshot : StateSnapshot) : Prop :=
  ∀ plaintext snapshot', rmp.toVec snapshot = .ok plaintext →
    rmp.fromSlice plaintext = .ok snapshot' → snapshot' = snapshot

/-- A ciphertext that the save cuts short does not pass authentication. -/
def TearRefused (key : Key) (nonce : Nonce) (stop : Stop) (snapshot : StateSnapshot) : Prop :=
  ∀ plaintext ciphertext n, rmp.toVec snapshot = .ok plaintext →
    aead.encrypt key nonce plaintext = some ciphertext → stop = .after n →
    n < nonceLen + ciphertext.length →
    aead.decrypt key nonce (ciphertext.take (n - nonceLen)) = none

/-- What is assumed of a step: the identifiers a start draws are new and distinct;
of a save, that the codec does not misread its snapshot, and that a ciphertext cut
short is refused. -/
def Sound (s : System) : Label → Prop
  | .start _ _ ids => AppState.FreshIds ids .new
  | .save nonce stop => ∀ d app, s.daemon = some d → d.pending = some app →
    ReadBack rmp app.toSnapshot ∧ TearRefused aead rmp d.key nonce stop app.toSnapshot
  | _ => True

end

variable {aead : Aead} {rmp : Rmp} {reason : String}

/-! ## The key file -/

theorem snapshotFile_ne_keyFile : snapshotFile ≠ keyFile := by decide

/-- Loading or creating the key leaves the snapshot file alone. -/
theorem find_loadOrCreateKey (store : HashTable String (List UInt8)) (drawn : Key)
    (write : KeyWrite) :
    (loadOrCreateKey reason store drawn write).2.find snapshotFile = store.find snapshotFile := by
  unfold loadOrCreateKey
  split
  · split <;> rfl
  · have hput (bytes : List UInt8) :
        (store.put keyFile bytes).find snapshotFile = store.find snapshotFile := by
      rw [HashTable.find_put, if_neg snapshotFile_ne_keyFile]
    cases hst : write.stop with
    | unopened => rfl
    | after n =>
      by_cases hle : drawn.bytes.length ≤ n
      · simp only [Operator.fs, if_pos hle]
        split <;> exact hput _
      · simp only [Operator.fs, if_neg hle]
        exact hput _

/-- A key file that exists is not written. -/
theorem loadOrCreateKey_of_some {store : HashTable String (List UInt8)} {bytes : List UInt8}
    (h : store.find keyFile = some bytes) (drawn : Key) (write : KeyWrite) :
    (loadOrCreateKey reason store drawn write).2 = store := by
  unfold loadOrCreateKey
  rw [h]
  simp only
  split <;> rfl

/-- The key returned is the one in the key file. -/
theorem loadOrCreateKey_ok {store store' : HashTable String (List UInt8)} {drawn key : Key}
    {write : KeyWrite} (h : loadOrCreateKey reason store drawn write = (.ok key, store')) :
    store'.find keyFile = some key.bytes := by
  unfold loadOrCreateKey at h
  split at h
  · rename_i bytes hf
    split at h <;> cases h
    exact hf
  · cases hst : write.stop with
    | unopened =>
      rw [hst] at h
      cases h
    | after n =>
      by_cases hle : drawn.bytes.length ≤ n
      · simp only [hst, Operator.fs, if_pos hle] at h
        split at h <;> cases h
        rw [HashTable.find_put, if_pos rfl, List.take_of_length_le hle]
      · simp only [hst, Operator.fs, if_neg hle] at h
        cases h

/-! ## One save -/

/-- A save writes the encrypted snapshot in full, leaves the storage as it was, or
leaves a strict prefix. -/
theorem saveSnapshot_cases (key : Key) (store : HashTable String (List UInt8)) (nonce : Nonce)
    (stop : Stop) (snapshot : StateSnapshot) :
    (∃ plaintext bytes, rmp.toVec snapshot = .ok plaintext ∧
      encrypt aead key nonce plaintext = .ok bytes ∧
      (onDisk reason key stop).saveSnapshot aead rmp store nonce snapshot =
        (.ok (), store.put snapshotFile bytes)) ∨
    (∃ e, (onDisk reason key stop).saveSnapshot aead rmp store nonce snapshot =
      (.error e, store)) ∨
    ∃ plaintext bytes n e, stop = .after n ∧ rmp.toVec snapshot = .ok plaintext ∧
      encrypt aead key nonce plaintext = .ok bytes ∧ n < bytes.length ∧
      (onDisk reason key stop).saveSnapshot aead rmp store nonce snapshot =
        (.error e, store.put snapshotFile (bytes.take n)) := by
  unfold saveSnapshot
  cases hp : rmp.toVec snapshot with
  | error e => exact .inr (.inl ⟨_, rfl⟩)
  | ok plaintext =>
    simp only
    cases he : encrypt aead (onDisk reason key stop).key nonce plaintext with
    | error e => exact .inr (.inl ⟨_, rfl⟩)
    | ok bytes =>
      cases stop with
      | unopened => exact .inr (.inl ⟨_, rfl⟩)
      | after n =>
        by_cases hle : bytes.length ≤ n
        · refine .inl ⟨plaintext, bytes, rfl, he, ?_⟩
          simp only [onDisk, Operator.fs, if_pos hle, List.take_of_length_le hle]
        · refine .inr (.inr ⟨plaintext, bytes, n,
            .stateSnapshotFailed ("writing " ++ snapshotFile ++ ": " ++ reason), rfl, rfl, he,
            Nat.lt_of_not_le hle, ?_⟩)
          simp only [onDisk, Operator.fs, if_neg hle]

/-- A save that is not cut short writes the snapshot in full. -/
theorem saveSnapshot_complete {key : Key} {nonce : Nonce} {snapshot : StateSnapshot}
    {plaintext bytes : List UInt8} {n : Nat} (hp : rmp.toVec snapshot = .ok plaintext)
    (he : encrypt aead key nonce plaintext = .ok bytes) (hle : bytes.length ≤ n)
    (store : HashTable String (List UInt8)) :
    (onDisk reason key (.after n)).saveSnapshot aead rmp store nonce snapshot =
      (.ok (), store.put snapshotFile bytes) := by
  have he' : encrypt aead (onDisk reason key (.after n)).key nonce plaintext = .ok bytes := he
  simp only [saveSnapshot, hp, he']
  simp only [onDisk, Operator.fs, if_pos hle, List.take_of_length_le hle]

/-! ## What the storage holds -/

/-- The snapshot file, read with the key of the storage, as the latest save to
touch it has left it. -/
def Holds (aead : Aead) (rmp : Rmp) (store : HashTable String (List UInt8)) : Last → Prop
  | .never => store.find snapshotFile = none
  | .torn => ∃ key bytes e, store.find keyFile = some key.bytes ∧
    store.find snapshotFile = some bytes ∧ decrypt aead key bytes = .error e
  | .complete app => ∃ key nonce plaintext bytes, store.find keyFile = some key.bytes ∧
    store.find snapshotFile = some bytes ∧ rmp.toVec app.toSnapshot = .ok plaintext ∧
    encrypt aead key nonce plaintext = .ok bytes

theorem Key.ext_bytes {k k' : Key} (h : k.bytes = k'.bytes) : k = k' := by
  cases k
  cases k'
  congr

/-- The daemon's state when a snapshot was taken. -/
def SnapshotOf (aead : Aead) (rmp : Rmp) (reason : String) (ls : List Label) (app : AppState) :
    Prop :=
  ∃ pre post u d, ls = pre ++ .snapshot :: post ∧
    Transition.exec (step aead rmp reason) init pre = some u ∧ u.daemon = some d ∧ d.app = app

theorem SnapshotOf.concat {ls : List Label} {app : AppState}
    (h : SnapshotOf aead rmp reason ls app) (l : Label) :
    SnapshotOf aead rmp reason (ls ++ [l]) app := by
  obtain ⟨pre, post, u, d, rfl, hu, hd, happ⟩ := h
  exact ⟨pre, post ++ [l], u, d, by simp, hu, hd, happ⟩

/-- A state of the daemon, taken at a moment of the run. -/
structure Taken (aead : Aead) (rmp : Rmp) (reason : String) (ls : List Label) (app : AppState) :
    Prop where
  running : app.Running
  moment : SnapshotOf aead rmp reason ls app

theorem Taken.concat {ls : List Label} {app : AppState} (h : Taken aead rmp reason ls app)
    (l : Label) : Taken aead rmp reason (ls ++ [l]) app :=
  ⟨h.running, h.moment.concat l⟩

structure Valid (aead : Aead) (rmp : Rmp) (reason : String) (ls : List Label) (s : System) :
    Prop where
  key : ∀ d, s.daemon = some d → s.store.find keyFile = some d.key.bytes
  running : ∀ d, s.daemon = some d → d.app.Running
  pending : ∀ d app, s.daemon = some d → d.pending = some app → Taken aead rmp reason ls app
  holds : Holds aead rmp s.store s.last
  saved : ∀ app, s.last = .complete app →
    Taken aead rmp reason ls app ∧ ReadBack rmp app.toSnapshot

theorem init_valid : Valid aead rmp reason [] init where
  key _ h := by cases h
  running _ h := by cases h
  pending _ _ h := by cases h
  holds := rfl
  saved _ h := by cases h

/-! ## Starts -/

theorem Key.eq_of_find {store : HashTable String (List UInt8)} {key key' : Key}
    (h : store.find keyFile = some key.bytes) (h' : store.find keyFile = some key'.bytes) :
    key = key' :=
  Key.ext_bytes (Option.some.inj (h.symm.trans h'))

/-- What a load can return. -/
def Loads (rmp : Rmp) (saved : Option StateSnapshot) : Last → Prop
  | .never => saved = none
  | .torn => False
  | .complete app => ∃ plaintext snapshot, rmp.toVec app.toSnapshot = .ok plaintext ∧
    rmp.fromSlice plaintext = .ok snapshot ∧ saved = some snapshot

theorem load_holds {store : HashTable String (List UInt8)} {key : Key} {last : Last}
    (h : Holds aead rmp store last) (hk : store.find keyFile = some key.bytes)
    {saved : Option StateSnapshot}
    (hl : (onDisk reason key .unopened).loadSnapshot aead rmp store = .ok saved) :
    Loads rmp saved last := by
  have hread : ∀ {bytes}, store.find snapshotFile = some bytes →
      (onDisk reason key .unopened).operator.read store snapshotFile = .ok bytes := by
    intro bytes hb
    simp only [onDisk, Operator.fs, Operator.memory, hb]
  cases last with
  | never =>
    have hno : (onDisk reason key .unopened).operator.read store snapshotFile =
        .error .notFound := by
      have hnone : store.find snapshotFile = none := h
      simp only [onDisk, Operator.fs, Operator.memory, hnone]
    rw [loadSnapshot, hno] at hl
    exact (Except.ok.inj hl).symm
  | torn =>
    obtain ⟨key', bytes, e, hk', hb, hd⟩ := h
    obtain rfl := Key.eq_of_find hk hk'
    rw [loadSnapshot, hread hb] at hl
    simp only at hl
    split at hl
    · cases hl
    · rw [show decrypt aead (onDisk reason key .unopened).key bytes = .error e from hd] at hl
      cases hl
  | complete app =>
    obtain ⟨key', nonce, plaintext, bytes, hk', hb, hp, he⟩ := h
    obtain rfl := Key.eq_of_find hk hk'
    have hd := (decrypt_of_encrypt aead he).1
    rw [loadSnapshot, hread hb] at hl
    simp only at hl
    split at hl
    · cases hl
    · rw [show decrypt aead (onDisk reason key .unopened).key bytes = .ok plaintext from hd] at hl
      simp only at hl
      split at hl
      · cases hl
      · rename_i snapshot hs
        exact ⟨plaintext, snapshot, hp, hs, (Except.ok.inj hl).symm⟩

/-- Creating the key keeps what the storage holds. -/
theorem holds_loadOrCreateKey {store : HashTable String (List UInt8)} {last : Last}
    (h : Holds aead rmp store last) (drawn : Key) (write : KeyWrite) :
    Holds aead rmp (loadOrCreateKey reason store drawn write).2 last := by
  cases last with
  | never =>
    rw [Holds, find_loadOrCreateKey]
    exact h
  | torn =>
    obtain ⟨key, _, _, hk, _⟩ := id h
    rw [loadOrCreateKey_of_some hk]
    exact h
  | complete app =>
    obtain ⟨key, _, _, _, hk, _⟩ := id h
    rw [loadOrCreateKey_of_some hk]
    exact h

/-- What a start comes to: it fails, or the daemon is up with the storage's key and
with what the load returned. -/
theorem start_cases (s : System) (hdown : s.daemon = none) (drawn : Key) (write : KeyWrite)
    (ids : String → ToolId) :
    (start aead rmp reason s drawn write ids).store =
      (loadOrCreateKey reason s.store drawn write).2 ∧
    (start aead rmp reason s drawn write ids).last = s.last ∧
    ((start aead rmp reason s drawn write ids).daemon = none ∨
      ∃ key saved, loadOrCreateKey reason s.store drawn write =
          (.ok key, (loadOrCreateKey reason s.store drawn write).2) ∧
        (onDisk reason key .unopened).loadSnapshot aead rmp
          (loadOrCreateKey reason s.store drawn write).2 = .ok saved ∧
        (start aead rmp reason s drawn write ids).daemon =
          some ⟨key, AppState.start saved ids, none⟩) := by
  unfold start
  split
  · rename_i e store hk
    rw [hk]
    exact ⟨rfl, rfl, .inl hdown⟩
  · rename_i key store hk
    rw [hk]
    split
    · exact ⟨rfl, rfl, .inl hdown⟩
    · rename_i saved hl
      exact ⟨rfl, rfl, .inr ⟨key, saved, rfl, hl, rfl⟩⟩

/-- The state a daemon may come up in. -/
def ComesUpAs (ids : String → ToolId) (app : AppState) : Last → Prop
  | .never => app = AppState.start none ids
  | .torn => False
  | .complete taken => app = taken.restart ids

theorem up_comesUpAs {s : System} {ls : List Label} (h : Valid aead rmp reason ls s)
    (hdown : s.daemon = none) {drawn : Key} {write : KeyWrite} {ids : String → ToolId} {d : Daemon}
    (hd : (start aead rmp reason s drawn write ids).daemon = some d) :
    ComesUpAs ids d.app s.last := by
  obtain ⟨-, -, hnone | ⟨key, saved, hk, hl, hup⟩⟩ :=
    @start_cases aead rmp reason s hdown drawn write ids
  · rw [hnone] at hd
    cases hd
  · have hholds := @holds_loadOrCreateKey aead rmp reason _ _ h.holds drawn write
    have hload := load_holds hholds (loadOrCreateKey_ok hk) hl
    rw [hup, Option.some.injEq] at hd
    subst hd
    cases hlast : s.last with
    | never =>
      rw [hlast] at hload
      exact congrArg (fun saved => AppState.start saved ids) hload
    | torn =>
      rw [hlast] at hload
      exact hload
    | complete app =>
      rw [hlast] at hload
      obtain ⟨plaintext, snapshot, hp, hs, rfl⟩ := hload
      rw [(h.saved app hlast).2 plaintext snapshot hp hs]
      rfl

theorem start_valid {s : System} {ls : List Label} (h : Valid aead rmp reason ls s)
    (hdown : s.daemon = none) (drawn : Key) (write : KeyWrite) {ids : String → ToolId}
    (hids : AppState.FreshIds ids .new) (l : Label) :
    Valid aead rmp reason (ls ++ [l]) (start aead rmp reason s drawn write ids) := by
  obtain ⟨hstore, hlast, hup⟩ :=
    @start_cases aead rmp reason s hdown drawn write ids
  refine ⟨fun d hd => ?_, fun d hd => ?_, fun d app hd hp => ?_, ?_, fun app ha => ?_⟩
  · rcases hup with hno | ⟨key, saved, hk, -, hup⟩
    · rw [hno] at hd
      cases hd
    · rw [hup, Option.some.injEq] at hd
      subst hd
      rw [hstore]
      exact loadOrCreateKey_ok hk
  · have hans := up_comesUpAs h hdown hd
    cases hlast' : s.last with
    | never =>
      rw [hlast'] at hans
      exact hans ▸ AppState.start_running hids
    | torn =>
      rw [hlast'] at hans
      exact hans.elim
    | complete app =>
      rw [hlast'] at hans
      exact hans ▸ (AppState.restart_running (h.saved app hlast').1.running ids).1
  · rcases hup with hno | ⟨key, saved, -, -, hup⟩
    · rw [hno] at hd
      cases hd
    · rw [hup, Option.some.injEq] at hd
      subst hd
      cases hp
  · rw [hstore, hlast]
    exact holds_loadOrCreateKey h.holds drawn write
  · obtain ⟨ht, hb⟩ := h.saved app (hlast ▸ ha)
    exact ⟨ht.concat l, hb⟩

/-! ## Every run -/

theorem find_put_snapshot (store : HashTable String (List UInt8)) (bytes : List UInt8) :
    (store.put snapshotFile bytes).find keyFile = store.find keyFile := by
  rw [HashTable.find_put, if_neg (Ne.symm snapshotFile_ne_keyFile)]

/-- What a torn save has left is refused. -/
theorem decrypt_torn {key : Key} {nonce : Nonce} {snapshot : StateSnapshot}
    {plaintext bytes : List UInt8} {n : Nat}
    (hint : TearRefused aead rmp key nonce (.after n) snapshot)
    (hp : rmp.toVec snapshot = .ok plaintext) (he : encrypt aead key nonce plaintext = .ok bytes)
    (hn : n < bytes.length) : ∃ e, decrypt aead key (bytes.take n) = .error e := by
  unfold encrypt at he
  split at he
  · rename_i ciphertext hc
    cases he
    have hnonce := nonce.length_eq
    rw [List.length_append, hnonce] at hn
    unfold decrypt
    split
    · rename_i hle
      have hlen : nonceLen ≤ n := by
        rw [List.length_take] at hle
        omega
      have htake : ((nonce.bytes ++ ciphertext).take n).take nonceLen = nonce.bytes := by
        rw [List.take_take, Nat.min_eq_left hlen, List.take_left' hnonce]
      have hdrop : ((nonce.bytes ++ ciphertext).take n).drop nonceLen =
          ciphertext.take (n - nonceLen) := by
        rw [List.drop_take, List.drop_left' hnonce]
      simp only [htake, hdrop, hint plaintext ciphertext n hp hc rfl hn]
      exact ⟨_, rfl⟩
    · exact ⟨_, rfl⟩
  · cases he

theorem save_valid {s : System} {ls : List Label} (h : Valid aead rmp reason ls s) {d : Daemon}
    {app : AppState} (hd : s.daemon = some d) (hp : d.pending = some app) {nonce : Nonce}
    (hread : ReadBack rmp app.toSnapshot)
    {stop : Stop} (hint : TearRefused aead rmp d.key nonce stop app.toSnapshot) (l : Label) :
    Valid aead rmp reason (ls ++ [l]) (save aead rmp reason s d app nonce stop) := by
  have hkey := h.key d hd
  have hrun := h.running d hd
  have htaken := (h.pending d app hd hp).concat l
  have hsaved (app' : AppState) (ha : s.last = .complete app') :
      Taken aead rmp reason (ls ++ [l]) app' ∧ ReadBack rmp app'.toSnapshot :=
    ⟨(h.saved app' ha).1.concat l, (h.saved app' ha).2⟩
  rcases @saveSnapshot_cases aead rmp reason d.key s.store nonce stop app.toSnapshot with
    ⟨plaintext, bytes, hp', he, hr⟩ | ⟨e, hr⟩ | ⟨plaintext, bytes, n, e, hst, hp', he, hn, hr⟩ <;>
    simp only [save, hr, ↓reduceIte]
  · refine ⟨fun d' hd' => ?_, fun d' hd' => ?_, fun d' a hd' ha => ?_, ?_, fun a ha => ?_⟩
    · cases hd'
      exact (find_put_snapshot s.store bytes).trans hkey
    · cases hd'
      exact hrun
    · cases hd'
      cases ha
    · exact ⟨d.key, nonce, plaintext, bytes, (find_put_snapshot s.store bytes).trans hkey,
        by rw [HashTable.find_put, if_pos rfl], hp', he⟩
    · cases ha
      exact ⟨htaken, hread⟩
  · refine ⟨fun d' hd' => ?_, fun d' hd' => ?_, fun d' a hd' ha => ?_, h.holds, hsaved⟩
    · cases hd'
      exact hkey
    · cases hd'
      exact hrun
    · cases hd'
      cases ha
  · refine ⟨fun d' hd' => ?_, fun d' hd' => ?_, fun d' a hd' ha => ?_, ?_, fun a ha => ?_⟩
    · cases hd'
      exact (find_put_snapshot s.store _).trans hkey
    · cases hd'
      exact hrun
    · cases hd'
      cases ha
    · have hkey' := (find_put_snapshot s.store (bytes.take n)).trans hkey
      split
      · -- the file is what it was
        rename_i hsame
        have hfind (file : String) (hf : file = keyFile ∨ file = snapshotFile) :
            (s.store.put snapshotFile (bytes.take n)).find file = s.store.find file := by
          rcases hf with rfl | rfl
          · exact find_put_snapshot s.store _
          · exact hsame
        have hholds := h.holds
        cases hlast : s.last with
        | never =>
          rw [hlast] at hholds
          exact (hfind _ (.inr rfl)).trans hholds
        | torn =>
          rw [hlast] at hholds
          obtain ⟨key, b, e', hk, hb, hd'⟩ := hholds
          exact ⟨key, b, e', (hfind _ (.inl rfl)).trans hk, (hfind _ (.inr rfl)).trans hb, hd'⟩
        | complete app' =>
          rw [hlast] at hholds
          obtain ⟨key, nonce', p, b, hk, hb, hrest⟩ := hholds
          exact ⟨key, nonce', p, b, (hfind _ (.inl rfl)).trans hk,
            (hfind _ (.inr rfl)).trans hb, hrest⟩
      · obtain ⟨e', hd'⟩ := decrypt_torn (hst ▸ hint) hp' he hn
        exact ⟨d.key, bytes.take n, e', hkey', by rw [HashTable.find_put, if_pos rfl], hd'⟩
    · split at ha
      · exact hsaved a ha
      · cases ha

theorem step_valid {s t : System} {ls : List Label} {l : Label}
    (hrun : Transition.exec (step aead rmp reason) init ls = some s)
    (h : Valid aead rmp reason ls s) (hg : Sound aead rmp s l)
    (hs : step aead rmp reason s l = some t) : Valid aead rmp reason (ls ++ [l]) t := by
  have hsaved (app : AppState) (ha : s.last = .complete app) :
      Taken aead rmp reason (ls ++ [l]) app ∧ ReadBack rmp app.toSnapshot :=
    ⟨(h.saved app ha).1.concat l, (h.saved app ha).2⟩
  cases l with
  | start drawn write ids =>
    simp only [step] at hs
    split at hs <;> cases hs
    rename_i hdown
    exact start_valid h hdown drawn write hg _
  | op op =>
    simp only [step] at hs
    split at hs
    · cases hs
    · cases hs
    · rename_i op d hd _
      obtain ⟨app, happ, rfl⟩ := Option.map_eq_some_iff.mp hs
      refine ⟨fun d' hd' => ?_, fun d' hd' => ?_, fun d' a hd' ha => ?_, h.holds, hsaved⟩
      · cases hd'
        exact h.key d hd
      · cases hd'
        exact AppState.apply_running (h.running d hd) happ
      · cases hd'
        exact (h.pending d a hd ha).concat _
  | snapshot =>
    simp only [step] at hs
    split at hs <;> cases hs
    rename_i d hd
    refine ⟨fun d' hd' => ?_, fun d' hd' => ?_, fun d' a hd' ha => ?_, h.holds, hsaved⟩
    · cases hd'
      exact h.key d hd
    · cases hd'
      exact h.running d hd
    · cases hd'
      cases ha
      exact ⟨h.running d hd, ls, [], s, d, rfl, hrun, hd, rfl⟩
  | save nonce stop =>
    simp only [step] at hs
    split at hs
    · cases hs
    · rename_i d hd
      obtain ⟨app, hp, rfl⟩ := Option.map_eq_some_iff.mp hs
      obtain ⟨hread, hint⟩ := hg d app hd hp
      exact save_valid h hd hp hread hint _
  | die =>
    cases hs
    exact ⟨fun _ hd => (by cases hd), fun _ hd => (by cases hd), fun _ _ hd => (by cases hd),
      h.holds, hsaved⟩

theorem run_valid {s : System} {ls : List Label}
    (hrun : Transition.exec (step aead rmp reason) init ls = some s)
    (hg : Transition.EachStep (step aead rmp reason) (fun _ => Sound aead rmp) init ls) :
    Valid aead rmp reason ls s := by
  refine Transition.history_induction
    (P := fun ls s => Transition.EachStep (step aead rmp reason) (fun _ => Sound aead rmp) init ls →
      Valid aead rmp reason ls s) (fun _ => init_valid) ?_ hrun hg
  intro ls s l t hs ih hl hg
  exact step_valid hs (ih hg.of_concat) (hg.last hs) hl

/-- A snapshot that can be read back brings the daemon up. -/
theorem up_of_readable {s : System} {ls : List Label} (h : Valid aead rmp reason ls s)
    {app : AppState} (hlast : s.last = .complete app) (hread : Readable rmp app.toSnapshot)
    (drawn : Key) (write : KeyWrite) (ids : String → ToolId) :
    ∃ d, (start aead rmp reason s drawn write ids).daemon = some d := by
  have hholds := h.holds
  rw [hlast] at hholds
  obtain ⟨key, nonce, plaintext, bytes, hk, hb, hp, he⟩ := hholds
  obtain ⟨plaintext', hp', hfrom, hlen⟩ := hread
  obtain rfl := Except.ok.inj (hp.symm.trans hp')
  have hkey : loadOrCreateKey reason s.store drawn write = (.ok key, s.store) := by
    unfold loadOrCreateKey
    rw [hk]
    exact dif_pos key.length_eq
  have hr : (onDisk reason key .unopened).operator.read s.store snapshotFile = .ok bytes := by
    simp only [onDisk, Operator.fs, Operator.memory, hb]
  have hload : (onDisk reason key .unopened).loadSnapshot aead rmp s.store =
      .ok (some app.toSnapshot) :=
    (loadSnapshot_encrypted he hr app.toSnapshot).mpr ⟨hlen, hfrom⟩
  exact ⟨⟨key, AppState.start (some app.toSnapshot) ids, none⟩, by
    simp only [start, hkey, hload]⟩

/-- In every run, whatever the daemon dies of and wherever its saves stop: a start
is of a first daemon if no save has touched the snapshot file; it fails if the
latest one to do so was torn; otherwise the daemon that comes up answers every
query as it did when the latest saved snapshot was taken, and it does come up if
that snapshot can be read back. -/
theorem comes_up_as_last_saved (aead : Aead) (rmp : Rmp) (reason : String) (ls : List Label)
    (s : System) (hrun : Transition.exec (step aead rmp reason) init ls = some s)
    (hg : Transition.EachStep (step aead rmp reason) (fun _ => Sound aead rmp) init ls)
    (hdown : s.daemon = none) (drawn : Key) (write : KeyWrite) (ids : String → ToolId) :
    match s.last with
    | .never => ∀ d, (start aead rmp reason s drawn write ids).daemon = some d →
      d.app = AppState.start none ids
    | .torn => (start aead rmp reason s drawn write ids).daemon = none
    | .complete app => SnapshotOf aead rmp reason ls app ∧
      (Readable rmp app.toSnapshot →
        ∃ d, (start aead rmp reason s drawn write ids).daemon = some d) ∧
      ∀ d, (start aead rmp reason s drawn write ids).daemon = some d →
        AppState.SameAnswers d.app app := by
  have hv := run_valid hrun hg
  have hup (d : Daemon) (hd : (start aead rmp reason s drawn write ids).daemon = some d) :=
    up_comesUpAs hv hdown hd
  cases hlast : s.last with
  | never =>
    simp only [hlast] at hup
    exact hup
  | torn =>
    simp only [hlast] at hup
    exact Option.eq_none_iff_forall_not_mem.mpr hup
  | complete app =>
    simp only [hlast] at hup
    have ht := (hv.saved app hlast).1
    refine ⟨ht.moment, fun hread => up_of_readable hv hlast hread drawn write ids, ?_⟩
    intro d hd
    obtain ⟨hr, hl⟩ := AppState.restart_running ht.running ids
    have happ : d.app = app.restart ids := hup d hd
    exact happ ▸ hl.answers hr.valid ht.running.valid

/-! ## The key -/

/-- A key file that exists is never changed. -/
theorem step_keyFile {s t : System} {l : Label} {bytes : List UInt8}
    (h : s.store.find keyFile = some bytes) (hs : step aead rmp reason s l = some t) :
    t.store.find keyFile = some bytes := by
  cases l with
  | start drawn write ids =>
    simp only [step] at hs
    split at hs <;> cases hs
    rename_i hdown
    rw [(start_cases s hdown drawn write ids).1, loadOrCreateKey_of_some h]
    exact h
  | op op =>
    simp only [step] at hs
    split at hs
    · cases hs
    · cases hs
    · obtain ⟨app, _, rfl⟩ := Option.map_eq_some_iff.mp hs
      exact h
  | snapshot =>
    simp only [step] at hs
    split at hs <;> cases hs
    exact h
  | save nonce stop =>
    simp only [step] at hs
    split at hs
    · cases hs
    · rename_i d hd
      obtain ⟨app, hp, rfl⟩ := Option.map_eq_some_iff.mp hs
      rcases @saveSnapshot_cases aead rmp reason d.key s.store nonce stop app.toSnapshot with
        ⟨_, _, _, _, hr⟩ | ⟨e, hr⟩ | ⟨_, _, _, e, _, _, _, _, hr⟩ <;> simp only [save, hr]
      · rw [find_put_snapshot]
        exact h
      · exact h
      · rw [find_put_snapshot]
        exact h
  | die =>
    cases hs
    exact h

theorem exec_keyFile {s t : System} {ls : List Label} {bytes : List UInt8}
    (h : s.store.find keyFile = some bytes)
    (hrun : Transition.exec (step aead rmp reason) s ls = some t) :
    t.store.find keyFile = some bytes :=
  Transition.invariant (P := fun s => s.store.find keyFile = some bytes)
    (fun _ _ _ => step_keyFile) h hrun

/-- A daemon's key is in the key file. -/
theorem step_daemon_key {s t : System} {l : Label}
    (h : ∀ d, s.daemon = some d → s.store.find keyFile = some d.key.bytes)
    (hs : step aead rmp reason s l = some t) :
    ∀ d, t.daemon = some d → t.store.find keyFile = some d.key.bytes := by
  intro d' hd'
  cases l with
  | start drawn write ids =>
    simp only [step] at hs
    split at hs <;> cases hs
    rename_i hdown
    obtain ⟨hstore, -, hno | ⟨key, saved, hk, -, hup⟩⟩ :=
      @start_cases aead rmp reason s hdown drawn write ids
    · rw [hno] at hd'
      cases hd'
    · rw [hup, Option.some.injEq] at hd'
      subst hd'
      rw [hstore]
      exact loadOrCreateKey_ok hk
  | op op =>
    simp only [step] at hs
    split at hs
    · cases hs
    · cases hs
    · rename_i op d hd _
      obtain ⟨app, _, rfl⟩ := Option.map_eq_some_iff.mp hs
      cases hd'
      exact h d hd
  | snapshot =>
    simp only [step] at hs
    split at hs <;> cases hs
    rename_i d hd
    cases hd'
    exact h d hd
  | save nonce stop =>
    have hs' := hs
    simp only [step] at hs
    split at hs
    · cases hs
    · rename_i d hd
      obtain ⟨app, hp, rfl⟩ := Option.map_eq_some_iff.mp hs
      cases hd'
      exact step_keyFile (h d hd) hs'
  | die =>
    cases hs
    cases hd'

/-- The key is settled by the first write of its file: daemons that are up at two
moments of a run have the same key, and a key file cut short keeps every later
daemon from coming up. -/
theorem key_settled (aead : Aead) (rmp : Rmp) (reason : String) (ls ms : List Label)
    (s t : System) (hrun : Transition.exec (step aead rmp reason) init ls = some s)
    (hmore : Transition.exec (step aead rmp reason) s ms = some t) :
    (∀ d d', s.daemon = some d → t.daemon = some d' → d.key = d'.key) ∧
    ∀ bytes, s.store.find keyFile = some bytes → bytes.length ≠ 32 → t.daemon = none := by
  have hkey {ls : List Label} {u : System}
      (hu : Transition.exec (step aead rmp reason) init ls = some u) :
      ∀ d, u.daemon = some d → u.store.find keyFile = some d.key.bytes :=
    Transition.invariant
      (P := fun u => ∀ d, u.daemon = some d → u.store.find keyFile = some d.key.bytes)
      (fun _ _ _ => step_daemon_key) (fun d hd => by cases hd) hu
  have ht := hkey (Transition.exec_trans hrun hmore)
  constructor
  · intro d d' hd hd'
    exact Key.eq_of_find (exec_keyFile (hkey hrun d hd) hmore) (ht d' hd')
  · intro bytes hb hlen
    refine Option.eq_none_iff_forall_ne_some.mpr fun d hd => hlen ?_
    have hd' := ht d hd
    rw [exec_keyFile hb hmore, Option.some.injEq] at hd'
    rw [hd']
    exact d.key.length_eq

/-! ## A daemon that saves once and dies -/

/-- MessagePack misreads no snapshot without null metadata. -/
theorem readBack_messagePack {txt : TextForms} (now : DateTime) {snapshot : StateSnapshot}
    (hlen : (snapshot.toVec MessagePack.format txt).length < 2 ^ 32)
    (hn : snapshot.normalize = snapshot) : ReadBack (.messagePack txt now) snapshot := by
  rintro plaintext read ⟨⟩ hread
  exact ((Rmp.messagePack_fromSlice_iff now hlen read).mp hread).1.trans hn

section

/-- The state that is saved: every store has an entry. -/
def sampleApp : AppState := .sampleFilled

def sampleStart : Label := .start sampleManager.key ⟨.after 32, .ok ()⟩ AppState.sampleIds

def sampleWork : List Label := sampleStart :: AppState.sampleOps.map .op

def sampleRun : List Label := sampleWork ++ [.snapshot, .save sampleNonce (.after 4096), .die]

theorem sampleApp_length :
    (sampleApp.toSnapshot.toVec MessagePack.format .plain).length + 28 ≤ 4096 := by
  decide +kernel

theorem sampleApp_aligned : ∀ c ∈ sampleApp.toSnapshot.pushNotifications, c.Aligned := by
  intro c hc
  obtain rfl := List.mem_singleton.mp (show c ∈ [_] from hc)
  exact fun _ => rfl

theorem sampleApp_fromSlice : (Rmp.messagePack .plain 0).fromSlice
    (sampleApp.toSnapshot.toVec MessagePack.format .plain) = .ok sampleApp.toSnapshot := by
  have hlen := sampleApp_length
  exact Rmp.messagePack_fromSlice 0 (by omega) rfl sampleApp_aligned

/-- The storage with its key file. -/
def sampleStore : HashTable String (List UInt8) := .put .empty keyFile sampleManager.key.bytes

theorem sampleStart_up : start .aes256Gcm (.messagePack .plain 0) "no space left on device" init
    sampleManager.key ⟨.after 32, .ok ()⟩ AppState.sampleIds =
      ⟨sampleStore, some ⟨sampleManager.key, .start none AppState.sampleIds, none⟩, .never⟩ := by
  rfl

/-- The daemon is up with the state that the save is to keep. -/
theorem sampleWork_run : Transition.exec
    (step .aes256Gcm (.messagePack .plain 0) "no space left on device") init sampleWork =
      some ⟨sampleStore, some ⟨sampleManager.key, sampleApp, none⟩, .never⟩ := by
  rw [sampleWork, Transition.exec, show step _ _ _ init sampleStart = _ from
    congrArg some sampleStart_up]
  rfl

theorem sampleSave_ok : ∃ store,
    (onDisk "no space left on device" sampleManager.key (.after 4096)).saveSnapshot .aes256Gcm
      (.messagePack .plain 0) sampleStore sampleNonce sampleApp.toSnapshot = (.ok (), store) := by
  have hlen := sampleApp_length
  have hmax : (sampleApp.toSnapshot.toVec MessagePack.format .plain).length ≤ Gcm.maxPlaintext := by
    have hgcm : Gcm.maxPlaintext = 2 ^ 36 := rfl
    omega
  obtain ⟨ciphertext, hc⟩ := Option.isSome_iff_exists.mp
    (Gcm.encrypt_isSome (Aes256.encryptBlock sampleManager.key.bytes) sampleNonce.bytes hmax)
  have he : encrypt .aes256Gcm sampleManager.key sampleNonce
      (sampleApp.toSnapshot.toVec MessagePack.format .plain) =
        .ok (sampleNonce.bytes ++ ciphertext) := by
    simp only [encrypt, Aead.aes256Gcm, hc]
  have hle := (decrypt_of_encrypt _ he).2
  exact ⟨_, saveSnapshot_complete rfl he (by omega) sampleStore⟩

theorem sampleRun_sound : Transition.EachStep
    (step .aes256Gcm (.messagePack .plain 0) "no space left on device")
    (fun _ => Sound .aes256Gcm (.messagePack .plain 0)) init sampleRun := by
  have hwork : Transition.EachStep (step .aes256Gcm (.messagePack .plain 0)
      "no space left on device") (fun _ => Sound .aes256Gcm (.messagePack .plain 0)) init
      sampleWork := by
    refine .of_forall fun l hl s => ?_
    rcases List.mem_cons.mp hl with rfl | hl
    · exact AppState.sampleIds_fresh
    · obtain ⟨op, -, rfl⟩ := List.mem_map.mp hl
      trivial
  have hlen := sampleApp_length
  have hread : ReadBack (.messagePack .plain 0) sampleApp.toSnapshot :=
    readBack_messagePack 0 (by omega) rfl
  refine hwork.append sampleWork_run (.next trivial rfl (.cons ?_ fun v _ => .of_forall ?_))
  · rintro d app ⟨⟩ ⟨⟩
    refine ⟨hread, ?_⟩
    -- the save is complete
    rintro plaintext ciphertext n ⟨⟩ hc ⟨⟩ hn
    have hcl : ciphertext.length =
      (sampleApp.toSnapshot.toVec MessagePack.format .plain).length + 16 :=
        Aead.length_encrypt _ hc
    have hn12 : nonceLen = 12 := rfl
    omega
  · intro l hl s
    rw [List.mem_singleton.mp hl]
    trivial

/-- The daemon that is started after the save answers as the first one did. -/
theorem sample_comes_up : ∃ s,
    Transition.exec (step .aes256Gcm (.messagePack .plain 0) "no space left on device") init
      sampleRun = some s ∧ s.last = .complete sampleApp ∧
    ∃ d, (start .aes256Gcm (.messagePack .plain 0) "no space left on device" s sampleManager.key
      ⟨.unopened, .ok ()⟩ AppState.sampleIds).daemon = some d ∧
      AppState.SameAnswers d.app sampleApp := by
  obtain ⟨store, hsave⟩ := sampleSave_ok
  have hrun : Transition.exec (step .aes256Gcm (.messagePack .plain 0) "no space left on device")
      init sampleRun = some ⟨store, none, .complete sampleApp⟩ := by
    have hsaved : save .aes256Gcm (.messagePack .plain 0) "no space left on device"
        ⟨sampleStore, some ⟨sampleManager.key, sampleApp, some sampleApp⟩, .never⟩
        ⟨sampleManager.key, sampleApp, some sampleApp⟩ sampleApp sampleNonce (.after 4096) =
          ⟨store, some ⟨sampleManager.key, sampleApp, none⟩, .complete sampleApp⟩ := by
      simp only [save, hsave]
    have hdead : Transition.exec
        (step .aes256Gcm (.messagePack .plain 0) "no space left on device")
        ⟨sampleStore, some ⟨sampleManager.key, sampleApp, none⟩, .never⟩
        [.snapshot, .save sampleNonce (.after 4096), .die] =
          some ⟨store, none, .complete sampleApp⟩ := by
      simp only [Transition.exec, step, Option.bind_some, Option.map_some, hsaved]
    exact Transition.exec_trans sampleWork_run hdead
  have hup := comes_up_as_last_saved .aes256Gcm (.messagePack .plain 0) "no space left on device"
    sampleRun _ hrun sampleRun_sound rfl sampleManager.key ⟨.unopened, .ok ()⟩ AppState.sampleIds
  obtain ⟨d, hd⟩ := hup.2.1 ⟨_, rfl, sampleApp_fromSlice, by
    have hlen := sampleApp_length
    have hmax : maxSnapshotSize = 67108864 := rfl
    omega⟩
  exact ⟨_, hrun, rfl, d, hd, hup.2.2 d hd⟩

/-- The first start dies with seven bytes of the key written. -/
theorem sample_key_torn : ∃ s t,
    Transition.exec (step .aes256Gcm (.messagePack .plain 0) "no space left on device") init
      [.start sampleManager.key ⟨.after 7, .ok ()⟩ AppState.sampleIds, .die] = some s ∧
    Transition.exec (step .aes256Gcm (.messagePack .plain 0) "no space left on device") s
      [sampleStart] = some t ∧ t.daemon = none :=
  ⟨_, _, rfl, rfl, (key_settled .aes256Gcm (.messagePack .plain 0) "no space left on device"
    [.start sampleManager.key ⟨.after 7, .ok ()⟩ AppState.sampleIds, .die] [sampleStart] _ _
    rfl rfl).2 (sampleManager.key.bytes.take 7) rfl (by decide)⟩

end

end Recovery

end Trumpet
