import Trumpet.Lib.KeyedMap
import Trumpet.State.Crypto
import Trumpet.State.RoundTrip

/-! Saving a snapshot to the storage and loading it again. -/

namespace Trumpet

def snapshotFile : String := "snapshot.enc"

/-- 64 MiB -/
def maxSnapshotSize : Nat := 64 * 1024 * 1024

inductive ReadError where
  | notFound
  | other (reason : String)

/-- A storage operator over the storage `σ`, of which it is used that reading
returns the bytes written. -/
structure Operator (σ : Type) where
  write : σ → String → List UInt8 → Except String Unit × σ
  read : σ → String → Except ReadError (List UInt8)
  read_write : ∀ {store store' path bytes},
    write store path bytes = (.ok (), store') → read store' path = .ok bytes

/-- `rmp_serde` on snapshots. -/
structure Rmp where
  toVec : StateSnapshot → Except String (List UInt8)
  fromSlice : List UInt8 → Except String StateSnapshot

structure StateManager (σ : Type) where
  operator : Operator σ
  key : Key

namespace StateManager

variable {σ : Type} (aead : Aead) (rmp : Rmp)

/-- Serialize, encrypt, and persist `snapshot`. -/
def saveSnapshot (self : StateManager σ) (store : σ) (nonce : Nonce) (snapshot : StateSnapshot) :
    Except Error Unit × σ :=
  match rmp.toVec snapshot with
  | .error e => (.error (.stateSnapshotFailed ("encoding snapshot: " ++ e)), store)
  | .ok plaintext =>
    match encrypt aead self.key nonce plaintext with
    | .error e => (.error e, store)
    | .ok encrypted =>
      match self.operator.write store snapshotFile encrypted with
      | (.error e, store) =>
        (.error (.stateSnapshotFailed ("writing " ++ snapshotFile ++ ": " ++ e)), store)
      | (.ok (), store) => (.ok (), store)

/-- Load, decrypt, and deserialize the most recent snapshot; nothing when there is
no snapshot file. -/
def loadSnapshot (self : StateManager σ) (store : σ) : Except Error (Option StateSnapshot) :=
  match self.operator.read store snapshotFile with
  | .ok bytes =>
    if bytes.length > maxSnapshotSize then
      .error (.stateRestoreFailed ("snapshot too large (" ++ toString bytes.length ++
        " bytes, max " ++ toString maxSnapshotSize ++ ")"))
    else
      match decrypt aead self.key bytes with
      | .error e => .error e
      | .ok plaintext =>
        match rmp.fromSlice plaintext with
        | .error e => .error (.stateRestoreFailed ("decoding snapshot: " ++ e))
        | .ok snapshot => .ok (some snapshot)
  | .error .notFound => .ok none
  | .error (.other e) =>
    .error (.stateRestoreFailed ("reading " ++ snapshotFile ++ ": " ++ e))

variable {aead rmp}

/-- A successful save has written the encrypted encoding. -/
theorem saveSnapshot_ok {self : StateManager σ} {store store' : σ} {nonce : Nonce}
    {snapshot : StateSnapshot}
    (h : self.saveSnapshot aead rmp store nonce snapshot = (.ok (), store')) :
    ∃ plaintext encrypted, rmp.toVec snapshot = .ok plaintext ∧
      encrypt aead self.key nonce plaintext = .ok encrypted ∧
      self.operator.read store' snapshotFile = .ok encrypted := by
  unfold saveSnapshot at h
  split at h
  · cases h
  · rename_i plaintext hp
    split at h
    · cases h
    · rename_i encrypted he
      split at h
      · cases h
      · rename_i store'' hw
        cases h
        exact ⟨plaintext, encrypted, hp, he, self.operator.read_write hw⟩

/-- What a load after a successful save returns, where the codec reads the
snapshot back. -/
theorem loadSnapshot_saved {self : StateManager σ} {store store' : σ} {nonce : Nonce}
    {snapshot : StateSnapshot} {plaintext : List UInt8}
    (hp : rmp.toVec snapshot = .ok plaintext) (hr : rmp.fromSlice plaintext = .ok snapshot)
    (h : self.saveSnapshot aead rmp store nonce snapshot = (.ok (), store')) :
    self.loadSnapshot aead rmp store' =
      if plaintext.length + 28 > maxSnapshotSize then
        .error (.stateRestoreFailed ("snapshot too large (" ++ toString (plaintext.length + 28) ++
          " bytes, max " ++ toString maxSnapshotSize ++ ")"))
      else .ok (some snapshot) := by
  obtain ⟨plaintext', encrypted, hp', he, hread⟩ := saveSnapshot_ok h
  obtain rfl : plaintext' = plaintext := by
    rw [hp] at hp'
    exact (Except.ok.inj hp').symm
  obtain ⟨hd, hlen⟩ := decrypt_of_encrypt aead he
  simp only [loadSnapshot, hread, hlen, hd, hr]

/-- After a successful save the load returns the snapshot exactly when its
encoding, with nonce and tag, is within the size limit. -/
theorem load_after_save_iff (self : StateManager σ) {store store' : σ} {nonce : Nonce}
    {snapshot : StateSnapshot} {plaintext : List UInt8}
    (hp : rmp.toVec snapshot = .ok plaintext) (hr : rmp.fromSlice plaintext = .ok snapshot)
    (h : self.saveSnapshot aead rmp store nonce snapshot = (.ok (), store')) :
    self.loadSnapshot aead rmp store' = .ok (some snapshot) ↔
      plaintext.length + 28 ≤ maxSnapshotSize := by
  rw [loadSnapshot_saved hp hr h]
  constructor
  · intro he
    split at he
    · cases he
    · omega
  · intro hle
    rw [if_neg (by omega)]

end StateManager

/-! ## A snapshot that is saved and cannot be loaded -/

/-- A file store in memory, whose writes succeed. -/
def Operator.memory : Operator (HashTable String (List UInt8)) where
  write store path bytes := (.ok (), store.put path bytes)
  read store path :=
    match store.find path with
    | some bytes => .ok bytes
    | none => .error .notFound
  read_write {store store' path bytes} h := by
    cases h
    simp only [HashTable.find_put, if_true]

/-- The codec over MessagePack. -/
def Rmp.messagePack (txt : TextForms) (now : DateTime) : Rmp where
  toVec s := .ok (s.toVec MessagePack.format txt)
  fromSlice bytes :=
    (StateSnapshot.fromSlice MessagePack.format txt now bytes).mapError Wire.DecodeError.message

theorem Rmp.messagePack_fromSlice_iff {txt : TextForms} {s : StateSnapshot} (now : DateTime)
    (hlen : (s.toVec MessagePack.format txt).length < 2 ^ 32) (t : StateSnapshot) :
    (messagePack txt now).fromSlice (s.toVec MessagePack.format txt) = .ok t ↔
      t = s.normalize ∧ ∀ c ∈ s.pushNotifications, c.Aligned := by
  have hf : MessagePack.format.Frames (s.toValue txt) := MessagePack.format_frames hlen
  rw [← StateSnapshot.fromSlice_toVec hf now t]
  simp only [messagePack]
  cases StateSnapshot.fromSlice MessagePack.format txt now (s.toVec MessagePack.format txt) with
  | error e => exact iff_of_false nofun nofun
  | ok read => simp only [Except.mapError, Except.ok.injEq]

theorem Rmp.messagePack_fromSlice {txt : TextForms} {s : StateSnapshot} (now : DateTime)
    (hlen : (s.toVec MessagePack.format txt).length < 2 ^ 32) (hn : s.normalize = s)
    (ha : ∀ c ∈ s.pushNotifications, c.Aligned) :
    (messagePack txt now).fromSlice (s.toVec MessagePack.format txt) = .ok s :=
  (messagePack_fromSlice_iff now hlen s).mpr ⟨hn.symm, ha⟩

namespace StateManager

def bulkUrl (n : Nat) : String :=
  "https://example.com/" ++ String.ofList (List.replicate n 'a')

def bulkConfig (n i : Nat) : PushNotificationConfig :=
  { id := ⟨Uuid.ofOctet (UInt8.ofNat i)⟩
    taskId := ⟨Uuid.ofOctet 1⟩
    url := bulkUrl n
    token := ""
    authentication := none }

/-- A snapshot of `k` webhooks of `n` bytes. -/
def bulk (k n : Nat) : StateSnapshot :=
  { agents := []
    tools := []
    conversations := []
    messages := []
    tasks := []
    pushNotifications := (List.range k).map (bulkConfig n) }

section
open MessagePack Wire

theorem length_path (n : Nat) : (utf8 (String.ofList (List.replicate n 'a'))).length = n := by
  have hchar : (String.utf8EncodeChar 'a').length = 1 := by decide
  have hpath : (List.replicate n 'a').length * 1 ≤
        ((List.replicate n 'a').flatMap String.utf8EncodeChar).length ∧
      ((List.replicate n 'a').flatMap String.utf8EncodeChar).length ≤
        (List.replicate n 'a').length * 1 :=
    flatMap_bounds fun c hc => by
      obtain rfl := List.eq_of_mem_replicate hc
      omega
  rw [List.length_replicate] at hpath
  rw [utf8_ofList]
  omega

theorem length_append_path {base : String} {k : Nat} (h : (utf8 base).length = k) (n : Nat) :
    (utf8 (base ++ String.ofList (List.replicate n 'a'))).length = k + n := by
  rw [utf8_append, List.length_append, h, length_path]

theorem length_bulkUrl (n : Nat) : (utf8 (bulkUrl n)).length = 20 + n :=
  length_append_path (by decide +kernel) n

theorem bulkConfig_bounds (n i : Nat) :
    n ≤ (write (PushNotificationConfig.codec.write (bulkConfig n i))).length ∧
      (write (PushNotificationConfig.codec.write (bulkConfig n i))).length ≤ n + 100 := by
  have hid := write_bin_bounds (Uuid.ofOctet (UInt8.ofNat i)).bytes
  have htask := write_bin_bounds (Uuid.ofOctet 1).bytes
  have hurl := write_str_bounds (bulkUrl n)
  have hvalue : PushNotificationConfig.codec.write (bulkConfig n i) =
      .array [.bin (Uuid.ofOctet (UInt8.ofNat i)).bytes, .bin (Uuid.ofOctet 1).bytes,
        .str (bulkUrl n)] := rfl
  have harray := write_array_bounds
    [.bin (Uuid.ofOctet (UInt8.ofNat i)).bytes, .bin (Uuid.ofOctet 1).bytes, .str (bulkUrl n)]
  simp only [List.flatMap_cons, List.flatMap_nil, List.length_append, List.length_nil] at harray
  rw [Uuid.length_eq] at hid htask
  rw [length_bulkUrl] at hurl
  rw [hvalue]
  omega

theorem bulk_bounds (k n : Nat) :
    k * n ≤ ((bulk k n).toVec MessagePack.format .plain).length ∧
      ((bulk k n).toVec MessagePack.format .plain).length ≤ k * (n + 100) + 100 := by
  let configs := ((List.range k).map (bulkConfig n)).map PushNotificationConfig.codec.write
  have hconfigs : configs.length * n ≤ (configs.flatMap write).length ∧
      (configs.flatMap write).length ≤ configs.length * (n + 100) :=
    flatMap_bounds fun v hv => by
      obtain ⟨c, hc, rfl⟩ := List.mem_map.mp hv
      obtain ⟨i, _, rfl⟩ := List.mem_map.mp hc
      exact bulkConfig_bounds n i
  have hlength : configs.length = k := by simp [configs]
  have hempty : (write (.array [])).length = 1 := by decide
  have harray := write_array_bounds configs
  have hsnapshot := write_array_bounds
    [.array [], .array [], .array [], .array [], .array [], .array configs]
  simp only [List.flatMap_cons, List.flatMap_nil, List.length_append, List.length_nil, hempty]
    at hsnapshot
  rw [hlength] at hconfigs
  have hvec : (bulk k n).toVec MessagePack.format .plain = write
      (.array [.array [], .array [], .array [], .array [], .array [], .array configs]) := rfl
  rw [hvec]
  omega

end

theorem bulk_fromSlice {k n : Nat} (h : k * (n + 100) + 100 < 2 ^ 32) :
    (Rmp.messagePack .plain 0).fromSlice ((bulk k n).toVec MessagePack.format .plain) =
      .ok (bulk k n) := by
  apply Rmp.messagePack_fromSlice 0 (Nat.lt_of_le_of_lt (bulk_bounds k n).2 h) rfl
  intro c hc _
  obtain ⟨i, _, rfl⟩ := List.mem_map.mp hc
  rfl

def sampleManager : StateManager (HashTable String (List UInt8)) :=
  ⟨.memory, ⟨List.replicate 32 7, List.length_replicate⟩⟩

def sampleNonce : Nonce := ⟨List.replicate nonceLen 0, List.length_replicate⟩

/-- Save `snapshot` to an empty storage. -/
def saveSample (snapshot : StateSnapshot) : Except Error Unit × HashTable String (List UInt8) :=
  sampleManager.saveSnapshot .aes256Gcm (.messagePack .plain 0) .empty sampleNonce snapshot

theorem saveSample_ok {k n : Nat} (h : k * (n + 100) + 100 < 2 ^ 32) :
    saveSample (bulk k n) = (.ok (), (saveSample (bulk k n)).2) := by
  have hmax : ((bulk k n).toVec MessagePack.format .plain).length ≤ Gcm.maxPlaintext := by
    have hlen := (bulk_bounds k n).2
    have hgcm : Gcm.maxPlaintext = 2 ^ 36 := rfl
    omega
  obtain ⟨encrypted, he⟩ := Option.isSome_iff_exists.mp
    (Gcm.encrypt_isSome (Aes256.encryptBlock sampleManager.key.bytes) sampleNonce.bytes hmax)
  have henc : encrypt .aes256Gcm sampleManager.key sampleNonce
      ((bulk k n).toVec MessagePack.format .plain) = .ok (sampleNonce.bytes ++ encrypted) := by
    simp only [encrypt, Aead.aes256Gcm, he]
  simp only [saveSample, saveSnapshot, Rmp.messagePack, henc]
  rfl

/-- Ten webhooks of a hundred bytes are loaded again. -/
theorem load_after_save_iff_small :
    sampleManager.loadSnapshot .aes256Gcm (.messagePack .plain 0) (saveSample (bulk 10 100)).2 =
        .ok (some (bulk 10 100)) ↔
      ((bulk 10 100).toVec MessagePack.format .plain).length + 28 ≤ maxSnapshotSize :=
  load_after_save_iff sampleManager rfl (bulk_fromSlice (by decide)) (saveSample_ok (by decide))

/-- Seventy webhooks of a million bytes are saved, and not loaded again. -/
theorem large_snapshot_not_loaded :
    ¬ ∀ (snapshot : StateSnapshot) (plaintext : List UInt8) store,
      (Rmp.messagePack .plain 0).toVec snapshot = .ok plaintext →
      (Rmp.messagePack .plain 0).fromSlice plaintext = .ok snapshot →
      saveSample snapshot = (.ok (), store) →
      sampleManager.loadSnapshot .aes256Gcm (.messagePack .plain 0) store =
        .ok (some snapshot) := by
  intro h
  have hread : (Rmp.messagePack .plain 0).fromSlice
      ((bulk 70 1000000).toVec MessagePack.format .plain) = .ok (bulk 70 1000000) :=
    bulk_fromSlice (by decide)
  have hsave : saveSample (bulk 70 1000000) = (.ok (), (saveSample (bulk 70 1000000)).2) :=
    saveSample_ok (by decide)
  have hload := h (bulk 70 1000000) _ _ rfl hread hsave
  rw [loadSnapshot_saved rfl hread hsave, if_pos] at hload
  · cases hload
  · have hlen := (bulk_bounds 70 1000000).1
    have hmax : maxSnapshotSize = 67108864 := rfl
    omega

end StateManager

end Trumpet
