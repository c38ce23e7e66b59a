import Trumpet.State.Manager

/-! What an interrupted save leaves to be loaded. -/

namespace Trumpet

/-- Where a write stops: before it has opened the file, or when the file has been
truncated and the first `n` bytes are in it. -/
inductive Stop where
  | unopened
  | after (n : Nat)

/-- The file-system service without a directory for atomic writes. A process that
dies leaves the storage of a write that fails at the same point. -/
def Operator.fs (reason : String) (stop : Stop) : Operator (HashTable String (List UInt8)) where
  write store path bytes :=
    match stop with
    | .unopened => (.error reason, store)
    | .after n =>
      (if bytes.length ≤ n then .ok () else .error reason, store.put path (bytes.take n))
  read := Operator.memory.read
  read_write {store store' path bytes} h := by
    cases stop with
    | unopened => cases h
    | after n =>
      obtain ⟨hok, rfl⟩ := Prod.mk.inj h
      split at hok
      · rename_i hle
        rw [List.take_of_length_le hle]
        exact Operator.memory.read_write rfl
      · cases hok

namespace StateManager

section
variable (aead : Aead) (rmp : Rmp) (reason : String) (key : Key)

/-- A manager whose next write stops at `stop`. -/
def onDisk (stop : Stop) : StateManager (HashTable String (List UInt8)) := ⟨.fs reason stop, key⟩

/-- The save of `s` stops before it touches the file. -/
def Untouched (stop : Stop) (nonce : Nonce) (s : StateSnapshot) : Prop :=
  stop = .unopened ∨
    ∀ plaintext bytes, rmp.toVec s = .ok plaintext → encrypt aead key nonce plaintext ≠ .ok bytes

/-- The save of `s` stops when the file is written. -/
def Written (stop : Stop) (nonce : Nonce) (s : StateSnapshot) : Prop :=
  ∃ plaintext bytes n, rmp.toVec s = .ok plaintext ∧
    encrypt aead key nonce plaintext = .ok bytes ∧ stop = .after n ∧ bytes.length ≤ n

/-- The encoding of `s` is within the size limit and is read as one of the two
snapshots. -/
def ReadAsEither (s0 s1 s : StateSnapshot) : Prop :=
  ∃ plaintext, rmp.toVec s = .ok plaintext ∧ plaintext.length + 28 ≤ maxSnapshotSize ∧
    (rmp.fromSlice plaintext = .ok s0 ∨ rmp.fromSlice plaintext = .ok s1)

/-- No strict prefix of the encrypted encoding of `s` passes authentication. -/
def PrefixesRefused (nonce : Nonce) (s : StateSnapshot) : Prop :=
  ∀ plaintext ciphertext, rmp.toVec s = .ok plaintext →
    aead.encrypt key nonce plaintext = some ciphertext →
    ∀ n < ciphertext.length, aead.decrypt key nonce (ciphertext.take n) = none

/-- The load finds one of the two snapshots. -/
def LoadsEither {σ : Type} (self : StateManager σ) (store : σ) (s0 s1 : StateSnapshot) : Prop :=
  self.loadSnapshot aead rmp store = .ok (some s0) ∨
    self.loadSnapshot aead rmp store = .ok (some s1)

end

variable {aead : Aead} {rmp : Rmp} {reason : String} {key : Key} {stop : Stop}

/-- What a load makes of an encrypted encoding. -/
theorem loadSnapshot_encrypted {σ : Type} {self : StateManager σ} {store : σ} {nonce : Nonce}
    {plaintext bytes : List UInt8} (he : encrypt aead self.key nonce plaintext = .ok bytes)
    (hr : self.operator.read store snapshotFile = .ok bytes) (s : StateSnapshot) :
    self.loadSnapshot aead rmp store = .ok (some s) ↔
      plaintext.length + 28 ≤ maxSnapshotSize ∧ rmp.fromSlice plaintext = .ok s := by
  obtain ⟨hd, hlen⟩ := decrypt_of_encrypt aead he
  simp only [loadSnapshot, hr, hd, hlen]
  constructor
  · intro h
    split at h
    · cases h
    · cases hf : rmp.fromSlice plaintext with
      | error e =>
        rw [hf] at h
        cases h
      | ok s' =>
        rw [hf] at h
        cases h
        exact ⟨by omega, rfl⟩
  · rintro ⟨hle, hf⟩
    rw [if_neg (by omega), hf]

theorem loadsEither_encrypted {σ : Type} {self : StateManager σ} {store : σ} {nonce : Nonce}
    {plaintext bytes : List UInt8} {s s0 s1 : StateSnapshot} (hp : rmp.toVec s = .ok plaintext)
    (he : encrypt aead self.key nonce plaintext = .ok bytes)
    (hr : self.operator.read store snapshotFile = .ok bytes) :
    LoadsEither aead rmp self store s0 s1 ↔ ReadAsEither rmp s0 s1 s := by
  simp only [LoadsEither, loadSnapshot_encrypted he hr, ReadAsEither, hp, Except.ok.injEq,
    exists_eq_left', ← and_or_left]

/-- A strict prefix of an encrypted encoding is not decrypted. -/
theorem decrypt_take {nonce : Nonce} {ciphertext : List UInt8} {n : Nat}
    (hint : ∀ n < ciphertext.length, aead.decrypt key nonce (ciphertext.take n) = none)
    (hn : n < (nonce.bytes ++ ciphertext).length) :
    ∃ e, decrypt aead key ((nonce.bytes ++ ciphertext).take n) = .error e := by
  have hnonce := nonce.length_eq
  rw [List.length_append] at hn
  by_cases hle : nonceLen ≤ ((nonce.bytes ++ ciphertext).take n).length
  · have hlen : nonceLen ≤ n := by
      rw [List.length_take] at hle
      omega
    have htake : ((nonce.bytes ++ ciphertext).take n).take nonceLen = nonce.bytes := by
      rw [List.take_take, Nat.min_eq_left hlen, List.take_left' hnonce]
    have hdrop : ((nonce.bytes ++ ciphertext).take n).drop nonceLen =
        ciphertext.take (n - nonceLen) := by
      rw [List.drop_take, List.drop_left' hnonce]
    have hnone := hint (n - nonceLen) (by omega)
    refine ⟨.stateRestoreFailed "decryption failed — key mismatch or corrupt snapshot", ?_⟩
    rw [decrypt, dif_pos hle]
    simp only [htake, hdrop, hnone]
  · exact ⟨_, dif_neg hle⟩

/-! ## The file a save leaves -/

theorem save_untouched {nonce : Nonce} {s : StateSnapshot} (h : Untouched aead rmp key stop nonce s)
    (store : HashTable String (List UInt8)) :
    ((onDisk reason key stop).saveSnapshot aead rmp store nonce s).2 = store := by
  unfold saveSnapshot
  cases hp : rmp.toVec s with
  | error e => rfl
  | ok plaintext =>
    simp only
    cases he : encrypt aead (onDisk reason key stop).key nonce plaintext with
    | error e => rfl
    | ok bytes =>
      rcases h with rfl | hno
      · rfl
      · exact absurd he (hno plaintext bytes hp)

theorem save_opened {nonce : Nonce} {s : StateSnapshot} {plaintext bytes : List UInt8} {n : Nat}
    (hp : rmp.toVec s = .ok plaintext) (he : encrypt aead key nonce plaintext = .ok bytes)
    (store : HashTable String (List UInt8)) :
    ((onDisk reason key (.after n)).saveSnapshot aead rmp store nonce s).2 =
      store.put snapshotFile (bytes.take n) := by
  have he' : encrypt aead (onDisk reason key (.after n)).key nonce plaintext = .ok bytes := he
  have hw : (onDisk reason key (.after n)).operator.write store snapshotFile bytes =
      (if bytes.length ≤ n then .ok () else .error reason,
        store.put snapshotFile (bytes.take n)) := rfl
  simp only [saveSnapshot, hp, he', hw]
  by_cases hle : bytes.length ≤ n
  · simp only [if_pos hle]
  · simp only [if_neg hle]

theorem read_put (store : HashTable String (List UInt8)) (path : String) (bytes : List UInt8) :
    (Operator.fs reason stop).read (store.put path bytes) path = .ok bytes :=
  @Operator.memory.read_write store _ path bytes rfl

/-- A save that stops between opening the file and writing its last byte leaves a
file that is not loaded. -/
theorem torn_not_loaded {nonce : Nonce} {s s0 s1 : StateSnapshot} {plaintext bytes : List UInt8}
    {n : Nat} (hint : PrefixesRefused aead rmp key nonce s) (hp : rmp.toVec s = .ok plaintext)
    (he : encrypt aead key nonce plaintext = .ok bytes) (hn : n < bytes.length)
    (store : HashTable String (List UInt8)) :
    ¬ LoadsEither aead rmp (onDisk reason key (.after n))
      ((onDisk reason key (.after n)).saveSnapshot aead rmp store nonce s).2 s0 s1 := by
  have hread := @read_put reason (.after n) store snapshotFile (bytes.take n)
  obtain ⟨ciphertext, hc, rfl⟩ : ∃ ciphertext, aead.encrypt key nonce plaintext = some ciphertext ∧
      nonce.bytes ++ ciphertext = bytes := by
    unfold encrypt at he
    split at he
    · rename_i ciphertext hc
      cases he
      exact ⟨ciphertext, hc, rfl⟩
    · cases he
  obtain ⟨e, hd⟩ := decrypt_take (hint plaintext ciphertext hp hc) hn
  have herr : ∃ e, (onDisk reason key (.after n)).loadSnapshot aead rmp
      (store.put snapshotFile ((nonce.bytes ++ ciphertext).take n)) = .error e := by
    unfold loadSnapshot
    rw [show (onDisk reason key (.after n)).operator.read _ snapshotFile = _ from hread]
    simp only
    split
    · exact ⟨_, rfl⟩
    · rw [show decrypt aead (onDisk reason key (.after n)).key _ = _ from hd]
      exact ⟨_, rfl⟩
  obtain ⟨e, herr⟩ := herr
  rw [save_opened hp he store, LoadsEither, herr]
  rintro (h | h) <;> cases h

theorem not_written_of_untouched {nonce : Nonce} {s : StateSnapshot}
    (h : Untouched aead rmp key stop nonce s) : ¬ Written aead rmp key stop nonce s := by
  rintro ⟨plaintext, bytes, n, hp, he, rfl, _⟩
  rcases h with h | h
  · cases h
  · exact h plaintext bytes hp he

section
variable {nonce : Nonce} {s : StateSnapshot} {plaintext bytes : List UInt8} {n : Nat}
  (hp : rmp.toVec s = .ok plaintext) (he : encrypt aead key nonce plaintext = .ok bytes)

include hp he

theorem not_untouched : ¬ Untouched aead rmp key (.after n) nonce s := by
  rintro (h | h)
  · cases h
  · exact h plaintext bytes hp he

theorem written_iff : Written aead rmp key (.after n) nonce s ↔ bytes.length ≤ n := by
  constructor
  · rintro ⟨plaintext', bytes', n', hp', he', hn, hle⟩
    cases hn
    rw [hp] at hp'
    cases hp'
    rw [he] at he'
    cases he'
    exact hle
  · exact fun hle => ⟨plaintext, bytes, n, hp, he, rfl, hle⟩

end

/-- After a save of `s1` over the saved `s0`, which may stop at any point, one of
the two is loaded exactly when the file was left as it was, or is written in full,
and what it holds can be read. -/
theorem crash_safe_iff {stop0 : Stop} {store0 store : HashTable String (List UInt8)}
    {nonce0 nonce1 : Nonce} {s0 s1 : StateSnapshot}
    (hsaved : (onDisk reason key stop0).saveSnapshot aead rmp store0 nonce0 s0 = (.ok (), store))
    (hint : PrefixesRefused aead rmp key nonce1 s1) (stop : Stop) :
    LoadsEither aead rmp (onDisk reason key stop)
        ((onDisk reason key stop).saveSnapshot aead rmp store nonce1 s1).2 s0 s1 ↔
      Untouched aead rmp key stop nonce1 s1 ∧ ReadAsEither rmp s0 s1 s0 ∨
        Written aead rmp key stop nonce1 s1 ∧ ReadAsEither rmp s0 s1 s1 := by
  by_cases hun : Untouched aead rmp key stop nonce1 s1
  · obtain ⟨plaintext, bytes, hp, he, hr⟩ := saveSnapshot_ok hsaved
    have hnot := not_written_of_untouched hun
    have hold : LoadsEither aead rmp (onDisk reason key stop) store s0 s1 ↔
        ReadAsEither rmp s0 s1 s0 := loadsEither_encrypted hp he hr
    rw [save_untouched hun, hold]
    simp only [hun, hnot, true_and, false_and, or_false]
  · simp only [Untouched, not_or, not_forall, not_not] at hun
    obtain ⟨hstop, plaintext, bytes, hp, he⟩ := hun
    cases stop with
    | unopened => exact absurd rfl hstop
    | after n =>
      have htouched : ¬ Untouched aead rmp key (.after n) nonce1 s1 := not_untouched hp he
      by_cases hle : bytes.length ≤ n
      · have hwritten : Written aead rmp key (.after n) nonce1 s1 := (written_iff hp he).mpr hle
        have hread := @read_put reason (.after n) store snapshotFile (bytes.take n)
        rw [save_opened hp he, List.take_of_length_le hle] at *
        have hnew : LoadsEither aead rmp (onDisk reason key (.after n))
            (store.put snapshotFile bytes) s0 s1 ↔ ReadAsEither rmp s0 s1 s1 :=
          loadsEither_encrypted hp he hread
        rw [hnew]
        simp only [htouched, hwritten, false_and, true_and, false_or]
      · have hnot : ¬ Written aead rmp key (.after n) nonce1 s1 :=
          (written_iff hp he).not.mpr hle
        have hno : ¬ LoadsEither aead rmp (onDisk reason key (.after n))
            ((onDisk reason key (.after n)).saveSnapshot aead rmp store nonce1 s1).2 s0 s1 :=
          torn_not_loaded hint hp he (Nat.lt_of_not_le hle) store
        simp only [hno, htouched, hnot, false_and, or_self]

/-- With MessagePack: within the size limit, and without a webhook that has an empty
token and an authentication, the snapshot is read as `normalize` has it. -/
theorem readAsEither_messagePack {txt : TextForms} (now : DateTime) (s0 s1 s : StateSnapshot) :
    ReadAsEither (.messagePack txt now) s0 s1 s ↔
      (s.toVec MessagePack.format txt).length + 28 ≤ maxSnapshotSize ∧
        (s0 = s.normalize ∨ s1 = s.normalize) ∧
        ∀ c ∈ s.pushNotifications, c.token = "" → c.authentication = none := by
  have hiff (hle : (s.toVec MessagePack.format txt).length + 28 ≤ maxSnapshotSize)
      (t : StateSnapshot) :
      (Rmp.messagePack txt now).fromSlice (s.toVec MessagePack.format txt) = .ok t ↔
        t = s.normalize ∧ ∀ c ∈ s.pushNotifications, c.Aligned := by
    have hmax : maxSnapshotSize = 67108864 := rfl
    exact Rmp.messagePack_fromSlice_iff now (by omega) t
  constructor
  · rintro ⟨plaintext, ⟨⟩, hle, hread⟩
    rw [hiff hle, hiff hle] at hread
    refine ⟨hle, hread.imp And.left And.left, ?_⟩
    rcases hread with h | h <;> exact h.2
  · rintro ⟨hle, hread, ha⟩
    refine ⟨_, rfl, hle, ?_⟩
    rw [hiff hle, hiff hle]
    exact hread.imp (⟨·, ha⟩) (⟨·, ha⟩)

/-! ## A save that stops early -/

def emptySnapshot : StateSnapshot := ⟨[], [], [], [], [], []⟩

/-- A save of `snapshot` that stops at `stop`. -/
def saveStopped (stop : Stop) (store : HashTable String (List UInt8)) (snapshot : StateSnapshot) :
    Except Error Unit × HashTable String (List UInt8) :=
  (onDisk "no space" sampleManager.key stop).saveSnapshot .aes256Gcm (.messagePack .plain 0) store
    sampleNonce snapshot

/-- The storage in which a snapshot of one webhook has been saved. -/
def savedStore : HashTable String (List UInt8) := (saveStopped (.after 128) .empty (bulk 1 8)).2

theorem savedStore_ok : saveStopped (.after 128) .empty (bulk 1 8) = (.ok (), savedStore) :=
  Prod.ext (by decide +kernel) rfl

theorem emptySnapshot_refused : PrefixesRefused .aes256Gcm (.messagePack .plain 0)
    sampleManager.key sampleNonce emptySnapshot := by
  intro plaintext ciphertext hp hc n hn
  cases hp
  have hall : ((Aead.aes256Gcm.encrypt sampleManager.key sampleNonce
      (emptySnapshot.toVec MessagePack.format .plain)).all fun ciphertext =>
        (List.range ciphertext.length).all fun n =>
          (Aead.aes256Gcm.decrypt sampleManager.key sampleNonce (ciphertext.take n)).isNone) =
      true := by
    decide +kernel
  rw [hc, Option.all_some, List.all_eq_true] at hall
  exact Option.isNone_iff_eq_none.mp (hall n (List.mem_range.mpr hn))

/-- The new snapshot is empty, and twenty of its 35 bytes are written. -/
theorem crash_safe_iff_twenty_bytes :
    LoadsEither .aes256Gcm (.messagePack .plain 0) (onDisk "no space" sampleManager.key (.after 20))
        (saveStopped (.after 20) savedStore emptySnapshot).2 (bulk 1 8) emptySnapshot ↔
      Untouched .aes256Gcm (.messagePack .plain 0) sampleManager.key (.after 20) sampleNonce
          emptySnapshot ∧
        ReadAsEither (.messagePack .plain 0) (bulk 1 8) emptySnapshot (bulk 1 8) ∨
      Written .aes256Gcm (.messagePack .plain 0) sampleManager.key (.after 20) sampleNonce
          emptySnapshot ∧
        ReadAsEither (.messagePack .plain 0) (bulk 1 8) emptySnapshot emptySnapshot :=
  crash_safe_iff savedStore_ok emptySnapshot_refused (.after 20)

/-- The process dies when the file has been truncated, before the first byte is in
it. -/
theorem truncated_not_loaded :
    ¬ ∀ (s0 s1 : StateSnapshot) (store : HashTable String (List UInt8)) (stop : Stop),
      saveStopped (.after 128) .empty s0 = (.ok (), store) →
      LoadsEither .aes256Gcm (.messagePack .plain 0) (onDisk "no space" sampleManager.key stop)
        (saveStopped stop store s1).2 s0 s1 := by
  intro h
  have hload := h (bulk 1 8) emptySnapshot savedStore (.after 0) savedStore_ok
  have herr : ((onDisk "no space" sampleManager.key (.after 0)).loadSnapshot .aes256Gcm
      (.messagePack .plain 0) (saveStopped (.after 0) savedStore emptySnapshot).2).isOk =
        false := by
    decide +kernel
  rcases hload with hl | hl <;> (rw [hl] at herr; cases herr)

end StateManager

end Trumpet
