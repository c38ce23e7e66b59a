import Trumpet.Core.Error
import Trumpet.Lib.AesGcm

/-! Snapshot encryption: the nonce in front of the ciphertext. -/

namespace Trumpet

structure Key where
  bytes : List UInt8
  length_eq : bytes.length = 32

def nonceLen : Nat := 12

structure Nonce where
  bytes : List UInt8
  length_eq : bytes.length = nonceLen

/-- AES-256-GCM, of which it is used that decryption under the same key and nonce
inverts encryption, and that the ciphertext is sixteen bytes longer than the
plaintext. Encryption refuses a plaintext that is too long. -/
structure Aead where
  encrypt : Key → Nonce → List UInt8 → Option (List UInt8)
  decrypt : Key → Nonce → List UInt8 → Option (List UInt8)
  decrypt_encrypt : ∀ {key nonce plaintext ciphertext},
    encrypt key nonce plaintext = some ciphertext →
      decrypt key nonce ciphertext = some plaintext
  length_encrypt : ∀ {key nonce plaintext ciphertext},
    encrypt key nonce plaintext = some ciphertext →
      ciphertext.length = plaintext.length + 16

section
variable (aead : Aead)

/-- The random nonce is an argument. -/
def encrypt (key : Key) (nonce : Nonce) (plaintext : List UInt8) : Except Error (List UInt8) :=
  match aead.encrypt key nonce plaintext with
  | some ciphertext => .ok (nonce.bytes ++ ciphertext)
  | none => .error (.stateSnapshotFailed "encryption failed")

def decrypt (key : Key) (data : List UInt8) : Except Error (List UInt8) :=
  if h : nonceLen ≤ data.length then
    match aead.decrypt key ⟨data.take nonceLen, List.length_take_of_le h⟩ (data.drop nonceLen) with
    | some plaintext => .ok plaintext
    | none =>
      .error (.stateRestoreFailed "decryption failed — key mismatch or corrupt snapshot")
  else .error (.stateRestoreFailed "encrypted snapshot too short to contain nonce")

/-- Decryption under the same key inverts encryption; the blob is 28 bytes longer
than the plaintext. -/
theorem decrypt_of_encrypt {key : Key} {nonce : Nonce} {plaintext data : List UInt8}
    (h : encrypt aead key nonce plaintext = .ok data) :
    decrypt aead key data = .ok plaintext ∧ data.length = plaintext.length + 28 := by
  unfold encrypt at h
  split at h
  · rename_i ciphertext hc
    cases h
    have hn := nonce.length_eq
    have hlen := aead.length_encrypt hc
    have htake : (nonce.bytes ++ ciphertext).take nonceLen = nonce.bytes := List.take_left' hn
    have hdrop : (nonce.bytes ++ ciphertext).drop nonceLen = ciphertext := List.drop_left' hn
    have hle : nonceLen ≤ (nonce.bytes ++ ciphertext).length := by
      rw [List.length_append]
      omega
    constructor
    · rw [decrypt, dif_pos hle]
      simp only [htake, hdrop, aead.decrypt_encrypt hc]
    · rw [List.length_append, hn, hlen, nonceLen]
      omega
  · cases h

end

def Aead.aes256Gcm : Aead where
  encrypt key nonce := Gcm.encrypt (Aes256.encryptBlock key.bytes) nonce.bytes
  decrypt key nonce := Gcm.decrypt (Aes256.encryptBlock key.bytes) nonce.bytes
  decrypt_encrypt := Gcm.decrypt_encrypt
  length_encrypt := Gcm.length_encrypt

end Trumpet
