import Mathlib.Data.List.Basic
import Trumpet.Lib.BigEndian

/-!
# AES-256 in Galois/counter mode

The block cipher, and the mode over any block cipher: decryption inverts
encryption whatever the cipher is.
-/

namespace Aes256

open BigEndian

def sboxTable : List UInt8 := [
  99, 124, 119, 123, 242, 107, 111, 197, 48, 1, 103, 43, 254, 215, 171, 118,
  202, 130, 201, 125, 250, 89, 71, 240, 173, 212, 162, 175, 156, 164, 114, 192,
  183, 253, 147, 38, 54, 63, 247, 204, 52, 165, 229, 241, 113, 216, 49, 21,
  4, 199, 35, 195, 24, 150, 5, 154, 7, 18, 128, 226, 235, 39, 178, 117,
  9, 131, 44, 26, 27, 110, 90, 160, 82, 59, 214, 179, 41, 227, 47, 132,
  83, 209, 0, 237, 32, 252, 177, 91, 106, 203, 190, 57, 74, 76, 88, 207,
  208, 239, 170, 251, 67, 77, 51, 133, 69, 249, 2, 127, 80, 60, 159, 168,
  81, 163, 64, 143, 146, 157, 56, 245, 188, 182, 218, 33, 16, 255, 243, 210,
  205, 12, 19, 236, 95, 151, 68, 23, 196, 167, 126, 61, 100, 93, 25, 115,
  96, 129, 79, 220, 34, 42, 144, 136, 70, 238, 184, 20, 222, 94, 11, 219,
  224, 50, 58, 10, 73, 6, 36, 92, 194, 211, 172, 98, 145, 149, 228, 121,
  231, 200, 55, 109, 141, 213, 78, 169, 108, 86, 244, 234, 101, 122, 174, 8,
  186, 120, 37, 46, 28, 166, 180, 198, 232, 221, 116, 31, 75, 189, 139, 138,
  112, 62, 181, 102, 72, 3, 246, 14, 97, 53, 87, 185, 134, 193, 29, 158,
  225, 248, 152, 17, 105, 217, 142, 148, 155, 30, 135, 233, 206, 85, 40, 223,
  140, 161, 137, 13, 191, 230, 66, 104, 65, 153, 45, 15, 176, 84, 187, 22]

def sbox (b : UInt8) : UInt8 := sboxTable.getD b.toNat 0

def xor (a b : Bytes) : Bytes := List.zipWith (· ^^^ ·) a b

/-- One more word of the key schedule, whose words are listed newest first. -/
def nextWord (words : List Bytes) (i : Nat) : List Bytes :=
  let last := words.getD 0 []
  let temp :=
    if i % 8 = 0 then
      xor ((last.drop 1 ++ last.take 1).map sbox) [UInt8.ofNat (2 ^ (i / 8 - 1)), 0, 0, 0]
    else if i % 8 = 4 then last.map sbox
    else last
  xor temp (words.getD 7 []) :: words

/-- The sixty words of the key schedule. -/
def schedule (key : Bytes) : List Bytes :=
  ((List.range' 8 52).foldl nextWord
    ((List.range 8).map fun i => (key.drop (4 * i)).take 4).reverse).reverse

def roundKey (words : List Bytes) (r : Nat) : Bytes := ((words.drop (4 * r)).take 4).flatten

/-- Row `i % 4` of the state, which is stored by columns, moves by `i % 4`. -/
def shiftRows (s : Bytes) : Bytes := (List.range 16).map fun i => s.getD ((i + 4 * (i % 4)) % 16) 0

def xtime (b : UInt8) : UInt8 := (b <<< 1) ^^^ (if b < 0x80 then 0 else 0x1b)

def mixByte (a b c d : UInt8) : UInt8 := xtime a ^^^ xtime b ^^^ b ^^^ c ^^^ d

def mixColumns (s : Bytes) : Bytes :=
  (List.range 16).map fun i =>
    mixByte (s.getD i 0) (s.getD (i / 4 * 4 + (i + 1) % 4) 0)
      (s.getD (i / 4 * 4 + (i + 2) % 4) 0) (s.getD (i / 4 * 4 + (i + 3) % 4) 0)

def round (words : List Bytes) (s : Bytes) (r : Nat) : Bytes :=
  xor (mixColumns (shiftRows (s.map sbox))) (roundKey words r)

def encryptBlock (key block : Bytes) : Bytes :=
  let words := schedule key
  let s := (List.range' 1 13).foldl (round words) (xor block (roundKey words 0))
  xor (shiftRows (s.map sbox)) (roundKey words 14)

example : encryptBlock ((List.range 32).map UInt8.ofNat)
    (be 16 0x00112233445566778899aabbccddeeff) = be 16 0x8ea2b7ca516745bfeafc49904b496089 := by
  decide +kernel

end Aes256

namespace Gcm

open BigEndian

/-- The product in GF(2^128); the first bit is the coefficient of one. -/
def mul (x y : Nat) : Nat :=
  ((List.range 128).foldl (fun (p : Nat × Nat) i =>
    (if x.testBit (127 - i) then p.1 ^^^ p.2 else p.1,
      if p.2.testBit 0 then (p.2 / 2) ^^^ (0xe1 * 2 ^ 120) else p.2 / 2)) (0, y)).1

/-- Block `i`, padded with zeros. -/
def blockAt (data : Bytes) (i : Nat) : Nat :=
  ofBytes ((List.range 16).map fun j => data.getD (16 * i + j) 0)

/-- GHASH without additional data. -/
def ghash (h : Nat) (data : Bytes) : Nat :=
  let y := (List.range ((data.length + 15) / 16)).foldl (fun y i => mul (y ^^^ blockAt data i) h) 0
  mul (y ^^^ (8 * data.length)) h

section
variable (cipher : Bytes → Bytes)

/-- Counter mode: byte `i` under the block for counter `i / 16 + 2`. -/
def ctr (nonce data : Bytes) : Bytes :=
  data.mapIdx fun i b => b ^^^ (cipher (nonce ++ be 4 (i / 16 + 2))).getD (i % 16) 0

def tag (nonce ciphertext : Bytes) : Bytes :=
  be 16 (ghash (ofBytes (cipher (List.replicate 16 0))) ciphertext ^^^
    ofBytes (cipher (nonce ++ be 4 1)))

def maxPlaintext : Nat := 2 ^ 36

def encrypt (nonce plaintext : Bytes) : Option Bytes :=
  if plaintext.length ≤ maxPlaintext then
    some (ctr cipher nonce plaintext ++ tag cipher nonce (ctr cipher nonce plaintext))
  else none

def decrypt (nonce data : Bytes) : Option Bytes :=
  if data.length < 16 ∨ maxPlaintext + 16 < data.length then none
  else
    let ciphertext := data.take (data.length - 16)
    if data.drop (data.length - 16) = tag cipher nonce ciphertext then
      some (ctr cipher nonce ciphertext)
    else none

@[simp] theorem length_ctr (nonce data : Bytes) : (ctr cipher nonce data).length = data.length :=
  List.length_mapIdx

@[simp] theorem length_tag (nonce data : Bytes) : (tag cipher nonce data).length = 16 :=
  be_length _ _

/-- The key stream taken twice cancels. -/
theorem ctr_ctr (nonce data : Bytes) : ctr cipher nonce (ctr cipher nonce data) = data := by
  apply List.ext_getElem
  · rw [length_ctr, length_ctr]
  · intro i _ _
    simp only [ctr, List.getElem_mapIdx, UInt8.xor_assoc, UInt8.xor_self, UInt8.xor_zero]

theorem encrypt_isSome (nonce : Bytes) {plaintext : Bytes}
    (h : plaintext.length ≤ maxPlaintext) : (encrypt cipher nonce plaintext).isSome := by
  rw [encrypt, if_pos h]
  rfl

variable {cipher} {nonce plaintext data : Bytes}

theorem length_encrypt (h : encrypt cipher nonce plaintext = some data) :
    data.length = plaintext.length + 16 := by
  unfold encrypt at h
  split at h
  · cases h
    rw [List.length_append, length_ctr, length_tag]
  · cases h

theorem decrypt_encrypt (h : encrypt cipher nonce plaintext = some data) :
    decrypt cipher nonce data = some plaintext := by
  have hlen := length_encrypt h
  unfold encrypt at h
  split at h
  · rename_i hmax
    have hcut : data.length - 16 = (ctr cipher nonce plaintext).length := by
      rw [hlen, length_ctr, Nat.add_sub_cancel]
    rw [decrypt, if_neg (by omega), hcut]
    cases h
    rw [List.take_left, List.drop_left, if_pos rfl, ctr_ctr]
  · cases h

end

end Gcm
