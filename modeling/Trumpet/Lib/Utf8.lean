import Mathlib.Data.List.Basic

/-!
# UTF-8, read leniently

Decoding replaces each maximal prefix of a character that is not continued by
U+FFFD, and goes on with the byte that does not fit.
-/

namespace Utf8

def encode (s : String) : List UInt8 := s.toUTF8.data.toList

/-- A character begun: the bits so far, how many bytes are missing, and the range
of the next one. -/
structure Pending where
  bits : Nat
  missing : Nat
  lo : Nat
  hi : Nat

/-- The first byte of a character. -/
def first (b : Nat) : List Char × Option Pending :=
  if b < 0x80 then ([Char.ofNat b], none)
  else if b < 0xC2 then (['\uFFFD'], none)
  else if b < 0xE0 then ([], some ⟨b - 0xC0, 1, 0x80, 0xBF⟩)
  else if b < 0xF0 then
    ([], some ⟨b - 0xE0, 2, if b = 0xE0 then 0xA0 else 0x80, if b = 0xED then 0x9F else 0xBF⟩)
  else if b < 0xF5 then
    ([], some ⟨b - 0xF0, 3, if b = 0xF0 then 0x90 else 0x80, if b = 0xF4 then 0x8F else 0xBF⟩)
  else (['\uFFFD'], none)

def decodeFrom : Option Pending → List UInt8 → List Char
  | none, [] => []
  | some _, [] => ['\uFFFD']
  | none, b :: bs => (first b.toNat).1 ++ decodeFrom (first b.toNat).2 bs
  | some p, b :: bs =>
    if p.lo ≤ b.toNat ∧ b.toNat ≤ p.hi then
      if p.missing = 1 then Char.ofNat (p.bits * 64 + b.toNat % 64) :: decodeFrom none bs
      else decodeFrom (some ⟨p.bits * 64 + b.toNat % 64, p.missing - 1, 0x80, 0xBF⟩) bs
    else '\uFFFD' :: (first b.toNat).1 ++ decodeFrom (first b.toNat).2 bs

def decodeLossy (bytes : List UInt8) : String := String.ofList (decodeFrom none bytes)

/-- Only the encoding of a text is decoded. -/
def decode? (bytes : List UInt8) : Option String :=
  if encode (decodeLossy bytes) = bytes then some (decodeLossy bytes) else none

theorem encode_ofList (cs : List Char) :
    encode (String.ofList cs) = cs.flatMap String.utf8EncodeChar := by
  rw [encode, String.toUTF8, String.toByteArray_ofList, List.utf8Encode,
    List.toList_data_toByteArray]

/-- Bytes that fit are taken in. -/
theorem decodeFrom_next {p : Pending} {b : UInt8} (bs : List UInt8) (hlo : p.lo ≤ b.toNat)
    (hhi : b.toNat ≤ p.hi) (hm : p.missing ≠ 1) :
    decodeFrom (some p) (b :: bs) =
      decodeFrom (some ⟨p.bits * 64 + b.toNat % 64, p.missing - 1, 0x80, 0xBF⟩) bs := by
  rw [decodeFrom, if_pos ⟨hlo, hhi⟩, if_neg hm]

theorem decodeFrom_last {p : Pending} {b : UInt8} (bs : List UInt8) (hlo : p.lo ≤ b.toNat)
    (hhi : b.toNat ≤ p.hi) (hm : p.missing = 1) :
    decodeFrom (some p) (b :: bs) =
      Char.ofNat (p.bits * 64 + b.toNat % 64) :: decodeFrom none bs := by
  rw [decodeFrom, if_pos ⟨hlo, hhi⟩, if_pos hm]

theorem decodeFrom_first {b : UInt8} {p : Pending} (bs : List UInt8)
    (h : first b.toNat = ([], some p)) :
    decodeFrom none (b :: bs) = decodeFrom (some p) bs := by
  rw [decodeFrom, h]
  rfl

theorem toNat_ofNat {n : Nat} (h : n < 256) : (UInt8.ofNat n).toNat = n := by
  rw [UInt8.toNat_ofNat']
  exact Nat.mod_eq_of_lt h

theorem toNat_continuation (n : Nat) : (UInt8.ofNat (n % 0x40 + 0x80)).toNat = n % 64 + 0x80 :=
  toNat_ofNat (by omega)

/-- A character is read back, whatever follows it. -/
theorem decodeFrom_char (c : Char) (bs : List UInt8) :
    decodeFrom none (String.utf8EncodeChar c ++ bs) = c :: decodeFrom none bs := by
  have hvalid : c.val.toNat < 0xD800 ∨ 0xDFFF < c.val.toNat ∧ c.val.toNat < 0x110000 := c.valid
  have hc : Char.ofNat c.val.toNat = c := Char.ofNat_toNat c
  generalize hv : c.val.toNat = v at hvalid hc
  unfold String.utf8EncodeChar
  simp only [hv]
  split
  · have hb : (UInt8.ofNat v).toNat = v := toNat_ofNat (by omega)
    rw [List.singleton_append, decodeFrom, hb, first, if_pos (by omega)]
    exact congrArg (· :: _) hc
  · split
    · have h0 : (UInt8.ofNat (v / 64 % 0x20 + 0xc0)).toNat = v / 64 + 0xC0 := by
        rw [toNat_ofNat] <;> omega
      have h1 := toNat_continuation v
      have hfirst : first (v / 64 + 0xC0) = ([], some ⟨v / 64, 1, 0x80, 0xBF⟩) := by
        rw [first, if_neg (by omega), if_neg (by omega), if_pos (by omega), Nat.add_sub_cancel]
      rw [List.cons_append, List.cons_append, List.nil_append, decodeFrom_first _ (h0 ▸ hfirst),
        decodeFrom_last _ (by simp only [h1]; omega) (by simp only [h1]; omega) rfl, h1]
      rw [show v / 64 * 64 + (v % 64 + 0x80) % 64 = v by omega, hc]
    · split
      · have h0 : (UInt8.ofNat (v / 4096 % 0x10 + 0xe0)).toNat = v / 4096 + 0xE0 := by
          rw [toNat_ofNat] <;> omega
        have h1 := toNat_continuation (v / 64)
        have h2 := toNat_continuation v
        have hfirst : first (v / 4096 + 0xE0) = ([], some ⟨v / 4096, 2,
            if v / 4096 = 0 then 0xA0 else 0x80, if v / 4096 = 13 then 0x9F else 0xBF⟩) := by
          rw [first, if_neg (by omega), if_neg (by omega), if_neg (by omega), if_pos (by omega),
            Nat.add_sub_cancel]
          simp
        rw [List.cons_append, List.cons_append, List.cons_append, List.nil_append,
          decodeFrom_first _ (h0 ▸ hfirst),
          decodeFrom_next _ (by simp only [h1]; split <;> omega)
            (by simp only [h1]; split <;> omega) (by simp), h1,
          decodeFrom_last _ (by simp only [h2]; omega) (by simp only [h2]; omega) rfl, h2]
        simp only
        rw [show (v / 4096 * 64 + (v / 64 % 64 + 0x80) % 64) * 64 + (v % 64 + 0x80) % 64 = v by
          omega, hc]
      · have h0 : (UInt8.ofNat (v / 262144 % 0x08 + 0xf0)).toNat = v / 262144 + 0xF0 := by
          rw [toNat_ofNat] <;> omega
        have h1 := toNat_continuation (v / 4096)
        have h2 := toNat_continuation (v / 64)
        have h3 := toNat_continuation v
        have hfirst : first (v / 262144 + 0xF0) = ([], some ⟨v / 262144, 3,
            if v / 262144 = 0 then 0x90 else 0x80, if v / 262144 = 4 then 0x8F else 0xBF⟩) := by
          rw [first, if_neg (by omega), if_neg (by omega), if_neg (by omega), if_neg (by omega),
            if_pos (by omega), Nat.add_sub_cancel]
          simp
        rw [List.cons_append, List.cons_append, List.cons_append, List.cons_append,
          List.nil_append, decodeFrom_first _ (h0 ▸ hfirst),
          decodeFrom_next _ (by simp only [h1]; split <;> omega)
            (by simp only [h1]; split <;> omega) (by simp), h1,
          decodeFrom_next _ (by simp only [h2]; omega) (by simp only [h2]; omega) (by simp), h2,
          decodeFrom_last _ (by simp only [h3]; omega) (by simp only [h3]; omega) rfl, h3]
        simp only
        rw [show ((v / 262144 * 64 + (v / 4096 % 64 + 0x80) % 64) * 64 +
          (v / 64 % 64 + 0x80) % 64) * 64 + (v % 64 + 0x80) % 64 = v by omega, hc]

theorem decodeFrom_encode (s : String) : decodeFrom none (encode s) = s.toList := by
  have hall : ∀ cs : List Char, decodeFrom none (cs.flatMap String.utf8EncodeChar) = cs := by
    intro cs
    induction cs with
    | nil => rfl
    | cons c cs ih => rw [List.flatMap_cons, decodeFrom_char, ih]
  have hencode := encode_ofList s.toList
  rw [String.ofList_toList] at hencode
  rw [hencode, hall]

theorem decodeLossy_encode (s : String) : decodeLossy (encode s) = s := by
  rw [decodeLossy, decodeFrom_encode, String.ofList_toList]

theorem encode_inj {s t : String} : encode s = encode t ↔ s = t := by
  constructor
  · intro h
    rw [← decodeLossy_encode s, h, decodeLossy_encode]
  · exact congrArg encode

theorem decode?_encode (s : String) : decode? (encode s) = some s := by
  rw [decode?, decodeLossy_encode, if_pos rfl]

theorem encode_of_decode? {bytes : List UInt8} {s : String} (h : decode? bytes = some s) :
    encode s = bytes := by
  unfold decode? at h
  split at h
  · rename_i hbytes
    cases h
    exact hbytes
  · cases h

theorem encode_append (s t : String) : encode (s ++ t) = encode s ++ encode t := by
  rw [encode, String.toUTF8, String.toByteArray_append, ByteArray.data_append, Array.toList_append]
  rfl

/-! ## ASCII -/

theorem encodeChar_of_lt {c : Char} (h : c.toNat < 0x80) :
    String.utf8EncodeChar c = [UInt8.ofNat c.toNat] := by
  have hle : c.val.toNat ≤ 0x7f := Nat.le_of_lt_succ h
  unfold String.utf8EncodeChar
  exact if_pos hle

theorem encode_ascii {s : String} (h : ∀ c ∈ s.toList, c.toNat < 0x80) :
    encode s = s.toList.map fun c => UInt8.ofNat c.toNat := by
  have hencode := encode_ofList s.toList
  rw [String.ofList_toList] at hencode
  rw [hencode, List.map_eq_flatMap]
  exact List.flatMap_congr fun c hc => encodeChar_of_lt (h c hc)

/-- A plain character is in the encoding only if it is in the text. -/
theorem not_mem_encode {s : String} (h : ∀ c ∈ s.toList, c.toNat < 0x80) {c : Char}
    (hc : c.toNat < 0x80) (hn : c ∉ s.toList) : UInt8.ofNat c.toNat ∉ encode s := by
  intro hm
  rw [encode_ascii h] at hm
  obtain ⟨d, hd, he⟩ := List.mem_map.mp hm
  have hlt := h d hd
  have hcode : d.toNat = c.toNat := by
    have hbyte := congrArg UInt8.toNat he
    rwa [toNat_ofNat (by omega), toNat_ofNat (by omega)] at hbyte
  exact hn (Char.toNat_inj.mp hcode ▸ hd)

theorem decodeFrom_ascii {bytes : List UInt8} (h : ∀ b ∈ bytes, b.toNat < 0x80) :
    decodeFrom none bytes = bytes.map fun b => Char.ofNat b.toNat := by
  induction bytes with
  | nil => rfl
  | cons b bs ih =>
    rw [decodeFrom, first, if_pos (h b List.mem_cons_self), List.map_cons,
      ih fun b hb => h b (List.mem_cons_of_mem _ hb)]
    rfl

theorem encode_decodeLossy_ascii {bytes : List UInt8} (h : ∀ b ∈ bytes, b.toNat < 0x80) :
    encode (decodeLossy bytes) = bytes := by
  rw [decodeLossy, encode_ofList, decodeFrom_ascii h, List.flatMap_map]
  induction bytes with
  | nil => rfl
  | cons b bs ih =>
    have hb := h b List.mem_cons_self
    have hc : (Char.ofNat b.toNat).toNat = b.toNat := by
      rw [Char.ofNat, dif_pos (.inl (by omega))]
      rfl
    have hbyte : UInt8.ofNat b.toNat = b := UInt8.ofNat_toNat
    rw [List.flatMap_cons, encodeChar_of_lt (by omega), hc, hbyte,
      ih fun b hb => h b (List.mem_cons_of_mem _ hb)]
    rfl

end Utf8
