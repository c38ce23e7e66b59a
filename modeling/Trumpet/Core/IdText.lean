import Trumpet.Core.IdOrder
import Trumpet.Lib.Digits

/-! Reading an identifier back from its hyphenated text. -/

namespace Trumpet

def digitValue (c : Char) : Option Nat := Digits.digit? 16 c

/-- Two digits an octet. -/
def octets : List Char → Option (List UInt8)
  | [] => some []
  | a :: b :: rest => do
    let hi ← digitValue a
    let lo ← digitValue b
    let bytes ← octets rest
    return UInt8.ofNat (hi * 16 + lo) :: bytes
  | _ => none

/-- Reads the form identifiers are printed in, and no other. -/
def Uuid.ofText (s : String) : Except String Uuid :=
  match octets (s.toList.filter fun c => c ≠ '-') with
  | none => .error "invalid character"
  | some bytes =>
    if h : bytes.length = 16 then
      if Uuid.toString ⟨bytes, h⟩ = s then .ok ⟨bytes, h⟩ else .error "invalid group length"
    else .error "invalid length"

theorem digitValue_hexDigit {n : Nat} (h : n < 16) : digitValue (hexDigit n) = some n := by
  have hall : ∀ n : Fin 16, digitValue (hexDigit n.val) = some n.val := by decide
  exact hall ⟨n, h⟩

theorem octets_flatMap (bytes : List UInt8) : octets (bytes.flatMap hexOctet) = some bytes := by
  induction bytes with
  | nil => rfl
  | cons b bytes ih =>
    have hb := b.toNat_lt
    have hdiv : b.toNat / 16 * 16 + b.toNat % 16 = b.toNat := by omega
    have hoctet : UInt8.ofNat (b.toNat / 16 * 16 + b.toNat % 16) = b := by
      rw [hdiv, UInt8.ofNat_toNat]
    simp only [List.flatMap_cons, hexOctet, List.cons_append, List.nil_append, octets,
      digitValue_hexDigit (show b.toNat / 16 < 16 by omega),
      digitValue_hexDigit (show b.toNat % 16 < 16 by omega), ih, bind, Option.bind, pure, hoctet]

theorem filter_digits (bytes : List UInt8) :
    (bytes.flatMap hexOctet).filter (fun c => c ≠ '-') = bytes.flatMap hexOctet := by
  have hdigit : ∀ n : Fin 16, hexDigit n.val ≠ '-' := by decide
  refine List.filter_eq_self.mpr fun c hc => decide_eq_true ?_
  obtain ⟨b, -, hcb⟩ := List.mem_flatMap.mp hc
  have hb := b.toNat_lt
  simp only [hexOctet, List.mem_cons, List.not_mem_nil, or_false] at hcb
  rcases hcb with rfl | rfl
  · exact hdigit ⟨b.toNat / 16, by omega⟩
  · exact hdigit ⟨b.toNat % 16, by omega⟩

theorem Uuid.digits_toString (u : Uuid) :
    u.toString.toList.filter (fun c => c ≠ '-') = u.bytes.flatMap hexOctet := by
  have hbytes : u.bytes = u.bytes.take 4 ++ ((u.bytes.drop 4).take 2 ++ ((u.bytes.drop 6).take 2 ++
      ((u.bytes.drop 8).take 2 ++ u.bytes.drop 10))) := by
    have h4 := List.take_append_drop 4 u.bytes
    have h6 := List.take_append_drop 2 (u.bytes.drop 4)
    have h8 := List.take_append_drop 2 (u.bytes.drop 6)
    have h10 := List.take_append_drop 2 (u.bytes.drop 8)
    rw [List.drop_drop] at h6 h8 h10
    rw [h10, h8, h6, h4]
  rw [Uuid.toList_toString]
  conv_rhs => rw [hbytes]
  simp only [List.filter_append, List.filter_cons, filter_digits, List.flatMap_append]
  simp

theorem Uuid.ofText_toString (u : Uuid) : Uuid.ofText u.toString = .ok u := by
  rw [Uuid.ofText, Uuid.digits_toString, octets_flatMap]
  simp only [u.length_eq, dif_pos, if_pos]

end Trumpet
