import Mathlib.Data.String.Basic
import Trumpet.Core.Ids
import Trumpet.Lib.Lexicographic

/-! The order of identifiers: by value, which is the order of their texts. -/

namespace Trumpet

/-- `Ord` compares the octets. -/
instance : LE Uuid := ⟨fun a b => ¬ b.bytes < a.bytes⟩

instance (a b : Uuid) : Decidable (a ≤ b) := inferInstanceAs (Decidable (¬ b.bytes < a.bytes))

instance : LE TaskId := ⟨fun a b => a.uuid ≤ b.uuid⟩

instance (a b : TaskId) : Decidable (a ≤ b) := inferInstanceAs (Decidable (a.uuid ≤ b.uuid))

theorem length_hexOctet (b : UInt8) : (hexOctet b).length = 2 := rfl

theorem hexDigit_lt_iff {m n : Nat} (hm : m < 16) (hn : n < 16) :
    hexDigit m < hexDigit n ↔ m < n := by
  have hall : ∀ m n : Fin 16, hexDigit m.val < hexDigit n.val ↔ m.val < n.val := by decide
  exact hall ⟨m, hm⟩ ⟨n, hn⟩

theorem hexDigit_inj {m n : Nat} (hm : m < 16) (hn : n < 16) (h : hexDigit m = hexDigit n) :
    m = n := by
  have hmn := hexDigit_lt_iff hm hn
  have hnm := hexDigit_lt_iff hn hm
  rw [h] at hmn hnm
  have hle : ¬ m < n := fun hlt => lt_irrefl _ (hmn.mpr hlt)
  have hge : ¬ n < m := fun hlt => lt_irrefl _ (hnm.mpr hlt)
  omega

theorem hexOctet_lt_iff (a b : UInt8) : hexOctet a < hexOctet b ↔ a < b := by
  have ha := a.toNat_lt
  have hb := b.toNat_lt
  have hhi := @hexDigit_lt_iff (a.toNat / 16) (b.toNat / 16) (by omega) (by omega)
  have hlo := @hexDigit_lt_iff (a.toNat % 16) (b.toNat % 16) (by omega) (by omega)
  have heq := @hexDigit_inj (a.toNat / 16) (b.toNat / 16) (by omega) (by omega)
  simp only [hexOctet, List.cons_lt_cons_iff, List.not_lt_nil, and_false, or_false, hhi, hlo,
    UInt8.lt_iff_toNat_lt]
  constructor
  · rintro (h | ⟨h, hl⟩)
    · omega
    · have := heq h
      omega
  · intro h
    by_cases hd : a.toNat / 16 < b.toNat / 16
    · exact .inl hd
    · have : a.toNat / 16 = b.toNat / 16 := by omega
      exact .inr ⟨by rw [this], by omega⟩

theorem hexOctet_injective : Function.Injective hexOctet := by
  intro a b h
  have ha := a.toNat_lt
  have hb := b.toNat_lt
  simp only [hexOctet, List.cons.injEq, and_true] at h
  have hhi := hexDigit_inj (by omega) (by omega) h.1
  have hlo := hexDigit_inj (by omega) (by omega) h.2
  exact UInt8.toNat_inj.mp (by omega)

/-- One group of the text and the hyphen after it. -/
theorem group_lt_iff {xs ys : List UInt8} {x y : List Char} (h : xs.length = ys.length) :
    xs.flatMap hexOctet ++ '-' :: x < ys.flatMap hexOctet ++ '-' :: y ↔
      xs < ys ∨ xs = ys ∧ x < y := by
  have hlen : (xs.flatMap hexOctet).length = (ys.flatMap hexOctet).length := by
    rw [Lexicographic.length_flatMap length_hexOctet, Lexicographic.length_flatMap length_hexOctet,
      h]
  have heq : xs.flatMap hexOctet = ys.flatMap hexOctet ↔ xs = ys :=
    ⟨Lexicographic.flatMap_injective length_hexOctet hexOctet_injective h, fun e => e ▸ rfl⟩
  rw [Lexicographic.append_lt_append_iff hlen, heq, List.cons_lt_cons_self,
    Lexicographic.flatMap_lt_iff length_hexOctet hexOctet_injective hexOctet_lt_iff h]

/-- The digits of `k` octets after the first `n`. -/
theorem digits_between (n k : Nat) (xs : List UInt8) :
    ((xs.flatMap hexOctet).drop (n * 2)).take (k * 2) =
      ((xs.drop n).take k).flatMap hexOctet := by
  rw [Lexicographic.drop_flatMap length_hexOctet, Lexicographic.take_flatMap length_hexOctet]

theorem Uuid.toList_toString (u : Uuid) : u.toString.toList =
    (u.bytes.take 4).flatMap hexOctet ++ '-' :: (((u.bytes.drop 4).take 2).flatMap hexOctet ++
      '-' :: (((u.bytes.drop 6).take 2).flatMap hexOctet ++
        '-' :: (((u.bytes.drop 8).take 2).flatMap hexOctet ++
          '-' :: (u.bytes.drop 10).flatMap hexOctet))) := by
  have h0 : (u.bytes.flatMap hexOctet).take 8 = (u.bytes.take 4).flatMap hexOctet :=
    Lexicographic.take_flatMap length_hexOctet 4 u.bytes
  have h10 : (u.bytes.flatMap hexOctet).drop 20 = (u.bytes.drop 10).flatMap hexOctet :=
    Lexicographic.drop_flatMap length_hexOctet 10 u.bytes
  have h4 := digits_between 4 2 u.bytes
  have h6 := digits_between 6 2 u.bytes
  have h8 := digits_between 8 2 u.bytes
  rw [← h0, ← h4, ← h6, ← h8, ← h10, Uuid.toString, String.toList_ofList]
  simp only [List.append_assoc, List.cons_append, Nat.reduceMul]

/-- Identifiers are ordered as their texts are. -/
theorem Uuid.toString_lt_iff (a b : Uuid) : a.toString < b.toString ↔ a.bytes < b.bytes := by
  have ha := a.length_eq
  have hb := b.length_eq
  have hfirst : (a.bytes.take 4).length = (b.bytes.take 4).length := by
    rw [List.length_take, List.length_take, ha, hb]
  have hlen : ∀ n k, ((a.bytes.drop n).take k).length = ((b.bytes.drop n).take k).length := by
    intro n k
    simp only [List.length_take, List.length_drop, ha, hb]
  have hdrop : ∀ n, (a.bytes.drop n).length = (b.bytes.drop n).length := by
    intro n
    simp only [List.length_drop, ha, hb]
  rw [String.lt_iff_toList_lt, Uuid.toList_toString, Uuid.toList_toString,
    group_lt_iff hfirst, group_lt_iff (hlen 4 2), group_lt_iff (hlen 6 2),
    group_lt_iff (hlen 8 2), Lexicographic.flatMap_lt_iff length_hexOctet hexOctet_injective
      hexOctet_lt_iff (hdrop 10)]
  have hcut : ∀ n k, a.bytes.drop n < b.bytes.drop n ↔
      (a.bytes.drop n).take k < (b.bytes.drop n).take k ∨
        (a.bytes.drop n).take k = (b.bytes.drop n).take k ∧
          a.bytes.drop (n + k) < b.bytes.drop (n + k) := by
    intro n k
    rw [Lexicographic.take_drop_lt_iff k (hdrop n), List.drop_drop, List.drop_drop]
  rw [← hcut 8 2, ← hcut 6 2, ← hcut 4 2]
  exact (Lexicographic.take_drop_lt_iff 4 (ha.trans hb.symm)).symm

theorem Uuid.toString_injective : Function.Injective Uuid.toString := by
  intro a b h
  have hab := Uuid.toString_lt_iff a b
  have hba := Uuid.toString_lt_iff b a
  rw [h] at hab hba
  have hle : ¬ a.bytes < b.bytes := fun hlt => lt_irrefl _ (hab.mpr hlt)
  have hge : ¬ b.bytes < a.bytes := fun hlt => lt_irrefl _ (hba.mpr hlt)
  have hbytes : a.bytes = b.bytes := List.le_antisymm hge hle
  cases a
  cases b
  cases hbytes
  rfl

theorem TaskId.le_iff (a b : TaskId) : a ≤ b ↔ a.toString ≤ b.toString :=
  (not_congr (Uuid.toString_lt_iff b.uuid a.uuid).symm).trans not_lt

theorem TaskId.toString_injective : Function.Injective TaskId.toString := by
  intro a b h
  cases a
  cases b
  exact congrArg TaskId.mk (Uuid.toString_injective h)

end Trumpet
