import Mathlib.Algebra.Group.Int.Defs
import Mathlib.Algebra.Group.Nat.Defs
import Mathlib.Tactic.Ring
import Trumpet.Core.Json

/-! The values of doubles, and that a conversion from an integer takes the nearest. -/

namespace Trumpet

namespace F64

def exponent (f : F64) : Nat := f.bits.toNat / 2 ^ 52 % 2 ^ 11

def fraction (f : F64) : Nat := f.bits.toNat % 2 ^ 52

def negative (f : F64) : Bool := decide (2 ^ 63 ≤ f.bits.toNat)

/-- Every finite double is a multiple of `2 ^ -scale`, the least positive one. -/
def scale : Nat := 1074

/-- The absolute value of a finite double, in units of `2 ^ -scale`. -/
def magnitude (f : F64) : Nat :=
  if f.exponent = 0 then f.fraction else (2 ^ 52 + f.fraction) * 2 ^ (f.exponent - 1)

/-- The value of a finite double, in units of `2 ^ -scale`. -/
def units (f : F64) : Int := if f.negative then -f.magnitude else f.magnitude

/-- No finite double is closer to the integer. -/
def Nearest (v : Int) (f : F64) : Prop :=
  f.isFinite = true ∧ ∀ g : F64, g.isFinite = true →
    (f.units - v * 2 ^ scale).natAbs ≤ (g.units - v * 2 ^ scale).natAbs

/-- The value of the double is the integer. -/
def Is (v : Int) (f : F64) : Prop := f.units = v * 2 ^ scale

theorem isFinite_iff (f : F64) : f.isFinite = true ↔ f.exponent ≠ 2047 := by
  unfold isFinite exponent
  rw [bne_iff_ne, ne_eq, ← BitVec.toNat_inj, BitVec.extractLsb'_toNat, Nat.shiftRight_eq_div_pow]
  rfl

/-! ## Rounding -/

/-- The significand of the nearest double, with its leading one. -/
def significand (n : Nat) : Nat :=
  if Nat.log2 n ≤ 52 then n * 2 ^ (52 - Nat.log2 n)
  else
    let q := n / 2 ^ (Nat.log2 n - 52)
    let r := n % 2 ^ (Nat.log2 n - 52)
    let half := 2 ^ (Nat.log2 n - 53)
    if half < r ∨ r = half ∧ q % 2 = 1 then q + 1 else q

theorem ofNat_eq {n : Nat} (h : n ≠ 0) :
    F64.ofNat n = ⟨BitVec.ofNat 64 ((Nat.log2 n + 1022) * 2 ^ 52 + significand n)⟩ := by
  unfold F64.ofNat significand
  rw [if_neg h]

theorem significand_bounds {n : Nat} (h : n ≠ 0) :
    2 ^ 52 ≤ significand n ∧ significand n ≤ 2 ^ 53 := by
  have hlo := Nat.log2_self_le h
  have hhi := Nat.lt_log2_self (n := n)
  unfold significand
  by_cases hs : Nat.log2 n ≤ 52
  · rw [if_pos hs]
    have hpow : 2 ^ Nat.log2 n * 2 ^ (52 - Nat.log2 n) = 2 ^ 52 := by
      rw [← Nat.pow_add, Nat.add_sub_cancel' hs]
    have hpos : 0 < 2 ^ (52 - Nat.log2 n) := Nat.two_pow_pos _
    constructor
    · rw [← hpow]
      exact Nat.mul_le_mul_right _ hlo
    · have hlt := Nat.mul_le_mul_right (2 ^ (52 - Nat.log2 n)) hhi.le
      rw [Nat.pow_succ, Nat.mul_right_comm, hpow] at hlt
      exact hlt
  · rw [if_neg hs]
    have hsplit : Nat.log2 n = (Nat.log2 n - 52) + 52 := by omega
    have hqlo : 2 ^ 52 ≤ n / 2 ^ (Nat.log2 n - 52) := by
      rw [Nat.le_div_iff_mul_le (Nat.two_pow_pos _), ← Nat.pow_add, Nat.add_comm 52, ← hsplit]
      exact hlo
    have hqhi : n / 2 ^ (Nat.log2 n - 52) < 2 ^ 53 := by
      rw [Nat.div_lt_iff_lt_mul (Nat.two_pow_pos _), ← Nat.pow_add]
      have he : 53 + (Nat.log2 n - 52) = Nat.log2 n + 1 := by omega
      rw [he]
      exact hhi
    dsimp only
    split <;> omega

/-- A pattern with exponent field `e + 1022` or, where the significand carries, one
more. -/
theorem fields_of_bits {f : F64} {e m : Nat} (hb : f.bits.toNat = (e + 1022) * 2 ^ 52 + m)
    (he : e < 64) (hlo : 2 ^ 52 ≤ m) (hhi : m ≤ 2 ^ 53) :
    f.magnitude = m * 2 ^ (e + 1022) ∧ f.negative = false ∧ f.isFinite = true := by
  rw [isFinite_iff]
  unfold magnitude negative fraction exponent
  rw [hb]
  have hneg : ¬ 2 ^ 63 ≤ (e + 1022) * 2 ^ 52 + m := by omega
  refine ⟨?_, decide_eq_false hneg, by omega⟩
  by_cases hm : m = 2 ^ 53
  · have hexp : ((e + 1022) * 2 ^ 52 + m) / 2 ^ 52 % 2 ^ 11 = e + 1024 := by omega
    have hfrac : ((e + 1022) * 2 ^ 52 + m) % 2 ^ 52 = 0 := by omega
    have hsub : e + 1024 - 1 = 1 + (e + 1022) := by omega
    rw [hexp, hfrac, if_neg (by omega), hm, hsub, Nat.pow_add, Nat.add_zero, ← Nat.mul_assoc,
      ← Nat.pow_add]
  · have hexp : ((e + 1022) * 2 ^ 52 + m) / 2 ^ 52 % 2 ^ 11 = e + 1023 := by omega
    have hfrac : ((e + 1022) * 2 ^ 52 + m) % 2 ^ 52 = m - 2 ^ 52 := by omega
    have hsub : e + 1023 - 1 = e + 1022 := by omega
    rw [hexp, hfrac, if_neg (by omega), hsub, Nat.add_sub_cancel' hlo]

theorem log2_lt_64 {n : Nat} (h : n < 2 ^ 64) : Nat.log2 n < 64 := by
  by_cases hz : n = 0
  · rw [hz]
    decide
  · exact (Nat.log2_lt hz).mpr h

theorem bits_ofNat {n : Nat} (h : n < 2 ^ 64) (hz : n ≠ 0) :
    (F64.ofNat n).bits.toNat = (Nat.log2 n + 1022) * 2 ^ 52 + significand n := by
  have he := log2_lt_64 h
  obtain ⟨hlo, hhi⟩ := significand_bounds hz
  rw [ofNat_eq hz, BitVec.toNat_ofNat]
  exact Nat.mod_eq_of_lt (by omega)

/-- A natural number below `2 ^ 64` as a double. -/
theorem ofNat_fields {n : Nat} (h : n < 2 ^ 64) :
    (F64.ofNat n).magnitude = significand n * 2 ^ (Nat.log2 n + 1022) ∧
      (F64.ofNat n).negative = false ∧ (F64.ofNat n).isFinite = true := by
  by_cases hz : n = 0
  · subst hz
    refine ⟨?_, rfl, rfl⟩
    have hzero : significand 0 = 0 := by decide
    rw [hzero, Nat.zero_mul]
    rfl
  · obtain ⟨hlo, hhi⟩ := significand_bounds hz
    exact fields_of_bits (bits_ofNat h hz) (log2_lt_64 h) hlo hhi

/-- Up to `2 ^ 53` nothing is rounded. -/
theorem significand_exact {n : Nat} (h : n ≤ 2 ^ 53) :
    significand n * 2 ^ (Nat.log2 n + 1022) = n * 2 ^ scale := by
  by_cases hs : Nat.log2 n ≤ 52
  · unfold significand
    have hadd : 52 - Nat.log2 n + (Nat.log2 n + 1022) = scale := by
      unfold scale
      omega
    rw [if_pos hs, Nat.mul_assoc, ← Nat.pow_add, hadd]
  · have hn : n = 2 ^ 53 := by
      have hz : n ≠ 0 := by
        rintro rfl
        exact hs (by decide)
      have hle := Nat.log2_self_le hz
      have hpow : 2 ^ 53 ≤ 2 ^ Nat.log2 n := Nat.pow_le_pow_right (by decide) (by omega)
      omega
    have hsig : significand (2 ^ 53) = 2 ^ 52 := by decide
    have hadd : 52 + (Nat.log2 (2 ^ 53) + 1022) = 53 + scale := by decide
    rw [hn, hsig, ← Nat.pow_add, ← Nat.pow_add, hadd]

/-- Rounding half to even leaves a multiple that none is closer than. -/
theorem rounded_nearest (q r half : Nat) (k : Int) (hr : r < 2 * half) :
    (((if half < r ∨ r = half ∧ q % 2 = 1 then q + 1 else q : Nat) : Int) * (2 * half) -
        (q * (2 * half) + r)).natAbs ≤ (k * (2 * half) - (q * (2 * half) + r)).natAbs := by
  have hk : k * (2 * (half : Int)) = (k - q) * (2 * half) + q * (2 * half) := by ring
  have hup : ((q + 1 : Nat) : Int) * (2 * half) = q * (2 * half) + 2 * half := by
    push_cast
    ring
  have hfar : (k - q) * (2 * (half : Int)) ≤ 0 ∨ 2 * (half : Int) ≤ (k - q) * (2 * half) := by
    by_cases hd : k - q ≤ 0
    · exact .inl (Int.mul_nonpos_of_nonpos_of_nonneg hd (by omega))
    · right
      have hone : 1 * (2 * (half : Int)) ≤ (k - q) * (2 * half) :=
        Int.mul_le_mul_of_nonneg_right (by omega) (by omega)
      rwa [Int.one_mul] at hone
  rw [hk]
  generalize (k - q) * (2 * (half : Int)) = d at hfar
  split
  · rw [hup]
    generalize (q : Int) * (2 * half) = p
    omega
  · generalize (q : Int) * (2 * half) = p
    omega

/-- Among the multiples of the last place no other is closer. -/
theorem significand_nearest {n : Nat} (hs : 53 ≤ Nat.log2 n) (k : Int) :
    ((significand n : Int) * 2 ^ (Nat.log2 n - 52) - n).natAbs ≤
      (k * 2 ^ (Nat.log2 n - 52) - n).natAbs := by
  have hplace : 2 ^ (Nat.log2 n - 52) = 2 * 2 ^ (Nat.log2 n - 53) := by
    rw [← Nat.pow_succ']
    congr 1
    omega
  have hr : n % 2 ^ (Nat.log2 n - 52) < 2 * 2 ^ (Nat.log2 n - 53) := by
    rw [← hplace]
    exact Nat.mod_lt _ (Nat.two_pow_pos _)
  have hn : ((n / 2 ^ (Nat.log2 n - 52) * (2 * 2 ^ (Nat.log2 n - 53)) +
      n % 2 ^ (Nat.log2 n - 52) : Nat) : Int) = n := by
    rw [← hplace, Nat.div_add_mod']
  have key := rounded_nearest (n / 2 ^ (Nat.log2 n - 52)) _ _ k hr
  have hcast : (2 : Int) ^ (Nat.log2 n - 52) = 2 * ((2 ^ (Nat.log2 n - 53) : Nat) : Int) := by
    have := congrArg (Nat.cast (R := Int)) hplace
    push_cast at this ⊢
    exact this
  unfold significand
  rw [if_neg (by omega), hcast]
  push_cast at key hn ⊢
  rw [hn] at key
  exact key

/-- A double from `2 ^ e` on is a multiple of its last place there. -/
theorem units_multiple {g : F64} {e : Nat} (he : 53 ≤ e) (h : 2 ^ e * 2 ^ scale ≤ g.units) :
    ∃ k : Int, g.units = k * 2 ^ (e - 52) * 2 ^ scale := by
  have hpow : (2 : Int) ^ e * 2 ^ scale = ((2 ^ (e + scale) : Nat) : Int) := by
    rw [← pow_add]
    push_cast
    rfl
  rw [hpow] at h
  have hpos : 0 < 2 ^ (e + scale) := Nat.two_pow_pos _
  have hneg : g.negative = false := by
    cases hn : g.negative with
    | false => rfl
    | true =>
      unfold units at h
      rw [if_pos hn] at h
      omega
  have hunits : g.units = g.magnitude := by
    unfold units
    rw [hneg, if_neg Bool.false_ne_true]
  rw [hunits] at h ⊢
  have hmag : 2 ^ (e + scale) ≤ g.magnitude := by omega
  have hfrac : g.fraction < 2 ^ 52 := Nat.mod_lt _ (by decide)
  have hexp : g.exponent ≠ 0 := by
    intro hz
    unfold magnitude at hmag
    rw [if_pos hz] at hmag
    have hbig : 2 ^ 52 ≤ 2 ^ (e + scale) := Nat.pow_le_pow_right (by decide) (by omega)
    omega
  unfold magnitude at hmag ⊢
  rw [if_neg hexp] at hmag ⊢
  have hlt : 2 ^ (e + scale) < 2 ^ (53 + (g.exponent - 1)) := by
    rw [Nat.pow_add 2 53]
    exact Nat.lt_of_le_of_lt hmag (Nat.mul_lt_mul_of_pos_right (by omega) (Nat.two_pow_pos _))
  have hle : e + scale < 53 + (g.exponent - 1) :=
    (Nat.pow_lt_pow_iff_right (by decide)).mp hlt
  have hsplit : g.exponent - 1 = (g.exponent - 1 - (e - 52 + scale)) + (e - 52) + scale := by omega
  refine ⟨((2 ^ 52 + g.fraction) * 2 ^ (g.exponent - 1 - (e - 52 + scale)) : Nat), ?_⟩
  rw [hsplit, Nat.pow_add, Nat.pow_add]
  have hback : (g.exponent - 1 - (e - 52 + scale)) + (e - 52) + scale - (e - 52 + scale) =
      g.exponent - 1 - (e - 52 + scale) := by omega
  rw [hback]
  push_cast
  ring

/-- A double below a power of two that is at most `n` is no closer to `n`. -/
theorem power_nearer {n e : Nat} {g : F64} (hlow : 2 ^ e ≤ n)
    (hbelow : ¬ 2 ^ e * 2 ^ scale ≤ g.units) :
    (((2 ^ e : Nat) : Int) - n).natAbs * ((2 : Int) ^ scale).natAbs ≤
      (g.units - n * 2 ^ scale).natAbs := by
  rw [← Int.natAbs_mul, Int.sub_mul]
  have hle : ((2 ^ e : Nat) : Int) * 2 ^ scale ≤ (n : Int) * 2 ^ scale := by
    apply Int.mul_le_mul_of_nonneg_right
    · exact Int.ofNat_le.mpr hlow
    · exact Int.le_of_lt (Int.pow_pos (by decide))
  push_cast at hle ⊢
  generalize (2 : Int) ^ scale = s at hle hbelow ⊢
  generalize (n : Int) * s = a at hle ⊢
  generalize (2 : Int) ^ e * s = b at hle hbelow ⊢
  omega

/-! ## The conversions -/

theorem ofNat_units {n : Nat} (h : n < 2 ^ 64) :
    (F64.ofNat n).units = ((significand n * 2 ^ (Nat.log2 n + 1022) : Nat) : Int) := by
  obtain ⟨hm, hneg, _⟩ := ofNat_fields h
  unfold units
  rw [hneg, if_neg Bool.false_ne_true, hm]

theorem ofNat_is {n : Nat} (h : n ≤ 2 ^ 53) : Is n (F64.ofNat n) := by
  unfold Is
  rw [ofNat_units (by omega), significand_exact h]
  push_cast
  rfl

theorem ofNat_nearest {n : Nat} (h : n < 2 ^ 64) : Nearest n (F64.ofNat n) := by
  refine ⟨(ofNat_fields h).2.2, fun g hg => ?_⟩
  by_cases hsmall : n ≤ 2 ^ 53
  · have his : (F64.ofNat n).units = n * 2 ^ scale := ofNat_is hsmall
    rw [his, Int.sub_self]
    exact Nat.zero_le _
  · have he : 53 ≤ Nat.log2 n := by
      rw [Nat.le_log2 (by omega)]
      omega
    have hlow : 2 ^ Nat.log2 n ≤ n := Nat.log2_self_le (by omega)
    have hplaces : Nat.log2 n + 1022 = (Nat.log2 n - 52) + scale := by
      unfold scale
      omega
    have hunits : (F64.ofNat n).units - n * 2 ^ scale =
        ((significand n : Int) * 2 ^ (Nat.log2 n - 52) - n) * 2 ^ scale := by
      rw [ofNat_units h, hplaces, Nat.pow_add]
      push_cast
      ring
    rw [hunits, Int.natAbs_mul]
    by_cases hbig : 2 ^ Nat.log2 n * 2 ^ scale ≤ g.units
    · -- `g` is a multiple of the last place as well.
      obtain ⟨k, hk⟩ := units_multiple he hbig
      have hdist : g.units - n * 2 ^ scale =
          (k * 2 ^ (Nat.log2 n - 52) - n) * 2 ^ scale := by
        rw [hk]
        ring
      rw [hdist, Int.natAbs_mul]
      exact Nat.mul_le_mul_right _ (significand_nearest he k)
    · -- `g` is below the power of two under `n`, which is a multiple of the last place.
      have hnear := significand_nearest he (2 ^ 52)
      have hpow : (2 : Int) ^ 52 * 2 ^ (Nat.log2 n - 52) = ((2 ^ Nat.log2 n : Nat) : Int) := by
        rw [← pow_add]
        have hadd : 52 + (Nat.log2 n - 52) = Nat.log2 n := by omega
        rw [hadd]
        push_cast
        rfl
      rw [hpow] at hnear
      exact Nat.le_trans (Nat.mul_le_mul_right _ hnear) (power_nearer hlow hbig)

/-- The double of the opposite sign. -/
def neg (f : F64) : F64 := ⟨f.bits + BitVec.ofNat 64 (2 ^ 63)⟩

theorem toNat_neg (f : F64) : f.neg.bits.toNat = (f.bits.toNat + 2 ^ 63) % 2 ^ 64 := by
  unfold neg
  rw [BitVec.toNat_add, BitVec.toNat_ofNat, Nat.mod_eq_of_lt (by decide : 2 ^ 63 < 2 ^ 64)]

theorem neg_exponent (f : F64) : f.neg.exponent = f.exponent := by
  unfold exponent
  rw [toNat_neg]
  omega

theorem neg_fraction (f : F64) : f.neg.fraction = f.fraction := by
  unfold fraction
  rw [toNat_neg]
  omega

theorem neg_isFinite (f : F64) : f.neg.isFinite = f.isFinite := by
  rw [Bool.eq_iff_iff, isFinite_iff, isFinite_iff, neg_exponent]

theorem neg_units (f : F64) : f.neg.units = -f.units := by
  have hlt := f.bits.isLt
  have hneg : f.neg.negative = !f.negative := by
    unfold negative
    rw [toNat_neg, ← decide_not, decide_eq_decide]
    omega
  unfold units magnitude
  rw [hneg, neg_exponent, neg_fraction]
  cases f.negative with
  | false => rfl
  | true => exact (Int.neg_neg _).symm

theorem neg_nearest {v : Int} {f : F64} (h : Nearest v f) : Nearest (-v) f.neg := by
  refine ⟨(neg_isFinite f).trans h.1, fun g hg => ?_⟩
  have key := h.2 g.neg ((neg_isFinite g).trans hg)
  rw [neg_units] at key ⊢
  rw [Int.neg_mul]
  omega

theorem ofInt_of_neg {i : Int} (hi : i < 0) (hlo : -2 ^ 63 ≤ i) :
    F64.ofInt i = (F64.ofNat (-i).toNat).neg := by
  have hlt : (F64.ofNat (-i).toNat).bits.toNat < 2 ^ 63 := by
    have hneg := (ofNat_fields (n := (-i).toNat) (by omega)).2.1
    unfold negative at hneg
    exact Nat.not_le.mp (of_decide_eq_false hneg)
  have hsign : (F64.ofNat (-i).toNat).bits ||| (1#64 <<< 63) =
      (F64.ofNat (-i).toNat).neg.bits := by
    apply BitVec.eq_of_toNat_eq
    have hone : (1#64 <<< 63).toNat = 2 ^ 63 * 1 := by decide
    rw [BitVec.toNat_or, toNat_neg, Nat.or_comm, hone, ← Nat.two_pow_add_eq_or_of_lt hlt]
    omega
  unfold F64.ofInt
  rw [if_neg (by omega), hsign]

/-- A 64-bit integer of either signedness becomes the nearest double. -/
theorem ofInt_nearest {i : Int} (hlo : -2 ^ 63 ≤ i) (hhi : i < 2 ^ 64) :
    Nearest i (F64.ofInt i) := by
  by_cases hi : 0 ≤ i
  · have hn := ofNat_nearest (n := i.toNat) (by omega)
    rw [Int.toNat_of_nonneg hi] at hn
    unfold F64.ofInt
    rwa [if_pos hi]
  · have hn := neg_nearest (ofNat_nearest (n := (-i).toNat) (by omega))
    rw [Int.toNat_of_nonneg (by omega), Int.neg_neg] at hn
    rwa [ofInt_of_neg (by omega) hlo]

theorem ofInt_is {i : Int} (h : i.natAbs ≤ 2 ^ 53) : Is i (F64.ofInt i) := by
  by_cases hi : 0 ≤ i
  · have hn := ofNat_is (n := i.toNat) (by omega)
    rw [Int.toNat_of_nonneg hi] at hn
    unfold F64.ofInt
    rwa [if_pos hi]
  · have hn : (F64.ofNat (-i).toNat).units = (-i).toNat * 2 ^ scale := ofNat_is (by omega)
    rw [Int.toNat_of_nonneg (by omega), Int.neg_mul] at hn
    unfold Is
    rw [ofInt_of_neg (by omega) (by omega), neg_units, hn, Int.neg_neg]

end F64

end Trumpet
