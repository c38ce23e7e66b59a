import Mathlib.Algebra.Group.Nat.Defs

/-! # Big-endian numbers -/

namespace BigEndian

abbrev Bytes := List UInt8

/-- The `k` low octets of `n`, most significant first. -/
def be : Nat → Nat → Bytes
  | 0, _ => []
  | k + 1, n => UInt8.ofNat (n / 256 ^ k) :: be k n

/-- The number whose octets are `bytes`. -/
def ofBytes (bytes : Bytes) : Nat := bytes.foldl (fun n b => n * 256 + b.toNat) 0

@[simp] theorem be_length (k n : Nat) : (be k n).length = k := by
  induction k with
  | zero => rfl
  | succ k ih => rw [be, List.length_cons, ih]

end BigEndian
