import Mathlib.Algebra.Group.Int.Defs
import Mathlib.Algebra.Group.Nat.Defs
import Trumpet.Core.Ids

/-! The arithmetic of `chrono` durations and UTC instants, in nanoseconds. Nothing
stands for a panic where the function does not return an option itself. -/

namespace Trumpet

namespace Chrono

/-- The longest duration: `i64::MAX` milliseconds. -/
def maxDuration : Int := (2 ^ 63 - 1) * 10 ^ 6

/-- The first instant, -262143-01-01 00:00:00. -/
def minUtc : DateTime := -8334601228800 * 10 ^ 9

/-- The last instant, +262142-12-31 23:59:59.999999999. -/
def maxUtc : DateTime := 8210266876799 * 10 ^ 9 + 999999999

def Representable (t : DateTime) : Prop := minUtc ≤ t ∧ t ≤ maxUtc

instance (t : DateTime) : Decidable (Representable t) := inferInstanceAs (Decidable (_ ∧ _))

/-- An instant the clock can show. -/
abbrev Utc := { t : DateTime // Representable t }

/-- Only the most negative count of milliseconds is no duration. -/
def tryMilliseconds (milliseconds : Int64) : Option Int :=
  if milliseconds = Int64.minValue then none else some (milliseconds.toInt * 10 ^ 6)

def fromStd (duration : Nat) : Option Int :=
  if (duration : Int) ≤ maxDuration then some duration else none

/-- Panics out of bounds. -/
def seconds (seconds : Int) : Option Int :=
  let d := seconds * 10 ^ 9
  if -maxDuration ≤ d ∧ d ≤ maxDuration then some d else none

/-- An instant moved by a duration; panics out of range. -/
def add (t : DateTime) (d : Int) : Option DateTime :=
  if Representable (t + d) then some (t + d) else none

/-- An instant moved back by a duration; panics out of range. -/
def sub (t : DateTime) (d : Int) : Option DateTime :=
  if Representable (t - d) then some (t - d) else none

theorem add_eq_some {t u : DateTime} {d : Int} :
    add t d = some u ↔ Representable (t + d) ∧ t + d = u := by
  simp [add]

/-! ## Counts of milliseconds read as signed -/

theorem toInt_toInt64 (ms : UInt64) :
    ms.toInt64.toInt = if ms.toNat < 2 ^ 63 then (ms.toNat : Int) else ms.toNat - 2 ^ 64 := by
  have h : ms.toInt64.toInt = ms.toBitVec.toInt := rfl
  rw [h, BitVec.toInt_eq_toNat_cond]
  have hn : ms.toBitVec.toNat = ms.toNat := rfl
  rw [hn]
  by_cases hlt : ms.toNat < 2 ^ 63
  · rw [if_pos (by omega), if_pos hlt]
  · rw [if_neg (by omega), if_neg hlt]
    rfl

theorem toInt64_eq_minValue (ms : UInt64) : ms.toInt64 = Int64.minValue ↔ ms.toNat = 2 ^ 63 := by
  rw [← Int64.toInt_inj, toInt_toInt64, Int64.toInt_minValue]
  have := ms.toNat_lt
  split <;> omega

end Chrono

end Trumpet
