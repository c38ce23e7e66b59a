import Mathlib.Data.Option.Basic
import Mathlib.Tactic.Ring

/-!
# Numbers written in digits

The value of a digit and of a sequence of digits in a base up to sixteen, and the two ways
to write a number: in as many digits as it needs, and in a given number of them.
-/

namespace Digits

/-- Letters in either case follow the decimal digits. -/
def value? (c : Char) : Option Nat :=
  let n := c.toNat
  if 48 ≤ n ∧ n < 58 then some (n - 48)
  else if 65 ≤ n ∧ n < 91 then some (n - 55)
  else if 97 ≤ n ∧ n < 123 then some (n - 87)
  else none

def digit? (base : Nat) (c : Char) : Option Nat := (value? c).filter fun d => d < base

/-- The number `n` with the digits behind it. -/
def continue? (base n : Nat) (cs : List Char) : Option Nat :=
  cs.foldlM (fun n c => (digit? base c).map fun d => base * n + d) n

def number? (base : Nat) (cs : List Char) : Option Nat :=
  if cs = [] then none else continue? base 0 cs

def unsigned : List Char → List Char
  | '+' :: rest => rest
  | cs => cs

/-- A number below a bound: decimal digits, behind at most one plus sign. -/
def below? (bound : Nat) (cs : List Char) : Option Nat :=
  (number? 10 (unsigned cs)).filter fun n => n < bound

/-- The last digits of a number, `width` many. -/
def fixed (base : Nat) : Nat → Nat → List Char
  | 0, _ => []
  | width + 1, n => fixed base width (n / base) ++ [Nat.digitChar (n % base)]

/-! ## Reading what is written -/

section
variable {base : Nat}

theorem digit?_digitChar (hb : base ≤ 16) {d : Nat} (hd : d < base) :
    digit? base (Nat.digitChar d) = some d := by
  have hvalue : ∀ d : Fin 16, value? (Nat.digitChar d) = some d.val := by decide
  rw [digit?, hvalue ⟨d, Nat.lt_of_lt_of_le hd hb⟩, Option.filter_some, if_pos (decide_eq_true hd)]

theorem continue?_append (n : Nat) (cs ds : List Char) :
    continue? base n (cs ++ ds) = (continue? base n cs).bind fun m => continue? base m ds := by
  rw [continue?, List.foldlM_append]
  rfl

theorem continue?_digitChar (hb : base ≤ 16) {d : Nat} (hd : d < base) (n : Nat) :
    continue? base n [Nat.digitChar d] = some (base * n + d) := by
  simp only [continue?, List.foldlM_cons, List.foldlM_nil, digit?_digitChar hb hd]
  rfl

theorem continue?_toDigits (hb : 1 < base) (hb' : base ≤ 16) (n : Nat) :
    continue? base 0 (Nat.toDigits base n) = some n := by
  induction n using Nat.strong_induction_on with
  | _ n ih =>
    by_cases h : n < base
    · rw [Nat.toDigits_of_lt_base h, continue?_digitChar hb' h, Nat.mul_zero, Nat.zero_add]
    · have hlast := Nat.mod_lt n (Nat.lt_trans Nat.zero_lt_one hb)
      have hinit : n / base < n := Nat.div_lt_self (by omega) hb
      rw [Nat.toDigits_of_base_le hb (Nat.not_lt.mp h), continue?_append, ih _ hinit,
        Option.bind_some, continue?_digitChar hb' hlast, Nat.div_add_mod]

theorem number?_toDigits (hb : 1 < base) (hb' : base ≤ 16) (n : Nat) :
    number? base (Nat.toDigits base n) = some n := by
  rw [number?, if_neg Nat.toDigits_ne_nil, continue?_toDigits hb hb']

@[simp] theorem length_fixed (width n : Nat) : (fixed base width n).length = width := by
  induction width generalizing n with
  | zero => rfl
  | succ width ih => rw [fixed, List.length_append, ih, List.length_singleton]

theorem continue?_fixed (hb : base ≤ 16) {width n : Nat} (hn : n < base ^ width) (m : Nat) :
    continue? base m (fixed base width n) = some (base ^ width * m + n) := by
  induction width generalizing n with
  | zero =>
    obtain rfl := Nat.lt_one_iff.mp hn
    rw [Nat.pow_zero, Nat.one_mul]
    rfl
  | succ width ih =>
    have hbase : 0 < base := Nat.pos_of_ne_zero fun h => by
      rw [h, Nat.pow_succ, Nat.mul_zero] at hn
      exact Nat.not_lt_zero n hn
    have hinit : n / base < base ^ width := by
      rw [Nat.div_lt_iff_lt_mul hbase]
      exact hn
    rw [fixed, continue?_append, ih hinit, Option.bind_some,
      continue?_digitChar hb (Nat.mod_lt n hbase)]
    congr 1
    calc base * (base ^ width * m + n / base) + n % base
        = base ^ (width + 1) * m + (base * (n / base) + n % base) := by ring
      _ = base ^ (width + 1) * m + n := by rw [Nat.div_add_mod]

theorem number?_fixed (hb : base ≤ 16) {width n : Nat} (hw : 0 < width) (hn : n < base ^ width) :
    number? base (fixed base width n) = some n := by
  have hne : fixed base width n ≠ [] :=
    List.ne_nil_of_length_pos ((length_fixed width n).symm ▸ hw)
  rw [number?, if_neg hne, continue?_fixed hb hn, Nat.mul_zero, Nat.zero_add]

/-! ## What numbers are written with -/

theorem digit?_of_continue? {cs : List Char} {n m : Nat} (h : continue? base n cs = some m) :
    ∀ c ∈ cs, (digit? base c).isSome = true := by
  induction cs generalizing n with
  | nil => exact List.forall_mem_nil _
  | cons c cs ih =>
    rw [continue?, List.foldlM_cons] at h
    obtain ⟨m', hm', hrest⟩ := Option.bind_eq_some_iff.mp h
    obtain ⟨d, hd, -⟩ := Option.map_eq_some_iff.mp hm'
    rw [List.forall_mem_cons]
    exact ⟨by rw [hd]; rfl, ih hrest⟩

theorem digit?_of_number? {cs : List Char} {n : Nat} (h : number? base cs = some n) :
    cs ≠ [] ∧ ∀ c ∈ cs, (digit? base c).isSome = true := by
  unfold number? at h
  split at h
  · cases h
  · rename_i hne
    exact ⟨hne, digit?_of_continue? h⟩

theorem not_mem_of_number? {cs : List Char} {n : Nat} (h : number? base cs = some n) {c : Char}
    (hc : digit? base c = none) : c ∉ cs := by
  intro hm
  have hsome := (digit?_of_number? h).2 c hm
  rw [hc] at hsome
  cases hsome

end

theorem unsigned_of_not_mem {cs : List Char} (h : '+' ∉ cs) : unsigned cs = cs := by
  unfold unsigned
  split
  · exact absurd List.mem_cons_self h
  · rfl

theorem below?_toDigits {bound n : Nat} (h : n < bound) :
    below? bound (Nat.toDigits 10 n) = some n := by
  have hn : number? 10 (Nat.toDigits 10 n) = some n := number?_toDigits (by decide) (by decide) n
  have hplus : '+' ∉ Nat.toDigits 10 n := not_mem_of_number? hn (by decide)
  rw [below?, unsigned_of_not_mem hplus, hn, Option.filter_some, if_pos (decide_eq_true h)]

end Digits
