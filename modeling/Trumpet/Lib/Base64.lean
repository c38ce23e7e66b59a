import Mathlib.Data.List.Basic

/-!
# Base64

Three bytes are four characters of six bits each. A last group of two bytes or of one is
filled up with zero bits and equals signs.
-/

namespace Base64

def char (n : Nat) : Char :=
  if n < 26 then Char.ofNat (65 + n)
  else if n < 52 then Char.ofNat (71 + n)
  else if n < 62 then Char.ofNat (n - 4)
  else if n = 62 then '+'
  else '/'

def value? (c : Char) : Option Nat :=
  let n := c.toNat
  if 65 ≤ n ∧ n < 91 then some (n - 65)
  else if 97 ≤ n ∧ n < 123 then some (n - 71)
  else if 48 ≤ n ∧ n < 58 then some (n + 4)
  else if n = 43 then some 62
  else if n = 47 then some 63
  else none

def encode : List UInt8 → List Char
  | [] => []
  | [a] => [char (a.toNat / 4), char (a.toNat % 4 * 16), '=', '=']
  | [a, b] =>
    [char (a.toNat / 4), char (a.toNat % 4 * 16 + b.toNat / 16), char (b.toNat % 16 * 4), '=']
  | a :: b :: c :: rest =>
    char (a.toNat / 4) :: char (a.toNat % 4 * 16 + b.toNat / 16) ::
      char (b.toNat % 16 * 4 + c.toNat / 64) :: char (c.toNat % 64) :: encode rest

/-- A last group of one byte: the bits that fill it up are zero. -/
def one? (p q : Char) : Option (List UInt8) := do
  let p ← value? p
  let q ← value? q
  if q % 16 = 0 then some [UInt8.ofNat (p * 4 + q / 16)] else none

def two? (p q r : Char) : Option (List UInt8) := do
  let p ← value? p
  let q ← value? q
  let r ← value? r
  if r % 4 = 0 then
    some [UInt8.ofNat (p * 4 + q / 16), UInt8.ofNat (q % 16 * 16 + r / 4)]
  else none

def three? (p q r s : Char) : Option (List UInt8) := do
  let p ← value? p
  let q ← value? q
  let r ← value? r
  let s ← value? s
  some [UInt8.ofNat (p * 4 + q / 16), UInt8.ofNat (q % 16 * 16 + r / 4),
    UInt8.ofNat (r % 4 * 64 + s)]

def decode? : List Char → Option (List UInt8)
  | [] => some []
  | p :: q :: r :: s :: rest =>
    if s = '=' then
      if rest = [] then if r = '=' then one? p q else two? p q r else none
    else do
      let bytes ← three? p q r s
      let more ← decode? rest
      some (bytes ++ more)
  | _ => none

/-! ## Decoding what is encoded -/

@[simp] theorem value?_char {n : Nat} (h : n < 64) : value? (char n) = some n := by
  have hall : ∀ n : Fin 64, value? (char n.val) = some n.val := by decide
  exact hall ⟨n, h⟩

theorem char_ne {n : Nat} (h : n < 64) : char n ≠ '=' := by
  have hall : ∀ n : Fin 64, char n.val ≠ '=' := by decide
  exact hall ⟨n, h⟩

theorem ofNat_eq {n : Nat} {b : UInt8} (h : n = b.toNat) : UInt8.ofNat n = b := by
  rw [h, UInt8.ofNat_toNat]

/-- The six high bits of a byte, and its two low bits in front of the next four. -/
theorem first_eq (a : UInt8) {x : Nat} (hx : x < 16) :
    UInt8.ofNat (a.toNat / 4 * 4 + (a.toNat % 4 * 16 + x) / 16) = a :=
  ofNat_eq (by omega)

/-- The four high bits of a byte behind two others, and its four low bits in front of two. -/
theorem second_eq (y : Nat) (b : UInt8) {x : Nat} (hx : x < 4) :
    UInt8.ofNat ((y * 16 + b.toNat / 16) % 16 * 16 + (b.toNat % 16 * 4 + x) / 4) = b := by
  have hb := b.toNat_lt
  exact ofNat_eq (by omega)

theorem third_eq (y : Nat) (c : UInt8) :
    UInt8.ofNat ((y * 4 + c.toNat / 64) % 4 * 64 + c.toNat % 64) = c := by
  have hc := c.toNat_lt
  exact ofNat_eq (by omega)

theorem decode?_encode (bytes : List UInt8) : decode? (encode bytes) = some bytes := by
  induction bytes using encode.induct with
  | case1 => rfl
  | case2 a =>
    have ha := a.toNat_lt
    have hp := value?_char (show a.toNat / 4 < 64 by omega)
    have hq := value?_char (show a.toNat % 4 * 16 < 64 by omega)
    have hfirst := first_eq a (show 0 < 16 by decide)
    rw [Nat.add_zero] at hfirst
    simp only [encode, decode?, one?, hp, hq, Option.bind_eq_bind, Option.bind_some, if_true,
      show a.toNat % 4 * 16 % 16 = 0 by omega, hfirst]
  | case3 a b =>
    have ha := a.toNat_lt
    have hb := b.toNat_lt
    have hp := value?_char (show a.toNat / 4 < 64 by omega)
    have hq := value?_char (show a.toNat % 4 * 16 + b.toNat / 16 < 64 by omega)
    have hr := value?_char (show b.toNat % 16 * 4 < 64 by omega)
    have hne := char_ne (show b.toNat % 16 * 4 < 64 by omega)
    have hfirst := first_eq a (show b.toNat / 16 < 16 by omega)
    have hsecond := second_eq (a.toNat % 4) b (show 0 < 4 by decide)
    rw [Nat.add_zero] at hsecond
    simp only [encode, decode?, two?, hp, hq, hr, hne, Option.bind_eq_bind, Option.bind_some,
      if_true, if_false, show b.toNat % 16 * 4 % 4 = 0 by omega, hfirst, hsecond]
  | case4 a b c rest ih =>
    have ha := a.toNat_lt
    have hb := b.toNat_lt
    have hc := c.toNat_lt
    have hp := value?_char (show a.toNat / 4 < 64 by omega)
    have hq := value?_char (show a.toNat % 4 * 16 + b.toNat / 16 < 64 by omega)
    have hr := value?_char (show b.toNat % 16 * 4 + c.toNat / 64 < 64 by omega)
    have hs := value?_char (show c.toNat % 64 < 64 by omega)
    have hne := char_ne (show c.toNat % 64 < 64 by omega)
    have hfirst := first_eq a (show b.toNat / 16 < 16 by omega)
    have hsecond := second_eq (a.toNat % 4) b (show c.toNat / 64 < 4 by omega)
    have hthird := third_eq (b.toNat % 16) c
    simp only [encode, decode?, three?, hp, hq, hr, hs, hne, Option.bind_eq_bind, Option.bind_some,
      if_false, hfirst, hsecond, hthird, ih, List.cons_append, List.nil_append]

end Base64
