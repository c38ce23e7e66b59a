import Trumpet.Lib.Digits

/-!
# RFC 3339 instants

The proleptic Gregorian calendar, counted from the first of March of the year 0, and the
text of an instant in UTC: the date, the time of day and as many decimals as the
nanoseconds need, three at a time.
-/

namespace Rfc3339

/-! ## The calendar -/

/-- A day of a cycle of four hundred years: the year of the cycle and the day of the year. -/
def yearDay (n : Nat) : Nat × Nat :=
  let century := min (n / 36524) 3
  let n := n - century * 36524
  let year := min (n % 1461 / 365) 3
  (century * 100 + n / 1461 * 4 + year, n % 1461 - year * 365)

/-- The first day of a year of the cycle. -/
def yearStart (year : Nat) : Nat :=
  year / 100 * 36524 + year % 100 / 4 * 1461 + year % 4 * 365

/-- The day of the year that a month begins with; January and February end the year. -/
def monthStart (month : Nat) : Nat := (153 * month + 2) / 5

structure Date where
  year : Int
  month : Nat
  day : Nat

/-- The date of a day, counted from 1970-01-01. -/
def date (days : Int) : Date :=
  let n := days + 719468
  let (year, day) := yearDay (n % 146097).toNat
  let month := (5 * day + 2) / 153
  { year := n / 146097 * 400 + year + (if month < 10 then 0 else 1)
    month := if month < 10 then month + 3 else month - 9
    day := day - monthStart month + 1 }

def Date.days (d : Date) : Int :=
  let year := if d.month < 3 then d.year - 1 else d.year
  let month := if d.month < 3 then d.month + 9 else d.month - 3
  year / 400 * 146097 + (yearStart (year % 400).toNat + monthStart month + (d.day - 1) : Nat) -
    719468

theorem yearStart_eq (century : Nat) {leap year : Nat} (hl : leap < 25) (hy : year < 4) :
    yearStart (century * 100 + leap * 4 + year) = century * 36524 + leap * 1461 + year * 365 := by
  have hcentury : (century * 100 + leap * 4 + year) / 100 = century := by omega
  have hleap : (century * 100 + leap * 4 + year) % 100 / 4 = leap := by omega
  have hyear : (century * 100 + leap * 4 + year) % 4 = year := by omega
  rw [yearStart, hcentury, hleap, hyear]

theorem yearDay_spec {n : Nat} (h : n < 146097) :
    (yearDay n).1 < 400 ∧ (yearDay n).2 < 366 ∧ yearStart (yearDay n).1 + (yearDay n).2 = n := by
  obtain ⟨century, hcentury⟩ : ∃ century, century = min (n / 36524) 3 := ⟨_, rfl⟩
  obtain ⟨rest, hrest⟩ : ∃ rest, rest = n - century * 36524 := ⟨_, rfl⟩
  obtain ⟨year, hyear⟩ : ∃ year, year = min (rest % 1461 / 365) 3 := ⟨_, rfl⟩
  have hleap : rest / 1461 < 25 := by omega
  have hfour : year < 4 := by omega
  have hday : yearDay n = (century * 100 + rest / 1461 * 4 + year, rest % 1461 - year * 365) := by
    rw [yearDay, hyear, hrest, hcentury]
  rw [hday, yearStart_eq century hleap hfour]
  refine ⟨?_, ?_, ?_⟩ <;> omega

theorem month_spec {day : Nat} (h : day < 366) :
    (5 * day + 2) / 153 < 12 ∧ monthStart ((5 * day + 2) / 153) ≤ day ∧
      day - monthStart ((5 * day + 2) / 153) < 31 := by
  simp only [monthStart]
  omega

theorem days_date (days : Int) : (date days).days = days := by
  have hn := Int.emod_nonneg (days + 719468) (show (146097 : Int) ≠ 0 by decide)
  have hlt := Int.emod_lt_of_pos (days + 719468) (show (0 : Int) < 146097 by decide)
  obtain ⟨hyear, hday, hstart⟩ := yearDay_spec (n := ((days + 719468) % 146097).toNat) (by omega)
  generalize hy : yearDay ((days + 719468) % 146097).toNat = y at hyear hday hstart
  obtain ⟨hmonth, hle, -⟩ := month_spec hday
  simp only [date, Date.days, hy]
  generalize (5 * y.2 + 2) / 153 = month at hmonth hle
  by_cases hm : month < 10
  · have hthree : ¬ month + 3 < 3 := by omega
    have hback : month + 3 - 3 = month := by omega
    have hmod : (((days + 719468) / 146097 * 400 + y.1 + 0) % 400).toNat = y.1 := by omega
    have hdiv : ((days + 719468) / 146097 * 400 + y.1 + 0) / 400 = (days + 719468) / 146097 := by
      omega
    simp only [hm, if_true, hthree, if_false, hback, hmod, hdiv]
    omega
  · have hthree : month - 9 < 3 := by omega
    have hback : month - 9 + 9 = month := by omega
    have hmod : (((days + 719468) / 146097 * 400 + y.1 + 1 - 1) % 400).toNat = y.1 := by omega
    have hdiv : ((days + 719468) / 146097 * 400 + y.1 + 1 - 1) / 400 =
        (days + 719468) / 146097 := by
      omega
    simp only [hm, if_true, hthree, if_false, hback, hmod, hdiv]
    omega

theorem date_lt (days : Int) : (date days).month < 100 ∧ (date days).day < 100 := by
  have hn := Int.emod_nonneg (days + 719468) (show (146097 : Int) ≠ 0 by decide)
  have hlt := Int.emod_lt_of_pos (days + 719468) (show (0 : Int) < 146097 by decide)
  obtain ⟨-, hday, -⟩ := yearDay_spec (n := ((days + 719468) % 146097).toNat) (by omega)
  obtain ⟨hmonth, -, hlt⟩ := month_spec hday
  simp only [date]
  constructor
  · split <;> omega
  · omega

/-! ## The text -/

def writeNat (n : Nat) : List Char :=
  if n < 10000 then Digits.fixed 10 4 n else Nat.toDigits 10 n

/-- A year that is not four digits has a sign. -/
def writeYear (year : Int) : List Char :=
  if year < 0 then '-' :: writeNat year.natAbs
  else if year < 10000 then writeNat year.natAbs
  else '+' :: writeNat year.natAbs

/-- The decimals of a second, as many as the nanoseconds need. -/
def writeNanos (nanos : Nat) : List Char :=
  if nanos = 0 then []
  else if nanos % 1000000 = 0 then '.' :: Digits.fixed 10 3 (nanos / 1000000)
  else if nanos % 1000 = 0 then '.' :: Digits.fixed 10 6 (nanos / 1000)
  else '.' :: Digits.fixed 10 9 nanos

def writeTime (second nanos : Nat) : List Char :=
  Digits.fixed 10 2 (second / 3600) ++ ':' :: (Digits.fixed 10 2 (second / 60 % 60) ++ ':' ::
    (Digits.fixed 10 2 (second % 60) ++ (writeNanos nanos ++ ['Z'])))

/-- The text of an instant, counted in nanoseconds. -/
def write (t : Int) : List Char :=
  let second := t / 1000000000
  let d := date (second / 86400)
  writeYear d.year ++ '-' :: (Digits.fixed 10 2 d.month ++ '-' :: (Digits.fixed 10 2 d.day ++
    'T' :: writeTime (second % 86400).toNat (t % 1000000000).toNat))

/-- The number up to a mark, and what is behind it. -/
def before (mark : Char) (cs : List Char) : Option (Nat × List Char) :=
  (Digits.number? 10 (cs.takeWhile (· ≠ mark))).map fun n =>
    (n, (cs.dropWhile (· ≠ mark)).drop 1)

def readYear : List Char → Option (Int × List Char)
  | '-' :: rest => (before '-' rest).map fun p => (-p.1, p.2)
  | '+' :: rest => (before '-' rest).map fun p => (p.1, p.2)
  | cs => (before '-' cs).map fun p => (p.1, p.2)

/-- The seconds, the nanoseconds and the `Z` behind them. -/
def readSecond (cs : List Char) : Option (Nat × Nat) :=
  if '.' ∈ cs then do
    let (second, decimals) ← before '.' cs
    let (n, _) ← before 'Z' decimals
    some (second, n * 10 ^ (10 - decimals.length))
  else (before 'Z' cs).map fun p => (p.1, 0)

def readTime (cs : List Char) : Option (Nat × Nat) := do
  let (hour, cs) ← before ':' cs
  let (minute, cs) ← before ':' cs
  let (second, nanos) ← readSecond cs
  some (hour * 3600 + minute * 60 + second, nanos)

def decode (cs : List Char) : Option Int := do
  let (year, cs) ← readYear cs
  let (month, cs) ← before '-' cs
  let (day, cs) ← before 'T' cs
  let (second, nanos) ← readTime cs
  some (((Date.mk year month day).days * 86400 + second) * 1000000000 + nanos)

/-- Reads the form that is written, and no other. -/
def read (cs : List Char) : Option Int := (decode cs).filter fun t => write t = cs

/-! ## Reading what is written -/

theorem before_append (mark : Char) (hmark : Digits.digit? 10 mark = none) {digits : List Char}
    {n : Nat} (h : Digits.number? 10 digits = some n) (rest : List Char) :
    before mark (digits ++ mark :: rest) = some (n, rest) := by
  have hne : ∀ c ∈ digits, (decide (c ≠ mark)) = true := fun c hc =>
    decide_eq_true (ne_of_mem_of_not_mem hc (Digits.not_mem_of_number? h hmark))
  have htake : (digits ++ mark :: rest).takeWhile (· ≠ mark) = digits := by
    rw [List.takeWhile_append_of_pos hne, List.takeWhile_cons_of_neg (by simp), List.append_nil]
  have hdrop : (digits ++ mark :: rest).dropWhile (· ≠ mark) = mark :: rest := by
    rw [List.dropWhile_append_of_pos hne, List.dropWhile_cons_of_neg (by simp)]
  rw [before, htake, hdrop, h]
  rfl

theorem before_two (mark : Char) (hmark : Digits.digit? 10 mark = none) {n : Nat} (h : n < 100)
    (rest : List Char) : before mark (Digits.fixed 10 2 n ++ mark :: rest) = some (n, rest) :=
  before_append mark hmark (Digits.number?_fixed (by decide) (by decide) h) rest

theorem number?_writeNat (n : Nat) : Digits.number? 10 (writeNat n) = some n := by
  rw [writeNat]
  split
  · rename_i h
    exact Digits.number?_fixed (by decide) (by decide) h
  · exact Digits.number?_toDigits (by decide) (by decide) n

/-- The text of a number begins with a digit. -/
theorem digit_of_writeNat {n : Nat} {c : Char} {rest tail : List Char}
    (h : writeNat n ++ tail = c :: rest) : (Digits.digit? 10 c).isSome = true := by
  obtain ⟨hne, hdigits⟩ := Digits.digit?_of_number? (number?_writeNat n)
  obtain ⟨d, ds, hds⟩ := List.exists_cons_of_ne_nil hne
  rw [hds] at h hdigits
  obtain ⟨rfl, -⟩ := List.cons.inj h
  exact hdigits d List.mem_cons_self

theorem readYear_write (year : Int) (rest : List Char) :
    readYear (writeYear year ++ '-' :: rest) = some (year, rest) := by
  have hread := before_append '-' (by decide) (number?_writeNat year.natAbs) rest
  rw [writeYear]
  split
  · have hneg : -(year.natAbs : Int) = year := by omega
    rw [List.cons_append, readYear, hread, Option.map_some, hneg]
  · have hpos : (year.natAbs : Int) = year := by omega
    split
    · have hsign (c : Char) (hc : (Digits.digit? 10 c).isSome = false) :
          ∀ rest', writeNat year.natAbs ++ '-' :: rest = c :: rest' → False := by
        intro rest' h
        rw [digit_of_writeNat h] at hc
        cases hc
      rw [readYear, hread, Option.map_some, hpos]
      · exact hsign '-' rfl
      · exact hsign '+' rfl
    · rw [List.cons_append, readYear, hread, Option.map_some, hpos]

theorem readSecond_whole {second : Nat} (h : second < 100) :
    readSecond (Digits.fixed 10 2 second ++ ['Z']) = some (second, 0) := by
  have hnumber : Digits.number? 10 (Digits.fixed 10 2 second) = some second :=
    Digits.number?_fixed (by decide) (by decide) h
  have hpoint : '.' ∉ Digits.fixed 10 2 second ++ ['Z'] := by
    rw [List.mem_append, not_or]
    exact ⟨Digits.not_mem_of_number? hnumber (by decide), by decide⟩
  rw [readSecond, if_neg hpoint, before_two _ (by decide) h]
  rfl

theorem readSecond_decimals {second width n : Nat} (h : second < 100) (hw : 0 < width)
    (hn : n < 10 ^ width) :
    readSecond (Digits.fixed 10 2 second ++ '.' :: (Digits.fixed 10 width n ++ ['Z'])) =
      some (second, n * 10 ^ (9 - width)) := by
  have hnumber : Digits.number? 10 (Digits.fixed 10 width n) = some n :=
    Digits.number?_fixed (by decide) hw hn
  have hpoint : '.' ∈ Digits.fixed 10 2 second ++ '.' :: (Digits.fixed 10 width n ++ ['Z']) :=
    List.mem_append_right _ List.mem_cons_self
  rw [readSecond, if_pos hpoint, before_two _ (by decide) h]
  simp only [Option.bind_eq_bind, Option.bind_some, before_append 'Z' (by decide) hnumber,
    List.length_append, Digits.length_fixed, List.length_singleton, Nat.reduceSubDiff]

theorem readSecond_write {second nanos : Nat} (h : second < 100) (hn : nanos < 1000000000) :
    readSecond (Digits.fixed 10 2 second ++ (writeNanos nanos ++ ['Z'])) =
      some (second, nanos) := by
  rw [writeNanos]
  split
  · rename_i hzero
    rw [List.nil_append, readSecond_whole h, hzero]
  · split
    · have hscaled : nanos / 1000000 * 10 ^ (9 - 3) = nanos := by omega
      rw [List.cons_append, readSecond_decimals h (by decide) (by omega), hscaled]
    · split
      · have hscaled : nanos / 1000 * 10 ^ (9 - 6) = nanos := by omega
        rw [List.cons_append, readSecond_decimals h (by decide) (by omega), hscaled]
      · rw [List.cons_append, readSecond_decimals h (by decide) hn, Nat.pow_zero, Nat.mul_one]

theorem readTime_write {second nanos : Nat} (h : second < 86400) (hn : nanos < 1000000000) :
    readTime (writeTime second nanos) = some (second, nanos) := by
  have hhour : second / 3600 < 100 := by omega
  have hminute : second / 60 % 60 < 100 := by omega
  have hsecond : second % 60 < 100 := by omega
  have hsum : second / 3600 * 3600 + second / 60 % 60 * 60 + second % 60 = second := by omega
  simp only [readTime, writeTime, Option.bind_eq_bind, Option.bind_some,
    before_two ':' (by decide) hhour, before_two ':' (by decide) hminute,
    readSecond_write hsecond hn, hsum]

theorem decode_write (t : Int) : decode (write t) = some t := by
  have hnanos : (t % 1000000000).toNat < 1000000000 := by omega
  have hsecond : (t / 1000000000 % 86400).toNat < 86400 := by omega
  obtain ⟨hmonth, hday⟩ := date_lt (t / 1000000000 / 86400)
  have hdate : (Date.mk (date (t / 1000000000 / 86400)).year (date (t / 1000000000 / 86400)).month
      (date (t / 1000000000 / 86400)).day).days = t / 1000000000 / 86400 := days_date _
  have hsum : (t / 1000000000 / 86400 * 86400 + ((t / 1000000000 % 86400).toNat : Int)) *
      1000000000 + ((t % 1000000000).toNat : Int) = t := by omega
  simp only [decode, write, Option.bind_eq_bind, Option.bind_some, readYear_write,
    before_two '-' (by decide) hmonth, before_two 'T' (by decide) hday,
    readTime_write hsecond hnanos, hdate, hsum]

theorem read_write (t : Int) : read (write t) = some t := by
  rw [read, decode_write, Option.filter_some, if_pos (decide_eq_true rfl)]

end Rfc3339
