import Mathlib.Data.List.DropRight
import Trumpet.Lib.Cut
import Trumpet.Lib.Utf8

/-!
# UTF-8 decoded in pieces

A cut between two characters does not show. One through a character leaves two
replacements or more, where there was one character that is not ASCII.
-/

namespace Utf8

/-! ## Byte by byte -/

def next : Option Pending → UInt8 → List Char × Option Pending
  | none, b => first b.toNat
  | some p, b =>
    if p.lo ≤ b.toNat ∧ b.toNat ≤ p.hi then
      if p.missing = 1 then ([Char.ofNat (p.bits * 64 + b.toNat % 64)], none)
      else ([], some ⟨p.bits * 64 + b.toNat % 64, p.missing - 1, 0x80, 0xBF⟩)
    else ('\uFFFD' :: (first b.toNat).1, (first b.toNat).2)

/-- The bytes are over. -/
def flush : Option Pending → List Char
  | none => []
  | some _ => ['\uFFFD']

theorem decodeFrom_nil (p : Option Pending) : decodeFrom p [] = flush p := by
  cases p with
  | none => rfl
  | some p => rfl

theorem decodeFrom_cons (p : Option Pending) (b : UInt8) (bs : List UInt8) :
    decodeFrom p (b :: bs) = (next p b).1 ++ decodeFrom (next p b).2 bs := by
  cases p with
  | none => rfl
  | some p =>
    rw [decodeFrom, next]
    by_cases hfits : p.lo ≤ b.toNat ∧ b.toNat ≤ p.hi
    · rw [if_pos hfits, if_pos hfits]
      by_cases hlast : p.missing = 1
      · rw [if_pos hlast, if_pos hlast]
        rfl
      · rw [if_neg hlast, if_neg hlast]
        rfl
    · rw [if_neg hfits, if_neg hfits]

/-- Decoding that is flushed behind each cut. -/
def decodeCut : Option Pending → List (UInt8 × Bool) → List Char
  | p, [] => flush p
  | p, (b, true) :: ms => (next p b).1 ++ (flush (next p b).2 ++ decodeCut none ms)
  | p, (b, false) :: ms => (next p b).1 ++ decodeCut (next p b).2 ms

theorem decodeCut_mark (p : Option Pending) {piece : List UInt8} (h : piece ≠ [])
    (ms : List (UInt8 × Bool)) :
    decodeCut p (Cut.mark piece ++ ms) = decodeFrom p piece ++ decodeCut none ms := by
  fun_induction Cut.mark piece generalizing p with
  | case1 => exact absurd rfl h
  | case2 b =>
    rw [List.singleton_append, decodeCut, decodeFrom_cons, decodeFrom_nil, List.append_assoc]
  | case3 b c bs ih =>
    rw [List.cons_append, decodeCut, ih _ (List.cons_ne_nil _ _), decodeFrom_cons p b,
      List.append_assoc]

/-- Decoding the pieces one by one. -/
theorem flatMap_decodeFrom (pieces : List (List UInt8)) :
    pieces.flatMap (decodeFrom none) = decodeCut none (pieces.flatMap Cut.mark) := by
  induction pieces with
  | nil => rfl
  | cons piece pieces ih =>
    rw [List.flatMap_cons, List.flatMap_cons, ih]
    by_cases h : piece = []
    · rw [h]
      rfl
    · rw [decodeCut_mark none h]

/-! ## Characters and the cuts through them -/

/-- A character begun, whether a cut goes through it, and whether there is a cut
behind its last byte so far. -/
structure Begun where
  pending : Pending
  torn : Bool
  cut : Bool

/-- Each character of the whole, and whether a cut goes through it. -/
def units : Option Begun → List (UInt8 × Bool) → List (Char × Bool)
  | none, [] => []
  | some g, [] => [('\uFFFD', g.torn)]
  | none, (b, m) :: ms =>
    (first b.toNat).1.map (·, false) ++ units ((first b.toNat).2.map (⟨·, false, m⟩)) ms
  | some g, (b, m) :: ms =>
    if g.pending.lo ≤ b.toNat ∧ b.toNat ≤ g.pending.hi then
      if g.pending.missing = 1 then
        (Char.ofNat (g.pending.bits * 64 + b.toNat % 64), g.torn || g.cut) :: units none ms
      else
        units (some ⟨⟨g.pending.bits * 64 + b.toNat % 64, g.pending.missing - 1, 0x80, 0xBF⟩,
          g.torn || g.cut, m⟩) ms
    else
      ('\uFFFD', g.torn) :: ((first b.toNat).1.map (·, false) ++
        units ((first b.toNat).2.map (⟨·, false, m⟩)) ms)

/-- The text where characters with a cut through them are replaced. -/
inductive Replaced : List (Char × Bool) → List Char → Prop
  | nil : Replaced [] []
  | whole (c : Char) {us : List (Char × Bool)} {cs : List Char} :
      Replaced us cs → Replaced ((c, false) :: us) (c :: cs)
  | torn {c : Char} {n : Nat} {us : List (Char × Bool)} {cs : List Char} :
      0x80 ≤ c.toNat → 2 ≤ n → Replaced us cs →
        Replaced ((c, true) :: us) (List.replicate n '\uFFFD' ++ cs)

/-! ## The bytes of a character -/

/-- Numbers from `lo` to `hi` are characters, none of them ASCII. -/
def Wide (lo hi : Nat) : Prop := 0x80 ≤ lo ∧ (hi < 0xD800 ∨ 0xDFFF < lo) ∧ hi < 0x110000

/-- What a character begun can become is wide. -/
structure Pending.Sound (p : Pending) : Prop where
  lo : 0x80 ≤ p.lo
  hi : p.hi ≤ 0xBF
  wide : p.missing = 1 ∧ Wide (p.bits * 64 + (p.lo - 0x80)) (p.bits * 64 + (p.hi - 0x80)) ∨
    p.missing = 2 ∧ Wide ((p.bits * 64 + (p.lo - 0x80)) * 64)
      ((p.bits * 64 + (p.hi - 0x80)) * 64 + 63) ∨
    p.missing = 3 ∧ Wide ((p.bits * 64 + (p.lo - 0x80)) * 4096)
      ((p.bits * 64 + (p.hi - 0x80)) * 4096 + 4095)

theorem first_sound {b : Nat} {cs : List Char} {p : Pending} (h : first b = (cs, some p)) :
    p.Sound := by
  unfold first at h
  by_cases h1 : b < 0x80
  · rw [if_pos h1] at h
    cases h
  rw [if_neg h1] at h
  by_cases h2 : b < 0xC2
  · rw [if_pos h2] at h
    cases h
  rw [if_neg h2] at h
  by_cases h3 : b < 0xE0
  · rw [if_pos h3] at h
    obtain rfl := Option.some.inj (Prod.mk.inj h).2
    exact ⟨by simp, by simp, .inl ⟨rfl, by unfold Wide; dsimp only; omega⟩⟩
  rw [if_neg h3] at h
  by_cases h4 : b < 0xF0
  · rw [if_pos h4] at h
    obtain rfl := Option.some.inj (Prod.mk.inj h).2
    refine ⟨by dsimp only; split <;> omega, by dsimp only; split <;> omega, .inr (.inl ⟨rfl, ?_⟩)⟩
    unfold Wide
    dsimp only
    split <;> split <;> omega
  rw [if_neg h4] at h
  by_cases h5 : b < 0xF5
  · rw [if_pos h5] at h
    obtain rfl := Option.some.inj (Prod.mk.inj h).2
    refine ⟨by dsimp only; split <;> omega, by dsimp only; split <;> omega, .inr (.inr ⟨rfl, ?_⟩)⟩
    unfold Wide
    dsimp only
    split <;> split <;> omega
  · rw [if_neg h5] at h
    cases h

section
variable {p : Pending} {b : UInt8}

theorem Pending.Sound.next (h : p.Sound) (hlo : p.lo ≤ b.toNat) (hhi : b.toNat ≤ p.hi)
    (hm : p.missing ≠ 1) :
    Pending.Sound ⟨p.bits * 64 + b.toNat % 64, p.missing - 1, 0x80, 0xBF⟩ := by
  obtain ⟨lo, hi, hwide⟩ := h
  unfold Wide at hwide
  refine ⟨Nat.le_refl _, Nat.le_refl _, ?_⟩
  unfold Wide
  dsimp only
  rcases hwide with ⟨hone, -⟩ | ⟨htwo, hwide⟩ | ⟨hthree, hwide⟩
  · exact absurd hone hm
  · exact .inl ⟨by rw [htwo], by omega⟩
  · exact .inr (.inl ⟨by rw [hthree], by omega⟩)

/-- The last byte makes a character that is not ASCII. -/
theorem Pending.Sound.last (h : p.Sound) (hlo : p.lo ≤ b.toNat) (hhi : b.toNat ≤ p.hi)
    (hm : p.missing = 1) : 0x80 ≤ (Char.ofNat (p.bits * 64 + b.toNat % 64)).toNat := by
  obtain ⟨lo, hi, hwide⟩ := h
  unfold Wide at hwide
  have hvalid : (p.bits * 64 + b.toNat % 64).isValidChar := by
    unfold Nat.isValidChar
    omega
  rw [Char.ofNat, dif_pos hvalid]
  have hvalue : 0x80 ≤ p.bits * 64 + b.toNat % 64 := by omega
  exact hvalue

/-- A byte from within a character is replaced where nothing is begun. -/
theorem first_within (h : p.Sound) (hlo : p.lo ≤ b.toNat) (hhi : b.toNat ≤ p.hi) :
    first b.toNat = (['\uFFFD'], none) := by
  have hle := h.lo
  have hge := h.hi
  rw [first, if_neg (by omega), if_pos (by omega)]

end

/-! ## What is left of a character -/

theorem decodeCut_none (b : UInt8) (m : Bool) (ms : List (UInt8 × Bool)) (c : Char)
    (h : first b.toNat = ([c], none)) :
    decodeCut none ((b, m) :: ms) = c :: decodeCut none ms := by
  cases m with
  | true =>
    rw [decodeCut, next, h]
    rfl
  | false =>
    rw [decodeCut, next, h]
    rfl

/-- A byte that does not fit ends the character, and stands as a first one. -/
theorem decodeCut_unfit {p : Pending} {b : UInt8} (h : ¬ (p.lo ≤ b.toNat ∧ b.toNat ≤ p.hi))
    (m : Bool) (ms : List (UInt8 × Bool)) :
    decodeCut (some p) ((b, m) :: ms) = '\uFFFD' :: decodeCut none ((b, m) :: ms) := by
  cases m with
  | true =>
    rw [decodeCut, next, if_neg h]
    rfl
  | false =>
    rw [decodeCut, next, if_neg h]
    rfl

theorem decodeCut_last {p : Pending} {b : UInt8} (hfits : p.lo ≤ b.toNat ∧ b.toNat ≤ p.hi)
    (hlast : p.missing = 1) (m : Bool) (ms : List (UInt8 × Bool)) :
    decodeCut (some p) ((b, m) :: ms) =
      Char.ofNat (p.bits * 64 + b.toNat % 64) :: decodeCut none ms := by
  cases m with
  | true =>
    rw [decodeCut, next, if_pos hfits, if_pos hlast]
    rfl
  | false =>
    rw [decodeCut, next, if_pos hfits, if_pos hlast]
    rfl

/-- One more replacement, for a byte of a character that is not begun in its piece. -/
theorem decodeCut_within {p : Pending} {b : UInt8} (h : p.Sound)
    (hfits : p.lo ≤ b.toNat ∧ b.toNat ≤ p.hi) (m : Bool) (ms : List (UInt8 × Bool)) (n : Nat) :
    List.replicate n '\uFFFD' ++ decodeCut none ((b, m) :: ms) =
      List.replicate (n + 1) '\uFFFD' ++ decodeCut none ms := by
  rw [decodeCut_none b m ms _ (first_within h hfits.1 hfits.2), List.replicate_succ',
    List.append_assoc, List.singleton_append]

/-- Where the pieces are read to, in a character of the whole, and how many
replacements they have left for it. -/
inductive Behind : Option Begun → Option Pending → Nat → Prop
  | idle : Behind none none 0
  | whole (p : Pending) : Behind (some ⟨p, false, false⟩) (some p) 0
  | cut (p : Pending) : Behind (some ⟨p, false, true⟩) none 1
  | torn (p : Pending) (m : Bool) {n : Nat} : 2 ≤ n → Behind (some ⟨p, true, m⟩) none n

/-- `Behind` keeps up with the decoding of each piece. -/
def Keeps (ms : List (UInt8 × Bool)) : Prop :=
  ∀ g p n, Behind g p n → (∀ b, g = some b → b.pending.Sound) →
    Replaced (units g ms) (List.replicate n '\uFFFD' ++ decodeCut p ms)

theorem Keeps.idle {ms : List (UInt8 × Bool)} (h : Keeps ms) :
    Replaced (units none ms) (decodeCut none ms) :=
  h none none 0 .idle nofun

/-- A first byte. -/
theorem Keeps.begin {ms : List (UInt8 × Bool)} (h : Keeps ms) (b : UInt8) (m : Bool) :
    Replaced (units none ((b, m) :: ms)) (decodeCut none ((b, m) :: ms)) := by
  have chars : ∀ {us : List (Char × Bool)} {text : List Char} (cs : List Char),
      Replaced us text → Replaced (cs.map (·, false) ++ us) (cs ++ text) := by
    intro us text cs htext
    induction cs with
    | nil => exact htext
    | cons c cs ih => exact .whole c ih
  have hsound : ∀ p, (first b.toNat).2 = some p → p.Sound :=
    fun p hp => first_sound (Prod.ext rfl hp)
  rw [units]
  cases m with
  | true =>
    rw [decodeCut, next]
    apply chars
    cases hp : (first b.toNat).2 with
    | none => exact h.idle
    | some p =>
      apply h _ _ _ (.cut p)
      intro g hg
      cases hg
      exact hsound p hp
  | false =>
    rw [decodeCut, next]
    apply chars
    cases hp : (first b.toNat).2 with
    | none => exact h.idle
    | some p =>
      apply h _ _ _ (.whole p)
      intro g hg
      cases hg
      exact hsound p hp

theorem units_unfit {g : Begun} {b : UInt8}
    (h : ¬ (g.pending.lo ≤ b.toNat ∧ b.toNat ≤ g.pending.hi)) (m : Bool)
    (ms : List (UInt8 × Bool)) :
    units (some g) ((b, m) :: ms) = ('\uFFFD', g.torn) :: units none ((b, m) :: ms) := by
  simp only [units, if_neg h]

section
variable {g : Begun} {p : Option Pending} {n : Nat} {b : UInt8} {m : Bool}
  {ms : List (UInt8 × Bool)}

/-- The last byte of a character. -/
theorem Keeps.last (h : Keeps ms) (hbehind : Behind (some g) p n) (hg : g.pending.Sound)
    (hfits : g.pending.lo ≤ b.toNat ∧ b.toNat ≤ g.pending.hi) (hlast : g.pending.missing = 1) :
    Replaced (units (some g) ((b, m) :: ms))
      (List.replicate n '\uFFFD' ++ decodeCut p ((b, m) :: ms)) := by
  have hwide := hg.last hfits.1 hfits.2 hlast
  rw [units, if_pos hfits, if_pos hlast]
  cases hbehind with
  | whole p =>
    rw [decodeCut_last hfits hlast]
    exact .whole _ h.idle
  | cut p =>
    rw [decodeCut_within hg hfits]
    exact .torn hwide (Nat.le_refl 2) h.idle
  | torn p m' hn =>
    rw [decodeCut_within hg hfits]
    exact .torn hwide (Nat.le_succ_of_le hn) h.idle

/-- A byte within a character, with more to come. -/
theorem Keeps.within (h : Keeps ms) (hbehind : Behind (some g) p n) (hg : g.pending.Sound)
    (hfits : g.pending.lo ≤ b.toNat ∧ b.toNat ≤ g.pending.hi) (hlast : g.pending.missing ≠ 1) :
    Replaced (units (some g) ((b, m) :: ms))
      (List.replicate n '\uFFFD' ++ decodeCut p ((b, m) :: ms)) := by
  have hnext : ∀ torn cut b', some (Begun.mk
      ⟨g.pending.bits * 64 + b.toNat % 64, g.pending.missing - 1, 0x80, 0xBF⟩ torn cut) =
        some b' → b'.pending.Sound := by
    intro torn cut b' hb'
    obtain rfl := Option.some.inj hb'
    exact hg.next hfits.1 hfits.2 hlast
  rw [units, if_pos hfits, if_neg hlast]
  cases hbehind with
  | whole p =>
    cases m with
    | true =>
      rw [decodeCut, next, if_pos hfits, if_neg hlast]
      exact h _ _ _ (.cut _) (hnext _ _)
    | false =>
      rw [decodeCut, next, if_pos hfits, if_neg hlast]
      exact h _ _ _ (.whole _) (hnext _ _)
  | cut p =>
    rw [decodeCut_within hg hfits]
    exact h _ _ _ (.torn _ m (Nat.le_refl 2)) (hnext _ _)
  | torn p m' hn =>
    rw [decodeCut_within hg hfits]
    exact h _ _ _ (.torn _ m (Nat.le_succ_of_le hn)) (hnext _ _)

/-- A byte that does not go on with the character. -/
theorem Keeps.unfit (h : Keeps ms) (hbehind : Behind (some g) p n)
    (hunfit : ¬ (g.pending.lo ≤ b.toNat ∧ b.toNat ≤ g.pending.hi)) :
    Replaced (units (some g) ((b, m) :: ms))
      (List.replicate n '\uFFFD' ++ decodeCut p ((b, m) :: ms)) := by
  rw [units_unfit hunfit]
  cases hbehind with
  | whole p =>
    rw [decodeCut_unfit hunfit]
    exact .whole _ (h.begin b m)
  | cut p => exact .whole _ (h.begin b m)
  | torn p m' hn => exact .torn (by decide) hn (h.begin b m)

end

theorem keeps (ms : List (UInt8 × Bool)) : Keeps ms := by
  induction ms with
  | nil =>
    intro g p n hbehind _
    cases hbehind with
    | idle => exact .nil
    | whole p => exact .whole _ .nil
    | cut p => exact .whole _ .nil
    | torn p m hn => exact .torn (by decide) hn .nil
  | cons bm ms ih =>
    obtain ⟨b, m⟩ := bm
    intro g p n hbehind hsound
    cases g with
    | none =>
      cases hbehind
      exact ih.begin b m
    | some g =>
      by_cases hfits : g.pending.lo ≤ b.toNat ∧ b.toNat ≤ g.pending.hi
      · by_cases hlast : g.pending.missing = 1
        · exact ih.last hbehind (hsound g rfl) hfits hlast
        · exact ih.within hbehind (hsound g rfl) hfits hlast
      · exact ih.unfit hbehind hfits

theorem map_fst_units (g : Option Begun) (ms : List (UInt8 × Bool)) :
    (units g ms).map Prod.fst = decodeFrom (g.map Begun.pending) (ms.map Prod.fst) := by
  have fresh : ∀ (cs : List Char), (cs.map (·, false)).map Prod.fst = cs := by
    intro cs
    rw [List.map_map]
    exact List.map_id cs
  have begun : ∀ (p : Option Pending) (m : Bool),
      (p.map fun p => Begun.mk p false m).map Begun.pending = p := by
    intro p m
    cases p with
    | none => rfl
    | some p => rfl
  induction ms generalizing g with
  | nil =>
    cases g with
    | none => rfl
    | some g => rfl
  | cons bm ms ih =>
    obtain ⟨b, m⟩ := bm
    have first_byte : (units none ((b, m) :: ms)).map Prod.fst =
        decodeFrom none (b :: ms.map Prod.fst) := by
      rw [units, List.map_append, fresh, ih, begun, decodeFrom]
    cases g with
    | none => exact first_byte
    | some g =>
      rw [List.map_cons, decodeFrom_cons, Option.map_some, next]
      by_cases hfits : g.pending.lo ≤ b.toNat ∧ b.toNat ≤ g.pending.hi
      · rw [units, if_pos hfits, if_pos hfits]
        by_cases hlast : g.pending.missing = 1
        · rw [if_pos hlast, if_pos hlast, List.map_cons, ih]
          rfl
        · rw [if_neg hlast, if_neg hlast, ih]
          rfl
      · rw [units_unfit hfits, if_neg hfits, List.map_cons, first_byte]
        rfl

/-- What decoding in pieces leaves of the whole. -/
theorem pieces_replaced (pieces : List (List UInt8)) :
    Replaced (units none (pieces.flatMap Cut.mark)) (pieces.flatMap (decodeFrom none)) := by
  rw [flatMap_decodeFrom]
  exact (keeps _).idle

/-! ## Texts with replacements -/

section
variable {us : List (Char × Bool)} {cs : List Char}

theorem Replaced.append (h : Replaced us cs) {vs : List (Char × Bool)} {ds : List Char}
    (h' : Replaced vs ds) : Replaced (us ++ vs) (cs ++ ds) := by
  induction h with
  | nil => exact h'
  | whole c _ ih => exact .whole c ih
  | torn hc hn _ ih =>
    rw [List.cons_append, List.append_assoc]
    exact .torn hc hn ih

theorem Replaced.reverse (h : Replaced us cs) : Replaced us.reverse cs.reverse := by
  induction h with
  | nil => exact .nil
  | whole c _ ih =>
    rw [List.reverse_cons, List.reverse_cons]
    exact ih.append (.whole c .nil)
  | torn hc hn _ ih =>
    rw [List.reverse_cons, List.reverse_append, List.reverse_replicate]
    have hlast := Replaced.torn hc hn .nil
    rw [List.append_nil] at hlast
    exact ih.append hlast

/-- Only ASCII is dropped, and that is the same in both. -/
theorem Replaced.dropWhile (h : Replaced us cs) {drop : Char → Bool}
    (hwide : ∀ c, 0x80 ≤ c.toNat → drop c = false) :
    Replaced (us.dropWhile fun u => drop u.1) (cs.dropWhile drop) := by
  induction h with
  | nil => exact .nil
  | @whole c us cs h ih =>
    by_cases hc : drop c = true
    · rw [List.dropWhile_cons_of_pos (p := fun u : Char × Bool => drop u.1) hc,
        List.dropWhile_cons_of_pos hc]
      exact ih
    · rw [List.dropWhile_cons_of_neg (p := fun u : Char × Bool => drop u.1) hc,
        List.dropWhile_cons_of_neg hc]
      exact .whole c h
  | @torn c n us cs hc hn h ih =>
    obtain ⟨k, rfl⟩ : ∃ k, n = k + 1 := ⟨n - 1, by omega⟩
    have hkept : ∀ d : Char, 0x80 ≤ d.toNat → ¬ drop d = true := by
      intro d hd
      rw [hwide d hd]
      exact Bool.false_ne_true
    have htext : (List.replicate (k + 1) '\uFFFD' ++ cs).dropWhile drop =
        List.replicate (k + 1) '\uFFFD' ++ cs := by
      rw [List.replicate_succ, List.cons_append]
      exact List.dropWhile_cons_of_neg (hkept _ (by decide))
    rw [htext, List.dropWhile_cons_of_neg (p := fun u : Char × Bool => drop u.1) (hkept c hc)]
    exact .torn hc hn h

theorem Replaced.rdropWhile (h : Replaced us cs) {drop : Char → Bool}
    (hwide : ∀ c, 0x80 ≤ c.toNat → drop c = false) :
    Replaced (us.rdropWhile fun u => drop u.1) (cs.rdropWhile drop) :=
  (h.reverse.dropWhile hwide).reverse

/-- A name in ASCII is in front of both or of neither, and no cut goes through it. -/
theorem Replaced.name (h : Replaced us cs) {name : List Char} (hname : ∀ c ∈ name, c.toNat < 0x80) :
    (∃ vs ds, us = name.map (·, false) ++ vs ∧ cs = name ++ ds ∧ Replaced vs ds) ∨
      ¬ name <+: us.map Prod.fst ∧ ¬ name <+: cs := by
  induction name generalizing us cs with
  | nil => exact .inl ⟨us, cs, rfl, rfl, h⟩
  | cons c name ih =>
    have hc := hname c List.mem_cons_self
    have hrest := fun d hd => hname d (List.mem_cons_of_mem c hd)
    have differ : ∀ {d : Char} {ds : List Char}, c ≠ d → ¬ c :: name <+: d :: ds :=
      fun hne hprefix => hne (List.cons_prefix_cons.mp hprefix).1
    have wide : ∀ {d : Char}, 0x80 ≤ d.toNat → c ≠ d := by
      rintro d hd rfl
      omega
    cases h with
    | nil => exact .inr ⟨by simp, by simp⟩
    | @whole d us cs h =>
      by_cases hd : c = d
      · subst hd
        cases ih h hrest with
        | inl hname =>
          obtain ⟨vs, ds, rfl, rfl, hds⟩ := hname
          exact .inl ⟨vs, ds, rfl, rfl, hds⟩
        | inr hnot =>
          right
          rw [List.map_cons, List.cons_prefix_cons, List.cons_prefix_cons]
          exact ⟨fun hprefix => hnot.1 hprefix.2, fun hprefix => hnot.2 hprefix.2⟩
      · exact .inr ⟨differ hd, differ hd⟩
    | @torn d n us cs hd hn h =>
      obtain ⟨k, rfl⟩ : ∃ k, n = k + 1 := ⟨n - 1, by omega⟩
      exact .inr ⟨differ (wide hd), differ (wide (by decide))⟩

theorem Replaced.eq_of_untorn (h : Replaced us cs) (huntorn : ∀ u ∈ us, u.2 = false) :
    cs = us.map Prod.fst := by
  induction h with
  | nil => rfl
  | whole c _ ih =>
    rw [List.map_cons, ih fun u hu => huntorn u (List.mem_cons_of_mem _ hu)]
  | torn =>
    have htorn := huntorn _ List.mem_cons_self
    cases htorn

section
variable {counts : Char → Bool} (hcounts : counts '\uFFFD' = true)
include hcounts

theorem Replaced.count_le (h : Replaced us cs) :
    (us.map Prod.fst).countP counts ≤ cs.countP counts := by
  induction h with
  | nil => exact Nat.le_refl _
  | whole c _ ih =>
    rw [List.map_cons, List.countP_cons, List.countP_cons]
    exact Nat.add_le_add_right ih _
  | torn hc hn _ ih =>
    rw [List.map_cons, List.countP_cons, List.countP_append, List.countP_replicate, if_pos hcounts]
    split <;> omega

/-- Each cut through a character leaves more that counts. -/
theorem Replaced.untorn_of_count (h : Replaced us cs)
    (hcount : (us.map Prod.fst).countP counts = cs.countP counts) : ∀ u ∈ us, u.2 = false := by
  induction h with
  | nil => exact nofun
  | whole c _ ih =>
    rw [List.map_cons, List.countP_cons, List.countP_cons] at hcount
    exact List.forall_mem_cons.mpr ⟨rfl, ih (Nat.add_right_cancel hcount)⟩
  | torn hc hn h ih =>
    have hle := h.count_le hcounts
    rw [List.map_cons, List.countP_cons, List.countP_append, List.countP_replicate,
      if_pos hcounts] at hcount
    split at hcount <;> omega

end

end

end Utf8
