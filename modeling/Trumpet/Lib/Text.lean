import Mathlib.Data.List.DropRight

/-!
# Trimming

White space is what Unicode calls so.
-/

namespace Text

def isWhitespace (c : Char) : Bool :=
  let n := c.toNat
  0x09 ≤ n && n ≤ 0x0D || n = 0x20 || n = 0x85 || n = 0xA0 || n = 0x1680 ||
    0x2000 ≤ n && n ≤ 0x200A || n = 0x2028 || n = 0x2029 || n = 0x202F || n = 0x205F || n = 0x3000

def trim (cs : List Char) : List Char := (cs.dropWhile isWhitespace).rdropWhile isWhitespace

variable {cs : List Char}

theorem rdropWhile_eq_self (hlast : ∀ c ∈ cs.getLast?, isWhitespace c = false) :
    cs.rdropWhile isWhitespace = cs := by
  rw [List.rdropWhile_eq_self_iff]
  intro hne
  rw [hlast _ (List.getLast?_eq_some_getLast hne)]
  exact Bool.false_ne_true

theorem trim_append_blank (hfirst : ∀ c ∈ cs.head?, isWhitespace c = false)
    (hlast : ∀ c ∈ cs.getLast?, isWhitespace c = false) {b : Char} (hb : isWhitespace b = true) :
    trim (cs ++ [b]) = cs := by
  cases cs with
  | nil => simp [trim, hb]
  | cons c cs =>
    have hc : isWhitespace c = false := hfirst c rfl
    rw [trim, List.cons_append, List.dropWhile_cons_of_neg (by simp [hc]), ← List.cons_append,
      List.rdropWhile_concat_pos _ _ _ hb, rdropWhile_eq_self hlast]

theorem trim_cons_blank {b : Char} (hb : isWhitespace b = true) (cs : List Char) :
    trim (b :: cs) = trim cs := by
  rw [trim, List.dropWhile_cons_of_pos hb, trim]

/-- Trimming keeps what is not white space. -/
theorem countP_trim (cs : List Char) :
    (trim cs).countP (fun c => !isWhitespace c) = cs.countP (fun c => !isWhitespace c) := by
  have front : ∀ ds : List Char, (ds.dropWhile isWhitespace).countP (fun c => !isWhitespace c) =
      ds.countP (fun c => !isWhitespace c) := by
    intro ds
    induction ds with
    | nil => rfl
    | cons d ds ih =>
      by_cases hd : isWhitespace d = true
      · rw [List.dropWhile_cons_of_pos hd, ih, List.countP_cons_of_neg (by simp [hd])]
      · rw [List.dropWhile_cons_of_neg hd]
  rw [trim, List.rdropWhile, List.countP_reverse, front, List.countP_reverse, front]

theorem length_trim_le (cs : List Char) : (trim cs).length ≤ cs.length :=
  Nat.le_trans (List.rdropWhile_prefix _ _).length_le (List.dropWhile_suffix _).length_le

end Text
