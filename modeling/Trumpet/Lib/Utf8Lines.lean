import Trumpet.Lib.Utf8Pieces

/-!
# Line breaks in UTF-8

A line break is one byte, and no other byte decodes to one, in valid text or not.
-/

namespace Utf8

/-- The character begun, if there is one, is sound. -/
def SoundFrom (p : Option Pending) : Prop := ∀ q, p = some q → q.Sound

theorem soundFrom_none : SoundFrom none := nofun

theorem next_sound {p : Option Pending} (h : SoundFrom p) (b : UInt8) : SoundFrom (next p b).2 := by
  have hfirst : SoundFrom (first b.toNat).2 := fun q hq => first_sound (Prod.ext rfl hq)
  cases p with
  | none => exact hfirst
  | some p =>
    rw [next]
    by_cases hfits : p.lo ≤ b.toNat ∧ b.toNat ≤ p.hi
    · rw [if_pos hfits]
      by_cases hlast : p.missing = 1
      · rw [if_pos hlast]
        exact soundFrom_none
      · rw [if_neg hlast]
        intro q hq
        obtain rfl := Option.some.inj hq
        exact (h p rfl).next hfits.1 hfits.2 hlast
    · rw [if_neg hfits]
      exact hfirst

theorem first_newline {b : UInt8} (h : b = 10) : first b.toNat = (['\n'], none) := by
  rw [h]
  rfl

theorem ne_newline_of_wide {c : Char} (h : 0x80 ≤ c.toNat) : '\n' ≠ c := by
  rintro rfl
  revert h
  decide

/-- A first byte other than a line break gives no line break, but a character or the
beginning of one. -/
theorem first_other {b : UInt8} (h : b ≠ 10) :
    '\n' ∉ (first b.toNat).1 ∧ ((first b.toNat).1 ≠ [] ∨ (first b.toNat).2 ≠ none) := by
  by_cases hascii : b.toNat < 0x80
  · rw [first, if_pos hascii]
    refine ⟨?_, .inl (List.cons_ne_nil _ _)⟩
    intro hmem
    apply h
    have hvalid : b.toNat.isValidChar := .inl (by omega)
    have hnat : (Char.ofNat b.toNat).toNat = b.toNat := by
      rw [Char.ofNat, dif_pos hvalid]
      rfl
    have hchar := congrArg Char.toNat (List.mem_singleton.mp hmem)
    rw [hnat] at hchar
    exact UInt8.toNat_inj.mp hchar.symm
  · have wide : '\n' ∉ ['\uFFFD'] := by decide
    unfold first
    rw [if_neg hascii]
    by_cases h2 : b.toNat < 0xC2
    · rw [if_pos h2]
      exact ⟨wide, .inl (List.cons_ne_nil _ _)⟩
    rw [if_neg h2]
    by_cases h3 : b.toNat < 0xE0
    · rw [if_pos h3]
      exact ⟨List.not_mem_nil, .inr (Option.some_ne_none _)⟩
    rw [if_neg h3]
    by_cases h4 : b.toNat < 0xF0
    · rw [if_pos h4]
      exact ⟨List.not_mem_nil, .inr (Option.some_ne_none _)⟩
    rw [if_neg h4]
    by_cases h5 : b.toNat < 0xF5
    · rw [if_pos h5]
      exact ⟨List.not_mem_nil, .inr (Option.some_ne_none _)⟩
    · rw [if_neg h5]
      exact ⟨wide, .inl (List.cons_ne_nil _ _)⟩

/-- A line break ends what was begun. -/
theorem next_newline {p : Option Pending} (h : SoundFrom p) :
    ∃ cs, next p 10 = (cs ++ ['\n'], none) ∧ '\n' ∉ cs := by
  cases p with
  | none => exact ⟨[], first_newline rfl, List.not_mem_nil⟩
  | some p =>
    have hlo := (h p rfl).lo
    have hunfit : ¬ (p.lo ≤ (10 : UInt8).toNat ∧ (10 : UInt8).toNat ≤ p.hi) := by
      intro hfits
      exact absurd (Nat.le_trans hlo hfits.1) (by decide)
    refine ⟨['\uFFFD'], ?_, by decide⟩
    rw [next, if_neg hunfit, first_newline rfl]
    rfl

/-- Another byte gives none. -/
theorem next_other {p : Option Pending} (h : SoundFrom p) {b : UInt8} (hb : b ≠ 10) :
    '\n' ∉ (next p b).1 ∧ ((next p b).1 ≠ [] ∨ (next p b).2 ≠ none) := by
  cases p with
  | none => exact first_other hb
  | some p =>
    rw [next]
    by_cases hfits : p.lo ≤ b.toNat ∧ b.toNat ≤ p.hi
    · rw [if_pos hfits]
      by_cases hlast : p.missing = 1
      · rw [if_pos hlast]
        have hwide := (h p rfl).last hfits.1 hfits.2 hlast
        exact ⟨fun hmem => ne_newline_of_wide hwide (List.mem_singleton.mp hmem),
          .inl (List.cons_ne_nil _ _)⟩
      · rw [if_neg hlast]
        exact ⟨List.not_mem_nil, .inr (Option.some_ne_none _)⟩
    · rw [if_neg hfits]
      refine ⟨?_, .inl (List.cons_ne_nil _ _)⟩
      intro hmem
      cases List.mem_cons.mp hmem with
      | inl heq => exact absurd heq (by decide)
      | inr hfirst => exact (first_other hb).1 hfirst

theorem decodeFrom_eq_nil {p : Option Pending} (h : SoundFrom p) {bytes : List UInt8} :
    decodeFrom p bytes = [] ↔ p = none ∧ bytes = [] := by
  induction bytes generalizing p with
  | nil =>
    rw [decodeFrom_nil]
    cases p with
    | none => exact iff_of_true rfl ⟨rfl, rfl⟩
    | some p => exact iff_of_false (List.cons_ne_nil _ _) nofun
  | cons b bs ih =>
    refine iff_of_false ?_ nofun
    rw [decodeFrom_cons]
    intro hnil
    obtain ⟨hchars, hrest⟩ := List.append_eq_nil_iff.mp hnil
    have hnone := ((ih (next_sound h b)).mp hrest).1
    by_cases hb : b = 10
    · subst hb
      obtain ⟨cs, hcs, -⟩ := next_newline h
      rw [hcs] at hchars
      exact List.append_ne_nil_of_right_ne_nil _ (List.cons_ne_nil _ _) hchars
    · cases (next_other h hb).2 with
      | inl hne => exact hne hchars
      | inr hne => exact hne hnone

theorem count_decodeFrom {p : Option Pending} (h : SoundFrom p) (bytes : List UInt8) :
    (decodeFrom p bytes).count '\n' = bytes.count 10 := by
  induction bytes generalizing p with
  | nil =>
    rw [decodeFrom_nil]
    cases p with
    | none => rfl
    | some p => rfl
  | cons b bs ih =>
    rw [decodeFrom_cons, List.count_append, ih (next_sound h b), List.count_cons]
    by_cases hb : b = 10
    · subst hb
      obtain ⟨cs, hcs, hnot⟩ := next_newline h
      rw [hcs, List.count_append, List.count_eq_zero.mpr hnot, Nat.add_comm]
      rfl
    · rw [List.count_eq_zero.mpr (next_other h hb).1, if_neg (by simp [hb]), Nat.zero_add]
      rfl

theorem getLast?_decodeFrom {p : Option Pending} (h : SoundFrom p) (bytes : List UInt8) :
    (decodeFrom p bytes).getLast? = some '\n' ↔ bytes.getLast? = some 10 := by
  induction bytes generalizing p with
  | nil =>
    rw [decodeFrom_nil]
    cases p with
    | none => exact iff_of_false nofun nofun
    | some p => exact iff_of_false (by rw [flush]; decide) nofun
  | cons b bs ih =>
    rw [decodeFrom_cons, List.getLast?_append]
    cases bs with
    | nil =>
      rw [decodeFrom_nil]
      by_cases hb : b = 10
      · subst hb
        obtain ⟨cs, hcs, -⟩ := next_newline h
        rw [hcs]
        exact iff_of_true List.getLast?_concat rfl
      · refine iff_of_false ?_ fun hlast => hb (Option.some.inj hlast)
        cases (next p b).2 with
        | none => exact fun hlast => (next_other h hb).1 (List.mem_of_getLast? hlast)
        | some q => exact fun hlast => absurd (Option.some.inj hlast) (by decide)
    | cons c bs =>
      have hne : decodeFrom (next p b).2 (c :: bs) ≠ [] := fun hnil =>
        List.cons_ne_nil _ _ ((decodeFrom_eq_nil (next_sound h b)).mp hnil).2
      rw [List.getLast?_cons_cons, ← ih (next_sound h b), List.getLast?_eq_some_getLast hne,
        Option.some_or]

end Utf8
