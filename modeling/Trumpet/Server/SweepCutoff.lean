import Trumpet.Config.Validate
import Trumpet.Core.Chrono
import Trumpet.Core.Watchdog

/-! The cutoff of a sweep, computed from the configured timeout. Nothing stands for a
panic. -/

namespace Trumpet

namespace Watchdog

/-- The timeout the server hands to the watchdog, in nanoseconds. -/
def timeout (config : Config) : Nat := config.agents.timeoutSecs.toNat * 10 ^ 9

/-- The window of silence, with its fallback. -/
def window (timeout : Nat) : Option Int :=
  match Chrono.fromStd timeout with
  | some d => some d
  | none => Chrono.seconds ((2 ^ 63 - 1) / 2)

def computeCutoff (now : DateTime) (timeout : Nat) : Option DateTime :=
  (window timeout).bind (Chrono.sub now)

/-- The fallback is no duration either. -/
theorem window_eq (timeout : Nat) :
    window timeout =
      if (timeout : Int) ≤ Chrono.maxDuration then some (timeout : Int) else none := by
  unfold window Chrono.fromStd
  by_cases h : (timeout : Int) ≤ Chrono.maxDuration
  · rw [if_pos h]
  · rw [if_neg h]
    rfl

/-- Subtracting leaves the range of instants at its start only. -/
theorem sub_eq (now : Chrono.Utc) (timeout : Nat) :
    Chrono.sub now timeout =
      if Chrono.minUtc ≤ now.val - timeout then some (now.val - timeout) else none := by
  have hmax := now.property.2
  have hrep : Chrono.Representable (now.val - timeout) ↔ Chrono.minUtc ≤ now.val - timeout := by
    constructor
    · exact And.left
    · intro h
      exact ⟨h, Int.le_trans (Int.sub_le_self _ (Int.natCast_nonneg timeout)) hmax⟩
  unfold Chrono.sub
  simp only [hrep]

/-- The steps of the computation come to the cutoff the sweep is given by. -/
theorem computeCutoff_eq (now : Chrono.Utc) (timeout : Nat) :
    computeCutoff now timeout = cutoff now timeout := by
  unfold computeCutoff cutoff
  rw [window_eq]
  by_cases hwindow : (timeout : Int) ≤ Chrono.maxDuration
  · rw [if_pos hwindow, Option.bind_some, sub_eq]
    simp only [hwindow, true_and]
  · rw [if_neg hwindow, if_neg (mt And.left hwindow)]
    rfl

/-- The cutoff is computed without a panic, and a window that reaches back before the
first instant flips no agent. -/
structure CutoffSound (timeout : Nat) (now : Chrono.Utc) : Prop where
  completes : ∃ c, computeCutoff now timeout = some c
  spares : now.val - timeout < Chrono.minUtc →
    ∀ reg mgr draw last, ∃ mgr', sweep reg mgr timeout now draw last = some (reg, mgr')

/-- A window within the representable past is a duration. -/
theorem window_of_past {now : Chrono.Utc} {timeout : Nat}
    (h : Chrono.minUtc ≤ now.val - timeout) :
    (timeout : Int) ≤ Chrono.maxDuration := by
  have key : ∀ t : Int, t ≤ 8210266876799 * 10 ^ 9 + 999999999 →
      -8334601228800 * 10 ^ 9 ≤ t - timeout → (timeout : Int) ≤ (2 ^ 63 - 1) * 10 ^ 6 := by
    omega
  exact key now.val now.property.2 h

/-- The cutoff is sound for the timeouts that are no longer than the representable
past, and no others. -/
theorem cutoff_sound_iff {filters : Config.LogFilters} (accepted : Config.Accepted filters)
    (now : Chrono.Utc) :
    CutoffSound (timeout accepted.config) now ↔
      Chrono.minUtc ≤ now.val - timeout accepted.config := by
  constructor
  · intro h
    obtain ⟨c, hc⟩ := h.completes
    rw [computeCutoff_eq] at hc
    unfold cutoff at hc
    by_cases hpast : (timeout accepted.config : Int) ≤ Chrono.maxDuration ∧
        Chrono.minUtc ≤ now.val - timeout accepted.config
    · exact hpast.2
    · rw [if_neg hpast] at hc
      cases hc
  · intro hpast
    refine ⟨⟨now.val - timeout accepted.config, ?_⟩, fun hbefore => ?_⟩
    · rw [computeCutoff_eq]
      exact if_pos ⟨window_of_past hpast, hpast⟩
    · exact absurd hpast (Int.not_le.mpr hbefore)

/-- The defaults, with another timeout. -/
def withTimeout (filters : Config.LogFilters) (hinfo : filters.parse "info" = .ok ())
    (secs : UInt64) (hsecs : 30 < secs) : Config.Accepted filters :=
  have hpos : (0 : UInt64) < 30 := by decide
  ⟨{ agents := ⟨30, secs⟩ },
    Config.validate_agents (Config.validate_default hinfo) hpos hsecs⟩

/-- Accepted timeouts that panic: one beyond the first instant, and one that the
fallback is meant for. -/
theorem cutoff_not_sound :
    let filters : Config.LogFilters := ⟨fun _ => .ok (), id⟩
    let far := withTimeout filters rfl (.ofNat (10 ^ 13)) (by decide)
    let longest := withTimeout filters rfl (.ofNat (2 ^ 63 - 1)) (by decide)
    let now : Chrono.Utc := ⟨1767225600 * 10 ^ 9, by decide⟩
    (computeCutoff now (timeout far.config) = none ∧ ¬ CutoffSound (timeout far.config) now) ∧
    computeCutoff now (timeout longest.config) = none ∧
      ¬ CutoffSound (timeout longest.config) now := by
  intro filters far longest now
  have hfar : computeCutoff now (timeout far.config) = none := by decide
  have hlongest : computeCutoff now (timeout longest.config) = none := by decide
  refine ⟨⟨hfar, fun h => ?_⟩, hlongest, fun h => ?_⟩
  · obtain ⟨c, hc⟩ := h.completes
    cases hfar.symm.trans hc
  · obtain ⟨c, hc⟩ := h.completes
    cases hlongest.symm.trans hc

end Watchdog

end Trumpet
