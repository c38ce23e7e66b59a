/-!
# Results of steps that may fail

What the result of a mapped or chained step tells of the steps before it.
-/

namespace Except

variable {ε ε' α β : Type}

theorem of_map_ok {r : Except ε α} {f : α → β} {b : β} (h : r.map f = .ok b) :
    ∃ a, r = .ok a ∧ f a = b := by
  cases r with
  | error e => cases h
  | ok a => exact ⟨a, rfl, Except.ok.inj h⟩

theorem of_map_error {r : Except ε α} {f : α → β} {e : ε} (h : r.map f = .error e) :
    r = .error e := by
  cases r with
  | error e' => exact congrArg Except.error (Except.error.inj h)
  | ok a => cases h

theorem of_mapError_ok {r : Except ε α} {f : ε → ε'} {a : α} (h : r.mapError f = .ok a) :
    r = .ok a := by
  cases r with
  | error e => cases h
  | ok b => exact congrArg Except.ok (Except.ok.inj h)

/-- A chain of two steps that succeeds has taken both. -/
theorem of_bind_ok {r : Except ε α} {f : α → Except ε β} {b : β} (h : r >>= f = .ok b) :
    ∃ a, r = .ok a ∧ f a = .ok b := by
  cases r with
  | error e => cases h
  | ok a => exact ⟨a, rfl, h⟩

theorem isOk_ok (a : α) : (ok a : Except ε α).isOk = true := rfl

/-- What passes a check and succeeds behind it. -/
theorem isOk_guard {c : Prop} [Decidable c] {e : ε} {r : Except ε α} :
    (if c then .error e else r).isOk = true ↔ ¬ c ∧ r.isOk = true := by
  split
  · rename_i h
    exact iff_of_false nofun fun hr => hr.1 h
  · rename_i h
    exact (and_iff_right h).symm

end Except
