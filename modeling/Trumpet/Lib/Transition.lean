import Mathlib.Data.List.Induction

/-!
# Labelled transition systems

A system is a partial function `step` from a state and a label to the next
state. A run is a list of labels; properties of runs are proved by induction on
their newest step, and may speak of the labels taken so far.
-/

namespace Transition

variable {σ Λ : Type}

/-- Take the steps `ls` in turn, as long as each is enabled. -/
def exec (step : σ → Λ → Option σ) (s : σ) : List Λ → Option σ
  | [] => some s
  | l :: ls => (step s l).bind fun t => exec step t ls

/-- `G pre s l` holds of every step of the run `ls`: `s` is the state before the
step, `pre` the labels before it. -/
def EachStep (step : σ → Λ → Option σ) (G : List Λ → σ → Λ → Prop) (init : σ) (ls : List Λ) :
    Prop :=
  ∀ pre l post s, ls = pre ++ l :: post → exec step init pre = some s → G pre s l

variable {step : σ → Λ → Option σ} {init : σ}

@[simp] theorem exec_nil (s : σ) : exec step s [] = some s := rfl

theorem exec_append (s : σ) (ls ms : List Λ) :
    exec step s (ls ++ ms) = (exec step s ls).bind fun t => exec step t ms := by
  induction ls generalizing s with
  | nil => rfl
  | cons l ls ih =>
    simp only [List.cons_append, exec]
    cases step s l with
    | none => rfl
    | some t => exact ih t

theorem exec_concat {s u : σ} {ls : List Λ} {l : Λ} :
    exec step s (ls ++ [l]) = some u ↔ ∃ t, exec step s ls = some t ∧ step t l = some u := by
  simp only [exec_append, exec, Option.bind_eq_some_iff, Option.some.injEq]
  constructor
  · rintro ⟨t, ht, u, hu, rfl⟩; exact ⟨t, ht, hu⟩
  · rintro ⟨t, ht, hu⟩; exact ⟨t, ht, u, hu, rfl⟩

/-- Runs compose. -/
theorem exec_trans {s t u : σ} {ls ms : List Λ} (h : exec step s ls = some t)
    (h' : exec step t ms = some u) : exec step s (ls ++ ms) = some u := by
  rw [exec_append, h]
  exact h'

/-- Induction on the newest step of a run, with its labels at hand. -/
theorem history_induction {P : List Λ → σ → Prop} (start : P [] init)
    (snoc : ∀ ls s l t, exec step init ls = some s → P ls s → step s l = some t →
      P (ls ++ [l]) t)
    {ls : List Λ} {s : σ} (h : exec step init ls = some s) : P ls s := by
  induction ls using List.reverseRecOn generalizing s with
  | nil => cases h; exact start
  | append_singleton ls l ih =>
    obtain ⟨t, ht, hl⟩ := exec_concat.mp h
    exact snoc ls t l s ht (ih ht) hl

/-- What every step keeps, every run keeps. -/
theorem invariant {P : σ → Prop} (keep : ∀ s l t, P s → step s l = some t → P t)
    {ls : List Λ} {s : σ} (start : P init) (h : exec step init ls = some s) : P s :=
  history_induction (P := fun _ s => P s) start (fun _ s l t _ hs hl => keep s l t hs hl) h

section
variable {G : List Λ → σ → Λ → Prop}

theorem EachStep.of_concat {ls : List Λ} {l : Λ} (h : EachStep step G init (ls ++ [l])) :
    EachStep step G init ls := by
  rintro pre m post s rfl hs
  exact h pre m (post ++ [l]) s (by simp) hs

theorem EachStep.last {ls : List Λ} {l : Λ} {s : σ} (h : EachStep step G init (ls ++ [l]))
    (hs : exec step init ls = some s) : G ls s l :=
  h ls l [] s rfl hs

theorem EachStep.nil : EachStep step G init [] := by
  intro pre l post s e
  cases pre <;> cases e

/-- A guard on states and labels holds along a run if it holds of its first step
and along the rest. -/
theorem EachStep.cons {G : σ → Λ → Prop} {l : Λ} {ls : List Λ} (h : G init l)
    (hls : ∀ t, step init l = some t → EachStep step (fun _ => G) t ls) :
    EachStep step (fun _ => G) init (l :: ls) := by
  rintro (_ | ⟨_, pre⟩) m post s e hs
  · cases e
    cases hs
    exact h
  · obtain ⟨rfl, rfl⟩ := List.cons.inj e
    obtain ⟨t, ht, hs⟩ := Option.bind_eq_some_iff.mp hs
    exact hls t ht pre m post s rfl hs

theorem EachStep.next {G : σ → Λ → Prop} {l : Λ} {ls : List Λ} {t : σ} (h : G init l)
    (hs : step init l = some t) (hls : EachStep step (fun _ => G) t ls) :
    EachStep step (fun _ => G) init (l :: ls) :=
  .cons h fun _ ht => Option.some.inj (hs.symm.trans ht) ▸ hls

/-- A guard that the labels of a run meet in every state. -/
theorem EachStep.of_forall {G : σ → Λ → Prop} {ls : List Λ} (h : ∀ l ∈ ls, ∀ s, G s l) :
    EachStep step (fun _ => G) init ls := by
  rintro pre l post s rfl -
  exact h l (List.mem_append_right pre List.mem_cons_self) s

theorem EachStep.append {G : σ → Λ → Prop} {ls ms : List Λ} {t : σ}
    (h : EachStep step (fun _ => G) init ls) (ht : exec step init ls = some t)
    (hms : EachStep step (fun _ => G) t ms) : EachStep step (fun _ => G) init (ls ++ ms) := by
  induction ls generalizing init with
  | nil =>
    cases ht
    exact hms
  | cons l ls ih =>
    obtain ⟨u, hu, ht⟩ := Option.bind_eq_some_iff.mp ht
    refine .next (h [] l ls init rfl rfl) hu (ih (fun pre m post s e hs => ?_) ht)
    refine h (l :: pre) m post s (e ▸ rfl) ?_
    rw [exec, hu]
    exact hs

/-- Guards that agree in every reachable state agree along every run. -/
theorem EachStep.congr {H : List Λ → σ → Λ → Prop} {ls : List Λ}
    (h : ∀ pre s l, exec step init pre = some s → (G pre s l ↔ H pre s l)) :
    EachStep step G init ls ↔ EachStep step H init ls := by
  constructor
  · intro hg pre l post s e hs
    exact (h pre s l hs).mp (hg pre l post s e hs)
  · intro hh pre l post s e hs
    exact (h pre s l hs).mpr (hh pre l post s e hs)

end

/-- What every step that meets the guard keeps, every run whose steps all meet
it keeps. -/
theorem guarded_invariant {P : σ → Prop} {G : σ → Λ → Prop}
    (keep : ∀ s l t, P s → G s l → step s l = some t → P t) {ls : List Λ} {s : σ}
    (start : P init) (hg : EachStep step (fun _ => G) init ls) (h : exec step init ls = some s) :
    P s := by
  refine history_induction
    (P := fun ls s => EachStep step (fun _ => G) init ls → P s) (fun _ => start) ?_ h hg
  intro ls s l t hs ih hl hg
  exact keep s l t (ih hg.of_concat) (hg.last hs) hl

/-- Steps that an abstraction `f` of the states does not see can be left out of a run, if
every other step is one of the abstract system that meets the guard. -/
theorem exec_thin {τ : Type} {step' : τ → Λ → Option τ} {f : σ → τ} {P : σ → Prop}
    {G : τ → Λ → Prop} (keep : ∀ s l t, P s → step s l = some t → P t)
    (seen : ∀ s l t, P s → step s l = some t →
      f t = f s ∨ G (f s) l ∧ step' (f s) l = some (f t))
    {ls : List Λ} {s t : σ} (start : P s) (h : exec step s ls = some t) :
    ∃ ks, List.Sublist ks ls ∧ exec step' (f s) ks = some (f t) ∧
      EachStep step' (fun _ => G) (f s) ks := by
  induction ls generalizing s with
  | nil =>
    cases h
    exact ⟨[], .slnil, rfl, .nil⟩
  | cons l ls ih =>
    obtain ⟨u, hu, h⟩ := Option.bind_eq_some_iff.mp h
    obtain ⟨ks, hsub, hks, hguard⟩ := ih (keep s l u start hu) h
    rcases seen s l u start hu with hsame | ⟨hg, hstep⟩
    · rw [hsame] at hks hguard
      exact ⟨ks, hsub.cons l, hks, hguard⟩
    · refine ⟨l :: ks, hsub.cons_cons l, ?_, .cons hg fun v hv => ?_⟩
      · exact Option.bind_eq_some_iff.mpr ⟨f u, hstep, hks⟩
      · rw [hstep] at hv
        cases hv
        exact hguard

end Transition
