import Trumpet.Lib.Transition

/-!
# Runs that go back

A system that may reload a state it has visited. The states of a run then form a
tree: a reload continues the *line* of the state it reloads. What every step
keeps of a line, and how every step relates a state to the next, holds along all
lines of a run.
-/

namespace Rewind

variable {σ Λ : Type}

/-- A state with the states before it on its line, oldest first. -/
structure Line (σ : Type) where
  past : List σ
  now : σ

namespace Line

def states (b : Line σ) : List σ := b.past ++ [b.now]

def extend (b : Line σ) (t : σ) : Line σ := ⟨b.states, t⟩

theorem now_mem (b : Line σ) : b.now ∈ b.states := by simp [states]

end Line

/-- The current line and the lines of the states before, in the order of the run. -/
structure Run (σ : Type) where
  current : Line σ
  earlier : List (Line σ)

def Run.visited (r : Run σ) : List (Line σ) := r.earlier ++ [r.current]

inductive Label (Λ : Type) where
  | op (l : Λ)
  /-- Reload the `i`-th state of the run. -/
  | reload (i : Nat)

def start (init : σ) : Run σ := ⟨⟨[], init⟩, []⟩

/-- `load now src` is what loading `src` makes of the state `now`. -/
def step (next : σ → Λ → Option σ) (load : σ → σ → σ) (r : Run σ) : Label Λ → Option (Run σ)
  | .op l => (next r.current.now l).map fun t => ⟨r.current.extend t, r.visited⟩
  | .reload i => (r.visited[i]?).map fun b => ⟨b.extend (load r.current.now b.now), r.visited⟩

variable {next : σ → Λ → Option σ} {load : σ → σ → σ} {init : σ}

/-- What holds of the first line, and of a line continued, holds of every line. -/
theorem line_induction {P : Line σ → Prop} (base : P ⟨[], init⟩)
    (op : ∀ b l t, P b → next b.now l = some t → P (b.extend t))
    (reload : ∀ b now, P b → P (b.extend (load now b.now))) {ls : List (Label Λ)} {r : Run σ}
    (h : Transition.exec (step next load) (start init) ls = some r) : ∀ b ∈ r.visited, P b := by
  have first : ∀ b ∈ (start init).visited, P b := by
    intro b hb
    rw [List.mem_singleton.mp hb]
    exact base
  refine Transition.invariant (P := fun r : Run σ => ∀ b ∈ r.visited, P b) ?_ first h
  intro r l t ih hs b hb
  have hcur : P r.current := ih r.current (by simp [Run.visited])
  cases l with
  | op l =>
    obtain ⟨u, hu, rfl⟩ := Option.map_eq_some_iff.mp hs
    rcases List.mem_append.mp hb with hb | hb
    · exact ih b hb
    · rw [List.mem_singleton.mp hb]
      exact op r.current l u hcur hu
  | reload i =>
    obtain ⟨src, hsrc, rfl⟩ := Option.map_eq_some_iff.mp hs
    rcases List.mem_append.mp hb with hb | hb
    · exact ih b hb
    · rw [List.mem_singleton.mp hb]
      exact reload src r.current.now (ih src (List.mem_of_getElem? hsrc))

/-- What every step and every reload keeps. -/
theorem invariant {I : σ → Prop} (base : I init) (op : ∀ s l t, I s → next s l = some t → I t)
    (reload : ∀ s now, I s → I (load now s)) {ls : List (Label Λ)} {r : Run σ}
    (h : Transition.exec (step next load) (start init) ls = some r) : I r.current.now :=
  line_induction (P := fun b => I b.now) base (fun b l t => op b.now l t)
    (fun b now => reload b.now now) h r.current (by simp [Run.visited])

/-- The states of a line satisfy `I`, and each is related by `R` to all later ones. -/
structure Ordered (I : σ → Prop) (R : σ → σ → Prop) (b : Line σ) : Prop where
  each : ∀ s ∈ b.states, I s
  related : b.states.Pairwise R

theorem Ordered.extend {I : σ → Prop} {R : σ → σ → Prop} (trans : ∀ a b c, R a b → R b c → R a c)
    {b : Line σ} {t : σ} (h : Ordered I R b) (ht : I t) (hr : R b.now t) :
    Ordered I R (b.extend t) := by
  constructor
  · intro s hs
    rcases List.mem_append.mp hs with hs | hs
    · exact h.each s hs
    · rw [List.mem_singleton.mp hs]
      exact ht
  · refine List.pairwise_append.mpr ⟨h.related, List.pairwise_singleton _ _, ?_⟩
    intro s hs u hu
    rw [List.mem_singleton.mp hu]
    rcases List.mem_append.mp hs with hs | hs
    · exact trans s b.now t
        ((List.pairwise_append.mp h.related).2.2 s hs b.now (List.mem_singleton.mpr rfl)) hr
    · rw [List.mem_singleton.mp hs]
      exact hr

/-- An invariant kept, and a transitive relation met, by every step and every reload. -/
theorem ordered {I : σ → Prop} {R : σ → σ → Prop} (trans : ∀ a b c, R a b → R b c → R a c)
    (base : I init) (op : ∀ s l t, I s → next s l = some t → I t ∧ R s t)
    (reload : ∀ s now, I s → I (load now s) ∧ R s (load now s)) {ls : List (Label Λ)} {r : Run σ}
    (h : Transition.exec (step next load) (start init) ls = some r) :
    ∀ b ∈ r.visited, Ordered I R b := by
  refine line_induction ?_ ?_ ?_ h
  · refine ⟨fun s hs => ?_, List.pairwise_singleton _ _⟩
    rw [List.mem_singleton.mp hs]
    exact base
  · intro b l t hb ht
    obtain ⟨hi, hr⟩ := op b.now l t (hb.each b.now b.now_mem) ht
    exact hb.extend trans hi hr
  · intro b now hb
    obtain ⟨hi, hr⟩ := reload b.now now (hb.each b.now b.now_mem)
    exact hb.extend trans hi hr

end Rewind
