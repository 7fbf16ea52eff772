-- SUMMARY: Runs of systems whose steps may fail: simulation by an abstract system, and systems whose actions stay on tracks of their own.
import Mathlib.Data.List.Basic

/-! # Runs

A system takes one action after another. `Simulates` carries a relation between
its states and those of an abstract system from one step to whole runs; `Tracks`
is about systems whose state splits into components, so that only the order of
the actions on the same component matters. -/

namespace Runs

variable {σ τ A ε : Type*}

/-- The actions of a list, one after another, up to the first that fails. -/
def run (step : σ → A → Except ε σ) : σ → List A → Except ε σ
  | s, [] => .ok s
  | s, a :: rest =>
    match step s a with
    | .error e => .error e
    | .ok s => run step s rest

/-! ## Simulation -/

/-- From related states, an action that is admitted succeeds, and leads to related
    states again. -/
def Simulates (step : σ → A → Except ε σ) (next : τ → A → τ) (Admits : A → Prop)
    (R : σ → τ → Prop) : Prop :=
  ∀ s t a, R s t → Admits a → ∃ s', step s a = .ok s' ∧ R s' (next t a)

theorem Simulates.run {step : σ → A → Except ε σ} {next : τ → A → τ} {Admits : A → Prop}
    {R : σ → τ → Prop} (h : Simulates step next Admits R) {s : σ} {t : τ} (hst : R s t)
    {as : List A} (has : ∀ a ∈ as, Admits a) :
    ∃ s', Runs.run step s as = .ok s' ∧ R s' (as.foldl next t) := by
  induction as generalizing s t with
  | nil => exact ⟨s, rfl, hst⟩
  | cons a rest ih =>
    obtain ⟨s₁, hstep, hnext⟩ := h s t a hst (has a List.mem_cons_self)
    obtain ⟨s₂, hrest, hfinal⟩ := ih hnext fun b hb => has b (List.mem_cons_of_mem a hb)
    refine ⟨s₂, ?_, hfinal⟩
    rw [Runs.run, hstep]
    exact hrest

/-! ## Tracks -/

/-- A system with a component for every key: an action changes the component of its own
    key only, and by what is in that component only. -/
structure Tracks (τ A : Type*) (K : Type*) (C : K → Type*) where
  next : τ → A → τ
  key : A → K
  view : (k : K) → τ → C k
  own : ∀ s t a, view (key a) s = view (key a) t → view (key a) (next s a) = view (key a) (next t a)
  other : ∀ s a k, k ≠ key a → view k (next s a) = view k s

namespace Tracks

variable {K : Type*} {C : K → Type*} (T : Tracks τ A K C)

theorem view_foldl_congr {k : K} {s t : τ} (h : T.view k s = T.view k t) (as : List A) :
    T.view k (as.foldl T.next s) = T.view k (as.foldl T.next t) := by
  induction as generalizing s t with
  | nil => exact h
  | cons a rest ih =>
    apply ih
    by_cases hk : k = T.key a
    · subst hk
      exact T.own s t a h
    · rw [T.other s a k hk, T.other t a k hk, h]

variable [DecidableEq K]

/-- The actions of other keys do not matter to a component. -/
theorem view_foldl_filter (k : K) (as : List A) (s : τ) :
    T.view k (as.foldl T.next s) =
      T.view k ((as.filter fun a => T.key a = k).foldl T.next s) := by
  induction as generalizing s with
  | nil => rfl
  | cons a rest ih =>
    by_cases hk : T.key a = k
    · rw [List.filter_cons_of_pos (by simpa using hk)]
      exact ih (T.next s a)
    · rw [List.filter_cons_of_neg (by simpa using hk), ← ih s]
      exact T.view_foldl_congr (T.other s a k fun h => hk h.symm) rest

/-- Two runs with the same actions on every track end alike in every component. -/
theorem view_foldl_eq {as bs : List A}
    (h : ∀ k, (as.filter fun a => T.key a = k) = bs.filter fun a => T.key a = k) (k : K) (s : τ) :
    T.view k (as.foldl T.next s) = T.view k (bs.foldl T.next s) := by
  rw [T.view_foldl_filter, h k, ← T.view_foldl_filter]

end Tracks

end Runs
