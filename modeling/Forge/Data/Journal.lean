import Forge.Data.Numerals
import Mathlib.Data.List.Basic

/-!
# Work that saves its progress

A program works through the items `0, 1, 2, …` and saves its progress from time to time. It may be killed
at any save; the next run then starts from the last one. An `Entry` is one thing that a run does, `cut`
is the kill, and `history` puts the runs one behind the other.

`Resumes` says that the items are worked in order from where the last save stands. It is kept by `cut` and by
`history`, and **no item is worked again once it is saved** (`Resumes.le_work`). What every run keeps of the
saves holds of the saves of the whole history (`forall_saves_history`).
-/

namespace Forge

/-- One thing that a run does: work on an item, or save its progress. -/
inductive Entry (κ : Type) where
  | work (n : ℕ)
  | save (c : κ)
deriving DecidableEq

namespace Entry

variable {κ σ : Type}

/-- The progress that is saved, in order. -/
def saves : List (Entry κ) → List κ
  | [] => []
  | .work _ :: entries => saves entries
  | .save c :: entries => c :: saves entries

@[simp] theorem saves_nil : saves ([] : List (Entry κ)) = [] := rfl

@[simp] theorem saves_work (n : ℕ) (entries : List (Entry κ)) : saves (.work n :: entries) = saves entries := rfl

@[simp] theorem saves_save (c : κ) (entries : List (Entry κ)) : saves (.save c :: entries) = c :: saves entries := rfl

@[simp] theorem saves_append (entries entries' : List (Entry κ)) :
    saves (entries ++ entries') = saves entries ++ saves entries' := by
  induction entries with
  | nil => rfl
  | cons e entries ih => cases e <;> simp [ih]

/-- The run ends with its save number `k`, counted from 0, if it gets there. -/
def cutAfter : ℕ → List (Entry κ) → List (Entry κ)
  | _, [] => []
  | k, .work n :: entries => .work n :: cutAfter k entries
  | 0, .save c :: _ => [.save c]
  | k + 1, .save c :: entries => .save c :: cutAfter k entries

/-- A run that is killed at a save, or is not. -/
def cut : Option ℕ → List (Entry κ) → List (Entry κ)
  | none, entries => entries
  | some k, entries => cutAfter k entries

theorem saves_cutAfter (k : ℕ) (entries : List (Entry κ)) :
    saves (cutAfter k entries) = (saves entries).take (k + 1) := by
  induction entries generalizing k with
  | nil => simp [cutAfter]
  | cons e entries ih =>
    cases e with
    | work n => simp [cutAfter, ih]
    | save c => cases k <;> simp [cutAfter, ih]

/-- The saves of a killed run are the first ones of the run. -/
theorem saves_cut (kill : Option ℕ) (entries : List (Entry κ)) :
    saves (cut kill entries) = (saves entries).take ((kill.map (· + 1)).getD (saves entries).length) := by
  cases kill with
  | none => simp [cut]
  | some k => simp [cut, saves_cutAfter]

theorem mem_saves_of_mem_saves_cut {kill : Option ℕ} {entries : List (Entry κ)} {c : κ}
    (h : c ∈ saves (cut kill entries)) : c ∈ saves entries := by
  rw [saves_cut] at h
  exact List.mem_of_mem_take h

/-- The progress to go on from: the last save of the run, or else what was there before. -/
def lastSave (last : Option κ) (entries : List (Entry κ)) : Option κ := (saves entries).getLast?.or last

/-! ### Runs one behind the other -/

section History

variable (run : Option κ → σ → List (Entry κ))

/-- All that the runs do, each one given the last save before it. -/
def history : Option κ → List σ → List (Entry κ)
  | _, [] => []
  | last, s :: steps => run last s ++ history (lastSave last (run last s)) steps

/-- The runs, each with the last save before it. -/
def starts : Option κ → List σ → List (Option κ × σ)
  | _, [] => []
  | last, s :: steps => (last, s) :: starts (lastSave last (run last s)) steps

theorem mem_saves_history {c : κ} {last : Option κ} {steps : List σ} :
    c ∈ saves (history run last steps) ↔ ∃ p ∈ starts run last steps, c ∈ saves (run p.1 p.2) := by
  induction steps generalizing last with
  | nil => simp [history, starts]
  | cons s steps ih => simp [history, starts, ih]

/-- What holds of the last save holds of one of the saves, or of what was there before. -/
theorem forall_mem_lastSave {I : κ → Prop} {last : Option κ} {entries : List (Entry κ)} (hlast : ∀ c ∈ last, I c)
    (h : ∀ c ∈ saves entries, I c) : ∀ c ∈ lastSave last entries, I c := by
  intro c hc
  unfold lastSave at hc
  cases hl : (saves entries).getLast? with
  | none =>
    rw [hl] at hc
    exact hlast c hc
  | some d =>
    rw [hl] at hc
    obtain rfl : d = c := Option.some.inj hc
    exact h d (List.mem_of_getLast? hl)

/-- What every run keeps of the saves holds at the start of each run. -/
theorem forall_mem_starts {I : κ → Prop} {last : Option κ} (hlast : ∀ c ∈ last, I c) {steps : List σ}
    (hrun : ∀ s ∈ steps, ∀ last, (∀ c ∈ last, I c) → ∀ c ∈ saves (run last s), I c) :
    ∀ p ∈ starts run last steps, p.2 ∈ steps ∧ ∀ c ∈ p.1, I c := by
  induction steps generalizing last with
  | nil => exact fun p hp => absurd hp List.not_mem_nil
  | cons s steps ih =>
    rw [List.forall_mem_cons] at hrun
    rw [starts, List.forall_mem_cons]
    refine ⟨⟨List.mem_cons_self, hlast⟩, fun p hp => ?_⟩
    obtain ⟨hmem, hp⟩ := ih (forall_mem_lastSave hlast (hrun.1 last hlast)) hrun.2 p hp
    exact ⟨List.mem_cons_of_mem _ hmem, hp⟩

/-- **Run rule**: what every run keeps of the saves holds of all of them. -/
theorem forall_saves_history {I : κ → Prop} {last : Option κ} (hlast : ∀ c ∈ last, I c) {steps : List σ}
    (hrun : ∀ s ∈ steps, ∀ last, (∀ c ∈ last, I c) → ∀ c ∈ saves (run last s), I c) :
    ∀ c ∈ saves (history run last steps), I c := by
  intro c hc
  obtain ⟨p, hp, hc⟩ := (mem_saves_history run).mp hc
  obtain ⟨hmem, hI⟩ := forall_mem_starts run hlast hrun p hp
  exact hrun p.2 hmem p.1 hI c hc

end History

/-! ### Items in order -/

section Resumes

variable (cursor : κ → ℕ)

/-- The items are worked in order: the next one is where the last save stands, and no save goes back. -/
def Resumes : ℕ → List (Entry κ) → Prop
  | _, [] => True
  | n, .work m :: entries => m = n ∧ Resumes n entries
  | n, .save c :: entries => n ≤ cursor c ∧ Resumes (cursor c) entries

/-- Where the progress stands that a run goes on from. -/
def stand (last : Option κ) : ℕ := (last.map cursor).getD 0

variable {cursor}

theorem Resumes.cutAfter {n : ℕ} {entries : List (Entry κ)} (h : Resumes cursor n entries) (k : ℕ) :
    Resumes cursor n (cutAfter k entries) := by
  induction entries generalizing n k with
  | nil => exact h
  | cons e entries ih =>
    cases e with
    | work m => exact ⟨h.1, ih h.2 k⟩
    | save c =>
      cases k with
      | zero => exact ⟨h.1, trivial⟩
      | succ k => exact ⟨h.1, ih h.2 k⟩

theorem Resumes.cut {n : ℕ} {entries : List (Entry κ)} (h : Resumes cursor n entries) (kill : Option ℕ) :
    Resumes cursor n (cut kill entries) := by
  cases kill with
  | none => exact h
  | some k => exact h.cutAfter k

theorem lastSave_save (last : Option κ) (c : κ) (entries : List (Entry κ)) :
    lastSave last (.save c :: entries) = lastSave (some c) entries := by
  unfold lastSave
  rw [saves_save, List.getLast?_cons]
  cases (saves entries).getLast? <;> rfl

theorem Resumes.append {last : Option κ} {entries entries' : List (Entry κ)}
    (h : Resumes cursor (stand cursor last) entries)
    (h' : Resumes cursor (stand cursor (lastSave last entries)) entries') :
    Resumes cursor (stand cursor last) (entries ++ entries') := by
  induction entries generalizing last with
  | nil => exact h'
  | cons e entries ih =>
    cases e with
    | work m => exact ⟨h.1, ih h.2 h'⟩
    | save c =>
      rw [lastSave_save] at h'
      have htail : Resumes cursor (stand cursor (some c)) entries := h.2
      exact ⟨h.1, ih htail h'⟩

/-- Runs that each go on from the last save work the items in order together. -/
theorem resumes_history {run : Option κ → σ → List (Entry κ)} {I : κ → Prop} {last : Option κ} (hlast : ∀ c ∈ last, I c)
    {steps : List σ} (hrun : ∀ s ∈ steps, ∀ last, (∀ c ∈ last, I c) → ∀ c ∈ saves (run last s), I c)
    (hstep : ∀ s ∈ steps, ∀ last, (∀ c ∈ last, I c) → Resumes cursor (stand cursor last) (run last s)) :
    Resumes cursor (stand cursor last) (history run last steps) := by
  induction steps generalizing last with
  | nil => trivial
  | cons s steps ih =>
    rw [List.forall_mem_cons] at hrun hstep
    exact (hstep.1 last hlast).append (ih (forall_mem_lastSave hlast (hrun.1 last hlast)) hrun.2 hstep.2)

/-- No item is worked that lies before the start. -/
theorem Resumes.le_of_work_mem {n : ℕ} {entries : List (Entry κ)} (h : Resumes cursor n entries) :
    ∀ e ∈ entries, ∀ m, e = .work m → n ≤ m := by
  induction entries generalizing n with
  | nil => exact fun e he => absurd he List.not_mem_nil
  | cons e entries ih =>
    cases e with
    | work m =>
      rw [List.forall_mem_cons]
      refine ⟨?_, ih h.2⟩
      intro m' hm
      cases hm
      exact Nat.le_of_eq h.1.symm
    | save c =>
      rw [List.forall_mem_cons]
      refine ⟨?_, fun e he m hm => Nat.le_trans h.1 (ih h.2 e he m hm)⟩
      intro m hm
      cases hm

/-- **No repeated work**: every save before an item stands at that item or before it. -/
theorem Resumes.le_work {n m : ℕ} {before after : List (Entry κ)}
    (h : Resumes cursor n (before ++ .work m :: after)) : ∀ c ∈ saves before, cursor c ≤ m := by
  induction before generalizing n with
  | nil => exact fun c hc => absurd hc List.not_mem_nil
  | cons e before ih =>
    cases e with
    | work k => exact ih h.2
    | save c =>
      rw [saves_save, List.forall_mem_cons]
      exact ⟨Resumes.le_of_work_mem h.2 _ (List.mem_append_right _ List.mem_cons_self) m rfl, ih h.2⟩

end Resumes

end Entry

end Forge
