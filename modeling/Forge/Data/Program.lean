import Forge.Data.Call
import Forge.Data.Run
import Mathlib.Data.List.Basic

/-!
# Programs that run side by side

A program takes steps on a state that it shares with others. A step is atomic; it
brings an input from outside, and what the program does next depends on that input
and on the state it met. Between two steps of a program the others may take any
number of theirs.

`Program.Keeps` is a rely-guarantee judgement: as long as the others only make
changes in `R`, the program only makes changes in `G`. Its rules follow the program
(`Keeps.bind`, `Keeps.attempt`, `Keeps.perform`), and `Pool.invariant` puts the
programs together: what is kept by every change in `G` and by every change from
outside holds in each state that any interleaving reaches.
-/

namespace Forge

/-- A program that returns or throws after steps on a shared state of type `σ`, with inputs of type `ι`. -/
inductive Program (σ ι ε α : Type) : Type where
  | done (r : Except ε α)
  | step (effect : ι → σ → σ) (next : ι → σ → Program σ ι ε α)

namespace Program

variable {σ ι ε α β : Type}

/-- Run the first program, and the second if the first returned. -/
def bind : Program σ ι ε α → (α → Program σ ι ε β) → Program σ ι ε β
  | done (.ok a), f => f a
  | done (.error e), _ => done (.error e)
  | step effect next, f => step effect fun i s => bind (next i s) f

instance : Monad (Program σ ι ε) where
  pure a := done (.ok a)
  bind := bind

def throw (e : ε) : Program σ ι ε α := done (.error e)

/-- `try … catch`: run the handler if the program throws. -/
def attempt : Program σ ι ε α → (ε → Program σ ι ε α) → Program σ ι ε α
  | done (.ok a), _ => done (.ok a)
  | done (.error e), f => f e
  | step effect next, f => step effect fun i s => attempt (next i s) f

/-- A call as one step. -/
def perform (x : ι → Call σ ε α) : Program σ ι ε α := step (fun i s => (x i s).2) fun i s => done (x i s).1

/-- Return the result of a computation that takes no step. -/
def ofExcept (r : Except ε α) : Program σ ι ε α := done r

/-- Forget what a program returns. -/
def discard (p : Program σ ι ε α) : Program σ ι ε Unit := bind p fun _ => done (.ok ())

/-! ### A program by itself -/

/-- The program may end so while the others rest: with the result `r` and the state `t`. -/
inductive Runs : Program σ ι ε α → σ → Except ε α → σ → Prop where
  | done {r : Except ε α} {s : σ} : Runs (.done r) s r s
  | step {effect : ι → σ → σ} {next : ι → σ → Program σ ι ε α} {s t : σ} {r : Except ε α} (i : ι) :
      Runs (next i s) (effect i s) r t → Runs (.step effect next) s r t

section

variable {p : Program σ ι ε α} {s t u : σ} {a : α}

theorem Runs.bind {f : α → Program σ ι ε β} {r : Except ε β} (h : p.Runs s (.ok a) t) (h' : (f a).Runs t r u) :
    (p >>= f).Runs s r u := by
  change (Program.bind p f).Runs s r u
  generalize hr : Except.ok a = q at h
  induction h with
  | done =>
    subst hr
    exact h'
  | step i _ ih => exact .step i (ih h' hr)

theorem Runs.attempt {f : ε → Program σ ι ε α} (h : p.Runs s (.ok a) t) : (p.attempt f).Runs s (.ok a) t := by
  generalize hr : Except.ok a = q at h
  induction h with
  | done =>
    subst hr
    exact .done
  | step i _ ih => exact .step i (ih hr)

theorem Runs.perform {x : ι → Call σ ε α} {r : Except ε α} (i : ι) (h : x i s = (r, t)) :
    (Program.perform x).Runs s r t := by
  obtain ⟨rfl, rfl⟩ := Prod.mk.inj h
  exact .step i .done

theorem Runs.discard (h : p.Runs s (.ok a) t) : p.discard.Runs s (.ok ()) t := Runs.bind h .done

end

/-! ### Rely and guarantee -/

/-- The changes in `R` keep `P`. -/
def Stable (R : σ → σ → Prop) (P : σ → Prop) : Prop := ∀ s t, R s t → P s → P t

theorem stable_true {R : σ → σ → Prop} : Stable R fun _ => True := fun _ _ _ _ => trivial

theorem Stable.and {R : σ → σ → Prop} {P Q : σ → Prop} (hP : Stable R P) (hQ : Stable R Q) :
    Stable R fun s => P s ∧ Q s := fun s t hst h => ⟨hP s t hst h.1, hQ s t hst h.2⟩

/-- From states with `P`, the program makes only changes in `G` while the others make only changes in `R`, and
it ends with `Q`. What it knows between two steps is stable. -/
def Keeps (R G : σ → σ → Prop) : (σ → Prop) → Program σ ι ε α → (Except ε α → σ → Prop) → Prop
  | P, done r, Q => ∀ s, P s → Q r s
  | P, step effect next, Q => ∀ s i, P s →
      G s (effect i s) ∧ ∃ M, Stable R M ∧ M (effect i s) ∧ Keeps R G M (next i s) Q

/-- What holds after a program that returns; nothing is asked of one that throws. -/
def Returns (Q : α → σ → Prop) : Except ε α → σ → Prop
  | .ok a, s => Q a s
  | .error _, _ => True

section

variable {R G : σ → σ → Prop} {P P' : σ → Prop} {Q Q' : Except ε α → σ → Prop} {p : Program σ ι ε α}

/-- A fact that is not about the state may be assumed. -/
theorem Keeps.fact {C : Prop} (h : C → Keeps R G P p Q) : Keeps R G (fun s => C ∧ P s) p Q := by
  cases p with
  | done r => exact fun s hs => h hs.1 s hs.2
  | step effect next => exact fun s i hs => h hs.1 s i hs.2

theorem Keeps.pre (h : Keeps R G P p Q) (hP : ∀ s, P' s → P s) : Keeps R G P' p Q := by
  cases p with
  | done r => exact fun s hs => h s (hP s hs)
  | step effect next => exact fun s i hs => h s i (hP s hs)

theorem Keeps.post (h : Keeps R G P p Q) (hQ : ∀ r s, Q r s → Q' r s) : Keeps R G P p Q' := by
  induction p generalizing P with
  | done r => exact fun s hs => hQ r s (h s hs)
  | step effect next ih =>
    intro s i hs
    obtain ⟨hG, M, hM, hs', hnext⟩ := h s i hs
    exact ⟨hG, M, hM, hs', ih i s hnext⟩

/-- **Sequence rule.** -/
theorem Keeps.bind {f : α → Program σ ι ε β} {Q' : Except ε β → σ → Prop} (h : Keeps R G P p Q)
    (hok : ∀ a, Keeps R G (Q (.ok a)) (f a) Q') (herror : ∀ e s, Q (.error e) s → Q' (.error e) s) :
    Keeps R G P (p >>= f) Q' := by
  change Keeps R G P (Program.bind p f) Q'
  induction p generalizing P with
  | done r =>
    cases r with
    | ok a => exact (hok a).pre h
    | error e => exact fun s hs => herror e s (h s hs)
  | step effect next ih =>
    intro s i hs
    obtain ⟨hG, M, hM, hs', hnext⟩ := h s i hs
    exact ⟨hG, M, hM, hs', ih i s hnext⟩

/-- **Handler rule.** -/
theorem Keeps.attempt {f : ε → Program σ ι ε α} (h : Keeps R G P p Q)
    (herror : ∀ e, Keeps R G (Q (.error e)) (f e) Q') (hok : ∀ a s, Q (.ok a) s → Q' (.ok a) s) :
    Keeps R G P (p.attempt f) Q' := by
  induction p generalizing P with
  | done r =>
    cases r with
    | ok a => exact fun s hs => hok a s (h s hs)
    | error e => exact (herror e).pre h
  | step effect next ih =>
    intro s i hs
    obtain ⟨hG, M, hM, hs', hnext⟩ := h s i hs
    exact ⟨hG, M, hM, hs', ih i s hnext⟩

/-- **Step rule**: what a single step leaves is stable, so that it still holds when the next step comes. -/
theorem Keeps.perform {x : ι → Call σ ε α} (hQ : ∀ r, Stable R (Q r))
    (h : ∀ s i, P s → G s (x i s).2 ∧ Q (x i s).1 (x i s).2) : Keeps R G P (Program.perform x) Q := by
  intro s i hs
  exact ⟨(h s i hs).1, Q (x i s).1, hQ _, (h s i hs).2, fun _ hs' => hs'⟩

/-- **Frame rule**: what all changes keep stays known. -/
theorem Keeps.frame {F : σ → Prop} (hR : Stable R F) (hG : Stable G F) (h : Keeps R G P p Q) :
    Keeps R G (fun s => F s ∧ P s) p fun r s => F s ∧ Q r s := by
  induction p generalizing P with
  | done r => exact fun s hs => ⟨hs.1, h s hs.2⟩
  | step effect next ih =>
    intro s i hs
    obtain ⟨hstep, M, hM, hs', hnext⟩ := h s i hs.2
    exact ⟨hstep, fun t => F t ∧ M t, hR.and hM, ⟨hG _ _ hstep hs.1, hs'⟩, ih i s hnext⟩

theorem Keeps.discard (h : Keeps R G P p Q) : Keeps R G P p.discard fun _ _ => True :=
  have hpost : Keeps R G P p fun _ _ => True := h.post fun _ _ _ => trivial
  Keeps.bind hpost (fun _ _ _ => trivial) fun _ _ _ => trivial

end

end Program

/-! ### Pools of programs -/

/-- A shared state and the programs that are running on it. -/
structure Pool (σ ι ε : Type) where
  state : σ
  programs : List (Program σ ι ε Unit)

namespace Pool

variable {σ ι ε : Type}

/-- What happens next in a pool. -/
inductive Event (σ ι ε : Type) where
  /-- Another program starts. -/
  | start (p : Program σ ι ε Unit)
  /-- The program at position `k` takes a step. -/
  | advance (k : ℕ) (input : ι)
  /-- The state changes from outside. -/
  | outside (s : σ)

/-- One step of a pool whose programs satisfy `Starts` and whose state changes from outside by `Env`. -/
inductive Moves (Starts : Program σ ι ε Unit → Prop) (Env : σ → σ → Prop) (w : Pool σ ι ε) :
    Event σ ι ε → Pool σ ι ε → Prop where
  | start {p : Program σ ι ε Unit} (hp : Starts p) : Moves Starts Env w (.start p) ⟨w.state, p :: w.programs⟩
  | advance {k : ℕ} {i : ι} {effect : ι → σ → σ} {next : ι → σ → Program σ ι ε Unit}
      (hk : w.programs[k]? = some (.step effect next)) :
      Moves Starts Env w (.advance k i) ⟨effect i w.state, w.programs.set k (next i w.state)⟩
  | outside {s : σ} (hs : Env w.state s) : Moves Starts Env w (.outside s) ⟨s, w.programs⟩

/-- The system of all pools that start from `init`. -/
def system (init : σ) (Starts : Program σ ι ε Unit → Prop) (Env : σ → σ → Prop) :
    System (Pool σ ι ε) (Event σ ι ε) where
  init := ⟨init, []⟩
  step := Moves Starts Env

/-- A program that is started may run to its end while the others rest. -/
theorem reachable_of_runs {init s t : σ} {Starts : Program σ ι ε Unit → Prop} {Env : σ → σ → Prop}
    {programs : List (Program σ ι ε Unit)} (h : (system init Starts Env).Reachable ⟨s, programs⟩)
    {p : Program σ ι ε Unit} (hp : Starts p) {r : Except ε Unit} (hrun : p.Runs s r t) :
    (system init Starts Env).Reachable ⟨t, .done r :: programs⟩ := by
  have hstart : (system init Starts Env).Reachable ⟨s, p :: programs⟩ := h.tail trivial (.start hp)
  clear h hp
  induction hrun with
  | done => exact hstart
  | step i _ ih => exact ih (hstart.tail trivial (.advance (k := 0) (i := i) rfl))

/-- What a program has to rely on: the changes that programs make, and those from outside. -/
def Change (G Env : σ → σ → Prop) (s t : σ) : Prop := G s t ∨ Env s t

section

variable {init : σ} {Starts : Program σ ι ε Unit → Prop} {Env G : σ → σ → Prop} {I : σ → Prop}

/-- Each program in the pool knows something stable that makes it keep the guarantee. -/
def Kept (G Env : σ → σ → Prop) (I : σ → Prop) (w : Pool σ ι ε) : Prop :=
  I w.state ∧ ∀ p ∈ w.programs, ∃ P, Program.Stable (Change G Env) P ∧ P w.state ∧
    p.Keeps (Change G Env) G P fun _ _ => True

/-- The state of a kept pool changes by the guarantee or from outside, and the pool stays kept. -/
theorem Kept.move (hI : Program.Stable (Change G Env) I)
    (hstart : ∀ p, Starts p → p.Keeps (Change G Env) G I fun _ _ => True) {w w' : Pool σ ι ε} {l : Event σ ι ε}
    (h : Kept G Env I w) (hstep : Moves Starts Env w l w') :
    (w'.state = w.state ∨ Change G Env w.state w'.state) ∧ Kept G Env I w' := by
  have still : ∀ {s}, Change G Env w.state s → ∀ p ∈ w.programs, ∃ P, Program.Stable (Change G Env) P ∧ P s ∧
      p.Keeps (Change G Env) G P fun _ _ => True := by
    intro s hs p hp
    obtain ⟨P, hP, hw, hkeeps⟩ := h.2 p hp
    exact ⟨P, hP, hP _ _ hs hw, hkeeps⟩
  cases hstep with
  | start hp =>
    exact ⟨.inl rfl, h.1, List.forall_mem_cons.mpr ⟨⟨I, hI, h.1, hstart _ hp⟩, h.2⟩⟩
  | @advance k i effect next hk =>
    obtain ⟨P, -, hw, hkeeps⟩ := h.2 _ (List.mem_of_getElem? hk)
    obtain ⟨hG, M, hM, hs, hnext⟩ := hkeeps w.state i hw
    refine ⟨.inr (.inl hG), hI _ _ (.inl hG) h.1, fun p hp => ?_⟩
    rcases List.mem_or_eq_of_mem_set hp with hp | rfl
    · exact still (.inl hG) p hp
    · exact ⟨M, hM, hs, hnext⟩
  | outside hs => exact ⟨.inr (.inr hs), hI _ _ (.inr hs) h.1, still (.inr hs)⟩

/-- **Invariants of a pool**: what holds at the start and is kept by the guarantee and from outside, every
interleaving keeps, and every step of it changes the state by the guarantee or from outside. -/
theorem kept_of_reachable (hinit : I init) (hI : Program.Stable (Change G Env) I)
    (hstart : ∀ p, Starts p → p.Keeps (Change G Env) G I fun _ _ => True) {w : Pool σ ι ε}
    (h : (system init Starts Env).Reachable w) : Kept G Env I w := by
  refine System.Reach.invariant (I := Kept G Env I) ⟨hinit, fun _ hp => absurd hp List.not_mem_nil⟩ ?_ h
  intro w l w' hw _ hstep
  exact (hw.move hI hstart hstep).2

end

end Pool

end Forge
