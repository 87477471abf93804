import Forge.Data.Numerals
import Mathlib.Data.List.Basic

/-!
# A thread behind two queues

A thread takes its messages from an inbox, in the order in which they were posted, and handles them one by
one. Its answers go to an outbox, from which they are read in order. Who posts and who reads may do so at any
time.

`Thread.Follows` tells the history of a thread: `handled` are the messages it has taken of those that were
`posted`, and `read` are the answers that were read. It is kept by everything that can happen. **The state of
the thread and all its answers are those of handling these messages one after the other**, wherever the posts
and the reads fall in between.
-/

namespace Forge

/-- A thread with its two queues. -/
structure Thread (σ ρ α : Type) where
  state : σ
  inbox : List ρ
  outbox : List α

namespace Thread

variable {σ ρ α : Type}

def start (s : σ) : Thread σ ρ α := { state := s, inbox := [], outbox := [] }

def post (t : Thread σ ρ α) (r : ρ) : Thread σ ρ α := { t with inbox := t.inbox ++ [r] }

/-- The thread handles its next message. -/
def serve (handle : σ → ρ → σ × List α) (t : Thread σ ρ α) : Thread σ ρ α :=
  match t.inbox with
  | [] => t
  | r :: rest => { state := (handle t.state r).1, inbox := rest, outbox := t.outbox ++ (handle t.state r).2 }

/-- The next answer is read. -/
def read (t : Thread σ ρ α) : Option (α × Thread σ ρ α) :=
  match t.outbox with
  | [] => none
  | a :: rest => some (a, { t with outbox := rest })

/-- The messages `rs`, one after the other. -/
def handleAll (handle : σ → ρ → σ × List α) (s : σ) : List ρ → σ × List α
  | [] => (s, [])
  | r :: rs =>
    let next := handle s r
    let rest := handleAll handle next.1 rs
    (rest.1, next.2 ++ rest.2)

variable {handle : σ → ρ → σ × List α}

@[simp] theorem post_state (t : Thread σ ρ α) (r : ρ) : (t.post r).state = t.state := rfl

@[simp] theorem post_inbox (t : Thread σ ρ α) (r : ρ) : (t.post r).inbox = t.inbox ++ [r] := rfl

@[simp] theorem post_outbox (t : Thread σ ρ α) (r : ρ) : (t.post r).outbox = t.outbox := rfl

theorem read_eq_some {t u : Thread σ ρ α} {a : α} (h : t.read = some (a, u)) :
    t.outbox = a :: u.outbox ∧ u = { t with outbox := u.outbox } := by
  unfold read at h
  cases hout : t.outbox with
  | nil => simp [hout] at h
  | cons b rest =>
    simp only [hout, Option.some.injEq, Prod.mk.injEq] at h
    obtain ⟨rfl, rfl⟩ := h
    exact ⟨rfl, rfl⟩

@[simp] theorem handleAll_nil (s : σ) : handleAll handle s [] = (s, []) := rfl

theorem handleAll_append (s : σ) (rs rs' : List ρ) :
    handleAll handle s (rs ++ rs') =
      ((handleAll handle (handleAll handle s rs).1 rs').1,
        (handleAll handle s rs).2 ++ (handleAll handle (handleAll handle s rs).1 rs').2) := by
  induction rs generalizing s with
  | nil => rfl
  | cons r rs ih => simp [handleAll, ih]

/-- Every answer is one to a message, handled in the state that the messages before it have left. -/
theorem mem_handleAll {s : σ} {rs : List ρ} {a : α} (h : a ∈ (handleAll handle s rs).2) :
    ∃ before r later, rs = before ++ r :: later ∧ a ∈ (handle (handleAll handle s before).1 r).2 := by
  induction rs generalizing s with
  | nil => cases h
  | cons r rs ih =>
    rcases List.mem_append.mp h with h | h
    · exact ⟨[], r, rs, rfl, h⟩
    · obtain ⟨before, r', later, rfl, ha⟩ := ih h
      exact ⟨r :: before, r', later, rfl, ha⟩

/-- What stands in a list stands at the same place in every list that begins with it. -/
theorem getElem?_of_prefix {l l' : List α} (h : l <+: l') {k : ℕ} {a : α} (hk : l[k]? = some a) :
    l'[k]? = some a := by
  obtain ⟨rest, rfl⟩ := h
  rw [List.getElem?_append_left (List.getElem?_eq_some_iff.mp hk).1, hk]

/-- The history of a thread that started in `s`. -/
structure Follows (handle : σ → ρ → σ × List α) (s : σ) (posted handled : List ρ) (answers : List α)
    (t : Thread σ ρ α) : Prop where
  posted : handled ++ t.inbox = posted
  state : t.state = (handleAll handle s handled).1
  answers : answers ++ t.outbox = (handleAll handle s handled).2

namespace Follows

variable {s : σ} {posted handled : List ρ} {answers : List α} {t : Thread σ ρ α}

theorem start (s : σ) : Follows handle s [] [] [] (Thread.start s) := ⟨rfl, rfl, rfl⟩

theorem post (h : Follows handle s posted handled answers t) (r : ρ) :
    Follows handle s (posted ++ [r]) handled answers (t.post r) :=
  ⟨by rw [post_inbox, ← List.append_assoc, h.posted], h.state, h.answers⟩

/-- One message more is handled, or none. -/
theorem serve (h : Follows handle s posted handled answers t) :
    ∃ handled', Follows handle s posted handled' answers (t.serve handle) := by
  unfold Thread.serve
  cases hin : t.inbox with
  | nil => exact ⟨handled, h⟩
  | cons r rest =>
    refine ⟨handled ++ [r], ?_, ?_, ?_⟩
    · rw [← h.posted, hin, List.append_assoc, List.singleton_append]
    · simp [handleAll_append, handleAll, h.state]
    · simp only [handleAll_append, handleAll, ← h.answers, ← h.state]
      simp

theorem read (h : Follows handle s posted handled answers t) {u : Thread σ ρ α} {a : α}
    (hread : t.read = some (a, u)) : Follows handle s posted handled (answers ++ [a]) u := by
  obtain ⟨hout, hu⟩ := read_eq_some hread
  refine ⟨?_, ?_, ?_⟩
  · rw [hu]
    exact h.posted
  · rw [hu]
    exact h.state
  · rw [List.append_assoc, List.singleton_append, ← hout, h.answers]

/-- The answers that were read come first among those to all the messages posted. -/
theorem isPrefix_answers (h : Follows handle s posted handled answers t) :
    answers <+: (handleAll handle s posted).2 := by
  rw [← h.posted, handleAll_append, ← h.answers, List.append_assoc]
  exact List.prefix_append _ _

end Follows

end Thread

end Forge
