import Forge.Data.Numerals
import Mathlib.Data.List.Forall2

/-!
# Computations that may fail

Inversion of `Except` computations: a sequence succeeds exactly when each of its
steps does. With `bind_eq_ok` a result of a `do` block is taken apart step by
step instead of unfolding the block. `SucceedsIff` is for computations that fail exactly
without a condition; the rule of loops (`SucceedsIff.foldlM`) gathers the conditions of the
turns.
-/

namespace Forge

variable {ε α β : Type}

/-- A sequence succeeds exactly when both of its parts do. -/
theorem bind_eq_ok {x : Except ε α} {f : α → Except ε β} {b : β} :
    (x >>= f) = .ok b ↔ ∃ a, x = .ok a ∧ f a = .ok b := by
  cases x with
  | error e => simp [bind, Except.bind]
  | ok a => simp [bind, Except.bind]

/-- A check before a computation. -/
theorem check_eq_ok {x : Except ε Unit} {y : Except ε β} {b : β} :
    (x >>= fun _ => y) = .ok b ↔ x = .ok () ∧ y = .ok b := by
  rw [bind_eq_ok]
  exact ⟨fun ⟨_, hx, hy⟩ => ⟨hx, hy⟩, fun ⟨hx, hy⟩ => ⟨(), hx, hy⟩⟩

theorem bind_eq_error {x : Except ε α} {f : α → Except ε β} {e : ε} :
    (x >>= f) = .error e ↔ x = .error e ∨ ∃ a, x = .ok a ∧ f a = .error e := by
  cases x <;> simp [bind, Except.bind]

theorem map_eq_ok {x : Except ε α} {f : α → β} {b : β} : f <$> x = .ok b ↔ ∃ a, x = .ok a ∧ f a = b := by
  cases x with
  | error e => simp [Functor.map, Except.map]
  | ok a => simp [Functor.map, Except.map]

@[simp] theorem pure_eq_ok {a b : α} : (pure a : Except ε α) = .ok b ↔ a = b := by simp [pure, Except.pure]

/-- A list of computations succeeds exactly when each of them does. -/
theorem mapM_eq_ok {f : α → Except ε β} {as : List α} {bs : List β} :
    as.mapM f = .ok bs ↔ List.Forall₂ (fun a b => f a = .ok b) as bs := by
  induction as generalizing bs with
  | nil => cases bs <;> simp
  | cons a as ih =>
    rw [List.mapM_cons, bind_eq_ok]
    constructor
    · rintro ⟨b, hb, h⟩
      obtain ⟨bs', hbs, h⟩ := bind_eq_ok.mp h
      obtain rfl := pure_eq_ok.mp h
      exact .cons hb (ih.mp hbs)
    · intro h
      cases h with
      | cons hb hbs => exact ⟨_, hb, bind_eq_ok.mpr ⟨_, ih.mpr hbs, rfl⟩⟩

/-- The result at a place is that of the computation at the same place. -/
theorem exists_of_getElem?_mapM {f : α → Except ε β} {as : List α} {bs : List β} (h : as.mapM f = .ok bs) {i : ℕ} {b : β}
    (hb : bs[i]? = some b) : ∃ a, as[i]? = some a ∧ f a = .ok b := by
  induction mapM_eq_ok.mp h generalizing i with
  | nil => simp at hb
  | @cons a b' as bs ha htail ih =>
    cases i with
    | zero =>
      obtain rfl : b' = b := by simpa using hb
      exact ⟨a, rfl, ha⟩
    | succ i => exact ih (mapM_eq_ok.mpr htail) (by simpa using hb)

/-- A list of computations depends on what is computed for its elements only. -/
theorem mapM_congr {f g : α → Except ε β} {as : List α} (h : ∀ a ∈ as, f a = g a) : as.mapM f = as.mapM g := by
  induction as with
  | nil => rfl
  | cons a as ih =>
    rw [List.mapM_cons, List.mapM_cons, h a List.mem_cons_self, ih fun a' ha' => h a' (List.mem_cons_of_mem _ ha')]

/-- What holds of every result holds of the results of a list. -/
theorem forall_mem_of_mapM_eq_ok {P : β → Prop} {f : α → Except ε β} (hf : ∀ {a b}, f a = .ok b → P b) {as : List α}
    {bs : List β} (h : as.mapM f = .ok bs) : ∀ b ∈ bs, P b := by
  induction mapM_eq_ok.mp h with
  | nil => exact fun _ hb => absurd hb List.not_mem_nil
  | cons hb htail ih => exact List.forall_mem_cons.mpr ⟨hf hb, ih (mapM_eq_ok.mpr htail)⟩

/-- A result of a list of computations is the result of one of them. -/
theorem exists_of_mem_mapM {f : α → Except ε β} {as : List α} {bs : List β} (h : as.mapM f = .ok bs) {b : β}
    (hb : b ∈ bs) : ∃ a ∈ as, f a = .ok b := by
  induction mapM_eq_ok.mp h with
  | nil => cases hb
  | @cons a b' as bs ha htail ih =>
    rcases List.mem_cons.mp hb with rfl | hb
    · exact ⟨a, List.mem_cons_self, ha⟩
    · obtain ⟨a', ha', hok⟩ := ih (mapM_eq_ok.mpr htail) hb
      exact ⟨a', List.mem_cons_of_mem _ ha', hok⟩

/-- A list of computations fails with the error of one of them. -/
theorem exists_of_mapM_eq_error {f : α → Except ε β} {as : List α} {e : ε} (h : as.mapM f = .error e) :
    ∃ a ∈ as, f a = .error e := by
  induction as with
  | nil => cases h
  | cons a as ih =>
    rw [List.mapM_cons] at h
    cases hf : f a with
    | error e' =>
      rw [hf] at h
      cases h
      exact ⟨a, List.mem_cons_self, hf⟩
    | ok b =>
      rw [hf] at h
      cases hm : as.mapM f with
      | ok bs =>
        simp only [hm, bind, Except.bind, pure, Except.pure] at h
        cases h
      | error e' =>
        simp only [hm, bind, Except.bind] at h
        cases h
        obtain ⟨a', ha', he⟩ := ih hm
        exact ⟨a', List.mem_cons_of_mem _ ha', he⟩

/-- A check run over a list succeeds exactly when every check does. -/
theorem forM_eq_ok {f : α → Except ε Unit} {as : List α} : as.forM f = .ok () ↔ ∀ a ∈ as, f a = .ok () := by
  induction as with
  | nil => simp [pure, Except.pure]
  | cons a as ih =>
    rw [List.forall_mem_cons, ← ih]
    change (f a >>= fun _ => as.forM f) = .ok () ↔ _
    rw [bind_eq_ok]
    exact ⟨fun ⟨_, ha, has⟩ => ⟨ha, has⟩, fun ⟨ha, has⟩ => ⟨(), ha, has⟩⟩

/-- What each step of a loop keeps is kept by the loop. -/
theorem invariant_of_foldlM_eq_ok {P : β → Prop} {f : β → α → Except ε β}
    (hf : ∀ {b a b'}, f b a = .ok b' → P b → P b') {as : List α} {b b' : β} (h : as.foldlM f b = .ok b') (hb : P b) :
    P b' := by
  induction as generalizing b with
  | nil => exact Except.ok.inj h ▸ hb
  | cons a as ih =>
    rw [List.foldlM_cons, bind_eq_ok] at h
    obtain ⟨b₁, ha, has⟩ := h
    exact ih has (hf ha hb)

/-- A check that stands before the rest. -/
theorem ite_error_eq_ok {c : Prop} [Decidable c] {e : ε} {x : Except ε α} {a : α} :
    (if c then .error e else x) = .ok a ↔ ¬c ∧ x = .ok a := by
  by_cases h : c <;> simp [h]

/-- Renaming the error does not change what succeeds. -/
theorem mapError_eq_ok {δ : Type} {x : Except ε α} {f : ε → δ} {a : α} : x.mapError f = .ok a ↔ x = .ok a := by
  cases x <;> simp [Except.mapError]

/-- Forgetting the error of a sequence. -/
@[simp] theorem toOption_bind {x : Except ε α} {f : α → Except ε β} :
    (x >>= f).toOption = x.toOption.bind fun a => (f a).toOption := by
  cases x <;> rfl

@[simp] theorem toOption_ok {a : α} : (Except.ok a : Except ε α).toOption = some a := rfl

@[simp] theorem toOption_error {e : ε} : (Except.error e : Except ε α).toOption = none := rfl

theorem toOption_eq_some_iff {x : Except ε α} {a : α} : x.toOption = some a ↔ x = .ok a := by
  cases x <;> simp

/-- A computation that ends and does not fail returns something. -/
theorem exists_eq_some_ok {x : Option (Except ε α)} (h : (x.bind Except.toOption).isSome = true) :
    ∃ a, x = some (.ok a) := by
  obtain ⟨a, ha⟩ := Option.isSome_iff_exists.mp h
  obtain ⟨r, rfl, hok⟩ := Option.bind_eq_some_iff.mp ha
  exact ⟨a, congrArg some (toOption_eq_some_iff.mp hok)⟩

/-! ### Computations that fail exactly without a condition -/

/-- With `good` the computation succeeds with what `Inv` says, and without it fails with what `Bad` says. -/
structure SucceedsIff (Inv : β → Prop) (Bad : ε → Prop) (good : Prop) (x : Except ε β) : Prop where
  ok : good → ∃ b, x = .ok b ∧ Inv b
  error : ¬good → ∃ e, x = .error e ∧ Bad e

namespace SucceedsIff

variable {Inv : β → Prop} {Bad : ε → Prop} {good good' : Prop}

theorem pure {b : β} (hgood : good) (h : Inv b) : SucceedsIff Inv Bad good (.ok b) :=
  ⟨fun _ => ⟨b, rfl, h⟩, fun hno => absurd hgood hno⟩

theorem bind {x : Except ε β} {f : β → Except ε β} (hx : SucceedsIff Inv Bad good x)
    (hf : ∀ b, Inv b → SucceedsIff Inv Bad good' (f b)) : SucceedsIff Inv Bad (good ∧ good') (x >>= f) := by
  by_cases hgood : good
  · obtain ⟨b, rfl, hb⟩ := hx.ok hgood
    exact ⟨fun h => (hf b hb).ok h.2, fun h => (hf b hb).error fun h' => h ⟨hgood, h'⟩⟩
  · obtain ⟨e, rfl, he⟩ := hx.error hgood
    exact ⟨fun h => absurd h.1 hgood, fun _ => ⟨e, rfl, he⟩⟩

/-- **Rule of loops**: each turn of the loop depends on a condition of its element. -/
theorem foldlM {Good : α → Prop} {f : β → α → Except ε β} {as : List α}
    (hf : ∀ b, Inv b → ∀ a ∈ as, SucceedsIff Inv Bad (Good a) (f b a)) {b : β} (hb : Inv b) :
    SucceedsIff Inv Bad (∀ a ∈ as, Good a) (as.foldlM f b) := by
  induction as generalizing b with
  | nil => exact pure (fun _ ha => absurd ha List.not_mem_nil) hb
  | cons a as ih =>
    rw [List.foldlM_cons, List.forall_mem_cons]
    exact (hf b hb a List.mem_cons_self).bind fun b' hb' =>
      ih (fun c hc x hx => hf c hc x (List.mem_cons_of_mem _ hx)) hb'

end SucceedsIff

end Forge
