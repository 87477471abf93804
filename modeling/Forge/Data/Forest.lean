import Forge.Data.Assoc
import Mathlib.Algebra.FreeMonoid.Basic
import Mathlib.Algebra.Group.Hom.Defs
import Mathlib.Algebra.Group.Units.Basic
import Mathlib.Data.List.Perm.Lattice
import Mathlib.Data.List.Perm.Subperm

/-!
# Forests resolved by repeated passes

A list of entries, each with a name and maybe the name of a parent, gives every name a
value that is computed from the value of the parent. `resolve` does this in passes: each
pass places, in order, every entry whose parent has a value already, and the passes are
repeated until nothing remains or nothing was placed.

`Rooted` says that the chain of parents of an entry ends at a root. The **key results**
are for entries with distinct names: `resolve_isOk_iff` (everything is placed exactly when
every entry is rooted), `placed_of_resolve` (each value is computed from the final value of
its parent) and `resolve_perm` (the order of the entries does not matter). `composed_eq_iff` is
about products along the chains of parents.
-/

namespace Forge.Forest

variable {κ β μ : Type} [LinearOrder κ]

section

variable (name : β → κ) (parent : β → Option κ) (place : β → Option μ → μ)

/-- The value of an entry, unless its parent has none yet. -/
def valueIn (w : BTreeMap κ μ) (n : β) : Option μ :=
  match parent n with
  | none => some (place n none)
  | some p => (w.get p).map fun v => place n (some v)

/-- One pass: the values afterwards, and the entries that remain. -/
def pass : List β → BTreeMap κ μ → BTreeMap κ μ × List β
  | [], w => (w, [])
  | n :: ns, w =>
    match valueIn parent place w n with
    | none => ((pass ns w).1, n :: (pass ns w).2)
    | some v => pass ns (w.insert (name n) v)

/-- Passes until nothing remains, or the first entry that is stuck. -/
def resolve : ℕ → List β → BTreeMap κ μ → Except β (BTreeMap κ μ)
  | _, [], w => .ok w
  | 0, n :: _, _ => .error n
  | fuel + 1, n :: ns, w =>
    if (pass name parent place (n :: ns) w).2.length = (n :: ns).length then .error n
    else resolve fuel (pass name parent place (n :: ns) w).2 (pass name parent place (n :: ns) w).1

/-- The chain of parents of an entry ends at a root. -/
inductive Rooted (es : List β) : β → Prop where
  | root {n : β} : parent n = none → Rooted es n
  | child {n m : β} {p : κ} : parent n = some p → m ∈ es → name m = p → Rooted es m → Rooted es n

/-- An entry has a value, computed from the value of its parent. -/
def Placed (w : BTreeMap κ μ) (n : β) : Prop := ∃ v, w.get (name n) = some v ∧ valueIn parent place w n = some v

end

variable {name : β → κ} {parent : β → Option κ} {place : β → Option μ → μ} {es : List β}

/-! ### Rules for passes -/

/-- **Rule of passes**: what placing one entry keeps is kept by a pass. `P` is about the values and what remains. -/
theorem pass_invariant {P : BTreeMap κ μ → List β → Prop}
    (hstep : ∀ w kept n todo v, P w (kept ++ n :: todo) → valueIn parent place w n = some v →
      P (w.insert (name n) v) (kept ++ todo))
    {todo : List β} (kept : List β) {w : BTreeMap κ μ} (h : P w (kept ++ todo)) :
    P (pass name parent place todo w).1 (kept ++ (pass name parent place todo w).2) := by
  induction todo generalizing kept w with
  | nil => exact h
  | cons n todo ih =>
    rw [pass]
    cases hv : valueIn parent place w n with
    | some v => exact ih kept (hstep w kept n todo v h hv)
    | none =>
      have hkept : P w ((kept ++ [n]) ++ todo) := by
        rw [List.append_assoc]
        exact h
      have hrest := ih (kept ++ [n]) hkept
      rw [List.append_assoc] at hrest
      exact hrest

theorem pass_length_le (todo : List β) (w : BTreeMap κ μ) :
    (pass name parent place todo w).2.length ≤ todo.length := by
  induction todo generalizing w with
  | nil => exact le_rfl
  | cons n todo ih =>
    rw [pass]
    cases valueIn parent place w n with
    | some v => exact (ih _).trans (Nat.le_succ _)
    | none => exact Nat.succ_le_succ (ih w)

/-- A pass after which as much remains as before has placed nothing, because nothing could be placed. -/
theorem valueIn_of_stuck {todo : List β} {w : BTreeMap κ μ}
    (h : (pass name parent place todo w).2.length = todo.length) : ∀ n ∈ todo, valueIn parent place w n = none := by
  induction todo generalizing w with
  | nil => exact fun _ hn => absurd hn List.not_mem_nil
  | cons n todo ih =>
    rw [pass] at h
    cases hv : valueIn parent place w n with
    | some v =>
      rw [hv] at h
      have hle : (pass name parent place todo (w.insert (name n) v)).2.length ≤ todo.length := pass_length_le todo _
      dsimp only at h
      rw [List.length_cons] at h
      omega
    | none =>
      rw [hv] at h
      exact List.forall_mem_cons.mpr ⟨hv, ih (Nat.succ.inj h)⟩

/-- Passes end by themselves: with at least as many as there are entries, their number does not matter. -/
theorem resolve_of_le {fuel fuel' : ℕ} {todo : List β} {w : BTreeMap κ μ} (h : todo.length ≤ fuel)
    (h' : todo.length ≤ fuel') :
    resolve name parent place fuel todo w = resolve name parent place fuel' todo w := by
  induction fuel generalizing fuel' todo w with
  | zero =>
    obtain rfl := List.length_eq_zero_iff.mp (Nat.le_zero.mp h)
    cases fuel' <;> rfl
  | succ fuel ih =>
    cases todo with
    | nil => cases fuel' <;> rfl
    | cons n ns =>
      cases fuel' with
      | zero => cases h'
      | succ fuel' =>
        rw [resolve, resolve]
        split_ifs with hstuck
        · rfl
        · -- a pass that has placed something leaves fewer entries
          have hle : (pass name parent place (n :: ns) w).2.length ≤ (n :: ns).length := pass_length_le _ w
          rw [List.length_cons] at h h' hle hstuck
          exact ih (by omega) (by omega)

section

variable {ν : Type} {place' : β → Option ν → ν}

theorem valueIn_isSome {w : BTreeMap κ μ} {w' : BTreeMap κ ν}
    (hkeys : ∀ k, (w.get k).isSome = (w'.get k).isSome) (n : β) : (valueIn parent place w n).isSome = (valueIn parent place' w' n).isSome := by
  rw [valueIn, valueIn]
  cases parent n with
  | none => rfl
  | some p => rw [Option.isSome_map, Option.isSome_map, hkeys]

/-- What is placed does not depend on the values. -/
theorem pass_congr (todo : List β) {w : BTreeMap κ μ} {w' : BTreeMap κ ν}
    (hkeys : ∀ k, (w.get k).isSome = (w'.get k).isSome) :
    (pass name parent place todo w).2 = (pass name parent place' todo w').2 ∧
      ∀ k, ((pass name parent place todo w).1.get k).isSome = ((pass name parent place' todo w').1.get k).isSome := by
  induction todo generalizing w w' with
  | nil => exact ⟨rfl, hkeys⟩
  | cons n todo ih =>
    have hsame : (valueIn parent place w n).isSome = (valueIn parent place' w' n).isSome := valueIn_isSome hkeys n
    rw [pass, pass]
    cases hv : valueIn parent place w n with
    | none =>
      have hnone : valueIn parent place' w' n = none := by
        rw [hv] at hsame
        simpa using hsame.symm
      rw [hnone]
      obtain ⟨hrest, hafter⟩ := ih hkeys
      exact ⟨by rw [hrest], hafter⟩
    | some v =>
      rw [hv] at hsame
      obtain ⟨v', hv'⟩ := Option.isSome_iff_exists.mp hsame.symm
      rw [hv']
      refine ih fun k => ?_
      rw [BTreeMap.get_insert, BTreeMap.get_insert]
      split_ifs
      · rfl
      · exact hkeys k

/-- **Where resolution succeeds does not depend on the values.** -/
theorem resolve_isOk_congr {fuel : ℕ} {todo : List β} {w : BTreeMap κ μ} {w' : BTreeMap κ ν}
    (hkeys : ∀ k, (w.get k).isSome = (w'.get k).isSome) (h : ∃ v, resolve name parent place fuel todo w = .ok v) :
    ∃ v, resolve name parent place' fuel todo w' = .ok v := by
  induction fuel generalizing todo w w' with
  | zero =>
    cases todo with
    | nil => exact ⟨w', rfl⟩
    | cons n todo =>
      obtain ⟨v, hv⟩ := h
      cases hv
  | succ fuel ih =>
    cases todo with
    | nil => exact ⟨w', rfl⟩
    | cons n todo =>
      obtain ⟨hrest, hafter⟩ :
          (pass name parent place (n :: todo) w).2 = (pass name parent place' (n :: todo) w').2 ∧ _ :=
        pass_congr (n :: todo) hkeys
      obtain ⟨v, hv⟩ := h
      rw [resolve] at hv
      rw [resolve, ← hrest]
      split_ifs at hv with hstuck
      rw [if_neg hstuck]
      exact ih hafter ⟨v, hv⟩

end

/-- **Rule of resolution**: what placing one entry keeps holds of the result, with nothing remaining. -/
theorem resolve_invariant {P : BTreeMap κ μ → List β → Prop}
    (hstep : ∀ w kept n todo v, P w (kept ++ n :: todo) → valueIn parent place w n = some v →
      P (w.insert (name n) v) (kept ++ todo))
    {fuel : ℕ} {todo : List β} {w w' : BTreeMap κ μ} (h : P w todo)
    (hok : resolve name parent place fuel todo w = .ok w') : P w' [] := by
  induction fuel generalizing todo w with
  | zero =>
    cases todo with
    | nil => exact Except.ok.inj hok ▸ h
    | cons n ns => cases hok
  | succ fuel ih =>
    cases todo with
    | nil => exact Except.ok.inj hok ▸ h
    | cons n ns =>
      rw [resolve] at hok
      split at hok
      · cases hok
      · exact ih (pass_invariant hstep [] h) hok

/-! ### Entries with distinct names -/

/-- What holds between two passes: the entries that do not remain are rooted and placed, and no other name has a
value. -/
structure Between (name : β → κ) (parent : β → Option κ) (place : β → Option μ → μ) (es : List β)
    (w : BTreeMap κ μ) (remaining : List β) : Prop where
  sublist : remaining.Sublist es
  placed : ∀ n ∈ es, n ∉ remaining → Rooted name parent es n ∧ Placed name parent place w n
  named : ∀ k v, w.get k = some v → ∃ n ∈ es, n ∉ remaining ∧ name n = k

theorem Between.init : Between name parent place es BTreeMap.empty es where
  sublist := List.Sublist.refl es
  placed _ hn hr := absurd hn hr
  named _ _ h := nomatch h

theorem Between.step (hd : (es.map name).Nodup) {w : BTreeMap κ μ} {kept todo : List β} {n : β} {v : μ}
    (h : Between name parent place es w (kept ++ n :: todo)) (hv : valueIn parent place w n = some v) :
    Between name parent place es (w.insert (name n) v) (kept ++ todo) := by
  have hmem : n ∈ kept ++ n :: todo := List.mem_append_right _ List.mem_cons_self
  have hn : n ∈ es := h.sublist.subset hmem
  -- the name is new
  have hfresh : w.get (name n) = none := by
    cases hget : w.get (name n) with
    | none => rfl
    | some u =>
      obtain ⟨m, hm, hout, hname⟩ := h.named _ _ hget
      exact absurd (List.inj_on_of_nodup_map hd hm hn hname ▸ hmem) hout
  have hkeep {k : κ} {u : μ} (hk : w.get k = some u) : (w.insert (name n) v).get k = some u := by
    rw [BTreeMap.get_insert, if_neg (fun he => by rw [he, hfresh] at hk; cases hk)]
    exact hk
  have hvalue {m : β} {u : μ} (hm : valueIn parent place w m = some u) :
      valueIn parent place (w.insert (name n) v) m = some u := by
    unfold valueIn at hm ⊢
    cases hp : parent m with
    | none => simpa [hp] using hm
    | some p =>
      rw [hp] at hm
      obtain ⟨x, hx, hu⟩ := Option.map_eq_some_iff.mp hm
      simp [hkeep hx, hu]
  have hrooted : Rooted name parent es n := by
    unfold valueIn at hv
    cases hp : parent n with
    | none => exact .root hp
    | some p =>
      rw [hp] at hv
      obtain ⟨x, hx, -⟩ := Option.map_eq_some_iff.mp hv
      obtain ⟨m, hm, hout, hname⟩ := h.named _ _ hx
      exact .child hp hm hname (h.placed m hm hout).1
  have hout {m : β} (hm : m ∉ kept ++ todo) : m = n ∨ m ∉ kept ++ n :: todo := by
    by_cases hmn : m = n
    · exact .inl hmn
    · refine .inr fun hin => hm ?_
      simp only [List.mem_append, List.mem_cons] at hin ⊢
      tauto
  have hgone : n ∉ kept ++ todo := by
    have hnodup : (kept ++ n :: todo).Nodup := (List.Nodup.of_map _ hd).sublist h.sublist
    simp only [List.nodup_append, List.nodup_cons, List.mem_cons] at hnodup
    intro hin
    rcases List.mem_append.mp hin with hk | ht
    · exact hnodup.2.2 n hk n (.inl rfl) rfl
    · exact hnodup.2.1.1 ht
  refine ⟨?_, fun m hm hrem => ?_, fun k u hk => ?_⟩
  · exact ((List.sublist_cons_self n todo).append_left kept).trans h.sublist
  · rcases hout hrem with rfl | hrem
    · exact ⟨hrooted, v, by rw [BTreeMap.get_insert, if_pos rfl], hvalue hv⟩
    · obtain ⟨hr, u, hu, hvu⟩ := h.placed m hm hrem
      exact ⟨hr, u, hkeep hu, hvalue hvu⟩
  · rw [BTreeMap.get_insert] at hk
    split at hk
    · rename_i he
      exact ⟨n, hn, hgone, he.symm⟩
    · obtain ⟨m, hm, hrem, hname⟩ := h.named k u hk
      refine ⟨m, hm, fun hin => hrem ?_, hname⟩
      simp only [List.mem_append, List.mem_cons] at hin ⊢
      tauto

theorem between_of_resolve (hd : (es.map name).Nodup) {fuel : ℕ} {w : BTreeMap κ μ}
    (h : resolve name parent place fuel es .empty = .ok w) : Between name parent place es w [] :=
  resolve_invariant (P := Between name parent place es) (fun _ _ _ _ _ hb hv => hb.step hd hv) .init h

/-- **Each value is computed from the value of the parent.** -/
theorem placed_of_resolve (hd : (es.map name).Nodup) {fuel : ℕ} {w : BTreeMap κ μ}
    (h : resolve name parent place fuel es .empty = .ok w) {n : β} (hn : n ∈ es) : Placed name parent place w n :=
  ((between_of_resolve hd h).placed n hn List.not_mem_nil).2

theorem rooted_of_resolve (hd : (es.map name).Nodup) {fuel : ℕ} {w : BTreeMap κ μ}
    (h : resolve name parent place fuel es .empty = .ok w) {n : β} (hn : n ∈ es) : Rooted name parent es n :=
  ((between_of_resolve hd h).placed n hn List.not_mem_nil).1

/-- Where a rooted entry remains, some entry can be placed. -/
theorem exists_valueIn {w : BTreeMap κ μ} {remaining : List β}
    (hplaced : ∀ n ∈ es, n ∉ remaining → (w.get (name n)).isSome) {n : β} (hr : Rooted name parent es n)
    (hn : n ∈ remaining) : ∃ m ∈ remaining, (valueIn parent place w m).isSome := by
  induction hr with
  | @root n hp =>
    refine ⟨n, hn, ?_⟩
    simp [valueIn, hp]
  | @child n m p hp hm hname _ ih =>
    by_cases hin : m ∈ remaining
    · exact ih hin
    · refine ⟨n, hn, ?_⟩
      have hsome := hplaced m hm hin
      rw [hname] at hsome
      simpa [valueIn, hp] using hsome

/-- Rooted entries with distinct names are all placed. -/
theorem resolve_of_rooted (hd : (es.map name).Nodup) (hr : ∀ n ∈ es, Rooted name parent es n) {fuel : ℕ}
    {remaining : List β} {w : BTreeMap κ μ} (hfuel : remaining.length ≤ fuel)
    (h : Between name parent place es w remaining) : ∃ w', resolve name parent place fuel remaining w = .ok w' := by
  induction fuel generalizing remaining w with
  | zero =>
    obtain rfl := List.length_eq_zero_iff.mp (Nat.le_zero.mp hfuel)
    exact ⟨w, rfl⟩
  | succ fuel ih =>
    cases remaining with
    | nil => exact ⟨w, rfl⟩
    | cons n ns =>
      have hle : (pass name parent place (n :: ns) w).2.length ≤ (n :: ns).length := pass_length_le _ w
      have hlt : (pass name parent place (n :: ns) w).2.length ≠ (n :: ns).length := by
        intro hstuck
        obtain ⟨m, hm, hsome⟩ := exists_valueIn (fun m hm hout => by
          obtain ⟨-, v, hv, -⟩ := h.placed m hm hout
          rw [hv]
          rfl) (hr n (h.sublist.subset List.mem_cons_self)) List.mem_cons_self
        rw [valueIn_of_stuck hstuck m hm] at hsome
        cases hsome
      rw [resolve, if_neg hlt]
      exact ih (by omega) (pass_invariant (fun _ _ _ _ _ hb hv => hb.step hd hv) [] h)

/-- **Everything is placed exactly when every entry is rooted.** -/
theorem resolve_isOk_iff (hd : (es.map name).Nodup) :
    (∃ w, resolve name parent place es.length es .empty = .ok w) ↔ ∀ n ∈ es, Rooted name parent es n :=
  ⟨fun ⟨_, h⟩ _ hn => rooted_of_resolve hd h hn, fun h => resolve_of_rooted hd h le_rfl .init⟩

omit [LinearOrder κ] in
theorem Rooted.mono {es' : List β} (hsub : ∀ n ∈ es, n ∈ es') {n : β} (h : Rooted name parent es n) :
    Rooted name parent es' n := by
  induction h with
  | root hp => exact .root hp
  | child hp hm hname _ ih => exact .child hp (hsub _ hm) hname ih

/-- The values are determined by what they are computed from. -/
theorem get_unique {w w' : BTreeMap κ μ} (hw : ∀ n ∈ es, Placed name parent place w n)
    (hw' : ∀ n ∈ es, Placed name parent place w' n) {n : β} (hr : Rooted name parent es n) (hn : n ∈ es) :
    w.get (name n) = w'.get (name n) := by
  induction hr with
  | @root n hp =>
    obtain ⟨v, hv, hvalue⟩ := hw n hn
    obtain ⟨v', hv', hvalue'⟩ := hw' n hn
    simp only [valueIn, hp] at hvalue hvalue'
    rw [hv, hv', ← hvalue, ← hvalue']
  | @child n m p hp hm hname _ ih =>
    obtain ⟨v, hv, hvalue⟩ := hw n hn
    obtain ⟨v', hv', hvalue'⟩ := hw' n hn
    simp only [valueIn, hp] at hvalue hvalue'
    have hparent := ih hm
    rw [hname] at hparent
    rw [hv, hv', ← hvalue, ← hvalue', hparent]

/-- Roots are placed in one pass. -/
theorem pass_roots (h : ∀ n ∈ es, parent n = none) (w : BTreeMap κ μ) :
    pass name parent place es w = (es.foldl (fun w n => w.insert (name n) (place n none)) w, []) := by
  induction es generalizing w with
  | nil => rfl
  | cons n es ih =>
    have hn : valueIn parent place w n = some (place n none) := by rw [valueIn, h n List.mem_cons_self]
    rw [pass, hn, List.foldl_cons]
    exact ih (fun m hm => h m (List.mem_cons_of_mem _ hm)) _

/-- Where all entries are roots, the last one of a name is the one that stays. -/
theorem resolve_roots (h : ∀ n ∈ es, parent n = none) (w : BTreeMap κ μ) :
    resolve name parent place es.length es w = .ok (es.foldl (fun w n => w.insert (name n) (place n none)) w) := by
  cases es with
  | nil => rfl
  | cons n es =>
    rw [List.length_cons, resolve, pass_roots h]
    simp [resolve]

/-- **The order of the entries does not matter.** -/
theorem resolve_perm {es' : List β} (hperm : es.Perm es') (hd : (es.map name).Nodup) {w : BTreeMap κ μ}
    (h : resolve name parent place es.length es .empty = .ok w) :
    resolve name parent place es'.length es' .empty = .ok w := by
  have hd' : (es'.map name).Nodup := (hperm.map name).nodup_iff.mp hd
  have hroot {n : β} (hn : n ∈ es') : Rooted name parent es' n :=
    (rooted_of_resolve hd h (hperm.mem_iff.mpr hn)).mono fun _ hm => hperm.mem_iff.mp hm
  obtain ⟨w', hw'⟩ := (resolve_isOk_iff hd').mpr fun _ hn => hroot hn
  have hb := between_of_resolve hd h
  have hb' := between_of_resolve hd' hw'
  have hsame {n : β} (hn : n ∈ es') : w'.get (name n) = w.get (name n) :=
    get_unique (fun m hm => placed_of_resolve hd' hw' hm)
      (fun m hm => placed_of_resolve hd h (hperm.mem_iff.mpr hm)) (hroot hn) hn
  rw [hw']
  congr 1
  ext k : 1
  cases hk : w'.get k with
  | some v =>
    obtain ⟨n, hn, -, rfl⟩ := hb'.named k v hk
    rw [← hsame hn, hk]
  | none =>
    cases hk' : w.get k with
    | none => rfl
    | some v =>
      obtain ⟨n, hn, -, rfl⟩ := hb.named k v hk'
      rw [← hsame (hperm.mem_iff.mp hn), hk] at hk'
      cases hk'

/-! ### Products along chains -/

section

variable {κ β M M' : Type} [Monoid M] [Monoid M']

/-- The product of the factors of an entry and of what is above it, from the root down. -/
inductive Composed (name : β → κ) (parent : β → Option κ) (factor : β → M) (es : List β) : β → M → Prop where
  | root {n : β} : parent n = none → Composed name parent factor es n (factor n)
  | child {n m : β} {p : κ} {a : M} : parent n = some p → m ∈ es → name m = p →
      Composed name parent factor es m a → Composed name parent factor es n (a * factor n)

variable {name : β → κ} {parent : β → Option κ} {f g : β → M} {es : List β}

theorem Composed.rooted {n : β} {a : M} (h : Composed name parent f es n a) : Rooted name parent es n := by
  induction h with
  | root hp => exact .root hp
  | child hp hm hname _ ih => exact .child hp hm hname ih

theorem Rooted.composed {n : β} (h : Rooted name parent es n) (f : β → M) : ∃ a, Composed name parent f es n a := by
  induction h with
  | root hp => exact ⟨_, .root hp⟩
  | child hp hm hname _ ih =>
    obtain ⟨a, ha⟩ := ih
    exact ⟨_, .child hp hm hname ha⟩

theorem eq_of_name_eq (hd : (es.map name).Nodup) {m m' : β} (hm : m ∈ es) (hm' : m' ∈ es)
    (h : name m = name m') : m = m' := List.inj_on_of_nodup_map hd hm hm' h

/-- With distinct names an entry has one product. -/
theorem Composed.unique (hd : (es.map name).Nodup) {n : β} {a b : M} (ha : Composed name parent f es n a)
    (hb : Composed name parent f es n b) : a = b := by
  induction ha generalizing b with
  | root hp =>
    cases hb with
    | root _ => rfl
    | child hp' _ _ _ => exact absurd (hp.symm.trans hp') nofun
  | @child n m p a hp hm hname _ ih =>
    cases hb with
    | root hp' => exact absurd (hp'.symm.trans hp) nofun
    | @child _ m' p' a' hp' hm' hname' h' =>
      obtain rfl : p = p' := Option.some.inj (hp.symm.trans hp')
      obtain rfl := eq_of_name_eq hd hm hm' (hname.trans hname'.symm)
      rw [ih h']

/-- A homomorphism carries products over. -/
theorem Composed.map (φ : M →* M') {f' : β → M'} (hf : ∀ n ∈ es, f' n = φ (f n)) {n : β} {a : M}
    (h : Composed name parent f es n a) (hn : n ∈ es) : Composed name parent f' es n (φ a) := by
  induction h with
  | root hp =>
    rw [← hf _ hn]
    exact .root hp
  | child hp hm hname _ ih =>
    rw [map_mul, ← hf _ hn]
    exact .child hp hm hname (ih hm)

theorem Composed.isUnit (hg : ∀ n ∈ es, IsUnit (g n)) {n : β} {a : M} (h : Composed name parent g es n a)
    (hn : n ∈ es) : IsUnit a := by
  induction h with
  | root _ => exact hg _ hn
  | child _ hm _ _ ih => exact (ih hm).mul (hg _ hn)

/-- **Two ways to compose give every entry the same product exactly when every entry has the
same factor**, where the factors of one of them are invertible. -/
theorem composed_eq_iff (hd : (es.map name).Nodup) (hr : ∀ n ∈ es, Rooted name parent es n)
    (hg : ∀ n ∈ es, IsUnit (g n)) :
    (∀ n ∈ es, ∃ a, Composed name parent f es n a ∧ Composed name parent g es n a) ↔ ∀ n ∈ es, f n = g n := by
  constructor
  · intro h n hn
    obtain ⟨a, hfa, hga⟩ := h n hn
    cases hfa with
    | root hp => exact hga.unique hd (.root hp)
    | @child _ m p b hp hm hname hb =>
      obtain ⟨c, hfc, hgc⟩ := h m hm
      obtain rfl := hb.unique hd hfc
      exact (hgc.isUnit hg hm).mul_left_cancel ((Composed.child hp hm hname hgc).unique hd hga).symm
  · intro h n hn
    obtain ⟨a, ha⟩ := (hr n hn).composed g
    exact ⟨a, ha.map (.id M) h hn, ha⟩

end

/-! ### Paths -/

section

variable {κ β : Type} {name : β → κ} {parent : β → Option κ} {es : List β}

/-- The names from the root down to an entry. -/
abbrev Path (name : β → κ) (parent : β → Option κ) (es : List β) (n : β) (names : List κ) : Prop :=
  Composed name parent (fun n => FreeMonoid.of (name n)) es n (FreeMonoid.ofList names)

theorem Path.cases {n : β} {names : List κ} (h : Path name parent es n names) :
    (parent n = none ∧ names = [name n]) ∨
      ∃ m above, parent n = some (name m) ∧ m ∈ es ∧ Path name parent es m above ∧ names = above ++ [name n] := by
  obtain ⟨c, hc⟩ : ∃ c, FreeMonoid.ofList names = c := ⟨_, rfl⟩
  have h' : Composed name parent (fun n => FreeMonoid.of (name n)) es n c := hc ▸ h
  obtain rfl : names = c.toList := congrArg FreeMonoid.toList hc
  cases h' with
  | root hp => exact .inl ⟨hp, rfl⟩
  | @child _ m p a hp hm hname ha => exact .inr ⟨m, a, hname ▸ hp, hm, ha, rfl⟩

theorem Path.root {n : β} (hp : parent n = none) : Path name parent es n [name n] := Composed.root hp

theorem Path.child {n m : β} {above : List κ} (hp : parent n = some (name m)) (hm : m ∈ es)
    (h : Path name parent es m above) : Path name parent es n (above ++ [name n]) := Composed.child hp hm rfl h

/-- A name on a path has a path of its own, which the path begins with. -/
theorem Path.of_mem {n : β} (hn : n ∈ es) {names : List κ} (h : Path name parent es n names) {a : κ} (ha : a ∈ names) :
    ∃ k ∈ es, name k = a ∧ ∃ above, Path name parent es k above ∧ above.length ≤ names.length := by
  induction hlen : names.length generalizing n names with
  | zero =>
    rw [List.length_eq_zero_iff.mp hlen] at ha
    cases ha
  | succ l ih =>
    rcases h.cases with ⟨hp, rfl⟩ | ⟨m, above, hp, hm, habove, rfl⟩
    · obtain rfl := List.mem_singleton.mp ha
      exact ⟨n, hn, rfl, _, .root hp, hlen.le⟩
    · rcases List.mem_append.mp ha with hin | hself
      · have hl : above.length = l := by simpa using hlen
        obtain ⟨k, hk, hname, up, hup, hle⟩ := ih hm habove hin hl
        exact ⟨k, hk, hname, up, hup, hle.trans (Nat.le_succ l)⟩
      · obtain rfl := List.mem_singleton.mp hself
        exact ⟨n, hn, rfl, _, h, hlen.le⟩

/-- With distinct names a path is never at a name twice. -/
theorem Path.nodup (hd : (es.map name).Nodup) {n : β} (hn : n ∈ es) {names : List κ}
    (h : Path name parent es n names) : names.Nodup := by
  induction hlen : names.length generalizing n names with
  | zero =>
    rw [List.length_eq_zero_iff.mp hlen]
    exact List.nodup_nil
  | succ l ih =>
    rcases h.cases with ⟨hp, rfl⟩ | ⟨m, above, hp, hm, habove, rfl⟩
    · exact List.nodup_singleton _
    · have hl : above.length = l := by simpa using hlen
      refine List.nodup_append'.mpr ⟨ih hm habove hl, List.nodup_singleton _, ?_⟩
      intro a hin hself
      obtain rfl := List.mem_singleton.mp hself
      obtain ⟨k, hk, hname, up, hup, hle⟩ := habove.of_mem hm hin
      obtain rfl := eq_of_name_eq hd hk hn hname
      have heq : up = above ++ [name k] := hup.unique hd h
      rw [heq, List.length_append, List.length_singleton] at hle
      omega

theorem Path.mem_names {n : β} (hn : n ∈ es) {names : List κ} (h : Path name parent es n names) :
    ∀ a ∈ names, a ∈ es.map name := fun a ha => by
  obtain ⟨k, hk, rfl, -⟩ := h.of_mem hn ha
  exact List.mem_map_of_mem hk

/-- There are no more names on a path than entries. -/
theorem Path.length_le (hd : (es.map name).Nodup) {n : β} (hn : n ∈ es) {names : List κ}
    (h : Path name parent es n names) : names.length ≤ es.length := by
  rw [← List.length_map (f := name)]
  exact (List.subperm_of_subset (h.nodup hd hn) (h.mem_names hn)).length_le

theorem Rooted.path {n : β} (h : Rooted name parent es n) : ∃ names, Path name parent es n names := by
  obtain ⟨c, hc⟩ := h.composed fun n => FreeMonoid.of (name n)
  exact ⟨c.toList, hc⟩

end

end Forge.Forest
