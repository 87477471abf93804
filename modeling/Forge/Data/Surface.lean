import Forge.Data.Numerals
import Mathlib.Algebra.BigOperators.Group.Finset.Basic
import Mathlib.Algebra.BigOperators.Group.Multiset.Basic
import Mathlib.Algebra.Order.BigOperators.Group.Finset
import Mathlib.Data.List.Rotate
import Mathlib.Data.Multiset.Bind
import Mathlib.Data.Sym.Sym2
import Mathlib.Tactic.Abel

/-!
# Polygon surfaces

A face is the list of its vertices, in order around it, and its edges join each vertex to the next. A surface is
closed when no face repeats a vertex and every edge lies in exactly two faces.

`closed_of_edges` is the **key rule**: it suffices that the edges of all faces together are every edge of some set,
twice. `Closed.map` carries the property along an injective renaming of the vertices.
-/

namespace Forge.Surface

variable {V W : Type}

/-- The edges of a face: from each vertex to the next, around. -/
def edges (face : List V) : List (Sym2 V) := List.zipWith (fun a b => s(a, b)) face (face.rotate 1)

/-- The edges of all faces. -/
def allEdges (faces : List (List V)) : Multiset (Sym2 V) := (faces.flatMap edges : List (Sym2 V))

/-- No face repeats a vertex, and every edge is one of exactly two faces. -/
structure Closed [DecidableEq V] (faces : List (List V)) : Prop where
  nodup : ∀ face ∈ faces, face.Nodup
  two : ∀ e, (∃ face ∈ faces, e ∈ edges face) → faces.countP (fun face => e ∈ edges face) = 2

@[simp] theorem length_edges (face : List V) : (edges face).length = face.length := by simp [edges]

/-- The place after a place of a face, around. -/
def next {face : List V} (i : Fin face.length) : Fin face.length := ⟨(i + 1) % face.length, Nat.mod_lt _ i.pos⟩

theorem edges_get {face : List V} (i : Fin face.length) :
    (edges face)[(i : ℕ)]? = some s(face.get i, face.get (next i)) := by
  rw [List.getElem?_eq_some_iff]
  refine ⟨by simp, ?_⟩
  simp [edges, next, List.getElem_rotate]

theorem mem_edges {face : List V} {e : Sym2 V} : e ∈ edges face ↔ ∃ i, e = s(face.get i, face.get (next i)) := by
  rw [List.mem_iff_getElem?]
  constructor
  · rintro ⟨i, hi⟩
    have hlt := (List.getElem?_eq_some_iff.mp hi).1
    rw [length_edges] at hlt
    exact ⟨⟨i, hlt⟩, Option.some.inj (hi.symm.trans (edges_get ⟨i, hlt⟩))⟩
  · rintro ⟨i, rfl⟩
    exact ⟨i, edges_get i⟩

theorem edges_map (f : V → W) (face : List V) : edges (face.map f) = (edges face).map (Sym2.map f) := by
  rw [edges, edges, ← List.map_rotate, List.zipWith_map, List.map_zipWith]
  rfl

/-- A face without a repeated vertex has no repeated edge, unless it has two vertices only. -/
theorem nodup_edges {face : List V} (hn : face.Nodup) (hlen : 3 ≤ face.length) : (edges face).Nodup := by
  rw [List.nodup_iff_getElem?_ne_getElem?]
  intro i j hij hj h
  rw [length_edges] at hj
  have hinj := List.nodup_iff_injective_get.mp hn
  rw [edges_get ⟨i, hij.trans hj⟩, edges_get ⟨j, hj⟩, Option.some.injEq, Sym2.eq_iff] at h
  simp only [hinj.eq_iff, next, Fin.mk.injEq] at h
  rcases h with ⟨h, -⟩ | ⟨h, h'⟩
  · exact hij.ne h
  · -- each is the next of the other
    rw [Nat.mod_eq_of_lt (show i + 1 < face.length by omega)] at h'
    by_cases hlast : j + 1 = face.length
    · rw [hlast, Nat.mod_self] at h
      omega
    · rw [Nat.mod_eq_of_lt (show j + 1 < face.length by omega)] at h
      omega

/-- Counting an edge in the faces and in their edges is the same. -/
theorem count_allEdges [DecidableEq V] {faces : List (List V)} (h : ∀ face ∈ faces, (edges face).Nodup) (e : Sym2 V) :
    (allEdges faces).count e = faces.countP fun face => e ∈ edges face := by
  induction faces with
  | nil => rfl
  | cons face faces ih =>
    have hface := h face List.mem_cons_self
    have hrest := ih fun f hf => h f (List.mem_cons_of_mem _ hf)
    rw [allEdges, Multiset.coe_count] at hrest ⊢
    rw [List.flatMap_cons, List.count_append, hrest, List.countP_cons, hface.count, Nat.add_comm]
    simp

/-- **Closed surfaces**: the edges of all faces are every edge of some set, twice. -/
theorem closed_of_edges [DecidableEq V] {faces : List (List V)} (hn : ∀ face ∈ faces, face.Nodup)
    (hlen : ∀ face ∈ faces, 3 ≤ face.length) {m : Multiset (Sym2 V)} (hm : m.Nodup) (h : allEdges faces = 2 • m) :
    Closed faces := by
  refine ⟨hn, ?_⟩
  rintro e ⟨face, hface, he⟩
  rw [← count_allEdges (fun f hf => nodup_edges (hn f hf) (hlen f hf)), h, Multiset.count_nsmul]
  have hmem : e ∈ m := by
    have hall : e ∈ allEdges faces := List.mem_flatMap.mpr ⟨face, hface, he⟩
    rw [h] at hall
    exact Multiset.mem_of_mem_nsmul hall
  rw [Multiset.count_eq_one_of_mem hm hmem]

/-- Renaming the vertices of a closed surface. -/
theorem Closed.map [DecidableEq V] [DecidableEq W] {faces : List (List V)} (h : Closed faces) {f : V → W}
    (hf : ∀ a ∈ faces.flatten, ∀ b ∈ faces.flatten, f a = f b → a = b) : Closed (faces.map (List.map f)) := by
  have hmem {face : List V} (hface : face ∈ faces) {a : V} (ha : a ∈ face) : a ∈ faces.flatten :=
    List.mem_flatten.mpr ⟨face, hface, ha⟩
  have hends {face : List V} (hface : face ∈ faces) {e : Sym2 V} (he : e ∈ edges face) {a : V} (ha : a ∈ e) :
      a ∈ faces.flatten := by
    obtain ⟨i, rfl⟩ := mem_edges.mp he
    rcases Sym2.mem_iff.mp ha with rfl | rfl
    · exact hmem hface (List.get_mem _ _)
    · exact hmem hface (List.get_mem _ _)
  have hinj {face face' : List V} (hface : face ∈ faces) (hface' : face' ∈ faces) {e e' : Sym2 V} (he : e ∈ edges face)
      (he' : e' ∈ edges face') (heq : Sym2.map f e = Sym2.map f e') : e = e' := by
    induction e with | _ a b => ?_
    induction e' with | _ c d => ?_
    have ha := hends hface he (Sym2.mem_mk_left a b)
    have hb := hends hface he (Sym2.mem_mk_right a b)
    have hc := hends hface' he' (Sym2.mem_mk_left c d)
    have hd := hends hface' he' (Sym2.mem_mk_right c d)
    rw [Sym2.map_mk, Sym2.map_mk, Sym2.eq_iff] at heq
    rcases heq with ⟨hac, hbd⟩ | ⟨had, hbc⟩
    · rw [hf a ha c hc hac, hf b hb d hd hbd]
    · rw [hf a ha d hd had, hf b hb c hc hbc]
      exact Sym2.eq_swap
  constructor
  · intro face hface
    obtain ⟨g, hg, rfl⟩ := List.mem_map.mp hface
    exact (h.nodup g hg).map_on fun a ha b hb => hf a (hmem hg ha) b (hmem hg hb)
  · rintro e ⟨face, hface, he⟩
    obtain ⟨g, hg, rfl⟩ := List.mem_map.mp hface
    rw [edges_map] at he
    obtain ⟨e', he', rfl⟩ := List.mem_map.mp he
    rw [List.countP_map, ← h.two e' ⟨g, hg, he'⟩]
    refine List.countP_congr fun face hface => ?_
    simp only [Function.comp_apply, decide_eq_true_eq, edges_map, List.mem_map]
    constructor
    · rintro ⟨e'', he'', heq⟩
      exact hinj hface hg he'' he' heq ▸ he''
    · intro hmem'
      exact ⟨e', hmem', rfl⟩

/-! ### Stacks of rings

The vertices of a ring are numbered around it. A ring may be a tip: a single vertex, of number 0. -/

section

variable (n : ℕ) (tip : ℕ → Bool)

/-- The faces between a ring and the next. -/
def band (j : ℕ) : List (List (ℕ × ℕ)) :=
  match tip j, tip (j + 1) with
  | false, false => (List.range n).map fun i => [(j, i), (j, (i + 1) % n), (j + 1, (i + 1) % n), (j + 1, i)]
  | false, true => (List.range n).map fun i => [(j, i), (j, (i + 1) % n), (j + 1, 0)]
  | true, false => (List.range n).map fun i => [(j, 0), (j + 1, (i + 1) % n), (j + 1, i)]
  | true, true => []

/-- A face that closes a ring; a tip needs none. -/
def cap (j : ℕ) : List (List (ℕ × ℕ)) := if tip j then [] else [(List.range n).map fun i => (j, i)]

/-- The faces of a stack of the rings from 0 to `k`. -/
def stack (k : ℕ) : List (List (ℕ × ℕ)) := (List.range k).flatMap (band n tip) ++ cap n tip 0 ++ cap n tip k

/-- The edges around a ring. -/
def ringEdges (j : ℕ) : Multiset (Sym2 (ℕ × ℕ)) :=
  if tip j then 0 else (Multiset.range n).map fun i => s((j, i), (j, (i + 1) % n))

/-- The edges from a ring to the next. -/
def spokes (j : ℕ) : Multiset (Sym2 (ℕ × ℕ)) :=
  match tip j, tip (j + 1) with
  | false, false => (Multiset.range n).map fun i => s((j, i), (j + 1, i))
  | false, true => (Multiset.range n).map fun i => s((j, i), (j + 1, 0))
  | true, false => (Multiset.range n).map fun i => s((j, 0), (j + 1, i))
  | true, true => 0

end

variable {n : ℕ} {tip : ℕ → Bool}

theorem allEdges_append (faces faces' : List (List V)) :
    allEdges (faces ++ faces') = allEdges faces + allEdges faces' := by
  rw [allEdges, List.flatMap_append]
  rfl

theorem allEdges_map (g : ℕ → List V) (n : ℕ) :
    allEdges ((List.range n).map g) = (Multiset.range n).bind fun i => (edges (g i) : Multiset (Sym2 V)) := by
  rw [allEdges, List.flatMap_map]
  exact (Multiset.coe_bind _ _).symm

/-- The numbers around a ring, each replaced by the next. -/
theorem map_range_next (n : ℕ) (f : ℕ → W) :
    ((Multiset.range n).map fun i => f ((i + 1) % n)) = (Multiset.range n).map f := by
  have hrotate : ((List.range n).map fun i => (i + 1) % n) = (List.range n).rotate 1 := by
    apply List.ext_getElem
    · simp
    · intro i h h'
      simp [List.getElem_rotate]
  have hnext : (Multiset.range n).map (fun i => (i + 1) % n) = Multiset.range n :=
    Multiset.coe_eq_coe.mpr (hrotate ▸ List.rotate_perm _ _)
  conv_rhs => rw [← hnext, Multiset.map_map]
  rfl

/-- A face around a ring has the edges of the ring. -/
theorem allEdges_cap (j : ℕ) : allEdges (cap n tip j) = ringEdges n tip j := by
  rw [cap, ringEdges]
  split_ifs
  · rfl
  · have hedges : edges (List.range n) = (List.range n).map fun i => s(i, (i + 1) % n) := by
      apply List.ext_getElem
      · simp
      · intro i h h'
        simp [edges, List.getElem_rotate]
    rw [allEdges, List.flatMap_singleton, edges_map, hedges, List.map_map]
    rfl

/-- A band has the edges of its rings, and every spoke twice. -/
theorem allEdges_band (j : ℕ) :
    allEdges (band n tip j) = ringEdges n tip j + ringEdges n tip (j + 1) + 2 • spokes n tip j := by
  have hspokes (a b : ℕ → ℕ × ℕ) :
      (Multiset.range n).map (fun i => s(a ((i + 1) % n), b ((i + 1) % n))) =
        (Multiset.range n).map fun i => s(a i, b i) :=
    map_range_next n fun i => s(a i, b i)
  cases hj : tip j <;> cases hj' : tip (j + 1) <;>
    simp only [band, ringEdges, spokes, hj, hj', Bool.false_eq_true, if_true, if_false]
  · have hface (a b c d : ℕ × ℕ) : (edges [a, b, c, d] : Multiset (Sym2 (ℕ × ℕ))) =
        s(a, b) ::ₘ s(b, c) ::ₘ s(d, c) ::ₘ {s(a, d)} := by
      rw [Sym2.eq_swap (a := d) (b := c), Sym2.eq_swap (a := a) (b := d)]
      rfl
    simp only [allEdges_map, hface, Multiset.bind_cons, Multiset.bind_singleton]
    rw [hspokes (fun i => (j, i)) fun i => (j + 1, i)]
    abel
  · have hface (a b c : ℕ × ℕ) : (edges [a, b, c] : Multiset (Sym2 (ℕ × ℕ))) = s(a, b) ::ₘ s(b, c) ::ₘ {s(a, c)} := by
      rw [Sym2.eq_swap (a := a) (b := c)]
      rfl
    simp only [allEdges_map, hface, Multiset.bind_cons, Multiset.bind_singleton]
    rw [hspokes (fun i => (j, i)) fun _ => (j + 1, 0)]
    abel
  · have hface (a b c : ℕ × ℕ) : (edges [a, b, c] : Multiset (Sym2 (ℕ × ℕ))) = s(a, b) ::ₘ s(c, b) ::ₘ {s(a, c)} := by
      rw [Sym2.eq_swap (a := c) (b := b), Sym2.eq_swap (a := a) (b := c)]
      rfl
    simp only [allEdges_map, hface, Multiset.bind_cons, Multiset.bind_singleton]
    rw [hspokes (fun _ => (j, 0)) fun i => (j + 1, i)]
    abel
  · rfl

theorem allEdges_flatMap_range (g : ℕ → List (List V)) (k : ℕ) :
    allEdges ((List.range k).flatMap g) = ∑ j ∈ Finset.range k, allEdges (g j) := by
  induction k with
  | zero => rfl
  | succ k ih =>
    rw [List.range_succ, List.flatMap_append, allEdges_append, ih, Finset.sum_range_succ, List.flatMap_singleton]

/-- A stack has the edges of its rings and its spokes, all twice. -/
theorem allEdges_stack (k : ℕ) : allEdges (stack n tip k) =
    2 • (∑ j ∈ Finset.range (k + 1), ringEdges n tip j + ∑ j ∈ Finset.range k, spokes n tip j) := by
  have hbelow := Finset.sum_range_succ (ringEdges n tip) k
  have habove := Finset.sum_range_succ' (ringEdges n tip) k
  rw [stack, allEdges_append, allEdges_append, allEdges_flatMap_range, allEdges_cap, allEdges_cap]
  simp only [allEdges_band, Finset.sum_add_distrib, Finset.sum_nsmul]
  calc _ = (∑ j ∈ Finset.range k, ringEdges n tip j + ringEdges n tip k) +
        (∑ j ∈ Finset.range k, ringEdges n tip (j + 1) + ringEdges n tip 0) +
        2 • ∑ j ∈ Finset.range k, spokes n tip j := by abel
    _ = _ := by
      rw [← hbelow, ← habove]
      abel

/-- Twice the height of the middle of an edge. -/
def level : Sym2 (ℕ × ℕ) → ℕ := Sym2.lift ⟨fun a b => a.1 + b.1, fun a b => Nat.add_comm a.1 b.1⟩

theorem level_of_mem_ringEdges {j : ℕ} {e : Sym2 (ℕ × ℕ)} (h : e ∈ ringEdges n tip j) : level e = 2 * j := by
  rw [ringEdges] at h
  split_ifs at h
  · exact absurd h (Multiset.notMem_zero e)
  · obtain ⟨i, -, rfl⟩ := Multiset.mem_map.mp h
    exact (Nat.two_mul j).symm

theorem level_of_mem_spokes {j : ℕ} {e : Sym2 (ℕ × ℕ)} (h : e ∈ spokes n tip j) : level e = 2 * j + 1 := by
  rw [spokes] at h
  split at h
  · obtain ⟨i, -, rfl⟩ := Multiset.mem_map.mp h
    simp only [level, Sym2.lift_mk]
    omega
  · obtain ⟨i, -, rfl⟩ := Multiset.mem_map.mp h
    simp only [level, Sym2.lift_mk]
    omega
  · obtain ⟨i, -, rfl⟩ := Multiset.mem_map.mp h
    simp only [level, Sym2.lift_mk]
    omega
  · exact absurd h (Multiset.notMem_zero e)

theorem nodup_ringEdges (hn : 3 ≤ n) (j : ℕ) : (ringEdges n tip j).Nodup := by
  rw [← allEdges_cap, cap]
  split_ifs
  · exact Multiset.nodup_zero
  · have hface : ((List.range n).map fun i => (j, i)).Nodup :=
      (List.nodup_range).map fun _ _ h => (Prod.mk.inj h).2
    rw [allEdges, List.flatMap_singleton, Multiset.coe_nodup]
    exact nodup_edges hface (by simpa using hn)

theorem nodup_spokes (j : ℕ) : (spokes n tip j).Nodup := by
  have hmap {f : ℕ → Sym2 (ℕ × ℕ)} (hf : Function.Injective f) : ((Multiset.range n).map f).Nodup :=
    (Multiset.nodup_range n).map hf
  rw [spokes]
  split
  · exact hmap fun i k h => by simpa [Sym2.eq_iff] using h
  · exact hmap fun i k h => by simpa [Sym2.eq_iff] using h
  · exact hmap fun i k h => by simpa [Sym2.eq_iff] using h
  · exact Multiset.nodup_zero

/-- The sum of sets that are told apart by the level of their elements. -/
theorem nodup_sum_of_level {f : ℕ → Multiset (Sym2 (ℕ × ℕ))} (hf : ∀ j, (f j).Nodup) {g : ℕ → ℕ}
    (hg : Function.Injective g) (hlevel : ∀ j, ∀ e ∈ f j, level e = g j) (k : ℕ) :
    (∑ j ∈ Finset.range k, f j).Nodup ∧ ∀ e ∈ ∑ j ∈ Finset.range k, f j, ∃ j < k, level e = g j := by
  induction k with
  | zero => exact ⟨Multiset.nodup_zero, fun e he => absurd he (Multiset.notMem_zero e)⟩
  | succ k ih =>
    rw [Finset.sum_range_succ]
    constructor
    · rw [Multiset.nodup_add]
      refine ⟨ih.1, hf k, Multiset.disjoint_left.mpr fun {e} he he' => ?_⟩
      obtain ⟨j, hj, hlj⟩ := ih.2 e he
      exact hj.ne (hg (hlj.symm.trans (hlevel k e he')))
    · intro e he
      rcases Multiset.mem_add.mp he with he | he
      · obtain ⟨j, hj, hlj⟩ := ih.2 e he
        exact ⟨j, by omega, hlj⟩
      · exact ⟨k, by omega, hlevel k e he⟩

/-- The vertices of some rings. -/
def Vertices (n : ℕ) (tip : ℕ → Bool) (k : ℕ) (face : List (ℕ × ℕ)) : Prop :=
  ∀ a ∈ face, a.1 ≤ k ∧ if tip a.1 then a.2 = 0 else a.2 < n

theorem mod_succ_ne {i : ℕ} (hn : 2 ≤ n) (hi : i < n) : (i + 1) % n ≠ i := by
  by_cases hlast : i + 1 = n
  · rw [hlast, Nat.mod_self]
    omega
  · rw [Nat.mod_eq_of_lt (by omega)]
    omega

theorem face_of_mem_band (hn : 3 ≤ n) {j k : ℕ} (hj : j < k) {face : List (ℕ × ℕ)} (h : face ∈ band n tip j) :
    face.Nodup ∧ 3 ≤ face.length ∧ Vertices n tip k face := by
  have hnext (i : ℕ) : (i + 1) % n < n := Nat.mod_lt _ (by omega)
  rw [band] at h
  split at h
  case h_4 => exact absurd h List.not_mem_nil
  all_goals
    rename_i hlow hhigh
    obtain ⟨i, hi, rfl⟩ := List.mem_map.mp h
    have hlt := List.mem_range.mp hi
    have hne := mod_succ_ne (by omega) hlt
    have hpos : 0 < n := by omega
    refine ⟨?_, by simp, ?_⟩
    · simp [hne, hne.symm]
    · simp [Vertices, hlow, hhigh, hnext, hlt, hj.le, Nat.succ_le_of_lt hj]

theorem face_of_mem_cap (hn : 3 ≤ n) {j k : ℕ} (hj : j ≤ k) {face : List (ℕ × ℕ)} (h : face ∈ cap n tip j) :
    face.Nodup ∧ 3 ≤ face.length ∧ Vertices n tip k face := by
  rw [cap] at h
  split_ifs at h with htip
  · exact absurd h List.not_mem_nil
  · obtain rfl := List.mem_singleton.mp h
    refine ⟨List.nodup_range.map fun _ _ h => (Prod.mk.inj h).2, by simpa using hn, ?_⟩
    intro a ha
    obtain ⟨i, hi, rfl⟩ := List.mem_map.mp ha
    simp [hj, htip, List.mem_range.mp hi]

/-- The faces of a stack are proper and between its vertices. -/
theorem face_of_mem_stack (hn : 3 ≤ n) {k : ℕ} {face : List (ℕ × ℕ)} (h : face ∈ stack n tip k) :
    face.Nodup ∧ 3 ≤ face.length ∧ Vertices n tip k face := by
  rw [stack, List.mem_append, List.mem_append] at h
  rcases h with (h | h) | h
  · obtain ⟨j, hj, h⟩ := List.mem_flatMap.mp h
    exact face_of_mem_band hn (List.mem_range.mp hj) h
  · exact face_of_mem_cap hn (Nat.zero_le k) h
  · exact face_of_mem_cap hn le_rfl h

/-- **A stack of rings is closed**, whichever of them are tips. -/
theorem closed_stack (hn : 3 ≤ n) (k : ℕ) : Closed (stack n tip k) := by
  obtain ⟨hrings, hringLevel⟩ := nodup_sum_of_level (@nodup_ringEdges n tip hn)
    (g := fun j => 2 * j) (fun a b h => by simpa using h) (fun _ _ => level_of_mem_ringEdges) (k + 1)
  obtain ⟨hspokes, hspokeLevel⟩ := nodup_sum_of_level (@nodup_spokes n tip)
    (g := fun j => 2 * j + 1) (fun a b h => by simpa using h) (fun _ _ => level_of_mem_spokes) k
  refine closed_of_edges (fun _ hface => (face_of_mem_stack hn hface).1)
    (fun _ hface => (face_of_mem_stack hn hface).2.1) ?_ (allEdges_stack k)
  rw [Multiset.nodup_add]
  refine ⟨hrings, hspokes, Multiset.disjoint_left.mpr fun {e} he he' => ?_⟩
  obtain ⟨i, -, hi⟩ := hringLevel e he
  obtain ⟨j, -, hj⟩ := hspokeLevel e he'
  omega

end Forge.Surface
