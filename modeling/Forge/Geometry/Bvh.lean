import Forge.Data.Hierarchy
import Forge.Geometry.Collide
import Forge.Json.Serde

/-!
# The hierarchy of boxes against all pairs

`split` permutes its slice of the order and pushes the nodes of a tree over it (`split_spec`): every node has the
least box around its triangles, and every triangle is in exactly one leaf. The loop of `intersects` looks at each pair
of nodes at most once (`search_eq`).

**`PartBvh.agrees`**: the search ends, and it answers yes exactly when two leaves with overlapping bounds have a pair
of triangles that the test accepts. The test accepts pairs that miss each other by less than its tolerance, and those
with boxes apart may be left out (`PartBvh.near_miss_left_out`).
-/

namespace Forge.Geometry

/-! ### The order of boxes -/

namespace Aabb

/-- A box lies inside another. -/
instance : Preorder Aabb where
  le a b := ∀ k, b.min k ≤ a.min k ∧ a.max k ≤ b.max k
  le_refl a k := ⟨le_refl _, le_refl _⟩
  le_trans a b c hab hbc k := ⟨(hbc k).1.trans (hab k).1, (hab k).2.trans (hbc k).2⟩

theorem le_def {a b : Aabb} : a ≤ b ↔ ∀ k, b.min k ≤ a.min k ∧ a.max k ≤ b.max k := Iff.rfl

theorem union_le_iff {a b c : Aabb} : a.union b ≤ c ↔ a ≤ c ∧ b ≤ c := by
  simp only [le_def, union, le_min_iff, max_le_iff]
  constructor
  · exact fun h => ⟨fun k => ⟨(h k).1.1, (h k).2.1⟩, fun k => ⟨(h k).1.2, (h k).2.2⟩⟩
  · exact fun h k => ⟨⟨(h.1 k).1, (h.2 k).1⟩, (h.1 k).2, (h.2 k).2⟩

theorem foldl_union_le_iff {boxes : List Aabb} {a c : Aabb} :
    boxes.foldl union a ≤ c ↔ a ≤ c ∧ ∀ b ∈ boxes, b ≤ c := by
  induction boxes generalizing a with
  | nil => simp
  | cons b boxes ih => simp [ih, union_le_iff, and_assoc]

theorem overlaps_iff {a o : Aabb} : a.overlaps o = true ↔ ∀ k, a.min k ≤ o.max k ∧ o.min k ≤ a.max k := by
  simp [overlaps]

theorem overlaps_monotone : Hierarchy.Monotone overlaps := by
  intro a a' b b' ha hb h
  rw [overlaps_iff] at h ⊢
  intro k
  exact ⟨(ha k).1.trans ((h k).1.trans (hb k).2), (hb k).1.trans ((h k).2.trans (ha k).2)⟩

end Aabb

/-- The box with a number, if there is one. -/
def boxAt (boxes : List Aabb) (i : ℕ) : Set Aabb := {b | boxes[i]? = some b}

theorem boundsOf_isLUB {boxes : List Aabb} {numbers : List ℕ} (hne : numbers ≠ [])
    (h : ∀ i ∈ numbers, i < boxes.length) :
    ∃ b, boundsOf boxes numbers = some b ∧ IsLUB (Hierarchy.boxes (boxAt boxes) numbers) b := by
  have hall : List.Forall₂ (fun i b => boxes[i]? = some b) numbers (numbers.map fun i => boxes.getD i ⟨0, 0⟩) := by
    rw [List.forall₂_map_right_iff, List.forall₂_same]
    intro i hi
    rw [List.getD_eq_getElem?_getD, List.getElem?_eq_getElem (h i hi)]
    rfl
  have hmap := Codec.mapM_eq_some_iff.mpr hall
  cases numbers with
  | nil => exact absurd rfl hne
  | cons i numbers =>
    refine ⟨_, by rw [boundsOf, hmap]; rfl, ?_⟩
    have hmem : ∀ b, b ∈ Hierarchy.boxes (boxAt boxes) (i :: numbers) ↔
        ∃ j ∈ i :: numbers, boxes.getD j ⟨0, 0⟩ = b := by
      intro b
      constructor
      · rintro ⟨j, hj, hb⟩
        exact ⟨j, hj, by rw [List.getD_eq_getElem?_getD, hb]; rfl⟩
      · rintro ⟨j, hj, rfl⟩
        refine ⟨j, hj, ?_⟩
        rw [boxAt, Set.mem_ofPred_eq, List.getD_eq_getElem?_getD, List.getElem?_eq_getElem (h j hj)]
        rfl
    have hleast : ∀ c, (numbers.map fun i => boxes.getD i ⟨0, 0⟩).foldl Aabb.union (boxes.getD i ⟨0, 0⟩) ≤ c ↔
        ∀ b ∈ Hierarchy.boxes (boxAt boxes) (i :: numbers), b ≤ c := by
      intro c
      rw [Aabb.foldl_union_le_iff]
      simp only [hmem]
      constructor
      · rintro ⟨hi, hrest⟩ b ⟨j, hj, rfl⟩
        rcases List.mem_cons.mp hj with rfl | hj
        · exact hi
        · exact hrest _ (List.mem_map_of_mem hj)
      · intro hb
        refine ⟨hb _ ⟨i, by simp, rfl⟩, fun b hmap => ?_⟩
        obtain ⟨j, hj, rfl⟩ := List.mem_map.mp hmap
        exact hb _ ⟨j, by simp [hj], rfl⟩
    exact ⟨fun b hb => (hleast _).mp (le_refl _) b hb, fun c hc => (hleast c).mpr hc⟩

/-! ### Slices -/

theorem getElem?_slice {order : List ℕ} {start stop k : ℕ} :
    (slice order start stop)[k]? = if k < stop - start then order[start + k]? else none := by
  rw [slice, List.getElem?_take, List.getElem?_drop]

theorem length_slice {order : List ℕ} {start stop : ℕ} (h : stop ≤ order.length) :
    (slice order start stop).length = stop - start := by
  rw [slice, List.length_take, List.length_drop]
  omega

theorem mem_slice {order : List ℕ} {start stop i : ℕ} :
    i ∈ slice order start stop ↔ ∃ k, start ≤ k ∧ k < stop ∧ order[k]? = some i := by
  rw [List.mem_iff_getElem?]
  simp only [getElem?_slice]
  constructor
  · rintro ⟨k, hk⟩
    split_ifs at hk with hlt
    exact ⟨start + k, by omega, by omega, hk⟩
  · rintro ⟨k, hle, hlt, hk⟩
    refine ⟨k - start, ?_⟩
    rw [if_pos (by omega), Nat.add_sub_cancel' hle, hk]

theorem slice_congr {order order' : List ℕ} {start stop : ℕ}
    (h : ∀ k, start ≤ k → k < stop → order[k]? = order'[k]?) : slice order start stop = slice order' start stop := by
  refine List.ext_getElem? fun k => ?_
  rw [getElem?_slice, getElem?_slice]
  split_ifs with hk
  · exact h _ (by omega) (by omega)
  · rfl

theorem slice_append {order : List ℕ} {start mid stop : ℕ} (hlo : start ≤ mid) (hhi : mid ≤ stop) :
    slice order start mid ++ slice order mid stop = slice order start stop := by
  unfold slice
  rw [show stop - start = (mid - start) + (stop - mid) by omega, List.take_add, List.drop_drop,
    Nat.add_sub_cancel' hlo]

/-- The order after a slice of it is sorted. -/
theorem slice_splice {order sorted : List ℕ} {start stop : ℕ} (hle : start ≤ stop) (hstop : stop ≤ order.length)
    (hlen : sorted.length = stop - start) :
    slice (order.take start ++ sorted ++ order.drop stop) start stop = sorted ∧
      (order.take start ++ sorted ++ order.drop stop).length = order.length ∧
      ∀ k, k < start ∨ stop ≤ k → (order.take start ++ sorted ++ order.drop stop)[k]? = order[k]? := by
  have htake : (order.take start).length = start := by rw [List.length_take]; omega
  refine ⟨?_, by simp; omega, fun k hk => ?_⟩
  · rw [slice, List.append_assoc, List.drop_left' htake, List.take_left' hlen]
  · rcases hk with hk | hk
    · rw [List.append_assoc, List.getElem?_append_left (by omega), List.getElem?_take, if_pos hk]
    · rw [List.getElem?_append_right (by simp; omega), List.length_append, htake, hlen, List.getElem?_drop]
      congr 1
      omega

/-! ### The nodes as a tree -/

/-- The node `n` is the root of a tree over the slice from `start` to `stop`. -/
inductive Represents (nodes : List BvhNode) (order : List ℕ) : ℕ → ℕ → ℕ → Hierarchy Aabb ℕ → Prop where
  | leaf {n start stop : ℕ} {b : Aabb} : start ≤ stop → nodes[n]? = some (.leaf b start (stop - start)) →
      Represents nodes order n start stop (.leaf b (slice order start stop))
  | branch {n left right start mid stop : ℕ} {b : Aabb} {l r : Hierarchy Aabb ℕ} :
      nodes[n]? = some (.branch b left right) → Represents nodes order left start mid l →
      Represents nodes order right mid stop r → Represents nodes order n start stop (.branch b l r)

namespace Represents

variable {nodes nodes' : List BvhNode} {order order' : List ℕ} {n start stop : ℕ} {t : Hierarchy Aabb ℕ}

theorem le (h : Represents nodes order n start stop t) : start ≤ stop := by
  induction h with
  | leaf hle _ => exact hle
  | branch _ _ _ ihl ihr => exact ihl.trans ihr

/-- The leaves have the slice, each number in its place. -/
theorem items_eq (h : Represents nodes order n start stop t) : t.items = slice order start stop := by
  induction h with
  | leaf _ _ => rfl
  | branch _ hl hr ihl ihr => rw [Hierarchy.items, ihl, ihr, slice_append hl.le hr.le]

/-- More nodes, and another order outside the slice, change nothing. -/
theorem congr (h : Represents nodes order n start stop t) (hnodes : nodes <+: nodes')
    (horder : ∀ k, start ≤ k → k < stop → order'[k]? = order[k]?) : Represents nodes' order' n start stop t := by
  obtain ⟨more, rfl⟩ := hnodes
  have hget : ∀ {m : ℕ} {node : BvhNode}, nodes[m]? = some node → (nodes ++ more)[m]? = some node := fun hm => by
    rw [List.getElem?_append_left (List.getElem?_eq_some_iff.mp hm).1, hm]
  induction h with
  | leaf hle hn =>
    rw [← slice_congr horder]
    exact .leaf hle (hget hn)
  | branch hn hl hr ihl ihr =>
    exact .branch (hget hn) (ihl fun k h₁ h₂ => horder k h₁ (h₂.trans_le hr.le))
      (ihr fun k h₁ h₂ => horder k (hl.le.trans h₁) h₂)

theorem node (h : Represents nodes order n start stop t) : ∃ m, nodes[n]? = some m ∧ m.bounds = t.bounds := by
  cases h with
  | leaf _ hn => exact ⟨_, hn, rfl⟩
  | branch hn _ _ => exact ⟨_, hn, rfl⟩

end Represents

/-! ### Splitting -/

/-- What `split` has done to the slice from `start` to `stop`. -/
structure Split (boxes : List Aabb) (order : List ℕ) (start stop : ℕ) (nodes : List BvhNode) (order' : List ℕ)
    (nodes' : List BvhNode) (root : ℕ) (t : Hierarchy Aabb ℕ) : Prop where
  length : order'.length = order.length
  outside : ∀ k, k < start ∨ stop ≤ k → order'[k]? = order[k]?
  perm : (slice order' start stop).Perm (slice order start stop)
  grows : nodes <+: nodes'
  count : nodes'.length = nodes.length + t.size
  represents : Represents nodes' order' root start stop t
  tight : t.Tight (boxAt boxes)

/-- A permuted slice has the numbers of the order. -/
theorem mem_of_outside {order order' : List ℕ} {start stop i : ℕ}
    (houtside : ∀ k, k < start ∨ stop ≤ k → order'[k]? = order[k]?)
    (hperm : (slice order' start stop).Perm (slice order start stop)) (h : i ∈ order') : i ∈ order := by
  obtain ⟨k, hk⟩ := List.mem_iff_getElem?.mp h
  by_cases hin : start ≤ k ∧ k < stop
  · obtain ⟨k', -, -, hk'⟩ := mem_slice.mp (hperm.mem_iff.mp (mem_slice.mpr ⟨k, hin.1, hin.2, hk⟩))
    exact List.mem_of_getElem? hk'
  · rw [houtside k (by omega)] at hk
    exact List.mem_of_getElem? hk

/-- **`split` is a permutation of its slice and a tight tree over it.** -/
theorem split_spec (tris : List Tri) (boxes : List Aabb) {order : List ℕ} {start stop : ℕ} (nodes : List BvhNode)
    (hlt : start < stop) (hstop : stop ≤ order.length) (hmem : ∀ i ∈ order, i < boxes.length) :
    ∃ order' nodes' root t, split tris boxes order start stop nodes = some (order', nodes', root) ∧
      Split boxes order start stop nodes order' nodes' root t := by
  induction hd : stop - start using Nat.strong_induction_on generalizing order start stop nodes with
  | _ d ih =>
    have hne : slice order start stop ≠ [] := by
      intro h
      have := congrArg List.length h
      rw [length_slice hstop] at this
      simp at this
      omega
    obtain ⟨b, hb, hlub⟩ := boundsOf_isLUB hne fun i hi => by
      obtain ⟨k, -, -, hk⟩ := mem_slice.mp hi
      exact hmem i (List.mem_of_getElem? hk)
    rw [split, hb]
    by_cases hleaf : stop - start ≤ leafSize
    · refine ⟨order, _, _, .leaf b (slice order start stop), if_pos hleaf, ?_⟩
      exact ⟨rfl, fun _ _ => rfl, List.Perm.refl _, List.prefix_append _ _, by simp [Hierarchy.size],
        .leaf hlt.le (by simp), hlub⟩
    · simp only [leafSize] at hleaf
      generalize hsorted : (slice order start stop).mergeSort
        (fun a b' => centroid tris b.longestAxis a ≤ centroid tris b.longestAxis b') = sorted
      have hperm : sorted.Perm (slice order start stop) := hsorted ▸ List.mergeSort_perm _ _
      obtain ⟨hslice, hlen, hout⟩ := slice_splice hlt.le hstop (hperm.length_eq.trans (length_slice hstop))
      generalize hord : order.take start ++ sorted ++ order.drop stop = order₁ at hslice hlen hout
      generalize hmid : (start + stop) / 2 = mid
      have hmem₁ : ∀ i ∈ order₁, i < boxes.length := fun i hi =>
        hmem i (mem_of_outside hout (hslice ▸ hperm) hi)
      obtain ⟨order₂, nodes₂, left, tl, hleft, hl⟩ :=
        @ih (mid - start) (by omega) order₁ start mid nodes (by omega) (by omega) hmem₁ rfl
      obtain ⟨order₃, nodes₃, right, tr, hright, hr⟩ :=
        @ih (stop - mid) (by omega) order₂ mid stop nodes₂ (by omega) (by have := hl.length; omega)
          (fun i hi => hmem₁ i (mem_of_outside hl.outside hl.perm hi)) rfl
      refine ⟨order₃, nodes₃ ++ [.branch b left right], nodes₃.length, .branch b tl tr, ?_, ?_⟩
      · simp only [Option.bind_eq_bind, Option.bind_some, leafSize, if_neg hleaf, hsorted, hord, hleft, hright]
      have hl' : Represents (nodes₃ ++ [.branch b left right]) order₃ left start mid tl :=
        hl.represents.congr (hr.grows.trans (List.prefix_append _ _)) fun k _ hk => hr.outside k (.inl hk)
      have hr' : Represents (nodes₃ ++ [.branch b left right]) order₃ right mid stop tr :=
        hr.represents.congr (List.prefix_append _ _) fun k _ _ => rfl
      have htree : Represents (nodes₃ ++ [.branch b left right]) order₃ nodes₃.length start stop (.branch b tl tr) :=
        .branch (by simp) hl' hr'
      have hall : (slice order₃ start stop).Perm (slice order start stop) := by
        have hfirst : (slice order₃ start mid).Perm (slice order₁ start mid) := by
          rw [slice_congr fun k _ hk => hr.outside k (.inl hk)]
          exact hl.perm
        have hsecond : (slice order₃ mid stop).Perm (slice order₁ mid stop) := by
          rw [← slice_congr fun k hk _ => hl.outside k (.inr hk)]
          exact hr.perm
        have hjoin := hfirst.append hsecond
        rw [slice_append hl'.le hr'.le, slice_append hl'.le hr'.le, hslice] at hjoin
        exact hjoin.trans hperm
      refine ⟨by rw [hr.length, hl.length, hlen], fun k hk => ?_, hall,
        hl.grows.trans (hr.grows.trans (List.prefix_append _ _)), ?_, htree, ?_, hl.tight, hr.tight⟩
      · rw [hr.outside k (by omega), hl.outside k (by omega), hout k hk]
      · rw [List.length_append, hr.count, hl.count, Hierarchy.size]
        simp
        omega
      · have hitems := htree.items_eq
        rw [Hierarchy.items] at hitems
        rw [hitems, Hierarchy.boxes_perm _ hall]
        exact hlub

/-- What is built of triangles. -/
structure PartBvh.Built (tris : List Tri) (p : PartBvh) (t : Hierarchy Aabb ℕ) : Prop where
  same : p.tris = tris
  represents : Represents p.nodes p.order p.root 0 tris.length t
  count : p.nodes.length = t.size
  /-- Every triangle is in exactly one leaf. -/
  items : t.items.Perm (List.range tris.length)
  tight : t.Tight (boxAt (tris.map Aabb.ofTri))

theorem PartBvh.build_nil : build [] = none := by
  rw [build, split]
  rfl

theorem PartBvh.build_eq {tris : List Tri} (h : tris ≠ []) : ∃ p t, build tris = some p ∧ Built tris p t := by
  obtain ⟨order, nodes, root, t, hsplit, ht⟩ := split_spec tris (tris.map Aabb.ofTri) []
    (List.length_pos_iff.mpr h) (List.length_range (n := tris.length)).ge fun i hi => by simpa using hi
  refine ⟨⟨tris, order, nodes, root⟩, t, by rw [build, hsplit]; rfl, rfl, ht.represents, ?_, ?_, ht.tight⟩
  · simpa using ht.count
  · have hall : slice (List.range tris.length) 0 tris.length = List.range tris.length := by simp [slice]
    rw [ht.represents.items_eq]
    exact hall ▸ ht.perm

/-! ### Searching -/

namespace PartBvh

variable {p q : PartBvh} {tris₁ tris₂ : List Tri}

/-- The test of two parts' triangles, by number. -/
abbrev Meets (p q : PartBvh) (s t : Hierarchy Aabb ℕ) : Prop :=
  Hierarchy.Meets Aabb.overlaps (testAt p.tris q.tris) s t

/-- A pair of nodes on the stack, with the trees under them. -/
structure Entry (p q : PartBvh) (tris₁ tris₂ : List Tri) (e : ℕ × ℕ) (s t : Hierarchy Aabb ℕ) : Prop where
  left : ∃ start stop, Represents p.nodes p.order e.1 start stop s
  right : ∃ start stop, Represents q.nodes q.order e.2 start stop t
  tightLeft : s.Tight (boxAt (tris₁.map Aabb.ofTri))
  tightRight : t.Tight (boxAt (tris₂.map Aabb.ofTri))

/-- The stack, with the trees under its pairs. -/
def Entries (p q : PartBvh) (tris₁ tris₂ : List Tri) (stack : List (ℕ × ℕ))
    (trees : List (Hierarchy Aabb ℕ × Hierarchy Aabb ℕ)) : Prop :=
  List.Forall₂ (fun e st => Entry p q tris₁ tris₂ e st.1 st.2) stack trees

theorem entries_cons {e : ℕ × ℕ} {s t : Hierarchy Aabb ℕ} {stack : List (ℕ × ℕ)}
    {trees : List (Hierarchy Aabb ℕ × Hierarchy Aabb ℕ)} (h : Entry p q tris₁ tris₂ e s t)
    (hstack : Entries p q tris₁ tris₂ stack trees) : Entries p q tris₁ tris₂ (e :: stack) ((s, t) :: trees) :=
  .cons h hstack

/-- The pairs of nodes that are still to be looked at, at most. -/
def capacity (trees : List (Hierarchy Aabb ℕ × Hierarchy Aabb ℕ)) : ℕ :=
  (trees.map fun st => st.1.size * st.2.size).sum

theorem capacity_cons (s t : Hierarchy Aabb ℕ) (trees : List (Hierarchy Aabb ℕ × Hierarchy Aabb ℕ)) :
    capacity ((s, t) :: trees) = s.size * t.size + capacity trees := by
  rw [capacity, List.map_cons, List.sum_cons, capacity]

theorem leaf_meets {start stop start' stop' : ℕ} {c c' : Aabb} (hle : start ≤ stop) (hle' : start' ≤ stop')
    (hover : c.overlaps c' = true) :
    p.Meets q (.leaf c (slice p.order start stop)) (.leaf c' (slice q.order start' stop')) ↔
      ((slice p.order start (start + (stop - start))).any fun i =>
        (slice q.order start' (start' + (stop' - start'))).any fun j => testAt p.tris q.tris i j) = true := by
  rw [Nat.add_sub_cancel' hle, Nat.add_sub_cancel' hle']
  simp [Meets, Hierarchy.Meets, Hierarchy.leaves, hover]

/-- The search finds out whether a pair on the stack meets, within its capacity. -/
theorem search_eq {fuel : ℕ} {stack : List (ℕ × ℕ)} {trees : List (Hierarchy Aabb ℕ × Hierarchy Aabb ℕ)}
    (h : Entries p q tris₁ tris₂ stack trees) (hfuel : capacity trees ≤ fuel) :
    ∃ answer, p.search q fuel stack = some answer ∧ (answer = true ↔ ∃ st ∈ trees, p.Meets q st.1 st.2) := by
  induction fuel generalizing stack trees with
  | zero =>
    cases h with
    | nil => exact ⟨false, by rw [search], by simp⟩
    | @cons e st stack trees he hstack =>
      have hpos := Nat.mul_pos st.1.size_pos st.2.size_pos
      obtain ⟨s, t⟩ := st
      rw [capacity_cons] at hfuel
      dsimp only at hpos
      omega
  | succ fuel ih =>
    cases h with
    | nil => exact ⟨false, by rw [search], by simp⟩
    | @cons e st stack trees he hstack =>
      obtain ⟨a, b⟩ := e
      obtain ⟨s, t⟩ := st
      obtain ⟨⟨start, stop, hs⟩, ⟨start', stop', ht⟩, htight, htight'⟩ := he
      have hpos := Nat.mul_pos s.size_pos t.size_pos
      rw [capacity_cons] at hfuel
      have hskip := ih hstack (show capacity trees ≤ fuel by omega)
      obtain ⟨m, hm, hmb⟩ := hs.node
      obtain ⟨n, hn, hnb⟩ := ht.node
      simp only [search, hm, hn, List.mem_cons, exists_eq_or_imp]
      by_cases hover : m.bounds.overlaps n.bounds = true
      · rw [if_pos hover]
        cases hs with
        | @leaf _ _ _ c hle hnode =>
          cases hm.symm.trans hnode
          cases ht with
          | @leaf _ _ _ c' hle' hnode' =>
            cases hn.symm.trans hnode'
            have hboth : c.overlaps c' = true := hover
            rw [leaf_meets hle hle' hboth]
            dsimp only
            split_ifs with hany
            · exact ⟨true, rfl, iff_of_true rfl (.inl hany)⟩
            · obtain ⟨answer, hanswer, hiff⟩ := hskip
              exact ⟨answer, hanswer, hiff.trans (or_iff_right hany).symm⟩
          | @branch _ left right _ mid _ c' l r hnode' hl hr =>
            cases hn.symm.trans hnode'
            have hcap : capacity ((.leaf c (slice p.order start stop), r) ::
                (.leaf c (slice p.order start stop), l) :: trees) ≤ fuel := by
              rw [capacity_cons, capacity_cons]
              simp only [Hierarchy.size, Nat.one_mul] at hfuel ⊢
              omega
            have hright : Entry p q tris₁ tris₂ (a, right) (.leaf c (slice p.order start stop)) r :=
              ⟨⟨_, _, .leaf hle hnode⟩, ⟨_, _, hr⟩, htight, htight'.2.2⟩
            have hleft : Entry p q tris₁ tris₂ (a, left) (.leaf c (slice p.order start stop)) l :=
              ⟨⟨_, _, .leaf hle hnode⟩, ⟨_, _, hl⟩, htight, htight'.2.1⟩
            obtain ⟨answer, hanswer, hiff⟩ := ih (entries_cons hright (entries_cons hleft hstack)) hcap
            refine ⟨answer, hanswer, hiff.trans ?_⟩
            simp only [List.mem_cons, exists_eq_or_imp, Meets, Hierarchy.meets_branch_right]
            tauto
        | @branch _ left right _ mid _ c l r hnode hl hr =>
          cases hm.symm.trans hnode
          have hcap : capacity ((r, t) :: (l, t) :: trees) ≤ fuel := by
            rw [capacity_cons, capacity_cons]
            simp only [Hierarchy.size, Nat.add_mul, Nat.one_mul] at hfuel ⊢
            have := t.size_pos
            omega
          have hright : Entry p q tris₁ tris₂ (right, b) r t := ⟨⟨_, _, hr⟩, ⟨_, _, ht⟩, htight.2.2, htight'⟩
          have hleft : Entry p q tris₁ tris₂ (left, b) l t := ⟨⟨_, _, hl⟩, ⟨_, _, ht⟩, htight.2.1, htight'⟩
          obtain ⟨answer, hanswer, hiff⟩ := ih (entries_cons hright (entries_cons hleft hstack)) hcap
          refine ⟨answer, hanswer, hiff.trans ?_⟩
          simp only [List.mem_cons, exists_eq_or_imp, Meets, Hierarchy.meets_branch_left]
          tauto
      · have hno : ¬p.Meets q s t :=
          Hierarchy.not_meets Aabb.overlaps_monotone htight htight' (by rw [← hmb, ← hnb]; simpa using hover)
        simpa only [if_neg hover, hno, false_or] using hskip

/-- Two built hierarchies are searched to the end. -/
theorem intersects_eq {s t : Hierarchy Aabb ℕ} (h₁ : tris₁ ≠ []) (h₂ : tris₂ ≠ []) (hp : Built tris₁ p s)
    (hq : Built tris₂ q t) : ∃ answer, p.intersects q = some answer ∧ (answer = true ↔ p.Meets q s t) := by
  have hentry : Entries p q tris₁ tris₂ [(p.root, q.root)] [(s, t)] :=
    entries_cons ⟨⟨_, _, hp.represents⟩, ⟨_, _, hq.represents⟩, hp.tight, hq.tight⟩ .nil
  obtain ⟨answer, hanswer, hiff⟩ := search_eq hentry (show capacity [(s, t)] ≤ p.nodes.length * q.nodes.length by
    rw [capacity_cons, hp.count, hq.count]
    simp [capacity])
  refine ⟨answer, ?_, hiff.trans (by simp)⟩
  rw [intersects, if_neg (by rw [hp.same, hq.same]; exact not_or.mpr ⟨h₁, h₂⟩), hanswer]

/-- What the search of two hierarchies finds, beside all pairs of triangles. -/
structure Agrees (tris₁ tris₂ : List Tri) (p q : PartBvh) (s t : Hierarchy Aabb ℕ) (answer : Bool) : Prop where
  left : Built tris₁ p s
  right : Built tris₂ q t
  answers : p.intersects q = some answer
  /-- Two leaves with overlapping bounds have a pair that the test accepts. -/
  meets : answer = true ↔ p.Meets q s t
  sound : answer = true → ∃ t₁ ∈ tris₁, ∃ t₂ ∈ tris₂, triTriIntersect t₁ t₂ = true
  complete : (∃ t₁ ∈ tris₁, ∃ t₂ ∈ tris₂, (Aabb.ofTri t₁).overlaps (Aabb.ofTri t₂) = true ∧
    triTriIntersect t₁ t₂ = true) → answer = true

theorem testAt_iff {i j : ℕ} : testAt tris₁ tris₂ i j = true ↔
    ∃ t₁ t₂, tris₁[i]? = some t₁ ∧ tris₂[j]? = some t₂ ∧ triTriIntersect t₁ t₂ = true := by
  unfold testAt
  cases tris₁[i]? <;> cases tris₂[j]? <;> simp

/-- **The hierarchy and the pairs of triangles.** Every triangle is in exactly one leaf, and the search ends; it
answers yes exactly when two leaves with overlapping bounds have a pair that the test accepts. So every answer yes has
a pair, and no accepted pair with overlapping boxes is missed. -/
theorem agrees (h₁ : tris₁ ≠ []) (h₂ : tris₂ ≠ []) : ∃ p q s t answer, build tris₁ = some p ∧ build tris₂ = some q ∧
    Agrees tris₁ tris₂ p q s t answer := by
  obtain ⟨p, s, hbuild, hp⟩ := build_eq h₁
  obtain ⟨q, t, hbuild', hq⟩ := build_eq h₂
  obtain ⟨answer, hanswer, hiff⟩ := intersects_eq h₁ h₂ hp hq
  refine ⟨p, q, s, t, answer, hbuild, hbuild', hp, hq, hanswer, hiff, fun h => ?_, ?_⟩
  · obtain ⟨i, -, j, -, htest⟩ := (hiff.mp h).exists_test
    rw [hp.same, hq.same] at htest
    obtain ⟨t₁, t₂, hi, hj, htest⟩ := testAt_iff.mp htest
    exact ⟨t₁, List.mem_of_getElem? hi, t₂, List.mem_of_getElem? hj, htest⟩
  · rintro ⟨t₁, ht₁, t₂, ht₂, hover, htest⟩
    obtain ⟨i, hi⟩ := List.mem_iff_getElem?.mp ht₁
    obtain ⟨j, hj⟩ := List.mem_iff_getElem?.mp ht₂
    refine hiff.mpr (Hierarchy.meets_of_box Aabb.overlaps_monotone hp.tight hq.tight (i := i) (j := j) ?_ ?_
      (b := Aabb.ofTri t₁) ?_ ?_ hover ?_)
    · rw [hp.items.mem_iff, List.mem_range]
      exact (List.getElem?_eq_some_iff.mp hi).1
    · rw [hq.items.mem_iff, List.mem_range]
      exact (List.getElem?_eq_some_iff.mp hj).1
    · simp [boxAt, hi]
    · simp [boxAt, hj]
    · rw [hp.same, hq.same]
      exact testAt_iff.mpr ⟨t₁, t₂, hi, hj, htest⟩

/-- Twelve triangles side by side in a coordinate plane. -/
def strip : List Tri := (List.range 12).map fun i => ![![i, 0, 0], ![i + 1, 0, 0], ![i, 1, 0]]

/-- Ten triangles that stand on the strip. -/
def fins : List Tri := (List.range 10).map fun i =>
  ![![i + 1 / 4, 1 / 4, -1], ![i + 1 / 4, 1 / 4, 1], ![i + 1 / 2, 1 / 4, 1]]

theorem agrees_strip : ∃ p q s t, build strip = some p ∧ build fins = some q ∧ Agrees strip fins p q s t true := by
  obtain ⟨p, q, s, t, answer, hp, hq, hagrees⟩ := @agrees strip fins (List.cons_ne_nil _ _) (List.cons_ne_nil _ _)
  have hyes : answer = true := hagrees.complete
    ⟨![![7, 0, 0], ![8, 0, 0], ![7, 1, 0]], by decide +kernel,
      ![![29 / 4, 1 / 4, -1], ![29 / 4, 1 / 4, 1], ![15 / 2, 1 / 4, 1]],
      by decide +kernel, by decide +kernel, by decide +kernel⟩
  exact ⟨p, q, s, t, hp, hq, hyes ▸ hagrees⟩

/-- A triangle in a coordinate plane. -/
def flat : Tri := ![![0, 0, 0], ![1, 0, 0], ![0, 1, 0]]

/-- A triangle that misses the plane of `flat` by half of `eps`. -/
def above : Tri := ![![0, 0, 1 / 2000000000000], ![1, 0, 1], ![0, 1, 2]]

/-- The test accepts two triangles whose boxes are apart, and the search leaves them out. -/
theorem near_miss_left_out : triTriIntersect above flat = true ∧
    ∃ p q, build [above] = some p ∧ build [flat] = some q ∧ p.intersects q = some false := by
  refine ⟨by decide +kernel, ⟨[above], [0], [.leaf (Aabb.ofTri above) 0 1], 0⟩,
    ⟨[flat], [0], [.leaf (Aabb.ofTri flat) 0 1], 0⟩, ?_, ?_, by decide +kernel⟩
  · rw [build, split]
    rfl
  · rw [build, split]
    rfl

end PartBvh

end Forge.Geometry
