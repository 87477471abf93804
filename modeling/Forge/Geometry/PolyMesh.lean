import Forge.Contract.Model
import Forge.Data.Surface

/-!
# Polygon meshes

The builders of cylinders, prisms, lofts and surfaces of revolution (`polymesh.rs`, `primitives.rs`). Their faces are
lists of 32-bit indices into the list of vertices; a count that is cast to an index is cut off. The trigonometric
functions of `forge_num` are parameters, on which no face depends.

**`primitives_closed`**: the four meshes are closed surfaces on their vertices, if these can be numbered by 32 bits.
All of them are stacks of rings, some of which may be tips.
-/

namespace Forge.Geometry

open Contract (Arr2 Arr3)

/-- `PolyMesh` -/
structure PolyMesh where
  v : List (Arr3 Float)
  f : List (List UInt32)

/-! ### The builders -/

/-- The range of indices from `start` to `stop`, which is left out. -/
def range32 (start stop : UInt32) : List UInt32 :=
  (List.range' start.toNat (stop.toNat - start.toNat)).map UInt32.ofNat

/-- The literal that stands for a full turn. -/
def tau : Float := 6.2831853

section

variable (cos sin : Float → Float)

/-- The points of a horizontal circle. -/
def circle (r y : Float) (n : ℕ) : List (Arr3 Float) :=
  (List.range n).map fun i =>
    let a := Float.ofNat i / Float.ofNat n * tau
    ⟨cos a * r, y, sin a * r⟩

/-- The faces of a tube of two rings: the sides, and an n-gon at each end. -/
def tubeFaces (n : ℕ) : List (List UInt32) :=
  ((List.range n).map fun i =>
    let j := (i + 1) % n
    [.ofNat i, .ofNat j, .ofNat (n + j), .ofNat (n + i)]) ++
  [range32 0 (.ofNat n), range32 (.ofNat n) (.ofNat (2 * n))]

/-- `cyl` -/
def cyl (rB rT h : Float) (n : ℕ) : PolyMesh :=
  let y := h / 2.0
  { v := circle cos sin rB (-y) n ++ circle cos sin rT y n
    f := tubeFaces n }

/-- `prism` -/
def prism (poly : List (Arr2 Float)) (h : Float) : PolyMesh :=
  let y := h / 2.0
  { v := (poly.map fun p => ⟨p.fst, -y, p.snd⟩) ++ poly.map fun p => ⟨p.fst, y, p.snd⟩
    f := tubeFaces poly.length }

/-- The quads between two rings of `n` vertices that start at these indices. -/
def quads (n : ℕ) (a b : UInt32) : List (List UInt32) :=
  (range32 0 (.ofNat n)).map fun i =>
    let j := (i + 1) % .ofNat n
    [a + i, a + j, b + j, b + i]

/-- The face around a ring of `n` vertices. -/
def around (n : ℕ) (a : UInt32) : List UInt32 := (range32 0 (.ofNat n)).map fun i => a + i

/-- `loft_rings` -/
def loftRings (rings : List (List (Arr2 Float) × Float)) : PolyMesh :=
  let n := (rings.head?.map fun ring => ring.1.length).getD 0
  { v := rings.flatMap fun ring => ring.1.map fun p => ⟨p.fst, ring.2, p.snd⟩
    f := ((List.range (rings.length - 1)).flatMap fun r => quads n (.ofNat (r * n)) (.ofNat ((r + 1) * n))) ++
      [range32 0 (.ofNat n), around n (.ofNat ((rings.length - 1) * n))] }

/-- A ring of `lathe`: its first index, and how many vertices it has. -/
structure LatheRing where
  i : UInt32
  n : ℕ

/-- A radius that collapses to a tip. -/
def isTip (p : Arr2 Float) : Bool := p.fst ≤ 0.0006

/-- The vertices of a point of the profile. -/
def latheRing (n : ℕ) (p : Arr2 Float) : List (Arr3 Float) :=
  if isTip p then [⟨0.0, p.snd, 0.0⟩] else circle cos sin p.fst p.snd n

/-- One turn of the loop over the profile. -/
def latheStep (n : ℕ) (s : List (Arr3 Float) × List LatheRing) (p : Arr2 Float) :
    List (Arr3 Float) × List LatheRing :=
  (s.1 ++ latheRing cos sin n p, s.2 ++ [⟨.ofNat s.1.length, if isTip p then 1 else n⟩])

/-- The faces between two rings of `lathe`; there are none between two tips. -/
def latheBand (n : ℕ) (a b : LatheRing) : List (List UInt32) :=
  if a.n = n ∧ b.n = n then quads n a.i b.i
  else if a.n = n ∧ b.n = 1 then
    (range32 0 (.ofNat n)).map fun i => [a.i + i, a.i + (i + 1) % .ofNat n, b.i]
  else if a.n = 1 ∧ b.n = n then
    (range32 0 (.ofNat n)).map fun i => [a.i, b.i + (i + 1) % .ofNat n, b.i + i]
  else []

/-- The face that closes the first or the last ring of `lathe`. -/
def latheCap (n : ℕ) : Option LatheRing → List (List UInt32)
  | some ring => if ring.n = n then [around n ring.i] else []
  | none => []

/-- `lathe` -/
def lathe (prof : List (Arr2 Float)) (n : ℕ) : PolyMesh :=
  let (v, rings) := prof.foldl (latheStep cos sin n) ([], [])
  { v
    f := ((List.range (prof.length - 1)).flatMap fun j =>
        match rings[j]?, rings[j + 1]? with
        | some a, some b => latheBand n a b
        | _, _ => []) ++
      latheCap n rings[0]? ++ latheCap n rings[prof.length - 1]? }

end

/-! ### Meshes of stacks of rings -/

/-- The faces of a mesh form a closed surface, on its vertices. -/
structure PolyMesh.Closed (mesh : PolyMesh) : Prop where
  inside : ∀ face ∈ mesh.f, ∀ i ∈ face, i.toNat < mesh.v.length
  surface : Surface.Closed mesh.f

/-- How many vertices a ring has. -/
def ringSize (n : ℕ) (tip : ℕ → Bool) (j : ℕ) : ℕ := if tip j then 1 else n

/-- A vertex by its index, from the first index of its ring. -/
def vertexAt (first : ℕ → ℕ) (a : ℕ × ℕ) : UInt32 := .ofNat (first a.1 + a.2)

section

variable {mesh : PolyMesh} {n k : ℕ} {tip : ℕ → Bool} {first : ℕ → ℕ}

theorem first_le (hfirst : ∀ j ≤ k, first (j + 1) = first j + ringSize n tip j) {i j : ℕ} (hij : i ≤ j)
    (hj : j ≤ k + 1) : first i ≤ first j := by
  induction j, hij using Nat.le_induction with
  | base => exact le_rfl
  | succ j _ ih =>
    rw [hfirst j (by omega)]
    exact (ih (by omega)).trans (Nat.le_add_right _ _)

/-- The numbers of different vertices differ, and lie below the number of all. -/
theorem vertex_bounds (hfirst : ∀ j ≤ k, first (j + 1) = first j + ringSize n tip j) {a : ℕ × ℕ}
    (ha : a.1 ≤ k ∧ if tip a.1 then a.2 = 0 else a.2 < n) :
    a.2 < ringSize n tip a.1 ∧ first a.1 + a.2 < first (a.1 + 1) ∧ first (a.1 + 1) ≤ first (k + 1) := by
  obtain ⟨hk, hsize⟩ := ha
  have hlt : a.2 < ringSize n tip a.1 := by
    rw [ringSize]
    split_ifs at hsize ⊢ <;> omega
  refine ⟨hlt, ?_, first_le hfirst (by omega) (by omega)⟩
  rw [hfirst _ hk]
  omega

/-- **Stacks of rings**: a mesh whose faces are those of a stack, numbered ring by ring. -/
theorem closed_of_stack (hn : 3 ≤ n) (hfirst : ∀ j ≤ k, first (j + 1) = first j + ringSize n tip j)
    (hv : first (k + 1) = mesh.v.length) (hsmall : mesh.v.length ≤ 2 ^ 32)
    (hf : mesh.f = (Surface.stack n tip k).map (List.map (vertexAt first))) : mesh.Closed := by
  have hvertex {a : ℕ × ℕ} (ha : a ∈ (Surface.stack n tip k).flatten) :
      a.1 ≤ k ∧ if tip a.1 then a.2 = 0 else a.2 < n := by
    obtain ⟨face, hface, ha⟩ := List.mem_flatten.mp ha
    exact (Surface.face_of_mem_stack hn hface).2.2 a ha
  have htoNat {a : ℕ × ℕ} (ha : a ∈ (Surface.stack n tip k).flatten) :
      (vertexAt first a).toNat = first a.1 + a.2 := by
    obtain ⟨-, hlt, hle⟩ := vertex_bounds hfirst (hvertex ha)
    rw [vertexAt, UInt32.toNat_ofNat', Nat.mod_eq_of_lt (by omega)]
  constructor
  · intro face hface i hi
    rw [hf] at hface
    obtain ⟨labels, hlabels, rfl⟩ := List.mem_map.mp hface
    obtain ⟨a, ha, rfl⟩ := List.mem_map.mp hi
    have hmem : a ∈ (Surface.stack n tip k).flatten := List.mem_flatten.mpr ⟨labels, hlabels, ha⟩
    obtain ⟨-, hlt, hle⟩ := vertex_bounds hfirst (hvertex hmem)
    rw [htoNat hmem, ← hv]
    omega
  · rw [hf]
    refine (Surface.closed_stack hn k).map fun a ha b hb hab => ?_
    have hab' : first a.1 + a.2 = first b.1 + b.2 := by rw [← htoNat ha, ← htoNat hb, hab]
    obtain ⟨hka, -⟩ := hvertex ha
    obtain ⟨hkb, -⟩ := hvertex hb
    obtain ⟨-, hlta, -⟩ := vertex_bounds hfirst (hvertex ha)
    obtain ⟨-, hltb, -⟩ := vertex_bounds hfirst (hvertex hb)
    have hring : a.1 = b.1 := by
      rcases Nat.lt_trichotomy a.1 b.1 with h | h | h
      · have := first_le hfirst (show a.1 + 1 ≤ b.1 from h) (by omega)
        omega
      · exact h
      · have := first_le hfirst (show b.1 + 1 ≤ a.1 from h) (by omega)
        omega
    rw [hring] at hab'
    exact Prod.ext hring (by omega)

end

/-! ### Indices -/

section

variable {n : ℕ}

theorem range32_zero (hn : n < 2 ^ 32) : range32 0 (.ofNat n) = (List.range n).map UInt32.ofNat := by
  rw [range32, UInt32.toNat_ofNat', Nat.mod_eq_of_lt hn, UInt32.toNat_zero, Nat.sub_zero, List.range_eq_range']

theorem range32_double (hn : 2 * n < 2 ^ 32) :
    range32 (.ofNat n) (.ofNat (2 * n)) = (List.range n).map fun i => UInt32.ofNat (n + i) := by
  rw [range32, UInt32.toNat_ofNat', UInt32.toNat_ofNat', Nat.mod_eq_of_lt hn, Nat.mod_eq_of_lt (by omega),
    show 2 * n - n = n by omega, List.range'_eq_map_range, List.map_map]
  rfl

theorem next32 {i : ℕ} (hi : i < n) (hn : n < 2 ^ 32) :
    (UInt32.ofNat i + 1) % UInt32.ofNat n = UInt32.ofNat ((i + 1) % n) := by
  apply UInt32.toNat.inj
  rw [UInt32.toNat_mod, UInt32.toNat_add, UInt32.toNat_ofNat', UInt32.toNat_ofNat', UInt32.toNat_ofNat',
    UInt32.toNat_one, Nat.mod_eq_of_lt (show i < 2 ^ 32 by omega), Nat.mod_eq_of_lt (show i + 1 < 2 ^ 32 by omega),
    Nat.mod_eq_of_lt hn, Nat.mod_eq_of_lt ((Nat.mod_lt _ (by omega)).trans hn)]

/-- The numbers of the vertices of a face around a ring. -/
theorem around_eq {first : ℕ → ℕ} {j : ℕ} (hn : n < 2 ^ 32) :
    around n (.ofNat (first j)) = ((List.range n).map fun i => (j, i)).map (vertexAt first) := by
  rw [around, range32_zero hn, List.map_map, List.map_map]
  refine List.map_congr_left fun i _ => ?_
  simp only [Function.comp_apply, vertexAt, UInt32.ofNat_add]

theorem quads_eq {first : ℕ → ℕ} {j : ℕ} (hn : n < 2 ^ 32) :
    quads n (.ofNat (first j)) (.ofNat (first (j + 1))) = ((List.range n).map fun i =>
      [(j, i), (j, (i + 1) % n), (j + 1, (i + 1) % n), (j + 1, i)]).map (List.map (vertexAt first)) := by
  rw [quads, range32_zero hn, List.map_map, List.map_map]
  refine List.map_congr_left fun i hi => ?_
  simp only [Function.comp_apply, List.map_cons, List.map_nil, vertexAt, UInt32.ofNat_add,
    next32 (List.mem_range.mp hi) hn]

/-! ### Tubes and lofts -/

/-- The faces of a tube are those of a stack of two rings. -/
theorem tubeFaces_eq (hn : 2 * n < 2 ^ 32) :
    tubeFaces n = (Surface.stack n (fun _ => false) 1).map (List.map (vertexAt fun j => j * n)) := by
  rw [tubeFaces, range32_zero (by omega), range32_double hn, Surface.stack]
  simp [Surface.band, Surface.cap, vertexAt, Function.comp_def]

theorem cyl_closed (cos sin : Float → Float) (rB rT h : Float) (hn : 3 ≤ n) (hsmall : 2 * n < 2 ^ 32) :
    (cyl cos sin rB rT h n).Closed := by
  have hv : (cyl cos sin rB rT h n).v.length = 2 * n := by simp [cyl, circle, Nat.two_mul]
  exact closed_of_stack hn (fun j _ => by simp [ringSize, Nat.succ_mul]) hv.symm (by omega) (tubeFaces_eq hsmall)

theorem prism_closed {poly : List (Arr2 Float)} (h : Float) (hn : 3 ≤ poly.length) (hsmall : 2 * poly.length < 2 ^ 32) :
    (prism poly h).Closed := by
  have hv : (prism poly h).v.length = 2 * poly.length := by simp [prism, Nat.two_mul]
  exact closed_of_stack hn (fun j _ => by simp [ringSize, Nat.succ_mul]) hv.symm (by omega) (tubeFaces_eq hsmall)

theorem length_loftRings_v {rings : List (List (Arr2 Float) × Float)} (hrings : ∀ ring ∈ rings, ring.1.length = n) :
    (loftRings rings).v.length = rings.length * n := by
  have hmap : rings.map (fun ring => ring.1.length) = List.replicate rings.length n := by
    rw [List.eq_replicate_iff]
    refine ⟨by simp, fun l hl => ?_⟩
    obtain ⟨ring, hring, rfl⟩ := List.mem_map.mp hl
    exact hrings ring hring
  rw [loftRings, List.length_flatMap]
  simp [hmap]

theorem loftRings_closed {rings : List (List (Arr2 Float) × Float)} (hn : 3 ≤ n) (hlen : 2 ≤ rings.length)
    (hrings : ∀ ring ∈ rings, ring.1.length = n) (hsmall : rings.length * n ≤ 2 ^ 32) : (loftRings rings).Closed := by
  obtain ⟨k, hk⟩ : ∃ k, rings.length = k + 1 := ⟨rings.length - 1, by omega⟩
  have hfirst : (rings.head?.map fun ring => ring.1.length).getD 0 = n := by
    cases rings with
    | nil => cases hk
    | cons ring rings => exact hrings ring List.mem_cons_self
  have hlt : n < 2 ^ 32 := by
    have htwo : 2 * n ≤ rings.length * n := Nat.mul_le_mul_right n hlen
    omega
  have hv : (loftRings rings).v.length = (k + 1) * n := by rw [length_loftRings_v hrings, hk]
  refine @closed_of_stack _ n k (fun _ => false) (fun j => j * n) hn (fun j _ => by simp [ringSize, Nat.succ_mul])
    hv.symm (by rw [hv, ← hk]; exact hsmall) ?_
  rw [loftRings, hfirst, hk, Nat.add_sub_cancel, Surface.stack, List.map_append, List.map_append, List.map_flatMap,
    List.append_assoc]
  refine congrArg₂ (· ++ ·) ?_ ?_
  · refine List.flatMap_congr fun j _ => ?_
    exact @quads_eq n (fun j => j * n) j hlt
  · have htop := @around_eq n (fun j => j * n) k hlt
    rw [htop, range32_zero hlt]
    simp [Surface.cap, vertexAt, Function.comp_def]

/-! ### Surfaces of revolution -/

variable (cos sin : Float → Float) (n : ℕ) (prof : List (Arr2 Float))

/-- The point of the profile is a tip. -/
def tipAt (j : ℕ) : Bool := (prof[j]?.map isTip).getD false

/-- The number of the first vertex of a ring. -/
def firstAt (j : ℕ) : ℕ := ((prof.take j).flatMap (latheRing cos sin n)).length

theorem firstAt_succ {j : ℕ} (hj : j < prof.length) :
    firstAt cos sin n prof (j + 1) = firstAt cos sin n prof j + ringSize n (tipAt prof) j := by
  have hlen : (latheRing cos sin n prof[j]).length = ringSize n (tipAt prof) j := by
    rw [latheRing, ringSize, tipAt, List.getElem?_eq_getElem hj, Option.map_some, Option.getD_some]
    split_ifs
    · rfl
    · simp [circle]
  rw [firstAt, List.take_succ_eq_append_getElem hj, List.flatMap_append, List.length_append, List.flatMap_singleton,
    hlen, firstAt]

/-- The vertices and the rings that the loop collects. -/
theorem foldl_latheStep : prof.foldl (latheStep cos sin n) ([], []) =
    (prof.flatMap (latheRing cos sin n),
      (List.range prof.length).map fun j => ⟨.ofNat (firstAt cos sin n prof j), ringSize n (tipAt prof) j⟩) := by
  induction prof using List.reverseRecOn with
  | nil => rfl
  | append_singleton prof p ih =>
    have hbefore {j : ℕ} (hj : j < prof.length) : firstAt cos sin n (prof ++ [p]) j = firstAt cos sin n prof j ∧
        tipAt (prof ++ [p]) j = tipAt prof j := by
      rw [firstAt, firstAt, List.take_append_of_le_length hj.le, tipAt, tipAt, List.getElem?_append_left hj]
      exact ⟨rfl, rfl⟩
    have hlast : firstAt cos sin n (prof ++ [p]) prof.length = (prof.flatMap (latheRing cos sin n)).length ∧
        tipAt (prof ++ [p]) prof.length = isTip p := by
      rw [firstAt, List.take_left', tipAt, List.getElem?_concat_length]
      · exact ⟨rfl, rfl⟩
      · rfl
    rw [List.foldl_append, ih, List.foldl_cons, List.foldl_nil, latheStep, List.flatMap_append, List.flatMap_singleton,
      List.length_append, List.length_singleton, List.range_succ, List.map_append, List.map_singleton, hlast.1,
      ringSize, hlast.2]
    refine Prod.ext rfl (congrArg (· ++ _) (List.map_congr_left fun j hj => ?_))
    obtain ⟨hfirst, htip⟩ := hbefore (List.mem_range.mp hj)
    rw [hfirst, ringSize, ringSize, htip]

variable {cos sin n prof}

theorem lathe_v : (lathe cos sin prof n).v = prof.flatMap (latheRing cos sin n) := by
  rw [lathe, foldl_latheStep]

theorem length_lathe_v : (lathe cos sin prof n).v.length = firstAt cos sin n prof prof.length := by
  rw [lathe_v, firstAt, List.take_length]

/-- The ring of a point of the profile. -/
def ringAt (cos sin : Float → Float) (n : ℕ) (prof : List (Arr2 Float)) (j : ℕ) : LatheRing :=
  ⟨.ofNat (firstAt cos sin n prof j), ringSize n (tipAt prof) j⟩

theorem lathe_f {k : ℕ} (hk : prof.length = k + 1) : (lathe cos sin prof n).f =
    ((List.range k).flatMap fun j => latheBand n (ringAt cos sin n prof j) (ringAt cos sin n prof (j + 1))) ++
      latheCap n (some (ringAt cos sin n prof 0)) ++ latheCap n (some (ringAt cos sin n prof k)) := by
  have hring {j : ℕ} (hj : j < k + 1) : ((List.range (k + 1)).map (ringAt cos sin n prof))[j]? =
      some (ringAt cos sin n prof j) := by
    rw [List.getElem?_map, List.getElem?_range hj, Option.map_some]
  have hrings : prof.foldl (latheStep cos sin n) ([], []) =
      (prof.flatMap (latheRing cos sin n), (List.range (k + 1)).map (ringAt cos sin n prof)) := by
    rw [foldl_latheStep, hk]
    rfl
  rw [lathe, hk, Nat.add_sub_cancel, hrings]
  simp only
  rw [hring (Nat.succ_pos k), hring (Nat.lt_succ_self k)]
  refine congrArg (· ++ _ ++ _) (List.flatMap_congr fun j hj => ?_)
  have hlt := List.mem_range.mp hj
  rw [hring (show j < k + 1 by omega), hring (show j + 1 < k + 1 by omega)]

theorem latheCap_eq {first : ℕ → ℕ} {tip : ℕ → Bool} {j : ℕ} (hn : 3 ≤ n) (hsmall : tip j = false → n < 2 ^ 32) :
    latheCap n (some ⟨.ofNat (first j), ringSize n tip j⟩) =
      (Surface.cap n tip j).map (List.map (vertexAt first)) := by
  cases htip : tip j with
  | true =>
    have hone : ¬ 1 = n := by omega
    simp [latheCap, ringSize, Surface.cap, htip, hone]
  | false =>
    simp only [latheCap, ringSize, Surface.cap, htip, Bool.false_eq_true, if_false, if_true, List.map_cons,
      List.map_nil]
    rw [around_eq (hsmall htip)]

/-- The faces between two rings of a surface of revolution are those of a stack. -/
theorem latheBand_eq {first : ℕ → ℕ} {tip : ℕ → Bool} {j : ℕ} (hn : 3 ≤ n)
    (hsmall : tip j = false ∨ tip (j + 1) = false → n < 2 ^ 32) :
    latheBand n ⟨.ofNat (first j), ringSize n tip j⟩ ⟨.ofNat (first (j + 1)), ringSize n tip (j + 1)⟩ =
      (Surface.band n tip j).map (List.map (vertexAt first)) := by
  have hone : ¬ 1 = n := by omega
  have hone' : ¬ n = 1 := by omega
  cases hlow : tip j with
  | true =>
    cases hhigh : tip (j + 1) with
    | true => simp [latheBand, ringSize, Surface.band, hlow, hhigh, hone]
    | false =>
      have hlt := hsmall (Or.inr hhigh)
      simp only [latheBand, ringSize, Surface.band, hlow, hhigh, hone, Bool.false_eq_true, if_false, if_true,
        false_and, and_self]
      rw [range32_zero hlt, List.map_map, List.map_map]
      refine List.map_congr_left fun i hi => ?_
      simp only [Function.comp_apply, List.map_cons, List.map_nil, vertexAt, UInt32.ofNat_add,
        next32 (List.mem_range.mp hi) hlt]
      simp
  | false =>
    have hlt := hsmall (Or.inl hlow)
    cases hhigh : tip (j + 1) with
    | true =>
      simp only [latheBand, ringSize, Surface.band, hlow, hhigh, hone, Bool.false_eq_true, if_false, if_true,
        and_false, and_self]
      rw [range32_zero hlt, List.map_map, List.map_map]
      refine List.map_congr_left fun i hi => ?_
      simp only [Function.comp_apply, List.map_cons, List.map_nil, vertexAt, UInt32.ofNat_add,
        next32 (List.mem_range.mp hi) hlt]
      simp
    | false =>
      simp only [latheBand, ringSize, Surface.band, hlow, hhigh, Bool.false_eq_true, if_false, if_true, and_self]
      exact quads_eq hlt

theorem lathe_closed (hn : 3 ≤ n) (hlen : 2 ≤ prof.length) (hsmall : (lathe cos sin prof n).v.length ≤ 2 ^ 32) :
    (lathe cos sin prof n).Closed := by
  obtain ⟨k, hk⟩ : ∃ k, prof.length = k + 1 := ⟨prof.length - 1, by omega⟩
  have hstep : ∀ j ≤ k, firstAt cos sin n prof (j + 1) = firstAt cos sin n prof j + ringSize n (tipAt prof) j :=
    fun j hj => firstAt_succ cos sin n prof (by omega)
  have hv : firstAt cos sin n prof (k + 1) = (lathe cos sin prof n).v.length := by rw [length_lathe_v, hk]
  -- another ring leaves no room for one of 2 ^ 32 vertices
  have hlt {j : ℕ} (hj : j ≤ k) (htip : tipAt prof j = false) : n < 2 ^ 32 := by
    have hsize : ringSize n (tipAt prof) j = n := by simp [ringSize, htip]
    have hpos (i : ℕ) : 1 ≤ ringSize n (tipAt prof) i := by
      rw [ringSize]
      split_ifs <;> omega
    have hring := hstep j hj
    rcases Nat.eq_zero_or_pos j with rfl | hj'
    · have hnext := hstep (0 + 1) (by omega)
      have hsecond := hpos (0 + 1)
      have hlast := first_le hstep (show 0 + 1 + 1 ≤ k + 1 by omega) le_rfl
      omega
    · have hnext := hstep 0 (by omega)
      have hbottom := hpos 0
      have hbelow := first_le hstep (show 0 + 1 ≤ j from hj') (by omega)
      have hlast := first_le hstep (show j + 1 ≤ k + 1 by omega) le_rfl
      omega
  refine closed_of_stack hn hstep hv hsmall ?_
  rw [lathe_f hk, Surface.stack, List.map_append, List.map_append, List.map_flatMap]
  refine congrArg₂ (· ++ ·) (congrArg₂ (· ++ ·) (List.flatMap_congr fun j hj => ?_) ?_) ?_
  · have hj' := List.mem_range.mp hj
    refine latheBand_eq hn fun h => ?_
    exact h.elim (hlt (by omega)) (hlt (by omega))
  · exact latheCap_eq hn (hlt (Nat.zero_le k))
  · exact latheCap_eq hn (hlt le_rfl)

end

/-! ### The four meshes -/

/-- The meshes with `n` segments are closed, if their vertices can be numbered. A tube needs one number more, for the
end of the range of its upper ring. -/
structure PrimitivesClosed (cos sin : Float → Float) (n : ℕ) : Prop where
  cyl : ∀ rB rT h, (cyl cos sin rB rT h n).v.length < 2 ^ 32 → (cyl cos sin rB rT h n).Closed
  prism : ∀ poly h, poly.length = n → (prism poly h).v.length < 2 ^ 32 → (prism poly h).Closed
  loftRings : ∀ rings, 2 ≤ rings.length → (∀ ring ∈ rings, ring.1.length = n) →
    (loftRings rings).v.length ≤ 2 ^ 32 → (loftRings rings).Closed
  lathe : ∀ prof, 2 ≤ prof.length → (lathe cos sin prof n).v.length ≤ 2 ^ 32 → (lathe cos sin prof n).Closed

/-- **Closed primitives**, for any number of segments, any rings and any profile. -/
theorem primitives_closed (cos sin : Float → Float) {n : ℕ} (hn : 3 ≤ n) : PrimitivesClosed cos sin n where
  cyl rB rT h hsmall := cyl_closed cos sin rB rT h hn (by simpa [cyl, circle, Nat.two_mul] using hsmall)
  prism poly h hpoly hsmall := by
    subst hpoly
    exact prism_closed h hn (by simpa [prism, Nat.two_mul] using hsmall)
  loftRings rings hlen hrings hsmall := loftRings_closed hn hlen hrings (by rwa [length_loftRings_v hrings] at hsmall)
  lathe prof hlen hsmall := lathe_closed hn hlen hsmall

theorem primitives_closed_triangle : PrimitivesClosed Float.cos Float.sin 3 :=
  primitives_closed Float.cos Float.sin le_rfl

/-! ### A tube whose upper end is lost -/

theorem ofNat_inj {a b : ℕ} (ha : a < 2 ^ 32) (hb : b < 2 ^ 32) (h : UInt32.ofNat a = UInt32.ofNat b) : a = b := by
  have htoNat := congrArg UInt32.toNat h
  rwa [UInt32.toNat_ofNat', UInt32.toNat_ofNat', Nat.mod_eq_of_lt ha, Nat.mod_eq_of_lt hb] at htoNat

/-- With 2 ^ 31 segments the end of the range of the upper ring is cut off to 0, so that the ring has no face. -/
theorem tubeFaces_open {n : ℕ} (hn : n = 2 ^ 31) : ¬ Surface.Closed (tubeFaces n) := by
  intro h
  let quad (i : ℕ) : List UInt32 := [.ofNat i, .ofNat ((i + 1) % n), .ofNat (n + (i + 1) % n), .ofNat (n + i)]
  have hfaces : tubeFaces n = (List.range n).map quad ++ [(List.range n).map UInt32.ofNat, []] := by
    have hupper : range32 (.ofNat n) (.ofNat (2 * n)) = [] := by
      rw [range32, UInt32.toNat_ofNat', UInt32.toNat_ofNat', hn]
      rfl
    rw [tubeFaces, range32_zero (by omega), hupper]
  -- the first edge of the upper ring
  let e : Sym2 UInt32 := s(.ofNat n, .ofNat (n + 1))
  have hquad {i : ℕ} (hi : i < n) (he : e ∈ Surface.edges (quad i)) : i = 0 := by
    have hlt : (i + 1) % n < n := Nat.mod_lt _ (by omega)
    have hpair {a b : ℕ} (ha : a < 2 ^ 32) (hb : b < 2 ^ 32) (hab : e = s(.ofNat a, .ofNat b)) :
        n = a ∧ n + 1 = b ∨ n = b ∧ n + 1 = a := by
      rcases Sym2.eq_iff.mp hab with ⟨h₁, h₂⟩ | ⟨h₁, h₂⟩
      · exact Or.inl ⟨ofNat_inj (by omega) ha h₁, ofNat_inj (by omega) hb h₂⟩
      · exact Or.inr ⟨ofNat_inj (by omega) hb h₁, ofNat_inj (by omega) ha h₂⟩
    have hedges : Surface.edges (quad i) = [s(.ofNat i, .ofNat ((i + 1) % n)),
        s(.ofNat ((i + 1) % n), .ofNat (n + (i + 1) % n)), s(.ofNat (n + (i + 1) % n), .ofNat (n + i)),
        s(.ofNat (n + i), .ofNat i)] := rfl
    rw [hedges] at he
    simp only [List.mem_cons, List.not_mem_nil, or_false] at he
    rcases he with he | he | he | he
    · have := hpair (by omega) (by omega) he
      omega
    · have := hpair (by omega) (by omega) he
      omega
    · have hends := hpair (by omega) (by omega) he
      subst hn
      omega
    · have := hpair (by omega) (by omega) he
      omega
  have hlower : e ∉ Surface.edges ((List.range n).map UInt32.ofNat) := by
    intro he
    obtain ⟨i, hi⟩ := Surface.mem_edges.mp he
    have hn' : UInt32.ofNat n ∈ (List.range n).map UInt32.ofNat := by
      rcases Sym2.eq_iff.mp hi with ⟨h₁, -⟩ | ⟨h₁, -⟩
      · exact h₁ ▸ List.get_mem _ _
      · exact h₁ ▸ List.get_mem _ _
    obtain ⟨j, hj, hjn⟩ := List.mem_map.mp hn'
    have hlt := List.mem_range.mp hj
    have := ofNat_inj (by omega) (by omega) hjn
    omega
  have hfirst : e ∈ Surface.edges (quad 0) := by
    have hmod : (0 + 1) % n = 1 := Nat.mod_eq_of_lt (by omega)
    have hedge : e = s(.ofNat (n + (0 + 1) % n), .ofNat (n + 0)) := by
      rw [hmod]
      exact Sym2.eq_swap
    exact List.mem_cons_of_mem _ (List.mem_cons_of_mem _ (hedge ▸ List.mem_cons_self))
  have hcount := h.two e ⟨quad 0, hfaces ▸ List.mem_append_left _
    (List.mem_map_of_mem (List.mem_range.mpr (by omega))), hfirst⟩
  have hquads : (List.range n).countP (fun i => e ∈ Surface.edges (quad i)) ≤ 1 :=
    calc (List.range n).countP (fun i => e ∈ Surface.edges (quad i))
      _ ≤ (List.range n).countP (· == 0) := List.countP_mono_left fun i hi he => by
        simpa using hquad (List.mem_range.mp hi) (of_decide_eq_true he)
      _ ≤ 1 := List.nodup_iff_count_le_one.mp List.nodup_range 0
  have hrest : [(List.range n).map UInt32.ofNat, []].countP (fun face => e ∈ Surface.edges face) = 0 := by
    rw [List.countP_eq_zero, List.forall_mem_cons, List.forall_mem_singleton]
    exact ⟨by simpa using hlower, by simp [Surface.edges]⟩
  rw [hfaces, List.countP_append, List.countP_map, hrest] at hcount
  exact absurd hcount (by simp only [Function.comp_def]; omega)

/-- The cylinder of 2 ^ 31 segments, a number that a model may ask for, is not closed. -/
theorem cyl_open : ¬ (cyl Float.cos Float.sin 1.0 1.0 1.0 (2 ^ 31)).Closed := fun h => tubeFaces_open rfl h.surface

end Forge.Geometry
