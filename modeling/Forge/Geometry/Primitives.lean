import Forge.Geometry.Doubles
import Forge.Geometry.PolyMesh

/-!
# Primitives

The mesh of a part (`primitives.rs`): its geometry is built as a polygon mesh, posed, and cut into fans of triangles
that face outward.

**`faceCount_eq_zero_iff`**: a part whose mesh has no triangle is a surface of revolution all of whose points are tips,
or a loft whose number of segments is cut off to none.
-/

namespace Forge.Geometry.Primitives

open Contract Doubles

/-! ### Boxes -/

/-- `taper` -/
def taper (wB dB wT dT h : Float) : PolyMesh :=
  let (xb, zb, xt, zt, y) := (wB / 2.0, dB / 2.0, wT / 2.0, dT / 2.0, h / 2.0)
  { v := [⟨-xb, -y, -zb⟩, ⟨xb, -y, -zb⟩, ⟨xb, -y, zb⟩, ⟨-xb, -y, zb⟩,
          ⟨-xt, y, -zt⟩, ⟨xt, y, -zt⟩, ⟨xt, y, zt⟩, ⟨-xt, y, zt⟩]
    f := [[0, 1, 2, 3], [4, 5, 6, 7], [0, 1, 5, 4], [1, 2, 6, 5], [2, 3, 7, 6], [3, 0, 4, 7]] }

/-- `cuboid` -/
def cuboid (w h d : Float) : PolyMesh := taper w d w d h

/-- `ci`: the number of a corner by its signs. -/
def corner (sx sy sz : ℤ) : UInt32 := (if sx < 0 then 4 else 0) + (if sy < 0 then 2 else 0) + if sz < 0 then 1 else 0

/-- The signs of the corners in the order of their numbers. -/
def corners : List (Float × Float × Float) :=
  [(1.0, 1.0, 1.0), (1.0, 1.0, -1.0), (1.0, -1.0, 1.0), (1.0, -1.0, -1.0),
   (-1.0, 1.0, 1.0), (-1.0, 1.0, -1.0), (-1.0, -1.0, 1.0), (-1.0, -1.0, -1.0)]

/-- `sgn` -/
def sgn : List ℤ := [1, -1]

/-- `cbox`: a box with its edges cut by `c`. -/
def cbox (w h d c : Float) : PolyMesh :=
  let (x, y, z) := (w / 2.0, h / 2.0, d / 2.0)
  let c := fmin (fmin (fmin c (x * 0.45)) (y * 0.45)) (z * 0.45)
  { v := corners.flatMap fun (sx, sy, sz) =>
      [⟨sx * x, sy * (y - c), sz * (z - c)⟩, ⟨sx * (x - c), sy * y, sz * (z - c)⟩,
       ⟨sx * (x - c), sy * (y - c), sz * z⟩]
    f := [[corner 1 1 1 * 3, corner 1 1 (-1) * 3, corner 1 (-1) (-1) * 3, corner 1 (-1) 1 * 3],
          [corner (-1) 1 1 * 3, corner (-1) (-1) 1 * 3, corner (-1) (-1) (-1) * 3, corner (-1) 1 (-1) * 3],
          [corner 1 1 1 * 3 + 1, corner (-1) 1 1 * 3 + 1, corner (-1) 1 (-1) * 3 + 1, corner 1 1 (-1) * 3 + 1],
          [corner 1 (-1) 1 * 3 + 1, corner 1 (-1) (-1) * 3 + 1, corner (-1) (-1) (-1) * 3 + 1,
            corner (-1) (-1) 1 * 3 + 1],
          [corner 1 1 1 * 3 + 2, corner 1 (-1) 1 * 3 + 2, corner (-1) (-1) 1 * 3 + 2, corner (-1) 1 1 * 3 + 2],
          [corner 1 1 (-1) * 3 + 2, corner (-1) 1 (-1) * 3 + 2, corner (-1) (-1) (-1) * 3 + 2,
            corner 1 (-1) (-1) * 3 + 2]] ++
      (sgn.flatMap fun sx => sgn.map fun sy =>
        let (a, b) := (corner sx sy 1, corner sx sy (-1))
        [a * 3, a * 3 + 1, b * 3 + 1, b * 3]) ++
      (sgn.flatMap fun sx => sgn.map fun sz =>
        let (a, b) := (corner sx 1 sz, corner sx (-1) sz)
        [a * 3, a * 3 + 2, b * 3 + 2, b * 3]) ++
      (sgn.flatMap fun sy => sgn.map fun sz =>
        let (a, b) := (corner 1 sy sz, corner (-1) sy sz)
        [a * 3 + 1, a * 3 + 2, b * 3 + 2, b * 3 + 1]) ++
      (List.range 8).map fun i => [.ofNat i * 3, .ofNat i * 3 + 1, .ofNat i * 3 + 2] }

/-! ### Building a geometry -/

section

variable (num : ForgeNum) (display : Float → String)

/-- `f64::signum` -/
def signum (x : Float) : Float := if x.isNaN then x else if x.toBits < 0x8000000000000000 then 1.0 else -1.0

/-- `superellipse` -/
def superellipse (rx rz p : Float) (nPerQuadrant : ℕ) : List (Arr2 Float) :=
  let n := 4 * nPerQuadrant
  let k := 2.0 / p
  (List.range n).map fun i =>
    let t := Float.ofNat i / Float.ofNat n * 6.283185307179586
    let s := num.sin t
    let c := num.cos t
    ⟨rx * num.pow c.abs k * signum c, rz * num.pow s.abs k * signum s⟩

/-- `check_pos` -/
def checkPos (dims : List (String × Float)) : Except BuildError Unit :=
  dims.forM fun (name, v) =>
    if !v.isFinite || v ≤ 0.0 then .error (.degenerate s!"{name} must be finite and > 0, got {display v}") else .ok ()

/-- The exponent and the segments per quadrant of a loft. -/
def loftSection : LoftProfile → Float × ℕ
  | .sq e n => (e, (max n 2).toNat)
  | .circle n => (2.0, (max n 2).toNat)

/-- `build` -/
def build : Geom → Except BuildError PolyMesh
  | .box w h d => do
    checkPos display [("w", w), ("h", h), ("d", d)]
    pure (cuboid w h d)
  | .cbox w h d ch => do
    checkPos display [("w", w), ("h", h), ("d", d)]
    pure (cbox w h d ch)
  | .taper w0 d0 w1 d1 h => do
    checkPos display [("w0", w0), ("d0", d0), ("h", h)]
    pure (taper w0 d0 (fmax w1 1e-9) (fmax d1 1e-9) h)
  | .cyl r0 r1 h n => do
    checkPos display [("r0", r0), ("h", h)]
    pure (cyl num.cos num.sin r0 (fmax (r1.getD r0) 0.0) h (max (n.getD 24) 3).toNat)
  | .lathe profile n =>
    if profile.length < 2 then .error (.degenerate "lathe profile needs ≥ 2 points")
    else .ok (lathe num.cos num.sin profile (max (n.getD 24) 3).toNat)
  | .squircle rx rz h e n => do
    checkPos display [("rx", rx), ("rz", rz), ("h", h)]
    pure (prism (superellipse num rx rz (fmax e 0.5) (max (n.getD 8) 2).toNat) h)
  | .loft profile stations =>
    if stations.length < 2 then .error (.degenerate "loft needs ≥ 2 stations")
    else
      let (defaultE, n) := loftSection profile
      let sorted := stations.mergeSort fun a b => !decide (b.y < a.y)
      .ok (loftRings (sorted.map fun st =>
        let p := match st.r with
          | some r => 2.0 / fmin (fmax r 0.05) 1.0
          | none => defaultE
        (superellipse num (fmax st.sx 1e-9) (fmax st.sz 1e-9) p n, st.y)))
  | .mesh assetRef => .error (.meshRef assetRef)

/-! ### Baking a part -/

/-- `part_matrix` -/
def partMatrix (pose : PartPose) : F64Mat4 :=
  let s : F64Mat4 := ![pose.s.x, 0.0, 0.0, 0.0, 0.0, pose.s.y, 0.0, 0.0, 0.0, 0.0, pose.s.z, 0.0, 0.0, 0.0, 0.0, 1.0]
  mul (Doubles.translation pose.p)
    (mul (Doubles.rotY num pose.r.y) (mul (Doubles.rotX num pose.r.x) (mul (Doubles.rotZ num pose.r.z) s)))

def sub (a b : Vec3) : Vec3 := fun k => a k - b k

def cross (a b : Vec3) : Vec3 := ![a 1 * b 2 - a 2 * b 1, a 2 * b 0 - a 0 * b 2, a 0 * b 1 - a 1 * b 0]

def dot (a b : Vec3) : Float := a 0 * b 0 + a 1 * b 1 + a 2 * b 2

/-- `normalize` -/
def normalize (a : Vec3) : Vec3 :=
  let l := (dot a a).sqrt
  if l < 1e-18 then ![0.0, 1.0, 0.0] else fun k => a k / l

/-- The mean of some points. -/
def centroid (points : List Vec3) : Vec3 := fun k =>
  (points.foldl (fun sum p => sum + p k) 0.0) * (1.0 / Float.ofNat (max points.length 1))

/-- `push_tri` -/
def pushTri (n : Vec3) (out : MeshBuffers) (a b c : Vec3) : MeshBuffers :=
  let base := UInt32.ofNat (out.positions.length / 3)
  { positions := out.positions ++ [a, b, c].flatMap fun p => [(p 0).toFloat32, (p 1).toFloat32, (p 2).toFloat32]
    normals := out.normals ++ [a, b, c].flatMap fun _ => [(n 0).toFloat32, (n 1).toFloat32, (n 2).toFloat32]
    indices := out.indices ++ [base, base + 1, base + 2] }

/-- The pairs of neighbours in a list. -/
def neighbours {α : Type} (as : List α) : List (α × α) := as.zip as.tail

/-- A vertex by its index; one that is out of range panics in the source. -/
def vertexOf (verts : List Vec3) (k : UInt32) : Vec3 := verts.getD k.toNat fun _ => 0.0

/-- One turn of the loop over the faces; `c` is the mean of all vertices. -/
def pushFace (verts : List Vec3) (c : Vec3) (out : MeshBuffers) (face : List UInt32) : MeshBuffers :=
  if face.length < 3 then out
  else
    let corner (k : ℕ) : Vec3 := vertexOf verts (face.getD k 0)
    let n := cross (sub (corner 1) (corner 0)) (sub (corner 2) (corner 0))
    let inward : Bool := dot n (sub (centroid (face.map (vertexOf verts))) c) < 0.0
    let indices := if inward then face.reverse else face
    let n := normalize (if inward then fun k => -n k else n)
    let base := vertexOf verts (indices.getD 0 0)
    (neighbours indices.tail).foldl (fun out e => pushTri n out base (vertexOf verts e.1) (vertexOf verts e.2)) out

/-- `bake_part` -/
def bakePart (geom : Geom) (pose : Option PartPose) : Except BuildError (MeshBuffers × Counts) := do
  let mesh ← build num display geom
  let verts := mesh.v.map fun q => transformPoint (partMatrix num (pose.getD .default)) (.ofArr q)
  pure (mesh.f.foldl (pushFace verts (centroid verts)) { positions := [], normals := [], indices := [] },
    { verts := mesh.v.length, polys := mesh.f.length })

end

/-! ### How many triangles there are -/

theorem length_neighbours {α : Type} (as : List α) : (neighbours as).length = as.length - 1 := by
  rw [neighbours, List.length_zip, List.length_tail]
  omega

/-- The buffers hold these many triangles. -/
def Holds (mesh : MeshBuffers) (n : ℕ) : Prop := mesh.indices.length = 3 * n ∧ mesh.positions.length = 9 * n

theorem holds_pushTri {n : ℕ} {out : MeshBuffers} (h : Holds out n) (m a b c : Vec3) :
    Holds (pushTri m out a b c) (n + 1) := by
  obtain ⟨hi, hp⟩ := h
  constructor
  · simp [pushTri, hi, Nat.mul_succ]
  · simp [pushTri, hp, Nat.mul_succ]

theorem holds_foldl_pushTri {m base : Vec3} {verts : List Vec3} (pairs : List (UInt32 × UInt32)) {n : ℕ}
    {out : MeshBuffers} (h : Holds out n) :
    Holds (pairs.foldl (fun out e => pushTri m out base (vertexOf verts e.1) (vertexOf verts e.2)) out)
      (n + pairs.length) := by
  induction pairs generalizing n out with
  | nil => exact h
  | cons e pairs ih =>
    rw [List.foldl_cons, List.length_cons, Nat.add_comm pairs.length, ← Nat.add_assoc]
    exact ih (holds_pushTri h _ _ _ _)

/-- A face is cut into as many triangles as it has vertices, less two. -/
theorem holds_pushFace {verts : List Vec3} {c : Vec3} {n : ℕ} {out : MeshBuffers} (h : Holds out n)
    (face : List UInt32) : Holds (pushFace verts c out face) (n + (face.length - 2)) := by
  unfold pushFace
  split_ifs with hlen
  · rwa [show face.length - 2 = 0 by omega, Nat.add_zero]
  · dsimp only
    have hcount (indices : List UInt32) (hi : indices.length = face.length) :
        (neighbours indices.tail).length = face.length - 2 := by
      rw [length_neighbours, List.length_tail, hi]
      omega
    split_ifs
    · rw [← hcount face.reverse (by simp)]
      exact holds_foldl_pushTri _ h
    · rw [← hcount face rfl]
      exact holds_foldl_pushTri _ h

theorem holds_foldl_pushFace {verts : List Vec3} {c : Vec3} (faces : List (List UInt32)) {n : ℕ} {out : MeshBuffers}
    (h : Holds out n) :
    Holds (faces.foldl (pushFace verts c) out) (n + (faces.map fun face => face.length - 2).sum) := by
  induction faces generalizing n out with
  | nil => exact h
  | cons face faces ih =>
    rw [List.foldl_cons, List.map_cons, List.sum_cons, ← Nat.add_assoc]
    exact ih (holds_pushFace h face)

variable {num : ForgeNum} {display : Float → String} {geom : Geom} {pose : Option PartPose} {mesh : MeshBuffers}
  {counts : Counts}

/-- A part has the triangles of the faces of its geometry. -/
theorem holds_bakePart (h : bakePart num display geom pose = .ok (mesh, counts)) : ∃ poly,
    build num display geom = .ok poly ∧ Holds mesh (poly.f.map fun face => face.length - 2).sum := by
  obtain ⟨poly, hpoly, hmesh⟩ := bind_eq_ok.mp h
  refine ⟨poly, hpoly, ?_⟩
  obtain ⟨rfl, -⟩ := Prod.mk.inj (pure_eq_ok.mp hmesh)
  have hempty : Holds { positions := [], normals := [], indices := [] } 0 := ⟨rfl, rfl⟩
  simpa using holds_foldl_pushFace poly.f hempty

/-! ### Parts without triangles -/

/-- The geometry has no face of three vertices. -/
def Hollow : Geom → Prop
  | .lathe profile _ => ∀ p ∈ profile, isTip p = true
  | .loft profile _ => 4 * (loftSection profile).2 % 2 ^ 32 = 0
  | _ => False

instance : DecidablePred Hollow := fun geom => match geom with
  | .lathe .. => inferInstanceAs (Decidable (∀ p ∈ _, _))
  | .loft .. => inferInstanceAs (Decidable (_ = _))
  | .box .. | .cbox .. | .taper .. | .cyl .. | .squircle .. | .mesh .. => inferInstanceAs (Decidable False)

theorem sum_eq_zero_iff {faces : List (List UInt32)} :
    (faces.map fun face => face.length - 2).sum = 0 ↔ ∀ face ∈ faces, face.length ≤ 2 := by
  rw [List.sum_eq_zero_iff, List.forall_mem_map]
  simp only [Nat.sub_eq_zero_iff_le]

theorem tubeFaces_solid {n : ℕ} (hn : 0 < n) : ¬ ∀ face ∈ tubeFaces n, face.length ≤ 2 := by
  intro h
  have hquad := h _ (List.mem_append_left _ (List.mem_map_of_mem (List.mem_range.mpr hn)))
  simp at hquad

theorem length_range32 (m : ℕ) : (range32 0 (.ofNat m)).length = m % 2 ^ 32 := by
  simp [range32]

theorem exists_mem_range32 {m : ℕ} (hm : m % 2 ^ 32 ≠ 0) : ∃ i, i ∈ range32 0 (.ofNat m) := by
  refine List.exists_mem_of_ne_nil _ fun hnil => hm ?_
  rw [← length_range32, hnil, List.length_nil]

theorem lathe_hollow_iff {profile : List (Arr2 Float)} {n : ℕ} (hlen : 2 ≤ profile.length) (hn : 3 ≤ n)
    (hsmall : n < 2 ^ 32) :
    (∀ face ∈ (lathe num.cos num.sin profile n).f, face.length ≤ 2) ↔ ∀ p ∈ profile, isTip p = true := by
  obtain ⟨k, hk⟩ : ∃ k, profile.length = k + 1 := ⟨profile.length - 1, by omega⟩
  have hmod : n % 2 ^ 32 = n := Nat.mod_eq_of_lt hsmall
  have htip {j : ℕ} (hj : j < profile.length) : tipAt profile j = isTip profile[j] := by
    rw [tipAt, List.getElem?_eq_getElem hj]
    rfl
  rw [lathe_f hk]
  constructor
  · intro h p hp
    by_contra hno
    obtain ⟨j, hj, rfl⟩ := List.getElem_of_mem hp
    have hring : (ringAt num.cos num.sin n profile j).n = n := by
      rw [ringAt, ringSize, htip hj, Bool.eq_false_iff.mpr hno]
      rfl
    cases j with
    | zero =>
      have hcap := h (around n (ringAt num.cos num.sin n profile 0).i) (List.mem_append_left _ (List.mem_append_right _
        (by simp [latheCap, hring])))
      rw [around, List.length_map, length_range32, hmod] at hcap
      omega
    | succ j =>
      obtain ⟨i, hi⟩ := exists_mem_range32 (m := n) (by omega)
      have hband : ∃ face ∈ latheBand n (ringAt num.cos num.sin n profile j)
          (ringAt num.cos num.sin n profile (j + 1)), 2 < face.length := by
        have hbelow : (ringAt num.cos num.sin n profile j).n = n ∨ (ringAt num.cos num.sin n profile j).n = 1 := by
          rw [ringAt, ringSize]
          split_ifs
          · exact .inr rfl
          · exact .inl rfl
        rw [latheBand]
        rcases hbelow with hbelow | hbelow
        · rw [if_pos ⟨hbelow, hring⟩]
          exact ⟨_, List.mem_map_of_mem hi, by simp⟩
        · rw [if_neg (by omega), if_neg (by omega), if_pos ⟨hbelow, hring⟩]
          exact ⟨_, List.mem_map_of_mem hi, by simp⟩
      obtain ⟨face, hface, hlong⟩ := hband
      have := h face (List.mem_append_left _ (List.mem_append_left _ (List.mem_flatMap.mpr
        ⟨j, List.mem_range.mpr (by omega), hface⟩)))
      omega
  · intro h
    have hring {j : ℕ} (hj : j ≤ k) : (ringAt num.cos num.sin n profile j).n = 1 := by
      rw [ringAt, ringSize, htip (by omega), h _ (List.getElem_mem _)]
      rfl
    have hcap {j : ℕ} (hj : j ≤ k) : latheCap n (some (ringAt num.cos num.sin n profile j)) = [] := by
      rw [latheCap, hring hj, if_neg (by omega)]
    have hband {j : ℕ} (hj : j < k) :
        latheBand n (ringAt num.cos num.sin n profile j) (ringAt num.cos num.sin n profile (j + 1)) = [] := by
      rw [latheBand, hring hj.le, hring hj, if_neg (by omega), if_neg (by omega), if_neg (by omega)]
    rw [hcap (Nat.zero_le k), hcap le_rfl, List.append_nil, List.append_nil]
    intro face hface
    obtain ⟨j, hj, hface⟩ := List.mem_flatMap.mp hface
    rw [hband (List.mem_range.mp hj)] at hface
    cases hface

theorem loftRings_hollow_iff {rings : List (List (Arr2 Float) × Float)} {m : ℕ} (hlen : 2 ≤ rings.length)
    (hrings : ∀ ring ∈ rings, ring.1.length = m) :
    (∀ face ∈ (loftRings rings).f, face.length ≤ 2) ↔ m % 2 ^ 32 = 0 := by
  have hhead : (rings.head?.map fun ring => ring.1.length).getD 0 = m := by
    cases rings with
    | nil => simp at hlen
    | cons ring rings => exact hrings ring List.mem_cons_self
  rw [loftRings, hhead]
  constructor
  · intro h
    by_contra hne
    obtain ⟨i, hi⟩ := exists_mem_range32 hne
    have hquad := h _ (List.mem_append_left _ (List.mem_flatMap.mpr ⟨0, List.mem_range.mpr (by omega),
      List.mem_map_of_mem hi⟩))
    simp at hquad
  · intro hzero face hface
    have hnil : range32 0 (.ofNat m) = [] := List.length_eq_zero_iff.mp ((length_range32 m).trans hzero)
    simp [quads, around, hnil] at hface
    rw [hface]
    exact Nat.zero_le 2

theorem length_superellipse (rx rz p : Float) (n : ℕ) : (superellipse num rx rz p n).length = 4 * n := by
  simp [superellipse]

theorem le_toNat_max (a b : UInt32) : b.toNat ≤ (max a b).toNat := by
  rw [show max a b = if a ≤ b then b else a from rfl]
  split_ifs with h
  · exact le_rfl
  · exact (not_le.mp fun hle => h (UInt32.le_iff_toNat_le.mpr hle)).le

/-- **Parts without triangles** are turned from tips alone, or lofted with no segment. -/
theorem hollow_iff (h : bakePart num display geom pose = .ok (mesh, counts)) : mesh.faceCount = 0 ↔ Hollow geom := by
  obtain ⟨poly, hpoly, hi, -⟩ := holds_bakePart h
  have hcount : mesh.faceCount = (poly.f.map fun face => face.length - 2).sum := by
    rw [MeshBuffers.faceCount, hi, Nat.mul_div_cancel_left _ (by omega)]
  rw [hcount, sum_eq_zero_iff]
  cases geom with
  | box w h d =>
    obtain ⟨-, hpoly⟩ := check_eq_ok.mp hpoly
    obtain rfl := pure_eq_ok.mp hpoly
    simp [Hollow, cuboid, taper]
  | cbox w h d ch =>
    obtain ⟨-, hpoly⟩ := check_eq_ok.mp hpoly
    obtain rfl := pure_eq_ok.mp hpoly
    simp [Hollow, cbox]
  | taper w0 d0 w1 d1 h =>
    obtain ⟨-, hpoly⟩ := check_eq_ok.mp hpoly
    obtain rfl := pure_eq_ok.mp hpoly
    simp [Hollow, taper]
  | cyl r0 r1 h n =>
    obtain ⟨-, hpoly⟩ := check_eq_ok.mp hpoly
    obtain rfl := pure_eq_ok.mp hpoly
    have hn := le_toNat_max (n.getD 24) 3
    exact iff_of_false (tubeFaces_solid (Nat.lt_of_lt_of_le (by decide) hn)) id
  | lathe profile n =>
    obtain ⟨hlen, hpoly⟩ := ite_error_eq_ok.mp hpoly
    obtain rfl := Except.ok.inj hpoly
    exact lathe_hollow_iff (not_lt.mp hlen) (le_toNat_max (n.getD 24) 3) (UInt32.toNat_lt _)
  | squircle rx rz h e n =>
    obtain ⟨-, hpoly⟩ := check_eq_ok.mp hpoly
    obtain rfl := pure_eq_ok.mp hpoly
    have hn : 2 ≤ (max (n.getD 8) 2).toNat := le_toNat_max (n.getD 8) 2
    exact iff_of_false (tubeFaces_solid (by rw [length_superellipse]; omega)) id
  | loft profile stations =>
    obtain ⟨hlen, hpoly⟩ := ite_error_eq_ok.mp hpoly
    obtain rfl := Except.ok.inj hpoly
    refine loftRings_hollow_iff ?_ fun ring hring => ?_
    · rw [List.length_map, List.length_mergeSort]
      exact not_lt.mp hlen
    · obtain ⟨st, -, rfl⟩ := List.mem_map.mp hring
      exact length_superellipse _ _ _ _
  | mesh assetRef => cases hpoly

/-- A mesh without triangles has no vertex. -/
theorem positions_eq_nil (h : bakePart num display geom pose = .ok (mesh, counts)) (hzero : mesh.faceCount = 0) :
    mesh.positions = [] := by
  obtain ⟨poly, -, hi, hp⟩ := holds_bakePart h
  rw [MeshBuffers.faceCount, hi, Nat.mul_div_cancel_left _ (by omega)] at hzero
  rw [hzero, Nat.mul_zero] at hp
  exact List.length_eq_zero_iff.mp hp

end Forge.Geometry.Primitives
