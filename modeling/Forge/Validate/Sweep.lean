import Forge.Contract.Lockfile
import Forge.Data.Fixed
import Forge.Geometry.Bvh
import Forge.Geometry.Primitives
import Forge.Motion.Drivers

/-!
# The interference scans

GEO-003 and GEO-008 of `run_checks`: pairs of parts on different nodes whose boxes overlap get a hierarchy of boxes
each (`PartBvh::build`) and are confirmed by it, in the static pose and in the frames of the drive sweep. A hierarchy of
no triangle panics; what `intersects` answers is a parameter.

**`builds_on_triangles_iff`**: every call of `build` is on a mesh with a triangle where the contract keeps its hollow
parts apart (`HollowApart`), and exactly when in no frame a hollow part has a box that overlaps the box of a part on
another node. In the static pose the box of such a part overlaps nothing; in the sweep it spans every double.
-/

namespace Forge.Validate

open Contract Forge.Geometry Forge.Geometry.Doubles

/-- A baked part in the world, with its number and its box. -/
structure Body where
  index : ℕ
  part : BakedPart
  world : F64Mat4
  box : Box

/-- The pairs of an element and a later one, in the order of the nested loops. -/
def pairs {α : Type} : List α → List (α × α)
  | [] => []
  | a :: as => as.map (fun b => (a, b)) ++ pairs as

/-- The tolerance of both scans. -/
def tol : Float := 0.0005

/-- The triangles of a mesh in the world, as the numbers that the doubles are. -/
def triangles (mesh : MeshBuffers) (world : F64Mat4) : List Tri :=
  let v (i : UInt32) : Vec := fun k =>
    floatValue (transformPoint world (fun j => (mesh.positions.getD (i.toNat * 3 + j) 0).toFloat) k)
  (triples mesh.indices).map fun (a, b, c) => ![v a, v b, v c]

/-! ### The scans -/

/-- What the scans have done so far. -/
structure Scan where
  /-- The meshes that `PartBvh::build` was called on. -/
  calls : List MeshBuffers
  /-- The parts that have a hierarchy. -/
  bvhs : List ℕ
  /-- The pairs that intersect, with the time of the frame in which they first did; without one in the static pose. -/
  found : List (ℕ × ℕ × Option Float)

def Scan.seen (s : Scan) (i j : ℕ) : Bool := s.found.any fun f => f.1 = i && f.2.1 = j

/-- `entry(k).or_insert_with(build)`; a panic leaves the calls up to it. -/
def buildBvh (b : Body) (s : Scan) : Except (List MeshBuffers) Scan :=
  if b.index ∈ s.bvhs then .ok s
  else match PartBvh.build (triangles b.part.mesh b.world) with
    | some _ => .ok { s with calls := s.calls ++ [b.part.mesh], bvhs := b.index :: s.bvhs }
    | none => .error (s.calls ++ [b.part.mesh])

section

variable (num : ForgeNum) (meets : Body → Body → Bool) (channels : Drivers.Channels)

/-- Hierarchies for two parts, and whether they intersect. -/
def confirm (t : Option Float) (a b : Body) (s : Scan) : Except (List MeshBuffers) Scan := do
  let s ← buildBvh a s
  let s ← buildBvh b s
  if meets a b then .ok { s with found := s.found ++ [(a.index, b.index, t)] } else .ok s

/-- The parts in the static pose. -/
def staticBodies (parts : List BakedPart) (nodeWorld : BTreeMap String F64Mat4) : List Body :=
  parts.zipIdx.map fun (part, index) =>
    let world := (nodeWorld.get part.node).getD Doubles.identity
    { index, part, world, box := partWorldAabb part.mesh world }

/-- One turn of the loop over the candidates of `aabb_interferences`. -/
def staticPair (s : Scan) (p : Body × Body) : Except (List MeshBuffers) Scan :=
  if p.1.part.node = p.2.part.node ∨ aabbsOverlap p.1.box p.2.box tol = false then .ok s
  else confirm meets none p.1 p.2 s

/-- The parts in a frame. -/
def posedBodies (parts : List BakedPart) (nodeWorld : BTreeMap String F64Mat4) : List Body :=
  parts.zipIdx.map fun (part, index) =>
    let world := (nodeWorld.get part.node).getD Doubles.identity
    { index, part, world, box := transformedAabb (meshLocalAabb part.mesh) world }

/-- One turn of the inner loops of the sweep. -/
def sweepPair (t : Float) (s : Scan) (p : Body × Body) : Except (List MeshBuffers) Scan :=
  if p.1.part.node = p.2.part.node ∨ s.seen p.1.index p.2.index = true ∨ aabbsOverlap p.1.box p.2.box tol = false then
    .ok s
  else confirm meets (some t) p.1 p.2 s

/-- One frame of the sweep. -/
def sweepFrame (spec : ModelSpec) (parts : List BakedPart) (s : Scan) (frame : Float × BTreeMap String NodePose) :
    Except (List MeshBuffers) Scan :=
  match Doubles.nodeWorldPosed num spec frame.2 with
  | .error _ => .ok s
  | .ok nodeWorld => (pairs (posedBodies parts nodeWorld)).foldlM (sweepPair meets frame.1) { s with bvhs := [] }

/-- Both scans. -/
def interference (spec : ModelSpec) (parts : List BakedPart) (nodeWorld : BTreeMap String F64Mat4) :
    Except (List MeshBuffers) Scan := do
  let s ← (pairs (staticBodies parts nodeWorld)).foldlM (staticPair meets) { calls := [], bvhs := [], found := [] }
  (Drivers.frames channels spec).foldlM (sweepFrame num meets spec parts) s

/-- The meshes that `PartBvh::build` is called on. -/
def buildCalls (spec : ModelSpec) (parts : List BakedPart) (nodeWorld : BTreeMap String F64Mat4) : List MeshBuffers :=
  match interference num meets channels spec parts nodeWorld with
  | .ok s => s.calls
  | .error calls => calls

end

/-- The diagnostics of the scans. -/
def Scan.diagnostics (s : Scan) : List Diagnostic :=
  let hits := s.found.filterMap fun (i, j, t) => t.map fun t => (i, j, t)
  (s.found.filter fun f => f.2.2.isNone).map (fun (i, j, _) => {
      check := "GEO-003"
      message := s!"mesh_intersect: parts {i} and {j} interpenetrate (static pose, BVH-confirmed)"
      subject := some ("part", s!"{i}")
      hint := some "deliberate overlap is the design language; confirmed by triangle intersection (XC-09)" }) ++
  (hits.take 8).map (fun (i, j, t) =>
    { check := "GEO-008"
      message := s!"anim_intersect: parts {i} and {j} first interpenetrate at t = " ++
        s!"{String.ofList (formatFixed 2 t)} s (sampled drive sweep)"
      subject := some ("part", s!"{i}")
      hint := some "not present at rest — check joint travel / gait extremes" }) ++
  if 8 < hits.length then
    [{ check := "GEO-008", message := s!"anim_intersect: +{hits.length - 8} more moving pairs (showing first 8)"
       subject := none, hint := none }]
  else []

/-! ### Triangles -/

theorem length_triples {α : Type} (as : List α) : (triples as).length = as.length / 3 := by
  induction as using triples.induct with
  | case1 a b c rest ih =>
    rw [triples, List.length_cons, ih]
    simp only [List.length_cons]
    omega
  | case2 as h =>
    rw [triples]
    · match as, h with
      | [], _ => simp
      | [_], _ => simp
      | [_, _], _ => simp
      | a :: b :: c :: rest, h => exact absurd rfl (h a b c rest)
    · exact h

theorem triangles_ne_nil_iff {mesh : MeshBuffers} {world : F64Mat4} :
    triangles mesh world ≠ [] ↔ 0 < mesh.faceCount := by
  rw [← List.length_pos_iff, triangles, List.length_map, length_triples]
  rfl

/-! ### What the scans keep -/

/-- The part with this number has a triangle. -/
def SolidAt (parts : List BakedPart) (i : ℕ) : Prop := ∃ part, parts[i]? = some part ∧ 0 < part.mesh.faceCount

/-- Nothing was built on no triangle so far. -/
structure Sound (parts : List BakedPart) (s : Scan) : Prop where
  calls : ∀ mesh ∈ s.calls, 0 < mesh.faceCount
  bvhs : ∀ i ∈ s.bvhs, SolidAt parts i
  found : ∀ f ∈ s.found, SolidAt parts f.1 ∧ SolidAt parts f.2.1

/-- A mesh without triangles among those that `build` was called on. -/
def BuiltOnNone (calls : List MeshBuffers) : Prop := ∃ mesh ∈ calls, mesh.faceCount = 0

/-- The body is a part by its number. -/
def Body.Of (parts : List BakedPart) (b : Body) : Prop := parts[b.index]? = some b.part

def Body.Solid (b : Body) : Prop := 0 < b.part.mesh.faceCount

section

variable {parts : List BakedPart} {a b : Body} {s : Scan}

theorem solidAt_iff (h : b.Of parts) : SolidAt parts b.index ↔ b.Solid := by
  constructor
  · rintro ⟨part, hpart, hsolid⟩
    obtain rfl := Option.some.inj (hpart.symm.trans h)
    exact hsolid
  · exact fun hsolid => ⟨_, h, hsolid⟩

theorem succeedsIff_buildBvh (h : b.Of parts) (hs : Sound parts s) :
    SucceedsIff (Sound parts) BuiltOnNone b.Solid (buildBvh b s) := by
  unfold buildBvh
  split_ifs with hbuilt
  · exact .pure ((solidAt_iff h).mp (hs.bvhs _ hbuilt)) hs
  · by_cases hsolid : b.Solid
    · obtain ⟨p, -, hp, -⟩ := PartBvh.build_eq (triangles_ne_nil_iff.mpr hsolid : triangles b.part.mesh b.world ≠ [])
      rw [hp]
      refine .pure hsolid ⟨?_, ?_, hs.found⟩
      · exact List.forall_mem_append.mpr ⟨hs.calls, List.forall_mem_singleton.mpr hsolid⟩
      · exact List.forall_mem_cons.mpr ⟨(solidAt_iff h).mpr hsolid, hs.bvhs⟩
    · have hnil : triangles b.part.mesh b.world = [] := by
        by_contra hne
        exact hsolid (triangles_ne_nil_iff.mp hne)
      rw [hnil, PartBvh.build_nil]
      exact ⟨fun h => absurd h hsolid, fun _ => ⟨_, rfl, b.part.mesh, by simp, by rw [Body.Solid] at hsolid; omega⟩⟩

theorem succeedsIff_confirm {meets : Body → Body → Bool} (t : Option Float) (ha : a.Of parts) (hb : b.Of parts)
    (hs : Sound parts s) : SucceedsIff (Sound parts) BuiltOnNone (a.Solid ∧ b.Solid) (confirm meets t a b s) := by
  by_cases hboth : a.Solid ∧ b.Solid
  · obtain ⟨s₁, h₁, hs₁⟩ := (succeedsIff_buildBvh ha hs).ok hboth.1
    obtain ⟨s₂, h₂, hs₂⟩ := (succeedsIff_buildBvh hb hs₁).ok hboth.2
    have hrun : confirm meets t a b s =
        if meets a b then .ok { s₂ with found := s₂.found ++ [(a.index, b.index, t)] } else .ok s₂ := by
      rw [confirm, h₁]
      change (buildBvh b s₁ >>= _) = _
      rw [h₂]
      rfl
    rw [hrun]
    split_ifs
    · refine .pure hboth ⟨hs₂.calls, hs₂.bvhs, List.forall_mem_append.mpr ⟨hs₂.found, ?_⟩⟩
      exact List.forall_mem_singleton.mpr ⟨(solidAt_iff ha).mpr hboth.1, (solidAt_iff hb).mpr hboth.2⟩
    · exact .pure hboth hs₂
  · refine ⟨fun h => absurd h hboth, fun _ => ?_⟩
    have hbuilds : SucceedsIff (Sound parts) BuiltOnNone (a.Solid ∧ b.Solid) (buildBvh a s >>= buildBvh b) :=
      (succeedsIff_buildBvh ha hs).bind fun _ hs₁ => succeedsIff_buildBvh hb hs₁
    obtain ⟨calls, hcalls, hempty⟩ := hbuilds.error hboth
    refine ⟨calls, ?_, hempty⟩
    have hassoc : confirm meets t a b s = (buildBvh a s >>= buildBvh b) >>= fun s =>
        if meets a b then .ok { s with found := s.found ++ [(a.index, b.index, t)] } else .ok s := by
      rw [bind_assoc]
      rfl
    rw [hassoc, hcalls]
    rfl

/-- The pairs of a list are pairs of its elements. -/
theorem mem_of_mem_pairs {α : Type} {as : List α} {p : α × α} (h : p ∈ pairs as) : p.1 ∈ as ∧ p.2 ∈ as := by
  induction as with
  | nil => cases h
  | cons a as ih =>
    rcases List.mem_append.mp h with h | h
    · obtain ⟨b, hb, rfl⟩ := List.mem_map.mp h
      exact ⟨List.mem_cons_self, List.mem_cons_of_mem _ hb⟩
    · exact ⟨List.mem_cons_of_mem _ (ih h).1, List.mem_cons_of_mem _ (ih h).2⟩

/-! ### The static pose -/

/-- A mesh without triangles has no vertex. -/
def Bare (parts : List BakedPart) : Prop := ∀ part ∈ parts, part.mesh.faceCount = 0 → part.mesh.positions = []

theorem overlap_infinity {a b : Box} (h : a.min 0 = infinity ∨ b.min 0 = infinity) : aabbsOverlap a b tol = false := by
  have hsum : infinity + tol = infinity := by decide +kernel
  rw [aabbsOverlap, List.all_eq_false]
  refine ⟨0, List.mem_finRange 0, ?_⟩
  rcases h with h | h <;> simp [h, hsum, not_infinity_lt]

theorem succeedsIff_staticPair {meets : Body → Body → Bool} {nodeWorld : BTreeMap String F64Mat4} (hbare : Bare parts)
    (hs : Sound parts s) {p : Body × Body} (hp : p ∈ pairs (staticBodies parts nodeWorld)) :
    SucceedsIff (Sound parts) BuiltOnNone True (staticPair meets s p) := by
  have hbody {b : Body} (hb : b ∈ staticBodies parts nodeWorld) :
      b.Of parts ∧ (¬ b.Solid → b.box.min 0 = infinity) := by
    obtain ⟨⟨part, index⟩, hmem, rfl⟩ := List.mem_map.mp hb
    have hget := List.mem_zipIdx_iff_getElem?.mp hmem
    refine ⟨hget, fun hno => ?_⟩
    have hnil := hbare part (List.mem_of_getElem? hget) (Nat.eq_zero_of_not_pos hno)
    simp [partWorldAabb, points, triples, hnil]
  obtain ⟨hmem₁, hmem₂⟩ := mem_of_mem_pairs hp
  unfold staticPair
  split_ifs with hskip
  · exact .pure trivial hs
  · obtain ⟨-, hoverlap⟩ := not_or.mp hskip
    have hsolid : p.1.Solid ∧ p.2.Solid := by
      by_contra hno
      rcases not_and_or.mp hno with hno | hno
      · exact hoverlap (overlap_infinity (.inl ((hbody hmem₁).2 hno)))
      · exact hoverlap (overlap_infinity (.inr ((hbody hmem₂).2 hno)))
    obtain ⟨s', hok, hs'⟩ := (succeedsIff_confirm none (hbody hmem₁).1 (hbody hmem₂).1 hs).ok hsolid
    rw [hok]
    exact .pure trivial hs'

/-! ### The sweep -/

/-- A pair of bodies that the sweep builds on, unless it is skipped, has triangles. -/
def Clear (p : Body × Body) : Prop :=
  p.1.part.node ≠ p.2.part.node → aabbsOverlap p.1.box p.2.box tol = true → p.1.Solid ∧ p.2.Solid

theorem succeedsIff_sweepPair {meets : Body → Body → Bool} (t : Float) (hs : Sound parts s) {p : Body × Body}
    (h₁ : p.1.Of parts) (h₂ : p.2.Of parts) :
    SucceedsIff (Sound parts) BuiltOnNone (Clear p) (sweepPair meets t s p) := by
  unfold sweepPair
  split_ifs with hskip
  · refine .pure (fun hnode hoverlap => ?_) hs
    rcases hskip with hskip | hskip | hskip
    · exact absurd hskip hnode
    · obtain ⟨f, hf, hpair⟩ := List.any_eq_true.mp hskip
      simp only [Bool.and_eq_true, decide_eq_true_eq] at hpair
      obtain ⟨hi, hj⟩ := hs.found f hf
      rw [hpair.1] at hi
      rw [hpair.2] at hj
      exact ⟨(solidAt_iff h₁).mp hi, (solidAt_iff h₂).mp hj⟩
    · rw [hskip] at hoverlap
      cases hoverlap
  · simp only [not_or] at hskip
    obtain ⟨hnode, -, hoverlap⟩ := hskip
    have hclear : Clear p ↔ p.1.Solid ∧ p.2.Solid :=
      ⟨fun h => h hnode (Bool.eq_true_of_not_eq_false hoverlap), fun h _ _ => h⟩
    rw [hclear]
    exact succeedsIff_confirm (some t) h₁ h₂ hs

theorem of_mem_posedBodies {nodeWorld : BTreeMap String F64Mat4} (h : b ∈ posedBodies parts nodeWorld) :
    b.Of parts := by
  obtain ⟨⟨part, index⟩, hmem, rfl⟩ := List.mem_map.mp h
  exact List.mem_zipIdx_iff_getElem?.mp hmem

variable {num : ForgeNum} {meets : Body → Body → Bool} {channels : Drivers.Channels} {spec : ModelSpec}

theorem succeedsIff_sweepFrame (hs : Sound parts s) (frame : Float × BTreeMap String NodePose) :
    SucceedsIff (Sound parts) BuiltOnNone
      (∀ nodeWorld, Doubles.nodeWorldPosed num spec frame.2 = .ok nodeWorld →
        ∀ p ∈ pairs (posedBodies parts nodeWorld), Clear p) (sweepFrame num meets spec parts s frame) := by
  unfold sweepFrame
  cases hw : Doubles.nodeWorldPosed num spec frame.2 with
  | error e => exact .pure (fun _ h => nomatch h) hs
  | ok nodeWorld =>
    simp only [Except.ok.injEq, forall_eq']
    refine .foldlM (fun s hs p hp => ?_) ⟨hs.calls, by simp, hs.found⟩
    obtain ⟨hmem₁, hmem₂⟩ := mem_of_mem_pairs hp
    exact succeedsIff_sweepPair _ hs (of_mem_posedBodies hmem₁) (of_mem_posedBodies hmem₂)

theorem succeedsIff_interference (hbare : Bare parts) (nodeWorld : BTreeMap String F64Mat4) :
    SucceedsIff (Sound parts) BuiltOnNone
      ((∀ p ∈ pairs (staticBodies parts nodeWorld), True) ∧ ∀ frame ∈ Drivers.frames channels spec,
        ∀ nodeWorld, Doubles.nodeWorldPosed num spec frame.2 = .ok nodeWorld →
          ∀ p ∈ pairs (posedBodies parts nodeWorld), Clear p)
      (interference num meets channels spec parts nodeWorld) := by
  have hstart : Sound parts { calls := [], bvhs := [], found := [] } := ⟨by simp, by simp, by simp⟩
  refine .bind (.foldlM (fun s hs p hp => succeedsIff_staticPair hbare hs hp) hstart) fun s hs => ?_
  exact .foldlM (fun s hs frame _ => succeedsIff_sweepFrame hs frame) hs

/-- The calls tell whether the scans went through. -/
theorem buildCalls_iff (hbare : Bare parts) (nodeWorld : BTreeMap String F64Mat4) :
    (∀ mesh ∈ buildCalls num meets channels spec parts nodeWorld, 0 < mesh.faceCount) ↔
      ∀ frame ∈ Drivers.frames channels spec, ∀ nodeWorld, Doubles.nodeWorldPosed num spec frame.2 = .ok nodeWorld →
        ∀ p ∈ pairs (posedBodies parts nodeWorld), Clear p := by
  have hrun := @succeedsIff_interference parts num meets channels spec hbare nodeWorld
  unfold buildCalls
  constructor
  · intro h
    by_contra hno
    obtain ⟨calls, hcalls, mesh, hmesh, hzero⟩ := hrun.error fun hgood => hno hgood.2
    rw [hcalls] at h
    exact absurd (h mesh hmesh) (by omega)
  · intro h
    obtain ⟨s, hok, hs⟩ := hrun.ok ⟨fun _ _ => trivial, h⟩
    rw [hok]
    exact hs.calls

end

/-! ### Baked parts -/

section

variable {K : Type} [DivisionRing K] {E : Exact K} {num : ForgeNum} {display : Float → String} {spec : ModelSpec}
  {baked : BakedModel K}

/-- The geometry of a baked part has no face of three vertices. -/
def HollowPart (spec : ModelSpec) (bp : BakedPart) : Prop :=
  ∃ part, physicalPart spec bp = some part ∧ Primitives.Hollow part.geom

/-- A baked part has the node and the mesh of its physical part. -/
theorem part_of_bake (h : bake E (Primitives.bakePart num display) spec = .ok baked) {bp : BakedPart}
    (hbp : bp ∈ baked.parts) : ∃ e ∈ spec.physicalPartsWithPaths, ∃ counts, physicalPart spec bp = some e.2 ∧
      bp.node = e.2.node ∧ Primitives.bakePart num display e.2.geom e.2.pose = .ok (bp.mesh, counts) := by
  obtain ⟨w, -, hrest⟩ := bind_eq_ok.mp h
  obtain ⟨parts, hparts, hbaked⟩ := bind_eq_ok.mp hrest
  obtain rfl := pure_eq_ok.mp hbaked
  obtain ⟨e, he, hok⟩ := exists_of_mem_mapM hparts hbp
  have hget := List.mem_zipIdx_iff_getElem?.mp he
  unfold bakePart at hok
  split_ifs at hok
  split at hok
  · cases hok
  · cases hok
  next mesh counts hmesh =>
    obtain rfl := Except.ok.inj hok
    exact ⟨e.1, List.mem_of_getElem? hget, counts, by rw [physicalPart, hget]; rfl, rfl, hmesh⟩

theorem solid_iff (h : bake E (Primitives.bakePart num display) spec = .ok baked) {bp : BakedPart}
    (hbp : bp ∈ baked.parts) : 0 < bp.mesh.faceCount ↔ ¬ HollowPart spec bp := by
  obtain ⟨e, -, counts, hpart, -, hmesh⟩ := part_of_bake h hbp
  rw [Nat.pos_iff_ne_zero, ne_eq, Primitives.hollow_iff hmesh, HollowPart]
  simp [hpart]

theorem bare_of_bake (h : bake E (Primitives.bakePart num display) spec = .ok baked) : Bare baked.parts := by
  intro bp hbp hzero
  obtain ⟨e, -, counts, -, -, hmesh⟩ := part_of_bake h hbp
  exact Primitives.positions_eq_nil hmesh hzero

/-- In a frame no part without triangles has a box that overlaps that of a part on another node. -/
def FrameClear (num : ForgeNum) (spec : ModelSpec) (parts : List BakedPart)
    (frame : Float × BTreeMap String NodePose) : Prop :=
  ∀ nodeWorld, Doubles.nodeWorldPosed num spec frame.2 = .ok nodeWorld →
    ∀ p ∈ pairs (posedBodies parts nodeWorld), p.1.part.node ≠ p.2.part.node →
      aabbsOverlap p.1.box p.2.box tol = true → ¬ HollowPart spec p.1.part ∧ ¬ HollowPart spec p.2.part

theorem part_mem {parts : List BakedPart} {nodeWorld : BTreeMap String F64Mat4} {b : Body}
    (h : b ∈ posedBodies parts nodeWorld) : b.part ∈ parts := List.mem_of_getElem? (of_mem_posedBodies h)

/-- The archetypes with a drive sweep. -/
def Swept (spec : ModelSpec) : Prop := spec.meta.archetype = .biped ∨ spec.meta.archetype = .multirotor

/-- Where there is a sweep, a hollow part is on the node of every other part. -/
def HollowApart (spec : ModelSpec) : Prop :=
  Swept spec → ∀ e ∈ spec.physicalPartsWithPaths, Primitives.Hollow e.2.geom →
    ∀ e' ∈ spec.physicalPartsWithPaths, e'.2.node = e.2.node

theorem swept_of_frame {channels : Drivers.Channels} {frame : Float × BTreeMap String NodePose}
    (h : frame ∈ Drivers.frames channels spec) : Swept spec := by
  unfold Drivers.frames at h
  split at h
  next hbiped => exact .inl hbiped
  next hmultirotor => exact .inr hmultirotor
  all_goals cases h

/-- The node of a hollow part is that of every part. -/
theorem HollowApart.node_eq (hapart : HollowApart spec) (hswept : Swept spec)
    (h : bake E (Primitives.bakePart num display) spec = .ok baked) {bp bp' : BakedPart} (hbp : bp ∈ baked.parts)
    (hbp' : bp' ∈ baked.parts) (hhollow : HollowPart spec bp) : bp'.node = bp.node := by
  obtain ⟨e, he, -, hpart, hnode, -⟩ := part_of_bake h hbp
  obtain ⟨e', he', -, -, hnode', -⟩ := part_of_bake h hbp'
  obtain ⟨part, hsome, hhollow⟩ := hhollow
  obtain rfl : e.2 = part := Option.some.inj (hpart.symm.trans hsome)
  rw [hnode, hnode']
  exact hapart hswept e he hhollow e' he'

/-- **Every call of `build` is on a mesh with a triangle** where hollow parts are kept apart, and exactly when all frames
are clear; whatever the transforms of the static pose and the answers about intersections are. -/
theorem builds_on_triangles_iff (num : ForgeNum) (display : Float → String) (meets : Body → Body → Bool)
    (channels : Drivers.Channels) (E : Exact K) (spec : ModelSpec) (baked : BakedModel K)
    (nodeWorld : BTreeMap String F64Mat4) (h : bake E (Primitives.bakePart num display) spec = .ok baked) :
    (HollowApart spec → ∀ mesh ∈ buildCalls num meets channels spec baked.parts nodeWorld, 0 < mesh.faceCount) ∧
      ((∀ mesh ∈ buildCalls num meets channels spec baked.parts nodeWorld, 0 < mesh.faceCount) ↔
        ∀ frame ∈ Drivers.frames channels spec, FrameClear num spec baked.parts frame) := by
  have hclear : (∀ mesh ∈ buildCalls num meets channels spec baked.parts nodeWorld, 0 < mesh.faceCount) ↔
      ∀ frame ∈ Drivers.frames channels spec, FrameClear num spec baked.parts frame := by
    rw [buildCalls_iff (bare_of_bake h)]
    refine forall₂_congr fun frame _ => forall₂_congr fun nodeWorld _ => forall₂_congr fun p hp => ?_
    obtain ⟨hmem₁, hmem₂⟩ := mem_of_mem_pairs hp
    rw [Clear, Body.Solid, Body.Solid, solid_iff h (part_mem hmem₁), solid_iff h (part_mem hmem₂)]
  refine ⟨fun hapart => hclear.mpr fun frame hframe nodeWorld _ p hp hne _ => ?_, hclear⟩
  obtain ⟨hmem₁, hmem₂⟩ := mem_of_mem_pairs hp
  have hnode {a b : Body} (ha : a.part ∈ baked.parts) (hb : b.part ∈ baked.parts) (hhollow : HollowPart spec a.part) :
      b.part.node = a.part.node := hapart.node_eq (swept_of_frame hframe) h ha hb hhollow
  exact ⟨fun hhollow => hne (hnode (part_mem hmem₁) (part_mem hmem₂) hhollow).symm,
    fun hhollow => hne (hnode (part_mem hmem₂) (part_mem hmem₁) hhollow)⟩

end

/-! ### Two needles -/

/-- A part of this form on a node. -/
def partOf (geom : Geom) (node : String) : Part :=
  { node, geom, pose := none, material := .matte, color := "#888888", explode := none, renderBias := none, comp := none
    mass := none, collision := .none }

/-- A contract of this archetype with two parts of one form, half a meter apart. -/
def twoParts (geom : Geom) (archetype : Archetype) : ModelSpec :=
  { glider [hub 0.0, arm] with
    «meta» := { (glider []).meta with archetype }
    parts := [partOf geom "hub", partOf geom "arm"]
    driver := { archetype, params := .null } }

/-- A surface of revolution of two tips. -/
def needle : Geom := .lathe [⟨0.0, 0.0⟩, ⟨0.0, 1.0⟩] none

/-- A pipe of four sides, wider than the two parts are apart. -/
def tube : Geom := .lathe [⟨0.75, 0.0⟩, ⟨0.75, 1.0⟩] (some 4)

def needles (archetype : Archetype) : ModelSpec := twoParts needle archetype

/-- What the passes give the two nodes. -/
theorem resolve_needles {μ : Type} (place : Node → Option μ → μ) :
    Forest.resolve Node.name Node.parent place 2 [hub 0.0, arm] .empty =
      .ok ((BTreeMap.empty.insert "hub" (place (hub 0.0) none)).insert "arm"
        (place arm (some (place (hub 0.0) none)))) := rfl

section

variable (num : ForgeNum) (display : Float → String)

theorem bakePart_needle : ∃ mesh counts,
    Primitives.bakePart num display needle none = .ok (mesh, counts) ∧ mesh.faceCount = 0 ∧ mesh.positions = [] := by
  obtain ⟨mesh, counts, hok⟩ : ∃ mesh counts,
      Primitives.bakePart num display needle none = .ok (mesh, counts) := ⟨_, _, rfl⟩
  have hhollow : Primitives.Hollow needle := by decide +kernel
  have hzero : mesh.faceCount = 0 := (Primitives.hollow_iff hok).mpr hhollow
  exact ⟨mesh, counts, hok, hzero, Primitives.positions_eq_nil hok hzero⟩

/-- One of the two parts, baked. -/
def bakedPart (i : ℕ) (node : String) (mesh : MeshBuffers) (counts : Counts) : BakedPart :=
  { sourcePath := s!"/parts/{i}", partIndex := i, node, material := .matte, color := "#888888", collision := .none
    explode := none, polyVerts := counts.verts, polyFaces := counts.polys, mesh }

variable {num display}

theorem bake_twoParts (E : Exact ℚ) (archetype : Archetype) {geom : Geom} {mesh : MeshBuffers} {counts : Counts}
    (hok : Primitives.bakePart num display geom none = .ok (mesh, counts)) : ∃ baked,
    bake E (Primitives.bakePart num display) (twoParts geom archetype) = .ok baked ∧
      baked.parts = [bakedPart 0 "hub" mesh counts, bakedPart 1 "arm" mesh counts] := by
  have hw : Geometry.nodeWorldTransforms E (twoParts geom archetype) = _ :=
    nodeWorldTransforms_eq_ok.mpr (resolve_needles (Geometry.place E))
  have hparts : (twoParts geom archetype).physicalPartsWithPaths.zipIdx =
      [(("/parts/0", partOf geom "hub"), 0), (("/parts/1", partOf geom "arm"), 1)] := rfl
  refine ⟨_, bind_eq_ok.mpr ⟨_, hw, bind_eq_ok.mpr ⟨_, ?_, rfl⟩⟩, rfl⟩
  rw [hparts]
  have hbuild (node : String) : Primitives.bakePart num display (partOf geom node).geom (partOf geom node).pose =
      .ok (mesh, counts) := hok
  refine mapM_eq_ok.mpr (.cons ?_ (.cons ?_ .nil))
  · rw [bakePart, if_neg (by simp [BTreeMap.get_insert, partOf]), hbuild]
    rfl
  · rw [bakePart, if_neg (by simp [BTreeMap.get_insert, partOf]), hbuild]
    rfl

/-- The functions of `forge_num` at a zero angle. -/
def still : ForgeNum := ⟨fun _ => 0.0, fun _ => 1.0, fun _ _ => 1.0⟩

/-- The poses of the two nodes when the driver has no names for them. -/
def restPoses : BTreeMap String NodePose := .ofList [("hub", Drivers.rest), ("arm", Drivers.rest)]

/-- At rest a node has its translation alone. -/
theorem posedLocal_rest (hsin : num.sin 0.0 = 0.0) (hcos : num.cos 0.0 = 1.0) {n : Node}
    (hget : restPoses.get n.name = some Drivers.rest) (hrot : n.rot = ⟨0.0, 0.0, 0.0⟩) :
    Doubles.posedLocal num restPoses n =
      Doubles.mul (Doubles.translation (addArr3 n.pos ⟨0.0, 0.0, 0.0⟩)) Doubles.identity := by
  have hzero : (0.0 : Float) + 0.0 = 0.0 := by decide +kernel
  have hinner : Doubles.mul (Doubles.rotX still 0.0) (Doubles.rotZ still 0.0) = Doubles.identity :=
    funext (by decide +kernel)
  have houter : Doubles.mul (Doubles.rotY still 0.0) Doubles.identity = Doubles.identity := funext (by decide +kernel)
  have hrotation : Doubles.mul (Doubles.rotY num 0.0) (Doubles.mul (Doubles.rotX num 0.0) (Doubles.rotZ num 0.0)) =
      Doubles.identity := by
    rw [← houter, ← hinner]
    simp only [Doubles.rotX, Doubles.rotY, Doubles.rotZ, hsin, hcos, still]
  rw [Doubles.posedLocal, hget]
  simp only [Doubles.trs, addArr3, hrot, Drivers.rest, hzero, hrotation]

/-- A frame of the two parts. -/
theorem frame_twoParts (channels : Drivers.Channels) (geom : Geom) :
    (Float.ofNat 30 * Drivers.dt, restPoses) ∈ Drivers.frames channels (twoParts geom .biped) := by
  have habsent : ∀ name ∈ Drivers.bipedNodes, name ∉ (Drivers.PoseBuffer.fromSpec (twoParts geom .biped)).names := by
    have hnames : (Drivers.PoseBuffer.fromSpec (twoParts geom .biped)).names = ["hub", "arm"] := rfl
    rw [hnames]
    decide
  have hframes : Drivers.frames channels (twoParts geom .biped) = Drivers.sample Drivers.bipedNodes
      (channels (twoParts geom .biped)) (.fromSpec (twoParts geom .biped)) (List.range 240) := rfl
  rw [hframes, Drivers.sample_absent habsent]
  exact List.mem_map.mpr ⟨29, List.mem_filter.mpr ⟨List.mem_range.mpr (by decide), by decide⟩, rfl⟩

/-- The box that the sweep gives a part without vertices spans all doubles. -/
def everything : Box := ⟨fun _ => largest, fun _ => -largest⟩

theorem placePosed_hub (hsin : num.sin 0.0 = 0.0) (hcos : num.cos 0.0 = 1.0) :
    Doubles.placePosed num restPoses (hub 0.0) none = Doubles.identity := by
  have hlocal : Doubles.mul (Doubles.translation (addArr3 (hub 0.0).pos ⟨0.0, 0.0, 0.0⟩)) Doubles.identity =
      Doubles.identity := funext (by decide +kernel)
  have hidentity : Doubles.mul Doubles.identity Doubles.identity = Doubles.identity := funext (by decide +kernel)
  rw [Doubles.placePosed, posedLocal_rest hsin hcos rfl rfl, hlocal]
  exact hidentity

theorem placePosed_arm (hsin : num.sin 0.0 = 0.0) (hcos : num.cos 0.0 = 1.0) :
    Doubles.placePosed num restPoses arm (some Doubles.identity) = Doubles.translation ⟨0.5, 0.0, 0.0⟩ := by
  have hlocal : Doubles.mul (Doubles.translation (addArr3 arm.pos ⟨0.0, 0.0, 0.0⟩)) Doubles.identity =
      Doubles.translation ⟨0.5, 0.0, 0.0⟩ := funext (by decide +kernel)
  have hidentity : Doubles.mul Doubles.identity (Doubles.translation ⟨0.5, 0.0, 0.0⟩) =
      Doubles.translation ⟨0.5, 0.0, 0.0⟩ := funext (by decide +kernel)
  rw [Doubles.placePosed, posedLocal_rest hsin hcos rfl rfl, hlocal]
  exact hidentity

theorem needles_overlap : aabbsOverlap (transformedAabb everything Doubles.identity)
    (transformedAabb everything (Doubles.translation ⟨0.5, 0.0, 0.0⟩)) tol = true := by
  decide +kernel

end

/-- Two tubes of a biped, with the frames of its sweep. -/
theorem builds_on_triangles_tubes : ∃ baked : BakedModel ℚ,
    bake ⟨fun _ => 0, fun _ => 1, fun _ => by simp⟩ (Primitives.bakePart still fun _ => "") (twoParts tube .biped) =
        .ok baked ∧
      (Float.ofNat 30 * Drivers.dt, restPoses) ∈ Drivers.frames (fun _ _ _ => Drivers.rest) (twoParts tube .biped) ∧
      ∀ nodeWorld, ∀ mesh ∈ buildCalls still (fun _ _ => true) (fun _ _ _ => Drivers.rest) (twoParts tube .biped)
        baked.parts nodeWorld, 0 < mesh.faceCount := by
  obtain ⟨mesh, counts, hok⟩ : ∃ mesh counts,
      Primitives.bakePart still (fun _ => "") tube none = .ok (mesh, counts) := ⟨_, _, rfl⟩
  obtain ⟨baked, h, -⟩ := bake_twoParts ⟨fun _ => 0, fun _ => 1, fun _ => by simp⟩ .biped hok
  have hsolid : ¬ Primitives.Hollow tube := by decide +kernel
  have hparts : (twoParts tube .biped).physicalPartsWithPaths =
      [("/parts/0", partOf tube "hub"), ("/parts/1", partOf tube "arm")] := rfl
  refine ⟨baked, h, frame_twoParts _ tube, fun nodeWorld => ?_⟩
  refine (builds_on_triangles_iff still (fun _ => "") (fun _ _ => true) (fun _ _ _ => Drivers.rest) _
    (twoParts tube .biped) baked nodeWorld h).1 fun _ e he hhollow => ?_
  have hgeom : e.2.geom = tube := by
    rw [hparts] at he
    simp only [List.mem_cons, List.not_mem_nil, or_false] at he
    rcases he with rfl | rfl <;> rfl
  exact absurd (hgeom ▸ hhollow) hsolid

/-- **The needles of a biped panic**, whatever the driver computes: it has no names for their nodes. -/
theorem needles_panic : ∃ spec, ∀ (num : ForgeNum) (display : Float → String) (meets : Body → Body → Bool)
    (channels : Drivers.Channels) (E : Exact ℚ), num.sin 0.0 = 0.0 → num.cos 0.0 = 1.0 →
    ∃ baked, bake E (Primitives.bakePart num display) spec = .ok baked ∧
      ∀ nodeWorld, ∃ mesh ∈ buildCalls num meets channels spec baked.parts nodeWorld, mesh.faceCount = 0 := by
  refine ⟨needles .biped, fun num display meets channels E hsin hcos => ?_⟩
  obtain ⟨mesh, counts, hok, hzero, hbare⟩ := bakePart_needle num display
  obtain ⟨baked, hbake, hparts⟩ := bake_twoParts E .biped hok
  refine ⟨baked, hbake, fun nodeWorld => ?_⟩
  by_contra hno
  have hsolid : ∀ mesh ∈ buildCalls num meets channels (needles .biped) baked.parts nodeWorld, 0 < mesh.faceCount :=
    fun mesh hmesh => Nat.pos_of_ne_zero fun hmesh' => hno ⟨mesh, hmesh, hmesh'⟩
  have hw : Doubles.nodeWorldPosed num (needles .biped) restPoses = _ :=
    mapError_eq_ok.mpr (resolve_needles (Doubles.placePosed num restPoses))
  have hlocal : meshLocalAabb mesh = everything := by rw [meshLocalAabb, points, hbare]; rfl
  let world := Doubles.placePosed num restPoses (hub 0.0) none
  let low : Body := ⟨0, bakedPart 0 "hub" mesh counts, world, transformedAabb (meshLocalAabb mesh) world⟩
  let world' := Doubles.placePosed num restPoses arm (some world)
  let high : Body := ⟨1, bakedPart 1 "arm" mesh counts, world', transformedAabb (meshLocalAabb mesh) world'⟩
  have hpairs : pairs (posedBodies baked.parts ((BTreeMap.empty.insert "hub" world).insert "arm" world')) =
      [(low, high)] := by
    rw [hparts]
    simp [pairs, posedBodies, BTreeMap.get_insert, bakedPart, low, high]
  have hclear := (buildCalls_iff (bare_of_bake hbake) nodeWorld).mp hsolid _ (frame_twoParts channels needle) _ hw (low, high)
    (hpairs ▸ List.mem_singleton_self _)
  have hnodes : low.part.node ≠ high.part.node := show "hub" ≠ "arm" by decide
  have hoverlap : aabbsOverlap low.box high.box tol = true := by
    change aabbsOverlap (transformedAabb (meshLocalAabb mesh) (Doubles.placePosed num restPoses (hub 0.0) none))
      (transformedAabb (meshLocalAabb mesh) (Doubles.placePosed num restPoses arm
        (some (Doubles.placePosed num restPoses (hub 0.0) none)))) tol = true
    rw [hlocal, placePosed_hub hsin hcos, placePosed_arm hsin hcos]
    exact needles_overlap
  have hpos : 0 < mesh.faceCount := (hclear hnodes hoverlap).1
  omega

end Forge.Validate
