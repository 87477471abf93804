import Forge.Data.Printed
import Forge.Data.RigidBody
import Forge.Data.Walk
import Forge.Geometry.MassProps
import Forge.Geometry.Primitives

/-!
# The inertials of an export

`node_inertial` sums up the masses and inertias of the parts on a node, and `to_urdf` and `to_mjcf` print them with six
decimals for every node heavier than `1e-9`. Numbers are exact until they are printed.

The **key result** `inertials_iff` says when what a reader gets is physical (`Physical`): the masses always add up to
the mass of the model, but each mass and each moment is read as positive, and no node is left out, exactly when on every
node with parts they are above half a unit of the sixth decimal (`AboveHalfUnit`). `cube_moments_vanish` is a model
whose moments are printed as zero.
-/

namespace Forge.Export

open Contract Forge.Geometry

/-! ### Masses -/

/-- The numbers in the buffers of a mesh; an index out of range panics in the source. -/
def exactMesh (mesh : MeshBuffers) : MassProps.Mesh ℚ :=
  if h : 3 ∣ mesh.positions.length ∧ 3 ∣ mesh.indices.length ∧
      ∀ i ∈ mesh.indices.map UInt32.toNat, 3 * i + 2 < mesh.positions.length then
    { positions := mesh.positions.map fun x => float32Value x
      indices := mesh.indices.map UInt32.toNat
      wholeVertices := by simpa using h.1
      wholeTriangles := by simpa using h.2.1
      inRange := by simpa only [List.length_map] using h.2.2 }
  else { positions := [], indices := [], wholeVertices := by simp, wholeTriangles := by simp, inRange := by simp }

/-- `default_density_kgm3` -/
def defaultDensityKgm3 : MaterialClass → ℚ
  | .gloss | .satin | .matte => 1200
  | .metal => 2700
  | .rubber => 1100

/-- `part_mass_g`; `volume` is that of the mesh. -/
def exactMassG (mass : Option MassSpec) (material : MaterialClass) (volume : ℚ) : ℚ :=
  match mass.bind MassSpec.valueG, mass.bind MassSpec.densityKgm3 with
  | some g, _ => floatValue g
  | none, some d => volume * floatValue d * 1000
  | none, none => volume * defaultDensityKgm3 material * 1000

/-- The mass of a baked part, in grams. -/
def bakedMassG (physicalParts : List (String × Part)) (bp : BakedPart) : ℚ :=
  (physicalParts[bp.partIndex]?).elim 0 fun e =>
    exactMassG e.2.mass e.2.material (MassProps.compute (exactMesh bp.mesh)).volume

/-- `model_mass_g` -/
def exactModelMassG (spec : ModelSpec) (parts : List BakedPart) : ℚ :=
  (parts.map (bakedMassG spec.physicalPartsWithPaths)).sum

/-! ### The inertial of a node -/

/-- A sourced component mass attached to one contract node, in the order `[ixx, iyy, izz, ixy, iyz, ixz]`. -/
structure LumpedInertial where
  node : String
  massKg : Float
  comM : Fin 3 → Float
  inertiaKgM2 : Fin 6 → Float

structure PartTerm where
  m : ℚ
  com : Fin 3 → ℚ
  inertiaCom : Fin 6 → ℚ

structure NodeInertial where
  massKg : ℚ
  comZup : Fin 3 → ℚ
  /-- `[ixx, iyy, izz, ixy, ixz, iyz]` about the centre of mass. -/
  inertiaZup : Fin 6 → ℚ

/-- The term of a baked part; where there is hardly any volume it has no inertia of its own. -/
def partTerm (physicalParts : List (String × Part)) (bp : BakedPart) : PartTerm :=
  let mp := MassProps.compute (exactMesh bp.mesh)
  let m := bakedMassG physicalParts bp / 1000
  let density := if 1 / 10 ^ 12 < |mp.volume| then m / mp.volume else 0
  let i := mp.inertiaUnitDensity
  { m
    com := ![mp.com.x, mp.com.y, mp.com.z]
    inertiaCom := fun k => ![i.ixx, i.iyy, i.izz, i.ixy, i.iyz, i.ixz] k * density }

def lumpedTerm (term : LumpedInertial) : PartTerm where
  m := floatValue term.massKg
  com k := floatValue (term.comM k)
  inertiaCom k := floatValue (term.inertiaKgM2 k)

/-- `terms` -/
def nodeTerms (physicalParts : List (String × Part)) (parts : List BakedPart) (node : String)
    (lumped : List LumpedInertial) : List PartTerm :=
  (parts.filter fun bp => bp.node = node).map (partTerm physicalParts) ++
    (lumped.filter fun term => term.node = node).map lumpedTerm

/-- What a term adds to the inertia about a centre. -/
def PartTerm.about (com : Fin 3 → ℚ) (t : PartTerm) : Fin 6 → ℚ :=
  let d := fun k => t.com k - com k
  let (dx2, dy2, dz2) := (d 0 * d 0, d 1 * d 1, d 2 * d 2)
  ![t.inertiaCom 0 + t.m * (dy2 + dz2),
    t.inertiaCom 1 + t.m * (dx2 + dz2),
    t.inertiaCom 2 + t.m * (dx2 + dy2),
    t.inertiaCom 3 - t.m * d 0 * d 1,
    t.inertiaCom 4 - t.m * d 1 * d 2,
    t.inertiaCom 5 - t.m * d 0 * d 2]

/-- `node_inertial` -/
def nodeInertial (physicalParts : List (String × Part)) (parts : List BakedPart) (node : String)
    (lumped : List LumpedInertial) : NodeInertial :=
  let terms := nodeTerms physicalParts parts node lumped
  let mass := (terms.map PartTerm.m).sum
  let weighted := fun k => (terms.map fun t => t.m * t.com k).sum
  let com := if 1 / 10 ^ 12 < mass then fun k => weighted k / mass else weighted
  let i := fun k : Fin 6 => (terms.map fun t => t.about com k).sum
  { massKg := mass
    comZup := ![com 0, -com 2, com 1]
    inertiaZup := ![i 0, i 2, i 1, -i 5, i 3, -i 4] }

/-! ### What is written -/

/-- `fnum` -/
def fnum (v : ℚ) : List Char := printed 6 v

/-- The decimals of an `<inertial>`: those of `<origin>`, `<mass>` and `<inertia>` in URDF, of `pos`, `mass` and
`fullinertia` in MJCF. -/
structure InertialElement where
  com : Fin 3 → List Char
  mass : List Char
  inertia : Fin 6 → List Char

def NodeInertial.element (inertial : NodeInertial) : InertialElement where
  com k := fnum (inertial.comZup k)
  mass := fnum inertial.massKg
  inertia k := fnum (inertial.inertiaZup k)

/-- The inertial of a link or a body, if it is heavy enough, with the name of the node. -/
def writeInertial (physicalParts : List (String × Part)) (parts : List BakedPart) (lumped : List LumpedInertial)
    (node : Node) : List (String × InertialElement) :=
  let inertial := nodeInertial physicalParts parts node.name lumped
  if 1 / 10 ^ 9 < inertial.massKg then [(node.name, inertial.element)] else []

/-- The inertials of `to_urdf`, in the order of the links. -/
def urdfInertials (spec : ModelSpec) (parts : List BakedPart) : List (String × InertialElement) :=
  spec.skeleton.flatMap (writeInertial spec.physicalPartsWithPaths parts [])

structure MjcfExportOptions where
  floatingRoots : Bool
  timestepS : Option Float
  eulerIntegrator : Bool

/-- A lumped inertial that the export accepts. -/
def LumpedInertial.positiveFinite (term : LumpedInertial) : Bool :=
  term.massKg.isFinite && !(term.massKg ≤ 0.0) && (List.finRange 3).all (fun k => (term.comM k).isFinite) &&
    (List.finRange 6).all (fun k => (term.inertiaKgM2 k).isFinite) &&
    (List.finRange 3).all fun k => !(term.inertiaKgM2 (k.castLE (by decide)) ≤ 0.0)

/-- The inertials of `to_mjcf_with_options_and_lumped_inertials`, body by body from the roots. The bodies of children
are nested, and `fuel` bounds how deep; where it does not suffice nothing is returned. -/
def mjcfWithLumped (fuel : ℕ) (spec : ModelSpec) (parts : List BakedPart) (options : MjcfExportOptions)
    (lumped : List LumpedInertial) : Except String (Option (List (String × InertialElement))) := do
  if options.timestepS.any fun t => !t.isFinite || t ≤ 0.0 then .error "MJCF timestep must be positive and finite"
  lumped.forM fun term =>
    if spec.node term.node = none then
      .error s!"MJCF lumped inertial node '{term.node}' is absent from the contract"
    else if !term.positiveFinite then
      .error s!"MJCF lumped inertial for '{term.node}' is not positive finite authority"
    else .ok ()
  pure (Forest.walkAll Node.name Node.parent spec.skeleton
    (writeInertial spec.physicalPartsWithPaths parts lumped) fuel)

/-- `to_mjcf_with_options` -/
def mjcfInertials (fuel : ℕ) (spec : ModelSpec) (parts : List BakedPart) (options : MjcfExportOptions) :
    Except String (Option (List (String × InertialElement))) := mjcfWithLumped fuel spec parts options []

/-! ### What a reader gets -/

/-- Half a unit of the sixth decimal. -/
def halfUnit : ℚ := 1 / 2 / 10 ^ 6

/-- The mass and the three diagonal moments are read as positive numbers. -/
structure InertialElement.Positive (e : InertialElement) : Prop where
  mass : ∃ q, readDecimal e.mass = some q ∧ 0 < q
  moments : ∀ k : Fin 6, k < 3 → ∃ q, readDecimal (e.inertia k) = some q ∧ 0 < q

/-- The mass of the parts on a node, in kilograms. -/
def nodeMass (spec : ModelSpec) (parts : List BakedPart) (node : String) : ℚ :=
  ((parts.filter fun bp => bp.node = node).map fun bp => bakedMassG spec.physicalPartsWithPaths bp / 1000).sum

/-- Everything that is written is positive, nothing is left out, and the masses add up. -/
structure Physical (spec : ModelSpec) (parts : List BakedPart) (written : List (String × InertialElement)) : Prop where
  positive : ∀ e ∈ written, e.2.Positive
  present : ∀ n ∈ spec.skeleton, 0 < nodeMass spec parts n.name → ∃ e ∈ written, e.1 = n.name
  closes : |(written.map fun e => (readDecimal e.2.mass).getD 0).sum - exactModelMassG spec parts / 1000| ≤
    spec.skeleton.length * halfUnit

/-- The parts on a node as one rigid body. -/
def nodeBody (spec : ModelSpec) (parts : List BakedPart) (node : String) : RigidBody ℚ :=
  .compound ((parts.filter fun bp => bp.node = node).map fun bp =>
    let t := partTerm spec.physicalPartsWithPaths bp
    .ofCentre t.m t.com fun k => t.inertiaCom (k.castLE (by decide)))

/-- Every node that has parts is heavier than half a unit, and so are its moments about its centre of mass. -/
def AboveHalfUnit (spec : ModelSpec) (parts : List BakedPart) : Prop :=
  ∀ n ∈ spec.skeleton, (∃ bp ∈ parts, bp.node = n.name) →
    halfUnit < (nodeBody spec parts n.name).mass ∧ ∀ k, halfUnit < (nodeBody spec parts n.name).central k

/-! ### The inertial is that of the rigid body -/

section

variable {spec : ModelSpec} {parts : List BakedPart}

theorem nodeTerms_nil (physicalParts : List (String × Part)) (parts : List BakedPart) (node : String) :
    nodeTerms physicalParts parts node [] = (parts.filter fun bp => bp.node = node).map (partTerm physicalParts) :=
  List.append_nil _

theorem massKg_eq (spec : ModelSpec) (parts : List BakedPart) (node : String) :
    (nodeInertial spec.physicalPartsWithPaths parts node []).massKg = nodeMass spec parts node := by
  rw [nodeInertial, nodeTerms_nil, nodeMass, List.map_map]
  rfl

theorem nodeBody_mass (spec : ModelSpec) (parts : List BakedPart) (node : String) :
    (nodeBody spec parts node).mass = nodeMass spec parts node := by
  rw [nodeBody, RigidBody.compound, nodeMass, List.map_map]
  rfl

/-- The first three numbers of a term are moments about axes. -/
theorem about_castLE (com : Fin 3 → ℚ) (t : PartTerm) (k : Fin 3) : t.about com (k.castLE (by decide)) =
    t.inertiaCom (k.castLE (by decide)) + t.m * offAxis (fun j => t.com j - com j) k := by
  fin_cases k <;> simp [PartTerm.about, offAxis, -mul_eq_mul_left_iff] <;> ring

/-- **The diagonal of the inertia** holds the moments of the node's body about its centre of mass. -/
theorem forall_inertiaZup {node : String} (hmass : 1 / 10 ^ 12 < nodeMass spec parts node) (P : ℚ → Prop) :
    (∀ k : Fin 6, k < 3 → P ((nodeInertial spec.physicalPartsWithPaths parts node []).inertiaZup k)) ↔
      ∀ k, P ((nodeBody spec parts node).central k) := by
  have hterms : ((nodeTerms spec.physicalPartsWithPaths parts node []).map PartTerm.m).sum =
      nodeMass spec parts node := massKg_eq spec parts node
  have hne : ((nodeTerms spec.physicalPartsWithPaths parts node []).map PartTerm.m).sum ≠ 0 := by
    rw [hterms]
    exact (lt_trans (by positivity) hmass).ne'
  obtain ⟨i, hi, hcentral⟩ : ∃ i : Fin 6 → ℚ,
      (nodeInertial spec.physicalPartsWithPaths parts node []).inertiaZup = ![i 0, i 2, i 1, -i 5, i 3, -i 4] ∧
        ∀ k : Fin 3, i (k.castLE (by decide)) = (nodeBody spec parts node).central k := by
    rw [nodeInertial]
    dsimp only
    rw [if_pos (hterms ▸ hmass)]
    refine ⟨fun k => ((nodeTerms spec.physicalPartsWithPaths parts node []).map fun t => t.about (fun j =>
      ((nodeTerms spec.physicalPartsWithPaths parts node []).map fun t => t.m * t.com j).sum /
        ((nodeTerms spec.physicalPartsWithPaths parts node []).map PartTerm.m).sum) k).sum, rfl, fun k => ?_⟩
    have hsum := RigidBody.sum_about_ofCentre (nodeTerms spec.physicalPartsWithPaths parts node []) PartTerm.m
      PartTerm.com (fun t k => t.inertiaCom (k.castLE (by decide))) hne k
    simp only [about_castLE]
    rw [hsum, nodeBody, nodeTerms_nil, List.map_map]
    rfl
  rw [hi]
  constructor
  · intro h k
    rw [← hcentral k]
    fin_cases k
    · exact h 0 (by decide)
    · exact h 2 (by decide)
    · exact h 1 (by decide)
  · intro h k hk
    have hall (j : Fin 3) : P (i (j.castLE (by decide))) := by
      rw [hcentral j]
      exact h j
    fin_cases k
    · exact hall 0
    · exact hall 2
    · exact hall 1
    · exact absurd hk (by decide)
    · exact absurd hk (by decide)
    · exact absurd hk (by decide)

/-! ### What is read of an inertial -/

theorem readDecimal_fnum (q : ℚ) : readDecimal (fnum q) = some (roundTo 6 q) := readDecimal_printed (by decide) q

/-- A number is read as positive when it is above half a unit. -/
theorem read_pos_iff (v : ℚ) : (∃ q, readDecimal (fnum v) = some q ∧ 0 < q) ↔ halfUnit < v := by
  rw [readDecimal_fnum, halfUnit, ← roundTo_pos_iff]
  simp

theorem element_positive_iff {node : String} (hmass : 1 / 10 ^ 12 < nodeMass spec parts node) :
    (nodeInertial spec.physicalPartsWithPaths parts node []).element.Positive ↔
      halfUnit < (nodeBody spec parts node).mass ∧ ∀ k, halfUnit < (nodeBody spec parts node).central k := by
  rw [nodeBody_mass, ← forall_inertiaZup hmass (halfUnit < ·), ← massKg_eq, ← read_pos_iff]
  simp only [← read_pos_iff]
  exact ⟨fun h => ⟨h.mass, h.moments⟩, fun h => ⟨h.1, h.2⟩⟩

/-! ### All inertials -/

theorem mem_writeInertial {n : Node} {e : String × InertialElement} :
    e ∈ writeInertial spec.physicalPartsWithPaths parts [] n ↔ 1 / 10 ^ 9 < nodeMass spec parts n.name ∧
      e = (n.name, (nodeInertial spec.physicalPartsWithPaths parts n.name []).element) := by
  rw [writeInertial, massKg_eq]
  split_ifs with h
  · rw [List.mem_singleton]
    exact (and_iff_right h).symm
  · exact iff_of_false List.not_mem_nil fun hc => h hc.1

/-- Masses that are positive leave no node with parts weightless. -/
theorem nodeMass_pos_iff (hpos : ∀ bp ∈ parts, 0 < bakedMassG spec.physicalPartsWithPaths bp) (node : String) :
    0 < nodeMass spec parts node ↔ ∃ bp ∈ parts, bp.node = node := by
  constructor
  · intro h
    by_contra hnone
    have hnil : (parts.filter fun bp => bp.node = node) = [] :=
      List.filter_eq_nil_iff.mpr fun bp hbp => by simpa using fun heq => hnone ⟨bp, hbp, heq⟩
    rw [nodeMass, hnil] at h
    exact lt_irrefl _ h
  · rintro ⟨bp, hbp, hname⟩
    refine List.sum_pos _ ?_ ?_
    · intro q hq
      obtain ⟨b, hb, rfl⟩ := List.mem_map.mp hq
      exact div_pos (hpos b (List.mem_filter.mp hb).1) (by norm_num)
    · exact List.ne_nil_of_mem (List.mem_map_of_mem (List.mem_filter.mpr ⟨hbp, by simpa using hname⟩))

/-- Every part is on one node, so that the masses of the nodes add up to that of the model. -/
theorem sum_nodeMass (hd : (spec.skeleton.map Node.name).Nodup)
    (hnode : ∀ bp ∈ parts, bp.node ∈ spec.skeleton.map Node.name) :
    (spec.skeleton.map fun n => nodeMass spec parts n.name).sum = exactModelMassG spec parts / 1000 := by
  induction parts with
  | nil => simp [nodeMass, exactModelMassG]
  | cons bp parts ih =>
    obtain ⟨hbp, hrest⟩ := List.forall_mem_cons.mp hnode
    have hsplit (node : String) : nodeMass spec (bp :: parts) node =
        (if bp.node = node then bakedMassG spec.physicalPartsWithPaths bp / 1000 else 0) +
          nodeMass spec parts node := by
      rw [nodeMass, List.filter_cons]
      split_ifs with h h' h' <;> simp_all [nodeMass]
    have hone : (spec.skeleton.map fun n =>
        if bp.node = n.name then bakedMassG spec.physicalPartsWithPaths bp / 1000 else 0).sum =
        bakedMassG spec.physicalPartsWithPaths bp / 1000 := by
      have hcount : (spec.skeleton.map Node.name).count bp.node = 1 := List.count_eq_one_of_mem hd hbp
      have hsingle := List.sum_map_eq_nsmul_single (l := spec.skeleton.map Node.name) bp.node
        (fun node => if bp.node = node then bakedMassG spec.physicalPartsWithPaths bp / 1000 else 0)
        fun node hne _ => if_neg hne.symm
      rw [List.map_map, hcount, one_smul, if_pos rfl] at hsingle
      exact hsingle
    simp only [hsplit]
    rw [List.sum_map_add, hone, ih hrest, exactModelMassG, exactModelMassG, List.map_cons, List.sum_cons, add_div]

/-- What is read of a node, and nothing where nothing is written. -/
theorem sum_writeInertial (n : Node) :
    ((writeInertial spec.physicalPartsWithPaths parts [] n).map fun e => (readDecimal e.2.mass).getD 0).sum =
      if 1 / 10 ^ 9 < nodeMass spec parts n.name then roundTo 6 (nodeMass spec parts n.name) else 0 := by
  rw [writeInertial, massKg_eq]
  split_ifs
  · simp [NodeInertial.element, massKg_eq, readDecimal_fnum]
  · rfl

/-- Sums whose terms are near are near. -/
theorem abs_sum_sub_le {ι : Type} (l : List ι) {f g : ι → ℚ} {ε : ℚ} (h : ∀ i ∈ l, |f i - g i| ≤ ε) :
    |(l.map f).sum - (l.map g).sum| ≤ l.length * ε := by
  induction l with
  | nil => simp
  | cons i l ih =>
    obtain ⟨hi, hrest⟩ := List.forall_mem_cons.mp h
    have hsplit : ((i :: l).map f).sum - ((i :: l).map g).sum =
        (f i - g i) + ((l.map f).sum - (l.map g).sum) := by
      rw [List.map_cons, List.map_cons, List.sum_cons, List.sum_cons]
      ring
    calc |((i :: l).map f).sum - ((i :: l).map g).sum|
        ≤ |f i - g i| + |(l.map f).sum - (l.map g).sum| := hsplit ▸ abs_add_le _ _
      _ ≤ ε + l.length * ε := add_le_add hi (ih hrest)
      _ = (i :: l).length * ε := by
        rw [List.length_cons]
        push_cast
        ring

/-- **The masses that are read add up** to that of the model, up to half a unit for each node. -/
theorem masses_close (hd : (spec.skeleton.map Node.name).Nodup)
    (hnode : ∀ bp ∈ parts, bp.node ∈ spec.skeleton.map Node.name)
    (hpos : ∀ bp ∈ parts, 0 < bakedMassG spec.physicalPartsWithPaths bp)
    {written : List (String × InertialElement)} (hperm : written.Perm (urdfInertials spec parts)) :
    |(written.map fun e => (readDecimal e.2.mass).getD 0).sum - exactModelMassG spec parts / 1000| ≤
      spec.skeleton.length * halfUnit := by
  have hnear : ∀ n ∈ spec.skeleton,
      |((writeInertial spec.physicalPartsWithPaths parts [] n).map fun e => (readDecimal e.2.mass).getD 0).sum -
        nodeMass spec parts n.name| ≤ halfUnit := by
    intro n _
    rw [sum_writeInertial]
    split_ifs with h
    · exact abs_roundTo_sub_le 6 _
    · have hle : nodeMass spec parts n.name ≤ halfUnit := (not_lt.mp h).trans (by norm_num [halfUnit])
      have hnonneg : 0 ≤ nodeMass spec parts n.name := by
        refine List.sum_nonneg fun q hq => ?_
        obtain ⟨b, hb, rfl⟩ := List.mem_map.mp hq
        exact (div_pos (hpos b (List.mem_filter.mp hb).1) (by norm_num)).le
      rwa [zero_sub, abs_neg, abs_of_nonneg hnonneg]
  rw [(hperm.map _).sum_eq, urdfInertials, List.map_flatMap, ← sum_nodeMass hd hnode, List.flatMap_def,
    List.sum_flatten, List.map_map]
  exact abs_sum_sub_le _ hnear

/-- **What is written for the nodes, in any order, is physical** exactly when all is above half a unit. -/
theorem physical_iff (hd : (spec.skeleton.map Node.name).Nodup)
    (hnode : ∀ bp ∈ parts, bp.node ∈ spec.skeleton.map Node.name)
    (hpos : ∀ bp ∈ parts, 0 < bakedMassG spec.physicalPartsWithPaths bp)
    {written : List (String × InertialElement)} (hperm : written.Perm (urdfInertials spec parts)) :
    Physical spec parts written ↔ AboveHalfUnit spec parts := by
  have hmem (e : String × InertialElement) : e ∈ written ↔
      ∃ n ∈ spec.skeleton, 1 / 10 ^ 9 < nodeMass spec parts n.name ∧
        e = (n.name, (nodeInertial spec.physicalPartsWithPaths parts n.name []).element) := by
    rw [hperm.mem_iff, urdfInertials, List.mem_flatMap]
    simp only [mem_writeInertial]
  have hheavy {q : ℚ} (h : 1 / 10 ^ 9 < q) : 1 / 10 ^ 12 < q := lt_trans (by norm_num) h
  constructor
  · intro h n hn hparts
    obtain ⟨e, he, hname⟩ := h.present n hn ((nodeMass_pos_iff hpos _).mpr hparts)
    obtain ⟨m, hm, hmass, rfl⟩ := (hmem e).mp he
    dsimp only at hname
    rw [hname] at hmass he
    rw [← element_positive_iff (hheavy hmass)]
    exact h.positive _ he
  · intro h
    refine ⟨fun e he => ?_, fun n hn hmass => ?_, masses_close hd hnode hpos hperm⟩
    · obtain ⟨n, hn, hmass, rfl⟩ := (hmem e).mp he
      exact (element_positive_iff (hheavy hmass)).mpr
        (h n hn ((nodeMass_pos_iff hpos _).mp (lt_trans (by norm_num) hmass)))
    · obtain ⟨habove, -⟩ := h n hn ((nodeMass_pos_iff hpos _).mp hmass)
      rw [nodeBody_mass] at habove
      exact ⟨_, (hmem _).mpr ⟨n, hn, lt_trans (by norm_num [halfUnit]) habove, rfl⟩, rfl⟩

end

/-! ### Both exports -/

/-- `to_mjcf_with_options` accepts the timestep. -/
def MjcfExportOptions.Accepted (options : MjcfExportOptions) : Prop :=
  ∀ t ∈ options.timestepS, t.isFinite = true ∧ ¬ t ≤ 0.0

/-- Both exports are physical, and MJCF is written for all options that are accepted. -/
structure ExportsPhysical (spec : ModelSpec) (parts : List BakedPart) : Prop where
  urdf : Physical spec parts (urdfInertials spec parts)
  returns : ∀ options : MjcfExportOptions, options.Accepted →
    ∃ fuel written, mjcfInertials fuel spec parts options = .ok (some written)
  mjcf : ∀ fuel options written, mjcfInertials fuel spec parts options = .ok (some written) →
    Physical spec parts written

section

variable {K : Type} [DivisionRing K] {E : Exact K} {build : Builder} {spec : ModelSpec} {baked : BakedModel K}

theorem mjcfInertials_eq_ok {fuel : ℕ} {parts : List BakedPart} {options : MjcfExportOptions}
    {written : Option (List (String × InertialElement))} : mjcfInertials fuel spec parts options = .ok written ↔
      options.Accepted ∧ Forest.walkAll Node.name Node.parent spec.skeleton
        (writeInertial spec.physicalPartsWithPaths parts []) fuel = written := by
  rw [mjcfInertials, mjcfWithLumped]
  cases ht : options.timestepS with
  | none => simp [MjcfExportOptions.Accepted, ht]
  | some t =>
    have haccepted : options.Accepted ↔ ¬ (t.isFinite = false ∨ t ≤ 0.0) := by
      simp [MjcfExportOptions.Accepted, ht]
    rw [haccepted]
    by_cases hbad : t.isFinite = false ∨ t ≤ 0.0
    · simp [hbad, bind, Except.bind]
    · simp [hbad, bind, Except.bind, pure, Except.pure]

/-- The nodes of baked parts are in the skeleton. -/
theorem node_mem_of_bake (hd : (spec.skeleton.map Node.name).Nodup) (h : bake E build spec = .ok baked) :
    ∀ bp ∈ baked.parts, bp.node ∈ spec.skeleton.map Node.name := by
  intro bp hbp
  obtain ⟨w, hw, hrest⟩ := bind_eq_ok.mp h
  obtain ⟨parts, hparts, hok⟩ := bind_eq_ok.mp hrest
  obtain rfl := pure_eq_ok.mp hok
  obtain ⟨e, -, he⟩ := exists_of_mem_mapM hparts hbp
  have hnode : bp.node = e.1.2.node ∧ w.get e.1.2.node ≠ none := by
    rw [Geometry.bakePart] at he
    split_ifs at he with hget
    refine ⟨?_, hget⟩
    split at he
    · cases he
    · cases he
    · rw [← Except.ok.inj he]
  obtain ⟨hname, hget⟩ := hnode
  obtain ⟨v, hv⟩ := Option.ne_none_iff_exists'.mp hget
  obtain ⟨n, hn, -, hkey⟩ := (Forest.between_of_resolve hd (nodeWorldTransforms_eq_ok.mp hw)).named _ _ hv
  rw [hname, ← hkey]
  exact List.mem_map_of_mem hn

theorem rooted_of_bake (hd : (spec.skeleton.map Node.name).Nodup) (h : bake E build spec = .ok baked) :
    ∀ n ∈ spec.skeleton, Forest.Rooted Node.name Node.parent spec.skeleton n := fun _ hn =>
  Forest.rooted_of_resolve hd (nodeWorldTransforms_eq_ok.mp (nodeWorld_of_bake h)) hn

end

/-- **Key result**: for a model that bakes with parts that all have mass, whose nodes have names of their own, the
inertials of both exports are physical exactly when every node with parts is above half a unit. -/
theorem inertials_iff {K : Type} [DivisionRing K] (E : Exact K) (build : Builder) (spec : ModelSpec)
    (baked : BakedModel K) (h : bake E build spec = .ok baked) (hd : (spec.skeleton.map Node.name).Nodup)
    (hpos : ∀ bp ∈ baked.parts, 0 < bakedMassG spec.physicalPartsWithPaths bp) :
    ExportsPhysical spec baked.parts ↔ AboveHalfUnit spec baked.parts := by
  have hnode := node_mem_of_bake hd h
  have hrooted := rooted_of_bake hd h
  constructor
  · intro hphysical
    exact (physical_iff hd hnode hpos (.refl _)).mp hphysical.urdf
  · intro habove
    refine ⟨(physical_iff hd hnode hpos (.refl _)).mpr habove, fun options haccepted => ?_,
      fun fuel options written hwritten => ?_⟩
    · have hwalk : ∃ out, Forest.walkAll Node.name Node.parent spec.skeleton
          (writeInertial spec.physicalPartsWithPaths baked.parts []) spec.skeleton.length = some out :=
        Forest.exists_walkAll hd le_rfl
      obtain ⟨out, hout⟩ := hwalk
      exact ⟨_, out, mjcfInertials_eq_ok.mpr ⟨haccepted, hout⟩⟩
    · obtain ⟨-, hwalk⟩ := mjcfInertials_eq_ok.mp hwritten
      exact (physical_iff hd hnode hpos (Forest.perm_of_walkAll hd hrooted hwalk)).mpr habove

/-! ### A cube -/

/-- A cube of a sixty-fourth of a meter that weighs this many grams. -/
def block (g : Float) : Part :=
  { node := "hub", geom := .box 0.015625 0.015625 0.015625, pose := none, material := .metal, color := "#888888"
    explode := none, renderBias := none, comp := none, mass := some { valueG := some g, densityKgm3 := none }
    collision := .auto }

/-- A model of one node with this cube. -/
def cube (g : Float) : ModelSpec := { glider [hub 0.0] with parts := [block g] }

/-- The corners of the cube, in the order of `taper`. -/
def cubeCorners : List (List Float32) :=
  let r := 0.0078125
  [[-r, -r, -r], [r, -r, -r], [r, -r, r], [-r, -r, r], [-r, r, -r], [r, r, -r], [r, r, r], [-r, r, r]]

/-- The triangles of its six faces, two to a face, by their corners. -/
def cubeTriangles : List (List ℕ) :=
  [[0, 1, 2], [0, 2, 3], [7, 6, 5], [7, 5, 4], [4, 5, 1], [4, 1, 0], [5, 6, 2], [5, 2, 1], [6, 7, 3], [6, 3, 2],
    [7, 4, 0], [7, 0, 3]]

/-- The buffers that `bake_part` makes of the cube. -/
def cubeMesh : MeshBuffers where
  positions := cubeTriangles.flatMap fun t => t.flatMap fun i => cubeCorners.getD i []
  normals := [[0, -1, 0], [-0, 1, -0], [-0, -0, -1], [1, -0, -0], [-0, -0, 1], [-1, -0, -0]].flatMap fun n =>
    (List.replicate 6 n).flatten
  indices := (List.range 36).map UInt32.ofNat

/-- The cube, baked. -/
def bakedCube : BakedPart :=
  { sourcePath := "/parts/0", partIndex := 0, node := "hub", material := .metal, color := "#888888", collision := .auto
    explode := none, polyVerts := 8, polyFaces := 6, mesh := cubeMesh }

/-- A builder that makes this of every geometry. -/
def cubeBuilder : Builder := fun _ _ => .ok (cubeMesh, { verts := 8, polys := 6 })

theorem bake_cube (E : Exact ℚ) (g : Float) :
    ∃ baked : BakedModel ℚ, bake E cubeBuilder (cube g) = .ok baked ∧ baked.parts = [bakedCube] := by
  have hroots : ∀ n ∈ [hub 0.0], n.parent = none := by simp
  have hw : Geometry.nodeWorldTransforms E (cube g) = _ :=
    nodeWorldTransforms_eq_ok.mpr (Forest.resolve_roots hroots .empty)
  have hparts : (cube g).physicalPartsWithPaths.zipIdx = [(("/parts/0", block g), 0)] := rfl
  refine ⟨_, bind_eq_ok.mpr ⟨_, hw, bind_eq_ok.mpr ⟨[bakedCube], ?_, rfl⟩⟩, rfl⟩
  rw [hparts]
  refine mapM_eq_ok.mpr (.cons ?_ .nil)
  rw [Geometry.bakePart, if_neg (by simp [BTreeMap.get_insert, block])]
  rfl

theorem compute_cube : MassProps.compute (exactMesh cubeMesh) =
    { volume := 1 / 262144, com := ⟨0, 0, 0⟩
      inertiaUnitDensity := ⟨1 / 6442450944, 1 / 6442450944, 1 / 6442450944, 0, 0, 0⟩ } := by
  decide +kernel

theorem bakedMassG_cube (g : Float) : bakedMassG (cube g).physicalPartsWithPaths bakedCube = floatValue g := rfl

theorem partTerm_cube (g : Float) : partTerm (cube g).physicalPartsWithPaths bakedCube =
    { m := floatValue g / 1000, com := ![0, 0, 0]
      inertiaCom := fun k => ![1 / 6442450944, 1 / 6442450944, 1 / 6442450944, 0, 0, 0] k *
        (floatValue g / 1000 / (1 / 262144)) } := by
  have hmesh : bakedCube.mesh = cubeMesh := rfl
  have hvolume : 1 / 10 ^ 12 < |(1 / 262144 : ℚ)| := by norm_num
  rw [partTerm, bakedMassG_cube, hmesh, compute_cube]
  simp only [hvolume, if_true]

/-- The cube as a rigid body. -/
theorem nodeBody_cube (g : Float) : (nodeBody (cube g) [bakedCube] "hub").mass = floatValue g / 1000 ∧
    ∀ k, (nodeBody (cube g) [bakedCube] "hub").central k = floatValue g / 24576000 := by
  have hfilter : ([bakedCube].filter fun bp => bp.node = "hub") = [bakedCube] := rfl
  rw [nodeBody, hfilter, List.map_singleton, partTerm_cube]
  refine ⟨by simp [RigidBody.compound, RigidBody.ofCentre], fun k => ?_⟩
  fin_cases k <;> simp [RigidBody.central, RigidBody.compound, RigidBody.ofCentre, offAxis] <;> ring

/-- The cube is heavy enough from about twelve grams on. -/
theorem aboveHalfUnit_cube_iff (g : Float) : AboveHalfUnit (cube g) [bakedCube] ↔ 12.288 < floatValue g := by
  obtain ⟨hmass, hcentral⟩ := nodeBody_cube g
  have hskeleton : (cube g).skeleton = [hub 0.0] := rfl
  have hpart : ∃ bp ∈ [bakedCube], bp.node = "hub" := ⟨_, List.mem_singleton_self _, rfl⟩
  rw [AboveHalfUnit, hskeleton, List.forall_mem_singleton, hub_name, hmass, halfUnit]
  simp only [hcentral]
  constructor
  · intro h
    have := (h hpart).2 0
    norm_num at this ⊢
    linarith
  · intro h _
    norm_num at h ⊢
    constructor <;> linarith

/-- The nodes are not turned. -/
def atRest : Exact ℚ := { sin := fun _ => 0, cos := fun _ => 1, unit := unit_unturned }

theorem cube_nodup (g : Float) : ((cube g).skeleton.map Node.name).Nodup := List.nodup_singleton _

theorem cube_pos {g : Float} (hg : 0 < floatValue g) :
    ∀ bp ∈ [bakedCube], 0 < bakedMassG (cube g).physicalPartsWithPaths bp := by
  rw [List.forall_mem_singleton, bakedMassG_cube]
  exact hg

/-- Two cubes on one node, the second a quarter of a meter beside the first. -/
def cubePair : ModelSpec :=
  let beside : PartPose := { p := ⟨0.25, 0.0, 0.0⟩, r := ⟨0.0, 0.0, 0.0⟩, s := PartPose.unitScale }
  { glider [hub 0.0] with parts := [block 20.0, { block 30.0 with pose := some beside }] }

/-- The buffers of the second cube. -/
def besideMesh : MeshBuffers :=
  { cubeMesh with
    positions := cubeTriangles.flatMap fun t => t.flatMap fun i => match cubeCorners.getD i [] with
      | x :: rest => (x + 0.25) :: rest
      | [] => [] }

/-- A builder that moves a cube with a pose. -/
def pairBuilder : Builder := fun _ pose =>
  .ok (if pose = none then cubeMesh else besideMesh, { verts := 8, polys := 6 })

def bakedPair : List BakedPart :=
  [bakedCube, { bakedCube with sourcePath := "/parts/1", partIndex := 1, mesh := besideMesh }]

theorem bake_pair : ∃ baked : BakedModel ℚ, bake atRest pairBuilder cubePair = .ok baked ∧ baked.parts = bakedPair := by
  have hroots : ∀ n ∈ [hub 0.0], n.parent = none := by simp
  have hw : Geometry.nodeWorldTransforms atRest cubePair = _ :=
    nodeWorldTransforms_eq_ok.mpr (Forest.resolve_roots hroots .empty)
  refine ⟨_, bind_eq_ok.mpr ⟨_, hw, bind_eq_ok.mpr ⟨bakedPair, ?_, rfl⟩⟩, rfl⟩
  refine mapM_eq_ok.mpr (.cons ?_ (.cons ?_ .nil))
  · rw [Geometry.bakePart, if_neg (by simp [BTreeMap.get_insert, block])]
    rfl
  · rw [Geometry.bakePart, if_neg (by simp [BTreeMap.get_insert, block])]
    rfl

instance (spec : ModelSpec) (parts : List BakedPart) : Decidable (AboveHalfUnit spec parts) :=
  inferInstanceAs (Decidable (∀ n ∈ spec.skeleton, _ → _))

/-- Both cubes are on the node, and their moments about the common centre of mass are large enough. -/
theorem inertials_iff_pair : ∃ baked : BakedModel ℚ, bake atRest pairBuilder cubePair = .ok baked ∧
    ExportsPhysical cubePair baked.parts := by
  obtain ⟨baked, h, hparts⟩ := bake_pair
  refine ⟨baked, h, (inertials_iff atRest pairBuilder cubePair baked h (List.nodup_singleton _) ?_).mpr ?_⟩
  · rw [hparts]
    decide +kernel
  · rw [hparts]
    decide +kernel

/-- The corners of every triangle turn to the left, as seen from outside of a body around the origin. -/
def Outward (ts : List (Arr3 ℚ × Arr3 ℚ × Arr3 ℚ)) : Prop :=
  ∀ t ∈ ts, 0 < t.1.x * (t.2.1.y * t.2.2.z - t.2.1.z * t.2.2.y) + t.1.y * (t.2.1.z * t.2.2.x - t.2.1.x * t.2.2.z) +
    t.1.z * (t.2.1.x * t.2.2.y - t.2.1.y * t.2.2.x)

instance (ts : List (Arr3 ℚ × Arr3 ℚ × Arr3 ℚ)) : Decidable (Outward ts) := inferInstanceAs (Decidable (∀ t ∈ ts, _))

/-- **The moments of a small cube vanish**: its mesh is closed and wound outward, it weighs a gram, and in neither
export does a reader get positive moments. -/
theorem cube_moments_vanish : ∃ (E : Exact ℚ) (build : Builder) (spec : ModelSpec) (baked : BakedModel ℚ),
    bake E build spec = .ok baked ∧ (spec.skeleton.map Node.name).Nodup ∧
      (∀ bp ∈ baked.parts, 0 < bakedMassG spec.physicalPartsWithPaths bp) ∧
      (∀ bp ∈ baked.parts, Oriented.Closed (exactMesh bp.mesh).triangles ∧ Outward (exactMesh bp.mesh).triangles) ∧
      ¬ Physical spec baked.parts (urdfInertials spec baked.parts) ∧
      ∀ fuel options written, mjcfInertials fuel spec baked.parts options = .ok (some written) →
        ¬ Physical spec baked.parts written := by
  obtain ⟨baked, h, hparts⟩ := bake_cube atRest 1.0
  have hpos : ∀ bp ∈ baked.parts, 0 < bakedMassG (cube 1.0).physicalPartsWithPaths bp :=
    hparts ▸ cube_pos (by decide +kernel)
  have hsmall : ¬ AboveHalfUnit (cube 1.0) baked.parts := by
    rw [hparts, aboveHalfUnit_cube_iff]
    decide +kernel
  have hnode := node_mem_of_bake (cube_nodup 1.0) h
  refine ⟨atRest, cubeBuilder, cube 1.0, baked, h, cube_nodup 1.0, hpos, ?_, ?_, ?_⟩
  · rw [hparts, List.forall_mem_singleton]
    exact ⟨Oriented.closed_of_count (by decide +kernel), by decide +kernel⟩
  · exact fun hphysical => hsmall ((physical_iff (cube_nodup 1.0) hnode hpos (.refl _)).mp hphysical)
  · intro fuel options written hwritten hphysical
    have hperm := Forest.perm_of_walkAll (cube_nodup 1.0) (rooted_of_bake (cube_nodup 1.0) h)
      (mjcfInertials_eq_ok.mp hwritten).2
    exact hsmall ((physical_iff (cube_nodup 1.0) hnode hpos hperm).mp hphysical)

end Forge.Export
