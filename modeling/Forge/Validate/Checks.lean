import Forge.Contract.Lockfile
import Forge.Data.Fixed
import Forge.Export.Links
import Forge.Validate.Params

/-!
# The checks of the gatekeeper

`run_checks` (`forge-validate`): the structural checks of a contract, the bake, and the checks
of what was baked. The engines that it consults about meshes, powertrains and drivers are
parameters (`Engines`), each with what the source gives it; what only ever warns has warnings as
its type. The numbers that a diagnostic carries beside its message are left out.

The checks do not look at the names of the skeleton. `Unambiguous` is what a skeleton without
two entries for one name guarantees, and the **key result** `unambiguous_iff` says that an
admitted contract has it exactly when its names are distinct.
-/

namespace Forge.Validate

open Contract Forge.Geometry Export

/-! ### Findings -/

inductive Severity where
  | error | warn
deriving DecidableEq

/-- A diagnostic with its severity. -/
structure Finding extends Diagnostic where
  severity : Severity
deriving DecidableEq

/-- `Diagnostic::error` with its subject and its hint. -/
def failure (check message : String) (subject : Option (String × String)) (hint : Option String) : Finding :=
  { check, message, subject, hint, severity := .error }

/-- A diagnostic that does not reject anything. -/
def warning (d : Diagnostic) : Finding := { d with severity := .warn }

/-- `Options` -/
structure Options where
  faceBudget : ℕ := 50000

/-- What `run_checks` consults. -/
structure Engines (K : Type) [DivisionRing K] where
  /-- `primitives::bake_part` -/
  build : Builder
  /-- `massprops::compute(mesh).volume` -/
  volume : MeshBuffers → Float
  /-- `count_degenerate` -/
  countDegenerate : MeshBuffers → ℕ
  /-- `run_dfm_checks` of one part. -/
  dfmChecks : Part → BakedPart → List Finding
  /-- SIM-004 warns only. -/
  catalogDrift : ModelSpec → List Diagnostic
  /-- GEO-003 and GEO-008 warn only. -/
  interference : ModelSpec → BakedModel K → List Diagnostic
  /-- SIM-001 to SIM-003 of a multirotor. -/
  powertrain : ModelSpec → BakedModel K → List Finding
  /-- BEH-001 of a driver. -/
  smoke : ModelSpec → List Finding

/-! ### Checks of the contract -/

/-- `str::trim().is_empty()` -/
def isBlank (s : String) : Bool := s.toList.all Text.isWhiteSpace

/-- CTR-002 -/
def portChecks (spec : ModelSpec) : List Finding :=
  spec.ports.flatMap fun port =>
    if spec.node port.node = none then
      [failure "CTR-002" s!"port_unresolved: {port.kind}@{port.id}" (some ("port", port.id))
        (some s!"port references unknown node '{port.node}'")]
    else if isBlank port.kind ∧ port.capped = false then
      [failure "CTR-002" s!"port_untyped: {port.id}" (some ("port", port.id))
        (some "give the port a connector-taxonomy type or mark it capped")]
    else []

/-- The equipped choice of a slot. -/
def equippedChecks (slot : Slot) : List Finding :=
  if slot.variants.isEmpty then [failure "CTR-003" s!"slot_empty: {slot.id}" (some ("slot", slot.id)) none]
  else match slot.equippedVariantId with
    | none => [failure "CTR-003" s!"slot_equipped_missing: {slot.id}" (some ("slot", slot.id))
        (some "set equippedVariantId to exactly one variant id")]
    | some equipped =>
      let found := slot.variants.countP fun variant => variant.id = equipped
      if found ≠ 1 then
        [failure "CTR-003" s!"slot_equipped_unresolved: {slot.id}/{equipped} matched {found} variants"
          (some ("slot", slot.id)) (some "equippedVariantId must match one unique variant id")]
      else []

/-- The variants of a slot; `seen` are the ids before. -/
def variantChecks (slot : Slot) : List String → List Variant → List Finding
  | _, [] => []
  | seen, v :: vs =>
    (if v.id ∈ seen then
      [failure "CTR-003" s!"variant_id_duplicate: {slot.id}/{v.id}" (some ("variant", v.id))
        (some "variant ids must be unique within their slot")] else []) ++
    (if (v.parts.any fun parts => !parts.isEmpty) = v.componentRef.isSome then
      [failure "CTR-003" s!"variant_malformed: {slot.id}/{v.id}" (some ("variant", v.id))
        (some "a variant carries exactly one of inline parts or a componentRef")] else []) ++
    variantChecks slot (v.id :: seen) vs

/-- CTR-003 -/
def slotChecks (spec : ModelSpec) : List Finding :=
  spec.slots.flatMap fun slot =>
    equippedChecks slot ++ variantChecks slot [] slot.variants ++
      slot.mountNodes.flatMap fun mn =>
        if spec.node mn = none then [failure "CTR-003" s!"slot_mount_unknown: {mn}@{slot.id}" (some ("slot", slot.id)) none]
        else []

def isHexDigit (c : Char) : Bool :=
  c.isDigit || ('a' ≤ c && c ≤ 'f') || ('A' ≤ c && c ≤ 'F')

/-- `valid_hex_color`: seven bytes, so seven characters where all of them are ASCII. -/
def validHexColor (c : String) : Bool :=
  match c.toList with
  | '#' :: digits => digits.length = 6 && digits.all isHexDigit
  | _ => false

/-- CTR-005 -/
def colorChecks (spec : ModelSpec) : List Finding :=
  spec.physicalPartsWithPaths.zipIdx.flatMap fun e =>
    if validHexColor e.1.2.color then []
    else [failure "CTR-005" s!"color_invalid: part {e.2} '{e.1.2.color}'" (some ("part", s!"{e.2}"))
      (some "colors are #rrggbb")]

/-- CTR-006 -/
def lockfileChecks (spec : ModelSpec) (catalog : CatalogSource) : List Finding :=
  (ctr006 spec catalog).map fun d => { d with severity := .error }

/-- The physical parts that collide, by node. -/
def colliders (spec : ModelSpec) : List String :=
  spec.physicalPartsWithPaths.filterMap fun e => if e.2.collision ≠ .none then some e.2.node else none

/-- CTR-007 -/
def colliderChecks (spec : ModelSpec) : List Finding :=
  let budget := spec.sim.colliders.budget
  let nodes := colliders spec
  (nodes.dedup.mergeSort.flatMap fun node =>
    if budget.perNode.toNat < nodes.count node then
      [failure "CTR-007" s!"collider_budget: node {node} {nodes.count node} > {budget.perNode}" (some ("node", node)) none]
    else []) ++
  if budget.perModel.toNat < nodes.length then
    [failure "CTR-007" s!"collider_budget: {nodes.length} > {budget.perModel}" none
      (some "collapse colliders into per-node compounds (D7)")]
  else []

/-- CTR-008 -/
def driverChecks (spec : ModelSpec) : List Finding :=
  match checkDriverParams spec with
  | .ok () => []
  | .error e => [failure "CTR-008" s!"driver_params: {e}" none (some "archetype param schemas live in forge-motion::params")]

/-- PRV-001 -/
def provenanceChecks (spec : ModelSpec) : List Finding :=
  if spec.meta.provenance.kind = .llmGeneration ∧
      (spec.meta.provenance.promptHash = none ∨ spec.meta.provenance.modelVersion = none) then
    [failure "PRV-001" "generated content missing promptHash/modelVersion" (some ("meta", spec.meta.id)) none]
  else []

/-! ### Checks of what was baked -/

section

variable {K : Type} [DivisionRing K] (engines : Engines K)

/-- GEO-001 -/
def finiteChecks (parts : List BakedPart) : List Finding :=
  parts.flatMap fun bp =>
    if (bp.mesh.positions ++ bp.mesh.normals).any fun v => !v.isFinite then
      [failure "GEO-001" s!"nan_scan: part {bp.partIndex} has non-finite values" (some ("part", s!"{bp.partIndex}")) none]
    else []

/-- GEO-004 -/
def budgetChecks (baked : BakedModel K) (opts : Options) : List Finding :=
  if opts.faceBudget < baked.totalFaces then
    [failure "GEO-004" s!"face_budget: {baked.totalFaces} > {opts.faceBudget}" none
      (some "reduce segment counts or part count")]
  else []

/-- GEO-005 -/
def degenerateChecks (parts : List BakedPart) : List Finding :=
  parts.flatMap fun bp =>
    if 0 < engines.countDegenerate bp.mesh then
      [failure "GEO-005" s!"degenerate_faces: part {bp.partIndex} has {engines.countDegenerate bp.mesh}"
        (some ("part", s!"{bp.partIndex}")) none]
    else []

/-- GEO-006 -/
def massChecks (spec : ModelSpec) (baked : BakedModel K) : List Finding :=
  match spec.sim.aggregateMassG with
  | none => []
  | some aggregate =>
    let sum := modelMassG engines.volume spec baked.parts
    let rel := ((sum - aggregate) / aggregate).abs
    if rel > 0.02 then
      [failure "GEO-006" (String.ofList ("mass_closure: Σparts ".toList ++ formatFixed 1 sum ++ " g vs aggregate ".toList ++
        formatFixed 1 aggregate ++ " g (".toList ++ formatFixed 1 (rel * 100.0) ++ " %)".toList)) none none]
    else []

/-- MFG-001 to MFG-004 -/
def dfmChecks (spec : ModelSpec) (baked : BakedModel K) : List Finding :=
  baked.parts.flatMap fun bp => (physicalPart spec bp).elim [] fun part => engines.dfmChecks part bp

/-- `Servo` -/
structure Servo where
  omega : Float
  zeta : Float
  x : Float
  v : Float
deriving DecidableEq

/-- `Servo::step` -/
def Servo.step (servo : Servo) (target dt : Float) : Servo :=
  let a := servo.omega * servo.omega * (target - servo.x) - 2.0 * servo.zeta * servo.omega * servo.v
  let v := servo.v + a * dt
  { servo with x := servo.x + v * dt, v }

/-- The servo after at most this many steps, and whether it stayed bounded. -/
def Servo.settle : ℕ → Servo → Bool × Servo
  | 0, servo => (true, servo)
  | steps + 1, servo =>
    let next := servo.step 1.0 0.05
    if next.x.isFinite = false ∨ next.x.abs > 10.0 then (false, next) else settle steps next

/-- BEH-002 -/
def servoChecks : List Finding :=
  let settled := Servo.settle 400 { omega := 15.0, zeta := 0.85, x := 0.0, v := 0.0 }
  if settled.1 = false ∨ (settled.2.x - 1.0).abs > 0.01 then
    [failure "BEH-002" "servo_unstable at dt = 50 ms" none none]
  else []

/-- SIM-001 to SIM-003 -/
def powertrainChecks (spec : ModelSpec) (baked : BakedModel K) : List Finding :=
  if spec.meta.archetype = .multirotor then engines.powertrain spec baked else []

/-- BEH-001 -/
def smokeChecks (spec : ModelSpec) : List Finding :=
  match spec.meta.archetype with
  | .multirotor => []
  | .rover | .quadruped | .biped | .arm => engines.smoke spec
  | .fixedwing =>
    [warning { check := "BEH-001", message := "archetype_smoke skipped: Fixedwing driver lands P2", subject := none,
               hint := some "fixedwing driver arrives with the P2+ driver library" }]

/-- CTR-004 -/
def explodeChecks (spec : ModelSpec) : List Finding :=
  let parts := spec.physicalPartsWithPaths
  if parts.length < 4 then []
  else
    let covered := parts.countP fun e => e.2.explode.isSome
    let coverage := Float.ofNat covered / Float.ofNat parts.length
    if coverage < 0.8 then
      [failure "CTR-004" (String.ofList ("explode_coverage: ".toList ++ formatFixed 0 (coverage * 100.0) ++ " % < 80 %".toList))
        none (some "add explode windows to parts (leader-flag rule lands with slots/equip)")]
    else []

/-- The checks before the bake. -/
def contractChecks (spec : ModelSpec) (catalog : CatalogSource) : List Finding :=
  portChecks spec ++ slotChecks spec ++ colorChecks spec ++ lockfileChecks spec catalog ++
    (engines.catalogDrift spec).map warning ++ colliderChecks spec ++ driverChecks spec ++ provenanceChecks spec

/-- The checks after the bake. -/
def bakedChecks (spec : ModelSpec) (baked : BakedModel K) (opts : Options) : List Finding :=
  finiteChecks baked.parts ++ budgetChecks baked opts ++ degenerateChecks engines baked.parts ++
    massChecks engines spec baked ++ dfmChecks engines spec baked ++ (engines.interference spec baked).map warning ++
    servoChecks ++ powertrainChecks engines spec baked ++ smokeChecks engines spec ++ explodeChecks spec

/-- `run_checks` -/
def runChecks (E : Exact K) (spec : ModelSpec) (catalog : CatalogSource) (opts : Options) :
    List Finding × Option (BakedModel K) :=
  match bake E engines.build spec with
  | .error e => (contractChecks engines spec catalog ++ [failure "GEO-007" s!"bake_failed: {e.text}" none none], none)
  | .ok baked => (contractChecks engines spec catalog ++ bakedChecks engines spec baked opts, some baked)

end

/-! ### Unambiguous skeletons -/

section

variable {K : Type} [DivisionRing K] (engines : Engines K) (E : Exact K)

/-- No check rejects the contract. -/
def Admitted (spec : ModelSpec) (catalog : CatalogSource) (opts : Options) : Prop :=
  ∀ f ∈ (runChecks engines E spec catalog opts).1, f.severity ≠ .error

/-- What an admitted skeleton is for: `baked` gives every entry its transform by its parent, neither
the transforms nor the mass nor the links depend on the order of the entries, and no two
entries are for one name. -/
structure Unambiguous (body : LinkBody) (spec : ModelSpec) (baked : BakedModel K) : Prop where
  world : ∀ n ∈ spec.skeleton, ∃ m, baked.nodeWorld.get n.name = some m ∧ worldOf E baked.nodeWorld n = some m
  order : ∀ skeleton, spec.skeleton.Perm skeleton → ∃ baked', bake E engines.build (withSkeleton spec skeleton) = .ok baked' ∧
    baked'.nodeWorld = baked.nodeWorld ∧
    modelMassG engines.volume (withSkeleton spec skeleton) baked'.parts = modelMassG engines.volume spec baked.parts ∧
    (urdfLinks body (withSkeleton spec skeleton) baked').Perm (urdfLinks body spec baked)
  distinct : (spec.skeleton.map Node.name).Nodup

variable {engines E} {body : LinkBody} {spec : ModelSpec} {catalog : CatalogSource} {opts : Options}

/-- A bake that fails is an error. -/
theorem bake_of_admitted (h : Admitted engines E spec catalog opts) :
    ∃ baked, bake E engines.build spec = .ok baked ∧ (runChecks engines E spec catalog opts).2 = some baked := by
  unfold Admitted at h
  unfold runChecks at h ⊢
  cases hb : bake E engines.build spec with
  | ok baked => exact ⟨baked, rfl, rfl⟩
  | error e =>
    rw [hb] at h
    exact absurd rfl (h _ (List.mem_append_right _ (List.mem_singleton_self _)))

/-- With distinct names whatever is baked is unambiguous. -/
theorem unambiguous_of_nodup (hd : (spec.skeleton.map Node.name).Nodup) {baked : BakedModel K}
    (hb : bake E engines.build spec = .ok baked) : Unambiguous engines E body spec baked := by
  refine ⟨?_, ?_, hd⟩
  · intro n hn
    obtain ⟨m, hm, hvalue⟩ := Forest.placed_of_resolve hd (nodeWorldTransforms_eq_ok.mp (nodeWorld_of_bake hb)) hn
    exact ⟨m, hm, by rw [← valueIn_eq_worldOf, hvalue]⟩
  · intro skeleton hperm
    exact ⟨baked, bake_perm hd hperm hb, rfl, rfl, (hperm.map (urdfLink body spec baked)).symm⟩

/-- **Key result**: an admitted contract is unambiguous exactly when the names of its skeleton
are distinct, which no check asks for. -/
theorem unambiguous_iff (engines : Engines K) (E : Exact K) (body : LinkBody) (spec : ModelSpec)
    (catalog : CatalogSource) (opts : Options) (h : Admitted engines E spec catalog opts) :
    (∃ baked, (runChecks engines E spec catalog opts).2 = some baked ∧ Unambiguous engines E body spec baked) ↔
      (spec.skeleton.map Node.name).Nodup := by
  constructor
  · rintro ⟨baked, -, hu⟩
    exact hu.distinct
  · intro hd
    obtain ⟨baked, hb, hrun⟩ := bake_of_admitted h
    exact ⟨baked, hrun, unambiguous_of_nodup hd hb⟩

end

/-! ### Twins -/

/-- What a servo does after steps in which it stayed bounded. -/
theorem Servo.settle_add (m n : ℕ) {s s' : Servo} (h : settle m s = (true, s')) : settle (m + n) s = settle n s' := by
  induction m generalizing s with
  | zero =>
    obtain rfl : s = s' := congrArg Prod.snd h
    rw [Nat.zero_add]
  | succ m ih =>
    rw [Nat.succ_add]
    dsimp only [settle] at h ⊢
    split_ifs at h ⊢ with hlost
    · cases h
    · exact ih h

/-- A servo that comes back after two steps stays where it is. -/
theorem Servo.settle_cycle {s : Servo} (h : settle 2 s = (true, s)) (n : ℕ) : settle (2 * n) s = (true, s) := by
  induction n with
  | zero => rfl
  | succ n ih => rw [Nat.mul_succ, Nat.add_comm, settle_add 2 _ h, ih]

/-- The servo of the check, settled: from here on only the last bits of its speed change. -/
def Servo.rest : Servo :=
  { omega := 15.0, zeta := 0.85, x := Float.ofBits 4607182418800017407, v := Float.ofBits 4382466043275486630 }

/-- The servo of the check on its way. -/
def Servo.passing (x v : UInt64) : Servo := { omega := 15.0, zeta := 0.85, x := Float.ofBits x, v := Float.ofBits v }

/-- The servo of the check is settled after 102 steps; they are taken in six parts. -/
theorem Servo.settle_rest : settle 102 { omega := 15.0, zeta := 0.85, x := 0.0, v := 0.0 } = (true, .rest) := by
  have h17 : settle 17 { omega := 15.0, zeta := 0.85, x := 0.0, v := 0.0 } =
    (true, passing 4607180641018064744 4567955674397919239) := by decide +kernel
  have h34 : settle 17 (passing 4607180641018064744 4567955674397919239) =
    (true, passing 4607182418379255608 4513699438086706238) := by decide +kernel
  have h51 : settle 17 (passing 4607182418379255608 4513699438086706238) =
    (true, passing 4607182418799917927 4459479691089872960) := by decide +kernel
  have h68 : settle 17 (passing 4607182418799917927 4459479691089872960) =
    (true, passing 4607182418800017384 4405370637078178822) := by decide +kernel
  have h85 : settle 17 (passing 4607182418800017384 4405370637078178822) =
    (true, passing 4607182418800017407 4382466041371300895) := by decide +kernel
  have h102 : settle 17 (passing 4607182418800017407 4382466041371300895) = (true, .rest) := by decide +kernel
  calc settle 102 { omega := 15.0, zeta := 0.85, x := 0.0, v := 0.0 }
      = settle 85 (passing 4607180641018064744 4567955674397919239) := settle_add 17 85 h17
    _ = settle 68 (passing 4607182418379255608 4513699438086706238) := settle_add 17 68 h34
    _ = settle 51 (passing 4607182418799917927 4459479691089872960) := settle_add 17 51 h51
    _ = settle 34 (passing 4607182418800017384 4405370637078178822) := settle_add 17 34 h68
    _ = settle 17 (passing 4607182418800017407 4382466041371300895) := settle_add 17 17 h85
    _ = (true, .rest) := h102

theorem servoChecks_eq_nil : servoChecks = [] := by
  have hcycle : Servo.settle 2 .rest = (true, .rest) := by decide +kernel
  have hsettled := (Servo.settle_add 102 298 Servo.settle_rest).trans (Servo.settle_cycle hcycle 149)
  have hclose : ¬ (Servo.rest.x - 1.0).abs > 0.01 := by decide +kernel
  unfold servoChecks
  rw [hsettled]
  simp [hclose]

section

variable (engines : Engines ℚ) (E : Exact ℚ) (catalog : CatalogSource)

/-- A baked model without parts. -/
def bareModel (w : BTreeMap String (Mat4 ℚ)) : BakedModel ℚ :=
  { parts := [], nodeWorld := w, totalPolygons := 0, totalVertices := 0, totalFaces := 0 }

theorem bake_glider {skeleton : List Node} {w : BTreeMap String (Mat4 ℚ)}
    (h : nodeWorldTransforms E (glider skeleton) = .ok w) :
    bake E engines.build (glider skeleton) = .ok (bareModel w) :=
  bind_eq_ok.mpr ⟨w, h, rfl⟩

theorem contractChecks_glider (skeleton : List Node) :
    contractChecks engines (glider skeleton) catalog = (engines.catalogDrift (glider skeleton)).map warning := by
  have hport : portChecks (glider skeleton) = [] := rfl
  have hslot : slotChecks (glider skeleton) = [] := rfl
  have hcolor : colorChecks (glider skeleton) = [] := rfl
  have hlock : lockfileChecks (glider skeleton) catalog = [] := rfl
  have hnone : colliders (glider skeleton) = [] := rfl
  have hcollider : colliderChecks (glider skeleton) = [] := by simp [colliderChecks, hnone]
  have hdriver : driverChecks (glider skeleton) = [] := rfl
  have hprov : provenanceChecks (glider skeleton) = [] := rfl
  simp only [contractChecks, hport, hslot, hcolor, hlock, hcollider, hdriver, hprov, List.nil_append, List.append_nil]

theorem bakedChecks_glider (skeleton : List Node) (w : BTreeMap String (Mat4 ℚ)) :
    bakedChecks engines (glider skeleton) (bareModel w) {} =
      (engines.interference (glider skeleton) (bareModel w)).map warning ++ smokeChecks engines (glider skeleton) := by
  have hparts : (bareModel w).parts = [] := rfl
  have hfaces : (bareModel w).totalFaces = 0 := rfl
  have hmass : massChecks engines (glider skeleton) (bareModel w) = [] := rfl
  have hpower : powertrainChecks engines (glider skeleton) (bareModel w) = [] := rfl
  have hexplode : explodeChecks (glider skeleton) = [] := rfl
  simp [bakedChecks, finiteChecks, budgetChecks, degenerateChecks, dfmChecks, hparts, hfaces, hmass, hpower, hexplode,
    servoChecks_eq_nil]

/-- No check has an objection to a glider that can be baked. -/
theorem admitted_glider {skeleton : List Node} {w : BTreeMap String (Mat4 ℚ)}
    (h : nodeWorldTransforms E (glider skeleton) = .ok w) : Admitted engines E (glider skeleton) catalog {} := by
  have hwarn : ∀ ds : List Diagnostic, ∀ f ∈ ds.map warning, f.severity ≠ .error := by
    intro ds f hf
    obtain ⟨d, -, rfl⟩ := List.mem_map.mp hf
    exact nofun
  have hsmoke : ∀ f ∈ smokeChecks engines (glider skeleton), f.severity ≠ .error := by
    simp [smokeChecks, glider, warning]
  intro f hf
  unfold runChecks at hf
  rw [bake_glider engines E h] at hf
  simp only [contractChecks_glider, bakedChecks_glider, List.mem_append] at hf
  rcases hf with hf | hf | hf
  · exact hwarn _ f hf
  · exact hwarn _ f hf
  · exact hsmoke f hf

/-- Two roots called `hub`. -/
def twins (x y : Float) : ModelSpec := glider [hub x, hub y]

/-- The transform of the second of two roots with one name is the one that stays. -/
theorem nodeWorldTransforms_twins (x y : Float) : ∃ w, nodeWorldTransforms E (twins x y) = .ok w ∧
    w.get "hub" = some (trs E (hub y).pos (hub y).rot) := by
  have hroots : ∀ n ∈ (twins x y).skeleton, n.parent = none := by simp [twins, glider]
  refine ⟨_, nodeWorldTransforms_eq_ok.mpr (Forest.resolve_roots hroots .empty), ?_⟩
  have hlast : place E (hub y) none = trs E (hub y).pos (hub y).rot := by simp [place, identity_eq_one]
  rw [← hlast]
  exact (BTreeMap.get_insert _ _ _ _).trans (if_pos rfl)

/-- **The second twin takes the place of the first**, although no check objects. -/
theorem twins_ambiguous : ¬ ∃ (engines : Engines ℚ) (E : Exact ℚ) (body : LinkBody), ∀ spec catalog opts,
    Admitted engines E spec catalog opts →
      ∃ baked, (runChecks engines E spec catalog opts).2 = some baked ∧ Unambiguous engines E body spec baked := by
  rintro ⟨engines, E, body, h⟩
  obtain ⟨w, hw, hlast⟩ := nodeWorldTransforms_twins E 0.0 1.0
  obtain ⟨baked, hrun, hu⟩ := h (twins 0.0 1.0) { hasRevision := fun _ _ => true } {} (admitted_glider engines E _ hw)
  have hbaked : bareModel w = baked := by
    unfold runChecks at hrun
    rw [twins, bake_glider engines E hw] at hrun
    exact Option.some.inj hrun
  obtain ⟨m, hm, hvalue⟩ := hu.world (hub 0.0) (by simp [twins, glider])
  have hsame : trs E (hub 0.0).pos (hub 0.0).rot = trs E (hub 1.0).pos (hub 1.0).rot := by
    rw [← hbaked] at hm
    rw [Option.some.inj hvalue]
    exact Option.some.inj (hm.symm.trans hlast)
  have hnum : (num (0.0 : Float) : ℚ) = num (1.0 : Float) := by
    have h03 := congrFun (congrFun hsame 0) 3
    rwa [trs_position, trs_position] at h03
  have hzero : floatValue 0.0 = 0 := by decide +kernel
  have hone : floatValue 1.0 = 1 := by decide +kernel
  simp [num, hzero, hone] at hnum

end

/-! ### A hub with two arms -/

/-- Rotations by nothing. -/
def upright : Exact ℚ := { sin := fun _ => 0, cos := fun _ => 1, unit := unit_unturned }

/-- What the engines say about a glider without parts. -/
def quiet : Engines ℚ :=
  { build := fun _ _ => .error (.degenerate "empty mesh"), volume := fun _ => 0.0, countDegenerate := fun _ => 0
    dfmChecks := fun _ _ => [], catalogDrift := fun _ => [], interference := fun _ _ => []
    powertrain := fun _ _ => [], smoke := fun _ => [] }

/-- An arm of the hub. -/
def outrigger (name : String) : Node := { hub 0.5 with name, parent := some "hub" }

/-- A child that is listed before its parent, the parent, and another child. -/
def rig : List Node := [outrigger "left", hub 0.0, outrigger "right"]

theorem rig_nodup : (rig.map Node.name).Nodup := by decide

/-- The arm that comes first has to wait for the second pass. -/
theorem rooted_rig : ∀ n ∈ rig, Forest.Rooted Node.name Node.parent rig n := by
  have hroot : Forest.Rooted Node.name Node.parent rig (hub 0.0) := .root rfl
  have harm (name : String) : Forest.Rooted Node.name Node.parent rig (outrigger name) :=
    .child rfl (.tail _ (.head _)) rfl hroot
  simp only [rig, List.forall_mem_cons]
  exact ⟨harm "left", hroot, harm "right", fun _ h => absurd h List.not_mem_nil⟩

theorem admitted_rig : Admitted quiet upright (glider rig) { hasRevision := fun _ _ => true } {} := by
  have hresolved : ∃ w, Forest.resolve Node.name Node.parent (place upright) rig.length rig .empty = .ok w :=
    (Forest.resolve_isOk_iff rig_nodup).mpr rooted_rig
  obtain ⟨w, hw⟩ := hresolved
  exact admitted_glider quiet upright _ (nodeWorldTransforms_eq_ok.mpr hw)

theorem unambiguous_iff_rig : ∃ baked,
    (runChecks quiet upright (glider rig) { hasRevision := fun _ _ => true } {}).2 = some baked ∧
      Unambiguous quiet upright (fun _ _ _ => []) (glider rig) baked :=
  (unambiguous_iff quiet upright _ _ _ _ admitted_rig).mpr rig_nodup

end Forge.Validate
