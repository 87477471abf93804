import Forge.Contract.Patch
import Forge.Contract.Remigration
import Forge.Geometry.Bake
import Forge.Geometry.Primitives

/-!
# Baking again

A configurator holds a `Bake` handle: a contract with its bake. A patch changes the contract and bakes it again,
and takes over the mesh of every part whose place, geometry and pose are what they were (`bake_incremental`).

The **key result** is `patched_handle_fresh`: after any number of patches, whether they succeed or fail, the handle
is the one that its contract gives by itself, and the next patch fails or succeeds as it would with a full bake,
with the same error. There is one condition: equality of doubles does not see the sign of a zero, so no patch may
change a part in this alone (`KeepsZeros`).

The text layer of JSON, the reading of patches and the mesh of a part are parameters.
-/

namespace Forge.Geometry

open Contract

/-! ### The incremental bake -/

section

variable {K : Type} [DivisionRing K] (E : Exact K) (build : Builder)

/-- The previous bake of the part, when it can be taken over. -/
def reusable (previousPhysical : List (String × Part)) (prev : BakedModel K) (i : ℕ) (sourcePath : String)
    (part : Part) : Option BakedPart :=
  (((previousPhysical[i]?).filter fun p =>
    p.1 = sourcePath && p.2.geom == part.geom && p.2.pose == part.pose).bind fun _ => prev.parts[i]?).filter
      fun previousBake => previousBake.sourcePath = sourcePath

/-- One turn of the loop of `bake_incremental`. -/
def rebakePart (nodeWorld : BTreeMap String (Mat4 K)) (previousPhysical : List (String × Part)) (prev : BakedModel K)
    (i : ℕ) (sourcePath : String) (part : Part) : Except BakeError BakedPart :=
  if nodeWorld.get part.node = none then .error (.unknownNode i part.node)
  else
    let built : Except BuildError (MeshBuffers × Counts) := match reusable previousPhysical prev i sourcePath part with
      | some prevPart => .ok (prevPart.mesh, { verts := prevPart.polyVerts, polys := prevPart.polyFaces })
      | none => build part.geom part.pose
    match built with
    | .error (.meshRef assetRef) => .error (.meshRefUnsupported i assetRef)
    | .error (.degenerate message) => .error (.badGeom i message)
    | .ok (mesh, counts) =>
      .ok { sourcePath, partIndex := i, node := part.node, material := part.material, color := part.color,
            collision := part.collision, explode := part.explode, polyVerts := counts.verts,
            polyFaces := counts.polys, mesh }

/-- `bake_incremental` -/
def bakeIncremental (spec prevSpec : ModelSpec) (prev : BakedModel K) : Except BakeError (BakedModel K) := do
  let nodeWorld ← nodeWorldTransforms E spec
  let parts ← spec.physicalPartsWithPaths.zipIdx.mapM fun e =>
    rebakePart build nodeWorld prevSpec.physicalPartsWithPaths prev e.2 e.1.1 e.1.2
  pure { parts, nodeWorld
         totalPolygons := (parts.map BakedPart.polyFaces).sum
         totalVertices := (parts.map BakedPart.polyVerts).sum
         totalFaces := (parts.map fun p => p.mesh.faceCount).sum }

end

/-! ### The handle -/

/-- What the handle calls outside: JSON, the reading of a patch with the text of its errors, and the bake of one
part. `usize` has `width` bits. -/
structure Runtime where
  json : SerdeJson
  readPatch : String → Except String (List PatchOp)
  width : ℕ
  build : Builder

/-- `apply_patch` -/
def applyPatch (R : Runtime) (contractJson patchJson : String) : Except PatchError String := do
  let doc ← (R.json.fromStr contractJson).mapError fun e =>
    { opIndex := 0, message := s!"contract is not JSON: {e.message}" }
  let ops ← (R.readPatch patchJson).mapError fun e =>
    { opIndex := 0, message := s!"patch is not a JSON-Patch array: {e}" }
  let doc ← applyOps R.width 0 doc ops
  let out := R.json.toString doc
  let _ ← (validateShape R.json out).mapError fun e =>
    { opIndex := ops.length - 1, message := s!"patched document fails the schema: {e.display}" }
  pure out

/-- `Bake` -/
structure Bake (K : Type) where
  contractJson : String
  spec : ModelSpec
  baked : BakedModel K

variable {K : Type} [DivisionRing K] (E : Exact K) (R : Runtime)

/-- `Bake::new` -/
def Bake.new (contractJson : String) : Except String (Bake K) := do
  let spec ← (validateShape R.json contractJson).mapError ShapeError.display
  let baked ← (bake E R.build spec).mapError BakeError.text
  pure { contractJson, spec, baked }

/-- `Bake::patch`, without the metadata that it returns. -/
def Bake.patch (h : Bake K) (patchJson : String) : Except String (Bake K) := do
  let next ← (applyPatch R h.contractJson patchJson).mapError PatchError.text
  let spec ← (validateShape R.json next).mapError ShapeError.display
  let baked ← (bakeIncremental E R.build spec h.spec h.baked).mapError BakeError.text
  pure { contractJson := next, spec, baked }

/-- The patch applied to the contract alone, and a new handle for the outcome. -/
def Bake.patchAfresh (h : Bake K) (patchJson : String) : Except String (Bake K) := do
  let next ← (applyPatch R h.contractJson patchJson).mapError PatchError.text
  Bake.new E R next

/-- A patch that fails leaves the handle as it is. -/
def Bake.exec (h : Bake K) (patchJson : String) : Bake K :=
  match h.patch E R patchJson with
  | .ok h => h
  | .error _ => h

/-- The handle after these patches. -/
def Bake.after (h : Bake K) (patches : List String) : Bake K := patches.foldl (Bake.exec E R) h

/-! ### The condition -/

/-- No part of `spec` differs from the one that stood in its place in `prev` by the sign of a zero alone. -/
def SameZeros (prev spec : ModelSpec) : Prop :=
  ∀ (i : ℕ) (p q : String × Part), prev.physicalPartsWithPaths[i]? = some p → spec.physicalPartsWithPaths[i]? = some q →
    (p.2.geom == q.2.geom) = true → (p.2.pose == q.2.pose) = true → p.2.geom = q.2.geom ∧ p.2.pose = q.2.pose

/-- The patch does not change the sign of a zero and nothing else of a part. -/
def Bake.KeepsZeros (h : Bake K) (patchJson : String) : Prop :=
  ∀ next spec, applyPatch R h.contractJson patchJson = .ok next → validateShape R.json next = .ok spec →
    SameZeros h.spec spec

/-- Every one of these patches keeps zeros, when the ones before it were applied. -/
def Bake.KeepsZerosAll (h : Bake K) : List String → Prop
  | [] => True
  | patchJson :: rest => h.KeepsZeros R patchJson ∧ Bake.KeepsZerosAll (h.exec E R patchJson) rest

/-! ### Parts -/

variable {E} {R}

/-- A part that is taken over was built from the same geometry. -/
theorem built_of_reusable {build : Builder} {prevSpec spec : ModelSpec} {prev : BakedModel K}
    (hprev : bake E build prevSpec = .ok prev) (hzeros : SameZeros prevSpec spec) {i : ℕ} {sourcePath : String}
    {part : Part} (hpart : spec.physicalPartsWithPaths[i]? = some (sourcePath, part)) {prevPart : BakedPart}
    (hreuse : reusable prevSpec.physicalPartsWithPaths prev i sourcePath part = some prevPart) :
    build part.geom part.pose = .ok (prevPart.mesh, { verts := prevPart.polyVerts, polys := prevPart.polyFaces }) := by
  unfold reusable at hreuse
  obtain ⟨hbake, -⟩ := Option.filter_eq_some_iff.mp hreuse
  obtain ⟨p, hp, hget⟩ := Option.bind_eq_some_iff.mp hbake
  obtain ⟨hp, hsame⟩ := Option.filter_eq_some_iff.mp hp
  simp only [Bool.and_eq_true, decide_eq_true_eq] at hsame
  obtain ⟨⟨-, hgeom⟩, hpose⟩ := hsame
  obtain ⟨hgeom, hpose⟩ := hzeros i p (sourcePath, part) hp hpart hgeom hpose
  obtain ⟨w, -, hparts⟩ := bind_eq_ok.mp hprev
  obtain ⟨parts, hparts, hb⟩ := bind_eq_ok.mp hparts
  rw [← pure_eq_ok.mp hb] at hget
  obtain ⟨e, he, hbake⟩ := exists_of_getElem?_mapM hparts hget
  obtain rfl : e = (p, i) := by simpa [hp] using he.symm
  rw [← hgeom, ← hpose]
  unfold bakePart at hbake
  rw [ite_error_eq_ok] at hbake
  have hbake := hbake.2
  split at hbake
  · cases hbake
  · cases hbake
  · rename_i mesh counts hbuild
    rw [hbuild, ← Except.ok.inj hbake]

/-- One turn of the two loops. -/
theorem rebakePart_eq {build : Builder} {prevSpec spec : ModelSpec} {prev : BakedModel K}
    (hprev : bake E build prevSpec = .ok prev) (hzeros : SameZeros prevSpec spec) (w : BTreeMap String (Mat4 K)) {i : ℕ}
    {sourcePath : String} {part : Part} (hpart : spec.physicalPartsWithPaths[i]? = some (sourcePath, part)) :
    rebakePart build w prevSpec.physicalPartsWithPaths prev i sourcePath part = bakePart build w i sourcePath part := by
  unfold rebakePart bakePart
  cases hreuse : reusable prevSpec.physicalPartsWithPaths prev i sourcePath part with
  | none => rfl
  | some prevPart => rw [built_of_reusable hprev hzeros hpart hreuse]

/-- **The incremental bake is the full bake.** -/
theorem bakeIncremental_eq {build : Builder} {prevSpec spec : ModelSpec} {prev : BakedModel K}
    (hprev : bake E build prevSpec = .ok prev) (hzeros : SameZeros prevSpec spec) :
    bakeIncremental E build spec prevSpec prev = bake E build spec := by
  unfold bakeIncremental bake
  congr 1
  funext w
  congr 1
  refine mapM_congr fun e he => rebakePart_eq hprev hzeros w ?_
  exact List.mem_zipIdx_iff_getElem?.mp he

/-! ### Handles -/

theorem Bake.new_eq_ok {contractJson : String} {h : Bake K} : Bake.new E R contractJson = .ok h ↔
    contractJson = h.contractJson ∧ validateShape R.json contractJson = .ok h.spec ∧
      bake E R.build h.spec = .ok h.baked := by
  unfold Bake.new
  constructor
  · intro hnew
    obtain ⟨spec, hspec, hnew⟩ := bind_eq_ok.mp hnew
    obtain ⟨baked, hbaked, hnew⟩ := bind_eq_ok.mp hnew
    obtain rfl := pure_eq_ok.mp hnew
    exact ⟨rfl, mapError_eq_ok.mp hspec, mapError_eq_ok.mp hbaked⟩
  · rintro ⟨rfl, hspec, hbaked⟩
    exact bind_eq_ok.mpr ⟨_, mapError_eq_ok.mpr hspec, bind_eq_ok.mpr ⟨_, mapError_eq_ok.mpr hbaked, rfl⟩⟩

theorem applyPatch_eq_ok {contractJson patchJson : String} {doc edited : Json} {ops : List PatchOp} {spec : ModelSpec}
    (hdoc : R.json.fromStr contractJson = .ok doc) (hops : R.readPatch patchJson = .ok ops)
    (happly : applyOps R.width 0 doc ops = .ok edited)
    (hshape : validateShape R.json (R.json.toString edited) = .ok spec) :
    applyPatch R contractJson patchJson = .ok (R.json.toString edited) := by
  refine bind_eq_ok.mpr ⟨_, mapError_eq_ok.mpr hdoc, bind_eq_ok.mpr ⟨_, mapError_eq_ok.mpr hops, ?_⟩⟩
  exact bind_eq_ok.mpr ⟨_, happly, bind_eq_ok.mpr ⟨_, mapError_eq_ok.mpr hshape, rfl⟩⟩

/-- A patch of a handle that its contract gives is as good as a new handle. -/
theorem Bake.patch_eq {h : Bake K} (hfresh : Bake.new E R h.contractJson = .ok h) {patchJson : String}
    (hzeros : h.KeepsZeros R patchJson) : h.patch E R patchJson = h.patchAfresh E R patchJson := by
  obtain ⟨-, -, hbaked⟩ := Bake.new_eq_ok.mp hfresh
  unfold Bake.patch Bake.patchAfresh
  cases hnext : applyPatch R h.contractJson patchJson with
  | error e => rfl
  | ok next =>
    show (_ >>= _) = Bake.new E R next
    unfold Bake.new
    cases hspec : validateShape R.json next with
    | error e => simp [hspec, bind, Except.bind, Except.mapError]
    | ok spec =>
      have hbake := bakeIncremental_eq hbaked (hzeros next spec hnext hspec)
      simp [hspec, hbake, bind, Except.bind, Except.mapError]

theorem Bake.fresh_of_patchAfresh {h h' : Bake K} {patchJson : String} (hpatch : h.patchAfresh E R patchJson = .ok h') :
    Bake.new E R h'.contractJson = .ok h' := by
  obtain ⟨next, -, hnew⟩ := bind_eq_ok.mp hpatch
  obtain ⟨rfl, -⟩ := Bake.new_eq_ok.mp hnew
  exact hnew

/-- The step lemma. -/
theorem Bake.exec_fresh {h : Bake K} (hfresh : Bake.new E R h.contractJson = .ok h) {patchJson : String}
    (hzeros : h.KeepsZeros R patchJson) :
    Bake.new E R (h.exec E R patchJson).contractJson = .ok (h.exec E R patchJson) := by
  unfold Bake.exec
  rw [Bake.patch_eq hfresh hzeros]
  cases hpatch : h.patchAfresh E R patchJson with
  | error e => exact hfresh
  | ok h' => exact Bake.fresh_of_patchAfresh hpatch

/-- **Key result: a patched handle is a fresh one.** After any patches that keep zeros the handle is the one that its
contract gives, and a further one does what a full bake would do. -/
theorem patched_handle_fresh {contractJson : String} {h : Bake K} (hnew : Bake.new E R contractJson = .ok h)
    {patches : List String} (hzeros : h.KeepsZerosAll E R patches) :
    Bake.new E R (h.after E R patches).contractJson = .ok (h.after E R patches) ∧
      ∀ patchJson, (h.after E R patches).KeepsZeros R patchJson →
        (h.after E R patches).patch E R patchJson = (h.after E R patches).patchAfresh E R patchJson := by
  have hfresh : Bake.new E R h.contractJson = .ok h := (Bake.new_eq_ok.mp hnew).1 ▸ hnew
  suffices hend : Bake.new E R (h.after E R patches).contractJson = .ok (h.after E R patches) from
    ⟨hend, fun patchJson hkeeps => Bake.patch_eq hend hkeeps⟩
  clear hnew
  induction patches generalizing h with
  | nil => exact hfresh
  | cons patchJson patches ih => exact ih hzeros.2 (Bake.exec_fresh hfresh hzeros.1)

/-! ### A rover whose second pipe is changed -/

/-- Angles that turn nothing. -/
def noTurns : Exact ℚ := ⟨fun _ => 0, fun _ => 1, unit_unturned⟩

/-- A pipe with this many sides. -/
def pipe (n : UInt32) : Part :=
  { node := "hub", geom := .lathe [⟨0.75, 0.0⟩, ⟨0.75, 1.0⟩] (some n), pose := none, material := .matte
    color := "#888888", explode := none, renderBias := none, comp := none, mass := none, collision := .none }

/-- A rover with a pipe of four sides and another one. -/
def pipes (n : UInt32) : ModelSpec :=
  { rover (some "a") (oneParam "limit") with skeleton := [hub 0.0], parts := [pipe 4, pipe n] }

def pipeText (n : String) : String :=
  "\x7b\"collision\":\"none\",\"color\":\"#888888\",\"geom\":\x7b\"kind\":\"lathe\",\"n\":" ++ n ++
    ",\"profile\":[[0.75,0.0],[0.75,1.0]]\x7d,\"material\":\"matte\",\"node\":\"hub\"\x7d"

def pipesText (n : String) : String :=
  "\x7b\"driver\":\x7b\"archetype\":\"rover\",\"params\":\x7b\"limit\":1\x7d\x7d," ++
  "\"env\":\x7b\"airDensity\":1.225,\"gravity\":9.80665,\"wind\":\x7b\"gust\":0.0,\"mean\":0.0\x7d\x7d," ++
  "\"meta\":\x7b\"archetype\":\"rover\",\"id\":\"m\",\"license\":\"MIT\",\"name\":\"m\"," ++
  "\"provenance\":\x7b\"kind\":\"human\"\x7d,\"version\":\"1.0.0\"\x7d,\"parts\":[" ++ pipeText "4" ++ "," ++
  pipeText n ++ "],\"sim\":\x7b\"colliders\":\x7b\"budget\":\x7b\"perModel\":24,\"perNode\":8\x7d," ++
  "\"policy\":\"per-node-compound\"\x7d\x7d,\"skeleton\":[\x7b\"name\":\"hub\",\"parent\":null," ++
  "\"pos\":[0.0,0.0,0.0],\"rot\":[0.0,0.0,0.0]\x7d],\"slots\":[\x7b\"equippedVariantId\":\"a\"," ++
  "\"id\":\"s\",\"label\":\"s\",\"mountNodes\":[]," ++
  "\"variants\":[\x7b\"id\":\"a\",\"ports\":\x7b\"elec\":\"XT60\"\x7d\x7d]\x7d]\x7d"

/-- The texts and the documents of two such rovers. -/
def pipeRovers : Table where
  docs := [(pipesText "8", ModelSpec.codec.encode (pipes 8)), (pipesText "6", ModelSpec.codec.encode (pipes 6))]
  texts := by decide +kernel
  values := by decide +kernel
  wf := by decide +kernel

/-- The text of a patch of the second pipe. -/
def refit : String := "[\x7b\"op\":\"replace\",\"path\":\"/parts/1/geom/n\",\"value\":6\x7d]"

theorem range_six : (-2 : ℤ) ^ 63 ≤ 6 ∧ (6 : ℤ) < 2 ^ 64 := by decide

/-- What the patch says. -/
def refitOps : List PatchOp := [.replace "/parts/1/geom/n" (.number (.int 6 range_six))]

/-- A runtime for the rovers, which reads one patch. -/
def garage : Runtime where
  json := pipeRovers.lib
  readPatch text := if text = refit then .ok refitOps else .error "expected value at line 1 column 1"
  width := 64
  build := Primitives.bakePart ⟨fun _ => 0.0, fun _ => 1.0, fun _ _ => 1.0⟩ fun _ => ""

theorem validateShape_lib (t : Table) {text : String} {spec : ModelSpec}
    (h : (text, ModelSpec.codec.encode spec) ∈ t.docs) (hfinite : ModelSpec.codec.finite spec = true) :
    validateShape t.lib text = .ok spec := by
  unfold validateShape
  rw [t.fromStr_lib h]
  dsimp only
  rw [ModelSpec.codec_lawful.decode_encode hfinite]

theorem garage_json : garage.json = pipeRovers.lib := rfl

theorem validateShape_eight : validateShape garage.json (pipesText "8") = .ok (pipes 8) := by
  have hmem : (pipesText "8", ModelSpec.codec.encode (pipes 8)) ∈ pipeRovers.docs := .head _
  rw [garage_json]
  exact validateShape_lib pipeRovers hmem (by decide +kernel)

theorem validateShape_six : validateShape garage.json (pipesText "6") = .ok (pipes 6) := by
  have hmem : (pipesText "6", ModelSpec.codec.encode (pipes 6)) ∈ pipeRovers.docs := .tail _ (.head _)
  rw [garage_json]
  exact validateShape_lib pipeRovers hmem (by decide +kernel)

theorem applyPatch_refit : applyPatch garage (pipesText "8") refit = .ok (pipesText "6") := by
  have hmem : (pipesText "8", ModelSpec.codec.encode (pipes 8)) ∈ pipeRovers.docs := .head _
  have hdoc := pipeRovers.fromStr_lib hmem
  dsimp only at hdoc
  have happly : applyOps 64 0 (ModelSpec.codec.encode (pipes 8)) refitOps = .ok (ModelSpec.codec.encode (pipes 6)) := by
    decide +kernel
  have hprint : pipeRovers.lib.toString (ModelSpec.codec.encode (pipes 6)) = pipesText "6" := by decide +kernel
  have hshape := validateShape_six
  rw [← hprint] at hshape ⊢
  rw [← garage_json] at hdoc hshape ⊢
  have hread : garage.readPatch refit = .ok refitOps := by simp [garage]
  exact applyPatch_eq_ok hdoc hread happly hshape

theorem bakePart_pipe (w : BTreeMap String (Mat4 ℚ)) (hw : w.get "hub" ≠ none) (i : ℕ) (sourcePath : String) (n : UInt32) :
    ∃ bp, bakePart garage.build w i sourcePath (pipe n) = .ok bp ∧ bp.sourcePath = sourcePath := by
  obtain ⟨mesh, counts, hok⟩ : ∃ mesh counts, garage.build (pipe n).geom (pipe n).pose = .ok (mesh, counts) := ⟨_, _, rfl⟩
  have hnode : w.get (pipe n).node ≠ none := hw
  rw [bakePart, if_neg hnode, hok]
  exact ⟨_, rfl, rfl⟩

theorem bake_pipes (n : UInt32) : ∃ baked, bake noTurns garage.build (pipes n) = .ok baked ∧
    ∃ kept, baked.parts[0]? = some kept ∧ kept.sourcePath = "/parts/0" := by
  let w : BTreeMap String (Mat4 ℚ) := BTreeMap.empty.insert "hub" (place noTurns (hub 0.0) none)
  have hw : nodeWorldTransforms noTurns (pipes n) = .ok w :=
    nodeWorldTransforms_eq_ok.mpr (Forest.resolve_roots (List.forall_mem_singleton.mpr rfl) _)
  have hget : w.get "hub" ≠ none := by simp [w, BTreeMap.get_insert]
  obtain ⟨first, hfirst, hpath⟩ := bakePart_pipe w hget 0 "/parts/0" 4
  obtain ⟨second, hsecond, -⟩ := bakePart_pipe w hget 1 "/parts/1" n
  have hparts : (pipes n).physicalPartsWithPaths.zipIdx = [(("/parts/0", pipe 4), 0), (("/parts/1", pipe n), 1)] := rfl
  refine ⟨_, bind_eq_ok.mpr ⟨_, hw, bind_eq_ok.mpr ⟨[first, second], ?_, rfl⟩⟩, first, rfl, hpath⟩
  rw [hparts]
  exact mapM_eq_ok.mpr (.cons hfirst (.cons hsecond .nil))

/-- The first pipes are the same, the second ones differ by more than a zero. -/
theorem sameZeros_pipes : SameZeros (pipes 8) (pipes 6) := by
  intro i p q hp hq hgeom _
  rcases i with _ | _ | i
  · obtain rfl := Option.some.inj hp
    obtain rfl := Option.some.inj hq
    exact ⟨rfl, rfl⟩
  · obtain rfl := Option.some.inj hp
    obtain rfl := Option.some.inj hq
    exact absurd hgeom (by decide +kernel)
  · cases hp

/-- The second pipe gets six sides; the mesh of the first one is taken over. -/
theorem rover_handle_fresh : ∃ h, Bake.new noTurns garage (pipesText "8") = .ok h ∧
    (∃ kept, reusable h.spec.physicalPartsWithPaths h.baked 0 "/parts/0" (pipe 4) = some kept) ∧
    (h.after noTurns garage [refit]).spec = pipes 6 ∧
    Bake.new noTurns garage (h.after noTurns garage [refit]).contractJson = .ok (h.after noTurns garage [refit]) := by
  obtain ⟨baked, hbaked, kept, hkept, hpath⟩ := bake_pipes 8
  obtain ⟨after, hafter, -⟩ := bake_pipes 6
  obtain ⟨h, hjson, hspec, rfl⟩ : ∃ h : Bake ℚ, h.contractJson = pipesText "8" ∧ h.spec = pipes 8 ∧ h.baked = baked :=
    ⟨⟨_, _, _⟩, rfl, rfl, rfl⟩
  have hnew : Bake.new noTurns garage (pipesText "8") = .ok h :=
    Bake.new_eq_ok.mpr ⟨hjson.symm, hspec ▸ validateShape_eight, hspec ▸ hbaked⟩
  have hzeros : h.KeepsZeros garage refit := by
    intro next spec hnext hnextSpec
    rw [hjson] at hnext
    obtain rfl := Except.ok.inj (applyPatch_refit.symm.trans hnext)
    obtain rfl := Except.ok.inj (validateShape_six.symm.trans hnextSpec)
    exact hspec ▸ sameZeros_pipes
  have hreuse : reusable h.spec.physicalPartsWithPaths h.baked 0 "/parts/0" (pipe 4) = some kept := by
    have hsame : ((pipe 4).geom == (pipe 4).geom) = true ∧ ((pipe 4).pose == (pipe 4).pose) = true := by decide +kernel
    have hfirst : (pipes 8).physicalPartsWithPaths[0]? = some ("/parts/0", pipe 4) := rfl
    rw [hspec, reusable]
    simp [hfirst, Option.filter_some, hsame, hkept, hpath]
  have hpatch : h.patch noTurns garage refit = .ok ⟨pipesText "6", pipes 6, after⟩ := by
    rw [Bake.patch_eq (hjson ▸ hnew) hzeros, Bake.patchAfresh, hjson]
    exact bind_eq_ok.mpr ⟨_, mapError_eq_ok.mpr applyPatch_refit, Bake.new_eq_ok.mpr ⟨rfl, validateShape_six, hafter⟩⟩
  have hend : h.after noTurns garage [refit] = ⟨pipesText "6", pipes 6, after⟩ := by
    rw [Bake.after, List.foldl_cons, List.foldl_nil, Bake.exec, hpatch]
  have hall : h.KeepsZerosAll noTurns garage [refit] := ⟨hzeros, trivial⟩
  exact ⟨h, hnew, ⟨kept, hreuse⟩, congrArg Bake.spec hend, (patched_handle_fresh hnew hall).1⟩

end Forge.Geometry
