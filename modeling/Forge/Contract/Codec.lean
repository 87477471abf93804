import Forge.Contract.Model
import Forge.Json.Serde

/-!
# The JSON form of a model document

The derived readers and writers of the contract types, field by field: the names are
the camel-case ones but for the few that the source renames, an absent option is left
out, and every default is the one of the type. A document is read back exactly when
all its doubles are finite (`ModelSpec.codec_lawful`).
-/

namespace Forge.Contract

/-! ### Arrays of doubles -/

def Arr2.toList {α : Type} (a : Arr2 α) : List α := [a.fst, a.snd]

def Arr2.ofList {α : Type} : List α → Option (Arr2 α)
  | [x, y] => some ⟨x, y⟩
  | _ => none

def Arr3.toList {α : Type} (a : Arr3 α) : List α := [a.x, a.y, a.z]

def Arr3.ofList {α : Type} : List α → Option (Arr3 α)
  | [x, y, z] => some ⟨x, y, z⟩
  | _ => none

/-- `[T; 2]` -/
def Arr2.codec {α : Type} (c : Codec α) : Codec (Arr2 α) := .array Arr2.toList Arr2.ofList c

/-- `[T; 3]` -/
def Arr3.codec {α : Type} (c : Codec α) : Codec (Arr3 α) := .array Arr3.toList Arr3.ofList c

theorem Arr2.codec_lawful {α : Type} {c : Codec α} (h : c.Lawful) : (Arr2.codec c).Lawful := by
  refine Codec.array_lawful h (fun _ => rfl) fun as b hb => ?_
  match as, hb with
  | [x, y], hb => exact Option.some.inj hb ▸ rfl

theorem Arr3.codec_lawful {α : Type} {c : Codec α} (h : c.Lawful) : (Arr3.codec c).Lawful := by
  refine Codec.array_lawful h (fun _ => rfl) fun as b hb => ?_
  match as, hb with
  | [x, y, z], hb => exact Option.some.inj hb ▸ rfl

/-- `[f64; 2]` -/
def pair : Codec (Arr2 Float) := Arr2.codec .double

/-- `[f64; 3]` -/
def triple : Codec (Arr3 Float) := Arr3.codec .double

theorem pair_lawful : pair.Lawful := Arr2.codec_lawful Codec.double_lawful

theorem triple_lawful : triple.Lawful := Arr3.codec_lawful Codec.double_lawful

/-! ### Meta -/

def Archetype.text : Archetype → String
  | biped => "biped"
  | multirotor => "multirotor"
  | rover => "rover"
  | arm => "arm"
  | quadruped => "quadruped"
  | fixedwing => "fixedwing"

def Archetype.codec : Codec Archetype := .units text [biped, multirotor, rover, arm, quadruped, fixedwing]

theorem Archetype.codec_lawful : Archetype.codec.Lawful :=
  Codec.units_lawful (fun a => by cases a <;> decide) fun a b => by cases a <;> cases b <;> decide

def ProvenanceKind.text : ProvenanceKind → String
  | human => "human"
  | parametricGenerator => "parametric-generator"
  | llmGeneration => "llm-generation"

def ProvenanceKind.codec : Codec ProvenanceKind := .units text [human, parametricGenerator, llmGeneration]

theorem ProvenanceKind.codec_lawful : ProvenanceKind.codec.Lawful :=
  Codec.units_lawful (fun a => by cases a <;> decide) fun a b => by cases a <;> cases b <;> decide

def Provenance.fields :=
  Fields.cons (.required "kind" ProvenanceKind.codec) <|
  .cons (.optional "promptHash" .string) <|
  .cons (.optional "modelVersion" .string) <|
  .cons (.optional "seed" .uint64) .nil

def Provenance.codec : Codec Provenance :=
  .record Provenance.fields (fun a => (a.kind, a.promptHash, a.modelVersion, a.seed, ()))
    fun (kind, promptHash, modelVersion, seed, _) => { kind, promptHash, modelVersion, seed }

theorem Provenance.codec_lawful : Provenance.codec.Lawful :=
  Codec.record_lawful (by decide)
    (.cons (Field.required_lawful _ ProvenanceKind.codec_lawful) <|
     .cons (Field.optional_lawful _ Codec.string_lawful rfl) <|
     .cons (Field.optional_lawful _ Codec.string_lawful rfl) <|
     .cons (Field.optional_lawful _ Codec.uint64_lawful rfl) .nil)
    (fun _ => rfl) fun _ => rfl

def Meta.fields :=
  Fields.cons (.required "id" .string) <|
  .cons (.required "name" .string) <|
  .cons (.required "version" .string) <|
  .cons (.required "archetype" Archetype.codec) <|
  .cons (.required "provenance" Provenance.codec) <|
  .cons (.required "license" .string) .nil

def Meta.codec : Codec Meta :=
  .record Meta.fields (fun a => (a.id, a.name, a.version, a.archetype, a.provenance, a.license, ()))
    fun (id, name, version, archetype, provenance, license, _) => { id, name, version, archetype, provenance, license }

theorem Meta.codec_lawful : Meta.codec.Lawful :=
  Codec.record_lawful (by decide)
    (.cons (Field.required_lawful _ Codec.string_lawful) <|
     .cons (Field.required_lawful _ Codec.string_lawful) <|
     .cons (Field.required_lawful _ Codec.string_lawful) <|
     .cons (Field.required_lawful _ Archetype.codec_lawful) <|
     .cons (Field.required_lawful _ Provenance.codec_lawful) <|
     .cons (Field.required_lawful _ Codec.string_lawful) .nil)
    (fun _ => rfl) fun _ => rfl

/-! ### Environment -/

def Wind.fields :=
  Fields.cons (.defaulted "mean" .double Wind.default.mean) <|
  .cons (.defaulted "gust" .double Wind.default.gust) .nil

def Wind.codec : Codec Wind :=
  .record Wind.fields (fun a => (a.mean, a.gust, ())) fun (mean, gust, _) => { mean, gust }

theorem Wind.codec_lawful : Wind.codec.Lawful :=
  Codec.record_lawful (by decide)
    (.cons (Field.defaulted_lawful _ Codec.double_lawful (by decide)) <|
     .cons (Field.defaulted_lawful _ Codec.double_lawful (by decide)) .nil)
    (fun _ => rfl) fun _ => rfl

def EnvBlock.fields :=
  Fields.cons (.defaulted "gravity" .double EnvBlock.defaultGravity) <|
  .cons (.defaulted "airDensity" .double EnvBlock.defaultAirDensity) <|
  .cons (.defaulted "wind" Wind.codec Wind.default) .nil

def EnvBlock.codec : Codec EnvBlock :=
  .record EnvBlock.fields (fun a => (a.gravity, a.airDensity, a.wind, ()))
    fun (gravity, airDensity, wind, _) => { gravity, airDensity, wind }

theorem EnvBlock.codec_lawful : EnvBlock.codec.Lawful :=
  Codec.record_lawful (by decide)
    (.cons (Field.defaulted_lawful _ Codec.double_lawful (by decide)) <|
     .cons (Field.defaulted_lawful _ Codec.double_lawful (by decide)) <|
     .cons (Field.defaulted_lawful _ Wind.codec_lawful (by decide)) .nil)
    (fun _ => rfl) fun _ => rfl

/-! ### Skeleton -/

def JointKind.text : JointKind → String
  | fixed => "fixed"
  | revolute => "revolute"
  | spherical => "spherical"

def JointKind.codec : Codec JointKind := .units text [fixed, revolute, spherical]

theorem JointKind.codec_lawful : JointKind.codec.Lawful :=
  Codec.units_lawful (fun a => by cases a <;> decide) fun a b => by cases a <;> cases b <;> decide

def Joint.fields :=
  Fields.cons (.required "type" JointKind.codec) <|
  .cons (.optional "axis" triple) <|
  .cons (.optional "maxTorqueNm" .double) <|
  .cons (.optional "maxVelRad" .double) .nil

def Joint.codec : Codec Joint :=
  .record Joint.fields (fun a => (a.kind, a.axis, a.maxTorqueNm, a.maxVelRad, ()))
    fun (kind, axis, maxTorqueNm, maxVelRad, _) => { kind, axis, maxTorqueNm, maxVelRad }

theorem Joint.codec_lawful : Joint.codec.Lawful :=
  Codec.record_lawful (by decide)
    (.cons (Field.required_lawful _ JointKind.codec_lawful) <|
     .cons (Field.optional_lawful _ triple_lawful rfl) <|
     .cons (Field.optional_lawful _ Codec.double_lawful rfl) <|
     .cons (Field.optional_lawful _ Codec.double_lawful rfl) .nil)
    (fun _ => rfl) fun _ => rfl

def Node.fields :=
  Fields.cons (.required "name" .string) <|
  .cons (.nullable "parent" .string) <|
  .cons (.required "pos" triple) <|
  .cons (.defaulted "rot" triple ⟨0.0, 0.0, 0.0⟩) <|
  .cons (.optional "limits" (Arr3.codec pair)) <|
  .cons (.optional "joint" Joint.codec) .nil

def Node.codec : Codec Node :=
  .record Node.fields (fun a => (a.name, a.parent, a.pos, a.rot, a.limits, a.joint, ()))
    fun (name, parent, pos, rot, limits, joint, _) => { name, parent, pos, rot, limits, joint }

theorem Node.codec_lawful : Node.codec.Lawful :=
  Codec.record_lawful (by decide)
    (.cons (Field.required_lawful _ Codec.string_lawful) <|
     .cons (Field.nullable_lawful _ Codec.string_lawful rfl) <|
     .cons (Field.required_lawful _ triple_lawful) <|
     .cons (Field.defaulted_lawful _ triple_lawful (by decide)) <|
     .cons (Field.optional_lawful _ (Arr3.codec_lawful pair_lawful) rfl) <|
     .cons (Field.optional_lawful _ Joint.codec_lawful rfl) .nil)
    (fun _ => rfl) fun _ => rfl

/-! ### Parts and geometry -/

def MaterialClass.text : MaterialClass → String
  | gloss => "gloss"
  | metal => "metal"
  | satin => "satin"
  | matte => "matte"
  | rubber => "rubber"

def MaterialClass.codec : Codec MaterialClass := .units text [gloss, metal, satin, matte, rubber]

theorem MaterialClass.codec_lawful : MaterialClass.codec.Lawful :=
  Codec.units_lawful (fun a => by cases a <;> decide) fun a b => by cases a <;> cases b <;> decide

def CollisionPolicy.text : CollisionPolicy → String
  | auto => "auto"
  | hull => "hull"
  | primitive => "primitive"
  | none => "none"

def CollisionPolicy.codec : Codec CollisionPolicy := .units text [auto, hull, primitive, none]

theorem CollisionPolicy.codec_lawful : CollisionPolicy.codec.Lawful :=
  Codec.units_lawful (fun a => by cases a <;> decide) fun a b => by cases a <;> cases b <;> decide

def MassSpec.fields :=
  Fields.cons (.optional "valueG" .double) <|
  .cons (.optional "densityKgm3" .double) .nil

def MassSpec.codec : Codec MassSpec :=
  .record MassSpec.fields (fun a => (a.valueG, a.densityKgm3, ()))
    fun (valueG, densityKgm3, _) => { valueG, densityKgm3 }

theorem MassSpec.codec_lawful : MassSpec.codec.Lawful :=
  Codec.record_lawful (by decide)
    (.cons (Field.optional_lawful _ Codec.double_lawful rfl) <|
     .cons (Field.optional_lawful _ Codec.double_lawful rfl) .nil)
    (fun _ => rfl) fun _ => rfl

def LoftProfile.sqFields := Fields.cons (.required "e" .double) <| .cons (.required "n" .uint32) .nil

def LoftProfile.circleFields := Fields.cons (.required "n" .uint32) .nil

def LoftProfile.write : LoftProfile → Tagged
  | sq e n => { tag := "sq", fields := sqFields, value := (e, n, ()) }
  | circle n => { tag := "circle", fields := circleFields, value := (n, ()) }

def LoftProfile.cases : List (String × TaggedCase LoftProfile) :=
  [("sq", { fields := sqFields, make := fun (e, n, _) => sq e n }),
   ("circle", { fields := circleFields, make := fun (n, _) => circle n })]

/-- The profile stands inside the tagged `Geom`, so its tag may be a number. -/
def LoftProfile.codec : Codec LoftProfile := .tagged "kind" true write cases

theorem LoftProfile.cases_fit : Codec.CasesFit "kind" write cases where
  write_make t c hc := by
    simp only [cases, List.mem_cons, List.not_mem_nil, or_false, Prod.mk.injEq] at hc
    rcases hc with ⟨rfl, rfl⟩ | ⟨rfl, rfl⟩ <;> exact fun _ => rfl
  make_write s := by cases s <;> exact ⟨_, rfl, rfl⟩
  fields t c hc := by
    simp only [cases, List.mem_cons, List.not_mem_nil, or_false, Prod.mk.injEq] at hc
    rcases hc with ⟨rfl, rfl⟩ | ⟨rfl, rfl⟩
    · exact ⟨.cons (Field.required_lawful _ Codec.double_lawful) <|
        .cons (Field.required_lawful _ Codec.uint32_lawful) .nil, by decide, by decide⟩
    · exact ⟨.cons (Field.required_lawful _ Codec.uint32_lawful) .nil, by decide, by decide⟩

theorem LoftProfile.codec_lawful : LoftProfile.codec.Lawful := Codec.tagged_lawful cases_fit

def LoftStation.fields :=
  Fields.cons (.required "y" .double) <|
  .cons (.required "sx" .double) <|
  .cons (.required "sz" .double) <|
  .cons (.optional "r" .double) .nil

def LoftStation.codec : Codec LoftStation :=
  .record LoftStation.fields (fun a => (a.y, a.sx, a.sz, a.r, ())) fun (y, sx, sz, r, _) => { y, sx, sz, r }

theorem LoftStation.codec_lawful : LoftStation.codec.Lawful :=
  Codec.record_lawful (by decide)
    (.cons (Field.required_lawful _ Codec.double_lawful) <|
     .cons (Field.required_lawful _ Codec.double_lawful) <|
     .cons (Field.required_lawful _ Codec.double_lawful) <|
     .cons (Field.optional_lawful _ Codec.double_lawful rfl) .nil)
    (fun _ => rfl) fun _ => rfl

def Geom.boxFields :=
  Fields.cons (.required "w" .double) <| .cons (.required "h" .double) <| .cons (.required "d" .double) .nil

def Geom.cboxFields :=
  Fields.cons (.required "w" .double) <| .cons (.required "h" .double) <| .cons (.required "d" .double) <|
  .cons (.required "ch" .double) .nil

def Geom.taperFields :=
  Fields.cons (.required "w0" .double) <| .cons (.required "d0" .double) <| .cons (.required "w1" .double) <|
  .cons (.required "d1" .double) <| .cons (.required "h" .double) .nil

def Geom.cylFields :=
  Fields.cons (.required "r0" .double) <| .cons (.optional "r1" .double) <| .cons (.required "h" .double) <|
  .cons (.optional "n" .uint32) .nil

def Geom.latheFields :=
  Fields.cons (.required "profile" (.list pair)) <| .cons (.optional "n" .uint32) .nil

def Geom.squircleFields :=
  Fields.cons (.required "rx" .double) <| .cons (.required "rz" .double) <| .cons (.required "h" .double) <|
  .cons (.required "e" .double) <| .cons (.optional "n" .uint32) .nil

def Geom.loftFields :=
  Fields.cons (.required "profile" LoftProfile.codec) <| .cons (.required "stations" (.list LoftStation.codec)) .nil

def Geom.meshFields := Fields.cons (.required "ref" .string) .nil

def Geom.write : Geom → Tagged
  | box w h d => { tag := "box", fields := boxFields, value := (w, h, d, ()) }
  | cbox w h d ch => { tag := "cbox", fields := cboxFields, value := (w, h, d, ch, ()) }
  | taper w0 d0 w1 d1 h => { tag := "taper", fields := taperFields, value := (w0, d0, w1, d1, h, ()) }
  | cyl r0 r1 h n => { tag := "cyl", fields := cylFields, value := (r0, r1, h, n, ()) }
  | lathe profile n => { tag := "lathe", fields := latheFields, value := (profile, n, ()) }
  | squircle rx rz h e n => { tag := "squircle", fields := squircleFields, value := (rx, rz, h, e, n, ()) }
  | loft profile stations => { tag := "loft", fields := loftFields, value := (profile, stations, ()) }
  | mesh assetRef => { tag := "mesh", fields := meshFields, value := (assetRef, ()) }

def Geom.cases : List (String × TaggedCase Geom) :=
  [("box", { fields := boxFields, make := fun (w, h, d, _) => box w h d }),
   ("cbox", { fields := cboxFields, make := fun (w, h, d, ch, _) => cbox w h d ch }),
   ("taper", { fields := taperFields, make := fun (w0, d0, w1, d1, h, _) => taper w0 d0 w1 d1 h }),
   ("cyl", { fields := cylFields, make := fun (r0, r1, h, n, _) => cyl r0 r1 h n }),
   ("lathe", { fields := latheFields, make := fun (profile, n, _) => lathe profile n }),
   ("squircle", { fields := squircleFields, make := fun (rx, rz, h, e, n, _) => squircle rx rz h e n }),
   ("loft", { fields := loftFields, make := fun (profile, stations, _) => loft profile stations }),
   ("mesh", { fields := meshFields, make := fun (assetRef, _) => mesh assetRef })]

def Geom.codec : Codec Geom := .tagged "kind" false write cases

theorem Geom.cases_fit : Codec.CasesFit "kind" write cases where
  write_make t c hc := by
    simp only [cases, List.mem_cons, List.not_mem_nil, or_false, Prod.mk.injEq] at hc
    rcases hc with ⟨rfl, rfl⟩ | ⟨rfl, rfl⟩ | ⟨rfl, rfl⟩ | ⟨rfl, rfl⟩ | ⟨rfl, rfl⟩ | ⟨rfl, rfl⟩ | ⟨rfl, rfl⟩ |
      ⟨rfl, rfl⟩ <;> exact fun _ => rfl
  make_write s := by cases s <;> exact ⟨_, rfl, rfl⟩
  fields t c hc := by
    have hd : ∀ name, (Field.required name .double).Lawful := fun _ => Field.required_lawful _ Codec.double_lawful
    have hn : (Field.optional "n" .uint32).Lawful := Field.optional_lawful _ Codec.uint32_lawful rfl
    simp only [cases, List.mem_cons, List.not_mem_nil, or_false, Prod.mk.injEq] at hc
    rcases hc with ⟨rfl, rfl⟩ | ⟨rfl, rfl⟩ | ⟨rfl, rfl⟩ | ⟨rfl, rfl⟩ | ⟨rfl, rfl⟩ | ⟨rfl, rfl⟩ | ⟨rfl, rfl⟩ |
      ⟨rfl, rfl⟩
    · exact ⟨.cons (hd _) <| .cons (hd _) <| .cons (hd _) .nil, by decide, by decide⟩
    · exact ⟨.cons (hd _) <| .cons (hd _) <| .cons (hd _) <| .cons (hd _) .nil, by decide, by decide⟩
    · exact ⟨.cons (hd _) <| .cons (hd _) <| .cons (hd _) <| .cons (hd _) <| .cons (hd _) .nil, by decide, by decide⟩
    · exact ⟨.cons (hd _) <| .cons (Field.optional_lawful _ Codec.double_lawful rfl) <| .cons (hd _) <| .cons hn .nil,
        by decide, by decide⟩
    · exact ⟨.cons (Field.required_lawful _ (Codec.list_lawful pair_lawful)) <| .cons hn .nil, by decide, by decide⟩
    · exact ⟨.cons (hd _) <| .cons (hd _) <| .cons (hd _) <| .cons (hd _) <| .cons hn .nil, by decide, by decide⟩
    · exact ⟨.cons (Field.required_lawful _ LoftProfile.codec_lawful) <|
        .cons (Field.required_lawful _ (Codec.list_lawful LoftStation.codec_lawful)) .nil, by decide, by decide⟩
    · exact ⟨.cons (Field.required_lawful _ Codec.string_lawful) .nil, by decide, by decide⟩

theorem Geom.codec_lawful : Geom.codec.Lawful := Codec.tagged_lawful cases_fit

def Explode.fields :=
  Fields.cons (.required "dir" triple) <|
  .cons (.required "mag" .double) <|
  .cons (.required "t0" .double) <|
  .cons (.required "t1" .double) <|
  .cons (.optional "leader" .string) .nil

def Explode.codec : Codec Explode :=
  .record Explode.fields (fun a => (a.dir, a.mag, a.t0, a.t1, a.leader, ()))
    fun (dir, mag, t0, t1, leader, _) => { dir, mag, t0, t1, leader }

theorem Explode.codec_lawful : Explode.codec.Lawful :=
  Codec.record_lawful (by decide)
    (.cons (Field.required_lawful _ triple_lawful) <|
     .cons (Field.required_lawful _ Codec.double_lawful) <|
     .cons (Field.required_lawful _ Codec.double_lawful) <|
     .cons (Field.required_lawful _ Codec.double_lawful) <|
     .cons (Field.optional_lawful _ Codec.string_lawful rfl) .nil)
    (fun _ => rfl) fun _ => rfl

def PartPose.fields :=
  Fields.cons (.defaulted "p" triple PartPose.default.p) <|
  .cons (.defaulted "r" triple PartPose.default.r) <|
  .cons (.defaulted "s" triple PartPose.unitScale) .nil

def PartPose.codec : Codec PartPose :=
  .record PartPose.fields (fun a => (a.p, a.r, a.s, ())) fun (p, r, s, _) => { p, r, s }

theorem PartPose.codec_lawful : PartPose.codec.Lawful :=
  Codec.record_lawful (by decide)
    (.cons (Field.defaulted_lawful _ triple_lawful (by decide)) <|
     .cons (Field.defaulted_lawful _ triple_lawful (by decide)) <|
     .cons (Field.defaulted_lawful _ triple_lawful (by decide)) .nil)
    (fun _ => rfl) fun _ => rfl

def Part.fields :=
  Fields.cons (.required "node" .string) <|
  .cons (.required "geom" Geom.codec) <|
  .cons (.optional "pose" PartPose.codec) <|
  .cons (.required "material" MaterialClass.codec) <|
  .cons (.required "color" .string) <|
  .cons (.optional "explode" Explode.codec) <|
  .cons (.optional "renderBias" .double) <|
  .cons (.optional "comp" .string) <|
  .cons (.optional "mass" MassSpec.codec) <|
  .cons (.defaulted "collision" CollisionPolicy.codec .auto) .nil

def Part.codec : Codec Part :=
  .record Part.fields
    (fun a => (a.node, a.geom, a.pose, a.material, a.color, a.explode, a.renderBias, a.comp, a.mass, a.collision, ()))
    fun (node, geom, pose, material, color, explode, renderBias, comp, mass, collision, _) =>
      { node, geom, pose, material, color, explode, renderBias, comp, mass, collision }

theorem Part.codec_lawful : Part.codec.Lawful :=
  Codec.record_lawful (by decide)
    (.cons (Field.required_lawful _ Codec.string_lawful) <|
     .cons (Field.required_lawful _ Geom.codec_lawful) <|
     .cons (Field.optional_lawful _ PartPose.codec_lawful rfl) <|
     .cons (Field.required_lawful _ MaterialClass.codec_lawful) <|
     .cons (Field.required_lawful _ Codec.string_lawful) <|
     .cons (Field.optional_lawful _ Explode.codec_lawful rfl) <|
     .cons (Field.optional_lawful _ Codec.double_lawful rfl) <|
     .cons (Field.optional_lawful _ Codec.string_lawful rfl) <|
     .cons (Field.optional_lawful _ MassSpec.codec_lawful rfl) <|
     .cons (Field.defaulted_lawful _ CollisionPolicy.codec_lawful rfl) .nil)
    (fun _ => rfl) fun _ => rfl

/-! ### Slots, ports, chains -/

def Variant.fields :=
  Fields.cons (.required "id" .string) <|
  .cons (.optional "name" .string) <|
  .cons (.optional "desc" .string) <|
  .cons (.optional "parts" (.list Part.codec)) <|
  .cons (.optional "componentRef" .string) <|
  .cons (.map "ports") .nil

def Variant.codec : Codec Variant :=
  .record Variant.fields (fun a => (a.id, a.name, a.desc, a.parts, a.componentRef, a.ports, ()))
    fun (id, name, desc, parts, componentRef, ports, _) => { id, name, desc, parts, componentRef, ports }

theorem Variant.codec_lawful : Variant.codec.Lawful :=
  Codec.record_lawful (by decide)
    (.cons (Field.required_lawful _ Codec.string_lawful) <|
     .cons (Field.optional_lawful _ Codec.string_lawful rfl) <|
     .cons (Field.optional_lawful _ Codec.string_lawful rfl) <|
     .cons (Field.optional_lawful _ (Codec.list_lawful Part.codec_lawful) rfl) <|
     .cons (Field.optional_lawful _ Codec.string_lawful rfl) <|
     .cons (Field.map_lawful _) .nil)
    (fun _ => rfl) fun _ => rfl

def Slot.fields :=
  Fields.cons (.required "id" .string) <|
  .cons (.required "label" .string) <|
  .cons (.required "mountNodes" (.list .string)) <|
  .cons (.optional "joint" Joint.codec) <|
  .cons (.optional "equippedVariantId" .string) <|
  .cons (.required "variants" (.list Variant.codec)) .nil

def Slot.codec : Codec Slot :=
  .record Slot.fields (fun a => (a.id, a.label, a.mountNodes, a.joint, a.equippedVariantId, a.variants, ()))
    fun (id, label, mountNodes, joint, equippedVariantId, variants, _) =>
      { id, label, mountNodes, joint, equippedVariantId, variants }

theorem Slot.codec_lawful : Slot.codec.Lawful :=
  Codec.record_lawful (by decide)
    (.cons (Field.required_lawful _ Codec.string_lawful) <|
     .cons (Field.required_lawful _ Codec.string_lawful) <|
     .cons (Field.required_lawful _ (Codec.list_lawful Codec.string_lawful)) <|
     .cons (Field.optional_lawful _ Joint.codec_lawful rfl) <|
     .cons (Field.optional_lawful _ Codec.string_lawful rfl) <|
     .cons (Field.required_lawful _ (Codec.list_lawful Variant.codec_lawful)) .nil)
    (fun _ => rfl) fun _ => rfl

def Port.fields :=
  Fields.cons (.required "id" .string) <|
  .cons (.required "node" .string) <|
  .cons (.required "type" .string) <|
  .cons (.required "frame" (Arr2.codec triple)) <|
  .cons (.defaulted "capped" .bool false) .nil

def Port.codec : Codec Port :=
  .record Port.fields (fun a => (a.id, a.node, a.kind, a.frame, a.capped, ()))
    fun (id, node, kind, frame, capped, _) => { id, node, kind, frame, capped }

theorem Port.codec_lawful : Port.codec.Lawful :=
  Codec.record_lawful (by decide)
    (.cons (Field.required_lawful _ Codec.string_lawful) <|
     .cons (Field.required_lawful _ Codec.string_lawful) <|
     .cons (Field.required_lawful _ Codec.string_lawful) <|
     .cons (Field.required_lawful _ (Arr2.codec_lawful triple_lawful)) <|
     .cons (Field.defaulted_lawful _ Codec.bool_lawful rfl) .nil)
    (fun _ => rfl) fun _ => rfl

def Chain.fields :=
  Fields.cons (.required "id" .string) <|
  .cons (.required "stage" .uint32) <|
  .cons (.required "nodes" (.list .string)) <|
  .cons (.optional "dir" triple) <|
  .cons (.optional "mag" .double) <|
  .cons (.optional "t0" .double) <|
  .cons (.optional "t1" .double) .nil

def Chain.codec : Codec Chain :=
  .record Chain.fields (fun a => (a.id, a.stage, a.nodes, a.dir, a.mag, a.t0, a.t1, ()))
    fun (id, stage, nodes, dir, mag, t0, t1, _) => { id, stage, nodes, dir, mag, t0, t1 }

theorem Chain.codec_lawful : Chain.codec.Lawful :=
  Codec.record_lawful (by decide)
    (.cons (Field.required_lawful _ Codec.string_lawful) <|
     .cons (Field.required_lawful _ Codec.uint32_lawful) <|
     .cons (Field.required_lawful _ (Codec.list_lawful Codec.string_lawful)) <|
     .cons (Field.optional_lawful _ triple_lawful rfl) <|
     .cons (Field.optional_lawful _ Codec.double_lawful rfl) <|
     .cons (Field.optional_lawful _ Codec.double_lawful rfl) <|
     .cons (Field.optional_lawful _ Codec.double_lawful rfl) .nil)
    (fun _ => rfl) fun _ => rfl

/-! ### Driver and simulation block -/

def Driver.fields :=
  Fields.cons (.required "archetype" Archetype.codec) <|
  .cons (.defaulted "params" .json .null) .nil

def Driver.codec : Codec Driver :=
  .record Driver.fields (fun a => (a.archetype, a.params, ())) fun (archetype, params, _) => { archetype, params }

theorem Driver.codec_lawful : Driver.codec.Lawful :=
  Codec.record_lawful (by decide)
    (.cons (Field.required_lawful _ Archetype.codec_lawful) <|
     .cons (Field.defaulted_lawful _ Codec.json_lawful rfl) .nil)
    (fun _ => rfl) fun _ => rfl

def Battery.fields :=
  Fields.cons (.required "cells" .uint32) <|
  .cons (.required "capacity_mAh" .double) <|
  .cons (.optional "cRating" .double) <|
  .cons (.required "r_int_mohm" .double) .nil

def Battery.codec : Codec Battery :=
  .record Battery.fields (fun a => (a.cells, a.capacityMah, a.cRating, a.rIntMohm, ()))
    fun (cells, capacityMah, cRating, rIntMohm, _) => { cells, capacityMah, cRating, rIntMohm }

theorem Battery.codec_lawful : Battery.codec.Lawful :=
  Codec.record_lawful (by decide)
    (.cons (Field.required_lawful _ Codec.uint32_lawful) <|
     .cons (Field.required_lawful _ Codec.double_lawful) <|
     .cons (Field.optional_lawful _ Codec.double_lawful rfl) <|
     .cons (Field.required_lawful _ Codec.double_lawful) .nil)
    (fun _ => rfl) fun _ => rfl

def MotorSpec.fields :=
  Fields.cons (.optional "kv" .double) <|
  .cons (.optional "r_int_mohm" .double) <|
  .cons (.optional "maxCurrentA" .double) <|
  .cons (.optional "ref" .string) <|
  .cons (.required "mount" .string) <|
  .cons (.optional "dir" .int8) .nil

def MotorSpec.codec : Codec MotorSpec :=
  .record MotorSpec.fields (fun a => (a.kv, a.rIntMohm, a.maxCurrentA, a.componentRef, a.mount, a.dir, ()))
    fun (kv, rIntMohm, maxCurrentA, componentRef, mount, dir, _) =>
      { kv, rIntMohm, maxCurrentA, componentRef, mount, dir }

theorem MotorSpec.codec_lawful : MotorSpec.codec.Lawful :=
  Codec.record_lawful (by decide)
    (.cons (Field.optional_lawful _ Codec.double_lawful rfl) <|
     .cons (Field.optional_lawful _ Codec.double_lawful rfl) <|
     .cons (Field.optional_lawful _ Codec.double_lawful rfl) <|
     .cons (Field.optional_lawful _ Codec.string_lawful rfl) <|
     .cons (Field.required_lawful _ Codec.string_lawful) <|
     .cons (Field.optional_lawful _ Codec.int8_lawful rfl) .nil)
    (fun _ => rfl) fun _ => rfl

def PropSpec.fields :=
  Fields.cons (.required "diameterIn" .double) <|
  .cons (.required "pitchIn" .double) <|
  .cons (.required "blades" .uint32) <|
  .cons (.optional "ctTable" .string) .nil

def PropSpec.codec : Codec PropSpec :=
  .record PropSpec.fields (fun a => (a.diameterIn, a.pitchIn, a.blades, a.ctTable, ()))
    fun (diameterIn, pitchIn, blades, ctTable, _) => { diameterIn, pitchIn, blades, ctTable }

theorem PropSpec.codec_lawful : PropSpec.codec.Lawful :=
  Codec.record_lawful (by decide)
    (.cons (Field.required_lawful _ Codec.double_lawful) <|
     .cons (Field.required_lawful _ Codec.double_lawful) <|
     .cons (Field.required_lawful _ Codec.uint32_lawful) <|
     .cons (Field.optional_lawful _ Codec.string_lawful rfl) .nil)
    (fun _ => rfl) fun _ => rfl

def ColliderBudget.fields :=
  Fields.cons (.defaulted "perNode" .uint32 ColliderBudget.default.perNode) <|
  .cons (.defaulted "perModel" .uint32 ColliderBudget.default.perModel) .nil

def ColliderBudget.codec : Codec ColliderBudget :=
  .record ColliderBudget.fields (fun a => (a.perNode, a.perModel, ()))
    fun (perNode, perModel, _) => { perNode, perModel }

theorem ColliderBudget.codec_lawful : ColliderBudget.codec.Lawful :=
  Codec.record_lawful (by decide)
    (.cons (Field.defaulted_lawful _ Codec.uint32_lawful rfl) <|
     .cons (Field.defaulted_lawful _ Codec.uint32_lawful rfl) .nil)
    (fun _ => rfl) fun _ => rfl

def ColliderPolicy.fields :=
  Fields.cons (.defaulted "policy" .string ColliderPolicy.default.policy) <|
  .cons (.defaulted "budget" ColliderBudget.codec .default) .nil

def ColliderPolicy.codec : Codec ColliderPolicy :=
  .record ColliderPolicy.fields (fun a => (a.policy, a.budget, ())) fun (policy, budget, _) => { policy, budget }

theorem ColliderPolicy.codec_lawful : ColliderPolicy.codec.Lawful :=
  Codec.record_lawful (by decide)
    (.cons (Field.defaulted_lawful _ Codec.string_lawful rfl) <|
     .cons (Field.defaulted_lawful _ ColliderBudget.codec_lawful rfl) .nil)
    (fun _ => rfl) fun _ => rfl

def EstimatorKind.text : EstimatorKind → String
  | complementary => "complementary"
  | ekf => "ekf"

def EstimatorKind.codec : Codec EstimatorKind := .units text [complementary, ekf]

theorem EstimatorKind.codec_lawful : EstimatorKind.codec.Lawful :=
  Codec.units_lawful (fun a => by cases a <;> decide) fun a b => by cases a <;> cases b <;> decide

def Estimator.fields :=
  Fields.cons (.required "kind" EstimatorKind.codec) <|
  .cons (.required "gyroNoise" .double) <|
  .cons (.required "accelNoise" .double) <|
  .cons (.required "bias" .double) <|
  .cons (.required "latency_ms" .double) .nil

def Estimator.codec : Codec Estimator :=
  .record Estimator.fields (fun a => (a.kind, a.gyroNoise, a.accelNoise, a.bias, a.latencyMs, ()))
    fun (kind, gyroNoise, accelNoise, bias, latencyMs, _) => { kind, gyroNoise, accelNoise, bias, latencyMs }

theorem Estimator.codec_lawful : Estimator.codec.Lawful :=
  Codec.record_lawful (by decide)
    (.cons (Field.required_lawful _ EstimatorKind.codec_lawful) <|
     .cons (Field.required_lawful _ Codec.double_lawful) <|
     .cons (Field.required_lawful _ Codec.double_lawful) <|
     .cons (Field.required_lawful _ Codec.double_lawful) <|
     .cons (Field.required_lawful _ Codec.double_lawful) .nil)
    (fun _ => rfl) fun _ => rfl

def SimBlock.fields :=
  Fields.cons (.optional "battery" Battery.codec) <|
  .cons (.vec "motors" MotorSpec.codec) <|
  .cons (.vec "props" PropSpec.codec) <|
  .cons (.defaulted "colliders" ColliderPolicy.codec .default) <|
  .cons (.optional "estimator" Estimator.codec) <|
  .cons (.optional "aggregateMassG" .double) .nil

def SimBlock.codec : Codec SimBlock :=
  .record SimBlock.fields (fun a => (a.battery, a.motors, a.props, a.colliders, a.estimator, a.aggregateMassG, ()))
    fun (battery, motors, props, colliders, estimator, aggregateMassG, _) =>
      { battery, motors, props, colliders, estimator, aggregateMassG }

theorem SimBlock.codec_lawful : SimBlock.codec.Lawful :=
  Codec.record_lawful (by decide)
    (.cons (Field.optional_lawful _ Battery.codec_lawful rfl) <|
     .cons (Field.vec_lawful _ MotorSpec.codec_lawful) <|
     .cons (Field.vec_lawful _ PropSpec.codec_lawful) <|
     .cons (Field.defaulted_lawful _ ColliderPolicy.codec_lawful rfl) <|
     .cons (Field.optional_lawful _ Estimator.codec_lawful rfl) <|
     .cons (Field.optional_lawful _ Codec.double_lawful rfl) .nil)
    (fun _ => rfl) fun _ => rfl

/-! ### The document -/

def ModelSpec.fields :=
  Fields.cons (.required "meta" Meta.codec) <|
  .cons (.defaulted "env" EnvBlock.codec .default) <|
  .cons (.required "skeleton" (.list Node.codec)) <|
  .cons (.required "parts" (.list Part.codec)) <|
  .cons (.vec "slots" Slot.codec) <|
  .cons (.map "lockfile") <|
  .cons (.vec "ports" Port.codec) <|
  .cons (.vec "chains" Chain.codec) <|
  .cons (.required "driver" Driver.codec) <|
  .cons (.defaulted "sim" SimBlock.codec .default) .nil

def ModelSpec.codec : Codec ModelSpec :=
  .record ModelSpec.fields
    (fun a => (a.«meta», a.env, a.skeleton, a.parts, a.slots, a.lockfile, a.ports, a.chains, a.driver, a.sim, ()))
    fun («meta», env, skeleton, parts, slots, lockfile, ports, chains, driver, sim, _) =>
      { «meta», env, skeleton, parts, slots, lockfile, ports, chains, driver, sim }

/-- **A document is read back exactly when its doubles are finite**, and only such documents are read. -/
theorem ModelSpec.codec_lawful : ModelSpec.codec.Lawful :=
  Codec.record_lawful (by decide)
    (.cons (Field.required_lawful _ Meta.codec_lawful) <|
     .cons (Field.defaulted_lawful _ EnvBlock.codec_lawful (by decide)) <|
     .cons (Field.required_lawful _ (Codec.list_lawful Node.codec_lawful)) <|
     .cons (Field.required_lawful _ (Codec.list_lawful Part.codec_lawful)) <|
     .cons (Field.vec_lawful _ Slot.codec_lawful) <|
     .cons (Field.map_lawful _) <|
     .cons (Field.vec_lawful _ Port.codec_lawful) <|
     .cons (Field.vec_lawful _ Chain.codec_lawful) <|
     .cons (Field.required_lawful _ Driver.codec_lawful) <|
     .cons (Field.defaulted_lawful _ SimBlock.codec_lawful (by decide)) .nil)
    (fun _ => rfl) fun _ => rfl

end Forge.Contract
