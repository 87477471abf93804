import Forge.Contract.Migrated

/-!
# Migrating a document twice

Migration is meant to be the identity on current documents and to have nothing left
to do after one run. Both are settled here exactly.

* `migrate_encode_iff`: a written document whose slots are all equipped comes back as
  it was just when its doubles are finite and its free-form data does not look
  historical.
* `remigrate_iff`: the result of a migration is migrated to itself, with nothing
  applied, just when every slot of the original document states its equipped variant
  or has none to choose from, or gets it from the migration.

The texts are read and printed by the JSON library; that it reads back what it
printed is assumed of the documents at hand, and only of them.
-/

namespace Forge.Contract

/-! ### A sample document -/

/-- Some documents and their texts. -/
structure Table where
  docs : List (String × Json)
  texts : (docs.map Prod.fst).Nodup
  values : (docs.map Prod.snd).Nodup
  wf : ∀ d ∈ docs, d.2.WF

namespace Table

/-- The library that reads and prints the documents of a table. -/
def lib (t : Table) : SerdeJson where
  fromStr text :=
    match t.docs.find? fun d => d.1 = text with
    | some d => .ok d.2
    | none => .error { message := "expected value at line 1 column 1", line := 1, column := 1 }
  toString j := ((t.docs.find? fun d => d.2 = j).map Prod.fst).getD ""
  mismatch _ := { message := "invalid type at line 1 column 1", line := 1, column := 1 }
  wf {text j} h := by
    split at h
    · rename_i d hd
      obtain rfl := Except.ok.inj h
      exact t.wf d (List.mem_of_find?_eq_some hd)
    · cases h

theorem find?_of_nodup {α β : Type} [DecidableEq β] {f : α → β} {as : List α} (h : (as.map f).Nodup) {a : α}
    (ha : a ∈ as) : as.find? (fun b => f b = f a) = some a := by
  induction as with
  | nil => cases ha
  | cons b as ih =>
    rw [List.map_cons, List.nodup_cons] at h
    rcases List.mem_cons.mp ha with rfl | ha
    · simp
    · have hne : f b ≠ f a := fun he => h.1 (he ▸ List.mem_map_of_mem ha)
      rw [List.find?_cons_of_neg (by simpa using hne), ih h.2 ha]

theorem fromStr_lib (t : Table) {d : String × Json} (hd : d ∈ t.docs) : t.lib.fromStr d.1 = .ok d.2 := by
  simp only [lib, find?_of_nodup t.texts hd]

theorem rereads_lib (t : Table) {d : String × Json} (hd : d ∈ t.docs) : t.lib.Rereads d.2 := by
  have hprint : t.lib.toString d.2 = d.1 := by
    simp only [lib, find?_of_nodup t.values hd, Option.map_some, Option.getD_some]
  rw [SerdeJson.Rereads, hprint]
  exact t.fromStr_lib hd

end Table

/-- A rover with one slot, which has one variant. -/
def rover (equipped : Option String) (params : Json) : ModelSpec where
  «meta» :=
    { id := "m", name := "m", version := "1.0.0", archetype := .rover, license := "MIT",
      provenance := { kind := .human, promptHash := none, modelVersion := none, seed := none } }
  env := .default
  skeleton := []
  parts := []
  slots :=
    [{ id := "s", label := "s", mountNodes := [], joint := none, equippedVariantId := equipped,
       variants :=
         [{ id := "a", name := none, desc := none, parts := none, componentRef := none,
            ports := .ofList [("elec", "XT60")] }] }]
  lockfile := .empty
  ports := []
  chains := []
  driver := { archetype := .rover, params }
  sim := .default

/-- The text of a rover, given those of its parameters, of a marker and of its slot's first member. -/
def roverText (params marker slot : String) : String :=
  "\x7b\"driver\":\x7b\"archetype\":\"rover\",\"params\":" ++ params ++ "\x7d," ++
  "\"env\":\x7b\"airDensity\":1.225,\"gravity\":9.80665,\"wind\":\x7b\"gust\":0.0,\"mean\":0.0\x7d\x7d," ++
  "\"meta\":\x7b\"archetype\":\"rover\",\"id\":\"m\",\"license\":\"MIT\",\"name\":\"m\"," ++
  "\"provenance\":\x7b\"kind\":\"human\"\x7d,\"version\":\"1.0.0\"\x7d,\"parts\":[]," ++ marker ++
  "\"sim\":\x7b\"colliders\":\x7b\"budget\":\x7b\"perModel\":24,\"perNode\":8\x7d," ++
  "\"policy\":\"per-node-compound\"\x7d\x7d,\"skeleton\":[],\"slots\":[\x7b" ++ slot ++
  "\"id\":\"s\",\"label\":\"s\",\"mountNodes\":[]," ++
  "\"variants\":[\x7b\"id\":\"a\",\"ports\":\x7b\"elec\":\"XT60\"\x7d\x7d]\x7d]\x7d"

/-- Parameters with one member, 1. -/
def oneParam (key : String) : Json := .object [(key, .number (.int 1 (by decide)))]

def oneParamText (key : String) : String := "\x7b\"" ++ key ++ "\":1\x7d"

/-- The rover with the given members of the document and of its slot in front. -/
def roverDoc (root slot : List (String × Json)) : Json :=
  .object <| root.foldl (fun ms e => Assoc.insert e.1 e.2 ms)
    [("driver", Driver.codec.encode { archetype := .rover, params := oneParam "limit" }),
     ("env", EnvBlock.codec.encode .default),
     ("meta", Meta.codec.encode (rover none .null).meta),
     ("parts", .array []),
     ("sim", SimBlock.codec.encode .default),
     ("skeleton", .array []),
     ("slots", .array [.object (slot ++
       [("id", .string "s"), ("label", .string "s"), ("mountNodes", .array []),
        ("variants", .array [.object [("id", .string "a"), ("ports", .object [("elec", .string "XT60")])]])])])]

/-- The text and the document of a rover of version 2.1. -/
def oldRover : String × Json :=
  (roverText (oneParamText "limit") "\"schemaVersion\":\"2.1.0\"," "", roverDoc [("schemaVersion", .string "2.1.0")] [])

/-- The text and the document of a rover whose slot has a null. -/
def nullRover : String × Json :=
  (roverText (oneParamText "limit") "" "\"equippedVariantId\":null,", roverDoc [] [("equippedVariantId", .null)])

/-- The text and the document of a rover whose slot is not equipped. -/
def bareRover : String × Json :=
  (roverText (oneParamText "limit") "" "", ModelSpec.codec.encode (rover none (oneParam "limit")))

/-- The text and the document of an equipped rover with a parameter. -/
def equippedRover (key : String) : String × Json :=
  (roverText (oneParamText key) "" "\"equippedVariantId\":\"a\",", ModelSpec.codec.encode (rover (some "a") (oneParam key)))

def rovers : Table where
  docs :=
    [oldRover, nullRover, bareRover, equippedRover "limit", equippedRover "capacityMah", equippedRover "capacity_mAh"]
  texts := by decide +kernel
  values := by decide +kernel
  wf := by decide +kernel

theorem oldRover_mem : oldRover ∈ rovers.docs := List.mem_cons_self

theorem nullRover_mem : nullRover ∈ rovers.docs := List.mem_cons_of_mem _ List.mem_cons_self

theorem bareRover_mem : bareRover ∈ rovers.docs := List.mem_of_mem_drop (i := 2) List.mem_cons_self

theorem equippedRover_mem {key : String} (h : key = "limit" ∨ key = "capacityMah" ∨ key = "capacity_mAh") :
    equippedRover key ∈ rovers.docs := by
  rcases h with rfl | rfl | rfl
  · exact List.mem_of_mem_drop (i := 3) List.mem_cons_self
  · exact List.mem_of_mem_drop (i := 4) List.mem_cons_self
  · exact List.mem_of_mem_drop (i := 5) List.mem_cons_self

theorem rereads_equippedRover {key : String} (h : key = "limit" ∨ key = "capacityMah" ∨ key = "capacity_mAh") :
    rovers.lib.Rereads (ModelSpec.codec.encode (rover (some "a") (oneParam key))) :=
  rovers.rereads_lib (d := equippedRover key) (equippedRover_mem h)

/-! ### What a migration returns -/

variable {lib : SerdeJson}

/-- A text of the document. -/
def SerdeJson.Serialises (lib : SerdeJson) (text : String) (spec : ModelSpec) : Prop :=
  lib.fromStr text = .ok (ModelSpec.codec.encode spec)

theorem serialises_equippedRover {key : String} (h : key = "limit" ∨ key = "capacityMah" ∨ key = "capacity_mAh") :
    rovers.lib.Serialises (equippedRover key).1 (rover (some "a") (oneParam key)) :=
  rovers.fromStr_lib (equippedRover_mem h)

theorem normalizeTarget_current : normalizeTarget "current" = .ok schemaVersion := by decide +kernel

theorem validateShape_eq_ok {j : Json} (hj : lib.Rereads j) {spec : ModelSpec} :
    validateShape lib (lib.toString j) = .ok spec ↔ ModelSpec.codec.decode j = some spec := by
  unfold validateShape
  rw [hj]
  dsimp only
  cases ModelSpec.codec.decode j <;> simp

/-- A migration succeeds when its document can be prepared and what is printed then has the right shape. -/
theorem migrateWithReport_eq_ok {doc : String} {j : Json} (hj : lib.fromStr doc = .ok j) {r : MigrationReport} :
    migrateWithReport lib doc "current" = .ok r ↔ ∃ p, prepare lib j = .ok p ∧
      validateShape lib (lib.toString p.value) = .ok r.spec ∧ r.fromSchemaVersion = p.fromSchemaVersion ∧
      r.toSchemaVersion = schemaVersion ∧ r.applied = p.applied := by
  unfold migrateWithReport
  rw [normalizeTarget_current, hj]
  simp only [bind_eq_ok, mapError_eq_ok, Except.ok.injEq, exists_eq_left']
  refine exists_congr fun p => and_congr_right fun hp => ?_
  constructor
  · rintro ⟨spec, hspec, rfl⟩
    exact ⟨hspec, rfl, rfl, rfl⟩
  · rintro ⟨hspec, h1, h2, h3⟩
    refine ⟨r.spec, hspec, ?_⟩
    rw [← h1, ← h2, ← h3]

/-! ### Equipping slots -/

section Equip

variable {map : List (String × Json)}

theorem equipSlot_of_equipped (h : (Assoc.get "equippedVariantId" map).isSome = true) :
    equipSlot (.object map) = .ok (.object map, false) := by
  rw [equipSlot, if_pos h]

variable (hnone : Assoc.get "equippedVariantId" map = none)
include hnone

theorem equipSlot_of_no_array (h : (Assoc.get "variants" map).bind Json.asArray = none) :
    equipSlot (.object map) = .ok (.object map, false) := by
  simp [equipSlot, hnone, h]

theorem equipSlot_of_empty (h : Assoc.get "variants" map = some (.array [])) :
    equipSlot (.object map) = .ok (.object map, false) := by
  simp [equipSlot, hnone, h, Json.asArray]

theorem equipSlot_of_single {only : Json} {id : String} (h : Assoc.get "variants" map = some (.array [only]))
    (hid : only.member "id" = some (.string id)) :
    equipSlot (.object map) = .ok (.object (Assoc.insert "equippedVariantId" (.string id) map), true) := by
  simp [equipSlot, hnone, h, Json.asArray, hid, Json.asStr]

theorem equipSlot_of_unnamed {only : Json} (h : Assoc.get "variants" map = some (.array [only]))
    (hid : (only.member "id").bind Json.asStr = none) : equipSlot (.object map) = .ok (.object map, false) := by
  simp [equipSlot, hnone, h, Json.asArray, hid]

theorem equipSlot_of_many {v w : Json} {vs : List Json} (h : Assoc.get "variants" map = some (.array (v :: w :: vs)))
    (y : Json × Bool) : equipSlot (.object map) ≠ .ok y := by
  simp [equipSlot, hnone, h, Json.asArray]

end Equip

/-- What equipping does to a slot. -/
theorem equipSlot_cases {slot : Json} {y : Json × Bool} (h : equipSlot slot = .ok y) : y = (slot, false) ∨
    ∃ map only id, slot = .object map ∧ Assoc.get "equippedVariantId" map = none ∧
      Assoc.get "variants" map = some (.array [only]) ∧ only.member "id" = some (.string id) ∧
      y = (.object (Assoc.insert "equippedVariantId" (.string id) map), true) := by
  cases slot with
  | object map =>
    cases hnone : Assoc.get "equippedVariantId" map with
    | some v =>
      rw [equipSlot_of_equipped (by rw [hnone]; rfl)] at h
      exact .inl (Except.ok.inj h).symm
    | none =>
      cases hvariants : (Assoc.get "variants" map).bind Json.asArray with
      | none =>
        rw [equipSlot_of_no_array hnone hvariants] at h
        exact .inl (Except.ok.inj h).symm
      | some vs =>
        obtain ⟨v, hv, hvs⟩ := Option.bind_eq_some_iff.mp hvariants
        obtain rfl : v = .array vs := by
          cases v <;> first | exact congrArg Json.array (Option.some.inj hvs) | cases hvs
        match vs with
        | [] =>
          rw [equipSlot_of_empty hnone hv] at h
          exact .inl (Except.ok.inj h).symm
        | [only] =>
          cases hid : (only.member "id").bind Json.asStr with
          | none =>
            rw [equipSlot_of_unnamed hnone hv hid] at h
            exact .inl (Except.ok.inj h).symm
          | some id =>
            obtain ⟨w, hw, hws⟩ := Option.bind_eq_some_iff.mp hid
            obtain rfl : w = .string id := by
              cases w <;> first | exact congrArg Json.string (Option.some.inj hws) | cases hws
            rw [equipSlot_of_single hnone hv hw] at h
            exact .inr ⟨map, only, id, rfl, hnone, hv, hw, (Except.ok.inj h).symm⟩
        | v :: w :: vs => exact absurd h (equipSlot_of_many hnone hv y)
  | _ => exact .inl (Except.ok.inj h).symm

/-- Slots that are left alone leave the document alone. -/
theorem normalizeEquippedVariants_of_fixed {root : List (String × Json)} (hsorted : Assoc.Sorted root)
    (h : ∀ xs, Assoc.get "slots" root = some (.array xs) → ∀ x ∈ xs, equipSlot x = .ok (x, false))
    (applied : List String) : normalizeEquippedVariants (.object root) applied = .ok (.object root, applied) := by
  unfold normalizeEquippedVariants
  dsimp only
  split
  · rename_i xs hxs
    have hall : xs.mapM equipSlot = .ok (xs.map fun x => (x, false)) := by
      rw [mapM_eq_ok, List.forall₂_map_right_iff, List.forall₂_same]
      exact h xs hxs
    have hmap : (xs.map fun x => (x, false)).map Prod.fst = xs := by simp [Function.comp_def]
    have hany : (xs.map fun x => (x, false)).any Prod.snd = false := by simp
    rw [hall]
    change Except.ok _ = _
    rw [hany, if_neg (by decide), hmap, Assoc.insert_eq_self hsorted hxs]
  · rfl

/-! ### Written documents -/

/-- The members of a slot that equipping looks at. -/
theorem Slot.get_encode (slot : Slot) : ∃ map, Slot.codec.encode slot = .object map ∧
    Assoc.get "equippedVariantId" map = slot.equippedVariantId.map Json.string ∧
    Assoc.get "variants" map = some (.array (slot.variants.map Variant.codec.encode)) := by
  refine ⟨_, rfl, ?_, ?_⟩
  · rw [Assoc.get_ofList ((Fields.keys_members _ _).nodup (by decide)), Slot.fields,
      Fields.get_members_tail (by decide), Fields.get_members_tail (by decide), Fields.get_members_tail (by decide),
      Fields.get_members_tail (by decide)]
    refine (Fields.get_members_head (f := .optional "equippedVariantId" .string) (by decide)).trans ?_
    cases slot.equippedVariantId <;> rfl
  · rw [Assoc.get_ofList ((Fields.keys_members _ _).nodup (by decide)), Slot.fields,
      Fields.get_members_tail (by decide), Fields.get_members_tail (by decide), Fields.get_members_tail (by decide),
      Fields.get_members_tail (by decide), Fields.get_members_tail (by decide)]
    rfl

theorem Variant.member_id (variant : Variant) : (Variant.codec.encode variant).member "id" = some (.string variant.id) := by
  change Assoc.get "id" (Assoc.ofList (Variant.fields.members _)) = _
  rw [Assoc.get_ofList ((Fields.keys_members _ _).nodup (by decide))]
  rfl

/-- The slots of a written document, and that it has no version marker. -/
theorem ModelSpec.get_encode (spec : ModelSpec) : ∃ root, ModelSpec.codec.encode spec = .object root ∧
    Assoc.Sorted root ∧
    Assoc.get "slots" root = (if spec.slots.isEmpty then none else some (.array (spec.slots.map Slot.codec.encode))) ∧
    Assoc.get "meta" root = some (Meta.codec.encode spec.meta) ∧
    ∀ k ∈ versionMarkers, Assoc.get k root = none := by
  refine ⟨_, rfl, Assoc.sorted_ofList _, ?_, ?_, fun k hk => ?_⟩
  · rw [Assoc.get_ofList ((Fields.keys_members _ _).nodup (by decide)), ModelSpec.fields,
      Fields.get_members_tail (by decide), Fields.get_members_tail (by decide), Fields.get_members_tail (by decide),
      Fields.get_members_tail (by decide)]
    exact Fields.get_members_head (f := .vec "slots" Slot.codec) (by decide)
  · rw [Assoc.get_ofList ((Fields.keys_members _ _).nodup (by decide))]
    rfl
  · rw [Assoc.get_ofList ((Fields.keys_members _ _).nodup (by decide)), Assoc.get_eq_none_iff]
    have hno : ∀ k ∈ versionMarkers, k ∉ ModelSpec.fields.names := by decide
    exact fun hmem => hno k hk ((Fields.keys_members _ _).subset hmem)

theorem removeVersionMarker_of_none {map : List (String × Json)} (h : ∀ k ∈ versionMarkers, Assoc.get k map = none) :
    removeVersionMarker lib map = (none, map) := by
  have hnone : (versionMarkers.findSome? fun key =>
      (Assoc.get key map).map fun value => (value, Assoc.erase key map)) = none := by
    rw [List.findSome?_eq_none_iff]
    intro k hk
    rw [h k hk]
    rfl
  unfold removeVersionMarker
  rw [hnone]

theorem takeSchemaVersionMarker_encode (spec : ModelSpec) (applied : List String) :
    takeSchemaVersionMarker lib (ModelSpec.codec.encode spec) applied =
      (none, ModelSpec.codec.encode spec, applied) := by
  obtain ⟨root, hroot, hsorted, -, hmeta, hmarkers⟩ := ModelSpec.get_encode spec
  obtain ⟨map, hmap⟩ : ∃ map, Meta.codec.encode spec.meta = .object map := ⟨_, rfl⟩
  have hinner : ∀ k ∈ versionMarkers, Assoc.get k map = none := fun k hk => by
    have hno : ∀ k ∈ versionMarkers, k ∉ Meta.fields.names := by decide
    obtain rfl := Json.object.inj hmap
    rw [Assoc.get_ofList ((Fields.keys_members _ _).nodup (by decide)), Assoc.get_eq_none_iff]
    exact fun hmem => hno k hk ((Fields.keys_members _ _).subset hmem)
  rw [hmap] at hmeta
  rw [hroot]
  simp [takeSchemaVersionMarker, removeVersionMarker_of_none hmarkers, hmeta, removeVersionMarker_of_none hinner,
    Assoc.insert_eq_self hsorted hmeta]

/-- A slot with an equipped variant, or with none to choose from. -/
def Slot.Resolved (slot : Slot) : Prop := slot.equippedVariantId.isSome = true ∨ slot.variants = []

theorem equipSlot_encode {slot : Slot} (h : slot.Resolved) :
    equipSlot (Slot.codec.encode slot) = .ok (Slot.codec.encode slot, false) := by
  obtain ⟨map, hmap, hequipped, hvariants⟩ := slot.get_encode
  rw [hmap]
  cases he : slot.equippedVariantId with
  | some id => exact equipSlot_of_equipped (by rw [hequipped, he]; rfl)
  | none =>
    rw [he] at hequipped
    rcases h with h | h
    · rw [he] at h
      cases h
    · rw [h] at hvariants
      exact equipSlot_of_empty hequipped hvariants

/-- Any other slot is equipped or refused. -/
theorem resolved_of_equipSlot_encode {slot : Slot} {j : Json} (h : equipSlot (Slot.codec.encode slot) = .ok (j, false)) :
    slot.Resolved := by
  obtain ⟨map, hmap, hequipped, hvariants⟩ := slot.get_encode
  rw [hmap] at h
  cases he : slot.equippedVariantId with
  | some id => exact .inl (by rw [he]; rfl)
  | none =>
    rw [he] at hequipped
    match hvs : slot.variants with
    | [] => exact .inr hvs
    | [v] =>
      rw [hvs] at hvariants
      rw [equipSlot_of_single hequipped hvariants v.member_id] at h
      cases h
    | v :: w :: vs =>
      rw [hvs] at hvariants
      exact absurd h (equipSlot_of_many hequipped hvariants _)

/-- Preparing a written document that is modern comes down to equipping its slots. -/
theorem prepare_encode {spec : ModelSpec} (h : normalization.Settled (ModelSpec.codec.encode spec)) {p : Prepared} :
    prepare lib (ModelSpec.codec.encode spec) = .ok p ↔
      normalizeEquippedVariants (ModelSpec.codec.encode spec) [] = .ok (p.value, p.applied) ∧
        p.fromSchemaVersion = "unknown" := by
  unfold prepare
  simp only [takeSchemaVersionMarker_encode, normalizeValue_of_settled h, bind_eq_ok, Except.ok.injEq]
  constructor
  · rintro ⟨⟨value, applied⟩, hequip, rfl⟩
    exact ⟨hequip, rfl⟩
  · rintro ⟨hequip, hversion⟩
    refine ⟨_, hequip, ?_⟩
    rw [Option.getD_none, ← hversion]

/-- **A modern document with resolved slots** is prepared to itself, with nothing applied. -/
theorem prepare_encode_of_resolved {spec : ModelSpec} (h : normalization.Settled (ModelSpec.codec.encode spec))
    (hall : ∀ slot ∈ spec.slots, slot.Resolved) : prepare lib (ModelSpec.codec.encode spec) =
      .ok { fromSchemaVersion := "unknown", value := ModelSpec.codec.encode spec, applied := [] } := by
  obtain ⟨root, hroot, hsorted, hslots, -⟩ := spec.get_encode
  refine (prepare_encode h).mpr ⟨?_, rfl⟩
  rw [hroot]
  refine normalizeEquippedVariants_of_fixed hsorted (fun xs hxs x hx => ?_) []
  rw [hslots] at hxs
  split_ifs at hxs
  obtain rfl := Json.array.inj (Option.some.inj hxs)
  obtain ⟨slot, hslot, rfl⟩ := List.mem_map.mp hx
  exact equipSlot_encode (hall slot hslot)

/-- A modern document to which nothing is applied has resolved slots. -/
theorem resolved_of_prepare_encode {spec : ModelSpec} (h : normalization.Settled (ModelSpec.codec.encode spec))
    {p : Prepared} (hp : prepare lib (ModelSpec.codec.encode spec) = .ok p) (happlied : p.applied = []) :
    ∀ slot ∈ spec.slots, slot.Resolved := by
  intro slot hslot
  obtain ⟨root, hroot, -, hslots, -⟩ := spec.get_encode
  obtain ⟨hequip, -⟩ := (prepare_encode h).mp hp
  rw [if_neg (by rw [List.isEmpty_iff]; exact List.ne_nil_of_mem hslot)] at hslots
  rw [hroot, normalizeEquippedVariants] at hequip
  simp only [hslots] at hequip
  obtain ⟨ys, hys, hequip⟩ := bind_eq_ok.mp hequip
  have hflags : ys.any Prod.snd = false := by
    by_contra hflag
    rw [Bool.not_eq_false] at hflag
    rw [hflag, if_pos rfl] at hequip
    have hlabel := (Prod.mk.inj (Except.ok.inj hequip)).2
    rw [happlied] at hlabel
    exact absurd hlabel (by decide)
  rw [mapM_eq_ok, List.forall₂_map_left_iff] at hys
  have hflip : List.Forall₂ (fun y slot => equipSlot (Slot.codec.encode slot) = .ok y) ys spec.slots := hys.flip
  obtain ⟨⟨j, flag⟩, hy, hequipped⟩ := Codec.exists_of_forall₂ hflip hslot
  obtain rfl : flag = false := by simpa using List.any_eq_false.mp hflags _ hy
  exact resolved_of_equipSlot_encode hequipped

/-! ### Current documents -/

/-- A document whose slots are equipped keeps them through the rewriting. -/
theorem prepare_encode_of_equipped {spec : ModelSpec}
    (h : ∀ slot ∈ spec.slots, slot.equippedVariantId.isSome = true) : ∃ applied,
    prepare lib (ModelSpec.codec.encode spec) = .ok
      { fromSchemaVersion := "unknown", value := normalized (ModelSpec.codec.encode spec), applied } := by
  obtain ⟨root, hroot, hsorted, hslots, -⟩ := spec.get_encode
  have hmodern : Modern root := by
    obtain rfl := Json.object.inj hroot
    exact ModelSpec.fields_modern _
  have hequip : ∀ applied, normalizeEquippedVariants (normalized (ModelSpec.codec.encode spec)) applied =
      .ok (normalized (ModelSpec.codec.encode spec), applied) := by
    rw [hroot, hmodern.normalized]
    refine normalizeEquippedVariants_of_fixed (hsorted.mapVals _) fun xs hxs x hx => ?_
    rw [Assoc.get_mapVals, hslots] at hxs
    split_ifs at hxs
    · cases hxs
    · rw [Option.map_some, normalized_array, List.map_map] at hxs
      obtain rfl := Json.array.inj (Option.some.inj hxs)
      obtain ⟨slot, hslot, rfl⟩ := List.mem_map.mp hx
      obtain ⟨map, hmap, hid, -⟩ := slot.get_encode
      have hslotModern : Modern map := by
        obtain rfl := Json.object.inj hmap
        exact Slot.fields_modern _
      rw [Function.comp_apply, hmap]
      rw [hslotModern.normalized]
      refine equipSlot_of_equipped ?_
      rw [Assoc.get_mapVals, hid, Option.isSome_map, Option.isSome_map]
      exact h slot hslot
  obtain ⟨⟨value, applied⟩, hvalue⟩ : ∃ r, normalizeValue (ModelSpec.codec.encode spec) [] = r := ⟨_, rfl⟩
  obtain rfl : value = normalized (ModelSpec.codec.encode spec) := by
    rw [← normalizeValue_fst _ [], hvalue]
  refine ⟨applied, ?_⟩
  unfold prepare
  simp only [takeSchemaVersionMarker_encode, hvalue, hequip]
  rfl

/-- **Migration is the identity on current documents** just when their doubles are finite and their
free-form data does not look historical. -/
theorem migrate_encode_iff (lib : SerdeJson) {spec : ModelSpec} {text : String} (htext : lib.Serialises text spec)
    (hequipped : ∀ slot ∈ spec.slots, slot.equippedVariantId.isSome = true)
    (hreads : lib.Rereads (normalized (ModelSpec.codec.encode spec))) :
    migrate lib text "current" = .ok spec ↔ ModelSpec.codec.finite spec = true ∧ FreeFormModern spec := by
  obtain ⟨applied, hprepare⟩ := @prepare_encode_of_equipped lib spec hequipped
  have hmigrate : migrate lib text "current" = .ok spec ↔
      ModelSpec.codec.decode (normalized (ModelSpec.codec.encode spec)) = some spec := by
    unfold migrate
    rw [map_eq_ok]
    constructor
    · rintro ⟨r, hr, rfl⟩
      obtain ⟨p, hp, hshape, -⟩ := (migrateWithReport_eq_ok htext).mp hr
      rw [hprepare] at hp
      obtain rfl := Except.ok.inj hp
      exact (validateShape_eq_ok hreads).mp hshape
    · intro hdecode
      exact ⟨⟨"unknown", schemaVersion, applied, spec⟩, (migrateWithReport_eq_ok htext).mpr
        ⟨_, hprepare, (validateShape_eq_ok hreads).mpr hdecode, rfl, rfl, rfl⟩, rfl⟩
  rw [hmigrate]
  constructor
  · intro hdecode
    exact ⟨ModelSpec.codec_lawful.finite_of_decode hdecode,
      settled_encode_iff.mp (ModelSpec.codec_tracks.exposes hdecode)⟩
  · rintro ⟨hfinite, hmodern⟩
    have hfixed : normalized (ModelSpec.codec.encode spec) = ModelSpec.codec.encode spec :=
      Rewriting.rewrite_eq_self_iff (R := normalization).mpr (settled_encode_iff.mpr hmodern)
    rw [hfixed]
    exact ModelSpec.codec_lawful.decode_encode hfinite

theorem migrate_encode_rover :
    migrate rovers.lib (equippedRover "limit").1 "current" = .ok (rover (some "a") (oneParam "limit")) := by
  have hmodern : normalized (ModelSpec.codec.encode (rover (some "a") (oneParam "limit"))) =
      ModelSpec.codec.encode (rover (some "a") (oneParam "limit")) := by decide +kernel
  have htext : rovers.lib.Serialises (equippedRover "limit").1 (rover (some "a") (oneParam "limit")) :=
    serialises_equippedRover (.inl rfl)
  have hreads : rovers.lib.Rereads (normalized (ModelSpec.codec.encode (rover (some "a") (oneParam "limit")))) := by
    rw [hmodern]
    exact rereads_equippedRover (.inl rfl)
  exact (migrate_encode_iff rovers.lib htext (by decide) hreads).mpr
    ⟨by decide +kernel, settled_encode_iff.mp (Rewriting.rewrite_eq_self_iff.mp hmodern)⟩

/-- A rover with a parameter `capacityMah` comes back with a parameter `capacity_mAh`. -/
theorem migrate_encode_changes :
    let spec := rover (some "a") (oneParam "capacityMah")
    let text := (equippedRover "capacityMah").1
    rovers.lib.Serialises text spec ∧ (∀ slot ∈ spec.slots, slot.equippedVariantId.isSome = true) ∧
      ModelSpec.codec.finite spec = true ∧ rovers.lib.Rereads (normalized (ModelSpec.codec.encode spec)) ∧
      migrate rovers.lib text "current" = .ok (rover (some "a") (oneParam "capacity_mAh")) ∧
      migrate rovers.lib text "current" ≠ .ok spec := by
  intro spec text
  have htext : rovers.lib.Serialises text spec := serialises_equippedRover (.inr (.inl rfl))
  have hnormal : normalized (ModelSpec.codec.encode spec) =
      ModelSpec.codec.encode (rover (some "a") (oneParam "capacity_mAh")) := by decide +kernel
  have hreads : rovers.lib.Rereads (ModelSpec.codec.encode (rover (some "a") (oneParam "capacity_mAh"))) :=
    rereads_equippedRover (.inr (.inr rfl))
  have hprepare : prepare rovers.lib (ModelSpec.codec.encode spec) = .ok ⟨"unknown",
      ModelSpec.codec.encode (rover (some "a") (oneParam "capacity_mAh")), ["field-aliases-v2.1"]⟩ := by decide +kernel
  have hdecode := ModelSpec.codec_lawful.decode_encode (a := rover (some "a") (oneParam "capacity_mAh")) (by decide +kernel)
  have hmigrate : migrate rovers.lib text "current" = .ok (rover (some "a") (oneParam "capacity_mAh")) :=
    map_eq_ok.mpr ⟨⟨"unknown", schemaVersion, ["field-aliases-v2.1"], _⟩, (migrateWithReport_eq_ok htext).mpr
      ⟨_, hprepare, (validateShape_eq_ok hreads).mpr hdecode, rfl, rfl, rfl⟩, rfl⟩
  have hreads' : rovers.lib.Rereads (normalized (ModelSpec.codec.encode spec)) := by
    rw [hnormal]
    exact hreads
  have hchanged : migrate rovers.lib text "current" ≠ .ok spec := by
    rw [hmigrate]
    decide +kernel
  exact ⟨htext, by decide, by decide +kernel, hreads', hmigrate, hchanged⟩

/-! ### Historical documents and the slots they describe -/

/-- The slots of a document. -/
def slotValues (doc : Json) : List Json := ((doc.field "slots" 4).bind Json.asArray).getD []

/-- A slot that a migration leaves resolved: it names its equipped variant, it has no variants, or, in an
object of an object, it says nothing and has one variant, an object. -/
def Settles (inObject : Bool) (slot : Json) : Prop :=
  (∃ v, slot.field "equippedVariantId" 4 = some v ∧ v ≠ .null) ∨ slot.field "variants" 5 = some (.array []) ∨
    inObject = true ∧ ∃ map variant, slot = .object map ∧ Assoc.get "equippedVariantId" map = none ∧
      Assoc.get "variants" map = some (.array [.object variant])

theorem field_normalized {k : String} (hk : k ∉ touchedKeys) (i : ℕ) (j : Json) :
    (normalized j).field k i = (j.field k i).map normalized := by
  cases j with
  | array xs =>
    rw [normalized_array]
    exact List.getElem?_map
  | object ms =>
    rw [normalized_object]
    exact (Assoc.get_mapVals _ _ _).trans (congrArg _ (get_normalizeMap hk))
  | _ => rfl

theorem normalized_eq_null {j : Json} : normalized j = .null ↔ j = .null :=
  ⟨Rewriting.rewrite_eq_null (R := normalization), fun h => by rw [h]; rfl⟩

theorem normalized_eq_array {j : Json} {ys : List Json} (h : normalized j = .array ys) :
    ∃ xs, j = .array xs ∧ ys = xs.map normalized := by
  cases j with
  | array xs =>
    rw [normalized_array] at h
    exact ⟨xs, rfl, (Json.array.inj h).symm⟩
  | object ms =>
    rw [normalized_object] at h
    cases h
  | _ => cases h

theorem normalized_eq_object {j : Json} {ns : List (String × Json)} (h : normalized j = .object ns) :
    ∃ ms, j = .object ms := by
  cases j with
  | array xs =>
    rw [normalized_array] at h
    cases h
  | object ms => exact ⟨ms, rfl⟩
  | _ => cases h

/-- The rewriting has no influence on which slots are left resolved. -/
theorem settles_normalized {inObject : Bool} {slot : Json} : Settles inObject (normalized slot) ↔ Settles inObject slot := by
  have hequipped : "equippedVariantId" ∉ touchedKeys := by decide
  have hvariants : "variants" ∉ touchedKeys := by decide
  unfold Settles
  rw [field_normalized hequipped, field_normalized hvariants]
  refine or_congr ?_ (or_congr ?_ (and_congr_right fun _ => ?_))
  · simp [normalized_eq_null]
  · rw [Option.map_eq_some_iff]
    constructor
    · rintro ⟨v, hv, harray⟩
      obtain ⟨xs, rfl, hxs⟩ := normalized_eq_array harray
      rw [List.map_eq_nil_iff.mp hxs.symm] at hv
      exact hv
    · exact fun h => ⟨_, h, normalized_array []⟩
  · constructor
    · rintro ⟨ns, variant, hns, hnone, hone⟩
      obtain ⟨ms, rfl⟩ := normalized_eq_object hns
      rw [normalized_object] at hns
      obtain rfl := Json.object.inj hns
      rw [Assoc.get_mapVals, get_normalizeMap hequipped, Option.map_eq_none_iff] at hnone
      rw [Assoc.get_mapVals, get_normalizeMap hvariants, Option.map_eq_some_iff] at hone
      obtain ⟨v, hv, harray⟩ := hone
      obtain ⟨xs, rfl, hxs⟩ := normalized_eq_array harray
      obtain ⟨x, rfl, hx⟩ := List.map_eq_singleton_iff.mp hxs.symm
      obtain ⟨variant', rfl⟩ := normalized_eq_object hx
      exact ⟨ms, variant', rfl, hnone, hv⟩
    · rintro ⟨ms, variant, rfl, hnone, hone⟩
      refine ⟨_, Assoc.mapVals normalized (normalizeMap (variant, [])).1, normalized_object ms, ?_, ?_⟩
      · rw [Assoc.get_mapVals, get_normalizeMap hequipped, hnone]
        rfl
      · rw [Assoc.get_mapVals, get_normalizeMap hvariants, hone, Option.map_some, normalized_array, List.map_singleton,
          normalized_object]

/-! ### Reading slots -/

theorem optionString_isSome {j : Json} {o : Option String} (h : Codec.string.option.decode j = some o) :
    o.isSome = true ↔ j ≠ .null := by
  by_cases hj : j = .null
  · subst hj
    obtain rfl := Option.some.inj h
    simp
  · rw [Codec.option_decode hj] at h
    obtain ⟨s, -, rfl⟩ := Option.map_eq_some_iff.mp h
    simp [hj]

/-- What a slot says about its equipped variant and its variants. -/
theorem Slot.of_decode {j : Json} {slot : Slot} (h : Slot.codec.decode j = some slot) :
    (slot.equippedVariantId.isSome = true ↔ ∃ v, j.field "equippedVariantId" 4 = some v ∧ v ≠ .null) ∧
    ∃ vs, j.field "variants" 5 = some (.array vs) ∧
      List.Forall₂ (fun v variant => Variant.codec.decode v = some variant) vs slot.variants := by
  cases j with
  | object ms =>
    obtain ⟨⟨id, label, mountNodes, joint, equipped, variants, _⟩, hb, rfl⟩ := Option.map_eq_some_iff.mp h
    simp only [Slot.fields, Fields.ofObject_cons] at hb
    obtain ⟨-, -, -, -, hequipped, hvariants, -⟩ := hb
    change Field.ofMember _ (Assoc.get "equippedVariantId" ms) = some equipped at hequipped
    change Field.ofMember _ (Assoc.get "variants" ms) = some variants at hvariants
    constructor
    · change equipped.isSome = true ↔ ∃ v, Assoc.get "equippedVariantId" ms = some v ∧ v ≠ .null
      cases hget : Assoc.get "equippedVariantId" ms with
      | none =>
        rw [hget] at hequipped
        obtain rfl := Option.some.inj hequipped
        simp
      | some v =>
        rw [hget] at hequipped
        simpa using optionString_isSome hequipped
    · change ∃ vs, Assoc.get "variants" ms = some (.array vs) ∧ _
      cases hget : Assoc.get "variants" ms with
      | none =>
        rw [hget] at hvariants
        cases hvariants
      | some v =>
        rw [hget] at hvariants
        obtain ⟨vs, rfl, hall⟩ := Codec.decode_list.mp hvariants
        exact ⟨vs, rfl, hall⟩
  | array xs =>
    obtain ⟨⟨id, label, mountNodes, joint, equipped, variants, _⟩, hb, rfl⟩ := Option.map_eq_some_iff.mp h
    -- the variants are required, so the array has its six elements
    have hrequired : (Field.required "variants" (.list Variant.codec)).ended ≠ some variants := fun h => by cases h
    rcases xs with _ | ⟨_, _ | ⟨_, _ | ⟨_, _ | ⟨_, _ | ⟨e, _ | ⟨v, ws⟩⟩⟩⟩⟩⟩ <;>
      simp only [Slot.fields, Fields.ofArray_cons, Fields.ofArray_cons_nil] at hb
    on_goal 7 =>
      obtain ⟨-, -, -, -, hequipped, hvariants, -⟩ := hb
      obtain ⟨vs, rfl, hall⟩ := Codec.decode_list.mp hvariants
      exact ⟨by simpa [Json.field] using optionString_isSome hequipped, vs, rfl, hall⟩
    all_goals exact absurd hb.2.2.2.2.2.1 hrequired
  | _ => cases h

theorem Slot.variants_eq_nil {j : Json} {slot : Slot} (h : Slot.codec.decode j = some slot) :
    slot.variants = [] ↔ j.field "variants" 5 = some (.array []) := by
  obtain ⟨-, vs, hvs, hall⟩ := Slot.of_decode h
  rw [hvs, Option.some.injEq, Json.array.injEq]
  constructor
  · intro hnil
    rw [hnil] at hall
    exact List.forall₂_nil_right_iff.mp hall
  · rintro rfl
    exact List.forall₂_nil_left_iff.mp hall

theorem Variant.of_decode {ms : List (String × Json)} {variant : Variant}
    (h : Variant.codec.decode (.object ms) = some variant) : Assoc.get "id" ms = some (.string variant.id) := by
  obtain ⟨⟨id, name, desc, parts, componentRef, ports, _⟩, hb, rfl⟩ := Option.map_eq_some_iff.mp h
  rw [Variant.fields, Fields.ofObject_cons] at hb
  have hid : Field.ofMember (.required "id" .string) (Assoc.get "id" ms) = some id := hb.1
  cases hget : Assoc.get "id" ms with
  | none =>
    rw [hget] at hid
    cases hid
  | some v =>
    rw [hget] at hid
    cases v with
    | string s => exact congrArg (some ∘ Json.string) (Option.some.inj hid)
    | _ => cases hid

/-- A slot that is read as it stands. -/
theorem resolved_iff_settles_false {j : Json} {slot : Slot} (h : Slot.codec.decode j = some slot) :
    slot.Resolved ↔ Settles false j := by
  unfold Slot.Resolved Settles
  rw [(Slot.of_decode h).1, Slot.variants_eq_nil h]
  simp

/-- A slot that is equipped before it is read. -/
theorem resolved_iff_settles_true {j : Json} {y : Json × Bool} {slot : Slot} (hy : equipSlot j = .ok y)
    (h : Slot.codec.decode y.1 = some slot) : slot.Resolved ↔ Settles true j := by
  rcases equipSlot_cases hy with rfl | ⟨map, only, id, rfl, hnone, hvariants, hid, rfl⟩
  · rw [resolved_iff_settles_false h]
    refine or_congr_right (or_congr_right (iff_of_false (fun h => by cases h.1) ?_))
    -- a single variant that is an object has an id, so the slot would have been equipped
    rintro ⟨-, map, variant, rfl, hnone, hone⟩
    obtain ⟨-, vs, hvs, hall⟩ := Slot.of_decode h
    obtain rfl : vs = [.object variant] := Json.array.inj (Option.some.inj (hvs.symm.trans hone))
    obtain ⟨v, -, hv, -, -⟩ := List.forall₂_cons_left_iff.mp hall
    rw [equipSlot_of_single hnone hone (Variant.of_decode hv)] at hy
    exact absurd (Prod.mk.inj (Except.ok.inj hy)).2 (by decide)
  · refine iff_of_true (.inl ((Slot.of_decode h).1.mpr ⟨.string id, Assoc.get_insert_self _ _ _, nofun⟩)) ?_
    cases only with
    | object variant => exact .inr (.inr ⟨rfl, map, variant, rfl, hnone, hvariants⟩)
    | _ => cases hid

/-! ### Reading documents -/

/-- Where the slots of a document that is read come from. -/
theorem ModelSpec.of_decode {j : Json} {spec : ModelSpec} (h : ModelSpec.codec.decode j = some spec) :
    j.field "slots" 4 = none ∧ spec.slots = [] ∨ ∃ xs, j.field "slots" 4 = some (.array xs) ∧
      List.Forall₂ (fun x slot => Slot.codec.decode x = some slot) xs spec.slots := by
  cases j with
  | object ms =>
    obtain ⟨⟨_, _, _, _, slots, _, _, _, _, _, _⟩, hb, rfl⟩ := Option.map_eq_some_iff.mp h
    simp only [ModelSpec.fields, Fields.ofObject_cons] at hb
    have hslots : Field.ofMember (.vec "slots" Slot.codec) (Assoc.get "slots" ms) = some slots := hb.2.2.2.2.1
    change Assoc.get "slots" ms = none ∧ slots = [] ∨ ∃ xs, Assoc.get "slots" ms = some (.array xs) ∧ _
    cases hget : Assoc.get "slots" ms with
    | none =>
      rw [hget] at hslots
      exact .inl ⟨rfl, (Option.some.inj hslots).symm⟩
    | some v =>
      rw [hget] at hslots
      obtain ⟨xs, rfl, hall⟩ := Codec.decode_list.mp hslots
      exact .inr ⟨xs, rfl, hall⟩
  | array xs =>
    obtain ⟨⟨_, _, _, _, slots, _, _, _, driver, _, _⟩, hb, rfl⟩ := Option.map_eq_some_iff.mp h
    -- the driver is required, so the array reaches beyond the slots
    have hrequired : (Field.required "driver" Driver.codec).ended ≠ some driver := fun h => by cases h
    rcases xs with _ | ⟨_, _ | ⟨_, _ | ⟨_, _ | ⟨_, _ | ⟨v, ws⟩⟩⟩⟩⟩ <;>
      simp only [ModelSpec.fields, Fields.ofArray_cons, Fields.ofArray_cons_nil] at hb
    on_goal 6 =>
      obtain ⟨xs, rfl, hall⟩ := Codec.decode_list.mp hb.2.2.2.2.1
      exact .inr ⟨xs, rfl, hall⟩
    all_goals exact absurd hb.2.2.2.2.2.2.2.2.1 hrequired
  | _ => cases h

theorem get_removeVersionMarker {k : String} (hk : k ∉ versionMarkers) (map : List (String × Json)) :
    Assoc.get k (removeVersionMarker lib map).2 = Assoc.get k map := by
  unfold removeVersionMarker
  dsimp only
  have hremoved : ∀ r, (versionMarkers.findSome? fun key =>
      (Assoc.get key map).map fun value => (value, Assoc.erase key map)) = some r →
      Assoc.get k r.2 = Assoc.get k map := fun r hr => by
    obtain ⟨key, hkey, hr⟩ := List.exists_of_findSome?_eq_some hr
    obtain ⟨v, -, rfl⟩ := Option.map_eq_some_iff.mp hr
    have hne : k ≠ key := fun he => hk (he ▸ hkey)
    rw [Assoc.get_erase, if_neg hne]
  split
  · rename_i hr
    exact hremoved _ hr
  · rename_i hr
    exact hremoved _ hr
  · rfl

/-- Taking the version markers leaves the slots alone. -/
theorem takeSchemaVersionMarker_object (root : List (String × Json)) (applied : List String) : ∃ root',
    (takeSchemaVersionMarker lib (.object root) applied).2.1 = .object root' ∧
      Assoc.get "slots" root' = Assoc.get "slots" root := by
  refine ⟨_, rfl, ?_⟩
  rw [← @get_removeVersionMarker lib "slots" (by decide) root]
  split
  · exact Assoc.get_insert_of_ne (by decide) _ _
  · rfl

theorem takeSchemaVersionMarker_of_not_object {j : Json} (h : j.asObject = none) (applied : List String) :
    (takeSchemaVersionMarker lib j applied).2.1 = j := by
  cases j with
  | object root => cases h
  | _ => rfl

theorem forall₂_comp {α β γ : Type} {R : α → β → Prop} {S : β → γ → Prop} {as : List α} {bs : List β} {cs : List γ}
    (h : List.Forall₂ R as bs) (h' : List.Forall₂ S bs cs) : List.Forall₂ (fun a c => ∃ b, R a b ∧ S b c) as cs := by
  induction h generalizing cs with
  | nil =>
    cases h'
    exact .nil
  | cons hR _ ih =>
    cases h' with
    | cons hS h' => exact .cons ⟨_, hR, hS⟩ (ih h')

theorem equipped_of_prepare {j : Json} {p : Prepared} (hp : prepare lib j = .ok p) : ∃ applied,
    normalizeEquippedVariants (normalized (takeSchemaVersionMarker lib j []).2.1) applied = .ok (p.value, p.applied) := by
  obtain ⟨⟨value, applied⟩, hequip, hp⟩ := bind_eq_ok.mp hp
  obtain rfl := Except.ok.inj hp
  rw [normalizeValue_fst] at hequip
  exact ⟨_, hequip⟩

/-- **The slots that are read** are resolved just when the document's own slots settle. -/
theorem slots_of_prepare {j : Json} {p : Prepared} {spec : ModelSpec} (hp : prepare lib j = .ok p)
    (hd : ModelSpec.codec.decode p.value = some spec) :
    List.Forall₂ (fun x slot => slot.Resolved ↔ Settles j.asObject.isSome x) (slotValues j) spec.slots := by
  obtain ⟨applied, hequip⟩ := equipped_of_prepare hp
  obtain ⟨version, value, applied'⟩ := p
  cases j with
  | object root =>
    obtain ⟨root', hroot', hslots⟩ := @takeSchemaVersionMarker_object lib root []
    rw [hroot', normalized_object, normalizeEquippedVariants] at hequip
    have hget : Assoc.get "slots" (Assoc.mapVals normalized (normalizeMap (root', [])).1) =
        (Assoc.get "slots" root).map normalized := by
      rw [Assoc.get_mapVals, get_normalizeMap (by decide), hslots]
    change List.Forall₂ _ (((Assoc.get "slots" root).bind Json.asArray).getD []) spec.slots
    split at hequip
    · rename_i ys hys
      obtain ⟨zs, hzs, hequip⟩ := bind_eq_ok.mp hequip
      obtain ⟨rfl, -⟩ := Prod.mk.inj (Except.ok.inj hequip)
      obtain ⟨v, hv, harray⟩ := Option.map_eq_some_iff.mp (hget.symm.trans hys)
      obtain ⟨xs, rfl, rfl⟩ := normalized_eq_array harray
      rw [hv]
      rw [mapM_eq_ok, List.forall₂_map_left_iff] at hzs
      rcases ModelSpec.of_decode hd with ⟨hnone, -⟩ | ⟨ws, hws, hall⟩
      · rw [Json.field, Assoc.get_insert_self] at hnone
        cases hnone
      · rw [Json.field, Assoc.get_insert_self] at hws
        obtain rfl := Json.array.inj (Option.some.inj hws)
        rw [List.forall₂_map_left_iff] at hall
        refine (forall₂_comp hzs hall).imp fun x slot h => ?_
        obtain ⟨y, hy, hread⟩ := h
        exact (resolved_iff_settles_true hy hread).trans settles_normalized
    · rename_i hno
      obtain ⟨rfl, -⟩ := Prod.mk.inj (Except.ok.inj hequip)
      rcases ModelSpec.of_decode hd with ⟨hnone, hnil⟩ | ⟨ws, hws, -⟩
      · rw [Json.field, hget, Option.map_eq_none_iff] at hnone
        rw [hnone, hnil]
        exact .nil
      · exact absurd hws (hno ws)
  | array xs =>
    rw [takeSchemaVersionMarker_of_not_object rfl, normalized_array] at hequip
    obtain ⟨rfl, -⟩ := Prod.mk.inj (Except.ok.inj hequip)
    rw [← normalized_array] at hd
    have hfield := field_normalized (k := "slots") (by decide) 4 (.array xs)
    rcases ModelSpec.of_decode hd with ⟨hnone, hnil⟩ | ⟨ws, hws, hall⟩
    · rw [hfield, Option.map_eq_none_iff] at hnone
      rw [slotValues, hnone, hnil]
      exact .nil
    · obtain ⟨v, hv, harray⟩ := Option.map_eq_some_iff.mp (hfield.symm.trans hws)
      obtain ⟨vs, rfl, rfl⟩ := normalized_eq_array harray
      rw [slotValues, hv]
      rw [List.forall₂_map_left_iff] at hall
      exact hall.imp fun x slot hread => (resolved_iff_settles_false hread).trans settles_normalized
  | _ =>
    rw [takeSchemaVersionMarker_of_not_object rfl] at hequip
    obtain ⟨rfl, -⟩ := Prod.mk.inj (Except.ok.inj hequip)
    cases hd

/-! ### Preparing leaves a modern document -/

theorem Modern.insert {ms : List (String × Json)} (h : Modern ms) {k : String} (hk : k ∉ legacyKeys) (hm : k ≠ "mount")
    (hr : k ≠ "componentRef") (hkind : k ≠ "kind") (v : Json) : Modern (Assoc.insert k v ms) where
  keys l hl := by
    rcases Assoc.mem_keys_insert.mp hl with rfl | hl
    · exact hk
    · exact h.keys l hl
  mount hmount href := by
    rcases Assoc.mem_keys_insert.mp hmount with he | hmount
    · exact hm he.symm
    · rcases Assoc.mem_keys_insert.mp href with he | href
      · exact hr he.symm
      · exact h.mount hmount href
  kind t ht := h.kind t (by rwa [Assoc.get_insert_of_ne (Ne.symm hkind)] at ht)

theorem settled_insert {ms : List (String × Json)} (h : normalization.Settled (.object ms)) {k : String}
    (hk : k ∉ touchedKeys) (hm : k ≠ "mount") {v : Json} (hv : normalization.Settled v) :
    normalization.Settled (.object (Assoc.insert k v ms)) := by
  obtain ⟨hms, hvals⟩ := Rewriting.settled_object.mp h
  have hsub : ∀ l ∈ legacyKeys, l ∈ touchedKeys := by decide
  refine Rewriting.settled_object.mpr ⟨hms.insert (fun hl => hk (hsub k hl)) hm (fun he => hk (he ▸ by decide))
    (fun he => hk (he ▸ by decide)) v, fun e he => ?_⟩
  rcases Assoc.mem_insert he with rfl | he
  · exact hv
  · exact hvals e he

theorem settled_equipSlot {j : Json} {y : Json × Bool} (hy : equipSlot j = .ok y) (h : normalization.Settled j) :
    normalization.Settled y.1 := by
  rcases equipSlot_cases hy with rfl | ⟨map, only, id, rfl, -, -, -, rfl⟩
  · exact h
  · exact settled_insert h (by decide) (by decide) (Rewriting.settled_atom rfl rfl)

theorem settled_prepare {j : Json} {p : Prepared} (hp : prepare lib j = .ok p) : normalization.Settled p.value := by
  obtain ⟨applied, hequip⟩ := equipped_of_prepare hp
  obtain ⟨version, value, applied'⟩ := p
  have hset := settled_normalized (takeSchemaVersionMarker lib j []).2.1
  generalize normalized (takeSchemaVersionMarker lib j []).2.1 = k at hequip hset
  unfold normalizeEquippedVariants at hequip
  split at hequip
  · rename_i root
    split at hequip
    · rename_i xs hxs
      obtain ⟨ys, hys, hequip⟩ := bind_eq_ok.mp hequip
      obtain ⟨rfl, -⟩ := Prod.mk.inj (Except.ok.inj hequip)
      have hslots : normalization.Settled (.array xs) :=
        (Rewriting.settled_object.mp hset).2 _ (Assoc.mem_of_get hxs)
      refine settled_insert hset (by decide) (by decide) (Rewriting.settled_array.mpr ?_)
      refine List.forall_mem_map.mpr fun y hy => ?_
      obtain ⟨x, hx, hxy⟩ := Codec.exists_of_forall₂ (mapM_eq_ok.mp hys) hy
      exact settled_equipSlot hxy (Rewriting.settled_array.mp hslots x hx)
    · obtain ⟨rfl, -⟩ := Prod.mk.inj (Except.ok.inj hequip)
      exact hset
  · obtain ⟨rfl, -⟩ := Prod.mk.inj (Except.ok.inj hequip)
    exact hset

/-- **Migrating the result of a migration** succeeds, returns the same document and applies nothing just
when every slot of the original document settles. -/
theorem remigrate_iff (lib : SerdeJson) {doc : String} {j : Json} (hj : lib.fromStr doc = .ok j) {r : MigrationReport}
    (hr : migrateWithReport lib doc "current" = .ok r) (hreads : ∀ p, prepare lib j = .ok p → lib.Rereads p.value)
    {text : String} (htext : lib.Serialises text r.spec) (hreads' : lib.Rereads (ModelSpec.codec.encode r.spec)) :
    (∃ r', migrateWithReport lib text "current" = .ok r' ∧ r'.spec = r.spec ∧ r'.applied = []) ↔
      ∀ slot ∈ slotValues j, Settles j.asObject.isSome slot := by
  obtain ⟨p, hp, hshape, -⟩ := (migrateWithReport_eq_ok hj).mp hr
  have hdecode : ModelSpec.codec.decode p.value = some r.spec := (validateShape_eq_ok (hreads p hp)).mp hshape
  have hset : normalization.Settled (ModelSpec.codec.encode r.spec) :=
    ModelSpec.codec_tracks.keeps hdecode (lib.wf (hreads p hp)) (settled_prepare hp)
  have hslots : (∀ slot ∈ r.spec.slots, slot.Resolved) ↔ ∀ slot ∈ slotValues j, Settles j.asObject.isSome slot := by
    have hall := slots_of_prepare hp hdecode
    constructor
    · intro h x hx
      obtain ⟨slot, hslot, hiff⟩ := Codec.exists_of_forall₂ hall.flip hx
      exact hiff.mp (h slot hslot)
    · intro h slot hslot
      obtain ⟨x, hx, hiff⟩ := Codec.exists_of_forall₂ hall hslot
      exact hiff.mpr (h x hx)
  rw [← hslots]
  constructor
  · rintro ⟨r', hr', -, happlied⟩
    obtain ⟨p', hp', -, -, -, he⟩ := (migrateWithReport_eq_ok htext).mp hr'
    exact resolved_of_prepare_encode hset hp' (he.symm.trans happlied)
  · intro hresolved
    have hprepare := @prepare_encode_of_resolved lib r.spec hset hresolved
    refine ⟨⟨"unknown", schemaVersion, [], r.spec⟩, ?_, rfl, rfl⟩
    refine (migrateWithReport_eq_ok htext).mpr ⟨_, hprepare, (validateShape_eq_ok hreads').mpr ?_, rfl, rfl, rfl⟩
    exact ModelSpec.codec_lawful.decode_encode (ModelSpec.codec_lawful.finite_of_decode hdecode)

theorem remigrate_rover : ∃ r, migrateWithReport rovers.lib (equippedRover "limit").1 "current" = .ok r ∧
    r.spec = rover (some "a") (oneParam "limit") ∧ r.applied = [] := by
  have hdoc : rovers.lib.fromStr oldRover.1 = .ok oldRover.2 := rovers.fromStr_lib oldRover_mem
  have htext : rovers.lib.Serialises (equippedRover "limit").1 (rover (some "a") (oneParam "limit")) :=
    serialises_equippedRover (.inl rfl)
  have hreads : rovers.lib.Rereads (ModelSpec.codec.encode (rover (some "a") (oneParam "limit"))) :=
    rereads_equippedRover (.inl rfl)
  have hprepare : prepare rovers.lib oldRover.2 = .ok ⟨"2.1.0",
      ModelSpec.codec.encode (rover (some "a") (oneParam "limit")),
      ["drop-schema-version-marker", "equip-single-variant-slots-v2.2"]⟩ := by decide +kernel
  have hdecode := ModelSpec.codec_lawful.decode_encode (a := rover (some "a") (oneParam "limit")) (by decide +kernel)
  have hmigrate : migrateWithReport rovers.lib oldRover.1 "current" = .ok ⟨"2.1.0", schemaVersion,
      ["drop-schema-version-marker", "equip-single-variant-slots-v2.2"], rover (some "a") (oneParam "limit")⟩ :=
    (migrateWithReport_eq_ok hdoc).mpr ⟨_, hprepare, (validateShape_eq_ok hreads).mpr hdecode, rfl, rfl, rfl⟩
  have hprepared : ∀ p, prepare rovers.lib oldRover.2 = .ok p → rovers.lib.Rereads p.value := fun p hp => by
    rw [hprepare] at hp
    obtain rfl := Except.ok.inj hp
    exact hreads
  refine (remigrate_iff rovers.lib hdoc hmigrate hprepared htext hreads).mpr fun slot hslot => ?_
  obtain rfl := List.mem_singleton.mp hslot
  exact .inr (.inr ⟨rfl, _, _, rfl, rfl, rfl⟩)

/-- A rover whose slot has a null is equipped by the second migration only. -/
theorem remigrate_changes :
    let r : MigrationReport := ⟨"unknown", schemaVersion, [], rover none (oneParam "limit")⟩
    migrateWithReport rovers.lib nullRover.1 "current" = .ok r ∧ rovers.lib.Serialises bareRover.1 r.spec ∧
      rovers.lib.Rereads (ModelSpec.codec.encode r.spec) ∧
      migrateWithReport rovers.lib bareRover.1 "current" = .ok ⟨"unknown", schemaVersion,
        ["equip-single-variant-slots-v2.2"], rover (some "a") (oneParam "limit")⟩ ∧
      ¬ ∃ r', migrateWithReport rovers.lib bareRover.1 "current" = .ok r' ∧ r'.spec = r.spec ∧ r'.applied = [] := by
  intro r
  have hdoc : rovers.lib.fromStr nullRover.1 = .ok nullRover.2 := rovers.fromStr_lib nullRover_mem
  have htext : rovers.lib.Serialises bareRover.1 (rover none (oneParam "limit")) := rovers.fromStr_lib bareRover_mem
  have hreads : rovers.lib.Rereads (ModelSpec.codec.encode (rover (some "a") (oneParam "limit"))) :=
    rereads_equippedRover (.inl rfl)
  have hprepare : prepare rovers.lib nullRover.2 = .ok ⟨"unknown", nullRover.2, []⟩ := by decide +kernel
  have hprepare' : prepare rovers.lib (ModelSpec.codec.encode (rover none (oneParam "limit"))) = .ok ⟨"unknown",
      ModelSpec.codec.encode (rover (some "a") (oneParam "limit")), ["equip-single-variant-slots-v2.2"]⟩ := by
    decide +kernel
  have hdecode : ModelSpec.codec.decode nullRover.2 = some (rover none (oneParam "limit")) := by decide +kernel
  have hdecode' := ModelSpec.codec_lawful.decode_encode (a := rover (some "a") (oneParam "limit")) (by decide +kernel)
  have hagain : migrateWithReport rovers.lib bareRover.1 "current" = .ok ⟨"unknown", schemaVersion,
      ["equip-single-variant-slots-v2.2"], rover (some "a") (oneParam "limit")⟩ :=
    (migrateWithReport_eq_ok htext).mpr ⟨_, hprepare', (validateShape_eq_ok hreads).mpr hdecode', rfl, rfl, rfl⟩
  have hreadsNull : rovers.lib.Rereads nullRover.2 := rovers.rereads_lib nullRover_mem
  have hmigrate : migrateWithReport rovers.lib nullRover.1 "current" = .ok r :=
    (migrateWithReport_eq_ok hdoc).mpr ⟨_, hprepare, (validateShape_eq_ok hreadsNull).mpr hdecode, rfl, rfl, rfl⟩
  have hreadsBare : rovers.lib.Rereads bareRover.2 := rovers.rereads_lib bareRover_mem
  refine ⟨hmigrate, htext, hreadsBare, hagain, ?_⟩
  rintro ⟨r', hr', -, happlied⟩
  obtain rfl := Except.ok.inj (hagain.symm.trans hr')
  cases happlied

end Forge.Contract
