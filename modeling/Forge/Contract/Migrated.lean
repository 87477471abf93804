import Forge.Contract.Migrations

/-!
# What migrating a migrated document does

Where a current document can still be taken for a historical one, and what a second
migration finds in the result of a first.

The typed parts of a document never look historical: every struct and tagged union
of the contract is closed under the rewriting. What remains is the data that is free
in form: the driver's parameters, the ports of a variant, the lockfile
(`settled_encode_iff`).
-/

namespace Forge.Contract

/-! ### The keys of the contract's structs -/

/-- Keys none of which is renamed. -/
def plain (names : List String) : Bool :=
  names.all (fun k => k ∉ legacyKeys) && !("mount" ∈ names && "componentRef" ∈ names)

theorem modern_ofList {es : List (String × Json)} {names : List String} (hkeys : Assoc.keys es ⊆ names)
    (hplain : plain names = true) (hkind : ∀ t, ("kind", .string t) ∈ es → currentKind t = none) :
    Modern (Assoc.ofList es) := by
  rw [plain, Bool.and_eq_true, List.all_eq_true] at hplain
  obtain ⟨hlegacy, hmount⟩ := hplain
  have hmem : ∀ k ∈ Assoc.keys (Assoc.ofList es), k ∈ names := fun k hk => by
    obtain ⟨e, he, rfl⟩ := List.mem_map.mp hk
    exact hkeys (Assoc.mem_keys_of_mem (Assoc.mem_of_mem_ofList he))
  constructor
  · intro k hk
    simpa using hlegacy k (hmem k hk)
  · intro hm hr
    simp [hmem _ hm, hmem _ hr] at hmount
  · intro t ht
    exact hkind t (Assoc.mem_of_mem_ofList (Assoc.mem_of_get ht))

section Structs

variable {α β : Type} {fs : Fields β}

theorem modern_fields (hplain : plain fs.names = true) (hkind : "kind" ∉ fs.names) (b : β) :
    Modern (Assoc.ofList (fs.members b)) :=
  modern_ofList (fs.keys_members b).subset hplain fun _ ht =>
    absurd ((fs.keys_members b).subset (Assoc.mem_keys_of_mem ht)) hkind

/-- The keys of a struct with a tag. -/
theorem modern_tagged {tag : String} (hplain : plain ("kind" :: fs.names) = true) (hkind : "kind" ∉ fs.names)
    (htag : currentKind tag = none) (b : β) : Modern (Assoc.ofList (("kind", .string tag) :: fs.members b)) := by
  refine modern_ofList (List.cons_subset_cons _ (fs.keys_members b).subset) hplain fun t ht => ?_
  rcases List.mem_cons.mp ht with ht | ht
  · obtain rfl := Json.string.inj (Prod.mk.inj ht).2
    exact htag
  · exact absurd ((fs.keys_members b).subset (Assoc.mem_keys_of_mem ht)) hkind

/-- The keys of a struct whose first field is its kind. -/
theorem modern_kindFields {text : α → String} {all : List α} (hplain : plain ("kind" :: fs.names) = true)
    (hkind : "kind" ∉ fs.names) (htext : ∀ a, currentKind (text a) = none) (b : α × β) :
    Modern (Assoc.ofList ((Fields.cons (.required "kind" (.units text all)) fs).members b)) :=
  modern_tagged hplain hkind (htext b.1) b.2

end Structs

/-! ### The typed parts -/

theorem pair_closed : pair.Closed normalization := Codec.array_closed Codec.double_closed

theorem triple_closed : triple.Closed normalization := Codec.array_closed Codec.double_closed

theorem Provenance.codec_closed : Provenance.codec.Closed normalization :=
  Codec.record_closed (modern_kindFields (by decide) (by decide) fun a => by cases a <;> decide)
    (.cons Codec.units_closed <| .cons (Codec.option_closed Codec.string_closed) <|
     .cons (Codec.option_closed Codec.string_closed) <| .cons (Codec.option_closed Codec.uint64_closed) .nil)

theorem Meta.codec_closed : Meta.codec.Closed normalization :=
  Codec.record_closed (modern_fields (by decide) (by decide))
    (.cons Codec.string_closed <| .cons Codec.string_closed <| .cons Codec.string_closed <|
     .cons Codec.units_closed <| .cons Provenance.codec_closed <| .cons Codec.string_closed .nil)

theorem Wind.codec_closed : Wind.codec.Closed normalization :=
  Codec.record_closed (modern_fields (by decide) (by decide))
    (.cons Codec.double_closed <| .cons Codec.double_closed .nil)

theorem EnvBlock.codec_closed : EnvBlock.codec.Closed normalization :=
  Codec.record_closed (modern_fields (by decide) (by decide))
    (.cons Codec.double_closed <| .cons Codec.double_closed <| .cons Wind.codec_closed .nil)

theorem Joint.codec_closed : Joint.codec.Closed normalization :=
  Codec.record_closed (modern_fields (by decide) (by decide))
    (.cons Codec.units_closed <| .cons (Codec.option_closed triple_closed) <|
     .cons (Codec.option_closed Codec.double_closed) <| .cons (Codec.option_closed Codec.double_closed) .nil)

theorem Node.codec_closed : Node.codec.Closed normalization :=
  Codec.record_closed (modern_fields (by decide) (by decide))
    (.cons Codec.string_closed <| .cons (Codec.option_closed Codec.string_closed) <| .cons triple_closed <|
     .cons triple_closed <| .cons (Codec.option_closed (Codec.array_closed pair_closed)) <|
     .cons (Codec.option_closed Joint.codec_closed) .nil)

theorem MassSpec.codec_closed : MassSpec.codec.Closed normalization :=
  Codec.record_closed (modern_fields (by decide) (by decide))
    (.cons (Codec.option_closed Codec.double_closed) <| .cons (Codec.option_closed Codec.double_closed) .nil)

theorem LoftProfile.codec_closed : LoftProfile.codec.Closed normalization := by
  have hkeys : ∀ e ∈ cases, plain ("kind" :: e.2.fields.names) = true ∧ "kind" ∉ e.2.fields.names ∧
      currentKind e.1 = none := by decide
  refine Codec.tagged_closed cases_fit
    (fun e he b => modern_tagged (hkeys e he).1 (hkeys e he).2.1 (hkeys e he).2.2 b) fun e he => ?_
  simp only [cases, List.mem_cons, List.not_mem_nil, or_false] at he
  rcases he with rfl | rfl
  · exact .cons Codec.double_closed <| .cons Codec.uint32_closed .nil
  · exact .cons Codec.uint32_closed .nil

theorem LoftStation.codec_closed : LoftStation.codec.Closed normalization :=
  Codec.record_closed (modern_fields (by decide) (by decide))
    (.cons Codec.double_closed <| .cons Codec.double_closed <| .cons Codec.double_closed <|
     .cons (Codec.option_closed Codec.double_closed) .nil)

theorem Geom.codec_closed : Geom.codec.Closed normalization := by
  have hkeys : ∀ e ∈ cases, plain ("kind" :: e.2.fields.names) = true ∧ "kind" ∉ e.2.fields.names ∧
      currentKind e.1 = none := by decide
  have hd : Codec.double.Closed normalization := Codec.double_closed
  have hn : Codec.uint32.option.Closed normalization := Codec.option_closed Codec.uint32_closed
  refine Codec.tagged_closed cases_fit
    (fun e he b => modern_tagged (hkeys e he).1 (hkeys e he).2.1 (hkeys e he).2.2 b) fun e he => ?_
  simp only [cases, List.mem_cons, List.not_mem_nil, or_false] at he
  rcases he with rfl | rfl | rfl | rfl | rfl | rfl | rfl | rfl
  · exact .cons hd <| .cons hd <| .cons hd .nil
  · exact .cons hd <| .cons hd <| .cons hd <| .cons hd .nil
  · exact .cons hd <| .cons hd <| .cons hd <| .cons hd <| .cons hd .nil
  · exact .cons hd <| .cons (Codec.option_closed hd) <| .cons hd <| .cons hn .nil
  · exact .cons (Codec.list_closed pair_closed) <| .cons hn .nil
  · exact .cons hd <| .cons hd <| .cons hd <| .cons hd <| .cons hn .nil
  · exact .cons LoftProfile.codec_closed <| .cons (Codec.list_closed LoftStation.codec_closed) .nil
  · exact .cons Codec.string_closed .nil

theorem Explode.codec_closed : Explode.codec.Closed normalization :=
  Codec.record_closed (modern_fields (by decide) (by decide))
    (.cons triple_closed <| .cons Codec.double_closed <| .cons Codec.double_closed <| .cons Codec.double_closed <|
     .cons (Codec.option_closed Codec.string_closed) .nil)

theorem PartPose.codec_closed : PartPose.codec.Closed normalization :=
  Codec.record_closed (modern_fields (by decide) (by decide))
    (.cons triple_closed <| .cons triple_closed <| .cons triple_closed .nil)

theorem Part.codec_closed : Part.codec.Closed normalization :=
  Codec.record_closed (modern_fields (by decide) (by decide))
    (.cons Codec.string_closed <| .cons Geom.codec_closed <| .cons (Codec.option_closed PartPose.codec_closed) <|
     .cons Codec.units_closed <| .cons Codec.string_closed <| .cons (Codec.option_closed Explode.codec_closed) <|
     .cons (Codec.option_closed Codec.double_closed) <| .cons (Codec.option_closed Codec.string_closed) <|
     .cons (Codec.option_closed MassSpec.codec_closed) <| .cons Codec.units_closed .nil)

theorem Port.codec_closed : Port.codec.Closed normalization :=
  Codec.record_closed (modern_fields (by decide) (by decide))
    (.cons Codec.string_closed <| .cons Codec.string_closed <| .cons Codec.string_closed <|
     .cons (Codec.array_closed triple_closed) <| .cons Codec.bool_closed .nil)

theorem Chain.codec_closed : Chain.codec.Closed normalization :=
  Codec.record_closed (modern_fields (by decide) (by decide))
    (.cons Codec.string_closed <| .cons Codec.uint32_closed <| .cons (Codec.list_closed Codec.string_closed) <|
     .cons (Codec.option_closed triple_closed) <| .cons (Codec.option_closed Codec.double_closed) <|
     .cons (Codec.option_closed Codec.double_closed) <| .cons (Codec.option_closed Codec.double_closed) .nil)

theorem Battery.codec_closed : Battery.codec.Closed normalization :=
  Codec.record_closed (modern_fields (by decide) (by decide))
    (.cons Codec.uint32_closed <| .cons Codec.double_closed <| .cons (Codec.option_closed Codec.double_closed) <|
     .cons Codec.double_closed .nil)

theorem MotorSpec.codec_closed : MotorSpec.codec.Closed normalization :=
  Codec.record_closed (modern_fields (by decide) (by decide))
    (.cons (Codec.option_closed Codec.double_closed) <| .cons (Codec.option_closed Codec.double_closed) <|
     .cons (Codec.option_closed Codec.double_closed) <| .cons (Codec.option_closed Codec.string_closed) <|
     .cons Codec.string_closed <| .cons (Codec.option_closed Codec.int8_closed) .nil)

theorem PropSpec.codec_closed : PropSpec.codec.Closed normalization :=
  Codec.record_closed (modern_fields (by decide) (by decide))
    (.cons Codec.double_closed <| .cons Codec.double_closed <| .cons Codec.uint32_closed <|
     .cons (Codec.option_closed Codec.string_closed) .nil)

theorem ColliderBudget.codec_closed : ColliderBudget.codec.Closed normalization :=
  Codec.record_closed (modern_fields (by decide) (by decide))
    (.cons Codec.uint32_closed <| .cons Codec.uint32_closed .nil)

theorem ColliderPolicy.codec_closed : ColliderPolicy.codec.Closed normalization :=
  Codec.record_closed (modern_fields (by decide) (by decide))
    (.cons Codec.string_closed <| .cons ColliderBudget.codec_closed .nil)

theorem Estimator.codec_closed : Estimator.codec.Closed normalization :=
  Codec.record_closed (modern_kindFields (by decide) (by decide) fun a => by cases a <;> decide)
    (.cons Codec.units_closed <| .cons Codec.double_closed <| .cons Codec.double_closed <|
     .cons Codec.double_closed <| .cons Codec.double_closed .nil)

theorem SimBlock.codec_closed : SimBlock.codec.Closed normalization :=
  Codec.record_closed (modern_fields (by decide) (by decide))
    (.cons (Codec.option_closed Battery.codec_closed) <| .cons (Codec.list_closed MotorSpec.codec_closed) <|
     .cons (Codec.list_closed PropSpec.codec_closed) <| .cons ColliderPolicy.codec_closed <|
     .cons (Codec.option_closed Estimator.codec_closed) <| .cons (Codec.option_closed Codec.double_closed) .nil)

/-! ### The parts that are free in form -/

theorem Variant.fields_modern (b) : Modern (Assoc.ofList (Variant.fields.members b)) :=
  modern_fields (by decide) (by decide) b

theorem Slot.fields_modern (b) : Modern (Assoc.ofList (Slot.fields.members b)) :=
  modern_fields (by decide) (by decide) b

theorem Driver.fields_modern (b) : Modern (Assoc.ofList (Driver.fields.members b)) :=
  modern_fields (by decide) (by decide) b

theorem ModelSpec.fields_modern (b) : Modern (Assoc.ofList (ModelSpec.fields.members b)) :=
  modern_fields (by decide) (by decide) b

theorem Variant.codec_tracks : Variant.codec.Tracks normalization :=
  Codec.record_tracks (by decide) fields_modern
    (.cons (Field.tracks_of_closed Codec.string_closed) <|
     .cons (Field.tracks_of_closed (Codec.option_closed Codec.string_closed)) <|
     .cons (Field.tracks_of_closed (Codec.option_closed Codec.string_closed)) <|
     .cons (Field.tracks_of_closed (Codec.option_closed (Codec.list_closed Part.codec_closed))) <|
     .cons (Field.tracks_of_closed (Codec.option_closed Codec.string_closed)) <|
     .cons (Field.map_tracks _) .nil)
    fun _ => rfl

theorem Slot.codec_tracks : Slot.codec.Tracks normalization :=
  Codec.record_tracks (by decide) fields_modern
    (.cons (Field.tracks_of_closed Codec.string_closed) <|
     .cons (Field.tracks_of_closed Codec.string_closed) <|
     .cons (Field.tracks_of_closed (Codec.list_closed Codec.string_closed)) <|
     .cons (Field.tracks_of_closed (Codec.option_closed Joint.codec_closed)) <|
     .cons (Field.tracks_of_closed (Codec.option_closed Codec.string_closed)) <|
     .cons (Field.required_tracks _ (Codec.list_tracks Variant.codec_tracks)) .nil)
    fun _ => rfl

theorem Driver.codec_tracks : Driver.codec.Tracks normalization :=
  Codec.record_tracks (by decide) fields_modern
    (.cons (Field.tracks_of_closed Codec.units_closed) <|
     .cons (Field.skipped_tracks _ Codec.json_tracks fun _ => Rewriting.settled_atom rfl rfl) .nil)
    fun _ => rfl

/-- The documents that are read and written follow the rewriting. -/
theorem ModelSpec.codec_tracks : ModelSpec.codec.Tracks normalization :=
  Codec.record_tracks (by decide) fields_modern
    (.cons (Field.tracks_of_closed Meta.codec_closed) <|
     .cons (Field.tracks_of_closed EnvBlock.codec_closed) <|
     .cons (Field.tracks_of_closed (Codec.list_closed Node.codec_closed)) <|
     .cons (Field.tracks_of_closed (Codec.list_closed Part.codec_closed)) <|
     .cons (Field.vec_tracks _ Slot.codec_tracks) <|
     .cons (Field.map_tracks _) <|
     .cons (Field.tracks_of_closed (Codec.list_closed Port.codec_closed)) <|
     .cons (Field.tracks_of_closed (Codec.list_closed Chain.codec_closed)) <|
     .cons (Field.required_tracks _ Driver.codec_tracks) <|
     .cons (Field.tracks_of_closed SimBlock.codec_closed) .nil)
    fun _ => rfl

theorem settled_stringMap {m : BTreeMap String String} :
    normalization.Settled (Codec.stringMap.encode m) ↔ Modern (Assoc.mapVals Json.string m.entries) := by
  refine Rewriting.settled_object.trans (and_iff_left ?_)
  exact Assoc.forall_mem_mapVals.mpr fun _ _ => Rewriting.settled_atom rfl rfl

/-- A map that is left out when it is empty. -/
theorem settled_map {m : BTreeMap String String} :
    (m.isEmpty = false → normalization.Settled (Codec.stringMap.encode m)) ↔
      Modern (Assoc.mapVals Json.string m.entries) := by
  cases hm : m.isEmpty with
  | true =>
    obtain rfl := BTreeMap.isEmpty_iff.mp hm
    exact iff_of_true (fun h => by cases h) ⟨fun _ h => absurd h List.not_mem_nil, fun h => absurd h List.not_mem_nil,
      fun _ h => by cases h⟩
  | false => exact (forall_prop_of_true rfl).trans settled_stringMap

/-- A list that is left out when it is empty. -/
theorem settled_vec {α : Type} {c : Codec α} {as : List α} :
    (as.isEmpty = false → normalization.Settled (c.list.encode as)) ↔ ∀ a ∈ as, normalization.Settled (c.encode a) := by
  have hlist : normalization.Settled (c.list.encode as) ↔ ∀ a ∈ as, normalization.Settled (c.encode a) :=
    Rewriting.settled_array.trans List.forall_mem_map
  cases as with
  | nil => simp
  | cons a as => exact (forall_prop_of_true rfl).trans hlist

theorem Variant.settled_encode {variant : Variant} : normalization.Settled (Variant.codec.encode variant) ↔
    Modern (Assoc.mapVals Json.string variant.ports.entries) := by
  rw [Variant.codec, Codec.record_settled_iff (by decide) fields_modern, Variant.fields]
  simp only [Fields.forall_mem_cons]
  constructor
  · rintro ⟨-, -, -, -, -, hports, -⟩
    exact settled_map.mp hports
  · intro hports
    exact ⟨fun _ => Codec.string_closed _, fun _ => Codec.option_closed Codec.string_closed _,
      fun _ => Codec.option_closed Codec.string_closed _,
      fun _ => Codec.option_closed (Codec.list_closed Part.codec_closed) _,
      fun _ => Codec.option_closed Codec.string_closed _, settled_map.mpr hports, fun _ h => absurd h List.not_mem_nil⟩

theorem Slot.settled_encode {slot : Slot} : normalization.Settled (Slot.codec.encode slot) ↔
    ∀ variant ∈ slot.variants, Modern (Assoc.mapVals Json.string variant.ports.entries) := by
  have hvariants : normalization.Settled (Variant.codec.list.encode slot.variants) ↔
      ∀ variant ∈ slot.variants, Modern (Assoc.mapVals Json.string variant.ports.entries) := by
    refine Rewriting.settled_array.trans (List.forall_mem_map.trans ?_)
    exact forall₂_congr fun _ _ => Variant.settled_encode
  rw [Slot.codec, Codec.record_settled_iff (by decide) fields_modern, Slot.fields]
  simp only [Fields.forall_mem_cons]
  constructor
  · rintro ⟨-, -, -, -, -, h, -⟩
    exact hvariants.mp (h rfl)
  · intro h
    exact ⟨fun _ => Codec.string_closed _, fun _ => Codec.string_closed _,
      fun _ => Codec.list_closed Codec.string_closed _, fun _ => Codec.option_closed Joint.codec_closed _,
      fun _ => Codec.option_closed Codec.string_closed _, fun _ => hvariants.mpr h, fun _ h => absurd h List.not_mem_nil⟩

theorem Driver.settled_encode {driver : Driver} :
    normalization.Settled (Driver.codec.encode driver) ↔ normalization.Settled driver.params := by
  rw [Driver.codec, Codec.record_settled_iff (by decide) fields_modern, Driver.fields]
  simp only [Fields.forall_mem_cons]
  constructor
  · rintro ⟨-, h, -⟩
    exact h rfl
  · intro h
    exact ⟨fun _ => Codec.units_closed _, fun _ => h, fun _ h => absurd h List.not_mem_nil⟩

/-- The data of a document that is free in form does not look historical. -/
structure FreeFormModern (spec : ModelSpec) : Prop where
  params : normalization.Settled spec.driver.params
  ports : ∀ slot ∈ spec.slots, ∀ variant ∈ slot.variants, Modern (Assoc.mapVals Json.string variant.ports.entries)
  lockfile : Modern (Assoc.mapVals Json.string spec.lockfile.entries)

/-- **Only the data that is free in form** decides whether a written document is modern. -/
theorem settled_encode_iff {spec : ModelSpec} :
    normalization.Settled (ModelSpec.codec.encode spec) ↔ FreeFormModern spec := by
  have hslots : (∀ slot ∈ spec.slots, normalization.Settled (Slot.codec.encode slot)) ↔
      ∀ slot ∈ spec.slots, ∀ variant ∈ slot.variants, Modern (Assoc.mapVals Json.string variant.ports.entries) :=
    forall₂_congr fun _ _ => Slot.settled_encode
  rw [ModelSpec.codec, Codec.record_settled_iff (by decide) ModelSpec.fields_modern, ModelSpec.fields]
  simp only [Fields.forall_mem_cons]
  constructor
  · rintro ⟨-, -, -, -, hs, hlockfile, -, -, hdriver, -⟩
    exact ⟨Driver.settled_encode.mp (hdriver rfl), hslots.mp (settled_vec.mp hs), settled_map.mp hlockfile⟩
  · rintro ⟨hparams, hports, hlockfile⟩
    exact ⟨fun _ => Meta.codec_closed _, fun _ => EnvBlock.codec_closed _,
      fun _ => Codec.list_closed Node.codec_closed _, fun _ => Codec.list_closed Part.codec_closed _,
      settled_vec.mpr (hslots.mpr hports), settled_map.mpr hlockfile, fun _ => Codec.list_closed Port.codec_closed _,
      fun _ => Codec.list_closed Chain.codec_closed _, fun _ => Driver.settled_encode.mpr hparams,
      fun _ => SimBlock.codec_closed _, fun _ h => absurd h List.not_mem_nil⟩

end Forge.Contract
