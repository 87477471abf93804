import Forge.Contract.Codec
import Forge.Data.Except
import Forge.Data.Text
import Forge.Json.Rewriting

/-!
# Migrating historical documents

`migrateWithReport` (`migrations.rs`) reads a document of any age as plain JSON, drops
its schema version marker, rewrites it to the current vocabulary and equips slots
that have one variant, prints it, and reads the text as a `ModelSpec`; it reports
the labels of the rewritings that did something.

The rewriting (`normalizeValue`) visits every object at any depth and knows nothing
of where it stands. `Modern` says which objects it leaves alone, and the **key
results** are that what it produces is modern throughout (`settled_normalized`)
and that it does nothing to such a document and reports nothing
(`normalizeValue_of_settled`); so it is a `Rewriting` (`normalization`).

The text layer, reading and printing JSON, is a parameter (`SerdeJson`).
-/

namespace Forge.Contract

/-! ### Reading and printing -/

/-- Why a text was not read. -/
structure JsonError where
  message : String
  line : ℕ
  column : ℕ
deriving DecidableEq

/-- The JSON library: reading a text as a value, printing a value, and the error with
which a text that is valid JSON fails to be read as a `ModelSpec`. -/
structure SerdeJson where
  fromStr : String → Except JsonError Json
  toString : Json → String
  mismatch : String → JsonError
  /-- The objects that are read are sorted maps. -/
  wf : ∀ {text j}, fromStr text = .ok j → j.WF

/-- The printed value is read back. -/
def SerdeJson.Rereads (lib : SerdeJson) (j : Json) : Prop := lib.fromStr (lib.toString j) = .ok j

structure ShapeError where
  message : String
  line : ℕ
  column : ℕ
deriving DecidableEq

def ShapeError.display (e : ShapeError) : String := s!"{e.message} (line {e.line}, column {e.column})"

/-- Schema-only validation: read a document into a `ModelSpec`. -/
def validateShape (lib : SerdeJson) (doc : String) : Except ShapeError ModelSpec :=
  match lib.fromStr doc with
  | .error e => .error { message := e.message, line := e.line, column := e.column }
  | .ok value =>
    match ModelSpec.codec.decode value with
    | some spec => .ok spec
    | none =>
      let e := lib.mismatch doc
      .error { message := e.message, line := e.line, column := e.column }

/-! ### The rewriting -/

structure MigrationError where
  message : String
deriving DecidableEq

structure MigrationReport where
  fromSchemaVersion : String
  toSchemaVersion : String
  applied : List String
  spec : ModelSpec
deriving DecidableEq

/-- Append a label that is not there yet. -/
def record (applied : List String) (label : String) : List String :=
  if applied.any fun existing => existing = label then applied else applied ++ [label]

/-- Members of an object being rewritten, with the labels applied so far. -/
abbrev Rewritten := List (String × Json) × List String

/-- A key that is renamed, and the label that is recorded for it. -/
structure Rename where
  old : String
  new : String
  label : String
deriving DecidableEq

/-- Move the member `old` to `new`, where a member `new` wins. -/
def renameField (r : Rename) (s : Rewritten) : Rewritten :=
  match Assoc.get r.old s.1 with
  | none => s
  | some value =>
    let map := Assoc.erase r.old s.1
    (if (Assoc.get r.new map).isSome then map else Assoc.insert r.new value map, record s.2 r.label)

def normalizeComponentRefs (s : Rewritten) : Rewritten :=
  if (Assoc.get "mount" s.1).isSome then
    renameField ⟨"componentRef", "ref", "component-ref-aliases"⟩
      (renameField ⟨"component_ref", "ref", "component-ref-aliases"⟩ s)
  else
    renameField ⟨"component_ref", "componentRef", "component-ref-aliases"⟩ s

/-- Old and current field names. -/
def aliases : List (String × String) :=
  [("mount_nodes", "mountNodes"),
   ("render_bias", "renderBias"),
   ("max_torque_nm", "maxTorqueNm"),
   ("max_vel_rad", "maxVelRad"),
   ("air_density", "airDensity"),
   ("value_g", "valueG"),
   ("density_kgm3", "densityKgm3"),
   ("prompt_hash", "promptHash"),
   ("model_version", "modelVersion"),
   ("capacityMah", "capacity_mAh"),
   ("capacity_mah", "capacity_mAh"),
   ("rIntMohm", "r_int_mohm"),
   ("rIntMOhm", "r_int_mohm"),
   ("latencyMs", "latency_ms"),
   ("gyro_noise", "gyroNoise"),
   ("accel_noise", "accelNoise"),
   ("aggregate_mass_g", "aggregateMassG"),
   ("c_rating", "cRating"),
   ("max_current_a", "maxCurrentA"),
   ("diameter_in", "diameterIn"),
   ("pitch_in", "pitchIn"),
   ("ct_table", "ctTable")]

def normalizeFieldAliases (s : Rewritten) : Rewritten :=
  aliases.foldl (fun s a => renameField ⟨a.1, a.2, "field-aliases-v2.1"⟩ s) s

/-- The current spelling of an old provenance kind. -/
def currentKind (kind : String) : Option String :=
  if kind = "parametric_generator" then some "parametric-generator"
  else if kind = "llm_generation" then some "llm-generation"
  else none

def normalizeProvenanceKind (s : Rewritten) : Rewritten :=
  match Assoc.get "kind" s.1 with
  | some (.string kind) =>
    match currentKind kind with
    | some next => (Assoc.insert "kind" (.string next) s.1, record s.2 "provenance-kind-aliases")
    | none => s
  | _ => s

/-- What is done to the members of one object. -/
def normalizeMap (s : Rewritten) : Rewritten :=
  normalizeProvenanceKind (normalizeFieldAliases (normalizeComponentRefs s))

/-- Rewrite the values of a list one after the other. -/
def each {α : Type} (f : α → List String → α × List String) : List α → List String → List α × List String
  | [], applied => ([], applied)
  | a :: as, applied => ((f a applied).1 :: (each f as (f a applied).2).1, (each f as (f a applied).2).2)

/-- Rewrite the value of a member. -/
def eachValue (f : Json → List String → Json × List String) (e : String × Json) (applied : List String) :
    (String × Json) × List String :=
  ((e.1, (f e.2 applied).1), (f e.2 applied).2)

/-- `normalizeValue` down to the given depth. -/
def normalizeWithin : ℕ → Json → List String → Json × List String
  | n + 1, .object map, applied =>
    let s := normalizeMap (map, applied)
    let s := each (eachValue (normalizeWithin n)) s.1 s.2
    (.object s.1, s.2)
  | n + 1, .array items, applied =>
    let s := each (normalizeWithin n) items applied
    (.array s.1, s.2)
  | _, value, applied => (value, applied)

/-- Rewrite every object of a document, from the outside in. -/
def normalizeValue (value : Json) (applied : List String) : Json × List String :=
  normalizeWithin value.depth value applied

/-! ### Version markers, slots and the whole migration -/

/-- The keys of a schema version marker. -/
def versionMarkers : List String := ["schemaVersion", "schema_version", "$schemaVersion"]

/-- Remove the first of the version markers that is present. -/
def removeVersionMarker (lib : SerdeJson) (map : List (String × Json)) : Option String × List (String × Json) :=
  let removed := versionMarkers.findSome? fun key => (Assoc.get key map).map fun value => (value, Assoc.erase key map)
  match removed with
  | some (.string s, map) => (some s, map)
  | some (other, map) => (some (lib.toString other), map)
  | none => (none, map)

def takeSchemaVersionMarker (lib : SerdeJson) (value : Json) (applied : List String) :
    Option String × Json × List String :=
  match value with
  | .object root =>
    let top := removeVersionMarker lib root
    let inner := match Assoc.get "meta" top.2 with
      | some (.object map) =>
        let removed := removeVersionMarker lib map
        (removed.1, Assoc.insert "meta" (Json.object removed.2) top.2)
      | _ => (none, top.2)
    (top.1.or inner.1, .object inner.2,
      if top.1.isSome ∨ inner.1.isSome then record applied "drop-schema-version-marker" else applied)
  | _ => (none, value, applied)

/-- Equip a slot that says nothing about it and has one variant; the flag tells whether it did. -/
def equipSlot (slot : Json) : Except MigrationError (Json × Bool) :=
  match slot with
  | .object map =>
    if (Assoc.get "equippedVariantId" map).isSome then .ok (slot, false)
    else
      let slotId := ((Assoc.get "id" map).bind Json.asStr).getD "<unknown>"
      match (Assoc.get "variants" map).bind Json.asArray with
      | none => .ok (slot, false)
      | some [] => .ok (slot, false)
      | some [only] =>
        match (only.member "id").bind Json.asStr with
        | none => .ok (slot, false)
        | some variantId => .ok (.object (Assoc.insert "equippedVariantId" (.string variantId) map), true)
      | some _ =>
        .error { message := s!"slot '{slotId}' has multiple legacy variants; " ++
          s!"set equippedVariantId explicitly before migrating to {schemaVersion}" }
  | _ => .ok (slot, false)

def normalizeEquippedVariants (value : Json) (applied : List String) : Except MigrationError (Json × List String) :=
  match value with
  | .object root =>
    match Assoc.get "slots" root with
    | some (.array slots) => do
      let slots ← slots.mapM equipSlot
      let applied := if slots.any Prod.snd then record applied "equip-single-variant-slots-v2.2" else applied
      .ok (.object (Assoc.insert "slots" (.array (slots.map Prod.fst)) root), applied)
    | _ => .ok (value, applied)
  | _ => .ok (value, applied)

/-- The one target there is, under its names. -/
def normalizeTarget (toVersion : String) : Except MigrationError String :=
  let requested := Text.trim toVersion
  if requested = "" ∨ requested = "current" ∨ requested = schemaVersion then .ok schemaVersion
  else .error { message := s!"unsupported migration target '{requested}' (only {schemaVersion} is available)" }

/-- A document between reading and printing. -/
structure Prepared where
  fromSchemaVersion : String
  value : Json
  applied : List String
deriving DecidableEq

/-- What is done to a document between reading and printing it. -/
def prepare (lib : SerdeJson) (value : Json) : Except MigrationError Prepared := do
  let marked := takeSchemaVersionMarker lib value []
  let rewritten := normalizeValue marked.2.1 marked.2.2
  let equipped ← normalizeEquippedVariants rewritten.1 rewritten.2
  .ok { fromSchemaVersion := marked.1.getD "unknown", value := equipped.1, applied := equipped.2 }

/-- Migrate a document to the current schema, with an audit report. -/
def migrateWithReport (lib : SerdeJson) (doc toVersion : String) : Except MigrationError MigrationReport := do
  let target ← normalizeTarget toVersion
  let value ← (lib.fromStr doc).mapError fun e => { message := s!"invalid JSON: {e.message}" }
  let prepared ← prepare lib value
  let spec ← (validateShape lib (lib.toString prepared.value)).mapError fun e =>
    { message := s!"migrated document is not schema-valid: {e.display}" }
  .ok { fromSchemaVersion := prepared.fromSchemaVersion, toSchemaVersion := target, applied := prepared.applied, spec }

/-- Migrate a document to the current schema. -/
def migrate (lib : SerdeJson) (doc toVersion : String) : Except MigrationError ModelSpec :=
  MigrationReport.spec <$> migrateWithReport lib doc toVersion

/-! ### Renaming -/

/-- Rename one field after the other. -/
def renameAll (rs : List Rename) (s : Rewritten) : Rewritten := rs.foldl (fun s r => renameField r s) s

/-- The fields that are renamed in an object, depending on whether it has a `mount`. -/
def renames (mount : Bool) : List Rename :=
  (if mount then
    [⟨"component_ref", "ref", "component-ref-aliases"⟩, ⟨"componentRef", "ref", "component-ref-aliases"⟩]
  else [⟨"component_ref", "componentRef", "component-ref-aliases"⟩]) ++
    aliases.map fun a => ⟨a.1, a.2, "field-aliases-v2.1"⟩

theorem normalizeMap_eq (s : Rewritten) : normalizeMap s =
    normalizeProvenanceKind (renameAll (renames (Assoc.get "mount" s.1).isSome) s) := by
  unfold normalizeMap normalizeComponentRefs normalizeFieldAliases renameAll renames
  cases (Assoc.get "mount" s.1).isSome <;> simp [List.foldl_map]

variable {r : Rename} {rs : List Rename} {s t : Rewritten} {k : String}

theorem renameField_of_not_mem (h : r.old ∉ Assoc.keys s.1) : renameField r s = s := by
  rw [renameField, Assoc.get_eq_none_iff.mpr h]

/-- Renaming changes no member but the two named. -/
theorem get_renameField (ho : k ≠ r.old) (hn : k ≠ r.new) : Assoc.get k (renameField r s).1 = Assoc.get k s.1 := by
  unfold renameField
  split
  · rfl
  · dsimp only
    split_ifs
    · rw [Assoc.get_erase, if_neg ho]
    · rw [Assoc.get_insert, if_neg hn, Assoc.get_erase, if_neg ho]

/-- After a renaming the old key is gone, and no key is new but the one named. -/
theorem mem_keys_renameField (hr : r.old ≠ r.new) (h : k ∈ Assoc.keys (renameField r s).1) :
    k ≠ r.old ∧ (k ∈ Assoc.keys s.1 ∨ k = r.new) := by
  by_cases hold : r.old ∈ Assoc.keys s.1
  · obtain ⟨v, hv⟩ := Option.isSome_iff_exists.mp (Assoc.get_isSome_iff.mpr hold)
    rw [renameField, hv] at h
    dsimp only at h
    have herase : ∀ l, l ∈ Assoc.keys (Assoc.erase r.old s.1) → l ≠ r.old ∧ l ∈ Assoc.keys s.1 := fun l hl => by
      rw [Assoc.keys_erase, List.mem_filter] at hl
      exact ⟨by simpa using hl.2, hl.1⟩
    split_ifs at h
    · exact ⟨(herase k h).1, .inl (herase k h).2⟩
    · rcases Assoc.mem_keys_insert.mp h with rfl | h
      · exact ⟨Ne.symm hr, .inr rfl⟩
      · exact ⟨(herase k h).1, .inl (herase k h).2⟩
  · rw [renameField_of_not_mem hold] at h
    exact ⟨fun he => hold (he ▸ h), .inl h⟩

theorem forall_renameField {P : Json → Prop} (h : ∀ e ∈ s.1, P e.2) : ∀ e ∈ (renameField r s).1, P e.2 := by
  unfold renameField
  split
  · exact h
  · rename_i v hv
    have herase : ∀ e ∈ Assoc.erase r.old s.1, P e.2 := fun e he => h e (List.mem_of_mem_filter he)
    dsimp only
    split_ifs
    · exact herase
    · intro e he
      rcases Assoc.mem_insert he with rfl | he
      · exact h (r.old, v) (Assoc.mem_of_get hv)
      · exact herase e he

theorem sorted_renameField (h : Assoc.Sorted s.1) : Assoc.Sorted (renameField r s).1 := by
  unfold renameField
  split
  · exact h
  · dsimp only
    split_ifs
    · exact h.erase _
    · exact (h.erase _).insert _ _

/-- The labels have no influence on the members. -/
theorem renameField_congr (h : s.1 = t.1) : (renameField r s).1 = (renameField r t).1 := by
  unfold renameField
  rw [h]
  cases Assoc.get r.old t.1 with
  | none => exact h
  | some v => rfl

theorem renameAll_of_not_mem (h : ∀ r ∈ rs, r.old ∉ Assoc.keys s.1) : renameAll rs s = s := by
  induction rs with
  | nil => rfl
  | cons r rs ih =>
    rw [List.forall_mem_cons] at h
    change renameAll rs (renameField r s) = s
    rw [renameField_of_not_mem h.1, ih h.2]

theorem get_renameAll (h : ∀ r ∈ rs, k ≠ r.old ∧ k ≠ r.new) : Assoc.get k (renameAll rs s).1 = Assoc.get k s.1 := by
  induction rs generalizing s with
  | nil => rfl
  | cons r rs ih =>
    rw [List.forall_mem_cons] at h
    exact (ih h.2).trans (get_renameField h.1.1 h.1.2)

/-- Where no new key is an old one, the old keys are gone in the end. -/
theorem mem_keys_renameAll (hrs : ∀ r ∈ rs, ∀ r' ∈ rs, r.old ≠ r'.new) (h : k ∈ Assoc.keys (renameAll rs s).1) :
    (∀ r ∈ rs, k ≠ r.old) ∧ (k ∈ Assoc.keys s.1 ∨ ∃ r ∈ rs, k = r.new) := by
  induction rs generalizing s with
  | nil => exact ⟨fun _ hr => absurd hr List.not_mem_nil, .inl h⟩
  | cons r rs ih =>
    obtain ⟨hrest, hk⟩ := ih (fun r hr r' hr' => hrs r (List.mem_cons_of_mem _ hr) r' (List.mem_cons_of_mem _ hr')) h
    have hself : r.old ≠ r.new := hrs r List.mem_cons_self r List.mem_cons_self
    rcases hk with hk | ⟨r', hr', rfl⟩
    · obtain ⟨hne, hk⟩ := mem_keys_renameField hself hk
      refine ⟨List.forall_mem_cons.mpr ⟨hne, hrest⟩, hk.imp_right fun hk => ⟨r, List.mem_cons_self, hk⟩⟩
    · have hne : r.old ≠ r'.new := hrs r List.mem_cons_self r' (List.mem_cons_of_mem _ hr')
      exact ⟨List.forall_mem_cons.mpr ⟨Ne.symm hne, hrest⟩, .inr ⟨r', List.mem_cons_of_mem _ hr', rfl⟩⟩

theorem forall_renameAll {P : Json → Prop} (h : ∀ e ∈ s.1, P e.2) : ∀ e ∈ (renameAll rs s).1, P e.2 := by
  induction rs generalizing s with
  | nil => exact h
  | cons r rs ih => exact ih (forall_renameField h)

theorem sorted_renameAll (h : Assoc.Sorted s.1) : Assoc.Sorted (renameAll rs s).1 := by
  induction rs generalizing s with
  | nil => exact h
  | cons r rs ih => exact ih (sorted_renameField h)

theorem renameAll_congr (h : s.1 = t.1) : (renameAll rs s).1 = (renameAll rs t).1 := by
  induction rs generalizing s t with
  | nil => exact h
  | cons r rs ih => exact ih (renameField_congr h)

/-! ### One object -/

/-- The keys that are always renamed. -/
def legacyKeys : List String := "component_ref" :: aliases.map Prod.fst

/-- **Modern** members: what the rewriting leaves alone. -/
structure Modern (ms : List (String × Json)) : Prop where
  keys : ∀ k ∈ Assoc.keys ms, k ∉ legacyKeys
  mount : "mount" ∈ Assoc.keys ms → "componentRef" ∉ Assoc.keys ms
  kind : ∀ kind, Assoc.get "kind" ms = some (.string kind) → currentKind kind = none

theorem renames_old {b : Bool} (hr : r ∈ renames b) : r.old ∈ legacyKeys ∨ b = true ∧ r.old = "componentRef" := by
  cases b <;> revert r <;> decide

theorem old_ne_new {b : Bool} : ∀ r ∈ renames b, ∀ r' ∈ renames b, r.old ≠ r'.new := by
  cases b <;> decide

theorem legacyKeys_old {b : Bool} : ∀ k ∈ legacyKeys, ∃ r ∈ renames b, r.old = k := by
  cases b <;> decide

/-- The kind is renamed, and nothing else is touched. -/
theorem normalizeProvenanceKind_cases (s : Rewritten) :
    normalizeProvenanceKind s = s ∧ (∀ kind, Assoc.get "kind" s.1 = some (.string kind) → currentKind kind = none) ∨
    ∃ kind next, Assoc.get "kind" s.1 = some (.string kind) ∧ currentKind kind = some next ∧ normalizeProvenanceKind s =
      (Assoc.insert "kind" (.string next) s.1, record s.2 "provenance-kind-aliases") := by
  unfold normalizeProvenanceKind
  split
  · rename_i kind hkind
    rw [hkind]
    cases hcur : currentKind kind with
    | none =>
      refine .inl ⟨rfl, fun kind' h => ?_⟩
      obtain rfl := Json.string.inj (Option.some.inj h)
      exact hcur
    | some next => exact .inr ⟨kind, next, rfl, hcur, rfl⟩
  · rename_i hno
    exact .inl ⟨rfl, fun kind h => absurd h (hno kind)⟩

theorem currentKind_current {kind next : String} (h : currentKind kind = some next) : currentKind next = none := by
  unfold currentKind at h
  split_ifs at h <;> obtain rfl := Option.some.inj h <;> decide

theorem normalizeMap_of_modern {ms : List (String × Json)} (h : Modern ms) (applied : List String) :
    normalizeMap (ms, applied) = (ms, applied) := by
  have hrename : renameAll (renames (Assoc.get "mount" ms).isSome) (ms, applied) = (ms, applied) := by
    refine renameAll_of_not_mem fun r hr hold => ?_
    rcases renames_old hr with hlegacy | ⟨hmount, href⟩
    · exact h.keys _ hold hlegacy
    · exact h.mount (Assoc.get_isSome_iff.mp hmount) (href ▸ hold)
  rw [normalizeMap_eq, hrename]
  rcases normalizeProvenanceKind_cases (ms, applied) with ⟨heq, -⟩ | ⟨kind, next, hget, hcur, -⟩
  · exact heq
  · rw [h.kind kind hget] at hcur
    cases hcur

theorem modern_normalizeMap (s : Rewritten) : Modern (normalizeMap s).1 := by
  rw [normalizeMap_eq]
  set b := (Assoc.get "mount" s.1).isSome with hb
  set u := renameAll (renames b) s with hu
  have hkeys : ∀ {k}, k ∈ Assoc.keys (normalizeProvenanceKind u).1 → k ∈ Assoc.keys u.1 := fun {k} hk => by
    rcases normalizeProvenanceKind_cases u with ⟨heq, -⟩ | ⟨kind, next, hget, -, heq⟩
    · rwa [heq] at hk
    · rw [heq] at hk
      rcases Assoc.mem_keys_insert.mp hk with rfl | hk
      · exact Assoc.get_isSome_iff.mp (by rw [hget]; rfl)
      · exact hk
  constructor
  · intro k hk hlegacy
    obtain ⟨r, hr, rfl⟩ := legacyKeys_old (b := b) k hlegacy
    exact (mem_keys_renameAll old_ne_new (hkeys hk)).1 r hr rfl
  · intro hmount href
    obtain ⟨-, hold⟩ := mem_keys_renameAll old_ne_new (hkeys hmount)
    rcases hold with hold | ⟨r, hr, hnew⟩
    · have hbt : b = true := Assoc.get_isSome_iff.mpr hold
      have hr : (⟨"componentRef", "ref", "component-ref-aliases"⟩ : Rename) ∈ renames b := by
        rw [hbt]
        decide
      exact (mem_keys_renameAll old_ne_new (hkeys href)).1 _ hr rfl
    · have hno : ∀ b, ∀ r ∈ renames b, "mount" ≠ r.new := by decide
      exact hno b r hr hnew
  · intro kind hkind
    rcases normalizeProvenanceKind_cases u with ⟨heq, hcur⟩ | ⟨kind', next, -, hcur, heq⟩
    · rw [heq] at hkind
      exact hcur kind hkind
    · rw [heq, Assoc.get_insert_self] at hkind
      obtain rfl := Json.string.inj (Option.some.inj hkind)
      exact currentKind_current hcur

/-- A member of the result has the value of a member, or is a string. -/
theorem forall_normalizeMap {P : Json → Prop} (hstring : ∀ t, P (.string t)) (h : ∀ e ∈ s.1, P e.2) :
    ∀ e ∈ (normalizeMap s).1, P e.2 := by
  rw [normalizeMap_eq]
  have hu : ∀ e ∈ (renameAll (renames (Assoc.get "mount" s.1).isSome) s).1, P e.2 := forall_renameAll h
  rcases normalizeProvenanceKind_cases (renameAll (renames (Assoc.get "mount" s.1).isSome) s) with
    ⟨heq, -⟩ | ⟨kind, next, -, -, heq⟩
  · rwa [heq]
  · rw [heq]
    intro e he
    rcases Assoc.mem_insert he with rfl | he
    · exact hstring next
    · exact hu e he

theorem sorted_normalizeMap (h : Assoc.Sorted s.1) : Assoc.Sorted (normalizeMap s).1 := by
  rw [normalizeMap_eq]
  have hu : Assoc.Sorted (renameAll (renames (Assoc.get "mount" s.1).isSome) s).1 := sorted_renameAll h
  rcases normalizeProvenanceKind_cases (renameAll (renames (Assoc.get "mount" s.1).isSome) s) with
    ⟨heq, -⟩ | ⟨kind, next, -, -, heq⟩
  · rwa [heq]
  · rw [heq]
    exact hu.insert _ _

theorem normalizeMap_congr (h : s.1 = t.1) : (normalizeMap s).1 = (normalizeMap t).1 := by
  have hkind : ∀ {u v : Rewritten}, u.1 = v.1 → (normalizeProvenanceKind u).1 = (normalizeProvenanceKind v).1 := by
    rintro ⟨ms, l⟩ ⟨_, l'⟩ rfl
    unfold normalizeProvenanceKind
    dsimp only
    split
    · rename_i kind _
      cases currentKind kind <;> rfl
    · rfl
  rw [normalizeMap_eq, normalizeMap_eq, h]
  exact hkind (renameAll_congr h)

/-- The keys the rewriting may remove, add or change. -/
def touchedKeys : List String := ["componentRef", "ref", "kind"] ++ legacyKeys ++ aliases.map Prod.snd

/-- The other members stay as they are. -/
theorem get_normalizeMap (hk : k ∉ touchedKeys) : Assoc.get k (normalizeMap s).1 = Assoc.get k s.1 := by
  rw [normalizeMap_eq]
  have hrenames : ∀ b, ∀ r ∈ renames b, r.old ∈ touchedKeys ∧ r.new ∈ touchedKeys := by decide
  have hu : Assoc.get k (renameAll (renames (Assoc.get "mount" s.1).isSome) s).1 = Assoc.get k s.1 :=
    get_renameAll fun r hr => ⟨fun he => hk (he ▸ (hrenames _ r hr).1), fun he => hk (he ▸ (hrenames _ r hr).2)⟩
  rcases normalizeProvenanceKind_cases (renameAll (renames (Assoc.get "mount" s.1).isSome) s) with
    ⟨heq, -⟩ | ⟨kind, next, -, -, heq⟩
  · rw [heq, hu]
  · have hne : k ≠ "kind" := fun he => hk (he ▸ by decide)
    rw [heq, Assoc.get_insert, if_neg hne, hu]

/-! ### Whole documents -/

section Each

variable {α : Type} {f g : α → List String → α × List String} {as : List α}

theorem each_congr (h : ∀ a ∈ as, f a = g a) : each f as = each g as := by
  induction as with
  | nil => rfl
  | cons a as ih =>
    rw [List.forall_mem_cons] at h
    funext applied
    simp only [each, h.1, ih h.2]

/-- Where the labels have no influence on the values, the list is mapped. -/
theorem each_fst (h : ∀ a ∈ as, ∀ l l', (f a l).1 = (f a l').1) (applied : List String) :
    (each f as applied).1 = as.map fun a => (f a []).1 := by
  induction as generalizing applied with
  | nil => rfl
  | cons a as ih =>
    rw [List.forall_mem_cons] at h
    simp only [each, List.map_cons, ih h.2, h.1 applied []]

theorem each_of_fixed (h : ∀ a ∈ as, ∀ l, f a l = (a, l)) (applied : List String) :
    each f as applied = (as, applied) := by
  induction as generalizing applied with
  | nil => rfl
  | cons a as ih =>
    rw [List.forall_mem_cons] at h
    simp only [each, h.1 applied, ih h.2]

end Each

/-- Any depth that is enough gives the same. -/
theorem normalizeWithin_congr {n m : ℕ} {j : Json} (hn : j.depth ≤ n) (hm : j.depth ≤ m) :
    normalizeWithin n j = normalizeWithin m j := by
  induction n generalizing j m with
  | zero =>
    cases j with
    | array xs => simp [Json.depth] at hn
    | object ms => simp [Json.depth] at hn
    | _ => cases m <;> rfl
  | succ n ih =>
    cases j with
    | array xs =>
      rw [Json.depth_array] at hn hm
      obtain ⟨m, rfl⟩ : ∃ m', m = m' + 1 := ⟨m - 1, by omega⟩
      have hchild : each (normalizeWithin n) xs = each (normalizeWithin m) xs := each_congr fun x hx =>
        ih (Json.depthList_le.mp (by omega) x hx) (Json.depthList_le.mp (by omega) x hx)
      funext applied
      simp only [normalizeWithin, hchild]
    | object ms =>
      rw [Json.depth_object] at hn hm
      obtain ⟨m, rfl⟩ : ∃ m', m = m' + 1 := ⟨m - 1, by omega⟩
      have hms : ∀ e ∈ ms, e.2.depth ≤ n ∧ e.2.depth ≤ m := fun e he =>
        ⟨Json.depthMembers_le.mp (by omega) e he, Json.depthMembers_le.mp (by omega) e he⟩
      have hdepth : ∀ applied, ∀ e ∈ (normalizeMap (ms, applied)).1, e.2.depth ≤ n ∧ e.2.depth ≤ m := fun applied =>
        forall_normalizeMap (s := (ms, applied)) (P := fun v => v.depth ≤ n ∧ v.depth ≤ m) (fun t => by simp) hms
      funext applied
      have hchild : each (eachValue (normalizeWithin n)) (normalizeMap (ms, applied)).1 =
          each (eachValue (normalizeWithin m)) (normalizeMap (ms, applied)).1 := each_congr fun e he => by
        unfold eachValue
        rw [ih (hdepth applied e he).1 (hdepth applied e he).2]
      simp only [normalizeWithin, hchild]
    | _ => cases m <;> rfl

theorem normalizeValue_array (xs : List Json) (applied : List String) : normalizeValue (.array xs) applied =
    (.array (each normalizeValue xs applied).1, (each normalizeValue xs applied).2) := by
  have hchild : each (normalizeWithin (Json.depthList xs)) xs = each normalizeValue xs := each_congr fun x hx =>
    normalizeWithin_congr (Json.depthList_le.mp le_rfl x hx) le_rfl
  simp only [normalizeValue, Json.depth, normalizeWithin, hchild]

theorem normalizeValue_object (ms : List (String × Json)) (applied : List String) :
    normalizeValue (.object ms) applied =
      let s := normalizeMap (ms, applied)
      (.object (each (eachValue normalizeValue) s.1 s.2).1, (each (eachValue normalizeValue) s.1 s.2).2) := by
  have hdepth : ∀ e ∈ (normalizeMap (ms, applied)).1, e.2.depth ≤ Json.depthMembers ms :=
    forall_normalizeMap (s := (ms, applied)) (P := fun v => v.depth ≤ Json.depthMembers ms) (fun t => by simp)
      (Json.depthMembers_le.mp le_rfl)
  have hchild : each (eachValue (normalizeWithin (Json.depthMembers ms))) (normalizeMap (ms, applied)).1 =
      each (eachValue normalizeValue) (normalizeMap (ms, applied)).1 := each_congr fun e he => by
    unfold eachValue
    rw [normalizeWithin_congr (hdepth e he) le_rfl]
    rfl
  simp only [normalizeValue, Json.depth, normalizeWithin] at hchild ⊢
  simp only [hchild]

/-- The rewritten value, without the labels. -/
def normalized (j : Json) : Json := (normalizeValue j []).1

theorem normalizeValue_fst (j : Json) (applied : List String) : (normalizeValue j applied).1 = normalized j := by
  have hwithin : ∀ n j l l', (normalizeWithin n j l).1 = (normalizeWithin n j l').1 := by
    intro n
    induction n with
    | zero => intro j l l'; rfl
    | succ n ih =>
      intro j l l'
      cases j with
      | array xs =>
        have hone : ∀ x ∈ xs, ∀ l l', (normalizeWithin n x l).1 = (normalizeWithin n x l').1 := fun x _ => ih x
        simp only [normalizeWithin, each_fst hone]
      | object ms =>
        have hone : ∀ e ∈ (normalizeMap (ms, l)).1, ∀ l l',
            (eachValue (normalizeWithin n) e l).1 = (eachValue (normalizeWithin n) e l').1 := fun e _ l l' =>
          Prod.ext rfl (ih e.2 l l')
        have hmap : (normalizeMap (ms, l)).1 = (normalizeMap (ms, l')).1 := normalizeMap_congr rfl
        simp only [normalizeWithin]
        rw [each_fst hone, ← hmap, each_fst hone]
      | _ => rfl
  exact hwithin _ _ _ _

theorem normalized_array (xs : List Json) : normalized (.array xs) = .array (xs.map normalized) := by
  have hone : ∀ x ∈ xs, ∀ l l', (normalizeValue x l).1 = (normalizeValue x l').1 := fun x _ l l' => by
    rw [normalizeValue_fst, normalizeValue_fst]
  rw [normalized, normalizeValue_array, each_fst hone]
  rfl

theorem normalized_object (ms : List (String × Json)) :
    normalized (.object ms) = .object (Assoc.mapVals normalized (normalizeMap (ms, [])).1) := by
  have hone : ∀ e ∈ (normalizeMap (ms, [])).1, ∀ l l',
      (eachValue normalizeValue e l).1 = (eachValue normalizeValue e l').1 := fun e _ l l' =>
    Prod.ext rfl (by simp only [eachValue, normalizeValue_fst])
  rw [normalized, normalizeValue_object]
  dsimp only
  rw [each_fst hone]
  rfl

/-- Only a string is rewritten to that string. -/
theorem normalized_eq_string {j : Json} {t : String} (h : normalized j = .string t) : j = .string t := by
  cases j with
  | array xs =>
    rw [normalized_array] at h
    cases h
  | object ms =>
    rw [normalized_object] at h
    cases h
  | _ => exact h

theorem Modern.mapVals {ms : List (String × Json)} (h : Modern ms) : Modern (Assoc.mapVals normalized ms) where
  keys k hk := h.keys k (by rwa [Assoc.keys_mapVals] at hk)
  mount hm hr := by
    rw [Assoc.keys_mapVals] at hm hr
    exact h.mount hm hr
  kind kind hk := by
    rw [Assoc.get_mapVals, Option.map_eq_some_iff] at hk
    obtain ⟨v, hv, he⟩ := hk
    rw [normalized_eq_string he] at hv
    exact h.kind kind hv

theorem Modern.normalized {ms : List (String × Json)} (h : Modern ms) :
    normalized (.object ms) = .object (Assoc.mapVals normalized ms) := by
  rw [normalized_object, normalizeMap_of_modern h]

/-- **The rewriting** of historical documents: modern objects are the ones it leaves alone. -/
def normalization : Rewriting where
  rewrite := normalized
  settled := Modern
  rewrite_atom {j} hobj harr := by
    cases j with
    | array xs => cases harr
    | object ms => cases hobj
    | _ => rfl
  rewrite_array := normalized_array
  rewrite_settled := Modern.normalized
  settled_of_fixed {ms} h := by
    rw [normalized_object, Json.object.injEq] at h
    rw [← h]
    exact (modern_normalizeMap _).mapVals
  rewrite_object ms := ⟨_, normalized_object ms, fun h => (sorted_normalizeMap h).mapVals _⟩

/-- What the rewriting produces is modern at every depth. -/
theorem settled_normalized (j : Json) : normalization.Settled (normalized j) := by
  induction j with
  | array xs ih =>
    rw [normalized_array, Rewriting.settled_array]
    intro x hx
    obtain ⟨y, hy, rfl⟩ := List.mem_map.mp hx
    exact ih y hy
  | object ms ih =>
    have hvals : ∀ e ∈ (normalizeMap (ms, [])).1, normalization.Settled (normalized e.2) :=
      forall_normalizeMap (s := (ms, [])) (P := fun v => normalization.Settled (normalized v))
        (fun t => Rewriting.settled_atom rfl rfl) ih
    rw [normalized_object, Rewriting.settled_object]
    exact ⟨(modern_normalizeMap _).mapVals, Assoc.forall_mem_mapVals.mpr hvals⟩
  | _ => exact Rewriting.settled_atom rfl rfl

/-- **A document that is modern at every depth** is not changed, and nothing is reported. -/
theorem normalizeValue_of_settled {j : Json} (h : normalization.Settled j) (applied : List String) :
    normalizeValue j applied = (j, applied) := by
  induction j generalizing applied with
  | array xs ih =>
    have hone : ∀ x ∈ xs, ∀ l, normalizeValue x l = (x, l) := fun x hx => ih x hx (Rewriting.settled_array.mp h x hx)
    rw [normalizeValue_array, each_of_fixed hone]
  | object ms ih =>
    obtain ⟨hms, hvals⟩ := Rewriting.settled_object.mp h
    have hone : ∀ e ∈ ms, ∀ l, eachValue normalizeValue e l = (e, l) := fun e he l => by
      simp only [eachValue, ih e he (hvals e he)]
    rw [normalizeValue_object, normalizeMap_of_modern hms]
    dsimp only
    rw [each_of_fixed hone]
  | _ => rfl

end Forge.Contract
