import Forge.Contract.Lockfile
import Forge.Data.Except
import Forge.Sim.ThrustTable

/-!
# The file catalog

The catalog of the command line tools is a directory of JSON rows, one for each component
(`file_catalog.rs`). `load` reads every row and refuses the whole catalog if one is malformed.

The revisions of a row are texts. Pinning takes them as versions (`revisions`), admission
compares them as texts (`has_revision`), and a version has more texts than its canonical
one. `pinningAdmissible_iff` says for which catalogs every freshly pinned document is
admitted, and `coherent_iff` for which the two readings are of the same set.
-/

namespace Forge.Catalog

open Forge.Contract

/-! ### Rows -/

structure RowLicense where
  id : String
  «class» : String
  terms : String
  sourceUrl : String
  exportPolicy : String
deriving DecidableEq

structure Citation where
  value : String
  sources : List String
  accessed : String
deriving DecidableEq

structure RowPrice where
  vendor : String
  sku : String
  url : String
  amount : Float
  currency : String
  fetchedAt : String
  region : String
  purchasable : Bool
deriving DecidableEq

structure RowThrustPoint where
  voltage : Option Float
  throttle : Float
  thrustG : Float
  currentA : Float
deriving DecidableEq

structure RowThrustTable where
  id : String
  prop : String
  voltage : Option Float
  confidence : Float
  sourceUrl : String
  points : List RowThrustPoint
deriving DecidableEq

structure RowRevision where
  version : String
  yanked : Bool
deriving DecidableEq

/-- A row, as far as loading and resolution read it. -/
structure CatalogRow where
  schemaVersion : Option String
  id : String
  category : String
  license : RowLicense
  confidence : Float
  review : Option String
  citations : BTreeMap String Citation
  prices : List RowPrice
  thrustTables : List RowThrustTable
  revisions : List RowRevision
deriving DecidableEq

def legacyCatalogRowFormatVersion : String := "1.0.0"

def catalogRowFormatVersion : String := "2.0.0"

def legacyUnattributedThrustTableId : String := "legacy-unattributed"

/-! ### Checks of a row -/

/-- `if (c) return Err(message)` -/
def refuseIf (c : Prop) [Decidable c] (message : String) : Except String Unit := if c then .error message else .ok ()

/-- `trim().is_empty()` -/
def blank (s : String) : Prop := Text.trim s = ""

instance : DecidablePred blank := fun s => inferInstanceAs (Decidable (Text.trim s = ""))

/-- `effective_row_format` -/
def effectiveRowFormat (row : CatalogRow) : Except String String :=
  let version := row.schemaVersion.getD legacyCatalogRowFormatVersion
  if version = legacyCatalogRowFormatVersion ∨ version = catalogRowFormatVersion then .ok version
  else .error s!"{row.id}: unsupported catalog row schemaVersion '{version}'"

def validateLicense (row : CatalogRow) : Except String Unit := do
  let l := row.license
  refuseIf (∃ s ∈ [l.id, l.class, l.terms, l.sourceUrl, l.exportPolicy], blank s)
    s!"{row.id}: license ledger entry requires id/class/terms/sourceUrl/exportPolicy"
  refuseIf (l.class ∉ ["open", "attribution", "no-redistribution", "view-only"])
    s!"{row.id}: unknown license class '{l.class}'"

def validatePrices (row : CatalogRow) : Except String Unit := do
  refuseIf (row.prices = []) s!"{row.id}: at least one price/SKU row required"
  refuseIf (row.prices.any RowPrice.purchasable = false)
    s!"{row.id}: at least one price row must be purchasable for P3 BOM export"
  row.prices.forM fun p =>
    refuseIf ((∃ s ∈ [p.vendor, p.sku, p.url, p.currency, p.fetchedAt, p.region], blank s) ∨ p.amount.isNaN = true ∨
      p.amount < 0) s!"{row.id}: malformed price row for {p.vendor}"

/-- The fields that a row of a category has to cite, beside those of every row. -/
def requiredCitations (category : String) : List String :=
  ["massG", "license", "prices"] ++
    match category with
    | "motor" => ["elec.kv", "elec.vMin", "elec.vMax", "elec.maxCurrentA", "mech.mountPattern", "mech.propShaft"]
    | "battery" => ["dims", "elec.vMin", "elec.vMax", "elec.maxDischargeA", "elec.connectors", "elec.capacityMah"]
    | "prop" => ["mech.propDiameterIn", "mech.pitchIn", "mech.blades"]
    | "frame" => ["dims", "mech.mountPattern", "mech.motorSpacingMm"]
    | "esc" => ["dims", "elec.vMin", "elec.vMax", "elec.maxCurrentA", "mech.mountPattern"]
    | "fc" => ["dims", "elec.vMin", "elec.vMax", "mech.mountPattern"]
    | "rover" => ["dims"]
    | _ => []

def validateCitations (row : CatalogRow) : Except String Unit :=
  (requiredCitations row.category).forM fun field =>
    match row.citations.get field with
    | none => .error s!"{row.id}: missing citation for {field}"
    | some cite =>
      refuseIf (blank cite.value ∨ cite.sources = [] ∨ blank cite.accessed) s!"{row.id}: malformed citation for {field}"

/-! ### Thrust tables -/

/-- The voltage of all points of a table in the old format, and nothing for the new one. -/
def tableVoltage (row : CatalogRow) (rowFormat : String) (table : RowThrustTable) : Except String (Option Float) :=
  if rowFormat = legacyCatalogRowFormatVersion then
    if table.points.any fun p => p.voltage.isSome then
      .error s!"{row.id}: v1 thrust table {table.id} forbids per-point voltage; migrate the whole row to v2"
    else
      match table.voltage with
      | none => .error s!"{row.id}: v1 thrust table {table.id} requires one table voltage"
      | some voltage =>
        if voltage.isFinite = false ∨ voltage ≤ 0 ∨ 1000 < voltage then
          .error s!"{row.id}: thrust table {table.id} voltage must be positive finite and at most 1000 V"
        else .ok (some voltage)
  else if table.voltage.isSome then
    .error s!"{row.id}: v2 thrust table {table.id} forbids table voltage; every point must declare voltage"
  else if table.points.any fun p => p.voltage.isNone then
    .error s!"{row.id}: v2 thrust table {table.id} requires voltage on every point"
  else .ok none

/-- `f64::min` and `f64::max` of finite numbers. -/
def smaller (a b : Float) : Float := if b < a then b else a

def larger (a b : Float) : Float := if a < b then b else a

/-- The bench point of a row, where the table's voltage stands for a missing one. -/
def RowThrustPoint.bench (legacyVoltage : Option Float) (p : RowThrustPoint) : Sim.ThrustPoint Float where
  voltage := (p.voltage.or legacyVoltage).getD 0
  throttle := p.throttle
  thrustN := p.thrustG * 9.80665 / 1000
  currentA := p.currentA

/-- The checks of one thrust table, after those before it. -/
def validateThrustTable (row : CatalogRow) (rowFormat : String) (seen : List String) (table : RowThrustTable) :
    Except String (List String) := do
  refuseIf (blank table.id ∨ table.id = legacyUnattributedThrustTableId ∨ 256 < table.id.utf8ByteSize ∨
      blank table.prop ∨ 256 < table.prop.utf8ByteSize ∨ table.sourceUrl.startsWith "https://" = false ∨
      2048 < table.sourceUrl.utf8ByteSize ∨ ¬ (0 < table.confidence ∧ table.confidence ≤ 1) ∨
      ¬ (2 ≤ table.points.length ∧ table.points.length ≤ 10000)) s!"{row.id}: malformed thrust table {table.id}"
  refuseIf (table.id ∈ seen) s!"{row.id}: duplicate thrust table id {table.id}"
  let legacyVoltage ← tableVoltage row rowFormat table
  let pts := table.points.map (RowThrustPoint.bench legacyVoltage)
  let _ ← (Sim.fromPoints pts).mapError fun e => s!"{row.id}: thrust table {table.id}: {e.text}"
  let throttles := pts.map Sim.ThrustPoint.throttle
  refuseIf (throttles.foldl smaller (1 / 0) != 0 ∨ throttles.foldl larger (-1 / 0) != 1)
    s!"{row.id}: thrust table {table.id} throttle grid must cover [0,1] without edge-clamp authority"
  return table.id :: seen

def validateThrustTables (row : CatalogRow) (rowFormat : String) : Except String Unit := do
  refuseIf (64 < row.thrustTables.length) s!"{row.id}: at most 64 thrust tables are allowed"
  refuseIf (row.thrustTables ≠ [] ∧ row.category ≠ "motor") s!"{row.id}: thrust tables require motor category authority"
  let _ ← row.thrustTables.foldlM (validateThrustTable row rowFormat) []

def validateRevisions (row : CatalogRow) : Except String Unit := do
  refuseIf (row.revisions = []) s!"{row.id}: at least one revision required"
  row.revisions.forM fun rev =>
    refuseIf (Version.parse rev.version = none) s!"{row.id}: revision '{rev.version}' is not x.y.z"

/-- What `load` checks of a row that it has parsed. -/
def validateRow (row : CatalogRow) : Except String Unit := do
  let rowFormat ← effectiveRowFormat row
  refuseIf (¬ (0 < row.confidence ∧ row.confidence ≤ 1)) s!"{row.id}: confidence must be in (0, 1]"
  refuseIf (row.confidence < 1 ∧ row.review = none)
    s!"{row.id}: confidence < 1 requires a review note (P3-004 queue semantics)"
  refuseIf (row.citations.isEmpty = true) s!"{row.id}: rows must cite their sources (D10)"
  validateLicense row
  validatePrices row
  validateCitations row
  validateThrustTables row rowFormat
  validateRevisions row

/-! ### Loading -/

/-- A file of the directory: its path as it is displayed, the bytes of its name, and what reading it gives. -/
structure CatalogFile where
  path : String
  name : List UInt8
  content : Except String (List UInt8)

/-- What loading uses of other crates and of the standard library. -/
structure LoadEnv where
  /-- The text of the error of `std::str::from_utf8`. -/
  utf8Error : List UInt8 → String
  /-- `serde_json::from_str` -/
  parseRow : String → Except String CatalogRow
  /-- The digest of bytes, in hexadecimal. -/
  sha256 : List UInt8 → String

structure FileCatalog where
  rows : BTreeMap String CatalogRow
  rowSha256 : BTreeMap String String
  authoritySha256 : String
deriving DecidableEq

/-- `Path::extension` of a file name: what follows the last dot, unless only that dot is at the front. -/
def extension (name : List UInt8) : Option (List UInt8) :=
  let afterDot := (name.reverse.takeWhile (· ≠ 0x2E)).reverse
  if afterDot.length + 1 < name.length then some afterDot else none

/-- Text as it is in UTF-8. -/
def utf8 (bytes : List UInt8) : Option String := String.fromUTF8? ⟨bytes.toArray⟩

/-- `ok_or` -/
def okOr {α : Type} (value : Option α) (message : String) : Except String α :=
  match value with
  | some a => .ok a
  | none => .error message

/-- Files whose name ends in `.json`. -/
def CatalogFile.isRow (file : CatalogFile) : Bool := (extension file.name).bind utf8 = some "json"

/-- The maps and the bytes to be hashed, after the files that were read. -/
structure Loading where
  rows : BTreeMap String CatalogRow
  rowSha256 : BTreeMap String String
  authority : List UInt8

/-- Read one row. -/
def loadRow (env : LoadEnv) (s : Loading) (file : CatalogFile) : Except String Loading := do
  let bytes ← file.content.mapError fun e => s!"{file.path}: {e}"
  let text ← okOr (utf8 bytes) s!"{file.path}: catalog rows must be UTF-8: {env.utf8Error bytes}"
  let row ← (env.parseRow text).mapError fun e => s!"{file.path}: {e}"
  validateRow row
  let filename ← okOr (utf8 file.name) s!"{file.path}: catalog filename must be UTF-8"
  let digest := env.sha256 bytes
  refuseIf (row.id ∈ s.rows.keys) s!"{file.path}: duplicate catalog component id"
  return { rows := s.rows.insert row.id row
           rowSha256 := s.rowSha256.insert row.id digest
           authority := s.authority ++
            (s!"components/{filename}".toUTF8.toList ++ 0 :: (digest.toUTF8.toList ++ [0x0A])) }

/-- `FileCatalog::load`; `components` is the directory, if it can be listed. -/
def load (env : LoadEnv) (components : Except String (List CatalogFile)) : Except String FileCatalog := do
  let files ← components
  let paths := (files.filter CatalogFile.isRow).insertionSort fun a b => a.name ≤ b.name
  let start : Loading :=
    { rows := .empty, rowSha256 := .empty, authority := "forge-file-catalog-authority-v1".toUTF8.toList ++ [0] }
  let s ← paths.foldlM (loadRow env) start
  return { rows := s.rows, rowSha256 := s.rowSha256, authoritySha256 := env.sha256 s.authority }

/-! ### Resolution -/

/-- The revisions of a component, as they are written in its row. -/
def FileCatalog.revisionsOf (c : FileCatalog) (id : String) : List RowRevision :=
  ((c.rows.get id).map CatalogRow.revisions).getD []

/-- A revision as a version. -/
def RowRevision.parsed (rev : RowRevision) : Option Revision :=
  (Version.parse rev.version).map fun version => { version, yanked := rev.yanked }

/-- The catalog as a source of revisions. -/
def FileCatalog.source (c : FileCatalog) : RevisionSource where
  hasRevision id revision := (c.revisionsOf id).any fun v => v.version = revision
  revisions id := (c.revisionsOf id).filterMap RowRevision.parsed

/-! ### What was loaded -/

theorem refuseIf_eq_ok {c : Prop} [Decidable c] {message : String} : refuseIf c message = .ok () ↔ ¬ c := by
  unfold refuseIf
  split_ifs with h <;> simp [h]

/-- The revisions of an accepted row are versions. -/
theorem parse_of_validateRow {row : CatalogRow} (h : validateRow row = .ok ()) {rev : RowRevision}
    (hrev : rev ∈ row.revisions) : ∃ v, Version.parse rev.version = some v := by
  unfold validateRow at h
  -- the check of the revisions is the last one
  obtain ⟨_, -, h⟩ := bind_eq_ok.mp h
  obtain ⟨_, -, h⟩ := bind_eq_ok.mp h
  obtain ⟨_, -, h⟩ := bind_eq_ok.mp h
  obtain ⟨_, -, h⟩ := bind_eq_ok.mp h
  obtain ⟨_, -, h⟩ := bind_eq_ok.mp h
  obtain ⟨_, -, h⟩ := bind_eq_ok.mp h
  obtain ⟨_, -, h⟩ := bind_eq_ok.mp h
  obtain ⟨_, -, h⟩ := bind_eq_ok.mp h
  obtain ⟨_, -, h⟩ := bind_eq_ok.mp h
  exact Option.ne_none_iff_exists'.mp (refuseIf_eq_ok.mp (forM_eq_ok.mp h rev hrev))

/-- Every row of a map passed the checks. -/
def Valid (rows : BTreeMap String CatalogRow) : Prop := ∀ id row, rows.get id = some row → validateRow row = .ok ()

theorem loadRow_valid {env : LoadEnv} {s s' : Loading} {file : CatalogFile} (h : loadRow env s file = .ok s')
    (hs : Valid s.rows) : Valid s'.rows := by
  unfold loadRow at h
  obtain ⟨bytes, -, h⟩ := bind_eq_ok.mp h
  obtain ⟨text, -, h⟩ := bind_eq_ok.mp h
  obtain ⟨row, -, h⟩ := bind_eq_ok.mp h
  obtain ⟨_, hrow, h⟩ := bind_eq_ok.mp h
  obtain ⟨filename, -, h⟩ := bind_eq_ok.mp h
  obtain ⟨_, -, h⟩ := bind_eq_ok.mp h
  obtain rfl := pure_eq_ok.mp h
  intro id row' hget
  rw [BTreeMap.get_insert] at hget
  split_ifs at hget
  · exact Option.some.inj hget ▸ hrow
  · exact hs id row' hget

/-- **Every row of a loaded catalog passed the checks.** -/
theorem load_valid {env : LoadEnv} {components : Except String (List CatalogFile)} {c : FileCatalog}
    (h : load env components = .ok c) : Valid c.rows := by
  unfold load at h
  obtain ⟨files, -, h⟩ := bind_eq_ok.mp h
  obtain ⟨s, hs, h⟩ := bind_eq_ok.mp h
  obtain rfl := pure_eq_ok.mp h
  refine invariant_of_foldlM_eq_ok (P := fun s => Valid s.rows) loadRow_valid hs fun id row hget => ?_
  cases hget

/-- The revisions of a loaded catalog are versions. -/
theorem parse_of_load {env : LoadEnv} {components : Except String (List CatalogFile)} {c : FileCatalog}
    (h : load env components = .ok c) {id : String} {rev : RowRevision} (hrev : rev ∈ c.revisionsOf id) :
    ∃ v, Version.parse rev.version = some v := by
  unfold FileCatalog.revisionsOf at hrev
  cases hget : c.rows.get id with
  | none =>
    rw [hget] at hrev
    cases hrev
  | some row =>
    rw [hget] at hrev
    exact parse_of_validateRow (load_valid h id row hget) hrev

/-! ### When pins are admitted -/

/-- Every document that could be pinned resolves with its pins. -/
def PinningAdmissible (source : RevisionSource) : Prop :=
  ∀ spec L, pinRefs spec source = .ok L → resolveLockfile { spec with lockfile := L } source.toCatalogSource = []

/-- Every version that can be selected for a pin is listed in its canonical text. -/
def FreshListed (c : FileCatalog) : Prop :=
  ∀ id, ∀ rev ∈ c.revisionsOf id, rev.yanked = false → ∀ v, Version.parse rev.version = some v →
    ∃ rev' ∈ c.revisionsOf id, rev'.version = v.display

/-- Every revision is written in its canonical text. -/
def Canonical (c : FileCatalog) : Prop :=
  ∀ id, ∀ rev ∈ c.revisionsOf id, ∀ v, Version.parse rev.version = some v → rev.version = v.display

section

variable {c : FileCatalog} {id : String}

theorem hasRevision_iff {revision : String} :
    c.source.hasRevision id revision = true ↔ ∃ rev ∈ c.revisionsOf id, rev.version = revision := by
  simp [FileCatalog.source]

theorem mem_revisions {r : Revision} :
    r ∈ c.source.revisions id ↔ ∃ rev ∈ c.revisionsOf id, Version.parse rev.version = some r.version ∧
      rev.yanked = r.yanked := by
  simp only [FileCatalog.source, List.mem_filterMap, RowRevision.parsed, Option.map_eq_some_iff]
  constructor
  · rintro ⟨rev, hrev, v, hv, rfl⟩
    exact ⟨rev, hrev, hv, rfl⟩
  · rintro ⟨rev, hrev, hv, hy⟩
    exact ⟨rev, hrev, r.version, hv, by rw [hy]⟩

/-- A pin is found again, if the version that was selected for it is. -/
theorem pinned_of_pinRef {source : RevisionSource} {lockfile : BTreeMap String String} {r pin : String}
    (h : pinRef lockfile source r = .ok pin)
    (hfresh : ∀ id range v, refParts r = .ok (id, range) → newestMatching source id range = some v →
      source.hasRevision id v.display = true) :
    ∃ id rev, Text.rsplitOnce '@' pin = some (id, rev) ∧ source.hasRevision id rev = true := by
  unfold pinRef at h
  cases hr : refParts r with
  | error e =>
    rw [hr] at h
    cases h
  | ok p =>
    obtain ⟨id, range⟩ := p
    simp only [hr] at h
    cases hk : keptPin lockfile source.toCatalogSource r id range with
    | some kept =>
      simp only [hk] at h
      obtain rfl := Except.ok.inj h
      obtain ⟨-, rev, v, hsplit, -, -, hhas⟩ := keptPin_eq_some_iff.mp hk
      exact ⟨id, rev, hsplit, hhas⟩
    | none =>
      cases hn : newestMatching source id range with
      | none => simp [hk, hn] at h
      | some v =>
        simp only [hk, hn] at h
        obtain rfl := Except.ok.inj h
        exact ⟨id, v.display, Text.rsplitOnce_join _ _ (Version.not_mem_display (by decide) (by decide) _),
          hfresh id range v hr hn⟩

/-- The reference to exactly one version. -/
def exactRef (id : String) (v : Version) : String := id ++ String.singleton '@' ++ v.display

theorem refParts_exactRef (id : String) (v : Version) : refParts (exactRef id v) = .ok (id, .exact v) := by
  have hsplit : Text.rsplitOnce '@' (exactRef id v) = some (id, v.display) :=
    Text.rsplitOnce_join _ _ (Version.not_mem_display (by decide) (by decide) v)
  have hrange : Range.parse v.display = some (.exact v) := by
    unfold Range.parse
    split
    · rename_i rest h
      exact absurd (h ▸ List.mem_cons_self) (Version.not_mem_display (by decide) (by decide) v)
    · rename_i rest h
      exact absurd (h ▸ List.mem_cons_self) (Version.not_mem_display (by decide) (by decide) v)
    · rw [Version.parse_display, Option.map_some]
  rw [refParts, hsplit]
  simp only [hrange]

/-- The newest of the versions that are one version is that version. -/
theorem newestMatching_exact {v : Version} (h : ∃ r ∈ c.source.revisions id, r.version = v ∧ r.yanked = false) :
    newestMatching c.source id (.exact v) = some v := by
  obtain ⟨r, hr, hv, hy⟩ := h
  have hmem : v ∈ ((c.source.revisions id).filter fun r => !r.yanked && (Range.exact v).matches r.version).map
      Revision.version :=
    List.mem_map.mpr ⟨r, List.mem_filter.mpr ⟨hr, by simp [hy, Range.matches, hv]⟩, hv⟩
  cases hmax : newestMatching c.source id (.exact v) with
  | none => exact absurd (List.max?_eq_none_iff.mp hmax ▸ hmem) List.not_mem_nil
  | some w =>
    obtain ⟨hw, -⟩ := newestMatching_eq_some hmax
    rw [Range.matches, decide_eq_true_eq] at hw
    rw [hw]

/-- **Which catalogs admit what was pinned from them.** -/
theorem pinningAdmissible_iff : PinningAdmissible c.source ↔ FreshListed c := by
  constructor
  · intro h id rev hrev hy v hv
    -- a document whose only reference is to this version
    have hlisted : newestMatching c.source id (.exact v) = some v :=
      newestMatching_exact ⟨⟨v, rev.yanked⟩, mem_revisions.mpr ⟨rev, hrev, hv, rfl⟩, rfl, hy⟩
    have hpin : pinRef .empty c.source (exactRef id v) = .ok (exactRef id v) := by
      unfold pinRef
      rw [refParts_exactRef]
      simp only [keptPin, BTreeMap.get_empty, Option.bind_eq_bind, Option.bind_none, hlisted]
      rfl
    have href : (motorSpec (exactRef id v) .empty).eachRef = [exactRef id v] := rfl
    have hpins : pinRefs (motorSpec (exactRef id v) .empty) c.source =
        .ok (BTreeMap.empty.insert (exactRef id v) (exactRef id v)) := by
      rw [pinRefs_eq_ok_iff, href]
      refine ⟨fun r hr => ?_, fun k hk => ?_⟩
      · obtain rfl := List.mem_singleton.mp hr
        exact ⟨_, hpin, by rw [BTreeMap.get_insert, if_pos rfl]⟩
      · rw [BTreeMap.get_insert, if_neg fun hk' => hk (List.mem_singleton.mpr hk'), BTreeMap.get_empty]
    obtain ⟨pin, id', rev', hget, hsplit, hhas⟩ :=
      resolveLockfile_eq_nil_iff.mp (h _ _ hpins) (exactRef id v) List.mem_cons_self
    have hget' : (BTreeMap.empty.insert (exactRef id v) (exactRef id v)).get (exactRef id v) = some pin := hget
    rw [BTreeMap.get_insert, if_pos rfl] at hget'
    obtain rfl := Option.some.inj hget'
    rw [exactRef, Text.rsplitOnce_join _ _ (Version.not_mem_display (by decide) (by decide) v)] at hsplit
    obtain ⟨rfl, rfl⟩ := Prod.mk.inj (Option.some.inj hsplit)
    exact hasRevision_iff.mp hhas
  · intro h spec L hL
    refine resolveLockfile_eq_nil_iff.mpr fun r hr => ?_
    obtain ⟨pin, hpin, hget⟩ := (pinRefs_eq_ok_iff.mp hL).1 r hr
    obtain ⟨id, rev, hsplit, hhas⟩ := pinned_of_pinRef hpin fun id range v _ hn => by
      obtain ⟨-, q, hq, rfl, hy⟩ := newestMatching_eq_some hn
      obtain ⟨rev, hrev, hv, hyanked⟩ := mem_revisions.mp hq
      exact hasRevision_iff.mpr (h id rev hrev (hyanked.trans hy) q.version hv)
    exact ⟨pin, id, rev, hget, hsplit, hhas⟩

/-- **Which catalogs offer what they confirm**: those with canonical texts. -/
theorem coherent_iff (hparse : ∀ id, ∀ rev ∈ c.revisionsOf id, ∃ v, Version.parse rev.version = some v) :
    c.source.Coherent ↔ Canonical c := by
  constructor
  · intro h id rev hrev v hv
    obtain ⟨r, hr, hdisplay⟩ := (h id rev.version).mp (hasRevision_iff.mpr ⟨rev, hrev, rfl⟩)
    have hr' : v = r.version := by
      rw [← hdisplay, Version.parse_display] at hv
      exact (Option.some.inj hv).symm
    rw [hr', hdisplay]
  · intro h id revision
    rw [hasRevision_iff]
    constructor
    · rintro ⟨rev, hrev, rfl⟩
      obtain ⟨v, hv⟩ := hparse id rev hrev
      exact ⟨⟨v, rev.yanked⟩, mem_revisions.mpr ⟨rev, hrev, hv, rfl⟩, (h id rev hrev v hv).symm⟩
    · rintro ⟨r, hr, rfl⟩
      obtain ⟨rev, hrev, hv, -⟩ := mem_revisions.mp hr
      exact ⟨rev, hrev, h id rev hrev r.version hv⟩

end

/-- **File catalog pinning**: a loaded catalog admits every document that was pinned from it, and offers exactly
what it confirms, if and only if all its revisions are written canonically; the first alone holds if and only if
every version that can be selected is also listed canonically. -/
theorem fileCatalog_pinning {env : LoadEnv} {components : Except String (List CatalogFile)} {c : FileCatalog}
    (h : load env components = .ok c) :
    (PinningAdmissible c.source ∧ c.source.Coherent ↔ Canonical c) ∧ (PinningAdmissible c.source ↔ FreshListed c) := by
  have hcoherent : c.source.Coherent ↔ Canonical c := coherent_iff fun id rev hrev => parse_of_load h hrev
  refine ⟨⟨fun hc => hcoherent.mp hc.2, fun hc => ⟨pinningAdmissible_iff.mpr ?_, hcoherent.mpr hc⟩⟩, pinningAdmissible_iff⟩
  exact fun id rev hrev _ v hv => ⟨rev, hrev, hc id rev hrev v hv⟩

/-! ### A revision with a leading zero -/

/-- A row of a frame, which may be bought for ten euros and cites what it has to. -/
def frameRow (version : String) : CatalogRow where
  schemaVersion := some "2.0.0"
  id := "cmp_frame"
  category := "other"
  license := { id := "l", «class» := "open", terms := "t", sourceUrl := "u", exportPolicy := "e" }
  confidence := 1
  review := none
  citations := .ofList (["massG", "license", "prices"].map fun field =>
    (field, { value := "v", sources := ["s"], accessed := "2024" }))
  prices := [{ vendor := "v", sku := "s", url := "u", amount := 10, currency := "EUR", fetchedAt := "2024", region := "EU",
               purchasable := true }]
  thrustTables := []
  revisions := [{ version, yanked := false }]

/-- A directory with one file, whose text is the version of its row. -/
def frameDirectory (version : String) : Except String (List CatalogFile) :=
  .ok [{ path := "components/frame.json", name := "frame.json".toUTF8.toList, content := .ok version.toUTF8.toList }]

def frameEnv : LoadEnv where
  utf8Error _ := "invalid utf-8 sequence of 1 bytes from index 0"
  parseRow text := .ok (frameRow text)
  sha256 _ := "0"

def frameCatalog (version : String) : FileCatalog where
  rows := .ofList [("cmp_frame", frameRow version)]
  rowSha256 := .ofList [("cmp_frame", "0")]
  authoritySha256 := "0"

theorem fileCatalog_pinning_frame : PinningAdmissible (frameCatalog "1.2.3").source := by
  have h : load frameEnv (frameDirectory "1.2.3") = .ok (frameCatalog "1.2.3") := by decide +kernel
  refine ((fileCatalog_pinning h).1.mpr fun id rev hrev v hv => ?_).1
  by_cases hid : id = "cmp_frame"
  · subst hid
    have hrev : rev ∈ [(⟨"1.2.3", false⟩ : RowRevision)] := hrev
    rw [List.mem_singleton] at hrev
    subst hrev
    have hparse : Version.parse "1.2.3" = some ⟨1, 2, 3⟩ := by decide
    obtain rfl := Option.some.inj (hparse.symm.trans hv)
    decide
  · have hnone : (frameCatalog "1.2.3").rows.get id = none := by
      rw [BTreeMap.get_eq_none_iff]
      exact fun hmem => hid (List.mem_singleton.mp hmem)
    rw [FileCatalog.revisionsOf, hnone] at hrev
    cases hrev

/-- A frame that is pinned to `1.2.3` is refused, for the row says `01.2.3`. -/
theorem fileCatalog_refuses_leading_zero :
    load frameEnv (frameDirectory "01.2.3") = .ok (frameCatalog "01.2.3") ∧
      pinRefs (motorSpec "cmp_frame@^1.0.0" .empty) (frameCatalog "01.2.3").source =
        .ok (.ofList [("cmp_frame@^1.0.0", "cmp_frame@1.2.3")]) ∧
      resolveLockfile (motorSpec "cmp_frame@^1.0.0" (.ofList [("cmp_frame@^1.0.0", "cmp_frame@1.2.3")]))
        (frameCatalog "01.2.3").source.toCatalogSource ≠ [] :=
  ⟨by decide +kernel, by decide +kernel, by decide +kernel⟩

end Forge.Catalog
