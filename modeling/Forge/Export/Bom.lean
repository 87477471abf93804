import Forge.Data.Csv
import Forge.Data.Fixed

/-!
# The bill of materials as CSV

`bom_csv` (`forge-validate`) writes a header and one line for each row, with a column for each member. Absent members
are empty fields. **`parse_bomCsv`**: a reader of RFC 4180 gets back the header and for every row its 19 texts,
whatever characters they have.
-/

namespace Forge.Export

structure BomRow where
  item : String
  node : String
  material : String
  quantity : UInt32
  massG : Float
  componentRef : Option String
  componentId : Option String
  revision : Option String
  vendor : Option String
  sku : Option String
  url : Option String
  price : Option Float
  currency : Option String
  licenseClass : Option String
  reviewStatus : Option String
  citation : Option String
  dfmStatus : Option String
  dfmArtifactRef : Option String
  source : String

/-- `unwrap_or_default` -/
def orEmpty (s : Option String) : List Char := (s.getD "").toList

/-- The texts of a row, in the order of the columns. -/
def BomRow.fields (r : BomRow) : List (List Char) :=
  [r.item.toList, r.node.toList, r.material.toList, Nat.toDigits 10 r.quantity.toNat, formatFixed 1 r.massG,
    orEmpty r.componentRef, orEmpty r.componentId, orEmpty r.revision, orEmpty r.vendor, orEmpty r.sku, orEmpty r.url,
    (r.price.map fun p => formatFixed 2 p).getD [], orEmpty r.currency, orEmpty r.licenseClass, orEmpty r.reviewStatus,
    orEmpty r.citation, orEmpty r.dfmStatus, orEmpty r.dfmArtifactRef, r.source.toList]

/-- `csv_escape` -/
def csvEscape (s : List Char) : List Char :=
  if s.contains ',' || s.contains '"' || s.contains '\n' || s.contains '\r' then
    '"' :: ((s.flatMap fun c => if c = '"' then ['"', '"'] else [c]) ++ ['"'])
  else s

/-- The names of the columns. -/
def bomColumns : List String :=
  ["item", "node", "material", "quantity", "mass_g", "componentRef", "componentId", "revision", "vendor", "sku", "url",
    "price", "currency", "licenseClass", "reviewStatus", "citation", "dfmStatus", "dfmArtifactRef", "source"]

/-- The first line, with the columns between commas. -/
def bomHeader : List Char := ((bomColumns.map String.toList).intersperse [',']).flatten ++ ['\n']

/-- `bom_csv` -/
def bomCsv (rows : List BomRow) : List Char :=
  bomHeader ++ rows.flatMap fun r => ((r.fields.map csvEscape).intersperse [',']).flatten ++ ['\n']

theorem csvEscape_eq (s : List Char) : csvEscape s = Csv.escape s := by
  have hspecial : (s.contains ',' || s.contains '"' || s.contains '\n' || s.contains '\r') =
      s.any fun c => Csv.Special c := by
    rw [Bool.eq_iff_iff]
    simp only [Bool.or_eq_true, List.contains_iff_mem, List.any_eq_true, decide_eq_true_eq]
    constructor
    · rintro (((h | h) | h) | h)
      · exact ⟨_, h, Or.inl rfl⟩
      · exact ⟨_, h, Or.inr (.inl rfl)⟩
      · exact ⟨_, h, Or.inr (.inr (.inl rfl))⟩
      · exact ⟨_, h, Or.inr (.inr (.inr rfl))⟩
    · rintro ⟨c, hc, rfl | rfl | rfl | rfl⟩ <;> simp [hc]
  rw [csvEscape, hspecial]
  rfl

theorem bomHeader_eq : bomHeader = Csv.writeRecord (bomColumns.map String.toList) := by
  have hplain : (bomColumns.map String.toList).map Csv.escape = bomColumns.map String.toList := by decide +kernel
  rw [Csv.writeRecord, hplain]
  rfl

theorem bomCsv_eq (rows : List BomRow) :
    bomCsv rows = Csv.write (bomColumns.map String.toList :: rows.map BomRow.fields) := by
  have hrow (r : BomRow) : ((r.fields.map csvEscape).intersperse [',']).flatten ++ ['\n'] = Csv.writeRecord r.fields := by
    rw [funext csvEscape_eq]
    rfl
  rw [bomCsv, bomHeader_eq, Csv.write, List.flatMap_cons, List.flatMap_map]
  simp only [hrow]

/-- **What is written for a bill of materials is read back**: the header, and for every row its 19 fields. -/
theorem parse_bomCsv (rows : List BomRow) :
    Csv.parse (bomCsv rows) = some (bomColumns.map String.toList :: rows.map BomRow.fields) ∧
      bomColumns.length = 19 ∧ ∀ r ∈ rows, r.fields.length = 19 := by
  refine ⟨?_, rfl, fun _ _ => rfl⟩
  rw [bomCsv_eq]
  refine Csv.parse_write (List.forall_mem_cons.mpr ⟨by decide, fun r hr => ?_⟩)
  obtain ⟨row, -, rfl⟩ := List.mem_map.mp hr
  exact List.cons_ne_nil _ _

end Forge.Export
