import Forge.Data.Numerals
import Mathlib.Data.List.Basic

/-!
# Comma-separated values

Records of fields as RFC 4180 has them, with a line feed behind every record: a field with a comma, a quote or a line
break in it stands in quotes, with its quotes doubled. `parse` is the automaton that reads such a text, and rejects
what the grammar does not have: a quote or a carriage return inside a bare field, and anything but a quote, a comma or
a line feed behind a closing quote.

**`parse_write`**: what is written is read back, field by field.
-/

namespace Csv

/-! ### Reading -/

/-- Where the automaton stands in a field. -/
inductive Mode where
  /-- Before the field. -/
  | start
  /-- Inside a bare field. -/
  | bare
  /-- Inside quotes. -/
  | quoted
  /-- Behind a quote that ends the field or is the first of two. -/
  | closed
deriving DecidableEq

/-- The records and the fields before, and what was read of the field. -/
structure Machine where
  records : List (List (List Char))
  fields : List (List Char)
  field : List Char
  mode : Mode

/-- The field ends at a comma. -/
def Machine.endField (m : Machine) : Machine := { m with fields := m.fields ++ [m.field], field := [], mode := .start }

/-- The record ends at a line feed. -/
def Machine.endRecord (m : Machine) : Machine :=
  { records := m.records ++ [m.fields ++ [m.field]], fields := [], field := [], mode := .start }

def Machine.push (m : Machine) (c : Char) (mode : Mode) : Machine := { m with field := m.field ++ [c], mode }

/-- A character of the text. -/
def step (m : Machine) (c : Char) : Option Machine :=
  match m.mode with
  | .quoted => if c = '"' then some { m with mode := .closed } else some (m.push c .quoted)
  | .closed =>
    if c = '"' then some (m.push c .quoted)
    else if c = ',' then some m.endField
    else if c = '\n' then some m.endRecord
    else none
  | .start =>
    if c = '"' then some { m with mode := .quoted }
    else if c = ',' then some m.endField
    else if c = '\n' then some m.endRecord
    else if c = '\r' then none
    else some (m.push c .bare)
  | .bare =>
    if c = ',' then some m.endField
    else if c = '\n' then some m.endRecord
    else if c = '"' ∨ c = '\r' then none
    else some (m.push c .bare)

def initial (records : List (List (List Char))) (fields : List (List Char)) : Machine :=
  { records, fields, field := [], mode := .start }

/-- What was read when the text ends; the last record need not have a line feed. -/
def finish (m : Machine) : Option (List (List (List Char))) :=
  match m.mode with
  | .quoted => none
  | .start => if m.fields = [] then some m.records else some m.endRecord.records
  | .bare | .closed => some m.endRecord.records

/-- The records of a text. -/
def parse (text : List Char) : Option (List (List (List Char))) := (text.foldlM step (initial [] [])).bind finish

/-! ### Writing -/

/-- The characters on account of which a field is quoted. -/
def Special (c : Char) : Prop := c = ',' ∨ c = '"' ∨ c = '\n' ∨ c = '\r'

instance : DecidablePred Special := fun c => inferInstanceAs (Decidable (c = ',' ∨ c = '"' ∨ c = '\n' ∨ c = '\r'))

/-- Quotes doubled. -/
def double (s : List Char) : List Char := s.flatMap fun c => if c = '"' then ['"', '"'] else [c]

/-- A field as it is written. -/
def escape (s : List Char) : List Char := if s.any (fun c => Special c) then '"' :: (double s ++ ['"']) else s

/-- A record as it is written, with its line feed. -/
def writeRecord (fields : List (List Char)) : List Char := ((fields.map escape).intersperse [',']).flatten ++ ['\n']

def write (records : List (List (List Char))) : List Char := records.flatMap writeRecord

/-! ### Reading back -/

/-- The automaton has read this field and stands before a comma or a line feed. -/
structure Ready (records : List (List (List Char))) (fields : List (List Char)) (field : List Char) (m : Machine) :
    Prop where
  records : m.records = records
  fields : m.fields = fields
  field : m.field = field
  mode : m.mode ≠ .quoted

variable {records : List (List (List Char))} {fields : List (List Char)} {field s : List Char} {m : Machine}

theorem Ready.comma (h : Ready records fields field m) : step m ',' = some (initial records (fields ++ [field])) := by
  obtain ⟨rfl, rfl, rfl, hmode⟩ := h
  cases hm : m.mode with
  | quoted => exact absurd hm hmode
  | start | bare | closed => simp [step, hm, Machine.endField, initial]

theorem Ready.lineFeed (h : Ready records fields field m) :
    step m '\n' = some (initial (records ++ [fields ++ [field]]) []) := by
  obtain ⟨rfl, rfl, rfl, hmode⟩ := h
  cases hm : m.mode with
  | quoted => exact absurd hm hmode
  | start | bare | closed => simp [step, hm, Machine.endRecord, initial]

/-- A bare field, from its beginning or from inside. -/
theorem foldlM_bare (hs : ∀ c ∈ s, ¬Special c) (hmode : m.mode = .start ∨ m.mode = .bare) :
    ∃ m', s.foldlM step m = some m' ∧ Ready m.records m.fields (m.field ++ s) m' := by
  induction s generalizing m with
  | nil =>
    refine ⟨m, rfl, ⟨rfl, rfl, (List.append_nil _).symm, ?_⟩⟩
    rcases hmode with h | h <;> rw [h] <;> decide
  | cons c s ih =>
    obtain ⟨hc, hs⟩ := List.forall_mem_cons.mp hs
    simp only [Special, not_or] at hc
    have hstep : step m c = some (m.push c .bare) := by
      rcases hmode with h | h <;> simp [step, h, hc]
    obtain ⟨m', hm', hready⟩ := ih (m := m.push c .bare) hs (.inr rfl)
    refine ⟨m', by rw [List.foldlM_cons, hstep]; exact hm', ?_⟩
    have hfield : m.field ++ c :: s = (m.push c .bare).field ++ s := by simp [Machine.push]
    rw [hfield]
    exact hready

/-- What stands between quotes. -/
theorem foldlM_double (hmode : m.mode = .quoted) :
    (double s).foldlM step m = some { m with field := m.field ++ s } := by
  induction s generalizing m with
  | nil =>
    rw [List.append_nil]
    rfl
  | cons c s ih =>
    have hquoted : (if c = '"' then ['"', '"'] else [c]).foldlM step m = some (m.push c .quoted) := by
      split
      next hc =>
        subst hc
        simp [List.foldlM_cons, step, hmode, Machine.push]
      next hc => simp [List.foldlM_cons, step, hmode, hc]
    rw [double, List.flatMap_cons, List.foldlM_append, hquoted]
    change (double s).foldlM step (m.push c .quoted) = _
    rw [ih rfl]
    simp [Machine.push, hmode]

/-- **A written field is read as the field.** -/
theorem foldlM_escape (records : List (List (List Char))) (fields : List (List Char)) (s : List Char) :
    ∃ m', (escape s).foldlM step (initial records fields) = some m' ∧ Ready records fields s m' := by
  unfold escape
  split
  next hspecial =>
    refine ⟨{ records, fields, field := s, mode := .closed }, ?_, ⟨rfl, rfl, rfl, nofun⟩⟩
    have hopen : step (initial records fields) '"' = some { initial records fields with mode := .quoted } := rfl
    rw [List.foldlM_cons, hopen]
    change (double s ++ ['"']).foldlM step { initial records fields with mode := .quoted } = _
    rw [List.foldlM_append, foldlM_double rfl]
    rfl
  next hplain =>
    have hs : ∀ c ∈ s, ¬Special c := by simpa using hplain
    exact foldlM_bare (m := initial records fields) hs (.inl rfl)

theorem foldlM_writeRecord (records : List (List (List Char))) (fields : List (List Char)) {rest : List (List Char)}
    (h : rest ≠ []) :
    (writeRecord rest).foldlM step (initial records fields) = some (initial (records ++ [fields ++ rest]) []) := by
  induction rest generalizing fields with
  | nil => exact absurd rfl h
  | cons s rest ih =>
    obtain ⟨m, hm, hready⟩ := foldlM_escape records fields s
    cases rest with
    | nil =>
      rw [writeRecord, List.map_singleton, List.intersperse_singleton, List.flatten_singleton, List.foldlM_append, hm]
      change [Char.ofNat 10].foldlM step m = _
      rw [List.foldlM_cons, show step m (Char.ofNat 10) = _ from hready.lineFeed]
      rfl
    | cons t rest =>
      have hwrite : writeRecord (s :: t :: rest) = escape s ++ ',' :: writeRecord (t :: rest) := by
        simp [writeRecord]
      rw [hwrite, List.foldlM_append, hm]
      change (',' :: writeRecord (t :: rest)).foldlM step m = _
      rw [List.foldlM_cons, hready.comma]
      change (writeRecord (t :: rest)).foldlM step (initial records (fields ++ [s])) = _
      rw [ih (fields ++ [s]) (List.cons_ne_nil _ _), List.append_assoc, List.singleton_append]

theorem foldlM_write (before records : List (List (List Char))) (h : ∀ r ∈ records, r ≠ []) :
    (write records).foldlM step (initial before []) = some (initial (before ++ records) []) := by
  induction records generalizing before with
  | nil => rw [List.append_nil]; rfl
  | cons r records ih =>
    obtain ⟨hr, hrest⟩ := List.forall_mem_cons.mp h
    rw [write, List.flatMap_cons, List.foldlM_append, foldlM_writeRecord before [] hr]
    change (write records).foldlM step (initial (before ++ [r]) []) = _
    rw [ih _ hrest, List.append_assoc, List.singleton_append]

/-- **Records that are written are read back**, if each of them has a field. -/
theorem parse_write {records : List (List (List Char))} (h : ∀ r ∈ records, r ≠ []) :
    parse (write records) = some records := by
  rw [parse, foldlM_write [] records h]
  rfl

end Csv
