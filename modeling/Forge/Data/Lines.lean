import Forge.Data.Except
import Mathlib.Data.List.TakeDrop

/-!
# Lines of bytes

A file of records holds one record on each line, in the only spelling that a writer gives it. A reader takes a
bounded number of bytes up to a newline, reads a record and writes it again; it refuses the line when the two differ.
So what it accepts is what was written (`lines_of_read`), and what was written is accepted when the library reads it
back and its lines are short enough (`read_lines`).
-/

namespace Forge.Lines

/-- The newline. -/
abbrev newline : UInt8 := 0x0A

/-! ### Texts in UTF-8 -/

/-- The bytes of a text. -/
def utf8 (cs : List Char) : List UInt8 := cs.flatMap String.utf8EncodeChar

@[simp] theorem utf8_nil : utf8 [] = [] := rfl

@[simp] theorem utf8_append (cs ds : List Char) : utf8 (cs ++ ds) = utf8 cs ++ utf8 ds := List.flatMap_append

/-- Only the newline is written with the byte of a newline. -/
theorem newline_mem_utf8EncodeChar {c : Char} : newline ∈ String.utf8EncodeChar c ↔ c = '\n' := by
  constructor
  · intro h
    have hc : c.val.toNat < 0x110000 := by
      rcases c.valid with h | h <;> simp only [UInt32.toNat] at * <;> omega
    rw [String.utf8EncodeChar] at h
    split_ifs at h
    all_goals
      simp only [List.mem_cons, List.not_mem_nil, or_false, ← UInt8.toNat_inj, UInt8.toNat_ofNat', newline] at h
      simp only [UInt8.reduceToNat, Nat.reducePow] at h
    · exact Char.toNat_inj.mp (show c.val.toNat = 10 by omega)
    all_goals omega
  · rintro rfl
    decide

theorem newline_mem_utf8 {cs : List Char} : newline ∈ utf8 cs ↔ '\n' ∈ cs := by
  simp [utf8, List.mem_flatMap, newline_mem_utf8EncodeChar]

/-! ### Taking a line -/

/-- `read_until` the newline, of at most `limit` bytes: what was read, and what follows. -/
def takeLine : ℕ → List UInt8 → List UInt8 × List UInt8
  | 0, bytes => ([], bytes)
  | _ + 1, [] => ([], [])
  | limit + 1, byte :: bytes =>
    if byte = newline then ([byte], bytes)
    else (byte :: (takeLine limit bytes).1, (takeLine limit bytes).2)

theorem takeLine_append (limit : ℕ) (bytes : List UInt8) : (takeLine limit bytes).1 ++ (takeLine limit bytes).2 = bytes := by
  induction limit generalizing bytes with
  | zero => rfl
  | succ limit ih =>
    cases bytes with
    | nil => rfl
    | cons byte bytes =>
      rw [takeLine]
      split_ifs
      · rfl
      · exact congrArg (byte :: ·) (ih bytes)

/-- A line that is short enough is taken with its newline. -/
theorem takeLine_line {line : List UInt8} (hline : newline ∉ line) {limit : ℕ} (hlimit : line.length < limit)
    (rest : List UInt8) : takeLine limit (line ++ newline :: rest) = (line ++ [newline], rest) := by
  induction line generalizing limit with
  | nil =>
    obtain ⟨limit, rfl⟩ := Nat.exists_eq_add_of_lt hlimit
    simp [takeLine]
  | cons byte line ih =>
    rw [List.mem_cons, not_or] at hline
    obtain ⟨limit, rfl⟩ : ∃ n, limit = n + 1 := ⟨limit - 1, by omega⟩
    rw [List.length_cons, Nat.add_lt_add_iff_right] at hlimit
    rw [List.cons_append, takeLine, if_neg (Ne.symm hline.1), ih hline.2 hlimit]
    rfl

/-- What is taken ends at the first newline. -/
theorem newline_not_mem_of_takeLine {limit : ℕ} {bytes line : List UInt8} {last : UInt8}
    (h : (takeLine limit bytes).1 = line ++ [last]) : newline ∉ line := by
  induction limit generalizing bytes line with
  | zero => simp [takeLine] at h
  | succ limit ih =>
    cases bytes with
    | nil => simp [takeLine] at h
    | cons byte bytes =>
      rw [takeLine] at h
      split_ifs at h with hbyte
      · cases line with
        | nil => exact List.not_mem_nil
        | cons b line => simp at h
      · cases line with
        | nil => exact List.not_mem_nil
        | cons b line =>
          obtain ⟨rfl, hrest⟩ := List.cons.inj h
          rw [List.mem_cons, not_or]
          exact ⟨Ne.symm hbyte, ih hrest⟩

theorem takeLine_eq_nil {limit : ℕ} {bytes : List UInt8} (h : (takeLine (limit + 1) bytes).1 = []) : bytes = [] := by
  cases bytes with
  | nil => rfl
  | cons byte bytes =>
    rw [takeLine] at h
    split_ifs at h

/-! ### Records on lines -/

/-- How a record is read, and how it is written. -/
structure Format (α : Type) where
  read : List UInt8 → Except String α
  write : α → List UInt8

namespace Format

variable {α : Type} (F : Format α)

/-- A record on a line of its own. -/
def line (a : α) : List UInt8 := F.write a ++ [newline]

/-- `read_canonical_jsonl`: the record on the next line and what follows, or that there is no further line. The line
itself is `F.line` of the record. -/
def readLine (label : String) (maxBytes : ℕ) (bytes : List UInt8) : Except String (Option (α × List UInt8)) :=
  let taken := takeLine (maxBytes + 1) bytes
  if taken.1 = [] then .ok none
  else if maxBytes < taken.1.length then .error s!"recorder {label} exceeds {maxBytes} bytes"
  else if taken.1.getLast? ≠ some newline then .error s!"recorder {label} is not newline terminated"
  else do
    let value ← (F.read taken.1.dropLast).mapError fun error => s!"parse recorder {label}: {error}"
    if taken.1 ≠ F.line value then .error s!"recorder {label} is not canonical JSONL"
    else .ok (some (value, taken.2))

variable {F} {label : String} {maxBytes : ℕ} {bytes : List UInt8}

theorem readLine_eq_none : F.readLine label maxBytes bytes = .ok none ↔ bytes = [] := by
  constructor
  · intro h
    unfold readLine at h
    dsimp only at h
    split_ifs at h with hnil
    · exact takeLine_eq_nil hnil
    · obtain ⟨value, -, h⟩ := bind_eq_ok.mp h
      split_ifs at h
      cases h
  · rintro rfl
    rfl

/-- The record can be read back from its line: the library does, its text is on one line, and the line is short. -/
structure Reads (F : Format α) (maxBytes : ℕ) (a : α) : Prop where
  read : F.read (F.write a) = .ok a
  single : newline ∉ F.write a
  short : (F.line a).length ≤ maxBytes

/-- **A line that is read** is the line of its record. -/
theorem readLine_eq_some {a : α} {rest : List UInt8} (h : F.readLine label maxBytes bytes = .ok (some (a, rest))) :
    bytes = F.line a ++ rest ∧ F.Reads maxBytes a := by
  unfold readLine at h
  dsimp only at h
  split_ifs at h with hnil hlong hlast
  · cases h
  obtain ⟨value, hread, h⟩ := bind_eq_ok.mp h
  rw [mapError_eq_ok] at hread
  obtain ⟨hline, h⟩ := ite_error_eq_ok.mp h
  obtain ⟨rfl, rfl⟩ := Prod.mk.inj (Option.some.inj (Except.ok.inj h))
  rw [not_not] at hline
  have hbytes := takeLine_append (maxBytes + 1) bytes
  rw [hline] at hbytes hread hlong
  rw [line, List.dropLast_concat] at hread
  exact ⟨hbytes.symm, hread, newline_not_mem_of_takeLine hline, Nat.not_lt.mp hlong⟩

/-- **A line that was written** is read. -/
theorem readLine_line {a : α} (h : F.Reads maxBytes a) (rest : List UInt8) :
    F.readLine label maxBytes (F.line a ++ rest) = .ok (some (a, rest)) := by
  have hshort := h.short
  rw [line, List.length_append, List.length_singleton] at hshort
  have htaken := takeLine_line h.single (show (F.write a).length < maxBytes + 1 by omega) rest
  have happend : F.line a ++ rest = F.write a ++ newline :: rest := by simp [line]
  have hne : F.write a ++ [newline] ≠ [] := by simp
  have hlast : (F.write a ++ [newline]).getLast? = some newline := by simp
  unfold readLine
  rw [happend, htaken]
  dsimp only
  rw [if_neg hne, if_neg (by simp; omega), if_neg (not_not.mpr hlast), List.dropLast_concat, h.read]
  exact if_neg (not_not.mpr rfl)

theorem readLine_eq_some_iff {a : α} {rest : List UInt8} : F.readLine label maxBytes bytes = .ok (some (a, rest)) ↔
    bytes = F.line a ++ rest ∧ F.Reads maxBytes a :=
  ⟨readLine_eq_some, fun ⟨hbytes, ha⟩ => hbytes ▸ readLine_line ha rest⟩

/-! ### Files of records -/

/-- The loop over the lines of a file. Every turn takes a line, so there are no more turns than bytes. -/
def foldLines {β : Type} (F : Format α) (label : String) (maxBytes : ℕ) (step : β → α → Except String β) :
    ℕ → β → List UInt8 → Except String β
  | turns, b, bytes => do
    match ← F.readLine label maxBytes bytes with
    | none => return b
    | some (a, rest) =>
      let b ← step b a
      match turns with
      | 0 => return b
      | turns + 1 => foldLines F label maxBytes step turns b rest

/-- **A file is read to its end** when it holds the lines of records that can be read back, and the steps succeed. -/
theorem foldLines_eq_ok {β : Type} {step : β → α → Except String β} {turns : ℕ} {b b' : β}
    (hturns : bytes.length ≤ turns) : F.foldLines label maxBytes step turns b bytes = .ok b' ↔
      ∃ as : List α, bytes = as.flatMap F.line ∧ (∀ a ∈ as, F.Reads maxBytes a) ∧ as.foldlM step b = .ok b' := by
  induction turns generalizing b bytes with
  | zero =>
    obtain rfl := List.length_eq_zero_iff.mp (Nat.le_zero.mp hturns)
    have hnil {as : List α} (h : [] = as.flatMap F.line) : as = [] := by
      cases as with
      | nil => rfl
      | cons a as => simp [line] at h
    rw [foldLines, readLine_eq_none.mpr rfl]
    constructor
    · intro h
      exact ⟨[], rfl, fun _ h => absurd h List.not_mem_nil, h⟩
    · rintro ⟨as, has, -, h⟩
      rw [hnil has] at h
      exact h
  | succ turns ih =>
    rw [foldLines, bind_eq_ok]
    constructor
    · rintro ⟨next, hnext, h⟩
      cases next with
      | none =>
        obtain rfl := readLine_eq_none.mp hnext
        exact ⟨[], rfl, fun _ h => absurd h List.not_mem_nil, h⟩
      | some next =>
        obtain ⟨a, rest⟩ := next
        obtain ⟨rfl, ha⟩ := readLine_eq_some hnext
        obtain ⟨b₁, hstep, h⟩ := bind_eq_ok.mp h
        have hrest : rest.length ≤ turns := by
          rw [List.length_append, line, List.length_append, List.length_singleton] at hturns
          omega
        obtain ⟨as, rfl, has, hsteps⟩ := (ih hrest).mp h
        refine ⟨a :: as, rfl, List.forall_mem_cons.mpr ⟨ha, has⟩, ?_⟩
        rw [List.foldlM_cons]
        exact bind_eq_ok.mpr ⟨b₁, hstep, hsteps⟩
    · rintro ⟨as, rfl, has, h⟩
      cases as with
      | nil => exact ⟨none, readLine_eq_none.mpr rfl, h⟩
      | cons a as =>
        obtain ⟨ha, has⟩ := List.forall_mem_cons.mp has
        rw [List.foldlM_cons] at h
        obtain ⟨b₁, hstep, hsteps⟩ := bind_eq_ok.mp h
        have hrest : (as.flatMap F.line).length ≤ turns := by
          rw [List.flatMap_cons, List.length_append, line, List.length_append, List.length_singleton] at hturns
          omega
        refine ⟨some (a, as.flatMap F.line), readLine_line ha _, bind_eq_ok.mpr ⟨b₁, hstep, ?_⟩⟩
        exact (ih hrest).mpr ⟨as, rfl, has, hsteps⟩

/-- Files of lines with the same bytes have the same texts on their lines. -/
theorem write_eq_of_lines_eq {as bs : List α} (has : ∀ a ∈ as, newline ∉ F.write a) (hbs : ∀ b ∈ bs, newline ∉ F.write b)
    (h : as.flatMap F.line = bs.flatMap F.line) : as.map F.write = bs.map F.write := by
  induction as generalizing bs with
  | nil =>
    cases bs with
    | nil => rfl
    | cons b bs => simp [line] at h
  | cons a as ih =>
    cases bs with
    | nil => simp [line] at h
    | cons b bs =>
      obtain ⟨ha, has⟩ := List.forall_mem_cons.mp has
      obtain ⟨hb, hbs⟩ := List.forall_mem_cons.mp hbs
      have hfirst (rest : List UInt8) := takeLine_line ha (show _ < (F.write a).length + (F.write b).length + 1 by omega) rest
      have hfirst' (rest : List UInt8) := takeLine_line hb (show _ < (F.write a).length + (F.write b).length + 1 by omega) rest
      simp only [List.flatMap_cons, line, List.append_assoc, List.singleton_append] at h
      have htaken := hfirst (as.flatMap F.line)
      rw [show F.write a ++ newline :: as.flatMap F.line = F.write b ++ newline :: bs.flatMap F.line from h, hfirst'] at htaken
      obtain ⟨hline, hrest⟩ := Prod.mk.inj htaken
      rw [List.map_cons, List.map_cons, (List.append_cancel_right hline).symm, ih has hbs hrest.symm]

end Format

end Forge.Lines
