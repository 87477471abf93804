import Mathlib.Data.List.Basic
import Mathlib.Data.List.TakeWhile
import Mathlib.Tactic.IntervalCases
import Forge.Data.Text
import Forge.Json.Serde

/-!
# The texts of addresses

What `isIP` accepts: four octets between dots, or groups of hexadecimal digits between colons, where one run of zero
groups may be written `::` and the last two groups may be written as four octets, with a zone after `%`. An IPv6
address is its eight groups, and `Spells text a` says that `text` is one of its spellings.

**`spells_unique`**: an accepted text spells exactly one address. The case of letters makes no difference
(`parseGroups_toLower`), nor does the width of a group (`parseGroups_join`).
-/

namespace Forge.Gateway

/-! ### Case -/

theorem isUpper_iff {c : Char} : c.isUpper = true ↔ 65 ≤ c.toNat ∧ c.toNat ≤ 90 := by
  simp [Char.isUpper, UInt32.le_iff_toNat_le]

theorem isLower_iff {c : Char} : c.isLower = true ↔ 97 ≤ c.toNat ∧ c.toNat ≤ 122 := by
  simp [Char.isLower, UInt32.le_iff_toNat_le]

theorem isDigit_iff {c : Char} : c.isDigit = true ↔ 48 ≤ c.toNat ∧ c.toNat ≤ 57 := by
  simp [Char.isDigit, UInt32.le_iff_toNat_le]

theorem toNat_toLower (c : Char) : c.toLower.toNat = if c.isUpper then c.toNat + 32 else c.toNat := by
  split
  · next hu =>
    have hc := isUpper_iff.mp hu
    have hval : c.toLower.val = c.val + 32 := by
      rw [Char.toLower, dif_pos (by simpa [UInt32.le_iff_toNat_le] using hc)]
      rfl
    have hlt : (c.toNat + 32) % 4294967296 = c.toNat + 32 := Nat.mod_eq_of_lt (by omega)
    rw [← Char.toNat_val, hval, UInt32.toNat_add]
    exact hlt
  · next hu =>
    rw [Char.toLower, dif_neg]
    simpa [Char.isUpper] using hu

theorem toLower_of_not_isUpper {c : Char} (h : c.isUpper = false) : c.toLower = c := by
  apply Char.toNat_inj.mp
  rw [toNat_toLower, if_neg (by simp [h])]

theorem toLower_toLower (c : Char) : c.toLower.toLower = c.toLower := by
  apply toLower_of_not_isUpper
  have hc := toNat_toLower c
  rw [Bool.eq_false_iff, ne_eq, isUpper_iff]
  split at hc
  · next hu => have := isUpper_iff.mp hu; omega
  · next hu => have := isUpper_iff.not.mp hu; omega

/-- A character that is no letter comes from itself alone. -/
theorem toLower_eq_iff {c d : Char} (h : d.isAlpha = false) : c.toLower = d ↔ c = d := by
  rw [Char.isAlpha, Bool.or_eq_false_iff] at h
  rcases hu : c.isUpper with _ | _
  · rw [toLower_of_not_isUpper hu]
  · have hc := isUpper_iff.mp hu
    have hl := toNat_toLower c
    rw [if_pos hu] at hl
    have hd := isLower_iff.not.mp (Bool.eq_false_iff.mp h.2)
    constructor
    · rintro rfl
      omega
    · rintro rfl
      rw [hu] at h
      exact absurd h.1 (by decide)

theorem isDigit_toLower (c : Char) : c.toLower.isDigit = c.isDigit := by
  rcases hu : c.isUpper with _ | _
  · rw [toLower_of_not_isUpper hu]
  · have hc := isUpper_iff.mp hu
    have hl := toNat_toLower c
    rw [if_pos hu] at hl
    rw [Bool.eq_iff_iff, isDigit_iff, isDigit_iff]
    omega

theorem toLower_of_isDigit {c : Char} (h : c.isDigit = true) : c.toLower = c := by
  apply toLower_of_not_isUpper
  have hc := isDigit_iff.mp h
  rw [Bool.eq_false_iff, ne_eq, isUpper_iff]
  omega

variable {d : Char}

theorem takeWhile_toLower (h : d.isAlpha = false) (text : List Char) :
    (text.map Char.toLower).takeWhile (· ≠ d) = (text.takeWhile (· ≠ d)).map Char.toLower := by
  rw [List.takeWhile_map]
  congr 2
  funext c
  simp [toLower_eq_iff h]

theorem dropWhile_toLower (h : d.isAlpha = false) (text : List Char) :
    (text.map Char.toLower).dropWhile (· ≠ d) = (text.dropWhile (· ≠ d)).map Char.toLower := by
  rw [List.dropWhile_map]
  congr 2
  funext c
  simp [toLower_eq_iff h]

theorem splitOn_toLower (h : d.isAlpha = false) (text : List Char) :
    (text.map Char.toLower).splitOn d = (text.splitOn d).map (List.map Char.toLower) := by
  induction text with
  | nil => simp
  | cons c text ih =>
    rw [List.map_cons, List.splitOn_cons_eq_if_modifyHead, List.splitOn_cons_eq_if_modifyHead, ih]
    by_cases hc : c = d
    · simp [hc, (toLower_eq_iff h).mpr rfl]
    · have hl : c.toLower ≠ d := fun e => hc ((toLower_eq_iff h).mp e)
      simp only [hc, hl, beq_iff_eq, if_false]
      cases text.splitOn d <;> simp

theorem head?_toLower (h : d.isAlpha = false) (text : List Char) :
    (text.map Char.toLower).head? = some d ↔ text.head? = some d := by
  cases text <;> simp [toLower_eq_iff h]

/-! ### Octets and groups -/

/-- `25[0-5]|2[0-4]\d|1\d\d|[1-9]\d|\d` -/
def octet (piece : List Char) : Option ℕ :=
  if piece.length = 1 ∨ piece.head? ≠ some '0' then Text.digits 256 piece else none

/-- Four octets between dots. -/
def parseIpv4 (text : List Char) : Option (List ℕ) :=
  ((text.splitOn '.').mapM octet).filter fun octets => octets.length = 4

def hexValue (c : Char) : Option ℕ := "0123456789abcdef".toList.idxOf? c.toLower

/-- `[0-9a-fA-F]{1,4}` -/
def hexGroup (piece : List Char) : Option ℕ :=
  if 1 ≤ piece.length ∧ piece.length ≤ 4 then
    (piece.mapM hexValue).map fun digits => digits.foldl (fun n digit => 16 * n + digit) 0
  else none

/-- The two groups that four octets make. -/
def dottedGroups (piece : List Char) : Option (List ℕ) :=
  match parseIpv4 piece with
  | some [a, b, c, e] => some [256 * a + b, 256 * c + e]
  | _ => none

/-- At most `n` groups after `::`, the last two of them possibly dotted. -/
def tailGroups : ℕ → List Char → Option (List ℕ)
  | 0, _ => none
  | n + 1, text =>
    let piece := text.takeWhile (· ≠ ':')
    match text.dropWhile (· ≠ ':') with
    | [] => ((hexGroup piece).map ([·])).or (if 1 ≤ n then dottedGroups piece else none)
    | _ :: rest => do
      let g ← hexGroup piece
      let groups ← tailGroups n rest
      pure (g :: groups)

/-- The last `n` groups, written `::rest`; the `::` stands for at least one of them. -/
def doubleColon : ℕ → List Char → Option (List ℕ)
  | 0, _ => none
  | n + 1, rest =>
    (if rest = [] then some [] else tailGroups n rest).map fun right =>
      List.replicate (n + 1 - right.length) 0 ++ right

/-- The last `n` groups. -/
def groupsFrom : ℕ → List Char → Option (List ℕ)
  | 0, _ => none
  | n + 1, text =>
    let piece := text.takeWhile (· ≠ ':')
    match text.dropWhile (· ≠ ':') with
    | [] => if n = 0 then (hexGroup piece).map ([·]) else if n = 1 then dottedGroups piece else none
    | _ :: rest => do
      let g ← hexGroup piece
      let groups ← (if rest.head? = some ':' then doubleColon n rest.tail else groupsFrom n rest)
      pure (g :: groups)

/-- An IPv6 text without its zone. -/
def parseGroups (text : List Char) : Option (List ℕ) :=
  if text.take 2 = [':', ':'] then doubleColon 8 (text.drop 2) else groupsFrom 8 text

/-- `(?:%[0-9a-zA-Z-.:]{1,})?` -/
def isZone : List Char → Bool
  | [] => true
  | _ :: zone => zone ≠ [] && zone.all fun c => c.isAlphanum || c ∈ ['-', '.', ':']

def parseIpv6 (text : List Char) : Option (List ℕ) :=
  if isZone (text.dropWhile (· ≠ '%')) then parseGroups (text.takeWhile (· ≠ '%')) else none

def isIP (text : List Char) : ℕ :=
  if (parseIpv4 text).isSome then 4 else if (parseIpv6 text).isSome then 6 else 0

/-! ### The case of letters -/

theorem all_isDigit_toLower (piece : List Char) :
    (piece.map Char.toLower).all Char.isDigit = piece.all Char.isDigit := by
  induction piece with
  | nil => rfl
  | cons c piece ih => rw [List.map_cons, List.all_cons, List.all_cons, ih, isDigit_toLower]

theorem digits_toLower (piece : List Char) : Text.digits 256 (piece.map Char.toLower) = Text.digits 256 piece := by
  by_cases h : piece.all Char.isDigit = true
  · rw [List.map_congr_left fun c hc => toLower_of_isDigit (List.all_eq_true.mp h c hc), List.map_id']
  · rw [Text.digits, Text.digits, if_neg, if_neg]
    · exact fun e => h e.2.1
    · exact fun e => h (all_isDigit_toLower piece ▸ e.2.1)

theorem octet_toLower (piece : List Char) : octet (piece.map Char.toLower) = octet piece := by
  simp only [octet, List.length_map, head?_toLower (d := '0') (by decide), ne_eq, digits_toLower]

theorem parseIpv4_toLower (text : List Char) : parseIpv4 (text.map Char.toLower) = parseIpv4 text := by
  have hoctet : octet ∘ List.map Char.toLower = octet := funext octet_toLower
  rw [parseIpv4, splitOn_toLower (by decide), List.mapM_map, hoctet, parseIpv4]

theorem hexGroup_toLower (piece : List Char) : hexGroup (piece.map Char.toLower) = hexGroup piece := by
  have hvalue : hexValue ∘ Char.toLower = hexValue := funext fun c => by
    rw [Function.comp_apply, hexValue, toLower_toLower, hexValue]
  simp only [hexGroup, List.length_map, List.mapM_map, hvalue]

theorem dottedGroups_toLower (piece : List Char) : dottedGroups (piece.map Char.toLower) = dottedGroups piece := by
  rw [dottedGroups, parseIpv4_toLower, dottedGroups]

theorem tailGroups_toLower (n : ℕ) (text : List Char) :
    tailGroups n (text.map Char.toLower) = tailGroups n text := by
  induction n generalizing text with
  | zero => rfl
  | succ n ih =>
    rw [tailGroups, tailGroups, takeWhile_toLower (by decide), dropWhile_toLower (by decide), hexGroup_toLower,
      dottedGroups_toLower]
    cases text.dropWhile (· ≠ ':') with
    | nil => rfl
    | cons c rest => simp only [List.map_cons, ih]

theorem doubleColon_toLower (n : ℕ) (rest : List Char) :
    doubleColon n (rest.map Char.toLower) = doubleColon n rest := by
  cases n with
  | zero => rfl
  | succ n => simp only [doubleColon, List.map_eq_nil_iff, tailGroups_toLower]

theorem groupsFrom_toLower (n : ℕ) (text : List Char) :
    groupsFrom n (text.map Char.toLower) = groupsFrom n text := by
  induction n generalizing text with
  | zero => rfl
  | succ n ih =>
    rw [groupsFrom, groupsFrom, takeWhile_toLower (by decide), dropWhile_toLower (by decide), hexGroup_toLower,
      dottedGroups_toLower]
    cases text.dropWhile (· ≠ ':') with
    | nil => rfl
    | cons c rest =>
      simp only [List.map_cons, head?_toLower (by decide : ':'.isAlpha = false), ← List.map_tail, ih,
        doubleColon_toLower]

/-- The parser does not see the case of letters. -/
theorem parseGroups_toLower (text : List Char) : parseGroups (text.map Char.toLower) = parseGroups text := by
  have htake : (text.map Char.toLower).take 2 = [':', ':'] ↔ text.take 2 = [':', ':'] := by
    rcases text with _ | ⟨c, _ | ⟨c', text⟩⟩ <;> simp [toLower_eq_iff]
  simp only [parseGroups, htake, ← List.map_drop, doubleColon_toLower, groupsFrom_toLower]

theorem exists_mem_splitOn {d c : Char} (hne : c ≠ d) {text : List Char} (h : c ∈ text) :
    ∃ piece ∈ text.splitOn d, c ∈ piece := by
  induction text with
  | nil => cases h
  | cons x text ih =>
    rw [List.splitOn_cons_eq_if_modifyHead]
    by_cases hx : x = d
    · obtain ⟨piece, hpiece, hc⟩ := ih ((List.mem_cons.mp h).resolve_left fun e => hne (e.trans hx))
      simp only [hx, beq_self_eq_true, if_true]
      exact ⟨piece, List.mem_cons_of_mem _ hpiece, hc⟩
    · simp only [hx, beq_iff_eq, if_false]
      cases hsplit : text.splitOn d with
      | nil => exact absurd hsplit (List.splitOn_ne_nil d text)
      | cons p ps =>
        rcases List.mem_cons.mp h with rfl | hmem
        · exact ⟨c :: p, by simp, by simp⟩
        · obtain ⟨piece, hpiece, hc⟩ := ih hmem
          rw [hsplit] at hpiece
          rcases List.mem_cons.mp hpiece with rfl | hpiece
          · exact ⟨x :: piece, by simp, by simp [hc]⟩
          · exact ⟨piece, by simp [hpiece], hc⟩

/-! ### What is accepted -/

theorem hexValue_lt {c : Char} {v : ℕ} (h : hexValue c = some v) : v < 16 := by
  obtain ⟨hv, -⟩ := List.idxOf?_eq_some_iff.mp h
  simpa using hv

/-- The digit of a value below 16, in lower case. -/
def hexDigit (v : ℕ) : Char := "0123456789abcdef".toList.getD v '0'

theorem toLower_of_hexValue {c : Char} {v : ℕ} (h : hexValue c = some v) : c.toLower = hexDigit v := by
  obtain ⟨hv, heq, -⟩ := List.idxOf?_eq_some_iff.mp h
  rw [hexDigit, List.getD_eq_getElem?_getD, List.getElem?_eq_getElem hv]
  exact heq.symm

theorem hexValue_hexDigit {v : ℕ} (h : v < 16) : hexValue (hexDigit v) = some v := by
  interval_cases v <;> decide

theorem foldl_digits_lt {digits : List ℕ} (h : ∀ v ∈ digits, v < 16) (n : ℕ) :
    digits.foldl (fun n digit => 16 * n + digit) n < (n + 1) * 16 ^ digits.length := by
  induction digits generalizing n with
  | nil => simp
  | cons v digits ih =>
    have hv := h v (by simp)
    calc (v :: digits).foldl (fun n digit => 16 * n + digit) n
        < (16 * n + v + 1) * 16 ^ digits.length := ih (fun w hw => h w (by simp [hw])) _
      _ ≤ (16 * (n + 1)) * 16 ^ digits.length := Nat.mul_le_mul_right _ (by omega)
      _ = (n + 1) * 16 ^ (v :: digits).length := by
          rw [List.length_cons, Nat.pow_succ', ← Nat.mul_assoc, Nat.mul_comm (n + 1) 16]

/-- The digits of a group. -/
theorem hexGroup_eq_some {piece : List Char} {g : ℕ} (h : hexGroup piece = some g) :
    1 ≤ piece.length ∧ piece.length ≤ 4 ∧ ∃ digits, List.Forall₂ (fun c v => hexValue c = some v) piece digits ∧
      digits.foldl (fun n digit => 16 * n + digit) 0 = g := by
  unfold hexGroup at h
  split at h
  · next hlen =>
    obtain ⟨digits, hdigits, hg⟩ := Option.map_eq_some_iff.mp h
    exact ⟨hlen.1, hlen.2, digits, Codec.mapM_eq_some_iff.mp hdigits, hg⟩
  · cases h

theorem digits_lt {piece : List Char} {digits : List ℕ}
    (h : List.Forall₂ (fun c v => hexValue c = some v) piece digits) : ∀ v ∈ digits, v < 16 := by
  induction h with
  | nil => simp
  | cons hc _ ih => exact List.forall_mem_cons.mpr ⟨hexValue_lt hc, ih⟩

theorem hexGroup_lt {piece : List Char} {g : ℕ} (h : hexGroup piece = some g) : g < 65536 := by
  obtain ⟨-, hlen, digits, hdigits, rfl⟩ := hexGroup_eq_some h
  have hpow : 16 ^ digits.length ≤ 16 ^ 4 := Nat.pow_le_pow_right (by omega) (hdigits.length_eq ▸ hlen)
  have := foldl_digits_lt (digits_lt hdigits) 0
  omega

theorem octet_lt {piece : List Char} {n : ℕ} (h : octet piece = some n) : n < 256 := by
  unfold octet at h
  split at h
  · exact (Text.digits_eq_some h).2.2.2
  · cases h

theorem parseIpv4_eq_some {text : List Char} {octets : List ℕ} (h : parseIpv4 text = some octets) :
    List.Forall₂ (fun piece n => octet piece = some n) (text.splitOn '.') octets ∧ octets.length = 4 := by
  obtain ⟨hmap, hlen⟩ := Option.filter_eq_some_iff.mp h
  exact ⟨Codec.mapM_eq_some_iff.mp hmap, by simpa using hlen⟩

/-- The octets of an accepted IPv4 text. -/
theorem parseIpv4_octets {text : List Char} {octets : List ℕ} (h : parseIpv4 text = some octets) :
    ∃ a b c e, octets = [a, b, c, e] ∧ a < 256 ∧ b < 256 ∧ c < 256 ∧ e < 256 := by
  obtain ⟨hpieces, hlen⟩ := parseIpv4_eq_some h
  match octets, hlen with
  | [a, b, c, e], _ =>
    simp only [List.forall₂_cons_right_iff, List.forall₂_nil_right_iff] at hpieces
    obtain ⟨_, _, ha, ⟨_, _, hb, ⟨_, _, hc, ⟨_, _, he, -⟩, -⟩, -⟩, -⟩ := hpieces
    exact ⟨a, b, c, e, rfl, octet_lt ha, octet_lt hb, octet_lt hc, octet_lt he⟩

theorem dottedGroups_eq_some {piece : List Char} {groups : List ℕ} (h : dottedGroups piece = some groups) :
    ∃ a b c e, parseIpv4 piece = some [a, b, c, e] ∧ groups = [256 * a + b, 256 * c + e] := by
  unfold dottedGroups at h
  split at h
  · next a b c e hparse => exact ⟨a, b, c, e, hparse, (Option.some.inj h).symm⟩
  · cases h

/-- Groups below 2^16, as many as there should be. -/
def Groups (P : ℕ → Prop) (groups : List ℕ) : Prop := P groups.length ∧ ∀ g ∈ groups, g < 65536

theorem Groups.cons {P Q : ℕ → Prop} {g : ℕ} {groups : List ℕ} (hg : g < 65536) (h : Groups P groups)
    (hPQ : ∀ n, P n → Q (n + 1)) : Groups Q (g :: groups) :=
  ⟨hPQ _ h.1, List.forall_mem_cons.mpr ⟨hg, h.2⟩⟩

theorem groups_hexGroup {piece : List Char} {groups : List ℕ} (h : (hexGroup piece).map ([·]) = some groups) :
    Groups (· = 1) groups := by
  obtain ⟨g, hg, rfl⟩ := Option.map_eq_some_iff.mp h
  exact ⟨rfl, by simpa using hexGroup_lt hg⟩

theorem groups_dottedGroups {piece : List Char} {groups : List ℕ} (h : dottedGroups piece = some groups) :
    Groups (· = 2) groups := by
  obtain ⟨a, b, c, e, hparse, rfl⟩ := dottedGroups_eq_some h
  obtain ⟨_, _, _, _, heq, ha, hb, hc, he⟩ := parseIpv4_octets hparse
  cases heq
  exact ⟨rfl, by simp; omega⟩

theorem groups_tailGroups {n : ℕ} {text : List Char} {groups : List ℕ} (h : tailGroups n text = some groups) :
    Groups (fun k => 1 ≤ k ∧ k ≤ n) groups := by
  induction n generalizing text groups with
  | zero => cases h
  | succ n ih =>
    rw [tailGroups] at h
    split at h
    · rcases Option.or_eq_some_iff.mp h with h | ⟨-, h⟩
      · obtain ⟨hlen, hlt⟩ := groups_hexGroup h
        exact ⟨by omega, hlt⟩
      · split_ifs at h with hn
        obtain ⟨hlen, hlt⟩ := groups_dottedGroups h
        exact ⟨by omega, hlt⟩
    · obtain ⟨g, hg, h⟩ := Option.bind_eq_some_iff.mp h
      obtain ⟨rest, hrest, h⟩ := Option.bind_eq_some_iff.mp h
      cases h
      exact (ih hrest).cons (hexGroup_lt hg) fun k hk => by omega

theorem groups_doubleColon {n : ℕ} {rest : List Char} {groups : List ℕ} (h : doubleColon n rest = some groups) :
    Groups (· = n) groups ∧ groups.head? = some 0 := by
  cases n with
  | zero => cases h
  | succ n =>
    obtain ⟨right, hright, rfl⟩ := Option.map_eq_some_iff.mp h
    have hgroups : Groups (· ≤ n) right := by
      split_ifs at hright with hrest
      · cases hright
        exact ⟨Nat.zero_le n, by simp⟩
      · obtain ⟨hlen, hlt⟩ := groups_tailGroups hright
        exact ⟨hlen.2, hlt⟩
    obtain ⟨hlen, hlt⟩ := hgroups
    refine ⟨⟨by simp; omega, fun g hg => ?_⟩, ?_⟩
    · rcases List.mem_append.mp hg with hg | hg
      · rw [List.eq_of_mem_replicate hg]
        decide
      · exact hlt g hg
    · rw [show n + 1 - right.length = n - right.length + 1 by omega, List.replicate_succ]
      rfl

theorem groups_groupsFrom {n : ℕ} {text : List Char} {groups : List ℕ} (h : groupsFrom n text = some groups) :
    Groups (· = n) groups := by
  induction n generalizing text groups with
  | zero => cases h
  | succ n ih =>
    rw [groupsFrom] at h
    split at h
    · split_ifs at h with h0 h1
      · subst h0
        exact groups_hexGroup h
      · subst h1
        exact groups_dottedGroups h
    · obtain ⟨g, hg, h⟩ := Option.bind_eq_some_iff.mp h
      obtain ⟨rest, hrest, h⟩ := Option.bind_eq_some_iff.mp h
      cases h
      have hgroups : Groups (· = n) rest := by
        split_ifs at hrest
        · exact (groups_doubleColon hrest).1
        · exact ih hrest
      exact hgroups.cons (hexGroup_lt hg) fun k hk => by omega

theorem groups_parseGroups {text : List Char} {groups : List ℕ} (h : parseGroups text = some groups) :
    Groups (· = 8) groups := by
  rw [parseGroups] at h
  split_ifs at h
  · exact (groups_doubleColon h).1
  · exact groups_groupsFrom h

/-- An IPv6 address: eight groups of sixteen bits. -/
structure Ipv6Address where
  groups : List ℕ
  length_eq : groups.length = 8
  lt_of_mem : ∀ g ∈ groups, g < 65536

def Ipv6Address.group (a : Ipv6Address) (i : ℕ) : ℕ := a.groups.getD i 0

/-- An accepted text is one of the spellings of an address. -/
def Spells (text : List Char) (a : Ipv6Address) : Prop := isIP text = 6 ∧ parseIpv6 text = some a.groups

theorem isIP_eq_six {text : List Char} : isIP text = 6 ↔ parseIpv4 text = none ∧ (parseIpv6 text).isSome := by
  unfold isIP
  cases parseIpv4 text <;> cases parseIpv6 text <;> simp

/-- An accepted text spells exactly one address. -/
theorem spells_unique {text : List Char} (h : isIP text = 6) : ∃! a, Spells text a := by
  obtain ⟨groups, hgroups⟩ := Option.isSome_iff_exists.mp (isIP_eq_six.mp h).2
  have hwell : Groups (· = 8) groups := by
    unfold parseIpv6 at hgroups
    split_ifs at hgroups
    exact groups_parseGroups hgroups
  refine ⟨⟨groups, hwell.1, hwell.2⟩, ⟨h, hgroups⟩, ?_⟩
  rintro ⟨other, hlen, hlt⟩ ⟨-, hother⟩
  rw [hgroups] at hother
  cases hother
  rfl

/-! ### Reading a spelling -/

theorem not_mem_of_hexGroup {piece : List Char} {g : ℕ} (h : hexGroup piece = some g) {c : Char}
    (hc : hexValue c = none) : c ∉ piece := by
  obtain ⟨-, -, digits, hdigits, -⟩ := hexGroup_eq_some h
  clear h
  induction hdigits with
  | nil => simp
  | cons hv _ ih =>
    rintro (_ | ⟨_, hmem⟩)
    · rw [hc] at hv
      cases hv
    · exact ih hmem

theorem takeWhile_join {piece : List Char} (h : ':' ∉ piece) (rest : List Char) :
    (piece ++ ':' :: rest).takeWhile (· ≠ ':') = piece ∧
      (piece ++ ':' :: rest).dropWhile (· ≠ ':') = ':' :: rest := by
  have hall : ∀ c ∈ piece, decide (c ≠ ':') = true := fun c hc => decide_eq_true (ne_of_mem_of_not_mem hc h)
  rw [List.takeWhile_append_of_pos hall, List.dropWhile_append_of_pos hall]
  simp

/-- The parser on a text with a group in front. -/
theorem groupsFrom_cons {piece rest : List Char} {g : ℕ} (h : hexGroup piece = some g) (n : ℕ) :
    groupsFrom (n + 1) (piece ++ ':' :: rest) =
      (if rest.head? = some ':' then doubleColon n rest.tail else groupsFrom n rest).map (g :: ·) := by
  obtain ⟨htake, hdrop⟩ := takeWhile_join (not_mem_of_hexGroup h (by decide)) rest
  simp only [groupsFrom, htake, hdrop, h]
  cases (if rest.head? = some ':' then doubleColon n rest.tail else groupsFrom n rest) <;> rfl

theorem tailGroups_cons {piece rest : List Char} {g : ℕ} (h : hexGroup piece = some g) (n : ℕ) :
    tailGroups (n + 1) (piece ++ ':' :: rest) = (tailGroups n rest).map (g :: ·) := by
  obtain ⟨htake, hdrop⟩ := takeWhile_join (not_mem_of_hexGroup h (by decide)) rest
  simp only [tailGroups, htake, hdrop, h]
  cases tailGroups n rest <;> rfl

theorem takeWhile_self {piece : List Char} (h : ':' ∉ piece) :
    piece.takeWhile (· ≠ ':') = piece ∧ piece.dropWhile (· ≠ ':') = [] := by
  have hall : ∀ c ∈ piece, decide (c ≠ ':') = true := fun c hc => decide_eq_true (ne_of_mem_of_not_mem hc h)
  exact ⟨List.takeWhile_eq_self_iff.mpr hall, List.dropWhile_eq_nil_iff.mpr hall⟩

theorem groupsFrom_last {piece : List Char} {g : ℕ} (h : hexGroup piece = some g) :
    groupsFrom 1 piece = some [g] := by
  obtain ⟨htake, hdrop⟩ := takeWhile_self (not_mem_of_hexGroup h (by decide))
  simp only [groupsFrom, htake, hdrop, h]
  rfl

theorem tailGroups_last {piece : List Char} {g : ℕ} (h : hexGroup piece = some g) (n : ℕ) :
    tailGroups (n + 1) piece = some [g] := by
  obtain ⟨htake, hdrop⟩ := takeWhile_self (not_mem_of_hexGroup h (by decide))
  simp only [tailGroups, htake, hdrop, h]
  rfl

/-- A text that does not begin with a colon begins with its first group; when at least two more groups follow, a colon
comes next. -/
theorem groupsFrom_eq_some {n : ℕ} {text : List Char} {groups : List ℕ}
    (h : groupsFrom (n + 3) text = some groups) :
    ∃ piece rest g others, text = piece ++ ':' :: rest ∧ hexGroup piece = some g ∧ groups = g :: others ∧
      (if rest.head? = some ':' then doubleColon (n + 2) rest.tail else groupsFrom (n + 2) rest) = some others := by
  rw [groupsFrom] at h
  split at h
  · rw [if_neg (by omega), if_neg (by omega)] at h
    cases h
  · next c rest hdrop =>
    obtain ⟨g, hg, h⟩ := Option.bind_eq_some_iff.mp h
    obtain ⟨others, hothers, h⟩ := Option.bind_eq_some_iff.mp h
    cases h
    obtain rfl : c = ':' := by
      have := List.head?_dropWhile_not (· ≠ ':') text
      rw [hdrop] at this
      simpa using this
    refine ⟨_, rest, g, others, ?_, hg, rfl, hothers⟩
    rw [← hdrop, List.takeWhile_append_dropWhile]

/-! ### Writing a spelling -/

/-- `pieces` with colons between them. -/
def join (pieces : List (List Char)) : List Char := [':'].intercalate pieces

theorem join_cons_cons (piece piece' : List Char) (pieces : List (List Char)) :
    join (piece :: piece' :: pieces) = piece ++ ':' :: join (piece' :: pieces) := by
  rw [join, List.intercalate_cons_cons, List.append_assoc]
  rfl

theorem head?_of_hexGroup {piece : List Char} {g : ℕ} (h : hexGroup piece = some g) (rest : List Char) :
    (piece ++ rest).head? ≠ some ':' := by
  have hmem := not_mem_of_hexGroup (c := ':') h (by decide)
  obtain ⟨hlen, -, -⟩ := hexGroup_eq_some h
  cases piece with
  | nil => cases hlen
  | cons c piece =>
    rintro e
    cases e
    exact hmem (by simp)

/-- Groups of any width, joined. -/
theorem groupsFrom_join {pieces : List (List Char)} {groups : List ℕ}
    (h : List.Forall₂ (fun piece g => hexGroup piece = some g) pieces groups) (hne : pieces ≠ []) :
    groupsFrom pieces.length (join pieces) = some groups ∧ (join pieces).head? ≠ some ':' := by
  induction h with
  | nil => exact absurd rfl hne
  | @cons piece g pieces groups hpiece hpieces ih =>
    cases hpieces with
    | nil =>
      rw [join, List.intercalate_singleton]
      exact ⟨groupsFrom_last hpiece, by simpa using head?_of_hexGroup hpiece []⟩
    | @cons piece' g' pieces groups hpiece' hpieces =>
      obtain ⟨hgroups, hhead⟩ := ih (by simp)
      rw [join_cons_cons]
      refine ⟨?_, head?_of_hexGroup hpiece _⟩
      rw [List.length_cons, groupsFrom_cons hpiece, if_neg hhead, hgroups]
      rfl

theorem parseGroups_join {pieces : List (List Char)} {groups : List ℕ}
    (h : List.Forall₂ (fun piece g => hexGroup piece = some g) pieces groups) (hlen : pieces.length = 8) :
    parseGroups (join pieces) = some groups := by
  obtain ⟨hgroups, hhead⟩ := groupsFrom_join h (by rintro rfl; cases hlen)
  rw [parseGroups, if_neg, ← hlen, hgroups]
  intro e
  apply hhead
  cases hjoin : join pieces with
  | nil => simp [hjoin] at e
  | cons c rest =>
    rw [hjoin] at e
    cases rest <;> simp_all

theorem mem_join {pieces : List (List Char)} {c : Char} (h : c ∈ join pieces) (hc : c ≠ ':') :
    ∃ piece ∈ pieces, c ∈ piece := by
  induction pieces with
  | nil => cases h
  | cons piece pieces ih =>
    cases pieces with
    | nil =>
      rw [join, List.intercalate_singleton] at h
      exact ⟨piece, by simp, h⟩
    | cons piece' pieces =>
      rw [join_cons_cons] at h
      rcases List.mem_append.mp h with h | h
      · exact ⟨piece, by simp, h⟩
      · obtain ⟨q, hq, hmem⟩ := ih ((List.mem_cons.mp h).resolve_left hc)
        exact ⟨q, List.mem_cons_of_mem _ hq, hmem⟩

/-- The `width` last digits of a group. -/
def digitsOf : ℕ → ℕ → List Char
  | 0, _ => []
  | width + 1, g => digitsOf width (g / 16) ++ [hexDigit (g % 16)]

theorem length_digitsOf (width g : ℕ) : (digitsOf width g).length = width := by
  induction width generalizing g with
  | zero => rfl
  | succ width ih => rw [digitsOf, List.length_append, ih]; rfl

theorem mapM_digitsOf {width g : ℕ} (h : g < 16 ^ width) :
    ∃ digits, (digitsOf width g).mapM hexValue = some digits ∧
      digits.foldl (fun n digit => 16 * n + digit) 0 = g := by
  induction width generalizing g with
  | zero =>
    obtain rfl : g = 0 := by simpa using h
    exact ⟨[], rfl, rfl⟩
  | succ width ih =>
    obtain ⟨digits, hdigits, hfold⟩ := ih (g := g / 16) (by rw [Nat.pow_succ] at h; omega)
    refine ⟨digits ++ [g % 16], ?_, ?_⟩
    · rw [digitsOf, List.mapM_append, hdigits, List.mapM_cons, hexValue_hexDigit (Nat.mod_lt _ (by decide))]
      rfl
    · rw [List.foldl_append, hfold]
      exact Nat.div_add_mod g 16

/-- A group is read back at every width that holds it. -/
theorem hexGroup_digitsOf {width g : ℕ} (hpos : 1 ≤ width) (hle : width ≤ 4) (h : g < 16 ^ width) :
    hexGroup (digitsOf width g) = some g := by
  obtain ⟨digits, hdigits, hfold⟩ := mapM_digitsOf h
  rw [hexGroup, length_digitsOf, if_pos ⟨hpos, hle⟩, hdigits, Option.map_some, hfold]

end Forge.Gateway
