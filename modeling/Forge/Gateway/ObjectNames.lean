import Mathlib.Data.List.Basic
import Forge.Gateway.Address

/-!
# The names of objects

The gateway and the worker name the objects of a user by the same scheme: segments made of the user id, the purpose
and the cache key, and digests. `safeObjectSegment` and `safeSegment` make a segment of a text; the gateway replaces a
run of other characters by one hyphen, the worker each of them, and what is a letter is not the same to both.

**`objectNames_agree`**: on texts of ASCII and caseless characters all names agree if and only if no two neighbours are
replaced, but at the ends of a text and behind the 80 characters of its segment (`Alike`); with a letter beyond ASCII
in the segment they never do. No two users that are segments share a prefix of their cache keys.

A text is its characters: a pair of surrogates is one run of units outside the class, so cutting and replacing by
units and by characters come to the same once only the class is left.
-/

namespace Forge.Gateway

/-- What the two languages know of the characters beyond ASCII. -/
structure CaseTable where
  /-- `toLowerCase` of a text -/
  toLowerCase : List Char → List Char
  /-- The character has a lower-case form other than itself, or a rule of its own. -/
  cased : Char → Bool
  /-- `str.isalnum` of a character -/
  isalnum : Char → Bool
  /-- `str.lower` of a character -/
  lower : Char → List Char
  toLowerCase_eq : ∀ text, (∀ c ∈ text, c.toNat < 128 ∨ cased c = false) →
    toLowerCase text = text.map Char.toLower
  isalnum_ascii : ∀ c : Char, c.toNat < 128 → isalnum c = c.isAlphanum
  lower_ascii : ∀ c : Char, c.toNat < 128 → lower c = [c.toLower]

/-- SHA-256, in lower-case hexadecimal. -/
structure Sha256 where
  hexdigest : List UInt8 → List Char
  isHex : ∀ bytes, ∀ c ∈ hexdigest bytes, c ∈ "0123456789abcdef".toList
  ne_nil : ∀ bytes, hexdigest bytes ≠ []

def utf8 (text : List Char) : List UInt8 := (String.ofList text).toUTF8.toList

/-- The class `[a-z0-9._-]`. -/
def inSegment (c : Char) : Bool := c.isLower || c.isDigit || c = '.' || c = '_' || c = '-'

/-- Without the hyphens at the ends, cut at 80. -/
def trimSegment (text : List Char) : List Char :=
  (((text.dropWhile (· = '-')).reverse.dropWhile (· = '-')).reverse).take 80

def orArtifact (segment : List Char) : List Char := if segment = [] then "artifact".toList else segment

variable (table : CaseTable) (sha : Sha256)

/-! ### The gateway -/

/-- `replace(/[^a-z0-9._-]+/g, "-")` -/
def hyphenate : List Char → List Char
  | [] => []
  | c :: cs =>
    if inSegment c then c :: hyphenate cs
    else if cs.head?.any (!inSegment ·) then hyphenate cs
    else '-' :: hyphenate cs

def safeObjectSegment (value : List Char) : List Char :=
  orArtifact (trimSegment (hyphenate (table.toLowerCase value)))

/-- `blobCacheKey`; an empty text counts as none. -/
def blobCacheKey (user : List Char) (cacheKey sha256 : List Char) : Option (List Char) :=
  if cacheKey ≠ [] then some (safeObjectSegment table user ++ ':' :: cacheKey)
  else if sha256 ≠ [] then some (safeObjectSegment table user ++ ":sha256:".toList ++ table.toLowerCase sha256)
  else none

/-- `defaultObjectKey`; without a digest the leaf is random. -/
def defaultObjectKey (user purpose sha256 random : List Char) : List Char :=
  "users/".toList ++ safeObjectSegment table user ++ '/' :: safeObjectSegment table purpose ++
    '/' :: if sha256 ≠ [] then table.toLowerCase sha256 else random

def artifactObjectKey (user purpose cacheKey : List Char) : List Char :=
  "users/".toList ++ safeObjectSegment table user ++ '/' :: safeObjectSegment table purpose ++
    '/' :: safeObjectSegment table cacheKey ++ '-' :: (sha.hexdigest (utf8 cacheKey)).take 16

/-- The names of an object. -/
structure ObjectNames where
  objectKey : List Char
  cacheKey : Option (List Char)
deriving DecidableEq

/-- The names that `preparePolicyDelivery` gives to the bytes of a model. -/
def preparedNames (user : List Char) (bytes : List UInt8) : ObjectNames where
  objectKey := defaultObjectKey table user "policy-onnx".toList (sha.hexdigest bytes) []
  cacheKey := blobCacheKey table user [] (sha.hexdigest bytes)

/-- The names that `upsertArtifactBlob` stores. -/
def artifactNames (user purpose cacheKey : List Char) : ObjectNames where
  objectKey := artifactObjectKey table sha user purpose cacheKey
  cacheKey := blobCacheKey table user cacheKey []

/-! ### The worker -/

namespace Worker

/-- `_safe_segment` -/
def safeSegment (value : List Char) : List Char :=
  orArtifact (trimSegment (value.flatMap fun c =>
    if table.isalnum c || c ∈ "._-".toList then table.lower c else ['-']))

/-- `_owner_segment` -/
def ownerSegment (owner : Option (List Char)) : List Char :=
  safeSegment table (match owner with
    | some (c :: cs) => c :: cs
    | _ => "system".toList)

/-- `_artifact_object_key` -/
def artifactObjectKey (owner : Option (List Char)) (purpose cacheKey : List Char) : List Char :=
  "users/".toList ++ ownerSegment table owner ++ '/' :: safeSegment table purpose ++
    '/' :: safeSegment table cacheKey ++ '-' :: (sha.hexdigest (utf8 cacheKey)).take 16

/-- The names that `_prepare_policy_delivery` gives to the bytes of a model. -/
def preparedNames (owner : Option (List Char)) (bytes : List UInt8) : ObjectNames where
  objectKey := "users/".toList ++ ownerSegment table owner ++ "/policy-onnx/".toList ++ sha.hexdigest bytes
  cacheKey := some (ownerSegment table owner ++ ":sha256:".toList ++ sha.hexdigest bytes)

/-- The names that `_upsert_artifact_blob` stores. -/
def artifactNames (owner : Option (List Char)) (purpose cacheKey : List Char) : ObjectNames where
  objectKey := artifactObjectKey table sha owner purpose cacheKey
  cacheKey := some (ownerSegment table owner ++ ':' :: cacheKey)

end Worker

/-! ### Texts both read alike -/

/-- A character that a segment keeps, in lower case. -/
def kept (c : Char) : Bool := c.isAlphanum || c = '.' || c = '_' || c = '-'

/-- ASCII and caseless characters that are no letters or digits. -/
def Known (text : List Char) : Prop :=
  ∀ c ∈ text, c.toNat < 128 ∨ (table.cased c = false ∧ table.isalnum c = false)

/-- A character that becomes a hyphen or is one. -/
def hyphenLike (c : Char) : Bool := !kept c || c = '-'

/-- A text without what becomes the hyphens at its ends. -/
def core (text : List Char) : List Char :=
  ((text.dropWhile hyphenLike).reverse.dropWhile hyphenLike).reverse

/-- The characters of a text, with a run of replaced ones counted once. -/
def width : List Char → ℕ
  | [] => 0
  | c :: cs => (if kept c || cs.head?.all kept then 1 else 0) + width cs

/-- Wherever two neighbours are replaced, a segment is full by the end of the hyphens that they begin. -/
def Alike (text : List Char) : Prop :=
  ∀ before c c' after, core text = before ++ c :: c' :: after → kept c = false → kept c' = false →
    80 ≤ width (before ++ c :: c' :: after.takeWhile hyphenLike)

theorem inSegment_toLower (c : Char) : inSegment c.toLower = kept c := by
  have hsep : ∀ d : Char, d.isAlpha = false → (decide (c.toLower = d)) = decide (c = d) := fun d hd => by
    rw [decide_eq_decide, toLower_eq_iff hd]
  have hletter : (c.toLower.isLower || c.toLower.isDigit) = c.isAlphanum := by
    rw [isDigit_toLower, Char.isAlphanum, Char.isAlpha]
    congr 1
    rw [Bool.eq_iff_iff, Bool.or_eq_true, isLower_iff, isLower_iff, isUpper_iff, toNat_toLower]
    split
    · next hu => have := isUpper_iff.mp hu; omega
    · next hu => have := isUpper_iff.not.mp hu; omega
  rw [inSegment, kept, hletter, hsep '.' (by decide), hsep '_' (by decide), hsep '-' (by decide)]

theorem isAlphanum_eq_false {c : Char} (h : 128 ≤ c.toNat) : c.isAlphanum = false := by
  rw [Char.isAlphanum, Char.isAlpha, Bool.eq_false_iff, ne_eq, Bool.or_eq_true, Bool.or_eq_true, isUpper_iff,
    isLower_iff, isDigit_iff]
  omega

/-- What the worker makes of a known text, before trimming. -/
def replaced (text : List Char) : List Char := text.map fun c => if kept c then c.toLower else '-'

/-- What the gateway makes of a known text, before trimming. -/
def collapsed (text : List Char) : List Char := hyphenate (text.map Char.toLower)

theorem collapsed_cons (c : Char) (text : List Char) : collapsed (c :: text) =
    if kept c || text.head?.all kept then (if kept c then c.toLower else '-') :: collapsed text else collapsed text := by
  rw [collapsed, List.map_cons, hyphenate, inSegment_toLower]
  by_cases hc : kept c = true
  · simp [hc, collapsed]
  · cases text with
    | nil => simp [hc, collapsed]
    | cons c' text => by_cases hc' : kept c' = true <;> simp [hc, hc', inSegment_toLower, collapsed]

theorem length_collapsed (text : List Char) : (collapsed text).length = width text := by
  induction text with
  | nil => rfl
  | cons c text ih =>
    rw [collapsed_cons, width]
    split_ifs <;> simp [ih, Nat.add_comm]

/-- A kept character ends a run and begins none. -/
theorem collapsed_append {a b : List Char} (h : a.getLast?.all kept = true ∨ b.head?.all kept = true) :
    collapsed (a ++ b) = collapsed a ++ collapsed b := by
  induction a with
  | nil => rfl
  | cons c a ih =>
    cases a with
    | nil =>
      rw [List.singleton_append, collapsed_cons, collapsed_cons c []]
      rcases h with h | h
      · simp_all [collapsed, hyphenate]
      · simp [h, collapsed, hyphenate]
    | cons c' a =>
      have ih' := ih (h.imp_left fun h => by simpa using h)
      rw [List.cons_append, collapsed_cons, collapsed_cons c (c' :: a), ih', List.cons_append, List.head?_cons,
        List.head?_cons]
      split_ifs <;> rfl

/-- Both sides make hyphens of what is like one. -/
theorem eq_hyphen_of_hyphenLike {c : Char} (h : hyphenLike c = true) : (if kept c then c.toLower else '-') = '-' := by
  simp only [hyphenLike, Bool.or_eq_true, Bool.not_eq_true', decide_eq_true_eq] at h
  rcases h with h | rfl
  · rw [if_neg (by simp [h])]
  · decide

theorem kept_of_not_hyphenLike {c : Char} (h : hyphenLike c = false) : kept c = true ∧ c.toLower ≠ '-' := by
  simp only [hyphenLike, Bool.or_eq_false_iff, Bool.not_eq_false', decide_eq_false_iff_not] at h
  exact ⟨h.1, fun hc => h.2 ((toLower_eq_iff (by decide)).mp hc)⟩

theorem hyphenLike_of_not_kept {c : Char} (h : kept c = false) : hyphenLike c = true := by
  simp [hyphenLike, h]

theorem replaced_of_hyphenLike {text : List Char} (h : ∀ c ∈ text, hyphenLike c = true) :
    replaced text = List.replicate text.length '-' := by
  rw [replaced, List.map_congr_left fun c hc => eq_hyphen_of_hyphenLike (h c hc), List.map_const']

theorem collapsed_of_hyphenLike {text : List Char} (h : ∀ c ∈ text, hyphenLike c = true) :
    collapsed text = List.replicate (width text) '-' := by
  induction text with
  | nil => rfl
  | cons c text ih =>
    rw [collapsed_cons, width, ih fun d hd => h d (List.mem_cons_of_mem _ hd), eq_hyphen_of_hyphenLike (h c (by simp))]
    split_ifs
    · rw [Nat.add_comm, List.replicate_succ]
    · rw [Nat.zero_add]

theorem one_le_width {text : List Char} (h : text ≠ []) : 1 ≤ width text := by
  induction text with
  | nil => exact absurd rfl h
  | cons c text ih =>
    rw [width]
    by_cases htext : text = []
    · simp [htext]
    · exact Nat.le_add_left_of_le (ih htext)

theorem width_le_append (a b : List Char) : width a ≤ width (a ++ b) := by
  induction a with
  | nil => exact Nat.zero_le _
  | cons c a ih =>
    cases a with
    | nil =>
      by_cases hb : b = []
      · rw [hb, List.append_nil]
      · have hone : 1 ≤ width ([c] ++ b) := one_le_width (by simp)
        exact le_trans (by simp [width]) hone
    | cons c' a => exact Nat.add_le_add_left ih _

theorem width_le_length (text : List Char) : width text ≤ text.length := by
  induction text with
  | nil => exact le_rfl
  | cons c text ih =>
    rw [width, List.length_cons]
    split_ifs <;> omega

/-- The hyphens that a prefix begins belong to the hyphens in front of a text. -/
theorem takeWhile_prefix {p : Char → Bool} {before after : List Char} {c c' : Char} (hc : p c = true) (hc' : p c' = true) :
    (before ++ c :: c' :: after).takeWhile p <+: before ++ c :: c' :: after.takeWhile p := by
  induction before with
  | nil => simp [hc, hc']
  | cons d before ih =>
    by_cases hd : p d = true
    · simpa [hd] using ih
    · simp [hd]

/-- Hyphens in front of something else, more on the one side than on the other. -/
theorem take_replicate_append_iff {j k n : ℕ} (hjk : j < k) {d : Char} (hd : d ≠ '-') (rest rest' : List Char) :
    (List.replicate k '-' ++ rest).take n = (List.replicate j '-' ++ d :: rest').take n ↔ n ≤ j := by
  constructor
  · intro h
    by_contra hlt
    have hget := congrArg (·[j]?) h
    rw [List.getElem?_take_of_lt (by omega), List.getElem?_take_of_lt (by omega),
      List.getElem?_append_left (by simpa using hjk), List.getElem?_append_right (by simp)] at hget
    simp [hjk] at hget
    exact hd hget.symm
  · intro h
    rw [List.take_append_of_le_length (by simpa using h.trans hjk.le), List.take_append_of_le_length (by simpa using h)]
    simp [h, h.trans hjk.le]

theorem replaced_append (a b : List Char) : replaced (a ++ b) = replaced a ++ replaced b := List.map_append

/-- Where the first character is on its own, it counts. -/
theorem width_cons {c c' : Char} (h : (kept c || kept c') = true) {text : List Char} (hhead : text.head? = some c') :
    width (c :: text) = width text + 1 := by
  rw [width, hhead, Option.all_some, if_pos h, Nat.add_comm]

theorem head?_of_split {before after rest : List Char} {c d : Char} {text : List Char}
    (h : c :: text = before ++ d :: after) : (before ++ d :: rest).head? = some c := by
  cases before with
  | nil => simp_all
  | cons b before => simp_all

/-- The hyphens before the first other character: those of a run count once. -/
theorem take_run_iff {c c' : Char} {text : List Char} (hc : kept c = false) (hc' : kept c' = false)
    (hlast : (c :: c' :: text).getLast?.all (!hyphenLike ·) = true) (n : ℕ) :
    (replaced (c :: c' :: text)).take n = (collapsed (c :: c' :: text)).take n ↔
      n ≤ width (c :: c' :: text.takeWhile hyphenLike) := by
  have hhyphens : (c :: c' :: text).takeWhile hyphenLike = c :: c' :: text.takeWhile hyphenLike := by
    simp [hyphenLike_of_not_kept hc, hyphenLike_of_not_kept hc']
  have hsplit := List.takeWhile_append_dropWhile (p := hyphenLike) (l := c :: c' :: text)
  rw [hhyphens] at hsplit
  set hyphens := c :: c' :: text.takeWhile hyphenLike with hdef
  have hall : ∀ d ∈ hyphens, hyphenLike d = true := fun d hd => List.mem_takeWhile_imp (hhyphens ▸ hd)
  have hwidth : width hyphens < hyphens.length := by
    rw [hdef, width, List.head?_cons, Option.all_some, hc, hc', if_neg (by simp), Nat.zero_add, List.length_cons]
    exact Nat.lt_succ_of_le (width_le_length _)
  cases hrest : (c :: c' :: text).dropWhile hyphenLike with
  | nil =>
    -- the last character is no hyphen
    have hlike := List.dropWhile_eq_nil_iff.mp hrest _ (List.getLast_mem (List.cons_ne_nil c (c' :: text)))
    rw [List.getLast?_eq_some_getLast (List.cons_ne_nil c (c' :: text)), Option.all_some, hlike] at hlast
    cases hlast
  | cons d rest =>
    have hd : hyphenLike d = false := by
      have := List.head?_dropWhile_not hyphenLike (c :: c' :: text)
      rw [hrest] at this
      simpa using this
    obtain ⟨hkept, hne⟩ := kept_of_not_hyphenLike hd
    rw [hrest] at hsplit
    rw [← hsplit, replaced_append, collapsed_append (.inr (by simpa using hkept)), replaced_of_hyphenLike hall,
      collapsed_of_hyphenLike hall]
    have hcollapsed : collapsed (d :: rest) = d.toLower :: collapsed rest := by
      rw [collapsed_cons]
      simp [hkept]
    rw [hcollapsed]
    exact take_replicate_append_iff hwidth hne _ _

/-- Up to the `n`-th character the two sides agree on a text that ends in something else than a hyphen if and only if
each run in it is begun, and its hyphens are ended, after that. -/
theorem take_replaced_iff {text : List Char} (hlast : text.getLast?.all (!hyphenLike ·) = true) (n : ℕ) :
    (replaced text).take n = (collapsed text).take n ↔
      ∀ before c c' after, text = before ++ c :: c' :: after → kept c = false → kept c' = false →
        n ≤ width (before ++ c :: c' :: after.takeWhile hyphenLike) := by
  induction text generalizing n with
  | nil => simp [replaced, collapsed, hyphenate]
  | cons c text ih =>
    have hcons : replaced (c :: text) = (if kept c then c.toLower else '-') :: replaced text := rfl
    cases text with
    | nil =>
      have hsame : collapsed [c] = replaced [c] := by
        rw [collapsed_cons]
        simp [replaced, collapsed, hyphenate]
      rw [hsame, eq_self, true_iff]
      intro before d d' after htext
      have := congrArg List.length htext
      simp at this
      omega
    | cons c' text =>
      have htail := ih (by simpa using hlast)
      by_cases hrun : (kept c || kept c') = true
      · -- the first character is the same on both sides
        have hcollapsed : collapsed (c :: c' :: text) = (if kept c then c.toLower else '-') :: collapsed (c' :: text) := by
          rw [collapsed_cons, if_pos (by simpa using hrun)]
        rw [hcons, hcollapsed]
        cases n with
        | zero => simp
        | succ n =>
          rw [List.take_succ_cons, List.take_succ_cons, List.cons.injEq, and_iff_right rfl, htail]
          constructor
          · intro h before d d' after htext hd hd'
            cases before with
            | nil => simp_all
            | cons b before =>
              obtain ⟨rfl, hrest⟩ := List.cons.inj htext
              rw [List.cons_append, width_cons hrun (head?_of_split hrest)]
              exact Nat.add_le_add_right (h before d d' after hrest hd hd') 1
          · intro h before d d' after htext hd hd'
            have := h (c :: before) d d' after (by rw [htext, List.cons_append]) hd hd'
            rw [List.cons_append, width_cons hrun (head?_of_split htext)] at this
            exact Nat.le_of_succ_le_succ this
      · -- a run begins at once, and every later one only after its hyphens
        obtain ⟨hc, hc'⟩ := Bool.or_eq_false_iff.mp (Bool.not_eq_true _ ▸ hrun)
        rw [take_run_iff hc hc' hlast]
        constructor
        · intro h before d d' after htext hd hd'
          have hinitial : (before ++ d :: d' :: after).takeWhile hyphenLike <+:
              before ++ d :: d' :: after.takeWhile hyphenLike :=
            takeWhile_prefix (hyphenLike_of_not_kept hd) (hyphenLike_of_not_kept hd')
          rw [← htext, List.takeWhile_cons_of_pos (hyphenLike_of_not_kept hc),
            List.takeWhile_cons_of_pos (hyphenLike_of_not_kept hc')] at hinitial
          obtain ⟨rest, hrest⟩ := hinitial
          exact hrest ▸ h.trans (width_le_append _ rest)
        · intro h
          exact h [] c c' text rfl hc hc'

/-! ### Segments of known texts -/

theorem head?_dropWhile_all (p : Char → Bool) (text : List Char) : (text.dropWhile p).head?.all (!p ·) = true := by
  induction text with
  | nil => rfl
  | cons c text ih => by_cases hc : p c = true <;> simp [hc, ih]

/-- A text is its core between characters that become hyphens. -/
theorem core_split (text : List Char) : ∃ front back, text = front ++ (core text ++ back) ∧
    (∀ c ∈ front, hyphenLike c = true) ∧ (∀ c ∈ back, hyphenLike c = true) ∧
    (core text).head?.all (!hyphenLike ·) = true ∧ (core text).getLast?.all (!hyphenLike ·) = true := by
  set rest := text.dropWhile hyphenLike with hrest
  have hcore : core text = (rest.reverse.dropWhile hyphenLike).reverse := rfl
  have hsplit : core text ++ (rest.reverse.takeWhile hyphenLike).reverse = rest := by
    rw [hcore, ← List.reverse_append, List.takeWhile_append_dropWhile, List.reverse_reverse]
  refine ⟨text.takeWhile hyphenLike, (rest.reverse.takeWhile hyphenLike).reverse, ?_,
    fun c hc => List.mem_takeWhile_imp hc, fun c hc => List.mem_takeWhile_imp (List.mem_reverse.mp hc), ?_, ?_⟩
  · rw [hsplit, List.takeWhile_append_dropWhile]
  · cases hnil : core text with
    | nil => rfl
    | cons c cs =>
      have hhead := head?_dropWhile_all hyphenLike text
      rw [← hrest, ← hsplit, hnil] at hhead
      simpa using hhead
  · rw [hcore, List.getLast?_reverse]
    exact head?_dropWhile_all hyphenLike rest.reverse

theorem dropWhile_of_head {text : List Char} (h : text.head? ≠ some '-') : text.dropWhile (· = '-') = text := by
  cases text with
  | nil => rfl
  | cons c text =>
    rw [List.dropWhile_cons_of_neg]
    simpa using h

theorem dropWhile_replicate (j : ℕ) (text : List Char) :
    (List.replicate j '-' ++ text).dropWhile (· = '-') = text.dropWhile (· = '-') :=
  List.dropWhile_append_of_pos fun c hc => by simpa using List.eq_of_mem_replicate hc

/-- Of a text between hyphens whose own ends are none, that text is left. -/
theorem trimSegment_between {middle : List Char} (hhead : middle.head? ≠ some '-') (hlast : middle.getLast? ≠ some '-')
    (j k : ℕ) : trimSegment (List.replicate j '-' ++ (middle ++ List.replicate k '-')) = middle.take 80 := by
  rw [trimSegment, dropWhile_replicate]
  cases middle with
  | nil => simp
  | cons c middle =>
    have hfront : (c :: middle ++ List.replicate k '-').head? ≠ some '-' := by simpa using hhead
    rw [dropWhile_of_head hfront, List.reverse_append, List.reverse_replicate, dropWhile_replicate,
      dropWhile_of_head (by rwa [List.head?_reverse]), List.reverse_reverse]

theorem trimSegment_replaced (text : List Char) : trimSegment (replaced text) = (replaced (core text)).take 80 := by
  obtain ⟨front, back, htext, hfront, hback, hhead, hlast⟩ := core_split text
  have hends : ∀ o : Option Char, o.all (!hyphenLike ·) = true →
      o.map (fun c => if kept c then c.toLower else '-') ≠ some '-' := by
    rintro (_ | c) h
    · simp
    · obtain ⟨hkept, hne⟩ := kept_of_not_hyphenLike (by simpa using h)
      simpa [hkept] using hne
  conv_lhs => rw [htext, replaced_append, replaced_append, replaced_of_hyphenLike hfront, replaced_of_hyphenLike hback]
  exact trimSegment_between (by rw [replaced, List.head?_map]; exact hends _ hhead)
    (by rw [replaced, List.getLast?_map]; exact hends _ hlast) _ _

theorem trimSegment_collapsed (text : List Char) : trimSegment (collapsed text) = (collapsed (core text)).take 80 := by
  obtain ⟨front, back, htext, hfront, hback, hhead, hlast⟩ := core_split text
  rcases List.eq_nil_or_concat' (core text) with hnil | ⟨cs, c, hconcat⟩
  · have hall : ∀ c ∈ text, hyphenLike c = true := by
      rw [htext, hnil]
      simpa [or_imp, forall_and] using ⟨hfront, hback⟩
    rw [collapsed_of_hyphenLike hall, hnil]
    simpa [collapsed, hyphenate] using @trimSegment_between [] (by simp) (by simp) (width text) 0
  · have hkept (o : Option Char) (h : o.all (!hyphenLike ·) = true) : o.all kept = true := by
      cases o with
      | none => rfl
      | some c => exact (kept_of_not_hyphenLike (by simpa using h)).1
    have hhead' : (core text ++ back).head?.all kept = true := by
      rw [hconcat] at hhead ⊢
      cases cs <;> exact hkept _ (by simpa using hhead)
    conv_lhs => rw [htext, collapsed_append (.inr hhead'), collapsed_append (.inl (hkept _ hlast)),
      collapsed_of_hyphenLike hfront, collapsed_of_hyphenLike hback]
    refine trimSegment_between ?_ ?_ _ _
    · cases hcore : core text with
      | nil => simp [collapsed, hyphenate]
      | cons d ds =>
        rw [hcore] at hhead
        obtain ⟨hd, hne⟩ := kept_of_not_hyphenLike (by simpa using hhead)
        simpa [collapsed_cons, hd] using hne
    · rw [hconcat] at hlast ⊢
      obtain ⟨hc, hne⟩ := kept_of_not_hyphenLike (by simpa using hlast)
      have hsingle : collapsed [c] = [c.toLower] := by
        rw [collapsed_cons]
        simp [hc, collapsed, hyphenate]
      rw [collapsed_append (.inr (by simpa using hc)), hsingle]
      simpa using hne

/-- **When the two sides make the same segment of a known text.** -/
theorem orArtifact_segment_iff (text : List Char) :
    orArtifact (trimSegment (replaced text)) = orArtifact (trimSegment (collapsed text)) ↔ Alike text := by
  obtain ⟨-, -, -, -, -, -, hlast⟩ := core_split text
  rw [trimSegment_replaced, trimSegment_collapsed, Alike, ← take_replaced_iff hlast]
  by_cases hnil : core text = []
  · simp [hnil, replaced, collapsed, hyphenate]
  · have hreplaced : (replaced (core text)).take 80 ≠ [] := by simpa [replaced] using hnil
    have hcollapsed : (collapsed (core text)).take 80 ≠ [] := by
      have := one_le_width hnil
      rw [← length_collapsed] at this
      simpa using List.ne_nil_of_length_pos this
    rw [orArtifact, orArtifact, if_neg hreplaced, if_neg hcollapsed]

variable {table}

theorem replaced_of_known {text : List Char} (h : Known table text) :
    (text.flatMap fun c => if table.isalnum c || c ∈ "._-".toList then table.lower c else ['-']) = replaced text := by
  rw [replaced, List.map_eq_flatMap]
  refine List.flatMap_congr fun c hc => ?_
  have hkept : kept c = (c.isAlphanum || c ∈ "._-".toList) := by
    simp [kept, Bool.or_assoc]
  by_cases hascii : c.toNat < 128
  · rw [table.isalnum_ascii c hascii, ← hkept, table.lower_ascii c hascii]
    split <;> rfl
  · have hnot := ((h c hc).resolve_left hascii).2
    have hletter := isAlphanum_eq_false (Nat.le_of_not_lt hascii)
    have hall : ∀ d ∈ "._-".toList, d.toNat < 128 := List.forall_iff_forall_mem.mp (by decide)
    have hmem : c ∉ "._-".toList := fun hmem => hascii (hall c hmem)
    rw [hkept, hnot, hletter, decide_eq_false hmem]
    rfl

theorem collapsed_of_known {text : List Char} (h : Known table text) :
    hyphenate (table.toLowerCase text) = collapsed text := by
  rw [table.toLowerCase_eq text fun c hc => (h c hc).imp_right And.left, collapsed]

/-- **When the worker and the gateway make the same segment of a known text.** -/
theorem safeSegment_eq_iff {text : List Char} (h : Known table text) :
    Worker.safeSegment table text = safeObjectSegment table text ↔ Alike text := by
  rw [Worker.safeSegment, safeObjectSegment, replaced_of_known h, collapsed_of_known h]
  exact orArtifact_segment_iff text

/-- A text without two replaced neighbours, its ends apart, is read alike. -/
theorem alike_of_apart {text : List Char} (h : (core text).IsChain fun c c' => kept c = true ∨ kept c' = true) :
    Alike text := by
  intro before c c' after hcore hc hc'
  rw [hcore] at h
  have := (List.isChain_cons_cons.mp (List.isChain_append.mp h).2.1).1
  simp [hc, hc'] at this

/-! ### Segments -/

/-- A text that is its own segment. -/
structure IsSegment (text : List Char) : Prop where
  ne_nil : text ≠ []
  length_le : text.length ≤ 80
  inSegment : ∀ c ∈ text, inSegment c = true
  head : text.head? ≠ some '-'
  last : text.getLast? ≠ some '-'

theorem lt_of_inSegment {c : Char} (h : inSegment c = true) : c.toNat < 128 := by
  simp only [inSegment, Bool.or_eq_true, isLower_iff, isDigit_iff, decide_eq_true_eq] at h
  obtain (((h | h) | rfl) | rfl) | rfl := h
  · omega
  · omega
  all_goals decide

theorem toLower_of_inSegment {c : Char} (h : inSegment c = true) : c.toLower = c := by
  apply toLower_of_not_isUpper
  rw [Bool.eq_false_iff, ne_eq, isUpper_iff]
  simp only [inSegment, Bool.or_eq_true, isLower_iff, isDigit_iff, decide_eq_true_eq] at h
  obtain (((h | h) | rfl) | rfl) | rfl := h
  · omega
  · omega
  all_goals decide

theorem toLowerCase_of_inSegment {text : List Char} (h : ∀ c ∈ text, inSegment c = true) :
    table.toLowerCase text = text := by
  rw [table.toLowerCase_eq text fun c hc => .inl (lt_of_inSegment (h c hc)),
    List.map_congr_left fun c hc => toLower_of_inSegment (h c hc), List.map_id']

theorem hyphenate_of_inSegment {text : List Char} (h : ∀ c ∈ text, inSegment c = true) : hyphenate text = text := by
  induction text with
  | nil => rfl
  | cons c text ih =>
    rw [hyphenate, if_pos (h c (by simp)), ih fun d hd => h d (List.mem_cons_of_mem _ hd)]

theorem safeObjectSegment_of_isSegment {text : List Char} (h : IsSegment text) :
    safeObjectSegment table text = text := by
  have hreverse : text.reverse.dropWhile (· = '-') = text.reverse :=
    dropWhile_of_head (by rw [List.head?_reverse]; exact h.last)
  rw [safeObjectSegment, toLowerCase_of_inSegment h.inSegment, hyphenate_of_inSegment h.inSegment, trimSegment,
    dropWhile_of_head h.head, hreverse, List.reverse_reverse, List.take_of_length_le h.length_le, orArtifact,
    if_neg h.ne_nil]

theorem inSegment_of_mem_hyphenate {text : List Char} {c : Char} (h : c ∈ hyphenate text) : inSegment c = true := by
  induction text with
  | nil => cases h
  | cons d text ih =>
    rw [hyphenate] at h
    split_ifs at h with hd hnext
    · rcases List.mem_cons.mp h with rfl | h
      · exact hd
      · exact ih h
    · exact ih h
    · rcases List.mem_cons.mp h with rfl | h
      · decide
      · exact ih h

/-- The parts of a segment come from the text before trimming. -/
theorem mem_of_mem_segment {text : List Char} {c : Char} (h : c ∈ orArtifact (trimSegment text)) :
    inSegment c = true ∨ c ∈ text := by
  rw [orArtifact] at h
  split_ifs at h
  · exact .inl (List.all_eq_true.mp (by decide : "artifact".toList.all inSegment = true) c h)
  · have hmem := List.mem_reverse.mp ((List.dropWhile_sublist _).subset (List.mem_reverse.mp (List.mem_of_mem_take h)))
    exact .inr ((List.dropWhile_sublist _).subset hmem)

/-- A segment is made of its class alone. -/
theorem inSegment_of_mem {text : List Char} {c : Char} (h : c ∈ safeObjectSegment table text) :
    inSegment c = true := (mem_of_mem_segment h).elim id inSegment_of_mem_hyphenate

theorem inSegment_of_mem_worker {text : List Char} (htext : Known table text) {c : Char}
    (h : c ∈ Worker.safeSegment table text) : inSegment c = true := by
  rw [Worker.safeSegment, replaced_of_known htext] at h
  refine (mem_of_mem_segment h).elim id fun hmem => ?_
  obtain ⟨d, -, rfl⟩ := List.mem_map.mp hmem
  split_ifs with hd
  · rwa [inSegment_toLower]
  · decide

theorem known_of_isSegment {text : List Char} (h : IsSegment text) : Known table text :=
  fun c hc => .inl (lt_of_inSegment (h.inSegment c hc))

/-- A segment is its own segment on both sides. -/
theorem safeSegment_of_isSegment {text : List Char} (h : IsSegment text) : Worker.safeSegment table text = text := by
  have hkept : ∀ c ∈ text, kept c = true := fun c hc => by
    rw [← inSegment_toLower, toLower_of_inSegment (h.inSegment c hc)]
    exact h.inSegment c hc
  rw [(safeSegment_eq_iff (known_of_isSegment h)).mpr, safeObjectSegment_of_isSegment h]
  obtain ⟨front, back, htext, -⟩ := core_split text
  have hcore : ∀ c ∈ core text, kept c = true := fun c hc => hkept c (by
    rw [htext]
    exact List.mem_append_right _ (List.mem_append_left _ hc))
  exact alike_of_apart (List.pairwise_of_forall_mem_list fun c hc _ _ => .inl (hcore c hc)).isChain

/-! ### Letters beyond ASCII -/

theorem dropWhile_before {pre suf : List Char} {d : Char} (hd : d ≠ '-') :
    (pre ++ d :: suf).dropWhile (· = '-') = pre.dropWhile (· = '-') ++ d :: suf := by
  rw [List.dropWhile_append, List.dropWhile_cons_of_neg (by simpa using hd)]
  split
  · next h => rw [List.isEmpty_iff.mp h, List.nil_append]
  · rfl

/-- Trimming takes away no other character among the first 80. -/
theorem mem_trimSegment {pre suf : List Char} {d : Char} (hd : d ≠ '-') (hpre : pre.length < 80) :
    d ∈ trimSegment (pre ++ d :: suf) := by
  have hlength : (pre.dropWhile (· = '-')).length ≤ pre.length := (List.dropWhile_sublist _).length_le
  rw [trimSegment, dropWhile_before hd, List.reverse_append, List.reverse_cons, List.append_assoc, List.singleton_append,
    dropWhile_before hd, List.reverse_append, List.reverse_cons, List.reverse_reverse, List.append_assoc,
    List.singleton_append, List.mem_take_iff_getElem]
  exact ⟨(pre.dropWhile (· = '-')).length, by simp; omega, by simp⟩

variable (table) in
/-- Among the first 80 characters that the worker keeps is one outside the class, of a letter or digit. -/
def ReachesForeign (text : List Char) : Prop :=
  ∃ before c after, text = before ++ c :: after ∧ Known table before ∧ table.isalnum c = true ∧
    (∃ d ∈ table.lower c, inSegment d = false) ∧ before.length + (table.lower c).length ≤ 80

theorem safeSegment_ne_of_reachesForeign {text : List Char} (h : ReachesForeign table text) :
    Worker.safeSegment table text ≠ safeObjectSegment table text := by
  obtain ⟨before, c, after, rfl, hbefore, halnum, ⟨d, hd, hclass⟩, hlength⟩ := h
  obtain ⟨pre, suf, hlower⟩ := List.append_of_mem hd
  have hhyphen : d ≠ '-' := by
    rintro rfl
    exact absurd hclass (by decide)
  rw [hlower, List.length_append, List.length_cons] at hlength
  intro heq
  suffices hmem : d ∈ Worker.safeSegment table (before ++ c :: after) from
    absurd (inSegment_of_mem (heq ▸ hmem)) (Bool.eq_false_iff.mp hclass)
  have hmem : d ∈ trimSegment ((replaced before ++ pre) ++ d :: (suf ++ (after.flatMap fun c =>
      if table.isalnum c || c ∈ "._-".toList then table.lower c else ['-']))) :=
    mem_trimSegment hhyphen (by rw [List.length_append, replaced, List.length_map]; omega)
  rw [Worker.safeSegment, List.flatMap_append, List.flatMap_cons, replaced_of_known hbefore,
    if_pos (by simp [halnum]), hlower]
  rw [orArtifact, if_neg]
  · simpa using hmem
  · intro hnil
    simp only [List.append_assoc, List.cons_append] at hmem hnil
    rw [hnil] at hmem
    cases hmem

/-! ### The names -/

theorem toLowerCase_hexdigest (bytes : List UInt8) : table.toLowerCase (sha.hexdigest bytes) = sha.hexdigest bytes :=
  toLowerCase_of_inSegment fun c hc =>
    List.all_eq_true.mp (by decide : "0123456789abcdef".toList.all inSegment = true) c (sha.isHex bytes c hc)

theorem ownerSegment_some {user : List Char} (hne : user ≠ []) :
    Worker.ownerSegment table (some user) = Worker.safeSegment table user := by
  cases user with
  | nil => exact absurd rfl hne
  | cons c cs => rfl

/-- The names that the gateway gives to the bytes of a model, written out. -/
theorem preparedNames_eq (user : List Char) (bytes : List UInt8) : preparedNames table sha user bytes =
    { objectKey := "users/".toList ++ safeObjectSegment table user ++ "/policy-onnx/".toList ++ sha.hexdigest bytes,
      cacheKey := some (safeObjectSegment table user ++ ":sha256:".toList ++ sha.hexdigest bytes) } := by
  have hpurpose : safeObjectSegment table "policy-onnx".toList = "policy-onnx".toList :=
    safeObjectSegment_of_isSegment
      ⟨by decide, by decide, List.all_eq_true.mp (by decide), by decide, by decide⟩
  have hslashes : "/policy-onnx/".toList = '/' :: ("policy-onnx".toList ++ ['/']) := by decide
  have hobject : defaultObjectKey table user "policy-onnx".toList (sha.hexdigest bytes) [] =
      "users/".toList ++ safeObjectSegment table user ++ "/policy-onnx/".toList ++ sha.hexdigest bytes := by
    unfold defaultObjectKey
    rw [if_pos (sha.ne_nil bytes), hpurpose, toLowerCase_hexdigest, hslashes]
    simp only [List.append_assoc, List.cons_append, List.nil_append]
  have hcache : blobCacheKey table user [] (sha.hexdigest bytes) =
      some (safeObjectSegment table user ++ ":sha256:".toList ++ sha.hexdigest bytes) := by
    rw [blobCacheKey, if_neg (by simp), if_pos (sha.ne_nil bytes), toLowerCase_hexdigest]
  unfold preparedNames
  rw [hobject, hcache]

/-- Names made of one segment determine it. -/
theorem policyNames_inj (a b c d : List Char) {x y : List Char} :
    ObjectNames.mk (a ++ x ++ b ++ d) (some (x ++ c ++ d)) = ⟨a ++ y ++ b ++ d, some (y ++ c ++ d)⟩ ↔ x = y := by
  simp

/-- The names of a policy agree if and only if the user's segments do. -/
theorem preparedNames_iff {user : List Char} (hne : user ≠ []) (h : Known table user) (bytes : List UInt8) :
    Worker.preparedNames table sha (some user) bytes = preparedNames table sha user bytes ↔ Alike user := by
  rw [preparedNames_eq, ← safeSegment_eq_iff h, ← ownerSegment_some hne]
  exact policyNames_inj _ _ _ _

/-- What stands before the first separator, and what behind it. -/
theorem join_inj {d : Char} {a a' b b' : List Char} (ha : d ∉ a) (ha' : d ∉ a') (h : a ++ d :: b = a' ++ d :: b') :
    a = a' ∧ b = b' := by
  have htake (x y : List Char) (hx : d ∉ x) : (x ++ d :: y).takeWhile (· ≠ d) = x := by
    rw [List.takeWhile_append_of_pos fun c hc => decide_eq_true (ne_of_mem_of_not_mem hc hx)]
    simp
  have heq := congrArg (List.takeWhile (· ≠ d)) h
  rw [htake a b ha, htake a' b' ha'] at heq
  subst heq
  exact ⟨rfl, (List.cons.inj (List.append_cancel_left h)).2⟩

/-- Names made of three segments determine them. -/
theorem artifactNames_inj (a d k : List Char) {x y z x' y' z' : List Char} (hx : '/' ∉ x) (hx' : '/' ∉ x') (hy : '/' ∉ y)
    (hy' : '/' ∉ y') :
    ObjectNames.mk (a ++ x ++ '/' :: y ++ '/' :: z ++ '-' :: d) (some (x ++ ':' :: k)) =
        ⟨a ++ x' ++ '/' :: y' ++ '/' :: z' ++ '-' :: d, some (x' ++ ':' :: k)⟩ ↔ x = x' ∧ y = y' ∧ z = z' := by
  rw [ObjectNames.mk.injEq]
  simp only [List.append_assoc, List.cons_append, List.append_cancel_left_eq]
  constructor
  · rintro ⟨hobject, -⟩
    obtain ⟨h1, hobject⟩ := join_inj hx hx' hobject
    obtain ⟨h2, hobject⟩ := join_inj hy hy' hobject
    exact ⟨h1, h2, List.append_cancel_right hobject⟩
  · rintro ⟨rfl, rfl, rfl⟩
    exact ⟨rfl, rfl⟩

/-- The names of an artifact agree if and only if all three segments do. -/
theorem artifactNames_iff {user purpose cacheKey : List Char} (hne : user ≠ []) (hkey : cacheKey ≠ [])
    (huser : Known table user) (hpurpose : Known table purpose) (hcacheKey : Known table cacheKey) :
    Worker.artifactNames table sha (some user) purpose cacheKey = artifactNames table sha user purpose cacheKey ↔
      Alike user ∧ Alike purpose ∧ Alike cacheKey := by
  have hslash {text : List Char} : '/' ∉ safeObjectSegment table text := fun hmem =>
    absurd (inSegment_of_mem hmem) (by decide)
  have hslash' {text : List Char} (h : Known table text) : '/' ∉ Worker.safeSegment table text := fun hmem =>
    absurd (inSegment_of_mem_worker h hmem) (by decide)
  have hcache : blobCacheKey table user cacheKey [] = some (safeObjectSegment table user ++ ':' :: cacheKey) := by
    rw [blobCacheKey, if_pos hkey]
  unfold artifactNames
  rw [hcache, ← safeSegment_eq_iff huser, ← safeSegment_eq_iff hpurpose, ← safeSegment_eq_iff hcacheKey,
    ← ownerSegment_some hne]
  exact artifactNames_inj _ _ _ (ownerSegment_some hne ▸ hslash' huser) hslash (hslash' hpurpose) hslash

theorem names_differ_of_reachesForeign {user : List Char} (h : ReachesForeign table user) :
    (∀ bytes, Worker.preparedNames table sha (some user) bytes ≠ preparedNames table sha user bytes) ∧
      ∀ purpose cacheKey, cacheKey ≠ [] →
        Worker.artifactNames table sha (some user) purpose cacheKey ≠ artifactNames table sha user purpose cacheKey := by
  have hne : user ≠ [] := by
    obtain ⟨before, c, after, rfl, -⟩ := h
    simp
  have hsegment := safeSegment_ne_of_reachesForeign h
  rw [← ownerSegment_some hne] at hsegment
  refine ⟨fun bytes heq => hsegment ?_, fun purpose cacheKey hkey heq => hsegment ?_⟩
  · rw [preparedNames_eq] at heq
    exact (policyNames_inj _ _ _ _).mp heq
  · have hcache := congrArg ObjectNames.cacheKey heq
    rw [artifactNames, blobCacheKey, if_pos hkey] at hcache
    exact List.append_cancel_right (Option.some.inj hcache)

/-! ### Prefixes of cache keys -/

variable (table)

/-- A cache key that the gateway or the worker gives to an object of the user. -/
inductive CacheKeyOf (user : List Char) : List Char → Prop where
  | gateway {cacheKey sha256 name} : blobCacheKey table user cacheKey sha256 = some name → CacheKeyOf user name
  | policy {bytes name} : (Worker.preparedNames table sha (some user) bytes).cacheKey = some name → CacheKeyOf user name
  | artifact {purpose cacheKey name} :
      (Worker.artifactNames table sha (some user) purpose cacheKey).cacheKey = some name → CacheKeyOf user name

variable {table}

/-- A cache key begins with the segment of the one side or of the other. -/
theorem takeWhile_cacheKey {user name : List Char} (hne : user ≠ []) (huser : Known table user)
    (h : CacheKeyOf table sha user name) :
    name.takeWhile (· ≠ ':') = safeObjectSegment table user ∨ name.takeWhile (· ≠ ':') = Worker.safeSegment table user := by
  have hgateway : ':' ∉ safeObjectSegment table user := fun hmem => absurd (inSegment_of_mem hmem) (by decide)
  have hworker : ':' ∉ Worker.safeSegment table user := fun hmem =>
    absurd (inSegment_of_mem_worker huser hmem) (by decide)
  rw [← ownerSegment_some hne] at hworker ⊢
  cases h with
  | gateway h =>
    unfold blobCacheKey at h
    split_ifs at h <;> cases h
    · exact .inl (takeWhile_join hgateway _).1
    · rw [List.append_assoc]
      exact .inl (takeWhile_join hgateway _).1
  | policy h =>
    obtain rfl := Option.some.inj h
    rw [List.append_assoc]
    exact .inr (takeWhile_join hworker _).1
  | artifact h =>
    obtain rfl := Option.some.inj h
    exact .inr (takeWhile_join hworker _).1

/-- The cache keys of a user that is a segment begin with the user. -/
theorem takeWhile_of_isSegment {user name : List Char} (huser : IsSegment user) (h : CacheKeyOf table sha user name) :
    name.takeWhile (· ≠ ':') = user :=
  (takeWhile_cacheKey sha huser.ne_nil (known_of_isSegment huser) h).elim
    (fun heq => heq.trans (safeObjectSegment_of_isSegment huser)) fun heq => heq.trans (safeSegment_of_isSegment huser)

/-- A hyphen in front of an id changes no cache key. -/
theorem blobCacheKey_hyphen {user : List Char} (huser : Known table user) (cacheKey sha256 : List Char) :
    blobCacheKey table ('-' :: user) cacheKey sha256 = blobCacheKey table user cacheKey sha256 := by
  have hhyphen : Known table ('-' :: user) := List.forall_mem_cons.mpr ⟨.inl (by decide), huser⟩
  have hsegment : safeObjectSegment table ('-' :: user) = safeObjectSegment table user := by
    have hcore : core ('-' :: user) = core user := by
      rw [core, List.dropWhile_cons_of_pos (by decide), core]
    rw [safeObjectSegment, safeObjectSegment, collapsed_of_known hhyphen, collapsed_of_known huser,
      trimSegment_collapsed, trimSegment_collapsed, hcore]
  rw [blobCacheKey, blobCacheKey, hsegment]

variable (table)

/-- **The names of objects.** Of known texts the gateway and the worker make the same names if and only if each of the
texts is read alike; a user whose segment reaches a letter beyond ASCII never gets the same names. No cache key of a
user that is a segment, on either side, shares its prefix with one of another such user; every known user shares its
prefix with some other one. -/
theorem objectNames_agree :
    (∀ user bytes, user ≠ [] → Known table user →
      (Worker.preparedNames table sha (some user) bytes = preparedNames table sha user bytes ↔ Alike user)) ∧
    (∀ user purpose cacheKey, user ≠ [] → cacheKey ≠ [] → Known table user → Known table purpose →
      Known table cacheKey →
      (Worker.artifactNames table sha (some user) purpose cacheKey = artifactNames table sha user purpose cacheKey ↔
        Alike user ∧ Alike purpose ∧ Alike cacheKey)) ∧
    (∀ user, ReachesForeign table user →
      (∀ bytes, Worker.preparedNames table sha (some user) bytes ≠ preparedNames table sha user bytes) ∧
      ∀ purpose cacheKey, cacheKey ≠ [] →
        Worker.artifactNames table sha (some user) purpose cacheKey ≠ artifactNames table sha user purpose cacheKey) ∧
    (∀ user user' name name', IsSegment user → IsSegment user' → CacheKeyOf table sha user name →
      CacheKeyOf table sha user' name' → name.takeWhile (· ≠ ':') = name'.takeWhile (· ≠ ':') → user = user') ∧
    ∀ user, Known table user → ∃ user' ≠ user, ∀ cacheKey sha256,
      blobCacheKey table user' cacheKey sha256 = blobCacheKey table user cacheKey sha256 := by
  refine ⟨fun user bytes hne h => preparedNames_iff sha hne h bytes,
    fun _ _ _ hne hkey huser hpurpose hcacheKey => artifactNames_iff sha hne hkey huser hpurpose hcacheKey,
    fun user h => names_differ_of_reachesForeign sha h,
    fun user user' name name' huser huser' h h' heq => ?_,
    fun user h => ⟨'-' :: user, List.cons_ne_self _ _, blobCacheKey_hyphen h⟩⟩
  rwa [takeWhile_of_isSegment sha huser h, takeWhile_of_isSegment sha huser' h'] at heq

/-- The tables as far as ASCII goes, with one letter more. -/
def asciiTable : CaseTable where
  toLowerCase text := text.map Char.toLower
  cased c := 128 ≤ c.toNat
  isalnum c := c.isAlphanum || c = 'é'
  lower c := [c.toLower]
  toLowerCase_eq _ _ := rfl
  isalnum_ascii c h := by
    have hne : c ≠ 'é' := fun heq => absurd (heq ▸ h) (by decide)
    simp [hne]
  lower_ascii _ _ := rfl

def zeroSha : Sha256 := ⟨fun _ => ['0'], fun _ => List.forall_iff_forall_mem.mp (by decide), fun _ => by decide⟩

/-- A colon and a space between letters are replaced alike, and so is what stands at the end; two users that are
segments have their own prefixes; a colon and an at sign next to each other are named apart, and so is an accent. -/
theorem objectNames_agree_spaced :
    Worker.artifactNames asciiTable zeroSha (some "Dev:1".toList) "mesh".toList "Bracket v2 (!)".toList =
        artifactNames asciiTable zeroSha "Dev:1".toList "mesh".toList "Bracket v2 (!)".toList ∧
      Worker.preparedNames asciiTable zeroSha (some "dev:@one".toList) [] ≠
        preparedNames asciiTable zeroSha "dev:@one".toList [] ∧
      Worker.preparedNames asciiTable zeroSha (some "zoé-1".toList) [] ≠
        preparedNames asciiTable zeroSha "zoé-1".toList [] ∧
      ¬ CacheKeyOf asciiTable zeroSha "user-2".toList "user-1:sha256:0".toList := by
  have hsegment : IsSegment "user-1".toList ∧ IsSegment "user-2".toList :=
    ⟨⟨by decide, by decide, List.forall_iff_forall_mem.mp (by decide), by decide, by decide⟩,
      ⟨by decide, by decide, List.forall_iff_forall_mem.mp (by decide), by decide, by decide⟩⟩
  obtain ⟨hprepared, hartifact, hforeign, hshared, -⟩ := objectNames_agree asciiTable zeroSha
  refine ⟨(hartifact "Dev:1".toList "mesh".toList "Bracket v2 (!)".toList (by decide) (by decide)
    (List.forall_iff_forall_mem.mp (by decide)) (List.forall_iff_forall_mem.mp (by decide))
    (List.forall_iff_forall_mem.mp (by decide))).mpr
      ⟨alike_of_apart (by decide), alike_of_apart (by decide), alike_of_apart (by decide)⟩,
    fun h => ?_, (hforeign "zoé-1".toList ?_).1 [], fun h => ?_⟩
  · have halike := (hprepared "dev:@one".toList [] (by decide) (List.forall_iff_forall_mem.mp (by decide))).mp h
    exact absurd (halike "dev".toList ':' '@' "one".toList (by decide) (by decide) (by decide)) (by decide)
  · exact ⟨"zo".toList, 'é', "-1".toList, rfl, List.forall_iff_forall_mem.mp (by decide), by decide,
      ⟨'é', by decide, by decide⟩, by decide⟩
  · have hname : (Worker.preparedNames asciiTable zeroSha (some "user-1".toList) []).cacheKey =
        some "user-1:sha256:0".toList := by decide
    have hown : CacheKeyOf asciiTable zeroSha "user-1".toList "user-1:sha256:0".toList := .policy hname
    exact absurd (hshared _ _ _ _ hsegment.1 hsegment.2 hown h rfl) (by decide)

/-- Two characters in a row that are replaced are one hyphen to the gateway and two to the worker, and two user ids
that differ in case share their prefix. -/
theorem runs_named_apart :
    (Worker.preparedNames asciiTable zeroSha (some "dev:@one".toList) []).objectKey =
        "users/dev--one/policy-onnx/0".toList ∧
      (preparedNames asciiTable zeroSha "dev:@one".toList []).objectKey = "users/dev-one/policy-onnx/0".toList ∧
      blobCacheKey asciiTable "Ada".toList "k".toList [] = blobCacheKey asciiTable "ada".toList "k".toList [] := by
  decide

end Forge.Gateway
