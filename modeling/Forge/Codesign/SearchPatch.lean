import Forge.Contract.Patch
import Forge.Json.Pretty

/-!
# Patches in the co-design worker

The worker applies the replace operations of a search patch on its own, twice: `apply_search_patch` to
the candidates that it proposes itself and `_apply_patch` to the candidates of an external search. The
result is then validated with `forge-contract`, whose own patches are `Forge.Contract.Patch`.

The walk is the same in the three, up to the tokens that name an array index: Rust parses a `usize`,
which may have a `+` in front; Python asks `str.isdigit` and calls `int`, which read the digits of every
script. **`search_patches_agree`**: apart from such tokens, the worker's functions do what
`forge-contract` does, behind guards of their own on the pointers, and in `_apply_patch` on the number of
operations and the length of their paths.

Python's documents are dictionaries, compared without regard to the order of their members.
-/

namespace Forge.Codesign

/-! ### Digits -/

/-- What `str.isdigit` and `int` know of Unicode: which characters are digits, and the value of the
decimal ones. Below 128 these are the digits of ASCII. -/
structure DigitTable where
  isDigit : Char → Bool
  decimal : Char → Option ℕ
  isDigit_ascii : ∀ c : Char, c.toNat < 128 → isDigit c = c.isDigit
  decimal_ascii : ∀ c : Char, c.isDigit = true → decimal c = some (c.toNat - 48)

section

variable (u : DigitTable)

/-- `token.isdigit()` -/
def isdigit (token : String) : Bool := !token.toList.isEmpty && token.toList.all u.isDigit

/-- `int(token)`, for a token that `isdigit` accepts. -/
def int (token : String) : Except String ℕ :=
  if 4300 < token.toList.length then .error "Exceeds the limit (4300 digits) for integer string conversion"
  else
    match token.toList.mapM u.decimal with
    | none => .error s!"invalid literal for int() with base 10: '{token}'"
    | some values => .ok (values.foldl (fun n value => 10 * n + value) 0)

/-- The index that a token stands for. -/
def index (token : String) : Option ℕ := if isdigit u token then (int u token).toOption else none

/-! ### The walk -/

/-- The messages of one of the two functions. -/
structure PatchTexts where
  pointer : String
  index : String
  absent : String
  leafIndex : String
  target : String
  object : String

/-- `_pointer_tokens` -/
def pointerTokens (texts : PatchTexts) (path : String) : Except String (List String) :=
  if path.toList.head? ≠ some '/' ∨ path.toList = ['/'] then .error texts.pointer
  else .ok ((path.toList.tail.splitOn '/').map Contract.unescapeToken)

/-- The index of an element of a list of `length` elements. -/
def listIndex (outside token : String) (length : ℕ) : Except String ℕ := do
  if !isdigit u token then .error outside
  let i ← int u token
  if length ≤ i then .error outside else .ok i

/-- One turn of the loop over `tokens[:-1]`. -/
def descend (texts : PatchTexts) (token : String) : Json → Except String Json
  | .array xs => do
    let i ← listIndex u texts.index token xs.length
    .ok (xs.getD i .null)
  | .object ms =>
    match Assoc.get token ms with
    | some child => .ok child
    | none => .error texts.absent
  | _ => .error texts.absent

/-- The replacement at `tokens[-1]`. -/
def replaceLeaf (texts : PatchTexts) (value : Json) (leaf : String) : Json → Except String Json
  | .array xs => do
    let i ← listIndex u texts.leafIndex leaf xs.length
    .ok (.array (xs.set i value))
  | .object ms =>
    match Assoc.get leaf ms with
    | some _ => .ok (.object (Assoc.insert leaf value ms))
    | none => .error texts.target
  | _ => .error texts.target

/-- Walk down the tokens and replace at the last; the document is rewritten on the way back. -/
def replaceAt (texts : PatchTexts) (value : Json) : List String → Json → Except String Json
  | [], parent => .ok parent
  | [leaf], parent => replaceLeaf u texts value leaf parent
  | token :: tokens, parent => do
    let child ← descend u texts token parent
    let child ← replaceAt texts value tokens child
    .ok (Json.setChild (index u) token child parent)

/-- One replace operation. -/
def applyReplace (texts : PatchTexts) (result : Json) (operation : String × Json) : Except String Json := do
  let tokens ← pointerTokens texts operation.1
  replaceAt u texts operation.2 tokens result

/-- The document is still an object. -/
def requireObject (texts : PatchTexts) (result : Json) : Except String Json :=
  match result with
  | .object _ => .ok result
  | _ => .error texts.object

/-! ### The two functions -/

/-- The messages of `apply_search_patch`. -/
def searchTexts : PatchTexts where
  pointer := "co-design search patch path must be a non-root JSON Pointer"
  index := "co-design search patch index is outside the contract"
  absent := "co-design search patch path is absent"
  leafIndex := "co-design search patch leaf is outside the contract"
  target := "co-design search patch replace target is absent"
  object := "co-design search patch did not preserve a contract object"

/-- `apply_search_patch`, for operations that are exact replacements. -/
def applySearchPatch (contract : List (String × Json)) (patch : List (String × Json)) : Except String Json := do
  let result ← patch.foldlM (applyReplace u searchTexts) (.object contract)
  requireObject searchTexts result

/-- The messages of `_apply_patch`. -/
def externalTexts : PatchTexts where
  pointer := "co-design patch path must be a non-root JSON Pointer"
  index := "external co-design patch index is outside the contract"
  absent := "external co-design patch path is absent"
  leafIndex := "external co-design patch leaf index is outside the contract"
  target := "external co-design patch replace target is absent"
  object := "external co-design patch did not preserve a contract object"

def maxPatchOperations : ℕ := 256

/-- The limit of a path in UTF-8 bytes. -/
def maxPathBytes : ℕ := 512

/-- One turn of the loop of `_apply_patch`. -/
def applyExternal (result : Json) (operation : String × Json) : Except String Json :=
  if maxPathBytes < utf8Length operation.1.toList then .error "external co-design patch path is invalid"
  else applyReplace u externalTexts result operation

/-- `_apply_patch`, for operations that are exact replacements. -/
def applyPatch (document : List (String × Json)) (operations : List (String × Json)) : Except String Json :=
  if ¬ (1 ≤ operations.length ∧ operations.length ≤ maxPatchOperations) then
    .error "external co-design patch operation count is invalid"
  else do
    let result ← operations.foldlM (applyExternal u) (.object document)
    requireObject externalTexts result

end

/-! ### The walk without its messages -/

section

variable {u : DigitTable} {texts : PatchTexts}

/-- The path starts with a slash and is more than that. -/
def NonRoot (path : String) : Prop := path.toList.head? = some '/' ∧ path.toList ≠ ['/']

instance (path : String) : Decidable (NonRoot path) :=
  inferInstanceAs (Decidable (path.toList.head? = some '/' ∧ path.toList ≠ ['/']))

theorem pointerTokens_eq_ok {path : String} {tokens : List String} (h : pointerTokens texts path = .ok tokens) :
    NonRoot path := by
  rw [pointerTokens] at h
  split at h
  · cases h
  · next hpath =>
    rw [not_or, not_not] at hpath
    exact hpath

/-- A pointer that is not to the root has tokens, the ones of `split_pointer`. -/
theorem pointerTokens_of_nonRoot (texts : PatchTexts) {path : String} (h : NonRoot path) :
    ∃ tokens, tokens ≠ [] ∧ pointerTokens texts path = .ok tokens ∧ Contract.splitPointer path = .ok tokens := by
  obtain ⟨hhead, hroot⟩ := h
  refine ⟨(path.toList.tail.splitOn '/').map Contract.unescapeToken, ?_, ?_, ?_⟩
  · rw [Ne, List.map_eq_nil_iff]
    exact List.splitOn_ne_nil _ _
  · rw [pointerTokens, if_neg (by rw [not_or, not_not]; exact ⟨hhead, hroot⟩)]
  · obtain ⟨rest, hpath⟩ : ∃ rest, path.toList = '/' :: rest := by
      cases hcs : path.toList with
      | nil => rw [hcs] at hhead; cases hhead
      | cons c rest =>
        rw [hcs] at hhead
        obtain rfl := Option.some.inj hhead
        exact ⟨rest, rfl⟩
    rw [Contract.splitPointer, hpath]
    rfl

theorem listIndex_toOption (outside token : String) (length : ℕ) :
    (listIndex u outside token length).toOption =
      (index u token).bind fun i => if i < length then some i else none := by
  unfold listIndex index
  cases hdigit : isdigit u token with
  | false => rfl
  | true =>
    cases hint : int u token with
    | error message => rfl
    | ok i =>
      by_cases hi : i < length
      · simp [hi, Nat.not_le.mpr hi]
      · simp [hi, Nat.not_lt.mp hi]

theorem descend_toOption (token : String) (parent : Json) :
    (descend u texts token parent).toOption = Json.child (index u) token parent := by
  cases parent with
  | object ms => cases h : Assoc.get token ms <;> simp [descend, Json.child, h]
  | array xs =>
    rw [descend, toOption_bind, listIndex_toOption, Json.child, Option.bind_assoc]
    congr 1
    funext i
    by_cases hi : i < xs.length
    · simp [hi]
    · simp [hi]
  | _ => rfl

theorem replaceLeaf_toOption (value : Json) (leaf : String) (parent : Json) :
    (replaceLeaf u texts value leaf parent).toOption =
      Json.modify (index u) (fun _ => some value) [leaf] parent := by
  rw [Json.modify]
  cases parent with
  | object ms => cases h : Assoc.get leaf ms <;> simp [replaceLeaf, Json.child, Json.modify, Json.setChild, h]
  | array xs =>
    rw [replaceLeaf, toOption_bind, listIndex_toOption, Json.child, Option.bind_assoc, Option.bind_assoc]
    cases hindex : index u leaf with
    | none => rfl
    | some i =>
      by_cases hi : i < xs.length
      · simp [hi, Json.modify, Json.setChild, hindex]
      · simp [hi]
  | _ => rfl

theorem replaceAt_toOption (value : Json) {tokens : List String} (hne : tokens ≠ []) (parent : Json) :
    (replaceAt u texts value tokens parent).toOption = Json.modify (index u) (fun _ => some value) tokens parent := by
  induction tokens generalizing parent with
  | nil => exact absurd rfl hne
  | cons token tokens ih =>
    cases tokens with
    | nil => exact replaceLeaf_toOption value token parent
    | cons next tokens =>
      rw [replaceAt, toOption_bind, descend_toOption, Json.modify]
      · congr 1
        funext child
        rw [toOption_bind, ih (List.cons_ne_nil _ _)]
        cases Json.modify (index u) (fun _ => some value) (next :: tokens) child <;> rfl
      · exact fun h => by cases h

/-! ### Tokens that are read alike -/

/-- The token has no `+` in front, no digits but those of ASCII, and no more characters than `int` reads. -/
def PlainToken (u : DigitTable) (token : String) : Prop :=
  token.toList.head? ≠ some '+' ∧ (∀ c ∈ token.toList, u.isDigit c = true → c.toNat < 128) ∧
    token.toList.length ≤ 4300

theorem toNat_lt_of_isDigit {c : Char} (h : c.isDigit = true) : c.toNat < 128 := by
  have h' : c.toNat ≤ '9'.toNat := (Bool.and_eq_true_iff.mp h).2 |> of_decide_eq_true
  exact h'.trans_lt (by decide)

theorem mapM_decimal {cs : List Char} (h : ∀ c ∈ cs, c.isDigit = true) :
    cs.mapM u.decimal = some (cs.map fun c => c.toNat - 48) := by
  induction cs with
  | nil => rfl
  | cons c cs ih =>
    obtain ⟨hc, hcs⟩ := List.forall_mem_cons.mp h
    rw [List.mapM_cons, u.decimal_ascii c hc, ih hcs]
    rfl

/-- A plain token is an index of both languages, below the range of `usize`. -/
theorem index_iff_parseUsize {w : ℕ} {token : String} (h : PlainToken u token) (i : ℕ) (hi : i < 2 ^ w) :
    index u token = some i ↔ Contract.parseUsize w token = some i := by
  obtain ⟨hplus, hascii, hlength⟩ := h
  have hdigits : isdigit u token = true ↔ token.toList ≠ [] ∧ token.toList.all Char.isDigit = true := by
    rw [isdigit, Bool.and_eq_true, List.all_eq_true, List.all_eq_true, Bool.not_eq_true', List.isEmpty_eq_false_iff]
    refine and_congr_right fun _ => forall₂_congr fun c hc => ⟨fun hu => ?_, fun hd => ?_⟩
    · exact (u.isDigit_ascii c (hascii c hc hu)).symm.trans hu
    · exact (u.isDigit_ascii c (toNat_lt_of_isDigit hd)).trans hd
  have hunsigned : Contract.parseUsize w token = Text.digits (2 ^ w) token.toList := by
    rw [Contract.parseUsize, Text.unsigned.eq_def]
    split
    · next cs hcs => exact absurd (by rw [hcs]; rfl) hplus
    · rfl
  rw [hunsigned, Text.digits, index]
  by_cases hd : isdigit u token = true
  · obtain ⟨hne, hall⟩ := hdigits.mp hd
    have hint : int u token = .ok (Nat.ofDigitChars 10 token.toList 0) := by
      rw [int, if_neg (by omega), mapM_decimal (List.all_eq_true.mp hall)]
      show Except.ok ((token.toList.map fun c => c.toNat - 48).foldl (fun n value => 10 * n + value) 0) = _
      rw [List.foldl_map]
      rfl
    rw [if_pos hd, hint, toOption_ok]
    constructor
    · intro h
      obtain rfl := Option.some.inj h
      rw [if_pos ⟨hne, hall, hi⟩]
    · intro h
      split at h
      · exact h
      · cases h
  · rw [if_neg hd, if_neg fun h => hd (hdigits.mpr ⟨h.1, h.2.1⟩)]

/-- Every token of the path that meets an array is plain. -/
def PlainPath (u : DigitTable) (w : ℕ) (doc : Json) (path : String) : Prop :=
  ∀ tokens, Contract.splitPointer path = .ok tokens → doc.Meets (PlainToken u) (Contract.parseUsize w) tokens

/-- The paths are plain for every operation that is reached. -/
def PlainPaths (u : DigitTable) (w : ℕ) (doc : Json) : List (String × Json) → Prop
  | [] => True
  | op :: ops => PlainPath u w doc op.1 ∧
      ∀ doc', Contract.applyOne w doc (.replace op.1 op.2) = .ok doc' → PlainPaths u w doc' ops

theorem applyOne_replace_toOption (w : ℕ) (doc value : Json) {path : String} {tokens : List String}
    (h : Contract.splitPointer path = .ok tokens) : (Contract.applyOne w doc (.replace path value)).toOption =
      Json.modify (Contract.parseUsize w) (fun _ => some value) tokens doc := by
  rw [Contract.applyOne, toOption_bind, h, toOption_ok, Option.bind_some, Contract.modifyAt_toOption]
  rfl

/-- One operation on a plain path. -/
theorem applyReplace_agrees {w : ℕ} {doc : Json} {op : String × Json} (hdoc : doc.Fits (2 ^ w))
    (hroot : NonRoot op.1) (hplain : PlainPath u w doc op.1) :
    (applyReplace u texts doc op).toOption = (Contract.applyOne w doc (.replace op.1 op.2)).toOption := by
  obtain ⟨tokens, hne, htokens, hsplit⟩ := pointerTokens_of_nonRoot texts hroot
  rw [applyOne_replace_toOption w doc op.2 hsplit, applyReplace, htokens]
  show (replaceAt u texts op.2 tokens doc).toOption = _
  rw [replaceAt_toOption op.2 hne]
  exact Json.modify_congr (fun token => index_iff_parseUsize) hdoc (hplain tokens hsplit)

/-! ### Lists of operations -/

/-- An operation of `forge-contract`. -/
def replaceOp (op : String × Json) : Contract.PatchOp := .replace op.1 op.2

theorem applyReplace_nonRoot {doc doc' : Json} {op : String × Json} (h : applyReplace u texts doc op = .ok doc') :
    NonRoot op.1 := by
  obtain ⟨tokens, htokens, -⟩ := bind_eq_ok.mp h
  exact pointerTokens_eq_ok htokens

/-- A replacement below the root of an object leaves an object. -/
theorem isObject_applyOne {w : ℕ} {ms : List (String × Json)} {d : Json} {op : String × Json} (hroot : NonRoot op.1)
    (h : Contract.applyOne w (.object ms) (replaceOp op) = .ok d) : ∃ ms', d = .object ms' := by
  obtain ⟨tokens, hne, -, hsplit⟩ := pointerTokens_of_nonRoot searchTexts hroot
  rw [replaceOp, ← toOption_eq_some_iff, applyOne_replace_toOption w _ op.2 hsplit] at h
  cases tokens with
  | nil => exact absurd rfl hne
  | cons token tokens =>
    obtain ⟨c, -, h⟩ := Option.bind_eq_some_iff.mp h
    obtain ⟨c', -, rfl⟩ := Option.map_eq_some_iff.mp h
    exact ⟨_, rfl⟩

/-- Replacing keeps the document within the address space. -/
theorem fits_applyOne {w : ℕ} {doc d : Json} {op : String × Json} (hdoc : doc.Fits (2 ^ w)) (hop : op.2.Fits (2 ^ w))
    (h : Contract.applyOne w doc (replaceOp op) = .ok d) : d.Fits (2 ^ w) := by
  obtain ⟨tokens, hsplit, -⟩ := bind_eq_ok.mp h
  rw [replaceOp, ← toOption_eq_some_iff, applyOne_replace_toOption w _ op.2 hsplit] at h
  exact hdoc.replace hop h

/-- The operations one after the other, when all paths are pointers below the root. -/
theorem foldlM_agrees {w : ℕ} (i : ℕ) {ops : List (String × Json)} {ms : List (String × Json)}
    (hdoc : Json.Fits (2 ^ w) (.object ms)) (hops : ∀ op ∈ ops, op.2.Fits (2 ^ w)) (hroot : ∀ op ∈ ops, NonRoot op.1)
    (hplain : PlainPaths u w (.object ms) ops) :
    (ops.foldlM (applyReplace u texts) (.object ms) >>= requireObject texts).toOption =
      (Contract.applyOps w i (.object ms) (ops.map replaceOp)).toOption := by
  induction ops generalizing i ms with
  | nil => rfl
  | cons op ops ih =>
    obtain ⟨hpath, hrest⟩ := hplain
    obtain ⟨hroot, hroots⟩ := List.forall_mem_cons.mp hroot
    obtain ⟨hop, hops⟩ := List.forall_mem_cons.mp hops
    have hstep : (applyReplace u texts (.object ms) op).toOption = _ := applyReplace_agrees hdoc hroot hpath
    rw [List.map_cons, Contract.applyOps_cons_toOption, List.foldlM_cons, bind_assoc, toOption_bind, hstep]
    cases hd : Contract.applyOne w (.object ms) (replaceOp op) with
    | error message =>
      rw [replaceOp] at hd
      rw [hd]
      rfl
    | ok d =>
      obtain ⟨ms', rfl⟩ := isObject_applyOne hroot hd
      have hfits := fits_applyOne hdoc hop hd
      rw [replaceOp] at hd
      rw [hd]
      exact ih (i + 1) hfits hops hroots (hrest _ hd)

/-- A list with a guarded operation fails. -/
theorem foldlM_guard_toOption {P : String × Json → Prop} [DecidablePred P]
    {f g : Json → String × Json → Except String Json}
    (hguard : ∀ d op d', f d op = .ok d' → P op) (hsame : ∀ d op, P op → (f d op).toOption = (g d op).toOption)
    (ops : List (String × Json)) (d : Json) :
    (ops.foldlM f d).toOption = if ∀ op ∈ ops, P op then (ops.foldlM g d).toOption else none := by
  induction ops generalizing d with
  | nil => simp
  | cons op ops ih =>
    rw [List.foldlM_cons, toOption_bind]
    by_cases hop : P op
    · rw [hsame d op hop, List.foldlM_cons, toOption_bind]
      cases hg : (g d op).toOption with
      | none => split <;> rfl
      | some d' =>
        rw [Option.bind_some, Option.bind_some, ih]
        simp only [List.forall_mem_cons, hop, true_and]
    · have hf : (f d op).toOption = none := by
        cases hf : f d op with
        | error message => rfl
        | ok d' => exact absurd (hguard d op d' hf) hop
      rw [hf, if_neg fun h => hop (h op List.mem_cons_self)]
      rfl

end

/-- **Key result**: both functions of the worker do what `forge-contract` does with the same operations, where
all the paths are pointers below the root and, for `_apply_patch`, are within its limits; elsewhere they fail.
The document and the values are held in memory, so their arrays are shorter than `2 ^ w`. -/
theorem search_patches_agree (u : DigitTable) (w : ℕ) (contract : List (String × Json)) (ops : List (String × Json))
    (hcontract : Json.Fits (2 ^ w) (.object contract)) (hops : ∀ op ∈ ops, op.2.Fits (2 ^ w))
    (hplain : PlainPaths u w (.object contract) ops) :
    (applySearchPatch u contract ops).toOption =
      (if ∀ op ∈ ops, NonRoot op.1 then
        (Contract.applyOps w 0 (.object contract) (ops.map replaceOp)).toOption else none) ∧
    (applyPatch u contract ops).toOption =
      (if (1 ≤ ops.length ∧ ops.length ≤ maxPatchOperations) ∧
          ∀ op ∈ ops, NonRoot op.1 ∧ utf8Length op.1.toList ≤ maxPathBytes then
        (Contract.applyOps w 0 (.object contract) (ops.map replaceOp)).toOption else none) := by
  constructor
  · rw [applySearchPatch, toOption_bind, foldlM_guard_toOption (P := fun op => NonRoot op.1)
      (fun _ _ _ => applyReplace_nonRoot) (fun _ _ _ => rfl)]
    split
    · next hroot =>
      rw [← toOption_bind]
      exact foldlM_agrees 0 hcontract hops hroot hplain
    · rfl
  · rw [applyPatch]
    by_cases hcount : 1 ≤ ops.length ∧ ops.length ≤ maxPatchOperations
    · rw [if_neg (not_not.mpr hcount), toOption_bind, foldlM_guard_toOption
        (P := fun op => NonRoot op.1 ∧ utf8Length op.1.toList ≤ maxPathBytes) (g := applyReplace u externalTexts)]
      · simp only [hcount, true_and]
        split
        · next hguard =>
          rw [← toOption_bind]
          exact foldlM_agrees 0 hcontract hops (fun op hop => (hguard op hop).1) hplain
        · rfl
      · intro d op d' h
        obtain ⟨hsize, h⟩ := ite_error_eq_ok.mp h
        exact ⟨applyReplace_nonRoot h, not_lt.mp hsize⟩
      · intro d op hop
        rw [applyExternal, if_neg (not_lt.mpr hop.2)]
    · rw [if_pos hcount, if_neg fun h => hcount h.1]
      rfl

/-- The digits of ASCII and no others. -/
def asciiDigits : DigitTable where
  isDigit := Char.isDigit
  decimal c := if c.isDigit then some (c.toNat - 48) else none
  isDigit_ascii _ _ := rfl
  decimal_ascii _ h := if_pos h

theorem search_patches_agree_frame :
    let contract : List (String × Json) := [("parts", .array [.null])]
    let ops : List (String × Json) := [("/parts/0", .bool true)]
    (applySearchPatch asciiDigits contract ops).toOption = some (.object [("parts", .array [.bool true])]) ∧
      (applyPatch asciiDigits contract ops).toOption = some (.object [("parts", .array [.bool true])]) := by
  have h := search_patches_agree asciiDigits 64 [("parts", .array [.null])] [("/parts/0", .bool true)]
    (by simp [Json.Fits]) (by simp [Json.Fits]) ?_
  · have hcode : (Contract.applyOps 64 0 (.object [("parts", .array [.null])])
        [.replace "/parts/0" (.bool true)]).toOption = some (.object [("parts", .array [.bool true])]) := by
      decide +kernel
    refine ⟨h.1.trans ?_, h.2.trans ?_⟩
    · rw [if_pos (by decide +kernel)]
      exact hcode
    · rw [if_pos (by decide +kernel)]
      exact hcode
  · refine ⟨fun tokens htokens => ?_, fun _ _ => trivial⟩
    have hsplit : Contract.splitPointer "/parts/0" = .ok ["parts", "0"] := by decide +kernel
    obtain rfl := Except.ok.inj (htokens.symm.trans hsplit)
    refine ⟨fun _ h => (by cases h), fun c hc => ⟨fun _ _ => ?_, fun _ _ => trivial⟩⟩
    exact ⟨by decide +kernel, fun _ _ hdigit => toNat_lt_of_isDigit hdigit, by decide +kernel⟩

/-- At the root `forge-contract` replaces the document; the worker refuses. -/
theorem root_replace_refused :
    Contract.applyOps 64 0 (.object []) [.replace "" (.object [("meta", .null)])] = .ok (.object [("meta", .null)]) ∧
      applySearchPatch asciiDigits [] [("", .object [("meta", .null)])] =
        .error "co-design search patch path must be a non-root JSON Pointer" ∧
      applyPatch asciiDigits [] [("", .object [("meta", .null)])] =
        .error "co-design patch path must be a non-root JSON Pointer" := by
  decide +kernel

end Forge.Codesign
