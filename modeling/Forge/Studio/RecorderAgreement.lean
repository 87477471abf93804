import Forge.Desktop.ArchiveSize
import Forge.Studio.RecorderStart

/-!
# Recorder requests: the studio and the desktop

What the studio's checks establish (`Accepted`) is all that the desktop's ask for. The two count the
values of an environment alike, but measure its text after different serialisers; `received_within`
bridges them, for numbers that `serde_json` does not make longer. **`recorder_requests_agree`** is the
comparison, for requests and for custody paths.
-/

namespace Forge.Desktop

/-! ### Counting nodes -/

theorem boundedList_of_le {spell : Spelling} {xs : List Json}
    (h : ∀ x ∈ xs, ∀ depth nodes, nodes + (x.tokens spell).nodes ≤ 2048 → (x.tokens spell).depth + depth ≤ 32 →
      boundedJsonNodes x depth nodes = .ok (nodes + (x.tokens spell).nodes))
    {depth nodes : ℕ} (hnodes : nodes + Tree.nodesList (Json.tokensList spell xs) ≤ 2048)
    (hdepth : ∀ x ∈ xs, (x.tokens spell).depth + depth ≤ 32) :
    boundedList xs depth nodes = .ok (nodes + Tree.nodesList (Json.tokensList spell xs)) := by
  induction xs generalizing nodes with
  | nil => rfl
  | cons x xs ih =>
    obtain ⟨hx, hxs⟩ := List.forall_mem_cons.mp h
    obtain ⟨hd, hds⟩ := List.forall_mem_cons.mp hdepth
    rw [Json.tokensList, Tree.nodesList] at hnodes ⊢
    rw [boundedList, hx depth nodes (by omega) hd, ← Nat.add_assoc]
    exact ih hxs (by omega) hds

theorem boundedMembers_of_le {spell : Spelling} {ms : List (String × Json)}
    (h : ∀ e ∈ ms, ∀ depth nodes, nodes + (e.2.tokens spell).nodes ≤ 2048 → (e.2.tokens spell).depth + depth ≤ 32 →
      boundedJsonNodes e.2 depth nodes = .ok (nodes + (e.2.tokens spell).nodes))
    {depth nodes : ℕ} (hnodes : nodes + Tree.nodesMembers (Json.tokensMembers spell ms) ≤ 2048)
    (hdepth : ∀ e ∈ ms, (e.2.tokens spell).depth + depth ≤ 32) :
    boundedMembers ms depth nodes = .ok (nodes + Tree.nodesMembers (Json.tokensMembers spell ms)) := by
  induction ms generalizing nodes with
  | nil => rfl
  | cons e ms ih =>
    obtain ⟨he, hms⟩ := List.forall_mem_cons.mp h
    obtain ⟨hd, hds⟩ := List.forall_mem_cons.mp hdepth
    rw [Json.tokensMembers, Tree.nodesMembers] at hnodes ⊢
    rw [boundedMembers, he depth nodes (by omega) hd, ← Nat.add_assoc]
    exact ih hms (by omega) hds

/-- `bounded_json_nodes` accepts what is within its bounds. -/
theorem boundedJsonNodes_of_le (spell : Spelling) (value : Json) (depth nodes : ℕ)
    (hnodes : nodes + (value.tokens spell).nodes ≤ 2048) (hdepth : (value.tokens spell).depth + depth ≤ 32) :
    boundedJsonNodes value depth nodes = .ok (nodes + (value.tokens spell).nodes) := by
  induction value generalizing depth nodes with
  | array xs ih =>
    rw [Json.tokens, Tree.nodes] at hnodes
    rw [Json.tokens, Tree.depth] at hdepth
    have hall : ∀ x ∈ xs, (x.tokens spell).depth + (depth + 1) ≤ 32 := fun x hx => by
      have hx := Tree.depthList_le_iff.mp (le_refl (Tree.depthList (Json.tokensList spell xs))) (x.tokens spell)
        (by rw [Json.tokensList_eq]; exact List.mem_map_of_mem hx)
      omega
    rw [boundedJsonNodes, if_neg (by omega), if_neg (by omega), Json.tokens, Tree.nodes, ← Nat.add_assoc]
    exact boundedList_of_le ih (by omega) hall
  | object ms ih =>
    rw [Json.tokens, Tree.nodes] at hnodes
    rw [Json.tokens, Tree.depth] at hdepth
    have hall : ∀ e ∈ ms, (e.2.tokens spell).depth + (depth + 1) ≤ 32 := fun e he => by
      have he := Tree.depthMembers_le_iff.mp (le_refl (Tree.depthMembers (Json.tokensMembers spell ms)))
        (stringToken e.1, e.2.tokens spell) (by rw [Json.tokensMembers_eq]; exact List.mem_map_of_mem he)
      dsimp only at he
      omega
    rw [boundedJsonNodes, if_neg (by omega), if_neg (by omega), Json.tokens, Tree.nodes, ← Nat.add_assoc]
    exact boundedMembers_of_le ih (by omega) hall
  | null | bool | string =>
    rw [Json.tokens, Tree.nodes] at hnodes
    rw [boundedJsonNodes, if_neg (by omega), if_neg (by omega)]
    · rfl
    all_goals exact fun _ h => by cases h
  | number n =>
    cases n <;> rw [Json.tokens, Tree.nodes] at hnodes
    all_goals
      rw [boundedJsonNodes, if_neg (by omega), if_neg (by omega)]
      · rfl
      all_goals exact fun _ h => by cases h

end Forge.Desktop

namespace Forge.Studio

theorem visitList_eq_ok {ts : List (Tree String JsScalar)}
    (h : ∀ t ∈ ts, ∀ depth nodes nodes', visit t depth nodes = .ok nodes' →
      nodes' = nodes + (stringify t).nodes ∧ nodes' ≤ 2048 ∧ (stringify t).depth + depth ≤ 32)
    {depth nodes nodes' : ℕ} (hnodes : nodes ≤ 2048) (hok : visitList ts depth nodes = .ok nodes') :
    nodes' = nodes + Tree.nodesList (stringifyList ts) ∧ nodes' ≤ 2048 ∧
      ∀ t ∈ ts, (stringify t).depth + depth ≤ 32 := by
  induction ts generalizing nodes with
  | nil =>
    rw [visitList] at hok
    obtain rfl := Except.ok.inj hok
    exact ⟨rfl, hnodes, fun _ ht => absurd ht List.not_mem_nil⟩
  | cons t ts ih =>
    obtain ⟨ht, hts⟩ := List.forall_mem_cons.mp h
    rw [visitList, bind_eq_ok] at hok
    obtain ⟨middle, hmiddle, hrest⟩ := hok
    obtain ⟨hcount, hle, hdepth⟩ := ht _ _ _ hmiddle
    obtain ⟨hcount', hle', hdepth'⟩ := ih hts hle hrest
    rw [stringifyList, Tree.nodesList]
    exact ⟨by omega, hle', List.forall_mem_cons.mpr ⟨hdepth, hdepth'⟩⟩

theorem visitMembers_eq_ok {ms : List (String × Tree String JsScalar)}
    (h : ∀ e ∈ ms, ∀ depth nodes nodes', visit e.2 depth nodes = .ok nodes' →
      nodes' = nodes + (stringify e.2).nodes ∧ nodes' ≤ 2048 ∧ (stringify e.2).depth + depth ≤ 32)
    {depth nodes nodes' : ℕ} (hnodes : nodes ≤ 2048) (hok : visitMembers ms depth nodes = .ok nodes') :
    nodes' = nodes + Tree.nodesMembers (stringifyMembers ms) ∧ nodes' ≤ 2048 ∧
      ∀ e ∈ ms, (stringify e.2).depth + depth ≤ 32 := by
  induction ms generalizing nodes with
  | nil =>
    rw [visitMembers] at hok
    obtain rfl := Except.ok.inj hok
    exact ⟨rfl, hnodes, fun _ he => absurd he List.not_mem_nil⟩
  | cons e ms ih =>
    obtain ⟨he, hms⟩ := List.forall_mem_cons.mp h
    rw [visitMembers, bind_eq_ok] at hok
    obtain ⟨middle, hmiddle, hrest⟩ := hok
    obtain ⟨hcount, hle, hdepth⟩ := he _ _ _ hmiddle
    obtain ⟨hcount', hle', hdepth'⟩ := ih hms hle hrest
    rw [stringifyMembers, Tree.nodesMembers]
    exact ⟨by omega, hle', List.forall_mem_cons.mpr ⟨hdepth, hdepth'⟩⟩

/-- `visit` counts the values and bounds how deep they lie. -/
theorem visit_eq_ok {t : Tree String JsScalar} {depth nodes nodes' : ℕ} (h : visit t depth nodes = .ok nodes') :
    nodes' = nodes + (stringify t).nodes ∧ nodes' ≤ 2048 ∧ (stringify t).depth + depth ≤ 32 := by
  induction t generalizing depth nodes nodes' with
  | leaf a =>
    have hcount : ¬(32 < depth ∨ 2048 < nodes + 1) ∧ nodes + 1 = nodes' := by
      cases a with
      | number x =>
        rw [visit, ite_error_eq_ok] at h
        refine ⟨h.1, ?_⟩
        have h := h.2
        split at h
        · exact Except.ok.inj h
        · cases h
      | other =>
        rw [visit, ite_error_eq_ok] at h
        cases h.2
      | null | bool | string =>
        rw [visit, ite_error_eq_ok] at h
        · exact ⟨h.1, Except.ok.inj h.2⟩
        all_goals nofun
    rw [stringify, Tree.nodes, Tree.depth]
    omega
  | array ts ih =>
    rw [visit, ite_error_eq_ok] at h
    obtain ⟨hbounds, h⟩ := h
    obtain ⟨hcount, hle, hdeep⟩ := visitList_eq_ok (fun t ht _ _ _ => ih t ht) (by omega) h
    have hall : ∀ t ∈ stringifyList ts, t.depth + 1 ≤ 32 - depth := by
      rw [stringifyList_eq, List.forall_mem_map]
      intro t ht
      have := hdeep t ht
      omega
    have := Tree.depthList_le_iff.mpr hall
    rw [stringify, Tree.nodes, Tree.depth]
    omega
  | object ms ih =>
    rw [visit, ite_error_eq_ok] at h
    obtain ⟨hbounds, h⟩ := h
    obtain ⟨hcount, hle, hdeep⟩ := visitMembers_eq_ok (fun e he _ _ _ => ih e he) (by omega) h
    have hall : ∀ e ∈ stringifyMembers ms, e.2.depth + 1 ≤ 32 - depth := by
      rw [stringifyMembers_eq, List.forall_mem_map]
      intro e he
      have hle := hdeep e he
      show (stringify e.2).depth + 1 ≤ 32 - depth
      omega
    have := Tree.depthMembers_le_iff.mpr hall
    rw [stringify, Tree.nodes, Tree.depth]
    omega

/-! ### What the studio has checked -/

/-- A request that the studio has normalised and accepted. -/
structure Accepted (request : RecorderStartRequest) : Prop where
  artifactId : isToken request.artifactId = true
  outputDir : validAbsolutePath request.outputDir = true
  sampleRateHz : ∃ n, safeInteger request.sampleRateHz = some n ∧ 1 ≤ n ∧ n ≤ 1000
  referenceRigId : request.referenceRigId ∈ Desktop.d12Rigs
  physicalConfirmation : request.physicalConfirmation = "I consent to record this telemetry log"
  baud : safeInteger request.baud = some 115200
  contractHash : isSha256 request.contractHash = true
  lockfileHash : isSha256 request.lockfileHash = true
  record : isRecord request.environment = true
  nodes : (stringify request.environment).nodes ≤ 2048
  depth : (stringify request.environment).depth ≤ 32
  size : utf8Length (stringify request.environment).render ≤ 64 * 1024
  seed : ∃ n, safeInteger request.seed = some n ∧ 0 ≤ n

theorem validateBoundedEnvironment_eq_ok {value : Tree String JsScalar}
    (h : validateBoundedEnvironment value = .ok ()) : isRecord value = true ∧ (stringify value).nodes ≤ 2048 ∧
      (stringify value).depth ≤ 32 ∧ utf8Length (stringify value).render ≤ 64 * 1024 := by
  obtain ⟨hrecord, h⟩ := ite_error_eq_ok.mp h
  obtain ⟨count, hvisit, h⟩ := bind_eq_ok.mp h
  obtain ⟨hcount, hle, hdepth⟩ := visit_eq_ok hvisit
  have hsize := (ite_error_eq_ok.mp h).1
  refine ⟨?_, by omega, by omega, by omega⟩
  rwa [Bool.not_eq_true, Bool.not_eq_false'] at hrecord

theorem accepted_of_validate {request normal : RecorderStartRequest}
    (h : validateRecorderStartRequest request = .ok normal) : Accepted normal := by
  obtain ⟨hartifact, h⟩ := ite_error_eq_ok.mp h
  obtain ⟨hdir, h⟩ := ite_error_eq_ok.mp h
  obtain ⟨hrate, h⟩ := ite_error_eq_ok.mp h
  obtain ⟨hrig, h⟩ := ite_error_eq_ok.mp h
  obtain ⟨hconsent, h⟩ := ite_error_eq_ok.mp h
  obtain ⟨hport, h⟩ := ite_error_eq_ok.mp h
  obtain ⟨hhashes, h⟩ := ite_error_eq_ok.mp h
  obtain ⟨⟨⟩, henvironment, h⟩ := bind_eq_ok.mp h
  obtain ⟨hseed, h⟩ := ite_error_eq_ok.mp h
  obtain rfl := Except.ok.inj h
  obtain ⟨hrecord, hnodes, hdepth, hsize⟩ := validateBoundedEnvironment_eq_ok henvironment
  simp only [Bool.not_eq_true, Bool.not_eq_false', Option.any_eq_true, Bool.and_eq_true, decide_eq_true_eq]
    at hartifact hdir hrate hhashes hseed
  exact ⟨hartifact, hdir, hrate, not_not.mp hrig, not_not.mp hconsent, not_not.mp fun hb => hport (.inr (.inr hb)),
    hhashes.1, hhashes.2, hrecord, hnodes, hdepth, hsize, hseed⟩

/-- The environment passes as it is. -/
theorem environment_of_validate {request normal : RecorderStartRequest}
    (h : validateRecorderStartRequest request = .ok normal) : normal.environment = request.environment := by
  obtain ⟨-, h⟩ := ite_error_eq_ok.mp h
  obtain ⟨-, h⟩ := ite_error_eq_ok.mp h
  obtain ⟨-, h⟩ := ite_error_eq_ok.mp h
  obtain ⟨-, h⟩ := ite_error_eq_ok.mp h
  obtain ⟨-, h⟩ := ite_error_eq_ok.mp h
  obtain ⟨-, h⟩ := ite_error_eq_ok.mp h
  obtain ⟨-, h⟩ := ite_error_eq_ok.mp h
  obtain ⟨-, -, h⟩ := bind_eq_ok.mp h
  obtain ⟨-, h⟩ := ite_error_eq_ok.mp h
  exact (congrArg RecorderStartRequest.environment (Except.ok.inj h)).symm

/-! ### The desktop accepts -/

theorem utf8Length_of_plain {cs : List Char} (h : ∀ c ∈ cs, plainChar c = true) : utf8Length cs = cs.length :=
  utf8Length_of_ascii fun c hc => utf8Size_of_plain (h c hc)

theorem plainChar_of_hex {c : Char} (h : (('0' ≤ c && c ≤ '9') || ('a' ≤ c && c ≤ 'f')) = true) :
    plainChar c = true := by
  simp only [Bool.or_eq_true, Bool.and_eq_true, decide_eq_true_eq, Desktop.char_le_iff, Char.reduceToNat] at h
  exact plainChar_iff.mpr (by omega)

theorem isSha256Hex_of_isSha256 {value : String} (h : isSha256 value = true) : Desktop.isSha256Hex value = true := by
  obtain ⟨hlength, hall⟩ := Bool.and_eq_true_iff.mp h
  have hplain : ∀ c ∈ value.toList, plainChar c = true := fun c hc => plainChar_of_hex (List.all_eq_true.mp hall c hc)
  rw [Desktop.isSha256Hex, utf8Length_of_plain hplain, hall, hlength]
  rfl

theorem unsigned_of_safeInteger {bits : ℕ} {x : Float} {n : ℤ} (h : safeInteger x = some n) (hn : 0 ≤ n)
    (hbits : n < 2 ^ bits) : unsigned bits x = some n.toNat := by
  rw [unsigned, h, Option.bind_some, if_pos ⟨hn, hbits⟩]

theorem safeInteger_le {x : Float} {n : ℤ} (h : safeInteger x = some n) : |n| ≤ 2 ^ 53 - 1 := by
  unfold safeInteger at h
  split at h
  · next hx =>
    obtain rfl := Option.some.inj h
    exact hx.2.2
  · cases h

theorem not_isBlank_of_isAbsolute {path : String} (h : Desktop.isAbsolute path = true) :
    Desktop.isBlank path = false := by
  have hhead := of_decide_eq_true h
  rw [Desktop.isBlank]
  cases hcs : path.toList with
  | nil => rw [hcs] at hhead; cases hhead
  | cons c cs =>
    rw [hcs] at hhead
    obtain rfl := Option.some.inj hhead
    rfl

/-- **The desktop accepts** what the studio sends. -/
theorem Accepted.desktop {read : NumberReader} {spell : Spelling} (hread : ReadsIntegers read)
    {request : RecorderStartRequest} (h : Accepted request)
    (hposix : Desktop.isAbsolute request.outputDir = true) (hport : Desktop.isBlank request.port = false)
    (hcarried : request.environment.Everywhere (CarriedLeaf read spell)) :
    ∃ received, request.received read = some received ∧
      Desktop.validateRecorderRequest spell received true = .ok request.referenceRigId := by
  obtain ⟨rate, hrate, hrate1, hrate2⟩ := h.sampleRateHz
  obtain ⟨seed, hseed, hseed0⟩ := h.seed
  have hseedle := abs_le.mp (safeInteger_le hseed)
  obtain ⟨environment, henvironment, hwithin⟩ := received_within hread request.names hcarried
  refine ⟨_, by
    rw [RecorderStartRequest.received, unsigned_of_safeInteger hrate (by omega) (by omega),
      unsigned_of_safeInteger h.baud (by omega) (by omega), unsigned_of_safeInteger hseed hseed0 (by omega),
      henvironment]
    rfl, ?_⟩
  have htoken := Bool.and_eq_true_iff.mp h.artifactId
  have hlength := Bool.and_eq_true_iff.mp htoken.1
  have hchars := List.all_eq_true.mp htoken.2
  have hplain : utf8Length request.artifactId.toList = request.artifactId.toList.length :=
    utf8Length_of_plain fun c hc => Desktop.plainChar_of_isTokenChar (hchars c hc)
  have hempty : request.artifactId ≠ "" := fun he => by
    rw [he] at hlength
    exact absurd (of_decide_eq_true hlength.1) (by decide)
  have hdirlength : utf8Length request.outputDir.toList ≤ 4096 := by
    have hdir := h.outputDir
    simp only [validAbsolutePath, Bool.and_eq_true, decide_eq_true_eq] at hdir
    exact hdir.1.2
  have hobject : Desktop.isObject environment = true := by
    have hrecord := h.record
    generalize request.environment = sent at hrecord henvironment
    cases sent with
    | object ms =>
      obtain ⟨ms', -, rfl⟩ := Option.map_eq_some_iff.mp henvironment
      rfl
    | _ => cases hrecord
  have hnodes := Desktop.boundedJsonNodes_of_le spell environment 0 0
    (by rw [hwithin.nodes_eq, Nat.zero_add]; exact h.nodes) (hwithin.depth_le.trans h.depth)
  have hrate32 : (UInt32.ofNat rate.toNat).toNat = rate.toNat :=
    UInt32.toNat_ofNat_of_lt' (by show rate.toNat < 2 ^ 32; omega)
  simp only [Desktop.validateRecorderRequest, ite_error_eq_ok, bind_eq_ok, h.physicalConfirmation, hposix, hport,
    isSha256Hex_of_isSha256 h.contractHash, isSha256Hex_of_isSha256 h.lockfileHash, hobject, hnodes]
  refine ⟨not_not.mpr rfl, ?_, ?_, by decide, ?_, ?_, by decide, by decide, by decide, ?_, _, rfl, (), ?_, rfl⟩
  · rw [htoken.2, hplain]
    simp only [not_or, not_true_eq_false, not_false_eq_true, and_true]
    exact ⟨hempty, not_lt.mpr (of_decide_eq_true hlength.2)⟩
  · rw [not_isBlank_of_isAbsolute hposix]
    exact not_or.mpr ⟨by decide, not_lt.mpr hdirlength⟩
  · rw [UInt32.lt_iff_toNat_lt, UInt32.lt_iff_toNat_lt, hrate32]
    have hone : (1 : UInt32).toNat = 1 := rfl
    have hthousand : (1000 : UInt32).toNat = 1000 := rfl
    omega
  · exact not_or.mpr ⟨by decide, not_not.mpr rfl⟩
  · exact not_lt.mpr (hwithin.size_le.trans h.size)
  · rw [Desktop.requireD12Rig, if_pos h.referenceRigId]

/-! ### Paths -/

/-- The path, with single dots, double dots and repeated or trailing separators resolved. -/
def resolve (path : String) : List (List Char) :=
  (Desktop.components path).foldl (fun resolved c => if c = ['.', '.'] then resolved.dropLast else resolved ++ [c]) []

/-- The path is the directory, or lies in it. -/
def Inside (path directory : String) : Prop := resolve directory <+: resolve path

instance (path directory : String) : Decidable (Inside path directory) :=
  inferInstanceAs (Decidable (resolve directory <+: resolve path))

/-- The path never goes up. -/
def NoParent (path : String) : Prop := ['.', '.'] ∉ Desktop.components path

instance (path : String) : Decidable (NoParent path) :=
  inferInstanceAs (Decidable (['.', '.'] ∉ Desktop.components path))

theorem resolve_eq_components {path : String} (h : NoParent path) : resolve path = Desktop.components path := by
  have hfold : ∀ cs acc : List (List Char), ['.', '.'] ∉ cs →
      cs.foldl (fun resolved c => if c = ['.', '.'] then resolved.dropLast else resolved ++ [c]) acc = acc ++ cs := by
    intro cs
    induction cs with
    | nil => exact fun acc _ => (List.append_nil acc).symm
    | cons c cs ih =>
      intro acc hcs
      obtain ⟨hc, hcs⟩ := not_or.mp (mt List.mem_cons.mpr hcs)
      rw [List.foldl_cons, if_neg (Ne.symm hc), ih _ hcs, List.append_assoc]
      rfl
  exact hfold _ [] h

theorem not_inside_of_validate {spell : Spelling} {request : Desktop.RecorderCustodyStartRequest}
    (h : Desktop.validateCustodyStartRequest spell request = .ok ()) (hdir : NoParent request.recorder.outputDir)
    (hproof : NoParent request.custodyProofPath) : ¬Inside request.custodyProofPath request.recorder.outputDir := by
  obtain ⟨rig, -, h⟩ := bind_eq_ok.mp h
  obtain ⟨-, h⟩ := ite_error_eq_ok.mp h
  obtain ⟨-, h⟩ := ite_error_eq_ok.mp h
  obtain ⟨-, h⟩ := ite_error_eq_ok.mp h
  obtain ⟨-, h⟩ := ite_error_eq_ok.mp h
  obtain ⟨-, h⟩ := ite_error_eq_ok.mp h
  obtain ⟨⟨⟩, -, h⟩ := bind_eq_ok.mp h
  obtain ⟨⟨⟩, -, h⟩ := bind_eq_ok.mp h
  obtain ⟨hstart, -⟩ := ite_error_eq_ok.mp h
  rw [Inside, resolve_eq_components hdir, resolve_eq_components hproof]
  exact fun hprefix => hstart (List.isPrefixOf_iff_prefix.mpr hprefix)

/-- **Key result**: on POSIX the desktop accepts every recorder request that the studio has accepted, when the
archive has a POSIX path, the port is not blank and every number of the environment is an integer literal that fits
64 bits or one that the desktop reads and writes in no more bytes; and a custody proof that both accept does not lie
in the archive, when neither path goes up. -/
theorem recorder_requests_agree (read : NumberReader) (spell : Spelling) (hread : ReadsIntegers read) :
    (∀ request normal, validateRecorderStartRequest request = .ok normal →
      Desktop.isAbsolute normal.outputDir = true → Desktop.isBlank normal.port = false →
      normal.environment.Everywhere (CarriedLeaf read spell) →
      ∃ received, normal.received read = some received ∧
        ∃ rig, Desktop.validateRecorderRequest spell received true = .ok rig) ∧
    (∀ request normal received, validateRecorderCustodyStartRequest request = .ok normal →
      normal.received read = some received → Desktop.validateCustodyStartRequest spell received = .ok () →
      NoParent received.recorder.outputDir → NoParent received.custodyProofPath →
      ¬Inside received.custodyProofPath received.recorder.outputDir) := by
  constructor
  · intro request normal h hposix hport hcarried
    obtain ⟨received, hreceived, hvalid⟩ := (accepted_of_validate h).desktop hread hposix hport hcarried
    exact ⟨received, hreceived, _, hvalid⟩
  · intro request normal received _ _ h hdir hproof
    exact not_inside_of_validate h hdir hproof

/-! ### Requests -/

/-- A recording on the reference quad. -/
def benchStart (outputDir : String) : RecorderStartRequest where
  artifactId := "bench-1"
  outputDir := outputDir
  sampleRateHz := 50
  referenceRigId := "ref_quad_kakute-h7-source-one-5in"
  physicalConfirmation := "I consent to record this telemetry log"
  port := "/dev/ttyACM0"
  baud := 115200
  contractHash := "a3a3a3a3a3a3a3a3a3a3a3a3a3a3a3a3a3a3a3a3a3a3a3a3a3a3a3a3a3a3a3a3"
  lockfileHash := "b4b4b4b4b4b4b4b4b4b4b4b4b4b4b4b4b4b4b4b4b4b4b4b4b4b4b4b4b4b4b4b4"
  environment := .object [("windMps", .leaf (.number 2.5)), ("gusts", .array [.leaf (.number 3), .leaf (.bool true)])]
  seed := 7
  names := by simp [Encoder.DistinctNames]

def benchCustody (outputDir custodyProofPath : String) : RecorderCustodyStartRequest where
  recorder := benchStart outputDir
  modelId := "quad"
  identityPort := "/dev/ttyUSB0"
  identityBaud := 115200
  identityPhysicalConfirmation := Desktop.recorderAdapterProbeConfirmation
  authorizationPath := "/logs/authorization.json"
  custodyProofPath := custodyProofPath

/-- A reader of digits. -/
def readDigits (negative : Bool) (cs : List Char) : Option Number :=
  (Text.digits (2 ^ 64) cs).bind fun n =>
    if h : Fits64 (if negative then -n else n) then some (.int (if negative then -n else n) h) else none

theorem isFinite_gust : (2.5 : Float).isFinite = true := by decide +kernel

/-- A reader of integer literals and of one other number. -/
def readLiteral : NumberReader := fun cs =>
  if cs = "2.5".toList then some (.float 2.5 isFinite_gust)
  else if cs.head? = some '-' then readDigits true cs.tail
  else readDigits false cs

theorem readDigits_toDigits {negative : Bool} {n : ℕ} {i : ℤ} (hi : (if negative then -(n : ℤ) else n) = i)
    (hn : n < 2 ^ 64) (h : Fits64 i) : readDigits negative (Nat.toDigits 10 n) = some (.int i h) := by
  subst hi
  rw [readDigits, Text.digits_toDigits hn]
  exact dif_pos h

theorem readsIntegers_readLiteral : ReadsIntegers readLiteral := by
  intro i h
  have hbound : i.natAbs < 2 ^ 64 := by
    rw [Fits64] at h
    omega
  have habsent {c : Char} (hc : c.isDigit = false) : c ∉ Nat.toDigits 10 i.natAbs := Text.not_mem_toDigits hc _
  have hne : decimal i ≠ "2.5".toList := fun heq => by
    have hdot : '.' ∈ decimal i := heq ▸ by decide
    rw [decimal] at hdot
    split_ifs at hdot
    · exact (List.mem_cons.mp hdot).elim (by decide) (habsent (by decide))
    · exact habsent (by decide) hdot
  rw [readLiteral, if_neg hne, decimal]
  by_cases hneg : i < 0
  · rw [if_pos hneg, if_pos (List.head?_cons ..)]
    exact readDigits_toDigits (by rw [if_pos rfl]; omega) hbound h
  · rw [if_neg hneg, if_neg fun hhead => habsent (by decide) (List.mem_of_head? hhead)]
    exact readDigits_toDigits (by rw [if_neg Bool.false_ne_true]; omega) hbound h

/-- A value that a check returns. -/
theorem exists_ok_of_any {α : Type} {x : Except String α} {p : α → Bool} (h : x.toOption.any p = true) :
    ∃ a, x = .ok a ∧ p a = true := by
  obtain ⟨a, ha, hp⟩ := (Option.any_eq_true _ _).mp h
  exact ⟨a, toOption_eq_some_iff.mp ha, hp⟩

/-- A request with an integer and another number is recorded by both; a proof beside the archive lies outside. -/
theorem recorder_requests_agree_bench :
    (∃ normal received rig, validateRecorderStartRequest (benchStart "/logs/bench") = .ok normal ∧
      normal.received readLiteral = some received ∧
      Desktop.validateRecorderRequest numberToString received true = .ok rig) ∧
    ∃ normal received,
      validateRecorderCustodyStartRequest (benchCustody "/logs/bench" "/logs/proof.json") = .ok normal ∧
      normal.received readLiteral = some received ∧ ¬Inside received.custodyProofPath received.recorder.outputDir := by
  obtain ⟨hstart, hcustody⟩ := recorder_requests_agree readLiteral numberToString readsIntegers_readLiteral
  constructor
  · obtain ⟨normal, hnormal, hp⟩ := exists_ok_of_any (x := validateRecorderStartRequest (benchStart "/logs/bench"))
      (p := fun n => Desktop.isAbsolute n.outputDir && !Desktop.isBlank n.port) (by decide +kernel)
    simp only [Bool.and_eq_true, Bool.not_eq_true'] at hp
    have hcarried : normal.environment.Everywhere (CarriedLeaf readLiteral numberToString) := by
      rw [environment_of_validate hnormal]
      have hinteger : IntegerLiteral 3 := ⟨3, by decide, by decide +kernel⟩
      have hother : NotLonger readLiteral numberToString 2.5 :=
        ⟨.float 2.5 isFinite_gust, by decide +kernel, by decide +kernel⟩
      simp [benchStart, Tree.everywhere_object, Tree.everywhere_array, CarriedLeaf, hinteger, hother]
    obtain ⟨received, hreceived, rig, hrig⟩ := hstart _ normal hnormal hp.1 hp.2 hcarried
    exact ⟨normal, received, rig, hnormal, hreceived, hrig⟩
  · obtain ⟨normal, hnormal, hp⟩ := exists_ok_of_any
      (x := validateRecorderCustodyStartRequest (benchCustody "/logs/bench" "/logs/proof.json"))
      (p := fun n => (n.received readLiteral).any fun d =>
        (Desktop.validateCustodyStartRequest numberToString d).toOption.isSome &&
        decide (NoParent d.recorder.outputDir) && decide (NoParent d.custodyProofPath)) (by decide +kernel)
    obtain ⟨received, hreceived, hp⟩ := (Option.any_eq_true _ _).mp hp
    simp only [Bool.and_eq_true, decide_eq_true_eq, Option.isSome_iff_exists, toOption_eq_some_iff] at hp
    obtain ⟨⟨⟨⟨⟩, hvalid⟩, hdir⟩, hproof⟩ := hp
    exact ⟨normal, received, hnormal, hreceived, hcustody _ normal received hnormal hreceived hvalid hdir hproof⟩

/-- The studio lets a drive path pass that is not absolute on POSIX, and both let a proof path pass that goes up
and comes back into the archive. -/
theorem recorder_requests_disagree :
    (¬∀ request normal, validateRecorderStartRequest request = .ok normal → ∃ received,
      normal.received readLiteral = some received ∧
      ∃ rig, Desktop.validateRecorderRequest numberToString received true = .ok rig) ∧
    ¬∀ request normal received, validateRecorderCustodyStartRequest request = .ok normal →
      normal.received readLiteral = some received → Desktop.validateCustodyStartRequest numberToString received = .ok () →
      ¬Inside received.custodyProofPath received.recorder.outputDir := by
  constructor
  · intro h
    obtain ⟨normal, hnormal, hp⟩ := exists_ok_of_any (x := validateRecorderStartRequest (benchStart "C:/logs"))
      (p := fun n => (n.received readLiteral).any fun d =>
        !(Desktop.validateRecorderRequest numberToString d true).toOption.isSome) (by decide +kernel)
    obtain ⟨received, hreceived, rig, hrig⟩ := h _ normal hnormal
    rw [hreceived, Option.any_some, hrig] at hp
    cases hp
  · intro h
    obtain ⟨normal, hnormal, hp⟩ := exists_ok_of_any
      (x := validateRecorderCustodyStartRequest (benchCustody "/logs/bench" "/logs/old/../bench/proof.json"))
      (p := fun n => (n.received readLiteral).any fun d =>
        (Desktop.validateCustodyStartRequest numberToString d).toOption.isSome &&
        decide (Inside d.custodyProofPath d.recorder.outputDir)) (by decide +kernel)
    obtain ⟨received, hreceived, hp⟩ := (Option.any_eq_true _ _).mp hp
    simp only [Bool.and_eq_true, decide_eq_true_eq, Option.isSome_iff_exists, toOption_eq_some_iff] at hp
    obtain ⟨⟨⟨⟩, hvalid⟩, hinside⟩ := hp
    exact h _ normal received hnormal hreceived hvalid hinside

end Forge.Studio
