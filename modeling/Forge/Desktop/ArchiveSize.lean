import Forge.Desktop.Stream
import Mathlib.Algebra.Order.BigOperators.Group.List

/-!
# The size of an archive

The loop of the recorder bounds twice the frames and the index, with a reserve of one megabyte for
the rest: the manifest and the receipt, what surrounds the frames in the replay, and one more index
entry. **`archive_size_le`**: the reserve is enough, for every environment that a request may carry.
-/

namespace Forge.Desktop

/-! ### Counting the nodes of a value -/

theorem boundedList_eq_ok {spell : Spelling} {xs : List Json}
    (h : ∀ x ∈ xs, ∀ depth nodes nodes', boundedJsonNodes x depth nodes = .ok nodes' →
      nodes' = nodes + (x.tokens spell).nodes ∧ nodes' ≤ 2048 ∧ (x.tokens spell).depth + depth ≤ 32)
    {depth nodes nodes' : ℕ} (hnodes : nodes ≤ 2048) (hok : boundedList xs depth nodes = .ok nodes') :
    nodes' = nodes + Tree.nodesList (Json.tokensList spell xs) ∧ nodes' ≤ 2048 ∧
      ∀ x ∈ xs, (x.tokens spell).depth + depth ≤ 32 := by
  induction xs generalizing nodes with
  | nil =>
    rw [boundedList] at hok
    obtain rfl := Except.ok.inj hok
    exact ⟨by simp [Json.tokensList, Tree.nodesList], hnodes, fun _ hx => absurd hx List.not_mem_nil⟩
  | cons x xs ih =>
    obtain ⟨hx, hxs⟩ := List.forall_mem_cons.mp h
    rw [boundedList, bind_eq_ok] at hok
    obtain ⟨middle, hmiddle, hrest⟩ := hok
    obtain ⟨hcount, hle, hdepth⟩ := hx _ _ _ hmiddle
    obtain ⟨hcount', hle', hdepth'⟩ := ih hxs hle hrest
    rw [Json.tokensList, Tree.nodesList]
    exact ⟨by omega, hle', List.forall_mem_cons.mpr ⟨hdepth, hdepth'⟩⟩

theorem boundedMembers_eq_ok {spell : Spelling} {ms : List (String × Json)}
    (h : ∀ e ∈ ms, ∀ depth nodes nodes', boundedJsonNodes e.2 depth nodes = .ok nodes' →
      nodes' = nodes + (e.2.tokens spell).nodes ∧ nodes' ≤ 2048 ∧ (e.2.tokens spell).depth + depth ≤ 32)
    {depth nodes nodes' : ℕ} (hnodes : nodes ≤ 2048) (hok : boundedMembers ms depth nodes = .ok nodes') :
    nodes' = nodes + Tree.nodesMembers (Json.tokensMembers spell ms) ∧ nodes' ≤ 2048 ∧
      ∀ e ∈ ms, (e.2.tokens spell).depth + depth ≤ 32 := by
  induction ms generalizing nodes with
  | nil =>
    rw [boundedMembers] at hok
    obtain rfl := Except.ok.inj hok
    exact ⟨by simp [Json.tokensMembers, Tree.nodesMembers], hnodes, fun _ he => absurd he List.not_mem_nil⟩
  | cons e ms ih =>
    obtain ⟨he, hms⟩ := List.forall_mem_cons.mp h
    rw [boundedMembers, bind_eq_ok] at hok
    obtain ⟨middle, hmiddle, hrest⟩ := hok
    obtain ⟨hcount, hle, hdepth⟩ := he _ _ _ hmiddle
    obtain ⟨hcount', hle', hdepth'⟩ := ih hms hle hrest
    rw [Json.tokensMembers, Tree.nodesMembers]
    exact ⟨by omega, hle', List.forall_mem_cons.mpr ⟨hdepth, hdepth'⟩⟩

theorem leaf_counted {t : Tree (List Char) (List Char)} {s : List Char} {depth nodes nodes' : ℕ} (ht : t = .leaf s)
    (hdepth : ¬32 < depth) (hnodes : ¬2048 < nodes + 1) (h : (.ok (nodes + 1) : Except String ℕ) = .ok nodes') :
    nodes' = nodes + t.nodes ∧ nodes' ≤ 2048 ∧ t.depth + depth ≤ 32 := by
  obtain rfl := Except.ok.inj h
  subst ht
  rw [Tree.nodes, Tree.depth]
  omega

/-- **`bounded_json_nodes`** counts the values and bounds how deep they lie. -/
theorem boundedJsonNodes_eq_ok (spell : Spelling) {value : Json} {depth nodes nodes' : ℕ}
    (h : boundedJsonNodes value depth nodes = .ok nodes') :
    nodes' = nodes + (value.tokens spell).nodes ∧ nodes' ≤ 2048 ∧ (value.tokens spell).depth + depth ≤ 32 := by
  induction value generalizing depth nodes nodes' with
  | array xs ih =>
    rw [boundedJsonNodes, ite_error_eq_ok, ite_error_eq_ok] at h
    obtain ⟨hdepth, hnodes, h⟩ := h
    obtain ⟨hcount, hle, hdeep⟩ := boundedList_eq_ok (fun x hx _ _ _ => ih x hx) (by omega) h
    refine ⟨by rw [Json.tokens, Tree.nodes]; omega, hle, ?_⟩
    have hall : ∀ t ∈ Json.tokensList spell xs, t.depth + 1 ≤ 32 - depth := by
      rw [Json.tokensList_eq, List.forall_mem_map]
      intro x hx
      have hle := hdeep x hx
      omega
    rw [Json.tokens, Tree.depth]
    have := Tree.depthList_le_iff.mpr hall
    omega
  | object ms ih =>
    rw [boundedJsonNodes, ite_error_eq_ok, ite_error_eq_ok] at h
    obtain ⟨hdepth, hnodes, h⟩ := h
    obtain ⟨hcount, hle, hdeep⟩ := boundedMembers_eq_ok (fun e he _ _ _ => ih e he) (by omega) h
    refine ⟨by rw [Json.tokens, Tree.nodes]; omega, hle, ?_⟩
    have hall : ∀ e ∈ Json.tokensMembers spell ms, e.2.depth + 1 ≤ 32 - depth := by
      rw [Json.tokensMembers_eq, List.forall_mem_map]
      intro e he
      have hle := hdeep e he
      show (e.2.tokens spell).depth + 1 ≤ 32 - depth
      omega
    rw [Json.tokens, Tree.depth]
    have := Tree.depthMembers_le_iff.mpr hall
    omega
  | null | bool | string =>
    rw [boundedJsonNodes, ite_error_eq_ok, ite_error_eq_ok] at h
    · exact leaf_counted rfl h.1 h.2.1 h.2.2
    all_goals exact fun _ h => by cases h
  | number n =>
    rw [boundedJsonNodes, ite_error_eq_ok, ite_error_eq_ok] at h
    · cases n <;> exact leaf_counted rfl h.1 h.2.1 h.2.2
    all_goals exact fun _ h => by cases h

/-! ### Fields of a record -/

theorem char_le_iff {c d : Char} : c ≤ d ↔ c.toNat ≤ d.toNat := UInt32.le_iff_toNat_le

/-- A string that is written as it is, of a bounded length. -/
def ShortText (s : String) : Prop := (∀ c ∈ s.toList, plainChar c = true) ∧ utf8Length s.toList ≤ 128

instance (s : String) : Decidable (ShortText s) :=
  decidable_of_iff (s.toList.all plainChar = true ∧ utf8Length s.toList ≤ 128)
    (and_congr_left fun _ => List.all_eq_true)

/-- A leaf of a bounded length. -/
def ShortLeaf (t : Tree (List Char) (List Char)) : Prop := ∃ token, t = .leaf token ∧ utf8Length token ≤ 130

theorem shortLeaf_text {s : String} (h : ShortText s) : ShortLeaf (text s) :=
  ⟨_, rfl, by rw [utf8Length_stringToken h.1]; exact Nat.add_le_add_right h.2 2⟩

theorem shortLeaf_natural {n : ℕ} (h : n < 10 ^ 39) : ShortLeaf (natural n) :=
  ⟨_, rfl, (utf8Length_toDigits (by decide) h).trans (by decide)⟩

theorem shortLeaf_flag (b : Bool) : ShortLeaf (flag b) := ⟨_, rfl, by cases b <;> decide⟩

theorem shortLeaf_double {spell : Spelling} (hspell : ∀ x, utf8Length (spell x) ≤ 24) (x : Float) :
    ShortLeaf (double spell x) := by
  refine ⟨_, rfl, ?_⟩
  split
  · exact (hspell x).trans (by decide)
  · decide

theorem shortText_of_isSha256Hex {s : String} (h : isSha256Hex s = true) : ShortText s := by
  obtain ⟨hlen, hall⟩ := Bool.and_eq_true_iff.mp h
  refine ⟨fun c hc => ?_, by rw [of_decide_eq_true hlen]; decide⟩
  have hc := List.all_eq_true.mp hall c hc
  simp only [Bool.or_eq_true, Bool.and_eq_true, decide_eq_true_eq, char_le_iff] at hc
  simp only [Char.reduceToNat] at hc
  exact plainChar_iff.mpr (by omega)

theorem plainChar_of_isTokenChar {c : Char} (h : isTokenChar c = true) : plainChar c = true := by
  have hdash : c = '-' ↔ c.toNat = 45 := Char.toNat_inj.symm
  have hline : c = '_' ↔ c.toNat = 95 := Char.toNat_inj.symm
  have hdot : c = '.' ↔ c.toNat = 46 := Char.toNat_inj.symm
  simp only [isTokenChar, Bool.or_eq_true, Bool.and_eq_true, decide_eq_true_eq, char_le_iff, hdash, hline,
    hdot] at h
  simp only [Char.reduceToNat] at h
  exact plainChar_iff.mpr (by omega)

/-- A field whose value is a bounded leaf. -/
def ShortField (f : String × Tree (List Char) (List Char)) : Prop := ShortText f.1 ∧ ShortLeaf f.2

theorem ShortField.size_le {f : String × Tree (List Char) (List Char)} (h : ShortField f) :
    utf8Length (stringToken f.1) + utf8Length f.2.render + 2 ≤ 262 := by
  obtain ⟨hname, token, htoken, hle⟩ := h
  rw [utf8Length_stringToken hname.1, htoken, Tree.render_leaf]
  have := hname.2
  omega

theorem sum_size_le {fields : List (String × Tree (List Char) (List Char))} (h : ∀ f ∈ fields, ShortField f) :
    (fields.map fun f => utf8Length (stringToken f.1) + utf8Length f.2.render + 2).sum ≤ 262 * fields.length := by
  induction fields with
  | nil => exact Nat.zero_le _
  | cons f fields ih =>
    obtain ⟨hf, hfields⟩ := List.forall_mem_cons.mp h
    have hsize := hf.size_le
    have hrest := ih hfields
    rw [List.map_cons, List.sum_cons, List.length_cons]
    omega

/-- The size of a record, from those of its fields. -/
theorem recordTree_size_le (fields : List (String × Tree (List Char) (List Char))) :
    utf8Length (recordTree fields).render ≤
      2 + (fields.map fun f => utf8Length (stringToken f.1) + utf8Length f.2.render + 2).sum := by
  have h := Tree.utf8Length_object (fields.map fun f => (stringToken f.1, f.2))
  rwa [List.map_map] at h

theorem ShortField.nodes_eq {f : String × Tree (List Char) (List Char)} (h : ShortField f) : f.2.nodes = 1 := by
  obtain ⟨-, token, htoken, -⟩ := h
  rw [htoken, Tree.nodes]

theorem ShortField.depth_eq {f : String × Tree (List Char) (List Char)} (h : ShortField f) : f.2.depth = 0 := by
  obtain ⟨-, token, htoken, -⟩ := h
  rw [htoken, Tree.depth]

theorem sum_nodes_eq {fields : List (String × Tree (List Char) (List Char))} (h : ∀ f ∈ fields, ShortField f) :
    (fields.map fun f => f.2.nodes).sum = fields.length := by
  rw [List.map_congr_left fun f hf => (h f hf).nodes_eq]
  simp

/-- What a record amounts to, when all its fields but one are bounded leaves. -/
theorem recordTree_le {before after : List (String × Tree (List Char) (List Char))} {name : String}
    (h : ∀ f ∈ before ++ after, ShortField f) (hname : ShortText name) (value : Tree (List Char) (List Char)) :
    utf8Length (recordTree (before ++ (name, value) :: after)).render ≤
        2 + 262 * (before.length + after.length + 1) + utf8Length value.render ∧
      (recordTree (before ++ (name, value) :: after)).nodes = 1 + before.length + after.length + value.nodes ∧
      (recordTree (before ++ (name, value) :: after)).depth ≤ value.depth + 1 := by
  obtain ⟨hbefore, hafter⟩ := List.forall_mem_append.mp h
  refine ⟨?_, ?_, ?_⟩
  · have hsize := recordTree_size_le (before ++ (name, value) :: after)
    have hfirst := sum_size_le hbefore
    have hlast := sum_size_le hafter
    have hlen := utf8Length_stringToken hname.1
    have hle := hname.2
    rw [List.map_append, List.sum_append, List.map_cons, List.sum_cons] at hsize
    dsimp only at hsize
    omega
  · rw [recordTree, Tree.nodes, Tree.nodesMembers_eq, List.map_map]
    change 1 + ((before ++ (name, value) :: after).map fun f => f.2.nodes).sum = _
    rw [List.map_append, List.sum_append, List.map_cons, List.sum_cons, sum_nodes_eq hbefore, sum_nodes_eq hafter]
    dsimp only
    omega
  · rw [recordTree, Tree.depth, Tree.depthMembers_le_iff, List.forall_mem_map]
    intro f hf
    change f.2.depth + 1 ≤ _
    rcases List.mem_append.mp hf with hf | hf
    · rw [(hbefore f hf).depth_eq]
      omega
    · rcases List.mem_cons.mp hf with rfl | hf
      · exact le_rfl
      · rw [(hafter f hf).depth_eq]
        omega

theorem newJson_le {t : Tree (List Char) (List Char)} {size count deep : ℕ} (hsize : utf8Length t.render ≤ size)
    (hcount : t.nodes ≤ count) (hdeep : t.depth ≤ deep) :
    utf8Length (newJson t) ≤ size + count * Tree.lineCost deep := by
  have hpretty := t.pretty_le 0
  have hcost := Nat.mul_le_mul hcount (Tree.lineCost_mono (show 0 + t.depth ≤ deep by omega))
  have hline : Char.utf8Size '\n' = 1 := by decide
  rw [newJson, utf8Length_append, utf8Length_cons, utf8Length_nil, hline]
  omega

/-! ### The metadata of an archive -/

variable {host : Host} {request : RecorderRequest}

/-- What the recorder relies on: a double takes at most 24 bytes, and a digest is one. -/
structure Host.Bounded (host : Host) : Prop where
  spell : ∀ x, utf8Length (host.spell x) ≤ 24
  sha256Hex : ∀ file, isSha256Hex (host.sha256Hex file) = true

/-- What is known of a request that was validated. -/
structure Admitted (spell : Spelling) (request : RecorderRequest) (rigId : String) : Prop where
  artifactId : ShortText request.artifactId
  contractHash : ShortText request.contractHash
  lockfileHash : ShortText request.lockfileHash
  rigId : ShortText rigId
  size : utf8Length (request.environment.toText spell) ≤ maxRecorderFrameBytes
  nodes : (request.environment.tokens spell).nodes ≤ 2048
  depth : (request.environment.tokens spell).depth ≤ 32

theorem mem_of_requireD12Rig {rigId : String} (h : requireD12Rig (some rigId) = .ok ()) : rigId ∈ d12Rigs := by
  by_contra hmem
  rw [requireD12Rig, if_neg hmem] at h
  cases h

theorem validateRecorderRequest_ok {spell : Spelling} {portIsEnumerated : Bool} {rigId : String}
    (h : validateRecorderRequest spell request portIsEnumerated = .ok rigId) : Admitted spell request rigId := by
  unfold validateRecorderRequest at h
  simp only [ite_error_eq_ok, not_or, not_not, not_lt] at h
  obtain ⟨-, ⟨-, hid, hchars⟩, -, -, -, -, -, hhash, -, hsize, h⟩ := h
  obtain ⟨nodes, hnodes, h⟩ := bind_eq_ok.mp h
  obtain ⟨hcount, hle, hdepth⟩ := boundedJsonNodes_eq_ok spell hnodes
  have hhash : isSha256Hex request.contractHash = true ∧ isSha256Hex request.lockfileHash = true := by
    simpa using hhash
  cases hrig : request.referenceRigId with
  | none =>
    rw [hrig] at h
    cases h
  | some rig =>
    rw [hrig] at h
    obtain ⟨⟨⟩, hknown, h⟩ := bind_eq_ok.mp h
    obtain rfl := Except.ok.inj h
    have hrig : ShortText rig := by
      rcases List.mem_pair.mp (mem_of_requireD12Rig hknown) with rfl | rfl <;> decide
    exact ⟨⟨fun c hc => plainChar_of_isTokenChar (List.all_eq_true.mp hchars c hc), hid⟩,
      shortText_of_isSha256Hex hhash.1, shortText_of_isSha256Hex hhash.2, hrig, hsize, by omega, by omega⟩

theorem shortLeaf_uint32 (n : UInt32) : ShortLeaf (natural n.toNat) :=
  shortLeaf_natural (n.toNat_lt.trans (by decide))

theorem shortLeaf_uint64 (n : UInt64) : ShortLeaf (natural n.toNat) :=
  shortLeaf_natural (n.toNat_lt.trans (by decide))

theorem shortLeaf_time (t : UnixMs) : ShortLeaf (natural t) := shortLeaf_natural (t.isLt.trans (by decide))

/-- The fields of a manifest beside the environment. -/
theorem manifest_short {rigId : String} (hhost : host.Bounded) (h : Admitted host.spell request rigId) (now : UnixMs) :
    ∀ f ∈ ((createRecorderArchive host request rigId now).fields host.spell).take 10 ++
      ((createRecorderArchive host request rigId now).fields host.spell).drop 11, ShortField f := by
  have hport : ShortText (host.sha256Hex request.port.toList) := shortText_of_isSha256Hex (hhost.sha256Hex _)
  simp only [createRecorderArchive, RecorderArchiveManifest.fields, List.take_succ_cons, List.take_zero,
    List.drop_succ_cons, List.drop_zero, List.cons_append, List.nil_append, List.forall_mem_cons]
  refine ⟨?_, ?_, ?_, ?_, ?_, ?_, ?_, ?_, ?_, ?_, ?_, ?_, ?_, ?_, ?_, ?_, ?_, ?_, ?_, ?_, ?_, ?_, ?_, ?_, ?_,
    fun _ hf => absurd hf List.not_mem_nil⟩
  all_goals refine ⟨by dsimp only; decide, ?_⟩
  all_goals first
    | exact shortLeaf_flag _
    | exact shortLeaf_uint32 _
    | exact shortLeaf_uint64 _
    | exact shortLeaf_time _
    | exact shortLeaf_text (by decide)
    | exact shortLeaf_text h.artifactId
    | exact shortLeaf_text h.rigId
    | exact shortLeaf_text h.contractHash
    | exact shortLeaf_text h.lockfileHash
    | exact shortLeaf_text hport

/-- The manifest of an archive. -/
theorem manifest_size_le {rigId : String} (hhost : host.Bounded) (h : Admitted host.spell request rigId) (now : UnixMs) :
    utf8Length (newJson ((createRecorderArchive host request rigId now).tree host.spell)) ≤ 360000 := by
  have hsplit : (createRecorderArchive host request rigId now).tree host.spell =
      recordTree (((createRecorderArchive host request rigId now).fields host.spell).take 10 ++
        ("environment", request.environment.tokens host.spell) ::
          ((createRecorderArchive host request rigId now).fields host.spell).drop 11) := rfl
  have hname : ShortText "environment" := by decide
  obtain ⟨hsize, hcount, hdeep⟩ := recordTree_le (manifest_short hhost h now) hname (request.environment.tokens host.spell)
  have henv : utf8Length (request.environment.tokens host.spell).render ≤ 65536 := h.size
  have hnodes := h.nodes
  have hdepth := h.depth
  rw [hsplit]
  refine (newJson_le (hsize.trans (Nat.add_le_add_left henv _)) (hcount.le.trans (Nat.add_le_add_left hnodes _))
    (hdeep.trans (Nat.add_le_add_right hdepth 1))).trans ?_
  simp only [createRecorderArchive, RecorderArchiveManifest.fields, List.take_succ_cons, List.take_zero,
    List.drop_succ_cons, List.drop_zero, List.length_cons, List.length_nil]
  decide

/-- The receipt of an archive. -/
theorem receipt_size_le {rigId : String} (hhost : host.Bounded) (h : Admitted host.spell request rigId)
    (started now : UnixMs) {progress : RecorderProgress} (hcount : progress.frameCount ≤ maxRecorderFrames)
    (frames index replay : List Char) :
    utf8Length (newJson ((stopReceipt host request (createRecorderArchive host request rigId started) now progress frames
      index replay).tree host.spell)) ≤ 8000 := by
  have hsha (file : List Char) : ShortText (host.sha256Hex file) := shortText_of_isSha256Hex (hhost.sha256Hex file)
  have hframes : progress.frameCount < 10 ^ 39 := hcount.trans_lt (by decide)
  have hshort : ∀ f ∈ [] ++ ((stopReceipt host request (createRecorderArchive host request rigId started) now progress
      frames index replay).fields host.spell).drop 1, ShortField f := by
    simp only [stopReceipt, createRecorderArchive, RecorderStopReceipt.fields, List.drop_succ_cons, List.drop_zero,
      List.nil_append, List.forall_mem_cons]
    refine ⟨?_, ?_, ?_, ?_, ?_, ?_, ?_, ?_, ?_, ?_, ?_, ?_, ?_, ?_, ?_, ?_, ?_, ?_, ?_, ?_, ?_, ?_, ?_,
      fun _ hf => absurd hf List.not_mem_nil⟩
    all_goals refine ⟨by dsimp only; decide, ?_⟩
    all_goals first
      | exact shortLeaf_flag _
      | exact shortLeaf_time _
      | exact shortLeaf_natural hframes
      | exact shortLeaf_double hhost.spell _
      | exact shortLeaf_text (by decide)
      | exact shortLeaf_text h.artifactId
      | exact shortLeaf_text h.rigId
      | exact shortLeaf_text h.contractHash
      | exact shortLeaf_text h.lockfileHash
      | exact shortLeaf_text (hsha _)
  obtain ⟨hsize, hnodes, hdeep⟩ := recordTree_le hshort (show ShortText "schemaVersion" by decide)
    (text "forge-recorder-receipt/1.0.0")
  refine (newJson_le hsize hnodes.le hdeep).trans ?_
  simp only [RecorderStopReceipt.fields, List.drop_succ_cons, List.drop_zero, List.length_cons, List.length_nil]
  decide

theorem indexEntry_size_le {e : RecorderIndexEntry} (hspell : ∀ x, utf8Length (host.spell x) ≤ 24)
    (hoffset : e.byteOffset < 10 ^ 39) : utf8Length (recordLine (e.tree host.spell)) ≤ 2000 := by
  have hshort : ∀ f ∈ [] ++ [("t", double host.spell e.t), ("byteOffset", natural e.byteOffset)], ShortField f := by
    rw [List.nil_append, List.forall_mem_cons, List.forall_mem_singleton]
    exact ⟨⟨by dsimp only; decide, shortLeaf_double hspell _⟩, ⟨by dsimp only; decide, shortLeaf_natural hoffset⟩⟩
  obtain ⟨hsize, -, -⟩ := recordTree_le hshort (show ShortText "sequence" by decide) (natural e.sequence.toNat)
  obtain ⟨token, htoken, hle⟩ := shortLeaf_uint64 e.sequence
  have hline : Char.utf8Size '\n' = 1 := by decide
  rw [htoken, Tree.render_leaf] at hsize
  rw [recordLine, utf8Length_append, utf8Length_cons, utf8Length_nil, hline, RecorderIndexEntry.tree, htoken]
  simp only [List.length_cons, List.length_nil, List.nil_append] at hsize
  omega

theorem replayRecorder_size_le {rigId : String} (hhost : host.Bounded) (h : Admitted host.spell request rigId)
    (now : UnixMs) : utf8Length (replayRecorder request (createRecorderArchive host request rigId now)).render ≤ 2360 := by
  have hport : ShortText (host.sha256Hex request.port.toList) := shortText_of_isSha256Hex (hhost.sha256Hex _)
  refine (recordTree_size_le _).trans ((Nat.add_le_add_left (sum_size_le ?_) 2).trans (by dsimp only [List.length]; decide))
  simp only [createRecorderArchive, List.forall_mem_cons]
  refine ⟨?_, ?_, ?_, ?_, ?_, ?_, ?_, ?_, ?_, fun _ hf => absurd hf List.not_mem_nil⟩
  all_goals refine ⟨by dsimp only; decide, ?_⟩
  all_goals first
    | exact shortLeaf_flag _
    | exact shortLeaf_text (by decide)
    | exact shortLeaf_text h.artifactId
    | exact shortLeaf_text h.rigId
    | exact shortLeaf_text hport

theorem replayHeader_size_le {rigId : String} (hhost : host.Bounded) (h : Admitted host.spell request rigId)
    (now : UnixMs) :
    utf8Length (replayHeader host.spell request (createRecorderArchive host request rigId now)).render ≤ 70000 := by
  have hrecorder := replayRecorder_size_le hhost h now
  have hcontract := (show ShortField ("contractHash", text request.contractHash) from
    ⟨by dsimp only; decide, shortLeaf_text h.contractHash⟩).size_le
  have hlock := (show ShortField ("lockfileHash", text request.lockfileHash) from
    ⟨by dsimp only; decide, shortLeaf_text h.lockfileHash⟩).size_le
  have hseed := (show ShortField ("seed", natural request.seed.toNat) from
    ⟨by dsimp only; decide, shortLeaf_uint64 request.seed⟩).size_le
  have henv : utf8Length (request.environment.tokens host.spell).render ≤ 65536 := h.size
  have hname : utf8Length (stringToken "env") = 5 := by decide
  have hname' : utf8Length (stringToken "recorder") = 10 := by decide
  refine (recordTree_size_le _).trans ?_
  simp only [List.map_cons, List.map_nil, List.sum_cons, List.sum_nil, hname, hname'] at hcontract hlock hseed ⊢
  omega

/-- What stands before the frames in a replay. -/
theorem recorderReplayPrefix_size_le {rigId : String} (hhost : host.Bounded) (h : Admitted host.spell request rigId)
    (now : UnixMs) :
    utf8Length (recorderReplayPrefix host.spell request (createRecorderArchive host request rigId now)) ≤ 70100 := by
  have hheader := replayHeader_size_le hhost h now
  have hconst : utf8Length "\x7b\"schemaVersion\":".toList + utf8Length (stringToken "1.0.0") +
      utf8Length ",\"header\":".toList + utf8Length ",\"frames\":[".toList ≤ 100 := by decide +kernel
  have hsum (a b c d e : List Char) : utf8Length (a ++ b ++ c ++ d ++ e) =
      utf8Length a + utf8Length b + utf8Length c + utf8Length d + utf8Length e := by
    rw [utf8Length_append, utf8Length_append, utf8Length_append, utf8Length_append]
  exact (hsum _ _ _ _ _).le.trans (by omega)

/-! ### Frames in a replay -/

theorem utf8Length_intercalate {c : Char} (hc : c.utf8Size = 1) (ls : List (List Char)) :
    utf8Length ([c].intercalate ls) = (ls.map utf8Length).sum + (ls.length - 1) := by
  induction ls with
  | nil => rfl
  | cons l ls ih =>
    cases ls with
    | nil => simp
    | cons l' ls =>
      rw [List.intercalate_cons_cons, utf8Length_append, utf8Length_append, ih, utf8Length_cons, utf8Length_nil, hc]
      simp only [List.map_cons, List.sum_cons, List.length_cons]
      omega

theorem utf8Length_dropLast_le (l : List Char) : utf8Length l.dropLast ≤ utf8Length l := by
  rcases List.eq_nil_or_concat l with rfl | ⟨l, c, rfl⟩
  · exact le_rfl
  · simp

theorem sum_dropLast_le (l : List ℕ) : l.dropLast.sum ≤ l.sum := by
  rcases List.eq_nil_or_concat l with rfl | ⟨l, n, rfl⟩
  · exact le_rfl
  · simp

/-- The lines of a file, between commas, are no longer than the file. -/
theorem utf8Length_lines_le (file : List Char) : utf8Length ([','].intercalate (lines file)) ≤ utf8Length file := by
  have hfile : utf8Length file = ((file.splitOn '\n').map utf8Length).sum + ((file.splitOn '\n').length - 1) := by
    rw [← utf8Length_intercalate (show Char.utf8Size '\n' = 1 by decide), List.intercalate_splitOn]
  have hkept {parts : List (List Char)} (hsum : (parts.map utf8Length).sum ≤ ((file.splitOn '\n').map utf8Length).sum)
      (hlen : parts.length ≤ (file.splitOn '\n').length) :
      utf8Length ([','].intercalate (parts.map fun line => if line.getLast? = some '\r' then line.dropLast else line)) ≤
        utf8Length file := by
    have hchomp : ((parts.map fun line => if line.getLast? = some '\r' then line.dropLast else line).map utf8Length).sum ≤
        (parts.map utf8Length).sum := by
      rw [List.map_map]
      refine List.sum_le_sum fun line _ => ?_
      change utf8Length (if _ then _ else _) ≤ _
      split_ifs
      · exact utf8Length_dropLast_le line
      · exact le_rfl
    rw [utf8Length_intercalate (by decide), List.length_map]
    omega
  unfold lines
  dsimp only
  split_ifs
  · exact hkept (by rw [List.map_dropLast]; exact sum_dropLast_le _) (by rw [List.length_dropLast]; omega)
  · exact hkept le_rfl le_rfl

/-! ### What the loop keeps -/

/-- The counters of a recording are those of its files, and the cap is kept after every frame. -/
structure Recording.Counted (spell : Spelling) (r : Recording) : Prop where
  frames : utf8Length r.frames = r.progress.frameBytes
  index : utf8Length r.index = r.progress.indexBytes
  count : r.progress.frameCount ≤ maxRecorderFrames
  cap : r.progress.frameCount ≠ 0 → r.progress.frameBytes * 2 + r.progress.indexBytes +
    recorderArchiveMetadataReserveBytes ≤ maxRecorderArchiveBytes
  last : ∀ e, r.progress.lastIndex = some e → e.byteOffset < 10 ^ 39

theorem Recording.Counted.initial (spell : Spelling) : Recording.Counted spell {} where
  frames := rfl
  index := rfl
  count := Nat.zero_le _
  cap h := absurd rfl h
  last _ h := by cases h

theorem checked_eq_ok {n m : ℕ} {message : String} : checked n message = .ok m ↔ n < 2 ^ 64 ∧ m = n := by
  rw [checked, ite_error_eq_ok, not_le, Except.ok.injEq, eq_comm (a := n)]

/-- **A frame** keeps the counters and the cap. -/
theorem Recording.Counted.append {r r' : Recording} {line : List UInt8} {stride : ℕ} (hr : r.Counted host.spell)
    (h : appendRecorderFrame host request stride r line = .ok r') : r'.Counted host.spell := by
  unfold appendRecorderFrame at h
  simp only [ite_error_eq_ok, not_le, not_lt] at h
  obtain ⟨-, -, hcount, h⟩ := h
  obtain ⟨input, -, h⟩ := bind_eq_ok.mp h
  obtain ⟨-, h⟩ := check_eq_ok.mp h
  simp only [bind_eq_ok, checked_eq_ok] at h
  obtain ⟨_, ⟨hnext, rfl⟩, _, ⟨-, rfl⟩, _, ⟨-, rfl⟩, h⟩ := h
  obtain ⟨hcap, h⟩ := ite_error_eq_ok.mp h
  obtain rfl := Except.ok.inj h
  refine ⟨?_, ?_, hcount, fun _ => ?_, ?_⟩
  · rw [utf8Length_append, hr.frames]
  · rw [utf8Length_append, hr.index]
  · exact not_lt.mp hcap
  · rintro e he
    obtain rfl := Option.some.inj he
    have hlarge : (2 : ℕ) ^ 64 < 10 ^ 39 := by decide
    exact ((Nat.le_add_right _ _).trans_lt hnext).trans hlarge

theorem Recording.Counted.readByte {s s' : StreamState} {byte : UInt8} (h : readByte host request s byte = .ok s')
    (hs : s.recording.Counted host.spell) : s'.recording.Counted host.spell := by
  unfold Desktop.readByte at h
  split_ifs at h
  · obtain ⟨r, hr, h⟩ := bind_eq_ok.mp h
    obtain rfl := Except.ok.inj h
    exact hs.append hr
  · obtain rfl := Except.ok.inj h
    exact hs

/-- **Whatever is read**, the recording is counted when the loop ends. -/
theorem Recording.Counted.serialLoop {turns : List (Bool × PortRead)} {stopping : Bool} {s s' : StreamState}
    (hs : s.recording.Counted host.spell) (h : serialLoop host request stopping s turns = some (.ok s')) :
    s'.recording.Counted host.spell := by
  induction turns generalizing stopping s with
  | nil => cases h
  | cons turn turns ih =>
    obtain ⟨signal, read⟩ := turn
    have hquiet {x : Option (Except String StreamState)} (hx : x = some (.ok s'))
        (hturn : x = if stopping || signal then some (.ok s) else Desktop.serialLoop host request (stopping || signal) s turns) :
        s'.recording.Counted host.spell := by
      subst hturn
      split_ifs at hx
      · obtain rfl := Except.ok.inj (Option.some.inj hx)
        exact hs
      · exact ih hs hx
    cases read with
    | timeout => exact hquiet h rfl
    | failed message => cases h
    | data chunk =>
      cases chunk with
      | nil => exact hquiet h rfl
      | cons byte chunk =>
        rw [Desktop.serialLoop] at h
        · cases hread : List.foldlM (Desktop.readByte host request) s (byte :: chunk) with
          | error e =>
            simp only [hread] at h
            cases h
          | ok s'' =>
            simp only [hread] at h
            exact ih (invariant_of_foldlM_eq_ok (P := fun s => s.recording.Counted host.spell) Recording.Counted.readByte
              hread hs) h
        · exact fun h => by cases h

/-! ### The archive -/

/-- The length of the five files. -/
def RecorderArchive.byteSize (a : RecorderArchive) : ℕ :=
  utf8Length a.manifest + utf8Length a.frames + utf8Length a.index + utf8Length a.replay + utf8Length a.receipt

/-- **Completing a recording** stays within the cap. -/
theorem byteSize_le_of_counted {rigId : String} (hhost : host.Bounded) (hadmitted : Admitted host.spell request rigId)
    {started now : UnixMs} {s : StreamState} {a : RecorderArchive} (hs : s.recording.Counted host.spell)
    (h : completeRecording host request (createRecorderArchive host request rigId started) now s = .ok a) :
    a.byteSize ≤ maxRecorderArchiveBytes := by
  unfold completeRecording at h
  dsimp only at h
  obtain ⟨-, h⟩ := ite_error_eq_ok.mp h
  obtain ⟨hcount, h⟩ := ite_error_eq_ok.mp h
  obtain ⟨_, -, h⟩ := bind_eq_ok.mp h
  obtain rfl := Except.ok.inj h
  have hcap := hs.cap hcount
  have hentry : utf8Length (finalIndexEntry host.spell s.recording.progress) ≤ 2000 := by
    unfold finalIndexEntry
    split
    · rename_i last hlast
      split_ifs
      · exact indexEntry_size_le hhost.spell (hs.last last hlast)
      · exact Nat.zero_le _
    · exact Nat.zero_le _
  have hmanifest := manifest_size_le hhost hadmitted started
  have hprefix := recorderReplayPrefix_size_le hhost hadmitted started
  have hlines := utf8Length_lines_le s.recording.frames
  have hsuffix : utf8Length "]\x7d\n".toList = 3 := by decide
  have hreceipt := receipt_size_le hhost hadmitted started now hs.count s.recording.frames
    (s.recording.index ++ finalIndexEntry host.spell s.recording.progress)
    (finalizeReplayFile host.spell request (createRecorderArchive host request rigId started) s.recording.frames)
  have hreplay : utf8Length (finalizeReplayFile host.spell request (createRecorderArchive host request rigId started)
      s.recording.frames) ≤ 70103 + utf8Length s.recording.frames := by
    refine (utf8Length_append _ _).le.trans ?_
    rw [utf8Length_append, hsuffix]
    omega
  have hindex := hs.index
  have hframes := hs.frames
  have hmax : maxRecorderArchiveBytes = 536870912 := rfl
  have hreserve : recorderArchiveMetadataReserveBytes = 1048576 := rfl
  rw [RecorderArchive.byteSize]
  dsimp only
  rw [utf8Length_append]
  omega

/-- **Key result**: an archive that is completed has at most 512 megabytes, whatever was read. -/
theorem archive_size_le (host : Host) (hhost : host.Bounded) (request : RecorderRequest) (portIsEnumerated : Bool)
    (rigId : String) (hvalid : validateRecorderRequest host.spell request portIsEnumerated = .ok rigId)
    (started now : UnixMs) (turns : List (Bool × PortRead)) (a : RecorderArchive)
    (h : recordSerialStream host request (createRecorderArchive host request rigId started) now turns = some (.ok a)) :
    a.byteSize ≤ maxRecorderArchiveBytes := by
  obtain ⟨r, hr, hcomplete⟩ := Option.map_eq_some_iff.mp h
  obtain ⟨s, rfl, hs⟩ := bind_eq_ok.mp hcomplete
  exact byteSize_le_of_counted hhost (validateRecorderRequest_ok hvalid)
    (Recording.Counted.serialLoop (Recording.Counted.initial host.spell) hr) hs

/-- The libraries of the bench keep to what the recorder relies on. -/
theorem benchHost_bounded : benchHost.Bounded where
  spell x := by
    unfold benchHost
    dsimp only
    split <;> decide
  sha256Hex file := by
    unfold benchHost
    dsimp only
    split_ifs <;> decide

/-- The request of the bench, with what is known of the site. -/
def siteRequest : RecorderRequest :=
  { benchRequest with
    environment := .object [("site", .object [("name", .string "hall \"3\""), ("covered", .bool true)]),
      ("notes", .array [.array [.null, .string "drafts"], .array []])] }

def siteManifest : RecorderArchiveManifest :=
  createRecorderArchive benchHost siteRequest "ref_quad_kakute-h7-source-one-5in" 1760000000000

theorem siteStream_ok :
    ∃ a, recordSerialStream benchHost siteRequest siteManifest 1760000001000 benchTurns = some (.ok a) := by
  refine exists_eq_some_ok ?_
  simp only [benchTurns, benchHost, benchLine, asciiBytes, Text.toList_eq_asciiChars]
  decide +kernel

theorem archive_size_le_site : ∃ a, recordSerialStream benchHost siteRequest siteManifest 1760000001000 benchTurns =
    some (.ok a) ∧ a.byteSize ≤ 536870912 := by
  have hvalid : validateRecorderRequest benchHost.spell siteRequest true = .ok "ref_quad_kakute-h7-source-one-5in" := by
    decide +kernel
  obtain ⟨a, hr⟩ := siteStream_ok
  exact ⟨a, hr, archive_size_le benchHost benchHost_bounded siteRequest true "ref_quad_kakute-h7-source-one-5in" hvalid
    1760000000000 1760000001000 benchTurns a hr⟩

end Forge.Desktop
