import Forge.Training.ExternalPolicy

/-!
# The export gate for external policies

**`trainPolicy_exportable`**: what holds of the result of a trainer if the worker marks its policy exportable. Every
number of it is finite, rates are in [0, 1] and at their thresholds, energy is positive and bounded; the contract, the
task and its targets are the job's, and the tensor is a flight tensor or the ground tensor of the task. The bytes of
the model are compared with what is declared of them if there are any: a result without them is exportable as well.
-/

namespace Forge.Training

open Python (str lit isEqual)

/-! ### What the gate promises -/

/-- A finite double between two bounds. -/
structure RateBetween (low high x : Float) : Prop where
  finite : x.isFinite = true
  low : low ≤ x
  high : x ≤ high

/-- What the head of a tensor says. -/
structure TensorHead (schema version : String) (tensor : Doc) : Prop where
  schema : member "schema" tensor = some (lit schema)
  version : member "schemaVersion" tensor = some (lit version)
  frame : member "coordinateFrame" tensor = some (lit "forge-y-up-rh-m")
  rate : isEqual (member "rateHz" tensor) (.leaf (.number (.int 50))) = true

/-- A tensor has an axis with this name and this layout, of the shape `[1, length]`. -/
def HasAxis (field name : String) (layout : List CodeUnits) (tensor : Doc) : Prop :=
  ∃ axis, member field tensor = some axis ∧ member "name" axis = some (lit name) ∧
    isEqual (member "shape" axis) (shape layout.length) = true ∧
    member "layout" axis = some (.array (layout.map str))

/-- The inputs of a legged robot with these joints. -/
def leggedInputs (names : List CodeUnits) : List CodeUnits :=
  groundPolicyInputLayout.map units ++
    names.map (fun name => units "estimator.jointPosition." ++ name ++ units "Rad") ++
    names.map (fun name => units "estimator.jointVelocity." ++ name ++ units "RadS")

/-- The tensors that the gate takes for a task: the flight tensor in its two versions, whatever the task is, and the
ground tensor of the task itself. -/
inductive TensorContract (task : TaskMeta) (tensor : Doc) : Prop
  | legacyFlight (head : TensorHead policyTensorSchema legacyPolicyTensorVersion tensor)
      (input : HasAxis "input" "observations" (legacyPolicyInputLayout.map units) tensor)
      (output : HasAxis "output" "actions" (policyOutputLayout.map units) tensor)
  | flight (head : TensorHead policyTensorSchema policyTensorVersion tensor)
      (input : HasAxis "input" "observations" (policyInputLayout.map units) tensor)
      (output : HasAxis "output" "actions" (policyOutputLayout.map units) tensor)
  | lineFollow (id : task.id = units "line-follow")
      (head : TensorHead groundPolicyTensorSchema groundPolicyTensorVersion tensor)
      (input : HasAxis "input" "observations" (groundPolicyInputLayout.map units) tensor)
      (output : HasAxis "output" "actions" (["drive", "turn"].map units) tensor)
  | walkToTarget (names : List CodeUnits) (id : task.id = units "walk-to-target") (distinct : names.Nodup)
      (joints : 8 ≤ names.length ∧ names.length ≤ 24)
      (head : TensorHead groundPolicyTensorSchema groundPolicyTensorVersion tensor)
      (input : HasAxis "input" "observations" (leggedInputs names) tensor)
      (output : HasAxis "output" "actions" (names.map fun name => units "jointTorque." ++ name) tensor)

/-- The bytes of a model are there, within the bound, and are what is declared of them. -/
def BytesMatch (text : Text) (onnx : OnnxPayload) : Prop :=
  ∃ encoded hash bytes, onnx.modelBase64 = some (str encoded) ∧ Python.b64decode encoded = some bytes ∧
    onnx.byteSize = some (.leaf (.number (.int bytes.length))) ∧ 0 < bytes.length ∧
    bytes.length ≤ 5 * 1024 * 1024 ∧ onnx.sha256 = some (str hash) ∧ text.sha256 bytes = hash

/-- What holds of an exportable policy that was made from a result. Of the bytes it says something only if one of their
members is there. -/
structure Gated (text : Text) (job : PolicyJob) (external : Doc) (policy : ExternalPolicy) : Prop where
  finite : external.Everywhere Python.Finite
  success : RateBetween defaultMinSuccess 1.0 policy.scorecard.card.successRate
  /-- There is a grid, and every cell of it is a rate at its threshold. -/
  grid : ∃ cells, scored external "robustness" = some (.object cells) ∧ cells ≠ [] ∧
    ∀ cell ∈ cells, ∃ n x, cell.2 = .leaf (.number n) ∧ Python.float n = .ok x ∧
      (cell.1, x) ∈ policy.scorecard.card.robustness
  robustness : ∀ cell ∈ policy.scorecard.card.robustness, RateBetween defaultMinRobust 1.0 cell.2
  energy : policy.scorecard.card.energyWh.isFinite = true ∧ 0.0 < policy.scorecard.card.energyWh ∧
    policy.scorecard.card.energyWh ≤ 1000000000
  estimator : policy.scorecard.card.trainedOnEstimator = true
  lineage : policy.scorecard.card.lineageAt "contractHash" = some (job.contractHash text) ∧
    policy.scorecard.card.lineageAt "taskDefinitionHash" = some job.task.definitionHash ∧
    (policy.scorecard.card.lineageAt "seed").isSome = true
  task : policy.scorecard.card.task = job.task.id ∧ policy.scorecard.card.taskVersion = job.task.version
  metadata : ∀ e ∈ job.task.identity, member e.1 policy.task = some (str e.2)
  targets : ∃ targets, taskTargets job.task = .ok targets ∧
    isEqual (member "targets" policy.task) (.array targets) = true
  header : ∃ header, member "onnxHeader" policy.io = some header ∧
    ∀ e ∈ expectedHeader text job, member e.1 header = some (str e.2)
  tensor : ∃ tensor, member "tensor" policy.io = some tensor ∧ TensorContract job.task tensor
  bytes : policy.onnx.modelBase64.isSome = true ∨ policy.onnx.byteSize.isSome = true ∨
    policy.onnx.sha256.isSome = true → BytesMatch text policy.onnx

/-! ### Reasons -/

theorem reasonIf_eq_nil {condition : Prop} [Decidable condition] {reason : CodeUnits} :
    reasonIf condition reason = [] ↔ ¬condition := by
  unfold reasonIf
  split <;> simp [*]

/-- A policy that passes the gate. -/
theorem gate_exportable {card : Scorecard} (h : (gate card).exportable = true) :
    card.trainedOnEstimator = true ∧ ¬card.successRate < defaultMinSuccess ∧ card.robustness ≠ [] ∧
      (∀ cell ∈ card.robustness, ¬cell.2 < defaultMinRobust) ∧ ¬card.energyWh ≤ 0.0 ∧
      ∀ name ∈ requiredLineage, (card.lineageAt name).isSome = true := by
  simp only [gate, List.isEmpty_iff, List.append_eq_nil_iff, reasonIf_eq_nil, List.map_eq_nil_iff,
    List.filter_eq_nil_iff, not_not, decide_eq_true_eq, Bool.not_eq_false] at h
  obtain ⟨⟨⟨⟨⟨hestimator, hsuccess⟩, hgrid⟩, hweak⟩, henergy⟩, hlineage⟩ := h
  exact ⟨hestimator, hsuccess, hgrid, hweak, henergy,
    fun name hname => Option.isSome_iff_ne_none.mpr (hlineage name hname)⟩

/-! ### The scorecard -/

section

variable {text : Text} {job : PolicyJob} {external : Doc}

theorem isFinite_number {default x : Float} {value : Option Doc} (hdefault : default.isFinite = true)
    (hvalue : ∀ d, value = some d → d.Everywhere Python.Finite) (h : number default value = .ok x) :
    x.isFinite = true := by
  unfold number at h
  split at h
  · exact Python.isFinite_float (hvalue _ rfl) h
  · obtain rfl := Except.ok.inj h
    exact hdefault

/-- What is read of a finite result is finite. -/
theorem finite_scored (h : external.Everywhere Python.Finite) {name : String} {d : Doc}
    (hd : scored external name = some d) : d.Everywhere Python.Finite := by
  have hraw : (rawScorecard external).Everywhere Python.Finite := by
    unfold rawScorecard orEmpty
    split
    · exact Python.finite_member h ‹_›
    · exact Tree.everywhere_object.mpr ⟨trivial, fun _ he => absurd he List.not_mem_nil⟩
  obtain hd | ⟨-, hd⟩ := Option.or_eq_some_iff.mp hd
  · exact Python.finite_member hraw hd
  · exact Python.finite_member h hd

/-- Every cell that is a number is a cell of the scorecard, and there is no other. -/
theorem robustnessCells_eq_ok {cells : List (CodeUnits × Doc)} {out : List (CodeUnits × Float)}
    (h : robustnessCells cells = .ok out) :
    (∀ cell ∈ out, ∃ n, (cell.1, .leaf (.number n)) ∈ cells ∧ Python.float n = .ok cell.2) ∧
      ∀ key n, (key, .leaf (.number n)) ∈ cells → ∃ x, Python.float n = .ok x ∧ (key, x) ∈ out := by
  induction cells using robustnessCells.induct generalizing out with
  | case1 =>
    obtain rfl := Except.ok.inj h
    exact ⟨fun _ h => absurd h List.not_mem_nil, fun _ _ h => absurd h List.not_mem_nil⟩
  | case2 key n cells ih =>
    obtain ⟨x, hx, h⟩ := bind_eq_ok.mp h
    obtain ⟨rest, hrest, h⟩ := bind_eq_ok.mp h
    obtain rfl := Except.ok.inj h
    obtain ⟨hout, hin⟩ := ih hrest
    constructor
    · rintro cell (_ | ⟨_, hcell⟩)
      · exact ⟨_, List.mem_cons_self, hx⟩
      · obtain ⟨n, hn, hf⟩ := hout cell hcell
        exact ⟨n, List.mem_cons_of_mem _ hn, hf⟩
    · intro key n hmem
      rcases List.mem_cons.mp hmem with hhere | hmem
      · cases hhere
        exact ⟨x, hx, List.mem_cons_self⟩
      · obtain ⟨y, hy, hmem⟩ := hin key n hmem
        exact ⟨y, hy, List.mem_cons_of_mem _ hmem⟩
  | case3 cell cells hother ih =>
    have hskip : robustnessCells (cell :: cells) = robustnessCells cells := by
      rw [robustnessCells]
      exact hother
    rw [hskip] at h
    obtain ⟨hout, hin⟩ := ih h
    refine ⟨fun cell hcell => ?_, fun key n hmem => ?_⟩
    · obtain ⟨n, hn, hf⟩ := hout cell hcell
      exact ⟨n, List.mem_cons_of_mem _ hn, hf⟩
    · rcases List.mem_cons.mp hmem with rfl | hmem
      · exact absurd rfl (hother key n)
      · exact hin key n hmem

theorem unit_of_anyOutsideUnit {cells : List (CodeUnits × Doc)} (h : anyOutsideUnit cells = .ok false) :
    ∀ cell ∈ cells, ∃ n x, cell.2 = .leaf (.number n) ∧ Python.float n = .ok x ∧ 0.0 ≤ x ∧ x ≤ 1.0 := by
  induction cells with
  | nil => exact fun _ h => absurd h List.not_mem_nil
  | cons cell cells ih =>
    obtain ⟨bad, hbad, h⟩ := bind_eq_ok.mp h
    cases bad with
    | true => cases h
    | false =>
      refine List.forall_mem_cons.mpr ⟨?_, ih h⟩
      unfold outsideUnit at hbad
      split at hbad
      next n hn =>
        obtain ⟨x, hx, hunit⟩ := bind_eq_ok.mp hbad
        have hrange := pure_eq_ok.mp hunit
        simp only [Bool.not_eq_false', Bool.and_eq_true, decide_eq_true_eq] at hrange
        exact ⟨n, x, hn, hx, hrange⟩
      · cases hbad

theorem robustness_object {value : Option Doc} {out : List (CodeUnits × Float)} (h : robustness value = .ok out)
    (hne : out ≠ []) : ∃ cells, value = some (.object cells) ∧ robustnessCells cells = .ok out := by
  unfold robustness at h
  split at h
  next cells => exact ⟨cells, rfl, h⟩
  · exact absurd (Except.ok.inj h).symm hne

/-! ### Tensors -/

theorem hasStrings_iff {expected : List (String × CodeUnits)} {d : Doc} :
    hasStrings expected d = true ↔ ∀ e ∈ expected, member e.1 d = some (str e.2) := by
  rw [hasStrings, List.all_eq_true]
  exact forall₂_congr fun e _ => Python.isEqual_str

theorem hasAxis_of_axisIs {field name : String} {layout : List CodeUnits} {tensor : Doc}
    (h : axisIs name layout.length layout (member field tensor) = true) : HasAxis field name layout tensor := by
  unfold axisIs at h
  split at h
  next ms hms =>
    simp only [Bool.and_eq_true] at h
    obtain ⟨⟨hname, hshape⟩, hlayout⟩ := h
    exact ⟨.object ms, hms, Python.isEqual_str.mp hname, hshape, Python.isEqual_strs.mp hlayout⟩
  · cases h

/-- The layout of an axis that is a list of strings. -/
theorem hasAxis_of_axisLayout {field name : String} {layout : List CodeUnits} {tensor : Doc}
    (h : axisLayout name (member field tensor) = some (layout.map str)) : HasAxis field name layout tensor := by
  unfold axisLayout at h
  split at h
  next ms hms =>
    split at h
    next items hitems =>
      split_ifs at h with hhead
      obtain rfl := Option.some.inj h
      simp only [Bool.and_eq_true] at hhead
      exact ⟨.object ms, hms, Python.isEqual_str.mp hhead.1, by simpa using hhead.2, hitems⟩
    · cases h
  · cases h

theorem known_of_inStrings {expected : List String} {value : Option Doc} {known : Bool}
    (h : inStrings expected value = .ok known) (hknown : known = true) : ∃ s ∈ expected, value = some (lit s) := by
  have hany : expected.any (fun s => isEqual value (lit s)) = true := by
    unfold inStrings at h
    split at h
    · cases h
    · cases h
    · exact (Except.ok.inj h).trans hknown
  obtain ⟨s, hs, hvalue⟩ := List.any_eq_true.mp hany
  exact ⟨s, hs, Python.isEqual_str.mp hvalue⟩

theorem tensorContract_of_flight {task : TaskMeta} {tensor : Doc} (h : flightPolicyTensorIsExact tensor = .ok true) :
    TensorContract task tensor := by
  unfold flightPolicyTensorIsExact at h
  dsimp only at h
  by_cases hschema : isEqual (member "schema" tensor) (lit policyTensorSchema) = false
  · rw [if_pos hschema] at h
    cases h
  rw [if_neg hschema] at h
  have hschema := Python.isEqual_str.mp (Bool.eq_true_of_not_eq_false hschema)
  obtain ⟨known, hknown, h⟩ := bind_eq_ok.mp h
  have hall := pure_eq_ok.mp h
  simp only [Bool.and_eq_true] at hall
  obtain ⟨⟨⟨⟨hin, hframe⟩, hrate⟩, hinput⟩, houtput⟩ := hall
  have hframe := Python.isEqual_str.mp hframe
  split_ifs at hinput with hlegacy
  · exact .legacyFlight ⟨hschema, Python.isEqual_str.mp hlegacy, hframe, hrate⟩ (hasAxis_of_axisIs hinput)
      (hasAxis_of_axisIs houtput)
  · have hversion : member "schemaVersion" tensor = some (lit policyTensorVersion) := by
      obtain ⟨s, hs, hvalue⟩ := known_of_inStrings hknown hin
      rcases List.mem_cons.mp hs with rfl | hs
      · exact absurd (Python.isEqual_str.mpr hvalue) hlegacy
      · rw [hvalue, List.mem_singleton.mp hs]
    exact .flight ⟨hschema, hversion, hframe, hrate⟩ (hasAxis_of_axisIs hinput) (hasAxis_of_axisIs houtput)

/-- The text of the position of a joint. -/
def jointPosition (name : CodeUnits) : CodeUnits := units "estimator.jointPosition." ++ name ++ units "Rad"

/-- What stands between a lead and an end. -/
theorem between_eq {lead last s : CodeUnits} (hlead : lead <+: s) (hlast : last <:+ s)
    (hne : (s.drop lead.length).take (s.length - lead.length - last.length) ≠ []) :
    s = lead ++ (s.drop lead.length).take (s.length - lead.length - last.length) ++ last := by
  obtain ⟨rest, rfl⟩ := hlead
  rw [List.drop_left, List.length_append, Nat.add_sub_cancel_left] at hne ⊢
  have hlen : last.length ≤ rest.length := by
    by_contra hlt
    exact hne (by rw [show rest.length - last.length = 0 by omega, List.take_zero])
  obtain ⟨front, rfl⟩ := List.suffix_of_suffix_length_le hlast (List.suffix_append lead rest) hlen
  rw [List.length_append, Nat.add_sub_cancel, List.take_left, List.append_assoc]

theorem eq_of_jointName {position : Doc} {name : CodeUnits} (h : jointName position = some name) :
    position = str (jointPosition name) := by
  unfold jointName at h
  dsimp only at h
  split at h
  next s =>
    split_ifs at h with hends hnil
    obtain rfl := Option.some.inj h
    simp only [Bool.and_eq_true, List.isPrefixOf_iff_prefix, List.isSuffixOf_iff_suffix] at hends
    exact congrArg str (between_eq hends.1 hends.2 hnil)
  · cases h

theorem jointNames_eq_some {positions : List Doc} {names out : List CodeUnits} (hd : names.Nodup)
    (h : jointNames names positions = some out) :
    ∃ more, out = names ++ more ∧ positions = more.map (fun name => str (jointPosition name)) ∧ out.Nodup := by
  induction positions generalizing names with
  | nil =>
    obtain rfl := Option.some.inj h
    exact ⟨[], by simp, rfl, hd⟩
  | cons position positions ih =>
    obtain ⟨name, hname, h⟩ := Option.bind_eq_some_iff.mp h
    split_ifs at h with hmem
    have hd' : (names ++ [name]).Nodup := by
      rw [List.nodup_append_comm]
      exact List.nodup_cons.mpr ⟨hmem, hd⟩
    obtain ⟨more, rfl, hpositions, hout⟩ := ih hd' h
    refine ⟨name :: more, by simp, ?_, hout⟩
    rw [List.map_cons, ← hpositions, eq_of_jointName hname]

theorem leggedLayouts_names {inputLayout outputLayout : List Doc} (h : leggedLayouts inputLayout outputLayout = true) :
    ∃ names : List CodeUnits, names.Nodup ∧ (8 ≤ names.length ∧ names.length ≤ 24) ∧
      inputLayout = (leggedInputs names).map str ∧
      outputLayout = (names.map fun name => units "jointTorque." ++ name).map str := by
  unfold leggedLayouts at h
  dsimp only at h
  split_ifs at h with hcommon hodd hcount
  split at h
  · cases h
  next names hnames =>
    obtain ⟨more, hout, hpositions, hnodup⟩ := jointNames_eq_some List.nodup_nil hnames
    rw [List.nil_append] at hout
    subst hout
    simp only [Bool.and_eq_true] at h
    obtain ⟨hvelocity, houtput⟩ := h
    obtain ⟨hbound, hlength⟩ := not_or.mp hcount
    have hlen : ((inputLayout.drop groundPolicyInputLayout.length).take
        ((inputLayout.drop groundPolicyInputLayout.length).length / 2)).length = names.length := by
      rw [hpositions, List.length_map]
    rw [List.length_take] at hlen
    have hhalf : (inputLayout.drop groundPolicyInputLayout.length).length / 2 = names.length := by omega
    rw [hhalf] at hbound
    refine ⟨names, hnodup, not_not.mp hbound, ?_, Python.equalsItems_str.mp houtput⟩
    have hfirst := Python.equalsItems_str.mp (Bool.eq_true_of_not_eq_false hcommon)
    rw [leggedInputs, List.map_append, List.map_append, ← hfirst, ← Python.equalsItems_str.mp hvelocity, List.map_map]
    have hpositions' : (names.map (str ∘ fun name => units "estimator.jointPosition." ++ name ++ units "Rad")) =
        (inputLayout.drop groundPolicyInputLayout.length).take
          ((inputLayout.drop groundPolicyInputLayout.length).length / 2) := hpositions.symm
    rw [hpositions', List.append_assoc, List.take_append_drop, List.take_append_drop]

theorem tensorContract_of_ground {task : TaskMeta} {tensor : Doc}
    (hschema : isEqual (member "schema" tensor) (lit groundPolicyTensorSchema) = true)
    (h : groundPolicyTensorIsExact tensor task = true) : TensorContract task tensor := by
  unfold groundPolicyTensorIsExact at h
  simp only [Bool.and_eq_true] at h
  obtain ⟨⟨⟨hversion, hframe⟩, hrate⟩, h⟩ := h
  have hhead : TensorHead groundPolicyTensorSchema groundPolicyTensorVersion tensor :=
    ⟨Python.isEqual_str.mp hschema, Python.isEqual_str.mp hversion, Python.isEqual_str.mp hframe, hrate⟩
  split at h
  next inputLayout outputLayout hinput houtput =>
    split_ifs at h with hline hwalk
    · simp only [Bool.and_eq_true] at h
      rw [Python.equalsItems_str.mp h.1] at hinput
      rw [Python.equalsItems_str.mp h.2] at houtput
      exact .lineFollow (of_decide_eq_true hline) hhead (hasAxis_of_axisLayout hinput) (hasAxis_of_axisLayout houtput)
    · obtain ⟨names, hnodup, hjoints, rfl, rfl⟩ := leggedLayouts_names h
      exact .walkToTarget names (of_decide_eq_true hwalk) hnodup hjoints hhead (hasAxis_of_axisLayout hinput)
        (hasAxis_of_axisLayout houtput)
  · cases h

/-- The gate takes no other tensors. -/
theorem tensorContract_of_exact {task : TaskMeta} {tensor : Doc} (h : policyTensorIsExact tensor task = .ok true) :
    TensorContract task tensor := by
  unfold policyTensorIsExact at h
  split_ifs at h with hschema
  · exact tensorContract_of_ground hschema (Except.ok.inj h)
  · exact tensorContract_of_flight h

/-! ### Task, header and bytes -/

theorem taskReasons_eq_nil {value : Option Doc} {targets : List Doc} (h : taskReasons job value targets = []) :
    ∃ ms, value = some (.object ms) ∧ (∀ e ∈ job.task.identity, member e.1 (.object ms) = some (str e.2)) ∧
      isEqual (member "targets" (.object ms)) (.array targets) = true := by
  unfold taskReasons at h
  split at h
  next ms =>
    split_ifs at h with hidentity
    rw [reasonIf_eq_nil] at h
    exact ⟨ms, rfl, hasStrings_iff.mp (Bool.eq_true_of_not_eq_false hidentity), Bool.eq_true_of_not_eq_false h⟩
  · cases h

theorem ioReasons_eq_nil {value : Option Doc} (h : ioReasons text job value = .ok []) :
    ∃ ms header tensor, value = some (.object ms) ∧ member "onnxHeader" (.object ms) = some header ∧
      (∀ e ∈ expectedHeader text job, member e.1 header = some (str e.2)) ∧
      member "tensor" (.object ms) = some tensor ∧ TensorContract job.task tensor := by
  unfold ioReasons at h
  split at h
  next ms =>
    split at h
    next header hheader =>
      dsimp only at h
      split at h
      next tensor htensor =>
        obtain ⟨tensorOk, hexact, h⟩ := bind_eq_ok.mp h
        obtain ⟨hheaderOk, htensorOk⟩ := List.append_eq_nil_iff.mp (pure_eq_ok.mp h)
        rw [reasonIf_eq_nil] at hheaderOk htensorOk
        obtain rfl := Bool.eq_true_of_not_eq_false htensorOk
        exact ⟨ms, .object header, .object tensor, rfl, hheader,
          hasStrings_iff.mp (Bool.eq_true_of_not_eq_false hheaderOk), htensor, tensorContract_of_exact hexact⟩
      · obtain ⟨-, htensorOk⟩ := List.append_eq_nil_iff.mp (pure_eq_ok.mp h)
        exact absurd rfl (reasonIf_eq_nil.mp htensorOk)
    · -- Without a header there is a reason, whatever the tensor is.
      have hreason : ∀ tensorOk, reasonIf (false = false)
          (units "external policy ONNX header does not match admitted contract/task authority") ++
          reasonIf (tensorOk = false) (units "external policy tensor contract is unsupported or drifted") ≠ [] :=
        fun _ hnil => absurd rfl (reasonIf_eq_nil.mp (List.append_eq_nil_iff.mp hnil).1)
      dsimp only at h
      split at h
      · obtain ⟨tensorOk, -, h⟩ := bind_eq_ok.mp h
        exact absurd (pure_eq_ok.mp h) (hreason tensorOk)
      · exact absurd (pure_eq_ok.mp h) (hreason false)
  · cases h

theorem onnxReasons_eq_nil {external : Doc} (h : onnxReasons text (member "onnx" external) = [])
    (hbytes : carriesBytes (orEmpty (member "onnx" external)) = true) :
    onnxBytesMatch text (orEmpty (member "onnx" external)) = true := by
  unfold onnxReasons at h
  split at h
  next ms hms =>
    rw [hms] at hbytes ⊢
    rw [reasonIf_eq_nil] at h
    exact Bool.eq_true_of_not_eq_false fun hno => h ⟨hbytes, hno⟩
  next hno =>
    have hempty : orEmpty (member "onnx" external) = .object [] := by
      unfold orEmpty
      split
      · exact absurd ‹_› (hno _)
      · rfl
    rw [hempty] at hbytes
    cases hbytes

theorem onnxBytesMatch_spec {onnx : Doc} (h : onnxBytesMatch text onnx = true) :
    ∃ encoded hash bytes, member "modelBase64" onnx = some (str encoded) ∧ Python.b64decode encoded = some bytes ∧
      member "byteSize" onnx = some (.leaf (.number (.int bytes.length))) ∧ 0 < bytes.length ∧
      bytes.length ≤ 5 * 1024 * 1024 ∧ member "sha256" onnx = some (str hash) ∧ text.sha256 bytes = hash := by
  unfold onnxBytesMatch at h
  split at h
  next encoded size hash hencoded hsize hhash =>
    split_ifs at h with hbounds
    split at h
    next bytes hbytes =>
      simp only [Bool.and_eq_true, decide_eq_true_eq] at h
      obtain ⟨rfl, hdigest⟩ := h
      obtain ⟨hpos, hle, -⟩ := hbounds
      rw [maxOnnxBytes] at hle
      exact ⟨encoded, hash, bytes, hencoded, hbytes, hsize, by omega, by omega, hhash, hdigest⟩
    · cases h
  · cases h

/-- What makes a policy exportable. -/
theorem externalPolicyResult_exportable {external : Doc} {policy : ExternalPolicy}
    (h : externalPolicyResult text job external = .ok policy) (hexport : policy.scorecard.exportable = true) :
    ∃ card, externalScorecard text job external = .ok card ∧ (gate card).exportable = true ∧
      externalPolicyAuthorityReasons text job external card = .ok [] ∧ policy.scorecard.card = card ∧
      policy.task = (asRecord (member "task" external)).getD job.task.document ∧
      policy.io = externalIo text job external ∧
      policy.onnx.modelBase64 = member "modelBase64" (orEmpty (member "onnx" external)) ∧
      policy.onnx.byteSize = member "byteSize" (orEmpty (member "onnx" external)) ∧
      policy.onnx.sha256 = member "sha256" (orEmpty (member "onnx" external)) := by
  obtain ⟨card, hcard, h⟩ := bind_eq_ok.mp h
  obtain ⟨reasons, hreasons, h⟩ := bind_eq_ok.mp h
  obtain rfl := pure_eq_ok.mp h
  simp only [Bool.and_eq_true, List.isEmpty_iff] at hexport
  obtain ⟨⟨hgate, -⟩, rfl⟩ := hexport
  exact ⟨card, hcard, hgate, hreasons, rfl, rfl, rfl, rfl, rfl, rfl⟩

theorem robustnessReasons_eq_nil {cells : List (CodeUnits × Doc)}
    (h : robustnessReasons (some (.object cells)) = .ok []) : anyOutsideUnit cells = .ok false := by
  obtain ⟨bad, hbad, h⟩ := bind_eq_ok.mp h
  have hno := reasonIf_eq_nil.mp (pure_eq_ok.mp h)
  rw [hbad, Bool.eq_false_of_not_eq_true hno]

/-- What holds if the authority has nothing against a policy. -/
theorem externalPolicyAuthorityReasons_eq_nil {external : Doc} {card : Scorecard}
    (h : externalPolicyAuthorityReasons text job external card = .ok []) :
    (card.lineageAt "contractHash" = some (job.contractHash text) ∧ card.task = job.task.id ∧
      card.taskVersion = job.task.version ∧ card.lineageAt "taskDefinitionHash" = some job.task.definitionHash) ∧
    (0.0 ≤ card.successRate ∧ card.successRate ≤ 1.0 ∧ ¬1000000000 < card.energyWh) ∧
    robustnessReasons (scored external "robustness") = .ok [] ∧
    (∃ targets, taskTargets job.task = .ok targets ∧ taskReasons job (member "task" external) targets = []) ∧
    ioReasons text job (member "io" external) = .ok [] ∧ onnxReasons text (member "onnx" external) = [] := by
  obtain ⟨robustness, hrobustness, h⟩ := bind_eq_ok.mp h
  obtain ⟨targets, htargets, h⟩ := bind_eq_ok.mp h
  obtain ⟨io, hio, h⟩ := bind_eq_ok.mp h
  have hnil := pure_eq_ok.mp h
  simp only [List.append_eq_nil_iff, reasonIf_eq_nil, not_not, Bool.not_eq_false, Bool.and_eq_true,
    decide_eq_true_eq] at hnil
  obtain ⟨⟨⟨⟨⟨⟨⟨⟨hcontract, htask⟩, hversion⟩, hdefinition⟩, ⟨hsuccess, henergy⟩, -⟩, rfl⟩, htaskReasons⟩, rfl⟩,
    honnx⟩ := hnil
  exact ⟨⟨hcontract, htask, hversion, hdefinition⟩, ⟨hsuccess.1, hsuccess.2, henergy⟩, hrobustness,
    ⟨targets, htargets, htaskReasons⟩, hio, honnx⟩

/-- The numbers of a scorecard that was read of a finite result. -/
theorem externalScorecard_finite {external : Doc} {card : Scorecard} (hfinite : external.Everywhere Python.Finite)
    (h : externalScorecard text job external = .ok card) :
    card.successRate.isFinite = true ∧ card.energyWh.isFinite = true ∧
      robustness (scored external "robustness") = .ok card.robustness := by
  obtain ⟨success, hsuccess, h⟩ := bind_eq_ok.mp h
  obtain ⟨cells, hcells, h⟩ := bind_eq_ok.mp h
  obtain ⟨energy, henergy, h⟩ := bind_eq_ok.mp h
  obtain rfl := pure_eq_ok.mp h
  exact ⟨isFinite_number (by decide) (fun _ => finite_scored hfinite) hsuccess,
    isFinite_number (by decide) (fun _ => finite_scored hfinite) henergy, hcells⟩

/-- **The export gate.** -/
theorem trainPolicy_exportable {label : String} {result : Doc} {policy : ExternalPolicy}
    (h : trainPolicy text job label result = .ok policy) (hexport : policy.scorecard.exportable = true) :
    Gated text job result policy := by
  obtain ⟨external, htrainer, h⟩ := bind_eq_ok.mp h
  obtain ⟨-, htrainer⟩ := check_eq_ok.mp htrainer
  obtain ⟨u, hbounded, htrainer⟩ := bind_eq_ok.mp htrainer
  obtain rfl := pure_eq_ok.mp htrainer
  have hfinite := Python.finite_of_assertBoundedJson hbounded
  obtain ⟨card, hcard, hgate, hauthority, rfl, htask, hio, hbase64, hsize, hsha⟩ :=
    externalPolicyResult_exportable h hexport
  obtain ⟨hsuccess, henergy, hcells⟩ := externalScorecard_finite hfinite hcard
  obtain ⟨hestimator, hthreshold, hgrid, hweak, hpositive, hlineage⟩ := gate_exportable hgate
  obtain ⟨⟨hcontract, hid, hversion, hdefinition⟩, ⟨-, hunit, hbound⟩, hrates, ⟨targets, htargets, htaskReasons⟩,
    hioReasons, honnx⟩ := externalPolicyAuthorityReasons_eq_nil hauthority
  obtain ⟨cells, hobject, hread⟩ := robustness_object hcells hgrid
  rw [hobject] at hrates
  have hrate := unit_of_anyOutsideUnit (robustnessReasons_eq_nil hrates)
  obtain ⟨hout, hin⟩ := robustnessCells_eq_ok hread
  obtain ⟨ms, hms, hidentity, htargetsEq⟩ := taskReasons_eq_nil htaskReasons
  obtain ⟨io, header, tensor, hioObject, hheader, hheaderEq, htensor, hcontractOf⟩ := ioReasons_eq_nil hioReasons
  have htaskOf : policy.task = .object ms := by rw [htask, hms]; rfl
  have hioOf : policy.io = .object io := by rw [hio, externalIo, hioObject]; rfl
  have hcellFinite : ∀ cell ∈ cells, cell.2.Everywhere Python.Finite :=
    (Tree.everywhere_object.mp (finite_scored hfinite hobject)).2
  refine ⟨hfinite, ?success, ?grid, ?robustness, ?energy, hestimator, ?lineage, ⟨hid, hversion⟩, ?metadata, ?targets,
    ?header, ?tensor, ?bytes⟩
  case success => exact ⟨hsuccess, float_le_of_not_lt hsuccess (by decide) hthreshold, hunit⟩
  case grid =>
    refine ⟨cells, hobject, ?_, fun cell hcell => ?_⟩
    · rintro rfl
      exact hgrid (Except.ok.inj hread).symm
    · obtain ⟨n, x, hn, hx, -⟩ := hrate cell hcell
      obtain ⟨y, hy, hmem⟩ := hin cell.1 n (hn ▸ hcell)
      exact ⟨n, y, hn, hy, hmem⟩
  case robustness =>
    intro cell hcell
    obtain ⟨n, hn, hx⟩ := hout cell hcell
    obtain ⟨m, x, hm, hx', -, hone⟩ := hrate _ hn
    cases hm
    obtain rfl := Except.ok.inj (hx.symm.trans hx')
    have hcellOk : cell.2.isFinite = true := Python.isFinite_float (hcellFinite _ hn) hx
    exact ⟨hcellOk, float_le_of_not_lt hcellOk (by decide) (hweak cell hcell), hone⟩
  case energy =>
    exact ⟨henergy, float_lt_of_not_le henergy (by decide) hpositive, float_le_of_not_lt (by decide) henergy hbound⟩
  case lineage => exact ⟨hcontract, hdefinition, hlineage "seed" (by decide)⟩
  case metadata => rwa [htaskOf]
  case targets => exact ⟨targets, htargets, htaskOf ▸ htargetsEq⟩
  case header => exact ⟨header, hioOf ▸ hheader, hheaderEq⟩
  case tensor => exact ⟨tensor, hioOf ▸ htensor, hcontractOf⟩
  case bytes =>
    intro hcarries
    rw [hbase64, hsize, hsha] at hcarries
    obtain ⟨encoded, hash, bytes, hencoded, hbytes, hlength, hpos, hle, hhash, hdigest⟩ :=
      onnxBytesMatch_spec (onnxReasons_eq_nil honnx (by simpa [carriesBytes, or_assoc] using hcarries))
    exact ⟨encoded, hash, bytes, hbase64.trans hencoded, hbytes, hsize.trans hlength, hpos, hle, hsha.trans hhash,
      hdigest⟩

end

/-! ### A hovering job -/

/-- `str` on the strings and the integers; there is nothing to hash. -/
def hoverText : Text where
  str
    | .leaf (.string s) => s
    | .leaf (.number (.int i)) => units (toString i)
    | _ => []
  str_string _ := rfl
  sha256 _ := []

def hoverTarget (coordinates : String) : Doc :=
  .object [(units "kind", lit "position"),
    (units coordinates, .array [.leaf (.number (.int 0)), .leaf (.number (.decimal 1.5)), .leaf (.number (.int 0))]),
    (units "radiusM", .leaf (.number (.decimal 0.25)))]

def hoverIdentity : List (String × String) :=
  [("id", "hover-hold"), ("suite", "p7-v3"), ("version", "3.0.0"), ("coordinateFrame", "forge-y-up-rh-m"),
    ("definitionHash", "68dae98eb8e917e8dee918a9f80f823b927c2ea5d0ebce958ebf40f358d7497d")]

def strings (entries : List (String × String)) : List (CodeUnits × Doc) := entries.map fun e => (units e.1, lit e.2)

def hoverJob : PolicyJob where
  payload := .object [(units "contractHash", str (List.replicate 64 0x65)), (units "seed", .leaf (.number (.int 11)))]
  task := {
    id := units "hover-hold"
    suite := units "p7-v3"
    version := units "3.0.0"
    coordinateFrame := units "forge-y-up-rh-m"
    definitionHash := units "68dae98eb8e917e8dee918a9f80f823b927c2ea5d0ebce958ebf40f358d7497d"
    archetype := lit "multirotor"
    env := { spawnY := .decimal 1.2, path := none, targets := [hoverTarget "xyz"] }
    document := .object (strings hoverIdentity) }

def hoverAxis (name : String) (layout : List String) : Doc :=
  .object [(units "name", lit name), (units "shape", shape layout.length), (units "layout", lits layout)]

/-- A result for the job, which says nothing of its model. -/
def hoverResult : Doc :=
  .object [(units "provider", lit "live-sb3"),
    (units "task", .object (strings hoverIdentity ++ [(units "targets", .array [hoverTarget "xyzM"])])),
    (units "io", .object [
      (units "onnxHeader", .object ((units "contractHash", str (List.replicate 64 0x65)) :: strings
        [("task", "hover-hold"), ("taskVersion", "3.0.0"),
          ("taskDefinitionHash", "68dae98eb8e917e8dee918a9f80f823b927c2ea5d0ebce958ebf40f358d7497d")])),
      (units "tensor", .object (strings [("schema", "forge-policy-tensor"), ("schemaVersion", "2.0.0"),
        ("coordinateFrame", "forge-y-up-rh-m")] ++ [(units "input", hoverAxis "observations" policyInputLayout),
        (units "output", hoverAxis "actions" policyOutputLayout), (units "rateHz", .leaf (.number (.int 50)))]))]),
    (units "scorecard", .object [(units "task", lit "hover-hold"), (units "taskVersion", lit "3.0.0"),
      (units "successRate", .leaf (.number (.decimal 0.93))),
      (units "robustness", .object [(units "mass+15%", .leaf (.number (.decimal 0.86))),
        (units "wind4ms", .leaf (.number (.decimal 0.79)))]),
      (units "energyWh", .leaf (.number (.decimal 2.4))), (units "trainedOnEstimator", .leaf (.bool true)),
      (units "lineage", .object ((units "contractHash", str (List.replicate 64 0x65)) :: strings [("seed", "11"),
        ("taskDefinitionHash", "68dae98eb8e917e8dee918a9f80f823b927c2ea5d0ebce958ebf40f358d7497d")]))])]

/-- Whether a job ended with a policy that may be exported. -/
def isExportable : Except String ExternalPolicy → Bool
  | .ok policy => policy.scorecard.exportable
  | .error _ => false

theorem isExportable_iff {outcome : Except String ExternalPolicy} :
    isExportable outcome = true ↔ ∃ policy, outcome = .ok policy ∧ policy.scorecard.exportable = true := by
  cases outcome with
  | ok policy => simp [isExportable]
  | error message => simp [isExportable]

theorem exists_hoverPolicy : ∃ policy, trainPolicy hoverText hoverJob "FORGE_SB3_TRAIN_CMD" hoverResult = .ok policy ∧
    policy.scorecard.exportable = true := by
  have hbounded : Python.assertBoundedJson "FORGE_SB3_TRAIN_CMD" (8 * 1024 * 1024) hoverResult = .ok () := by
    simp only [hoverResult, hoverIdentity, hoverTarget, hoverAxis, strings, lits, lit, str, policyInputLayout,
      policyOutputLayout, List.map_cons, List.map_nil, units_eq_ascii]
    decide +kernel
  have htrainer : trainerResult "FORGE_SB3_TRAIN_CMD" hoverResult = .ok hoverResult :=
    check_eq_ok.mpr ⟨by decide, check_eq_ok.mpr ⟨hbounded, rfl⟩⟩
  have hexternal : isExportable (externalPolicyResult hoverText hoverJob hoverResult) = true := by
    simp only [hoverJob, hoverResult, hoverIdentity, hoverTarget, hoverAxis, strings, lits, lit, str, policyInputLayout,
      policyOutputLayout, List.map_cons, List.map_nil, units_eq_ascii]
    decide +kernel
  obtain ⟨policy, hpolicy, hexport⟩ := isExportable_iff.mp hexternal
  exact ⟨policy, bind_eq_ok.mpr ⟨hoverResult, htrainer, hpolicy⟩, hexport⟩

theorem trainPolicy_exportable_hover :
    ∃ policy, trainPolicy hoverText hoverJob "FORGE_SB3_TRAIN_CMD" hoverResult = .ok policy ∧
      policy.scorecard.exportable = true ∧ Gated hoverText hoverJob hoverResult policy := by
  obtain ⟨policy, hpolicy, hexport⟩ := exists_hoverPolicy
  exact ⟨policy, hpolicy, hexport, trainPolicy_exportable hpolicy hexport⟩

/-- A policy without the bytes of a model is exportable. -/
theorem exportable_without_bytes :
    ∃ policy, trainPolicy hoverText hoverJob "FORGE_SB3_TRAIN_CMD" hoverResult = .ok policy ∧
      policy.scorecard.exportable = true ∧ ¬BytesMatch hoverText policy.onnx := by
  obtain ⟨policy, hpolicy, hexport⟩ := exists_hoverPolicy
  refine ⟨policy, hpolicy, hexport, ?_⟩
  rintro ⟨encoded, -, -, hencoded, -⟩
  obtain ⟨external, htrainer, h⟩ := bind_eq_ok.mp hpolicy
  obtain ⟨-, htrainer⟩ := check_eq_ok.mp htrainer
  obtain ⟨-, -, htrainer⟩ := bind_eq_ok.mp htrainer
  obtain rfl := pure_eq_ok.mp htrainer
  obtain ⟨-, -, -, -, -, -, -, hbase64, -⟩ := externalPolicyResult_exportable h hexport
  have hnone : member "modelBase64" (orEmpty (member "onnx" hoverResult)) = none := by decide +kernel
  rw [hencoded, hnone] at hbase64
  cases hbase64

end Forge.Training
