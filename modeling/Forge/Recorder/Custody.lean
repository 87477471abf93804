import Forge.Data.Except
import Forge.Json.Characters
import Forge.Recorder.Admission

/-!
# Custody of recorder archives

Any number of users stage, complete and admit recorder archives and complete single
blobs, all at the same time. Each statement, transaction and download is a step of its
own, and between two of them anything may happen to the objects, to the rows of
`object_blobs` and to the registry.

`Writes` is what every step does to the tables of the archives. Each call makes only
such steps (`stageRecorderArchive_proper` to `admitRecorderArchive_proper`): what an
admission rests on is read in earlier steps, and is still true at its commit because
plans do not change and the history of the verifier only grows. The **key result**
`custodyChain` is what follows for every state that any interleaving reaches.
-/

namespace Forge.Recorder

open Program (Keeps Stable Returns)

/-! ### What steps do -/

/-- Two states of one materialization: all but its status and the columns that go with it are the same. -/
structure Materialization.SameEvidence (m m' : Materialization) : Prop where
  id : m.id = m'.id
  ownerUserId : m.ownerUserId = m'.ownerUserId
  artifactId : m.artifactId = m'.artifactId
  blobId : m.blobId = m'.blobId
  uploadPlan : m.uploadPlan = m'.uploadPlan

theorem Materialization.SameEvidence.refl (m : Materialization) : m.SameEvidence m := ⟨rfl, rfl, rfl, rfl, rfl⟩

theorem Materialization.SameEvidence.trans {m m' m'' : Materialization} (h : m.SameEvidence m')
    (h' : m'.SameEvidence m'') : m.SameEvidence m'' :=
  ⟨h.id.trans h'.id, h.ownerUserId.trans h'.ownerUserId, h.artifactId.trans h'.artifactId, h.blobId.trans h'.blobId,
    h.uploadPlan.trans h'.uploadPlan⟩

/-- The verifier was given files of the planned sizes and digests and accepted them with a report that says
what the plan says and names these digests. -/
structure Verified (env : Env) (plan : RecorderUploadPlan) (v : Verification) (report : VerificationReport) : Prop where
  accepted : v.result.exitCode = 0
  returned : v.result.report = some report.value
  constants : hasMembers reportConstants report.value = true
  agrees : agreeOn planMembers report.value plan.value = true
  frame : stringMember "frameFileSha256" report.value = some (plan.file .frame).sha256
  index : stringMember "indexFileSha256" report.value = some (plan.file .index).sha256
  replay : stringMember "replayFileSha256" report.value = some (plan.file .replay).sha256
  contractHash : report.contractHash = plan.contractHash
  lockfileHash : report.lockfileHash = plan.lockfileHash
  sizes : ∀ role, ((v.files role).length : ℤ) = (plan.file role).byteSize
  digests : ∀ role, env.sha256 (v.files role) = (plan.file role).sha256

/-- What an admission rests on: a materialization of its owner whose archive was verified, and a model of its owner
that is admitted with the hashes of the plan. -/
def Warranted (env : Env) (w : World) (a : Admission) : Prop :=
  ∃ m ∈ w.materializations, m.id = a.materializationId ∧ m.ownerUserId = a.ownerUserId ∧
    (∃ v ∈ w.verifications, Verified env m.uploadPlan v a.verification) ∧
    ∃ model ∈ w.modelRegistry, model.id = a.modelId ∧ model.ownerUserId = a.ownerUserId ∧
      provesAdmission model m.uploadPlan.contractHash m.uploadPlan.lockfileHash = true

/-- The materialization that a log refers to. -/
def TelemetryLog.materializationId (l : TelemetryLog) : Option CodeUnits := stringMember "materializationId" l.tape

/-- The tables of the archives and the history of the verifier are as before. -/
structure Untouched (w w' : World) : Prop where
  materializations : w'.materializations = w.materializations
  telemetryLogs : w'.telemetryLogs = w.telemetryLogs
  admissions : w'.admissions = w.admissions
  verifications : w'.verifications = w.verifications

theorem Untouched.refl (w : World) : Untouched w w := ⟨rfl, rfl, rfl, rfl⟩

theorem Untouched.trans (w w' w'' : World) (h : Untouched w w') (h' : Untouched w' w'') : Untouched w w'' :=
  ⟨h'.materializations.trans h.materializations, h'.telemetryLogs.trans h.telemetryLogs,
    h'.admissions.trans h.admissions, h'.verifications.trans h.verifications⟩

/-- What one step of a call does to the tables of the archives. -/
inductive Writes (env : Env) (w w' : World) : Prop where
  | untouched (h : Untouched w w')
  /-- The verifier ran. -/
  | verified (v : Verification) (h : w' = { w with verifications := w.verifications ++ [v] })
  /-- A materialization of another artifact is new. -/
  | staged (m : Materialization)
      (fresh : ∀ m' ∈ w.materializations, m'.id ≠ m.id ∧ ¬ (m'.ownerUserId = m.ownerUserId ∧ m'.artifactId = m.artifactId))
      (materializations : w'.materializations = w.materializations ++ [m])
      (telemetryLogs : w'.telemetryLogs = w.telemetryLogs) (admissions : w'.admissions = w.admissions)
      (verifications : w'.verifications = w.verifications)
  /-- Materializations change without their evidence. -/
  | progressed (f : Materialization → Materialization) (same : ∀ m, (f m).SameEvidence m)
      (h : w' = { w with materializations := w.materializations.map f })
  /-- A warranted admission is new, and its log with it. -/
  | admitted (a : Admission) (l : TelemetryLog) (warranted : Warranted env w a)
      (fresh : ∀ a' ∈ w.admissions, a'.materializationId ≠ a.materializationId)
      (freshLog : ∀ l' ∈ w.telemetryLogs, l'.id ≠ l.id) (log : a.telemetryLogId = l.id)
      (refers : l.materializationId = some a.materializationId)
      (h : w' = { w with telemetryLogs := w.telemetryLogs ++ [l], admissions := w.admissions ++ [a] })

/-- What may happen outside these calls: the rows of object blobs and of the registry change. -/
def Elsewhere (w w' : World) : Prop := Untouched w w'

/-- A materialization is known by its evidence. -/
def Known (m : Materialization) (w : World) : Prop := ∃ m' ∈ w.materializations, m'.SameEvidence m

theorem Writes.known {env : Env} {w w' : World} (h : Writes env w w') {m : Materialization} (hm : Known m w) :
    Known m w' := by
  obtain ⟨m', hm', hsame⟩ := hm
  cases h with
  | untouched h => exact ⟨m', h.materializations ▸ hm', hsame⟩
  | verified v h => exact h ▸ ⟨m', hm', hsame⟩
  | staged m₀ fresh hmat => exact ⟨m', hmat ▸ List.mem_append_left _ hm', hsame⟩
  | progressed f same h => exact h ▸ ⟨f m', List.mem_map_of_mem hm', (same m').trans hsame⟩
  | admitted a l _ _ _ _ _ h => exact h ▸ ⟨m', hm', hsame⟩

/-- The history of the verifier only grows. -/
theorem Writes.recorded {env : Env} {w w' : World} (h : Writes env w w') {v : Verification} (hv : v ∈ w.verifications) :
    v ∈ w'.verifications := by
  cases h with
  | untouched h => exact h.verifications ▸ hv
  | verified v₀ h => exact h ▸ List.mem_append_left _ hv
  | staged _ _ _ _ _ h => exact h ▸ hv
  | progressed f same h => exact h ▸ hv
  | admitted a l _ _ _ _ _ h => exact h ▸ hv

/-- What a call has to rely on. -/
abbrev Changes (env : Env) : World → World → Prop := Pool.Change (Writes env) Elsewhere

theorem stable_known (env : Env) (m : Materialization) : Stable (Changes env) (Known m) := fun _ _ h hm =>
  h.elim (fun h => h.known hm) fun h => (.untouched h : Writes env _ _).known hm

theorem stable_recorded (env : Env) (v : Verification) : Stable (Changes env) fun w => v ∈ w.verifications :=
  fun _ _ h hv => h.elim (fun h => h.recorded hv) fun h => (.untouched h : Writes env _ _).recorded hv

/-! ### Rules for calls -/

/-- The program makes only proper writes, and ends with `Q` if it returns. -/
abbrev Proper (env : Env) (P : World → Prop) (p : Step α) (Q : α → World → Prop) : Prop :=
  Keeps (Changes env) (Writes env) P p (Returns Q)

section

variable {α β : Type} {env : Env} {P : World → Prop} {p : Step α} {Q : α → World → Prop}

theorem Proper.bind {f : α → Step β} {Q' : β → World → Prop} (h : Proper env P p Q)
    (hf : ∀ a, Proper env (Q a) (f a) Q') : Proper env P (p >>= f) Q' :=
  Keeps.bind h hf fun _ _ _ => trivial

theorem proper_pure {a : α} (h : ∀ w, P w → Q a w) : Proper env P (pure a) Q := h

theorem proper_throw (e : Failure) : Proper env P (.throw e : Step α) Q := fun _ _ => trivial

theorem proper_ofExcept {r : Except Failure α} (h : ∀ a w, r = .ok a → P w → Q a w) :
    Proper env P (.ofExcept r) Q := by
  intro w hw
  cases r with
  | ok a => exact h a w rfl hw
  | error e => trivial

theorem proper_throwIf {c : Prop} [Decidable c] {e : Failure} :
    Proper env P (throwIf c e) fun _ w => ¬ c ∧ P w :=
  proper_ofExcept fun _ _ hr hw => ⟨refuse_eq_ok.mp hr, hw⟩

/-- A step makes a proper write however it ends, and what it leaves if it returns is stable. -/
theorem proper_statement {x : Outside → Call World Failure α} (hQ : ∀ a, Stable (Changes env) (Q a))
    (hwrites : ∀ o w, P w → Writes env w (x o w).2)
    (h : ∀ o w w' a, P w → x o w = (.ok a, w') → Q a w') : Proper env P (statement x) Q := by
  refine Keeps.perform (fun r => ?_) fun w o hw => ?_
  · cases r with
    | ok a => exact hQ a
    | error e => exact Program.stable_true
  · unfold attended
    cases o.fault with
    | some e => exact ⟨.untouched (.refl w), trivial⟩
    | none =>
      cases o.lost with
      | some e => exact ⟨hwrites o w hw, trivial⟩
      | none =>
        refine ⟨hwrites o w hw, ?_⟩
        rcases hx : x o w with ⟨r, w'⟩
        cases r with
        | ok a => exact h o w w' a hw hx
        | error e => trivial

/-- A statement that reads: what it finds, if that is stable. -/
theorem proper_select {f : World → α} (hQ : ∀ a, Stable (Changes env) (Q a)) (h : ∀ w, P w → Q (f w) w) :
    Proper env P (select f) Q := by
  refine proper_statement hQ (fun _ w _ => .untouched (.refl w)) fun _ w w' a hw hx => ?_
  obtain ⟨rfl, rfl⟩ : f w = a ∧ w = w' := by
    cases hx
    exact ⟨rfl, rfl⟩
  exact h w hw

/-- A loop over the files: what is found for each is known afterwards. -/
theorem proper_forFiles {f : RecorderFileRole → Step α} {C : RecorderFileRole → α → Prop}
    (h : ∀ role, Proper env (fun _ => True) (f role) fun a _ => C role a) :
    Proper env (fun _ => True) (forFiles f) fun g _ => ∀ role, C role (g role) := by
  have next : ∀ {role : RecorderFileRole} {a : α} {γ : Type} {q : Step γ} {Q' : γ → World → Prop},
      (C role a → Proper env (fun _ => True) q Q') → Proper env (fun _ => C role a) q Q' := fun hq =>
    (Keeps.fact hq).pre fun _ hC => ⟨hC, trivial⟩
  refine (h .manifest).bind fun manifest => next fun hmanifest => ?_
  refine (h .frame).bind fun frame => next fun hframe => ?_
  refine (h .index).bind fun index => next fun hindex => ?_
  refine (h .replay).bind fun replay => next fun hreplay => ?_
  refine (h .receipt).bind fun receipt => next fun hreceipt => ?_
  refine proper_pure fun _ _ role => ?_
  cases role <;> assumption

end

/-! ### Blobs and downloads -/

section

variable {α : Type} {env : Env} {P : World → Prop}

/-- A statement on the other tables. -/
theorem proper_untouched {x : Outside → Call World Failure α} (h : ∀ o, Call.Within Untouched (x o)) :
    Proper env P (statement x) fun _ _ => True :=
  proper_statement (fun _ => Program.stable_true) (fun o w _ => .untouched (h o w)) fun _ _ _ _ _ _ => trivial

/-- An answer from outside, which changes nothing. -/
theorem proper_answer {r : Outside → Except Failure α} {C : α → Prop} (h : ∀ o a, r o = .ok a → C a) :
    Proper env P (.perform fun o => .ofExcept (r o)) fun a _ => C a := by
  refine Keeps.perform (fun r => ?_) fun w o _ => ⟨.untouched (.refl w), ?_⟩
  · cases r with
    | ok a => exact fun _ _ _ ha => ha
    | error e => exact Program.stable_true
  · change Returns (fun a _ => C a) (r o) w
    cases hr : r o with
    | ok a => exact h o a hr
    | error e => trivial

theorem within_updateDeclared (user : CodeUnits) (blob : ObjectBlob) (set : ObjectBlob → ObjectBlob) :
    Call.Within Untouched (updateDeclared user blob set) := fun _ => ⟨rfl, rfl, rfl, rfl⟩

theorem getOwnedObjectBlob_proper (user blobId : CodeUnits) :
    Proper env P (getOwnedObjectBlob user blobId) fun _ _ => True :=
  proper_select (fun _ => Program.stable_true) fun _ _ => trivial

theorem inspectObject_proper : Proper env P inspectObject fun _ _ => True := proper_answer fun _ _ _ => trivial

theorem completeObjectBlobUpload_proper (user blobId : CodeUnits) (inspection : StoredObjectInspection) :
    Proper env P (completeObjectBlobUpload user blobId inspection) fun _ _ => True := by
  refine (getOwnedObjectBlob_proper user blobId).bind fun found => ?_
  cases found with
  | none => exact proper_throw _
  | some blob =>
    dsimp only
    cases mismatch blob inspection with
    | some errorCode =>
      refine (proper_untouched fun _ => within_updateDeclared user blob _).bind fun updated => ?_
      exact proper_throwIf.bind fun _ => proper_throw _
    | none =>
      refine (proper_untouched fun _ => within_updateDeclared user blob _).bind fun updated => ?_
      cases updated with
      | some blob => exact proper_pure fun _ _ => trivial
      | none => exact proper_throw _

/-- **Completing a single blob** leaves the tables of the archives alone. -/
theorem completeBlob_proper (user blobId : CodeUnits) : Proper env P (completeBlob user blobId) fun _ _ => True := by
  refine (getOwnedObjectBlob_proper user blobId).bind fun found => ?_
  cases found with
  | none => exact proper_throw _
  | some blob => exact inspectObject_proper.bind fun inspection => completeObjectBlobUpload_proper user blob.id inspection

/-- What a download returns is held against the declaration. -/
theorem streamStoredObject_ok {bucket : CodeUnits} {object : StoredObjectRead} {body : Except Failure (List Bytes)}
    {bytes : Bytes} (h : streamStoredObject env bucket object body = .ok bytes) :
    (bytes.length : ℤ) = object.byteSize ∧ env.sha256 bytes = toLowerCase object.sha256 := by
  unfold streamStoredObject at h
  obtain ⟨_, -, h⟩ := bind_eq_ok.mp h
  obtain ⟨_, -, h⟩ := bind_eq_ok.mp h
  obtain ⟨_, -, h⟩ := bind_eq_ok.mp h
  obtain ⟨declared, hdeclared, h⟩ := bind_eq_ok.mp h
  obtain ⟨_, -, h⟩ := bind_eq_ok.mp h
  obtain ⟨received, -, h⟩ := bind_eq_ok.mp h
  obtain ⟨_, hsize, h⟩ := bind_eq_ok.mp h
  obtain ⟨_, hdigest, h⟩ := bind_eq_ok.mp h
  obtain rfl : received = bytes := by cases h; rfl
  have hlower : toLowerCase object.sha256 = declared := by
    unfold normalizedSha256 at hdeclared
    split at hdeclared <;> cases hdeclared
    rfl
  exact ⟨not_not.mp (refuse_eq_ok.mp hsize), (not_not.mp (refuse_eq_ok.mp hdigest)).trans hlower.symm⟩

/-- **A download** that returns has the declared size and digest, whatever the object was before or after. -/
theorem download_proper (config : CodeUnits) (object : StoredObjectRead) :
    Proper env P (download env config object) fun bytes _ =>
      (bytes.length : ℤ) = object.byteSize ∧ env.sha256 bytes = toLowerCase object.sha256 :=
  proper_answer fun _ _ h => streamStoredObject_ok h

end

/-! ### Staging -/

section

variable {α : Type} {env : Env} {P : World → Prop}

/-- A transaction makes a proper write if its body does where it returns. -/
theorem proper_transaction {x : Outside → Call World Failure α} {Q : α → World → Prop}
    (hQ : ∀ a, Stable (Changes env) (Q a))
    (h : ∀ o w w' a, P w → x o w = (.ok a, w') → Writes env w w' ∧ Q a w') :
    Proper env P (withGatewayTransaction x) Q := by
  refine proper_statement hQ (fun o w hw => ?_) fun o w w' a hw ha => ?_
  · rcases hx : Call.transaction none (x o) w with ⟨r, w'⟩
    cases r with
    | ok a => exact (h o w w' a hw (Call.transaction_ok hx).2).1
    | error e =>
      change Writes env w w'
      rw [Call.transaction_error hx]
      exact .untouched (.refl w)
  · exact (h o w w' a hw (Call.transaction_ok ha).2).2

theorem within_upsertObjectBlob (row : ObjectBlob) : Call.Within Untouched (upsertObjectBlob row) := by
  refine Call.Within.bind Untouched.trans (Call.within_read .refl) fun w => ?_
  split
  · split
    · exact fun _ => ⟨rfl, rfl, rfl, rfl⟩
    · exact Call.within_pure .refl _
  · split
    · exact Call.within_throw .refl _
    · exact fun _ => ⟨rfl, rfl, rfl, rfl⟩

theorem within_registerObjectBlob (user : CodeUnits) (input : BlobDeclaration) (id random : CodeUnits) (now : ℤ) :
    Call.Within Untouched (registerObjectBlob user input id random now) := by
  refine Call.Within.bind Untouched.trans (Call.within_ofExcept .refl _) fun checked => ?_
  refine Call.Within.bind Untouched.trans (within_upsertObjectBlob _) fun row => ?_
  split
  · exact Call.within_throw .refl _
  · split
    · exact Call.within_throw .refl _
    · exact Call.within_pure .refl _

theorem within_forFiles {f : RecorderFileRole → Call World Failure α} (h : ∀ role, Call.Within Untouched (f role)) :
    Call.Within Untouched (forFiles f) := by
  refine Call.Within.bind Untouched.trans (h .manifest) fun _ => ?_
  refine Call.Within.bind Untouched.trans (h .frame) fun _ => ?_
  refine Call.Within.bind Untouched.trans (h .index) fun _ => ?_
  refine Call.Within.bind Untouched.trans (h .replay) fun _ => ?_
  exact Call.Within.bind Untouched.trans (h .receipt) fun _ => Call.within_pure .refl _

/-- A materialization is inserted unless its owner has one of the artifact, which then stays as it is. -/
theorem insertMaterialization_ok {row : Materialization} {w w' : World} {r : Option Materialization}
    (h : insertMaterialization row w = (.ok r, w')) :
    w' = w ∨ (w' = { w with materializations := w.materializations ++ [row] } ∧ ∀ m ∈ w.materializations,
      m.id ≠ row.id ∧ ¬ (m.ownerUserId = row.ownerUserId ∧ m.artifactId = row.artifactId)) := by
  obtain ⟨_, _, hread, h⟩ := Call.bind_eq_ok.mp h
  cases hread
  split at h
  · cases h
    exact .inl rfl
  · rename_i hnone
    split at h
    · cases h
    · rename_i hkey
      cases h
      refine .inr ⟨rfl, fun m hm => ⟨fun hid => ?_, fun hsame => ?_⟩⟩
      · exact hkey (.inr (List.any_eq_true.mpr ⟨m, hm, decide_eq_true hid⟩))
      · exact hnone (List.find?_isSome.mpr ⟨m, hm, by simpa using hsame⟩)

theorem stageTransaction_writes {user bucket : CodeUnits} {plan : RecorderUploadPlan} {o : Outside} {w w' : World}
    {r : Materialization × (RecorderFileRole → ObjectBlob)}
    (h : stageTransaction env user plan bucket o w = (.ok r, w')) : Writes env w w' := by
  obtain ⟨blobs, t, hblobs, h⟩ := Call.bind_eq_ok.mp h
  obtain ⟨inserted, u, hinsert, h⟩ := Call.bind_eq_ok.mp h
  obtain ⟨_, _, hread, h⟩ := Call.bind_eq_ok.mp h
  cases hread
  obtain rfl : u = w' := by
    cases hfound : inserted.or (findArtifact user plan.artifactId u) with
    | none =>
      rw [hfound] at h
      cases h
    | some existing =>
      rw [hfound] at h
      dsimp only at h
      split_ifs at h <;> cases h
      rfl
  have huntouched : Untouched w t := by
    have := within_forFiles (fun role => within_registerObjectBlob user (fileDeclaration env user plan bucket role)
      (o.freshId role.position) [] o.now) w
    rwa [hblobs] at this
  rcases insertMaterialization_ok hinsert with rfl | ⟨rfl, hfresh⟩
  · exact .untouched huntouched
  · refine .staged _ (huntouched.materializations ▸ hfresh) ?_ huntouched.telemetryLogs huntouched.admissions
      huntouched.verifications
    exact congrArg (· ++ _) huntouched.materializations

/-- **Staging** inserts at most one materialization, of an artifact that had none. -/
theorem stageRecorderArchive_proper (user : CodeUnits) (planValue : Doc) (bucket : CodeUnits) :
    Proper env P (stageRecorderArchive env user planValue bucket) fun _ _ => True := by
  refine Proper.bind (Q := fun _ _ => True) (proper_ofExcept fun _ _ _ _ => trivial) fun plan => ?_
  exact proper_transaction (fun _ => Program.stable_true) fun o w w' a _ h => ⟨stageTransaction_writes h, trivial⟩

/-! ### Completion -/

theorem Writes.update {w : World} {p : Materialization → Bool} {f : Materialization → Materialization}
    (hf : ∀ m, (f m).SameEvidence m) :
    Writes env w { w with materializations := Table.update p f w.materializations } := by
  refine .progressed (fun m => if p m then f m else m) (fun m => ?_) rfl
  split
  · exact hf m
  · exact .refl m

theorem completeFile_proper (user : CodeUnits) (m : Materialization) (role : RecorderFileRole) :
    Proper env P (completeFile user m role) fun _ _ => True := by
  refine (getOwnedObjectBlob_proper user (m.blobId role)).bind fun found => ?_
  cases found with
  | none => exact proper_throw _
  | some blob =>
    refine proper_throwIf.bind fun _ => ?_
    exact inspectObject_proper.bind fun inspection => completeObjectBlobUpload_proper user blob.id inspection

theorem completeTransaction_writes {user id : CodeUnits} {o : Outside} {w w' : World} {r : Materialization}
    (h : completeTransaction user id o w = (.ok r, w')) : Writes env w w' := by
  obtain ⟨_, _, hread, h⟩ := Call.bind_eq_ok.mp h
  cases hread
  cases hfound : w.materializations.find? (ownedRow user id) with
  | none =>
    rw [hfound] at h
    cases h
  | some m =>
    rw [hfound] at h
    cases h
    exact .update fun m => ⟨rfl, rfl, rfl, rfl, rfl⟩

theorem completeMaterialization_proper (user id config : CodeUnits) (m : Materialization) :
    Proper env (fun _ => True) (completeMaterialization env user id config m) fun _ _ => True := by
  have hfiles : Proper env (fun _ => True) (forFiles (completeFile user m)) fun _ _ => True :=
    (proper_forFiles (C := fun _ _ => True) (completeFile_proper user m)).post fun r _ _ => by
      cases r <;> trivial
  have hread : ∀ (blob : ObjectBlob), Proper env (fun _ => True) (readMetadata env config blob) fun _ _ => True :=
    fun blob => (download_proper config _).post fun r _ _ => by
      cases r <;> trivial
  refine hfiles.bind fun blobs => (hread _).bind fun manifestBytes => (hread _).bind fun receiptBytes => ?_
  refine Proper.bind (Q := fun _ _ => True) (proper_ofExcept fun _ _ _ _ => trivial) fun _ => ?_
  exact proper_transaction (fun _ => Program.stable_true) fun o w w' a _ h => ⟨completeTransaction_writes h, trivial⟩

/-- **Completing an archive** changes the status of its materialization, not its evidence. -/
theorem completeRecorderArchive_proper (user id config : CodeUnits) :
    Proper env P (completeRecorderArchive env user id config) fun _ _ => True := by
  have hget : Proper env P (getRecorderArchive user id) fun _ _ => True :=
    proper_select (fun _ => Program.stable_true) fun _ _ => trivial
  refine hget.bind fun found => ?_
  cases found with
  | none => exact proper_throw _
  | some m =>
    refine Keeps.attempt (completeMaterialization_proper user id config m) (fun error => ?_) fun _ _ _ => trivial
    refine Proper.bind (Q := fun _ _ => True) ?_ fun _ => proper_throw error
    exact proper_statement (fun _ => Program.stable_true)
      (fun _ _ _ => .update fun m => ⟨rfl, rfl, rfl, rfl, rfl⟩) fun _ _ _ _ _ _ => trivial

end

/-! ### Admission -/

section

variable {env : Env} {P : World → Prop}

theorem materializedBlob_proper (user : CodeUnits) (m : Materialization) (observed : List CodeUnits)
    (role : RecorderFileRole) :
    Proper env P (materializedBlob user m observed role) fun blob _ =>
      blob.sha256 = some (m.uploadPlan.file role).sha256 := by
  refine (getOwnedObjectBlob_proper user (m.blobId role)).bind fun found => ?_
  cases found with
  | none => exact proper_throw _
  | some blob =>
    refine proper_throwIf.bind fun _ => ?_
    refine proper_pure fun _ h => ?_
    by_contra hsha
    exact h.1 (.inr (.inr (.inr (.inr (.inr hsha)))))

theorem materializedBlobs_proper (user : CodeUnits) (m : Materialization) :
    Proper env P (materializedBlobs user m) fun blobs _ =>
      ∀ role, (blobs role).sha256 = some (m.uploadPlan.file role).sha256 := by
  have next : ∀ {C : Prop} {α : Type} {q : Step α} {Q : α → World → Prop},
      (C → Proper env (fun _ => True) q Q) → Proper env (fun _ => C) q Q := fun hq =>
    (Keeps.fact hq).pre fun _ hC => ⟨hC, trivial⟩
  refine (materializedBlob_proper user m _ .manifest).bind fun manifest => next fun hmanifest => ?_
  refine (materializedBlob_proper user m _ .frame).bind fun frame => next fun hframe => ?_
  refine (materializedBlob_proper user m _ .index).bind fun index => next fun hindex => ?_
  refine (materializedBlob_proper user m _ .replay).bind fun replay => next fun hreplay => ?_
  refine (materializedBlob_proper user m _ .receipt).bind fun receipt => next fun hreceipt => ?_
  refine proper_pure fun _ _ role => ?_
  cases role <;> assumption

/-- A run of the verifier that answers is in the history from then on. -/
theorem runVerifier_proper (files : RecorderFileRole → Bytes) :
    Proper env P (runVerifier files) fun result w => { files, result } ∈ w.verifications := by
  refine Keeps.perform (fun r => ?_) fun w o _ => ?_
  · cases r with
    | ok result => exact stable_recorded env _
    | error e => exact Program.stable_true
  · cases ho : o.verification with
    | error e => exact ⟨.untouched (.refl w), trivial⟩
    | ok result => exact ⟨.verified _ rfl, List.mem_append_right _ List.mem_cons_self⟩

theorem acceptedReport_ok {result : ValidateResult} {value : Doc} (h : acceptedReport result = .ok value) :
    result.exitCode = 0 ∧ result.report = some value := by
  unfold acceptedReport at h
  dsimp only at h
  split at h
  · cases h
  · cases h
  · rename_i value' hreport
    split_ifs at h with hexit
    cases h
    exact ⟨not_not.mp hexit, hreport⟩

/-- What is read off a report is in it. -/
theorem readReport_eq_some {value : Doc} {report : VerificationReport} (h : readReport value = some report) :
    report.value = value ∧ stringMember "contractHash" value = some report.contractHash ∧
      stringMember "lockfileHash" value = some report.lockfileHash := by
  unfold readReport at h
  obtain ⟨contractHash, hcontract, h⟩ := Option.bind_eq_some_iff.mp h
  obtain ⟨lockfileHash, hlockfile, h⟩ := Option.bind_eq_some_iff.mp h
  obtain ⟨replayFileSha256, -, h⟩ := Option.bind_eq_some_iff.mp h
  obtain ⟨startedAtUnixMs, -, h⟩ := Option.bind_eq_some_iff.mp h
  obtain ⟨frameCount, -, h⟩ := Option.bind_eq_some_iff.mp h
  obtain ⟨aggregateByteSize, -, h⟩ := Option.bind_eq_some_iff.mp h
  obtain ⟨durationS, -, h⟩ := Option.bind_eq_some_iff.mp h
  cases h
  exact ⟨rfl, hcontract, hlockfile⟩

theorem validateReport_ok {plan : RecorderUploadPlan} {blobs : RecorderFileRole → ObjectBlob} {value : Doc}
    {report : VerificationReport} (h : validateReport plan blobs value = .ok report) :
    readReport value = some report ∧ reportMatches plan blobs value = true := by
  unfold validateReport at h
  obtain ⟨_, -, h⟩ := bind_eq_ok.mp h
  obtain ⟨_, -, h⟩ := bind_eq_ok.mp h
  split at h
  · cases h
  · rename_i report' hread
    obtain ⟨_, hmatches, h⟩ := bind_eq_ok.mp h
    cases h
    exact ⟨hread, by simpa using refuse_eq_ok.mp hmatches⟩

theorem isDigestOf_iff {blob : ObjectBlob} {name : String} {value : Doc} {sha : CodeUnits}
    (hblob : blob.sha256 = some sha) : isDigestOf blob name value = true ↔ stringMember name value = some sha := by
  unfold isDigestOf
  rw [hblob, stringMember_eq_some]
  exact strictEquals_string

/-- A report that is validated is about the archive that the verifier was given. -/
theorem verified_of_validateReport {plan : RecorderUploadPlan} {blobs : RecorderFileRole → ObjectBlob}
    {files : RecorderFileRole → Bytes} {result : ValidateResult} {value : Doc} {report : VerificationReport}
    (hblobs : ∀ role, (blobs role).sha256 = some (plan.file role).sha256)
    (hfiles : ∀ role, ((files role).length : ℤ) = (plan.file role).byteSize ∧
      env.sha256 (files role) = toLowerCase (plan.file role).sha256)
    (haccepted : acceptedReport result = .ok value) (h : validateReport plan blobs value = .ok report) :
    Verified env plan { files, result } report := by
  obtain ⟨hexit, hreturned⟩ := acceptedReport_ok haccepted
  obtain ⟨hread, hmatches⟩ := validateReport_ok h
  obtain ⟨rfl, hcontract, hlockfile⟩ := readReport_eq_some hread
  simp only [reportMatches, Bool.and_eq_true] at hmatches
  obtain ⟨⟨⟨⟨⟨hconstants, hagrees⟩, hframe⟩, hindex⟩, hreplay⟩, -⟩ := hmatches
  have same : ∀ {name : String} {s t : CodeUnits}, name ∈ planMembers → stringMember name plan.value = some t →
      stringMember name report.value = some s → s = t := fun hname ht hs =>
    Option.some.inj (hs.symm.trans (agreeOn_stringMember hagrees hname ht))
  refine { accepted := hexit, returned := hreturned, constants := hconstants, agrees := hagrees
           frame := (isDigestOf_iff (hblobs .frame)).mp hframe, index := (isDigestOf_iff (hblobs .index)).mp hindex
           replay := (isDigestOf_iff (hblobs .replay)).mp hreplay
           contractHash := same (by decide) plan.reads_contractHash hcontract
           lockfileHash := same (by decide) plan.reads_lockfileHash hlockfile
           sizes := fun role => (hfiles role).1, digests := fun role => (hfiles role).2.trans ?_ }
  exact toLowerCase_of_isSha256 (plan.file role).wellFormed

/-- **Streaming**: a report that is returned is in the history of the verifier, about files with the planned
digests. -/
theorem streamPrivateArchive_proper (user config : CodeUnits) (m : Materialization) :
    Proper env (fun _ => True) (streamPrivateArchive env user config m) fun report w =>
      ∃ v ∈ w.verifications, Verified env m.uploadPlan v report := by
  refine (materializedBlobs_proper user m).bind fun blobs => ?_
  refine (Keeps.fact fun hblobs => ?_).pre fun _ h => ⟨h, trivial⟩
  refine (proper_forFiles fun role => download_proper config (plannedObject (m.uploadPlan.file role) (blobs role))).bind
    fun files => ?_
  refine (Keeps.fact fun hfiles => ?_).pre fun _ h => ⟨h, trivial⟩
  refine (runVerifier_proper files).bind fun result => ?_
  refine Proper.bind (Q := fun value w => acceptedReport result = .ok value ∧ { files, result } ∈ w.verifications)
    (proper_ofExcept fun value w h hw => ⟨h, hw⟩) fun value => ?_
  refine proper_ofExcept fun report w h hw => ⟨_, hw.2, ?_⟩
  exact verified_of_validateReport hblobs hfiles hw.1 h

theorem insertTelemetryLog_ok {row : TelemetryLog} {w w' : World} {u : Unit}
    (h : insertTelemetryLog row w = (.ok u, w')) :
    w' = { w with telemetryLogs := w.telemetryLogs ++ [row] } ∧ ∀ l ∈ w.telemetryLogs, l.id ≠ row.id := by
  obtain ⟨_, _, hread, h⟩ := Call.bind_eq_ok.mp h
  cases hread
  split_ifs at h with hkey
  · cases h
  · cases h
    exact ⟨rfl, fun l hl hid => hkey (List.any_eq_true.mpr ⟨l, hl, decide_eq_true hid⟩)⟩

theorem insertAdmission_ok {row : Admission} {w w' : World} {u : Unit} (h : insertAdmission row w = (.ok u, w')) :
    w' = { w with admissions := w.admissions ++ [row] } ∧
      ∀ a ∈ w.admissions, a.materializationId ≠ row.materializationId := by
  obtain ⟨_, _, hread, h⟩ := Call.bind_eq_ok.mp h
  cases hread
  split_ifs at h with hkey
  · cases h
  · cases h
    refine ⟨rfl, fun a ha hid => hkey (List.any_eq_true.mpr ⟨a, ha, ?_⟩)⟩
    simp [hid]

theorem requireAdmittedModelProof_ok {model : Option ModelRow} {contractHash lockfileHash : CodeUnits} {u : Unit}
    (h : requireAdmittedModelProof model contractHash lockfileHash = .ok u) :
    ∃ row, model = some row ∧ provesAdmission row contractHash lockfileHash = true := by
  unfold requireAdmittedModelProof at h
  cases model with
  | none => cases h
  | some row => exact ⟨row, rfl, by simpa using refuse_eq_ok.mp h⟩

theorem findModel_eq_some {user modelId : CodeUnits} {w : World} {row : ModelRow}
    (h : findModel user modelId w = some row) : row ∈ w.modelRegistry ∧ row.id = modelId ∧ row.ownerUserId = user :=
  ⟨List.mem_of_find?_eq_some h, by simpa using List.find?_some h⟩

/-- **Commit**: the admission that is inserted is warranted by the state in which the transaction runs. -/
theorem admitTransaction_writes {user modelId : CodeUnits} {m : Materialization} {report : VerificationReport}
    {o : Outside} {w w' : World} {a : Admission} (hm : Known m w) (howner : m.ownerUserId = user)
    (hverified : ∃ v ∈ w.verifications, Verified env m.uploadPlan v report)
    (h : admitTransaction user modelId m report o w = (.ok a, w')) : Writes env w w' := by
  obtain ⟨_, _, hread, h⟩ := Call.bind_eq_ok.mp h
  cases hread
  by_cases hrow : w.materializations.any (isMaterialized user m.id) = true
  swap
  · rw [if_pos hrow] at h
    cases h
  rw [if_neg (not_not.mpr hrow)] at h
  cases hfound : findAdmission user m.id w with
  | some concurrent =>
    rw [hfound] at h
    obtain rfl : w = w' := (Prod.mk.inj h).2
    exact .untouched (.refl w)
  | none =>
    rw [hfound] at h
    obtain ⟨_, t, hchecked, h⟩ := Call.bind_eq_ok.mp h
    obtain ⟨hproof, rfl⟩ := Prod.mk.inj hchecked
    obtain ⟨row, hmodel, hadmitted⟩ := requireAdmittedModelProof_ok hproof
    obtain ⟨_, t, hlog, h⟩ := Call.bind_eq_ok.mp h
    obtain ⟨_, u, hinsert, h⟩ := Call.bind_eq_ok.mp h
    cases h
    obtain ⟨rfl, hfreshLog⟩ := insertTelemetryLog_ok hlog
    obtain ⟨rfl, hfresh⟩ := insertAdmission_ok hinsert
    obtain ⟨m', hm', hsame⟩ := hm
    obtain ⟨v, hv, hverified⟩ := hverified
    obtain ⟨hmem, hid, huser⟩ := findModel_eq_some hmodel
    refine .admitted _ (admissionRows user modelId m report o).1 ?_ hfresh hfreshLog rfl rfl rfl
    refine ⟨m', hm', hsame.id, hsame.ownerUserId.trans howner, ⟨v, hv, hsame.uploadPlan ▸ hverified⟩, row, hmem, hid,
      huser, ?_⟩
    rw [hsame.uploadPlan, ← hverified.contractHash, ← hverified.lockfileHash]
    exact hadmitted

/-- **Admitting an archive** inserts at most one admission, and that one is warranted. -/
theorem admitRecorderArchive_proper (user materializationId modelId config : CodeUnits) :
    Proper env (fun _ => True) (admitRecorderArchive env user materializationId modelId config) fun _ _ => True := by
  have hget : Proper env (fun _ => True) (getRecorderArchive user materializationId) fun found w =>
      ∀ m, found = some m → Known m w ∧ m.ownerUserId = user := by
    refine proper_select (fun found s t hst h m hm => ?_) fun w _ m hm => ?_
    · exact ⟨stable_known env m s t hst (h m hm).1, (h m hm).2⟩
    · have hfound := List.find?_some hm
      exact ⟨⟨m, List.mem_of_find?_eq_some hm, .refl m⟩, by simpa using (Bool.and_eq_true_iff.mp hfound).2⟩
  refine hget.bind fun found => ?_
  cases found with
  | none => exact proper_throw _
  | some m =>
    -- the rest of the call keeps what it knows of the row that it has read
    have framed : ∀ {α : Type} {p : Step α} {Q : α → World → Prop}, Proper env (fun _ => True) p Q →
        Proper env (Known m) p fun a w => Known m w ∧ Q a w := by
      intro α p Q hp
      have h := Keeps.frame (stable_known env m) (fun _ _ hw => hw.known) hp
      refine (h.pre fun _ hw => ⟨hw, trivial⟩).post fun r w hr => ?_
      cases r with
      | ok a => exact hr
      | error e => trivial
    refine (Keeps.fact (C := m.ownerUserId = user) (P := Known m) fun howner => ?_).pre fun w h =>
      ⟨(h m rfl).2, (h m rfl).1⟩
    refine (framed proper_throwIf).bind fun _ => Keeps.pre ?_ fun _ h => h.1
    refine (framed (proper_select (Q := fun _ _ => True) (fun _ => Program.stable_true) fun _ _ => trivial)).bind
      fun existing => Keeps.pre ?_ fun _ h => h.1
    cases existing with
    | some admission => exact proper_ofExcept fun _ _ _ _ => trivial
    | none =>
      refine (framed (proper_select (Q := fun _ _ => True) (fun _ => Program.stable_true) fun _ _ => trivial)).bind
        fun preflightModel => Keeps.pre ?_ fun _ h => h.1
      refine (framed (proper_ofExcept (Q := fun _ _ => True) fun _ _ _ _ => trivial)).bind fun _ =>
        Keeps.pre ?_ fun _ h => h.1
      refine (framed (streamPrivateArchive_proper user config m)).bind fun report => ?_
      exact proper_transaction (fun _ => Program.stable_true) fun o w w' a hw h =>
        ⟨admitTransaction_writes hw.1 howner hw.2 h, trivial⟩

end

/-! ### Every interleaving -/

/-- The calls of the system, for any user and with any arguments. -/
inductive Request where
  | stage (user : CodeUnits) (planValue : Doc) (bucket : CodeUnits)
  | complete (user id config : CodeUnits)
  | completeBlob (user blobId : CodeUnits)
  | admission (user materializationId modelId config : CodeUnits)

/-- The program of a call. -/
def Request.program (env : Env) : Request → Step Unit
  | .stage user planValue bucket => (stageRecorderArchive env user planValue bucket).discard
  | .complete user id config => (completeRecorderArchive env user id config).discard
  | .completeBlob user blobId => (Recorder.completeBlob user blobId).discard
  | .admission user materializationId modelId config =>
    (admitRecorderArchive env user materializationId modelId config).discard

/-- Any number of calls side by side, while other parts of the gateway write their own tables. -/
def system (env : Env) : System (Pool World Outside Failure) (Pool.Event World Outside Failure) :=
  Pool.system .empty (fun p => ∃ r : Request, p = r.program env) Elsewhere

theorem Request.proper {env : Env} (r : Request) :
    (r.program env).Keeps (Changes env) (Writes env) (fun _ => True) fun _ _ => True := by
  cases r with
  | stage user planValue bucket => exact (stageRecorderArchive_proper user planValue bucket).discard
  | complete user id config => exact (completeRecorderArchive_proper user id config).discard
  | completeBlob user blobId => exact (completeBlob_proper user blobId).discard
  | admission user materializationId modelId config =>
    exact (admitRecorderArchive_proper user materializationId modelId config).discard

variable {env : Env}

/-- **Step lemma**: every step of the system changes the state by a proper write or from outside. -/
theorem step_changes {w w' : Pool World Outside Failure} {l : Pool.Event World Outside Failure}
    (h : (system env).Reachable w) (hstep : (system env).step w l w') :
    w'.state = w.state ∨ Changes env w.state w'.state := by
  have hkept := Pool.kept_of_reachable (G := Writes env) (I := fun _ => True) trivial Program.stable_true
    (fun p hp => by obtain ⟨r, rfl⟩ := hp; exact r.proper) h
  exact (hkept.move Program.stable_true (fun p hp => by obtain ⟨r, rfl⟩ := hp; exact r.proper) hstep).1

/-- Keys are unique, and each log belongs to an admission. -/
structure Keyed (w : World) : Prop where
  materialization : ∀ m ∈ w.materializations, ∀ m' ∈ w.materializations,
    m.ownerUserId = m'.ownerUserId → m.artifactId = m'.artifactId → m = m'
  materializationId : ∀ m ∈ w.materializations, ∀ m' ∈ w.materializations, m.id = m'.id → m = m'
  admission : ∀ a ∈ w.admissions, ∀ a' ∈ w.admissions, a.materializationId = a'.materializationId → a = a'
  telemetryLogId : ∀ l ∈ w.telemetryLogs, ∀ l' ∈ w.telemetryLogs, l.id = l'.id → l = l'
  telemetryLog : ∀ l ∈ w.telemetryLogs, ∃ a ∈ w.admissions, a.telemetryLogId = l.id ∧
    l.materializationId = some a.materializationId

theorem Keyed.empty : Keyed .empty where
  materialization _ h := absurd h List.not_mem_nil
  materializationId _ h := absurd h List.not_mem_nil
  admission _ h := absurd h List.not_mem_nil
  telemetryLogId _ h := absurd h List.not_mem_nil
  telemetryLog _ h := absurd h List.not_mem_nil

/-- A new row has a key that no row had. -/
theorem unique_append {ρ : Type} {R : ρ → ρ → Prop} {rows : List ρ} (new : ρ) (symm : ∀ r r', R r r' → R r' r)
    (h : ∀ r ∈ rows, ∀ r' ∈ rows, R r r' → r = r') (hnew : ∀ r ∈ rows, ¬ R r new) :
    ∀ r ∈ rows ++ [new], ∀ r' ∈ rows ++ [new], R r r' → r = r' := by
  intro r hr r' hr' hR
  rw [List.mem_append, List.mem_singleton] at hr hr'
  rcases hr with hr | rfl <;> rcases hr' with hr' | rfl
  · exact h r hr r' hr' hR
  · exact absurd hR (hnew r hr)
  · exact absurd (symm _ _ hR) (hnew r' hr')
  · rfl

theorem Keyed.untouched {w w' : World} (h : Keyed w) (hw : Untouched w w') : Keyed w' where
  materialization := hw.materializations ▸ h.materialization
  materializationId := hw.materializations ▸ h.materializationId
  admission := hw.admissions ▸ h.admission
  telemetryLogId := hw.telemetryLogs ▸ h.telemetryLogId
  telemetryLog := hw.telemetryLogs ▸ hw.admissions ▸ h.telemetryLog

theorem Keyed.writes {w w' : World} (h : Keyed w) (hw : Writes env w w') : Keyed w' := by
  cases hw with
  | untouched hw => exact h.untouched hw
  | verified v hw =>
    subst hw
    exact ⟨h.materialization, h.materializationId, h.admission, h.telemetryLogId, h.telemetryLog⟩
  | staged m fresh hmat hlogs hadm _ =>
    have hart := unique_append m
      (R := fun r r' : Materialization => r.ownerUserId = r'.ownerUserId ∧ r.artifactId = r'.artifactId)
      (fun _ _ hR => ⟨hR.1.symm, hR.2.symm⟩) (fun r hr r' hr' hR => h.materialization r hr r' hr' hR.1 hR.2)
      fun r hr => (fresh r hr).2
    have hid := unique_append m (R := fun r r' : Materialization => r.id = r'.id) (fun _ _ hR => hR.symm)
      h.materializationId fun r hr => (fresh r hr).1
    rw [← hmat] at hart hid
    exact ⟨fun m hm m' hm' ho ha => hart m hm m' hm' ⟨ho, ha⟩, hid, hadm ▸ h.admission, hlogs ▸ h.telemetryLogId,
      hlogs ▸ hadm ▸ h.telemetryLog⟩
  | progressed f same hw =>
    subst hw
    refine ⟨?_, ?_, h.admission, h.telemetryLogId, h.telemetryLog⟩
    · intro m hm m' hm' ho ha
      obtain ⟨r, hr, rfl⟩ := List.mem_map.mp hm
      obtain ⟨r', hr', rfl⟩ := List.mem_map.mp hm'
      rw [(same r).ownerUserId, (same r').ownerUserId] at ho
      rw [(same r).artifactId, (same r').artifactId] at ha
      rw [h.materialization r hr r' hr' ho ha]
    · intro m hm m' hm' hid
      obtain ⟨r, hr, rfl⟩ := List.mem_map.mp hm
      obtain ⟨r', hr', rfl⟩ := List.mem_map.mp hm'
      rw [(same r).id, (same r').id] at hid
      rw [h.materializationId r hr r' hr' hid]
  | admitted a l _ fresh freshLog hlog hrefers hw =>
    subst hw
    refine ⟨h.materialization, h.materializationId, ?_, ?_, ?_⟩
    · exact unique_append _ (R := fun r r' : Admission => r.materializationId = r'.materializationId)
        (fun _ _ hR => hR.symm) h.admission fresh
    · exact unique_append _ (R := fun r r' : TelemetryLog => r.id = r'.id) (fun _ _ hR => hR.symm) h.telemetryLogId freshLog
    · intro l' hl'
      rcases List.mem_append.mp hl' with hl' | hl'
      · obtain ⟨a', ha', hid, href⟩ := h.telemetryLog l' hl'
        exact ⟨a', List.mem_append_left _ ha', hid, href⟩
      · obtain rfl := List.mem_singleton.mp hl'
        exact ⟨a, List.mem_append_right _ List.mem_cons_self, hlog, hrefers⟩

theorem Keyed.step {w w' : Pool World Outside Failure} {l : Pool.Event World Outside Failure} (h : Keyed w.state)
    (hw : (system env).Reachable w) (hstep : (system env).step w l w') : Keyed w'.state := by
  rcases step_changes hw hstep with hsame | hwrites | helse
  · exact hsame ▸ h
  · exact h.writes hwrites
  · exact h.untouched helse

/-- An admission that is new after a step is warranted by the state before it. -/
theorem warranted_of_new {w w' : Pool World Outside Failure} {l : Pool.Event World Outside Failure}
    (hw : (system env).Reachable w) (hstep : (system env).step w l w') {a : Admission} (ha : a ∈ w'.state.admissions)
    (hnew : a ∉ w.state.admissions) : Warranted env w.state a := by
  rcases step_changes hw hstep with hsame | hwrites | helse
  · exact absurd (hsame ▸ ha) hnew
  · cases hwrites with
    | untouched h => exact absurd (h.admissions ▸ ha) hnew
    | verified v h =>
      rw [h] at ha
      exact absurd ha hnew
    | staged _ _ _ _ h _ => exact absurd (h ▸ ha) hnew
    | progressed f same h =>
      rw [h] at ha
      exact absurd ha hnew
    | admitted a' l' hwarranted _ _ _ _ h =>
      rw [h] at ha
      rcases List.mem_append.mp ha with ha | ha
      · exact absurd ha hnew
      · exact List.mem_singleton.mp ha ▸ hwarranted
  · exact absurd (helse.admissions ▸ ha) hnew

/-- The chain of custody in a state of a run: one materialization for an artifact, whose evidence is the same in
every later state; at most one admission and one log for a materialization; and each admission was inserted by a step
of the run in whose state it was warranted. -/
structure CustodyChain (env : Env) (w : Pool World Outside Failure) : Prop where
  oneMaterialization : ∀ m ∈ w.state.materializations, ∀ m' ∈ w.state.materializations,
    m.ownerUserId = m'.ownerUserId → m.artifactId = m'.artifactId → m = m'
  planKept : ∀ w', (system env).Steps (fun _ _ => True) w w' → ∀ m ∈ w.state.materializations,
    ∀ m' ∈ w'.state.materializations, m'.ownerUserId = m.ownerUserId → m'.artifactId = m.artifactId →
      m'.id = m.id ∧ m'.uploadPlan = m.uploadPlan
  oneAdmission : ∀ a ∈ w.state.admissions, ∀ a' ∈ w.state.admissions,
    a.materializationId = a'.materializationId → a = a'
  oneLog : ∀ l ∈ w.state.telemetryLogs, ∀ l' ∈ w.state.telemetryLogs,
    l.materializationId = l'.materializationId → l = l'
  warranted : ∀ a ∈ w.state.admissions, ∃ before event after,
    (system env).Reachable before ∧ (system env).step before event after ∧
      (system env).Steps (fun _ _ => True) after w ∧ a ∉ before.state.admissions ∧ a ∈ after.state.admissions ∧
      Warranted env before.state a

theorem keyed_of_reachable {w : Pool World Outside Failure} (h : (system env).Reachable w) : Keyed w.state := by
  induction h with
  | refl => exact .empty
  | tail hw _ hstep ih => exact ih.step hw hstep

/-- A materialization stays known in every later state. -/
theorem known_of_steps {w w' : Pool World Outside Failure} (hw : (system env).Reachable w)
    (h : (system env).Steps (fun _ _ => True) w w') {m : Materialization} (hm : Known m w.state) : Known m w'.state := by
  induction h with
  | refl => exact hm
  | tail hsteps _ hstep ih =>
    rcases step_changes (System.Steps.trans hw hsteps) hstep with hsame | hchange
    · exact hsame ▸ ih
    · exact stable_known env m _ _ hchange ih

/-- **Custody holds in every state that any interleaving of the calls reaches.** -/
theorem custodyChain {w : Pool World Outside Failure} (h : (system env).Reachable w) : CustodyChain env w := by
  have hkeyed := keyed_of_reachable h
  refine ⟨hkeyed.materialization, ?_, hkeyed.admission, ?_, ?_⟩
  · intro w' hsteps m hm m' hm' howner hartifact
    obtain ⟨m₀, hm₀, hsame⟩ := known_of_steps h hsteps ⟨m, hm, .refl m⟩
    have hlater := keyed_of_reachable (System.Steps.trans h hsteps)
    obtain rfl := hlater.materialization m' hm' m₀ hm₀ (howner.trans hsame.ownerUserId.symm)
      (hartifact.trans hsame.artifactId.symm)
    exact ⟨hsame.id, hsame.uploadPlan⟩
  · intro l hl l' hl' hsame
    obtain ⟨a, ha, hid, href⟩ := hkeyed.telemetryLog l hl
    obtain ⟨a', ha', hid', href'⟩ := hkeyed.telemetryLog l' hl'
    have hmat : a.materializationId = a'.materializationId := Option.some.inj (href.symm.trans (hsame.trans href'))
    obtain rfl := hkeyed.admission a ha a' ha' hmat
    exact hkeyed.telemetryLogId l hl l' hl' (hid.symm.trans hid')
  · clear hkeyed
    induction h with
    | refl => exact fun a ha => absurd ha List.not_mem_nil
    | tail hw hok hstep ih =>
      rename_i w₀ w₁ event
      intro a ha
      by_cases hold : a ∈ w₀.state.admissions
      · obtain ⟨before, e, after, hbefore, hinsert, hafter, hnew⟩ := ih a hold
        exact ⟨before, e, after, hbefore, hinsert, hafter.tail hok hstep, hnew⟩
      · exact ⟨w₀, event, w₁, hw, hstep, .refl, hold, ha, warranted_of_new hw hstep ha hold⟩

/-! ### An archive that is admitted -/

/-- Members of a document. -/
def record (members : List (String × Scalar)) : List (CodeUnits × Doc) := members.map fun e => (units e.1, .leaf e.2)

def sampleDigest : Scalar := .string (List.replicate 64 0x61)

/-- What the plan, the manifest, the receipt and the report all say. -/
def sampleAuthority : List (String × Scalar) :=
  [("artifactId", text "flight-1"), ("referenceRigId", text "ref_quad_kakute-h7-source-one-5in"),
    ("contractHash", sampleDigest), ("lockfileHash", sampleDigest), ("sourcePortSha256", sampleDigest),
    ("startedAtUnixMs", .number (.int 1))]

/-- What they say when the capture is over. -/
def sampleCapture : List (String × Scalar) :=
  [("durationS", .number (.int 0)), ("stoppedAtUnixMs", .number (.int 2)), ("frameCount", .number (.int 1))]

def sampleDigests : List (String × Scalar) :=
  [("frameFileSha256", sampleDigest), ("indexFileSha256", sampleDigest), ("replayFileSha256", sampleDigest)]

def sampleManifest : Doc :=
  .object ((units "environment", .object []) :: record (manifestConstants ++ sampleAuthority ++
    [("sampleRateHz", .number (.int 50)), ("seed", .number (.int 7))]))

def sampleReceipt : Doc := .object (record (receiptConstants ++ sampleAuthority ++ sampleCapture ++ sampleDigests))

def sampleReport : Doc :=
  .object (record (sampleCapture ++ reportConstants ++ sampleAuthority ++ sampleDigests ++
    [("sampleRateHz", .number (.int 50)), ("aggregateByteSize", .number (.int 10))]))

def sampleFile (role : RecorderFileRole) : Doc :=
  .object [(units "byteSize", .leaf (.number (.int 2))), (units "contentType", .leaf (text role.contentType)),
    (units "name", .leaf (text role.fileName)), (units "sha256", .leaf sampleDigest)]

/-- A plan of five files of two bytes. -/
def samplePlan : Doc :=
  .object ((units "files", .array ([.manifest, .frame, .index, .replay, .receipt].map sampleFile)) ::
    record (planVersions ++ planAuthority ++ sampleAuthority ++ sampleCapture ++ [("sampleRateHz", .number (.int 50)),
      ("captureMaturity", text "local-serial-integration"), ("aggregateByteSize", .number (.int 10))]))

/-- The bytes of a file: its position and a line feed. -/
def sampleBytes (role : RecorderFileRole) : Bytes := [role.position.toUInt8, 0x0A]

/-- Every digest of bytes is the same 64 letters, a text is its own digest, and two files are read as documents. -/
def sampleEnv : Env where
  sha256 _ := List.replicate 64 0x61
  sha256Text s := s
  parseJson bytes :=
    if bytes = sampleBytes .manifest then some sampleManifest
    else if bytes = sampleBytes .receipt then some sampleReceipt
    else none

/-- Nothing fails, ids are texts of different lengths, the object store is asked for this file, and the verifier
accepts the archive. -/
def sampleOutside (role : RecorderFileRole) : Outside where
  fault := none
  lost := none
  now := 0
  freshId n := List.replicate (n + 1) 0x61
  inspection := .ok
    { byteSize := 2, contentType := some (units role.contentType), sha256 := some (List.replicate 64 0x61) }
  body := .ok [sampleBytes role]
  verification := .ok { exitCode := 0, report := some sampleReport, stderr := "" }

theorem isSha256_sample : isSha256 (List.replicate 64 0x61) = true := by decide +kernel

/-- The plan as it is read. -/
def stagedPlan : RecorderUploadPlan where
  value := samplePlan
  artifactId := units "flight-1"
  contractHash := List.replicate 64 0x61
  lockfileHash := List.replicate 64 0x61
  aggregateByteSize := 10
  file role := ⟨units role.fileName, units role.contentType, 2, List.replicate 64 0x61, isSha256_sample⟩
  reads_artifactId := by decide +kernel
  reads_contractHash := by decide +kernel
  reads_lockfileHash := by decide +kernel

/-- The entries of the five files. -/
def sampleFiles : List RecorderUploadFilePlan :=
  [.manifest, .frame, .index, .replay, .receipt].map stagedPlan.file

theorem readFile_sample (role : RecorderFileRole) : readFile (sampleFile role) = .ok (stagedPlan.file role) := by
  have hfields : exactFields ["name", "contentType", "byteSize", "sha256"] (sampleFile role) = true := by
    simp only [exactFields, sampleFile, List.map, units_eq_ascii]
    decide +kernel
  have hsize : safeValue (some (.leaf (.number (.int 2)))) = some 2 := by decide +kernel
  have hcap : (2 : ℤ) ≤ maxArchiveBytes := by decide
  rw [readFile, hfields]
  simp [-List.reduceReplicate, sampleFile, stringMember, member, isRecord, asString, text, sampleDigest, hsize, hcap,
    isSha256_sample, refuse, stagedPlan, bind, Except.bind]

theorem readFiles_sample : readFiles [] ([.manifest, .frame, .index, .replay, .receipt].map sampleFile) =
    .ok sampleFiles := by
  simp [readFiles, readFile_sample, sampleFiles, stagedPlan, RecorderFileRole.fileName, refuse, bind, Except.bind, pure,
    Except.pure]

theorem plannedFile_sample (role : RecorderFileRole) : plannedFile sampleFiles role = .ok (stagedPlan.file role) := by
  cases role <;> simp [plannedFile, sampleFiles, stagedPlan, RecorderFileRole.fileName, maxMetadataBytes, refuse, bind,
    Except.bind, pure, Except.pure]

/-- The plan is accepted. -/
theorem validate_samplePlan : validateRecorderUploadPlan samplePlan = .ok stagedPlan := by
  have hbounded : assertBoundedJson "recorder upload plan"
      { maxBytes := 64 * 1024, maxDepth := 8, maxNodes := 512, maxObjectKeys := 128 } samplePlan = .ok () := by
    simp only [samplePlan, sampleFile, record, planVersions, planAuthority, sampleAuthority, sampleCapture, List.map,
      List.cons_append, List.nil_append, RecorderFileRole.contentType, RecorderFileRole.fileName, text,
      units_eq_ascii]
    decide +kernel
  have hfields : exactFields planFields samplePlan = true := by
    simp only [exactFields, planFields, samplePlan, record, planVersions, planAuthority, sampleAuthority, sampleCapture,
      List.map, List.cons_append, List.nil_append, text, units_eq_ascii]
    decide +kernel
  have hversions : hasMembers planVersions samplePlan = true := by decide +kernel
  have hauthority : hasMembers planAuthority samplePlan = true := by decide +kernel
  have htimes : timesOk samplePlan = true := by decide +kernel
  have hrig : (stringMember "referenceRigId" samplePlan).all (fun rig => rig ∉ d12Rigs) = false := by decide +kernel
  have hsource : stringMember "sourcePortSha256" samplePlan = some (List.replicate 64 0x61) := by decide +kernel
  have hfiles : member "files" samplePlan =
      some (.array ([.manifest, .frame, .index, .replay, .receipt].map sampleFile)) := by
    simp [member, samplePlan]
  have hfile : forFiles (plannedFile sampleFiles) = .ok stagedPlan.file := forFiles_of_ok plannedFile_sample
  exact @validateRecorderUploadPlan_eq_ok stagedPlan _ _ _ rfl hfields hbounded hversions
    (by decide +kernel) hrig hsource ⟨isSha256_sample, isSha256_sample, isSha256_sample⟩ htimes (by decide +kernel)
    hauthority hfiles rfl readFiles_sample hfile (by decide +kernel) (by decide +kernel)

/-! ### Running the calls -/

/-- The row of the plan; its blobs have the ids of their positions. -/
def sampleRow : Materialization :=
  stagedRow (units "u") stagedPlan (fun role => List.replicate (role.position + 1) 0x61) (sampleOutside .manifest)

/-- The blob of a file once it is complete. -/
def sampleBlob (role : RecorderFileRole) : ObjectBlob where
  id := sampleRow.blobId role
  ownerUserId := some (units "u")
  visibility := .«private»
  cacheKey := none
  bucket := units "b"
  objectKey := sampleRow.blobId role
  contentType := some (units role.contentType)
  byteSize := some 2
  sha256 := some (List.replicate 64 0x61)
  uploadStatus := .complete
  verifiedAt := some 0
  verificationErrorCode := none
  metadata := .object []
  createdAt := 0

/-- An admitted model with the hashes of the plan. -/
def sampleModel : ModelRow where
  id := units "m"
  ownerUserId := units "u"
  status := units "admitted"
  contractHash := List.replicate 64 0x61
  validatorReport :=
    .object (record [("verdict", text "admitted"), ("contractHash", sampleDigest), ("lockfileHash", sampleDigest)])

/-- The database with this materialization, its complete blobs and the model. -/
def sampleWorld (m : Materialization) : World where
  materializations := [m]
  objectBlobs := [sampleBlob .manifest, sampleBlob .frame, sampleBlob .index, sampleBlob .replay, sampleBlob .receipt]
  modelRegistry := [sampleModel]
  telemetryLogs := []
  admissions := []
  verifications := []

section

variable {α : Type} {w w' : World}

theorem runs_statement {x : Outside → Call World Failure α} {r : Except Failure α} (role : RecorderFileRole)
    (h : x (sampleOutside role) w = (r, w')) : (statement x).Runs w r w' := .perform (sampleOutside role) h

theorem runs_select (f : World → α) : (select f).Runs w (.ok (f w)) w := runs_statement .manifest rfl

theorem runs_transaction {x : Outside → Call World Failure α} {a : α}
    (h : x (sampleOutside .manifest) w = (.ok a, w')) : (withGatewayTransaction x).Runs w (.ok a) w' :=
  runs_statement (x := fun o => .transaction none (x o)) .manifest (by simp only [Call.transaction, h])

theorem runs_throwIf {c : Prop} [Decidable c] {e : Failure} (h : ¬c) : (throwIf c e).Runs w (.ok ()) w := by
  rw [throwIf, Program.ofExcept, refuse_eq_ok.mpr h]
  exact .done

/-- What a program finds for the files is told by its values. -/
theorem runs_of_values {p : Step (RecorderFileRole → α)} {found g : RecorderFileRole → α} (h : p.Runs w (.ok found) w')
    (hvalues : ∀ role, found role = g role) : p.Runs w (.ok g) w' := funext hvalues ▸ h

theorem runs_forFiles {f : RecorderFileRole → Step α} {g : RecorderFileRole → α}
    (h : ∀ role, (f role).Runs w (.ok (g role)) w) : (forFiles f).Runs w (.ok g) w := by
  refine runs_of_values (.bind (h .manifest) (.bind (h .frame) (.bind (h .index) (.bind (h .replay)
    (.bind (h .receipt) .done))))) fun role => ?_
  cases role <;> rfl

end

theorem find_sampleBlob (m : Materialization) (role : RecorderFileRole) :
    ((sampleWorld m).objectBlobs.find? fun b => b.id = sampleRow.blobId role && b.ownerUserId = some (units "u")) =
      some (sampleBlob role) := by
  cases role <;> rfl

theorem getOwnedObjectBlob_sample (m : Materialization) (role : RecorderFileRole) :
    (getOwnedObjectBlob (units "u") (sampleRow.blobId role)).Runs (sampleWorld m) (.ok (some (sampleBlob role)))
      (sampleWorld m) := by
  have h := runs_select (w := sampleWorld m) fun w =>
    w.objectBlobs.find? fun b => b.id = sampleRow.blobId role && b.ownerUserId = some (units "u")
  rw [find_sampleBlob] at h
  exact h

/-- A complete blob stays as it is. -/
theorem updateDeclared_sample (m : Materialization) (role : RecorderFileRole) :
    updateDeclared (units "u") (sampleBlob role) (fun b => { b with
      uploadStatus := .complete, verifiedAt := b.verifiedAt.orElse fun _ => some (sampleOutside .manifest).now
      verificationErrorCode := none }) (sampleWorld m) = (.ok (some (sampleBlob role)), sampleWorld m) := by
  cases role <;> rfl

theorem mismatch_sample (role : RecorderFileRole) :
    mismatch (sampleBlob role) { byteSize := 2, contentType := some (units role.contentType),
                                 sha256 := some (List.replicate 64 0x61) } = none := by
  cases role <;> decide +kernel

theorem completeFile_sample (role : RecorderFileRole) : (completeFile (units "u") sampleRow role).Runs
    (sampleWorld sampleRow) (.ok (sampleBlob role)) (sampleWorld sampleRow) := by
  refine (getOwnedObjectBlob_sample sampleRow role).bind ?_
  refine (runs_throwIf (by simp [sampleBlob])).bind ?_
  refine (Program.Runs.perform (sampleOutside role) rfl).bind ?_
  refine (getOwnedObjectBlob_sample sampleRow role).bind ?_
  simp only [mismatch_sample]
  refine (runs_statement .manifest (updateDeclared_sample sampleRow role)).bind ?_
  exact .done

/-- The object of a file. -/
def sampleObject (role : RecorderFileRole) (maxBytes : ℤ) : StoredObjectRead where
  bucket := units "b"
  objectKey := sampleRow.blobId role
  byteSize := 2
  sha256 := List.replicate 64 0x61
  maxBytes := maxBytes

theorem download_sample (role : RecorderFileRole) {maxBytes : ℤ} (hmin : 2 ≤ maxBytes)
    (hmax : maxBytes ≤ maxObjectBytes) (w : World) :
    (download sampleEnv (units "b") (sampleObject role maxBytes)).Runs w (.ok (sampleBytes role)) w := by
  have hkey : assertObjectKey (sampleRow.blobId role) = .ok () := by cases role <;> rfl
  have hsha : normalizedSha256 (List.replicate 64 0x61) = .ok (List.replicate 64 0x61) := rfl
  have hpos : ¬maxBytes ≤ 0 := by omega
  have hstream : streamStoredObject sampleEnv (units "b") (sampleObject role maxBytes) (.ok [sampleBytes role]) =
      .ok (sampleBytes role) := by
    simp [-List.reduceReplicate, streamStoredObject, sampleObject, hkey, hsha, hpos, not_lt.mpr hmin, not_lt.mpr hmax,
      collect, sampleBytes, sampleEnv, refuse, bind, Except.bind, pure, Except.pure]
  exact .perform (sampleOutside role) (by rw [← hstream]; rfl)

theorem getRecorderArchive_sample (m : Materialization) (hid : m.id = sampleRow.id)
    (howner : m.ownerUserId = units "u") :
    (getRecorderArchive (units "u") sampleRow.id).Runs (sampleWorld m) (.ok (some m)) (sampleWorld m) := by
  have h := runs_select (w := sampleWorld m) fun w =>
    w.materializations.find? fun m => m.id = sampleRow.id && m.ownerUserId = units "u"
  rw [sampleWorld, List.find?_cons_of_pos (by simp [hid, howner])] at h
  exact h

/-! ### The archive is staged -/

/-- The files are registered as the five blobs of the row. -/
def filesRegistered : Except Failure (RecorderFileRole → ObjectBlob) → Bool
  | .ok blobs => [RecorderFileRole.manifest, .frame, .index, .replay, .receipt].all fun role =>
      (blobs role).id = sampleRow.blobId role
  | .error _ => false

theorem blobs_of_filesRegistered {r : Except Failure (RecorderFileRole → ObjectBlob)} (h : filesRegistered r = true) :
    ∃ blobs, r = .ok blobs ∧ (fun role => (blobs role).id) = sampleRow.blobId := by
  cases r with
  | ok blobs =>
    exact ⟨blobs, rfl, funext fun role => of_decide_eq_true (List.all_eq_true.mp h role (by cases role <;> simp))⟩
  | error e => cases h

/-- The blobs that the stage call registers. -/
def sampleRegistration : Call World Failure (RecorderFileRole → ObjectBlob) :=
  forFiles fun role => registerObjectBlob (units "u")
    (fileDeclaration sampleEnv (units "u") stagedPlan (units "b") role)
    ((sampleOutside .manifest).freshId role.position) [] (sampleOutside .manifest).now

theorem within_sampleRegistration : Call.Within Untouched sampleRegistration :=
  within_forFiles fun _ => within_registerObjectBlob _ _ _ _ _

theorem filesRegistered_sample : filesRegistered (sampleRegistration .empty).1 = true := by decide +kernel

/-- From an empty database the stage call leaves the row, and no other row of the archive tables. -/
theorem stage_sample : ∃ r after,
    (stageRecorderArchive sampleEnv (units "u") samplePlan (units "b")).Runs .empty (.ok r) after ∧
      Elsewhere after (sampleWorld sampleRow) := by
  obtain ⟨blobs, hok, hids⟩ := blobs_of_filesRegistered filesRegistered_sample
  obtain ⟨after, hafter⟩ : ∃ after, (sampleRegistration .empty).2 = after := ⟨_, rfl⟩
  have hrun : sampleRegistration .empty = (.ok blobs, after) := Prod.ext hok hafter
  have huntouched := within_sampleRegistration .empty
  rw [hafter] at huntouched
  have hdistinct : distinctBlobs fun role => (blobs role).id := by
    rw [hids]
    decide
  have hstage := stageTransaction_of_files hrun huntouched.materializations hdistinct
  rw [hids] at hstage
  refine ⟨_, _, .bind ?_ (runs_transaction hstage), ?_⟩
  · rw [← validate_samplePlan]
    exact .done
  · exact ⟨rfl, huntouched.telemetryLogs.symm, huntouched.admissions.symm, huntouched.verifications.symm⟩

/-! ### The archive is completed -/

theorem verify_sample : verifyManifestReceiptBindings sampleEnv stagedPlan sampleBlob (sampleBytes .manifest)
    (sampleBytes .receipt) = .ok () := by
  simp only [verifyManifestReceiptBindings, parseStrictJson, exactFields, manifestFields, receiptFields, hasMembers,
    agreeOn, isDigestOf, manifestConstants, receiptConstants, member, stagedPlan, samplePlan, sampleEnv, sampleManifest,
    sampleReceipt, record, sampleAuthority, sampleCapture, sampleDigests, planVersions, planAuthority, List.map,
    List.cons_append, List.nil_append, RecorderFileRole.fileName, text, units_eq_ascii]
  decide +kernel

theorem complete_sample : (completeRecorderArchive sampleEnv (units "u") sampleRow.id (units "b")).Runs
    (sampleWorld sampleRow) (.ok (sampleRow.complete 0)) (sampleWorld (sampleRow.complete 0)) := by
  have htransaction : completeTransaction (units "u") sampleRow.id (sampleOutside .manifest) (sampleWorld sampleRow) =
      (.ok (sampleRow.complete 0), sampleWorld (sampleRow.complete 0)) := by
    have howned : ownedRow (units "u") sampleRow.id sampleRow = true := by simp [ownedRow, sampleRow, stagedRow]
    simp only [completeTransaction, sampleWorld, List.find?_cons_of_pos howned, Table.update, List.map, howned, if_true,
      Call.read, Call.modify, bind, Call.bind, pure]
    rfl
  refine (getRecorderArchive_sample sampleRow rfl rfl).bind (.attempt ?_)
  refine (runs_forFiles completeFile_sample).bind ?_
  refine (download_sample .manifest (by decide) (by decide) _).bind ?_
  refine (download_sample .receipt (by decide) (by decide) _).bind ?_
  refine Program.Runs.bind (a := ()) (by rw [← verify_sample]; exact .done) ?_
  exact runs_transaction htransaction

/-! ### The archive is admitted -/

/-- What is read off the report. -/
def sampleVerification : VerificationReport := (readReport sampleReport).get (by decide +kernel)

theorem readReport_sample : readReport sampleReport = some sampleVerification := (Option.some_get _).symm

theorem validateReport_sample : validateReport stagedPlan sampleBlob sampleReport = .ok sampleVerification := by
  have hfields : exactFields reportFields sampleReport = true := by
    simp only [exactFields, reportFields, sampleReport, record, reportConstants, sampleAuthority, sampleCapture,
      sampleDigests, List.map, List.cons_append, List.nil_append, text, units_eq_ascii]
    decide +kernel
  have hbounded : assertBoundedJson "recorder verification report"
      { maxBytes := 64 * 1024, maxDepth := 8, maxNodes := 256, maxObjectKeys := 64 } sampleReport = .ok () := by
    simp only [sampleReport, record, reportConstants, sampleAuthority, sampleCapture, sampleDigests, List.map,
      List.cons_append, List.nil_append, text, units_eq_ascii]
    decide +kernel
  have hmatches : reportMatches stagedPlan sampleBlob sampleReport = true := by
    simp only [reportMatches, reportRanges, hasMembers, agreeOn, planMembers, isDigestOf, stringMember, member,
      stagedPlan, samplePlan, sampleReport, record, reportConstants, sampleAuthority, sampleCapture, sampleDigests,
      planVersions, planAuthority, List.map, List.cons_append, List.nil_append, text, units_eq_ascii]
    decide +kernel
  simp only [validateReport, hfields, hbounded, readReport_sample, hmatches]
  rfl

theorem materializedBlob_sample {observed : List CodeUnits} (role : RecorderFileRole)
    (h : sampleRow.blobId role ∉ observed) : (materializedBlob (units "u") (sampleRow.complete 0) observed role).Runs
      (sampleWorld (sampleRow.complete 0)) (.ok (sampleBlob role)) (sampleWorld (sampleRow.complete 0)) := by
  refine (getOwnedObjectBlob_sample (sampleRow.complete 0) role).bind ?_
  refine (runs_throwIf ?_).bind .done
  have hid : List.replicate (role.position + 1) 0x61 ∉ observed := h
  simp [-List.reduceReplicate, hid, sampleBlob, sampleRow, stagedRow, stagedPlan, Materialization.complete]

theorem materializedBlobs_sample : (materializedBlobs (units "u") (sampleRow.complete 0)).Runs
    (sampleWorld (sampleRow.complete 0)) (.ok sampleBlob) (sampleWorld (sampleRow.complete 0)) := by
  refine runs_of_values (.bind (materializedBlob_sample .manifest (by decide)) (.bind
    (materializedBlob_sample .frame (by decide)) (.bind (materializedBlob_sample .index (by decide)) (.bind
      (materializedBlob_sample .replay (by decide)) (.bind (materializedBlob_sample .receipt (by decide)) .done)))))
    fun role => ?_
  cases role <;> rfl

/-- The state once the verifier has answered. -/
def verifiedWorld : World := { sampleWorld (sampleRow.complete 0) with
  verifications := [{ files := sampleBytes, result := { exitCode := 0, report := some sampleReport, stderr := "" } }] }

theorem streamPrivateArchive_sample :
    (streamPrivateArchive sampleEnv (units "u") (units "b") (sampleRow.complete 0)).Runs
      (sampleWorld (sampleRow.complete 0)) (.ok sampleVerification) verifiedWorld := by
  refine materializedBlobs_sample.bind ?_
  refine (runs_forFiles fun role => download_sample role (by decide : (2 : ℤ) ≤ 2) (by decide) _).bind ?_
  refine (Program.Runs.perform (sampleOutside .manifest) (t := verifiedWorld) rfl).bind ?_
  refine Program.Runs.bind (a := sampleReport) .done ?_
  change (Program.ofExcept (validateReport stagedPlan sampleBlob sampleReport)).Runs _ _ _
  rw [validateReport_sample]
  exact .done

theorem findModel_sample (m : Materialization) :
    findModel (units "u") (units "m") (sampleWorld m) = some sampleModel := by
  simp [findModel, sampleWorld, sampleModel]

theorem requireAdmittedModelProof_sample : requireAdmittedModelProof (some sampleModel) (List.replicate 64 0x61)
    (List.replicate 64 0x61) = .ok () := by decide +kernel

/-- The log and the admission of the archive. -/
def sampleRows : TelemetryLog × Admission :=
  admissionRows (units "u") (units "m") (sampleRow.complete 0) sampleVerification (sampleOutside .manifest)

/-- The state once the archive is admitted. -/
def admittedWorld : World := { verifiedWorld with telemetryLogs := [sampleRows.1], admissions := [sampleRows.2] }

theorem admitTransaction_sample : admitTransaction (units "u") (units "m") (sampleRow.complete 0) sampleVerification
    (sampleOutside .manifest) verifiedWorld = (.ok sampleRows.2, admittedWorld) := by
  have hany : verifiedWorld.materializations.any (isMaterialized (units "u") (sampleRow.complete 0).id) = true := by
    simp [verifiedWorld, sampleWorld, isMaterialized, ownedRow, Materialization.complete, sampleRow, stagedRow]
  have hnone : findAdmission (units "u") (sampleRow.complete 0).id verifiedWorld = none := rfl
  have hmodel : findModel (units "u") (units "m") verifiedWorld = some sampleModel :=
    findModel_sample (sampleRow.complete 0)
  have hlog : insertTelemetryLog sampleRows.1 verifiedWorld =
      (.ok (), { verifiedWorld with telemetryLogs := [sampleRows.1] }) := rfl
  have hadmission : insertAdmission sampleRows.2 { verifiedWorld with telemetryLogs := [sampleRows.1] } =
      (.ok (), admittedWorld) := rfl
  have hproof : requireAdmittedModelProof (some sampleModel) sampleVerification.contractHash
      sampleVerification.lockfileHash = .ok () := by decide +kernel
  simp only [admitTransaction, Call.read, bind, Call.bind, hany, hnone, hmodel, hproof, not_true_eq_false, if_false,
    Call.ofExcept]
  rw [← sampleRows, hlog]
  dsimp only
  rw [hadmission]
  rfl

theorem admit_sample : (admitRecorderArchive sampleEnv (units "u") sampleRow.id (units "m") (units "b")).Runs
    (sampleWorld (sampleRow.complete 0)) (.ok sampleRows.2) admittedWorld := by
  have hmodel := runs_select (w := sampleWorld (sampleRow.complete 0)) (findModel (units "u") (units "m"))
  rw [findModel_sample] at hmodel
  refine (getRecorderArchive_sample (sampleRow.complete 0) rfl rfl).bind ?_
  refine (runs_throwIf (by simp [Materialization.complete])).bind ?_
  refine (runs_select _).bind ?_
  refine hmodel.bind ?_
  refine Program.Runs.bind (a := ()) (t := sampleWorld (sampleRow.complete 0)) ?_ ?_
  · rw [← requireAdmittedModelProof_sample]
    exact .done
  · exact streamPrivateArchive_sample.bind (runs_transaction admitTransaction_sample)

/-- A call that is sent may run to its end. -/
theorem reachable_request {w w' : World} {programs : List (Step Unit)} (r : Request)
    (h : (system env).Reachable ⟨w, programs⟩) {result : Except Failure Unit}
    (hrun : (r.program env).Runs w result w') : (system env).Reachable ⟨w', .done result :: programs⟩ :=
  Pool.reachable_of_runs h ⟨r, rfl⟩ hrun

/-- An archive is staged and completed, and is admitted once its objects and its model are there. -/
theorem admittedWorld_reachable : ∃ programs, (system sampleEnv).Reachable ⟨admittedWorld, programs⟩ := by
  obtain ⟨r, after, hstage, helsewhere⟩ := stage_sample
  have hstaged := reachable_request (.stage (units "u") samplePlan (units "b")) .refl hstage.discard
  have huploaded : (system sampleEnv).Reachable ⟨sampleWorld sampleRow, _⟩ := hstaged.tail trivial (.outside helsewhere)
  have hcompleted := reachable_request (.complete (units "u") sampleRow.id (units "b")) huploaded
    complete_sample.discard
  have hadmitted := reachable_request (.admission (units "u") sampleRow.id (units "m") (units "b")) hcompleted
    admit_sample.discard
  exact ⟨_, hadmitted⟩

/-- A state with an admission is reached, and custody holds in it. -/
theorem custodyChain_admitted : ∃ w, (system sampleEnv).Reachable w ∧ w.state.admissions.length = 1 ∧
    w.state.telemetryLogs.length = 1 ∧ CustodyChain sampleEnv w := by
  obtain ⟨programs, h⟩ := admittedWorld_reachable
  exact ⟨_, h, rfl, rfl, custodyChain h⟩

end Forge.Recorder
