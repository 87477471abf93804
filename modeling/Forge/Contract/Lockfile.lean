import Forge.Contract.Model
import Forge.Contract.Semver
import Mathlib.Logic.Relation

/-!
# Lockfile resolution

The lockfile of a document pins every component reference in use, `id@range`, to
one immutable catalog revision, `id@version`. `pinRefs` writes it, keeping a pin
that still fits and otherwise taking the newest revision that is not yanked;
`resolveLockfile` is the admission check behind CTR-006.

`pinRefs_eq_ok_iff` says what `pinRefs` returns without mentioning its loop: the
map of what `pinRef` gives for each reference in use. From it follow

* **soundness of the writer** (`pinRefs_pinFits`): every pin it writes names the
  referenced component at a version in range that the catalog knows;
* **pin stability** (`pinRefs_stable`): however the catalog grows and whatever is
  yanked, pinning again returns the same lockfile and admission has no complaint.

Admission itself only looks a pin up in the catalog (`admissionSound_fails`). What it lets
through is sound where the entries come from the writer: `admissionSound_iff` gives the
exact condition, that every entry in use that names a revision of the catalog was written
by some run of `pinRefs` for the very reference that it pins (`OwnPin`).
-/

namespace Forge.Contract

/-! ### The catalog boundary -/

/-- Catalog lookup for lockfile resolution. -/
structure CatalogSource where
  /-- Whether `componentId@revision` exists as an immutable revision. -/
  hasRevision : String → String → Bool

/-- One published immutable revision. -/
structure Revision where
  version : Version
  /-- Yanked revisions stay resolvable for existing pins but are never freshly selected. -/
  yanked : Bool
deriving DecidableEq

/-- The resolution surface: a catalog that lists everything published for a component. -/
structure RevisionSource extends CatalogSource where
  revisions : String → List Revision

/-- A reference `pinRefs` could not pin. -/
structure ResolveError where
  componentRef : String
  reason : String
deriving DecidableEq

/-- A reference admission could not resolve. -/
structure UnresolvedRef where
  componentRef : String
  reason : String
deriving DecidableEq

/-- What a check reports. -/
structure Diagnostic where
  check : String
  message : String
  /-- Kind and id of what the diagnostic is about. -/
  subject : Option (String × String)
  hint : Option String
deriving DecidableEq

/-! ### Pinning -/

/-- A component reference is `id@range`, cut at the last `@`. -/
def refParts (componentRef : String) : Except String (String × Range) :=
  match Text.rsplitOnce '@' componentRef with
  | none => .error "componentRef is not '<id>@<range>'"
  | some (id, range) =>
    match Range.parse range with
    | none => .error s!"range '{range}' is not exact/^x.y.z/~x.y.z"
    | some range => .ok (id, range)

/-- The pin of `componentRef`, when it still names `id` at a known revision in range. -/
def keptPin (lockfile : BTreeMap String String) (source : CatalogSource) (componentRef id : String)
    (range : Range) : Option String := do
  let pin ← lockfile.get componentRef
  let (pinId, pinRev) ← Text.rsplitOnce '@' pin
  if pinId = id then
    let v ← Version.parse pinRev
    if range.matches v ∧ source.hasRevision pinId pinRev then some pin else none
  else none

/-- The newest revision in range that is not yanked. -/
def newestMatching (source : RevisionSource) (id : String) (range : Range) : Option Version :=
  (((source.revisions id).filter fun r => !r.yanked && range.matches r.version).map Revision.version).max?

/-- The pin for one reference: kept, or of the newest matching revision. -/
def pinRef (lockfile : BTreeMap String String) (source : RevisionSource) (componentRef : String) :
    Except ResolveError String :=
  match refParts componentRef with
  | .error reason => .error { componentRef, reason }
  | .ok (id, range) =>
    match keptPin lockfile source.toCatalogSource componentRef id range with
    | some pin => .ok pin
    | none =>
      match newestMatching source id range with
      | some v => .ok (id ++ String.singleton '@' ++ v.display)
      | none =>
        .error { componentRef, reason := s!"no published, non-yanked revision of '{id}' satisfies the range" }

/-- One visit of the pinning loop: write the pin, or note the error. -/
def pinStep (pin : String → Except ResolveError String) (acc : BTreeMap String String × List ResolveError)
    (componentRef : String) : BTreeMap String String × List ResolveError :=
  match pin componentRef with
  | .ok p => (acc.1.insert componentRef p, acc.2)
  | .error e => (acc.1, acc.2 ++ [e])

/-- Resolve every reference in use to an exact revision. -/
def pinRefs (spec : ModelSpec) (source : RevisionSource) : Except (List ResolveError) (BTreeMap String String) :=
  let (lockfile, errors) := spec.eachRef.foldl (pinStep (pinRef spec.lockfile source)) (.empty, [])
  if errors.isEmpty then .ok lockfile else .error errors

/-! ### Admission -/

/-- Why the pin of one reference does not resolve, if it does not. -/
def checkRef (spec : ModelSpec) (catalog : CatalogSource) (componentRef : String) : Option UnresolvedRef :=
  match spec.lockfile.get componentRef with
  | none => some { componentRef, reason := "missing from lockfile" }
  | some pin =>
    match Text.rsplitOnce '@' pin with
    | none => some { componentRef, reason := s!"lockfile pin '{pin}' is not '<id>@<version>'" }
    | some (id, rev) =>
      if catalog.hasRevision id rev then none
      else some { componentRef, reason := s!"pinned revision '{pin}' not in catalog" }

/-- The references in use that do not resolve against the lockfile. -/
def resolveLockfile (spec : ModelSpec) (catalog : CatalogSource) : List UnresolvedRef :=
  spec.eachRef.filterMap (checkRef spec catalog)

/-- CTR-006: one diagnostic for each unresolved reference. -/
def ctr006 (spec : ModelSpec) (catalog : CatalogSource) : List Diagnostic :=
  (resolveLockfile spec catalog).map fun u =>
    { check := "CTR-006", message := s!"lockfile_unresolved: {u.componentRef}",
      subject := some ("componentRef", u.componentRef), hint := some u.reason }

/-! ### What pins mean -/

/-- The pin of `r` parses and the catalog has that revision. -/
def Pinned (spec : ModelSpec) (catalog : CatalogSource) (r : String) : Prop :=
  ∃ pin id rev, spec.lockfile.get r = some pin ∧ Text.rsplitOnce '@' pin = some (id, rev) ∧
    catalog.hasRevision id rev = true

/-- If `r` is `id@range`, its pin names `id` at a version in range. -/
def PinFits (spec : ModelSpec) (r : String) : Prop :=
  ∀ id range, refParts r = .ok (id, range) →
    ∃ pin rev v, spec.lockfile.get r = some pin ∧ Text.rsplitOnce '@' pin = some (id, rev) ∧
      Version.parse rev = some v ∧ range.matches v = true

/-- What a clean CTR-006 is meant to guarantee: every reference `id@range` in use is
pinned to a version of `id` in range that the catalog has. -/
def AdmissionSound (spec : ModelSpec) (catalog : CatalogSource) : Prop :=
  ctr006 spec catalog = [] → ∀ r ∈ spec.eachRef, ∀ id range, refParts r = .ok (id, range) →
    ∃ pin rev v, spec.lockfile.get r = some pin ∧ Text.rsplitOnce '@' pin = some (id, rev) ∧
      Version.parse rev = some v ∧ range.matches v = true ∧ catalog.hasRevision id rev = true

theorem checkRef_eq_none_iff {spec : ModelSpec} {catalog : CatalogSource} {r : String} :
    checkRef spec catalog r = none ↔ Pinned spec catalog r := by
  unfold checkRef Pinned
  cases hg : spec.lockfile.get r with
  | none => simp
  | some pin =>
    cases hs : Text.rsplitOnce '@' pin with
    | none => simp [hs]
    | some p =>
      obtain ⟨id, rev⟩ := p
      by_cases hc : catalog.hasRevision id rev = true
      · simp [hs, hc]
      · simp [hs, hc]

theorem resolveLockfile_eq_nil_iff {spec : ModelSpec} {catalog : CatalogSource} :
    resolveLockfile spec catalog = [] ↔ ∀ r ∈ spec.eachRef, Pinned spec catalog r := by
  simp only [resolveLockfile, List.filterMap_eq_nil_iff, checkRef_eq_none_iff]

theorem ctr006_eq_nil_iff {spec : ModelSpec} {catalog : CatalogSource} :
    ctr006 spec catalog = [] ↔ ∀ r ∈ spec.eachRef, Pinned spec catalog r := by
  rw [ctr006, List.map_eq_nil_iff, resolveLockfile_eq_nil_iff]

/-- The document of a rover with one motor bound to `componentRef`. -/
def motorSpec (componentRef : String) (lockfile : BTreeMap String String) : ModelSpec where
  «meta» := { id := "p", name := "p", version := "2.1.0", archetype := .rover,
              provenance := { kind := .human, promptHash := none, modelVersion := none, seed := none },
              license := "CC0" }
  env := .default
  skeleton := [{ name := "root", parent := none, pos := ⟨0.0, 0.0, 0.0⟩, rot := ⟨0.0, 0.0, 0.0⟩, limits := none,
                 joint := none }]
  parts := []
  slots := []
  lockfile
  ports := []
  chains := []
  driver := { archetype := .rover, params := .null }
  sim := { SimBlock.default with
           motors := [{ kv := none, rIntMohm := none, maxCurrentA := none, componentRef := some componentRef,
                        mount := "root", dir := none }] }

/-- Admission accepts a pin that names another component altogether. -/
theorem admissionSound_fails :
    ¬ AdmissionSound (motorSpec "cmp_a@^1.0.0" (.ofList [("cmp_a@^1.0.0", "cmp_b@9.0.0")]))
      ⟨fun id rev => id = "cmp_b" ∧ rev = "9.0.0"⟩ := by
  intro h
  obtain ⟨pin, rev, v, h1, h2, -⟩ := h (by decide) "cmp_a@^1.0.0" (by decide) "cmp_a" (.caret ⟨1, 0, 0⟩) (by rfl)
  obtain rfl : "cmp_b@9.0.0" = pin := Option.some.inj h1
  exact absurd h2 (by simp [show Text.rsplitOnce '@' "cmp_b@9.0.0" = some ("cmp_b", "9.0.0") by decide])

/-! ### What pinning returns -/

/-- The pinning loop: the errors of the references visited, and the pins of the others. -/
theorem foldl_pinStep (pin : String → Except ResolveError String) (refs : List String)
    (acc : BTreeMap String String × List ResolveError) :
    ((refs.foldl (pinStep pin) acc).2 = [] ↔ acc.2 = [] ∧ ∀ r ∈ refs, ∃ p, pin r = .ok p) ∧
      ∀ k, (refs.foldl (pinStep pin) acc).1.get k =
        if k ∈ refs then (match pin k with | .ok p => some p | .error _ => acc.1.get k) else acc.1.get k := by
  induction refs generalizing acc with
  | nil => simp
  | cons r refs ih =>
    obtain ⟨ih1, ih2⟩ := ih (pinStep pin acc r)
    refine ⟨?_, fun k => ?_⟩
    · rw [List.foldl_cons, ih1, List.forall_mem_cons]
      cases hr : pin r with
      | ok p => simp [pinStep, hr]
      | error e => simp [pinStep, hr]
    · rw [List.foldl_cons, ih2]
      cases hr : pin r with
      | ok p =>
        simp only [pinStep, hr, BTreeMap.get_insert, List.mem_cons]
        by_cases hk : k = r
        · simp [hk, hr]
        · simp [hk]
      | error e =>
        simp only [pinStep, hr, List.mem_cons]
        by_cases hk : k = r
        · simp [hk, hr]
        · simp [hk]

/-- **What `pinRefs` returns**: the lockfile of the pins of the references in use, provided
each of them has one. -/
theorem pinRefs_eq_ok_iff {spec : ModelSpec} {source : RevisionSource} {L : BTreeMap String String} :
    pinRefs spec source = .ok L ↔
      (∀ r ∈ spec.eachRef, ∃ p, pinRef spec.lockfile source r = .ok p ∧ L.get r = some p) ∧
        ∀ k, k ∉ spec.eachRef → L.get k = none := by
  obtain ⟨h1, h2⟩ := foldl_pinStep (pinRef spec.lockfile source) spec.eachRef (.empty, [])
  set acc := spec.eachRef.foldl (pinStep (pinRef spec.lockfile source)) (.empty, []) with hacc
  have hpin : pinRefs spec source = if acc.2.isEmpty then .ok acc.1 else .error acc.2 := by rw [pinRefs, ← hacc]
  simp only [BTreeMap.get_empty, true_and] at h1 h2
  rw [hpin]
  constructor
  · intro h
    split_ifs at h with he
    obtain rfl := Except.ok.inj h
    have hok := h1.mp (List.isEmpty_iff.mp he)
    refine ⟨fun r hr => ?_, fun k hk => by rw [h2, if_neg hk]⟩
    obtain ⟨p, hp⟩ := hok r hr
    exact ⟨p, hp, by rw [h2, if_pos hr, hp]⟩
  · rintro ⟨hin, hout⟩
    have he : acc.2 = [] := h1.mpr fun r hr => (hin r hr).imp fun _ h => h.1
    rw [he, List.isEmpty_nil, if_pos rfl]
    congr 1
    ext k : 1
    rw [h2]
    by_cases hk : k ∈ spec.eachRef
    · obtain ⟨p, hp, hL⟩ := hin k hk
      rw [if_pos hk, hp, hL]
    · rw [if_neg hk, hout k hk]

theorem keptPin_eq_some_iff {lockfile : BTreeMap String String} {source : CatalogSource} {r id pin : String}
    {range : Range} :
    keptPin lockfile source r id range = some pin ↔
      lockfile.get r = some pin ∧ ∃ rev v, Text.rsplitOnce '@' pin = some (id, rev) ∧
        Version.parse rev = some v ∧ range.matches v = true ∧ source.hasRevision id rev = true := by
  unfold keptPin
  cases hg : lockfile.get r with
  | none => simp
  | some p =>
    cases hs : Text.rsplitOnce '@' p with
    | none =>
      simp only [hs, Option.bind_eq_bind, Option.bind_some, Option.bind_none, Option.some.injEq]
      refine ⟨fun h => by simp at h, ?_⟩
      rintro ⟨rfl, rev, v, h, -⟩
      simp [hs] at h
    | some q =>
      obtain ⟨pinId, pinRev⟩ := q
      simp only [hs, Option.bind_eq_bind, Option.bind_some, Option.some.injEq]
      constructor
      · intro h
        split_ifs at h with hid
        cases hv : Version.parse pinRev with
        | none => simp [hv] at h
        | some v =>
          rw [hv, Option.bind_some] at h
          split_ifs at h with hm
          obtain rfl := Option.some.inj h
          exact ⟨rfl, pinRev, v, by rw [hs, hid], hv, hm.1, hid ▸ hm.2⟩
      · rintro ⟨rfl, rev, v, h1, h2, h3, h4⟩
        obtain ⟨rfl, rfl⟩ := Prod.mk.inj (Option.some.inj (hs.symm.trans h1))
        simp [h2, h3, h4]

theorem newestMatching_eq_some {source : RevisionSource} {id : String} {range : Range} {v : Version}
    (h : newestMatching source id range = some v) :
    range.matches v = true ∧ ∃ r ∈ source.revisions id, r.version = v ∧ r.yanked = false := by
  have hmem := List.max?_mem h
  simp only [List.mem_map, List.mem_filter, Bool.and_eq_true, Bool.not_eq_true'] at hmem
  obtain ⟨r, ⟨hr, hy, hm⟩, rfl⟩ := hmem
  exact ⟨hm, r, hr, rfl, hy⟩

/-- A **coherent** catalog has exactly the canonical texts of the versions it lists. -/
def RevisionSource.Coherent (source : RevisionSource) : Prop :=
  ∀ id rev, source.hasRevision id rev = true ↔ ∃ r ∈ source.revisions id, r.version.display = rev

/-- Every pin that is written names the referenced component at a version in range, which a
coherent catalog has. -/
theorem pinRef_eq_ok {lockfile : BTreeMap String String} {source : RevisionSource} {r pin : String}
    (h : pinRef lockfile source r = .ok pin) :
    ∃ id range rev v, refParts r = .ok (id, range) ∧ Text.rsplitOnce '@' pin = some (id, rev) ∧
      Version.parse rev = some v ∧ range.matches v = true ∧
      (source.Coherent → source.hasRevision id rev = true) := by
  unfold pinRef at h
  cases hr : refParts r with
  | error e => simp [hr] at h
  | ok p =>
    obtain ⟨id, range⟩ := p
    simp only [hr] at h
    cases hk : keptPin lockfile source.toCatalogSource r id range with
    | some kept =>
      simp only [hk] at h
      obtain rfl := Except.ok.inj h
      obtain ⟨-, rev, v, h1, h2, h3, h4⟩ := keptPin_eq_some_iff.mp hk
      exact ⟨id, range, rev, v, rfl, h1, h2, h3, fun _ => h4⟩
    | none =>
      cases hn : newestMatching source id range with
      | none => simp [hk, hn] at h
      | some v =>
        simp only [hk, hn] at h
        obtain rfl := Except.ok.inj h
        obtain ⟨hm, q, hq, rfl, -⟩ := newestMatching_eq_some hn
        exact ⟨id, range, q.version.display, q.version, rfl,
          Text.rsplitOnce_join _ _ (Version.not_mem_display (by decide) (by decide) _), Version.parse_display _, hm,
          fun hc => (hc _ _).mpr ⟨q, hq, rfl⟩⟩

/-- **The writer is sound**: with the lockfile it returns, every reference in use is pinned
to a fitting version that the catalog has. -/
theorem pinRefs_pinFits {spec : ModelSpec} {source : RevisionSource} (hc : source.Coherent)
    {L : BTreeMap String String} (h : pinRefs spec source = .ok L) {r : String} (hr : r ∈ spec.eachRef) :
    PinFits { spec with lockfile := L } r ∧ Pinned { spec with lockfile := L } source.toCatalogSource r := by
  obtain ⟨p, hp, hL⟩ := (pinRefs_eq_ok_iff.mp h).1 r hr
  obtain ⟨id, range, rev, v, h1, h2, h3, h4, h5⟩ := pinRef_eq_ok hp
  refine ⟨fun id' range' hid => ?_, p, id, rev, hL, h2, h5 hc⟩
  obtain ⟨rfl, rfl⟩ := Prod.mk.inj (Except.ok.inj (h1.symm.trans hid))
  exact ⟨p, rev, v, hL, h2, h3, h4⟩

/-! ### Admission and the writer -/

/-- Some run of `pinRefs`, for whatever document and catalog, wrote `pin` for the reference `r`. -/
def WrittenFor (r pin : String) : Prop :=
  ∃ (spec : ModelSpec) (source : RevisionSource) (L : BTreeMap String String),
    r ∈ spec.eachRef ∧ pinRefs spec source = .ok L ∧ L.get r = some pin

/-- If `r` is `id@range` and the catalog has the revision that its entry names, the entry was
written for `r`. -/
def OwnPin (lockfile : BTreeMap String String) (catalog : CatalogSource) (r : String) : Prop :=
  ∀ id range pin pinId rev, refParts r = .ok (id, range) → lockfile.get r = some pin →
    Text.rsplitOnce '@' pin = some (pinId, rev) → catalog.hasRevision pinId rev = true → WrittenFor r pin

/-- The pins that runs of `pinRefs` write for `id@range`: those of `id` at a version in range. -/
theorem writtenFor_iff {r pin id : String} {range : Range} (hr : refParts r = .ok (id, range)) :
    WrittenFor r pin ↔ ∃ rev v, Text.rsplitOnce '@' pin = some (id, rev) ∧ Version.parse rev = some v ∧
      range.matches v = true := by
  constructor
  · rintro ⟨spec, source, L, hmem, hL, hget⟩
    obtain ⟨p, hp, hLp⟩ := (pinRefs_eq_ok_iff.mp hL).1 r hmem
    obtain rfl := Option.some.inj (hLp.symm.trans hget)
    obtain ⟨id', range', rev, v, h1, h2, h3, h4, -⟩ := pinRef_eq_ok hp
    obtain ⟨rfl, rfl⟩ := Prod.mk.inj (Except.ok.inj (h1.symm.trans hr))
    exact ⟨rev, v, h2, h3, h4⟩
  · rintro ⟨rev, v, h2, h3, h4⟩
    -- a document that is pinned so already keeps its pin
    let everything : RevisionSource := { hasRevision := fun _ _ => true, revisions := fun _ => [] }
    let L : BTreeMap String String := .insert .empty r pin
    have hget (k : String) : L.get k = if k = r then some pin else none := by
      rw [BTreeMap.get_insert, BTreeMap.get_empty]
    have hkept : keptPin L everything.toCatalogSource r id range = some pin :=
      keptPin_eq_some_iff.mpr ⟨(hget r).trans (if_pos rfl), rev, v, h2, h3, h4, rfl⟩
    have hpin : pinRef L everything r = .ok pin := by
      simp [pinRef, hr, hkept]
    refine ⟨motorSpec r L, everything, L, List.mem_singleton_self r, pinRefs_eq_ok_iff.mpr ⟨fun k hk => ?_, fun k hk => ?_⟩,
      (hget r).trans (if_pos rfl)⟩
    · obtain rfl := List.mem_singleton.mp hk
      exact ⟨pin, hpin, (hget k).trans (if_pos rfl)⟩
    · exact (hget k).trans (if_neg fun h => hk (List.mem_singleton.mpr h))

/-- **When admission is sound**: for the documents with this lockfile whose references are
taken from `R`, exactly when every entry for one of these references that names a revision
of the catalog was written for that reference. -/
theorem admissionSound_iff (lockfile : BTreeMap String String) (catalog : CatalogSource) (R : Set String) :
    (∀ spec : ModelSpec, spec.lockfile = lockfile → (∀ r ∈ spec.eachRef, r ∈ R) → AdmissionSound spec catalog) ↔
      ∀ r ∈ R, OwnPin lockfile catalog r := by
  constructor
  · intro h r hr id range pin pinId rev hid hpin hsplit hrev
    have hclean : ctr006 (motorSpec r lockfile) catalog = [] := ctr006_eq_nil_iff.mpr fun s hs => by
      obtain rfl := List.mem_singleton.mp hs
      exact ⟨pin, pinId, rev, hpin, hsplit, hrev⟩
    have huse : ∀ s ∈ (motorSpec r lockfile).eachRef, s ∈ R := fun s hs => List.mem_singleton.mp hs ▸ hr
    obtain ⟨pin', rev', v, h1, h2, h3, h4, -⟩ :=
      h (motorSpec r lockfile) rfl huse hclean r (List.mem_singleton_self r) id range hid
    obtain rfl := Option.some.inj (h1.symm.trans hpin)
    exact (writtenFor_iff hid).mpr ⟨rev', v, h2, h3, h4⟩
  · rintro h spec rfl huse hclean r hr id range hid
    obtain ⟨pin, pinId, rev, hpin, hsplit, hrev⟩ := ctr006_eq_nil_iff.mp hclean r hr
    obtain ⟨rev', v, h2, h3, h4⟩ := (writtenFor_iff hid).mp (h r (huse r hr) id range pin pinId rev hid hpin hsplit hrev)
    obtain ⟨rfl, rfl⟩ := Prod.mk.inj (Option.some.inj (hsplit.symm.trans h2))
    exact ⟨pin, rev, v, hpin, h2, h3, h4, hrev⟩

/-! ### Catalog histories -/

/-- One change of what a catalog lists: a new revision, or a yank. -/
inductive CatalogStep : (String → List Revision) → (String → List Revision) → Prop where
  /-- A revision of `id` is published, wherever it appears in the listing. -/
  | publish {R : String → List Revision} (id : String) (new : Revision) (before after : List Revision) :
      R id = before ++ after → CatalogStep R (Function.update R id (before ++ new :: after))
  /-- Every listed revision of `id` at `v` becomes yanked. -/
  | yank {R : String → List Revision} (id : String) (v : Version) :
      CatalogStep R (Function.update R id
        ((R id).map fun r => if r.version = v then { r with yanked := true } else r))

/-- Any sequence of publications and yanks. -/
abbrev CatalogHistory := Relation.ReflTransGen CatalogStep

/-- A version once listed stays listed. -/
theorem CatalogStep.listed {R R₁ : String → List Revision} (h : CatalogStep R R₁) {id : String} {r : Revision}
    (hr : r ∈ R id) : ∃ r' ∈ R₁ id, r'.version = r.version := by
  cases h with
  | publish id' new before after hsplit =>
    by_cases hid : id = id'
    · subst hid
      refine ⟨r, ?_, rfl⟩
      rw [Function.update_self]
      rw [hsplit] at hr
      simp only [List.mem_append, List.mem_cons] at hr ⊢
      tauto
    · exact ⟨r, by rwa [Function.update_of_ne hid], rfl⟩
  | yank id' v =>
    by_cases hid : id = id'
    · subst hid
      rw [Function.update_self]
      exact ⟨_, List.mem_map_of_mem hr, by split_ifs <;> rfl⟩
    · exact ⟨r, by rwa [Function.update_of_ne hid], rfl⟩

theorem CatalogHistory.listed {R R₁ : String → List Revision} (h : CatalogHistory R R₁) {id : String} {r : Revision}
    (hr : r ∈ R id) : ∃ r' ∈ R₁ id, r'.version = r.version := by
  induction h with
  | refl => exact ⟨r, hr, rfl⟩
  | tail _ hstep ih =>
    obtain ⟨r', hr', hv⟩ := ih
    obtain ⟨r'', hr'', hv'⟩ := hstep.listed hr'
    exact ⟨r'', hr'', hv'.trans hv⟩

/-- Revisions are immutable history: what the catalog has, it keeps. -/
theorem hasRevision_of_history {C₁ C₂ : RevisionSource} (h₁ : C₁.Coherent) (h₂ : C₂.Coherent)
    (h : CatalogHistory C₁.revisions C₂.revisions) {id rev : String} (hr : C₁.hasRevision id rev = true) :
    C₂.hasRevision id rev = true := by
  obtain ⟨r, hm, rfl⟩ := (h₁ _ _).mp hr
  obtain ⟨r', hm', hv⟩ := h.listed hm
  exact (h₂ _ _).mpr ⟨r', hm', by rw [hv]⟩

/-- **Pin stability**: whatever is published or yanked after `L` was written, pinning again
returns `L`, admission resolves everything, and `L` has one entry per reference in use. -/
theorem pinRefs_stable (spec : ModelSpec) (C₁ C₂ : RevisionSource) (h₁ : C₁.Coherent) (h₂ : C₂.Coherent)
    (hist : CatalogHistory C₁.revisions C₂.revisions) (L : BTreeMap String String) (h : pinRefs spec C₁ = .ok L) :
    pinRefs { spec with lockfile := L } C₂ = .ok L ∧
      resolveLockfile { spec with lockfile := L } C₂.toCatalogSource = [] ∧
      L.keys.Nodup ∧ ∀ r, r ∈ L.keys ↔ r ∈ spec.eachRef := by
  obtain ⟨hin, hout⟩ := pinRefs_eq_ok_iff.mp h
  have kept : ∀ r ∈ spec.eachRef, ∃ p, pinRef L C₂ r = .ok p ∧ L.get r = some p := fun r hr => by
    obtain ⟨p, hp, hL⟩ := hin r hr
    obtain ⟨id, range, rev, v, h1, h2, h3, h4, h5⟩ := pinRef_eq_ok hp
    have hk : keptPin L C₂.toCatalogSource r id range = some p :=
      keptPin_eq_some_iff.mpr ⟨hL, rev, v, h2, h3, h4, hasRevision_of_history h₁ h₂ hist (h5 h₁)⟩
    exact ⟨p, by simp [pinRef, h1, hk], hL⟩
  have hpin : pinRefs { spec with lockfile := L } C₂ = .ok L := pinRefs_eq_ok_iff.mpr ⟨kept, hout⟩
  refine ⟨hpin, resolveLockfile_eq_nil_iff.mpr fun r hr => (pinRefs_pinFits h₂ hpin hr).2, L.nodup_keys, fun r => ?_⟩
  constructor
  · intro hk
    by_contra hr
    exact BTreeMap.get_eq_none_iff.mp (hout r hr) hk
  · intro hr
    by_contra hk
    obtain ⟨p, -, hL⟩ := hin r hr
    rw [BTreeMap.get_eq_none_iff.mpr hk] at hL
    cases hL

/-- The coherent catalog that lists `R`. -/
def RevisionSource.ofRevisions (R : String → List Revision) : RevisionSource where
  hasRevision id rev := (R id).any fun r => r.version.display = rev
  revisions := R

theorem RevisionSource.coherent_ofRevisions (R : String → List Revision) : (ofRevisions R).Coherent := fun id rev => by
  simp [ofRevisions]

/-- A pinned motor stays where it is after `1.5.0` is published and `1.0.0` yanked. -/
theorem pinRefs_stable_motor :
    let old : Revision := ⟨⟨1, 0, 0⟩, false⟩
    let R : String → List Revision := fun id => if id = "cmp_m" then [old] else []
    let R₁ := Function.update R "cmp_m" ([old] ++ ⟨⟨1, 5, 0⟩, false⟩ :: [])
    let R₂ := Function.update R₁ "cmp_m" ((R₁ "cmp_m").map fun r =>
      if r.version = ⟨1, 0, 0⟩ then { r with yanked := true } else r)
    let L : BTreeMap String String := .ofList [("cmp_m@^1.0.0", "cmp_m@1.0.0")]
    pinRefs (motorSpec "cmp_m@^1.0.0" L) (.ofRevisions R₂) = .ok L :=
  (pinRefs_stable (motorSpec "cmp_m@^1.0.0" .empty) _ _ (RevisionSource.coherent_ofRevisions _)
    (RevisionSource.coherent_ofRevisions _)
    (((Relation.ReflTransGen.refl).tail (CatalogStep.publish "cmp_m" ⟨⟨1, 5, 0⟩, false⟩ [⟨⟨1, 0, 0⟩, false⟩] [] rfl)).tail
      (CatalogStep.yank "cmp_m" ⟨1, 0, 0⟩)) _ (by rfl)).1

end Forge.Contract
