import Forge.Json.Serde

/-!
# Rewriting documents under a typed reader

A rewriting of documents touches objects by their keys, at any depth, without
knowing which of them a typed reader will take for a struct and which for data that
is free in form. `Rewriting` says what such a rewriting does: it leaves an object
itself alone when the object is *settled*, and changes it otherwise.

For a codec two questions arise, and `Codec.Tracks` answers both along the shape of
the type. Does a value read from a settled document serialise to a settled one
(`keeps`)? And is a value that survives the rewriting of its serialisation one whose
serialisation is settled (`exposes`)? A codec all of whose serialisations are
settled (`Codec.Closed`) trivially tracks; what is left is the free-form data.
-/

namespace Forge

/-- A rewriting of documents. -/
structure Rewriting where
  rewrite : Json → Json
  /-- The members of an object that the rewriting leaves alone, but for what is inside them. -/
  settled : List (String × Json) → Prop
  rewrite_atom : ∀ {j}, j.asObject = none → j.asArray = none → rewrite j = j
  rewrite_array : ∀ xs, rewrite (.array xs) = .array (xs.map rewrite)
  rewrite_settled : ∀ {ms}, settled ms → rewrite (.object ms) = .object (Assoc.mapVals rewrite ms)
  settled_of_fixed : ∀ {ms}, rewrite (.object ms) = .object ms → settled ms
  rewrite_object : ∀ ms, ∃ ns, rewrite (.object ms) = .object ns ∧ (Assoc.Sorted ms → Assoc.Sorted ns)

namespace Rewriting

variable (R : Rewriting)

/-- An object is settled; nothing is asked of other values. -/
def Here : Json → Prop
  | .object ms => R.settled ms
  | _ => True

/-- Every object of the document is settled. -/
def Settled (j : Json) : Prop := j.Everywhere R.Here

variable {R}

theorem settled_atom {j : Json} (hobj : j.asObject = none) (harr : j.asArray = none) : R.Settled j := by
  cases j with
  | array xs => cases harr
  | object ms => cases hobj
  | _ => simp [Settled, Here]

theorem settled_array {xs : List Json} : R.Settled (.array xs) ↔ ∀ x ∈ xs, R.Settled x := by
  simp [Settled, Here]

theorem settled_object {ms : List (String × Json)} :
    R.Settled (.object ms) ↔ R.settled ms ∧ ∀ e ∈ ms, R.Settled e.2 := by
  simp [Settled, Here]

theorem map_eq_self_iff {α : Type} {f : α → α} {as : List α} : as.map f = as ↔ ∀ a ∈ as, f a = a := by
  induction as with
  | nil => simp
  | cons a as ih => simp [ih]

/-- **Settled documents are the fixed points** of the rewriting. -/
theorem rewrite_eq_self_iff {j : Json} : R.rewrite j = j ↔ R.Settled j := by
  induction j with
  | array xs ih =>
    rw [R.rewrite_array, settled_array, Json.array.injEq, map_eq_self_iff]
    exact forall₂_congr ih
  | object ms ih =>
    have hvals : R.settled ms → (R.rewrite (.object ms) = .object ms ↔ ∀ e ∈ ms, R.Settled e.2) := fun hms => by
      rw [R.rewrite_settled hms, Json.object.injEq, Assoc.mapVals, map_eq_self_iff]
      refine forall₂_congr fun e he => ?_
      rw [← ih e he]
      exact ⟨fun h => congrArg Prod.snd h, fun h => Prod.ext rfl h⟩
    rw [settled_object]
    constructor
    · intro h
      have hms : R.settled ms := R.settled_of_fixed h
      exact ⟨hms, (hvals hms).mp h⟩
    · rintro ⟨hms, h⟩
      exact (hvals hms).mpr h
  | _ => exact iff_of_true (R.rewrite_atom rfl rfl) (settled_atom rfl rfl)

theorem rewrite_eq_null {j : Json} (h : R.rewrite j = .null) : j = .null := by
  cases j with
  | array xs =>
    rw [R.rewrite_array] at h
    cases h
  | object ms =>
    obtain ⟨ns, hns, -⟩ := R.rewrite_object ms
    rw [hns] at h
    cases h
  | _ => exact (R.rewrite_atom rfl rfl).symm.trans h

end Rewriting

namespace Codec

variable {α β σ : Type} {R : Rewriting}

/-- Every serialisation is settled. -/
def Closed (R : Rewriting) (c : Codec α) : Prop := ∀ a, R.Settled (c.encode a)

/-- How a rewriting shows in the values that are read. -/
structure Tracks (R : Rewriting) (c : Codec α) : Prop where
  /-- What is read from a settled document is written as one. -/
  keeps : ∀ {j a}, c.decode j = some a → j.WF → R.Settled j → R.Settled (c.encode a)
  /-- A value that survives the rewriting was written as a settled document. -/
  exposes : ∀ {a}, c.decode (R.rewrite (c.encode a)) = some a → R.Settled (c.encode a)

theorem Closed.tracks {c : Codec α} (h : c.Closed R) : c.Tracks R := ⟨fun _ _ _ => h _, fun _ => h _⟩

/-! ### Primitives and containers -/

theorem string_closed : string.Closed R := fun _ => Rewriting.settled_atom rfl rfl

theorem bool_closed : bool.Closed R := fun _ => Rewriting.settled_atom rfl rfl

theorem double_closed : double.Closed R := fun x => by
  change R.Settled (if h : x.isFinite = true then _ else _)
  split_ifs <;> exact Rewriting.settled_atom rfl rfl

theorem uint32_closed : uint32.Closed R := fun _ => Rewriting.settled_atom rfl rfl

theorem uint64_closed : uint64.Closed R := fun _ => Rewriting.settled_atom rfl rfl

theorem int8_closed : int8.Closed R := fun _ => Rewriting.settled_atom rfl rfl

theorem units_closed {text : α → String} {all : List α} : (units text all).Closed R :=
  fun _ => Rewriting.settled_atom rfl rfl

theorem json_tracks : json.Tracks R where
  keeps {j a} h _ hs := by
    obtain rfl := Option.some.inj h
    exact hs
  exposes h := Rewriting.rewrite_eq_self_iff.mp (Option.some.inj h)

theorem stringMap_tracks : stringMap.Tracks R where
  keeps {j m} h hj hs := by
    cases j with
    | object ms =>
      rw [(decode_stringMap (Json.wf_object.mp hj).1).mp h] at hs
      exact hs
    | _ => cases h
  exposes {m} h := by
    have hsorted : Assoc.Sorted (Assoc.mapVals Json.string m.entries) := m.sorted.mapVals _
    obtain ⟨ns, hns, hkeep⟩ := R.rewrite_object (Assoc.mapVals .string m.entries)
    have hread : stringMap.decode (.object ns) = some m := hns ▸ h
    rw [decode_stringMap (hkeep hsorted)] at hread
    rw [hread] at hns
    exact Rewriting.rewrite_eq_self_iff.mp hns

theorem option_closed {c : Codec α} (h : c.Closed R) : c.option.Closed R
  | none => Rewriting.settled_atom rfl rfl
  | some a => h a

theorem list_closed {c : Codec α} (h : c.Closed R) : c.list.Closed R := fun as =>
  Rewriting.settled_array.mpr fun j hj => by
    obtain ⟨a, -, rfl⟩ := List.mem_map.mp hj
    exact h a

theorem list_tracks {c : Codec α} (h : c.Tracks R) : c.list.Tracks R where
  keeps {j as} ha hj hs := by
    obtain ⟨js, rfl, hall⟩ := decode_list.mp ha
    refine Rewriting.settled_array.mpr fun j' hj' => ?_
    obtain ⟨a, ham, rfl⟩ := List.mem_map.mp hj'
    obtain ⟨j, hjm, hread⟩ := exists_of_forall₂ hall ham
    exact h.keeps hread (Json.wf_array.mp hj j hjm) (Rewriting.settled_array.mp hs j hjm)
  exposes {as} ha := by
    change c.list.decode (R.rewrite (.array (as.map c.encode))) = some as at ha
    rw [R.rewrite_array, List.map_map] at ha
    obtain ⟨js, hjs, hall⟩ := decode_list.mp ha
    obtain rfl := Json.array.inj hjs
    rw [List.forall₂_map_left_iff, List.forall₂_same] at hall
    refine Rewriting.settled_array.mpr fun j hj => ?_
    obtain ⟨a, ham, rfl⟩ := List.mem_map.mp hj
    exact h.exposes (hall a ham)

theorem array_closed {toList : β → List α} {ofList : List α → Option β} {c : Codec α} (h : c.Closed R) :
    (array toList ofList c).Closed R := fun _ => list_closed h _

end Codec

/-! ### Structs and tagged unions -/

namespace Field

variable {α : Type} {R : Rewriting}

/-- The field's type tracks the rewriting, and what is written for its defaults is settled. -/
structure Tracks (R : Rewriting) (f : Field α) : Prop where
  codec : f.codec.Tracks R
  absent : ∀ {a}, f.absent = some a → f.skip a = false → R.Settled (f.codec.encode a)
  ended : ∀ {a}, f.ended = some a → f.skip a = false → R.Settled (f.codec.encode a)

theorem tracks_of_closed {f : Field α} (h : f.codec.Closed R) : f.Tracks R := ⟨h.tracks, fun _ _ => h _, fun _ _ => h _⟩

theorem required_tracks (name : String) {c : Codec α} (h : c.Tracks R) : (required name c).Tracks R where
  codec := h
  absent h := by cases h
  ended h := by cases h

theorem skipped_tracks (name : String) {c : Codec α} (h : c.Tracks R) {d : α} {skip : α → Bool}
    (hd : skip d = false → R.Settled (c.encode d)) : (skipped name c d skip).Tracks R where
  codec := h
  absent ha hs := by
    obtain rfl := Option.some.inj ha
    exact hd hs
  ended ha hs := by
    obtain rfl := Option.some.inj ha
    exact hd hs

theorem vec_tracks (name : String) {c : Codec α} (h : c.Tracks R) : (vec name c).Tracks R :=
  skipped_tracks name (Codec.list_tracks h) fun hd => by cases hd

theorem map_tracks (name : String) : (map name).Tracks R :=
  skipped_tracks name Codec.stringMap_tracks fun hd => by cases hd

end Field

namespace Fields

variable {β : Type} {R : Rewriting}

/-- Every field's type is closed. -/
def Closed (R : Rewriting) : {β : Type} → Fields β → Prop
  | _, nil => True
  | _, cons f fs => f.codec.Closed R ∧ fs.Closed R

/-- Every field tracks. -/
def Tracks (R : Rewriting) : {β : Type} → Fields β → Prop
  | _, nil => True
  | _, cons f fs => f.Tracks R ∧ fs.Tracks R

theorem Closed.nil : Fields.nil.Closed R := trivial

theorem Closed.cons {α : Type} {f : Field α} {fs : Fields β} (hf : f.codec.Closed R) (hfs : fs.Closed R) :
    (Fields.cons f fs).Closed R := ⟨hf, hfs⟩

theorem Tracks.nil : Fields.nil.Tracks R := trivial

theorem Tracks.cons {α : Type} {f : Field α} {fs : Fields β} (hf : f.Tracks R) (hfs : fs.Tracks R) :
    (Fields.cons f fs).Tracks R := ⟨hf, hfs⟩

/-- The written members are settled when those of the first field and of the rest are. -/
theorem forall_mem_members {α : Type} {f : Field α} {fs : Fields β} {a : α} {b : β} {P : Json → Prop}
    (hf : f.skip a = false → P (f.codec.encode a)) (hfs : ∀ e ∈ fs.members b, P e.2) :
    ∀ e ∈ (cons f fs).members (a, b), P e.2 := by
  rw [members]
  split_ifs with hskip
  · exact hfs
  · exact List.forall_mem_cons.mpr ⟨hf (Bool.eq_false_iff.mpr hskip), hfs⟩

theorem forall_mem_cons {α : Type} {f : Field α} {fs : Fields β} {a : α} {b : β} {P : Json → Prop} :
    (∀ e ∈ (cons f fs).members (a, b), P e.2) ↔
      (f.skip a = false → P (f.codec.encode a)) ∧ ∀ e ∈ fs.members b, P e.2 := by
  constructor
  · intro h
    rw [members] at h
    split_ifs at h with hskip
    · exact ⟨fun hno => by simp [hskip] at hno, h⟩
    · exact ⟨fun _ => h _ List.mem_cons_self, fun e he => h e (List.mem_cons_of_mem _ he)⟩
  · rintro ⟨hf, hfs⟩
    exact forall_mem_members hf hfs

theorem settled_of_closed {fs : Fields β} (h : fs.Closed R) (b : β) : ∀ e ∈ fs.members b, R.Settled e.2 := by
  induction fs with
  | nil => exact fun _ he => absurd he List.not_mem_nil
  | cons f fs ih => exact forall_mem_members (fun _ => h.1 _) (ih h.2 b.2)

theorem settled_of_ofObject {fs : Fields β} (h : fs.Tracks R) {ms : List (String × Json)} {b : β}
    (hb : fs.ofObject ms = some b) (hms : ∀ e ∈ ms, e.2.WF ∧ R.Settled e.2) :
    ∀ e ∈ fs.members b, R.Settled e.2 := by
  induction fs with
  | nil => exact fun _ he => absurd he List.not_mem_nil
  | cons f fs ih =>
    obtain ⟨a, ha, hb⟩ := Option.bind_eq_some_iff.mp hb
    obtain ⟨b', hb', hb⟩ := Option.bind_eq_some_iff.mp hb
    obtain rfl := Option.some.inj hb
    refine forall_mem_members (fun hskip => ?_) (ih h.2 hb')
    cases hget : Assoc.get f.name ms with
    | none =>
      rw [hget] at ha
      exact h.1.absent ha hskip
    | some j =>
      rw [hget] at ha
      obtain ⟨hwf, hs⟩ := hms _ (Assoc.mem_of_get hget)
      exact h.1.codec.keeps ha hwf hs

theorem settled_of_ofArray {fs : Fields β} (h : fs.Tracks R) {js : List Json} {b : β}
    (hb : fs.ofArray js = some b) (hjs : ∀ j ∈ js, j.WF ∧ R.Settled j) : ∀ e ∈ fs.members b, R.Settled e.2 := by
  induction fs generalizing js with
  | nil => exact fun _ he => absurd he List.not_mem_nil
  | cons f fs ih =>
    cases js with
    | nil =>
      obtain ⟨a, ha, hb⟩ := Option.bind_eq_some_iff.mp hb
      obtain ⟨b', hb', hb⟩ := Option.bind_eq_some_iff.mp hb
      obtain rfl := Option.some.inj hb
      exact forall_mem_members (h.1.ended ha) (ih h.2 hb' hjs)
    | cons j js =>
      obtain ⟨a, ha, hb⟩ := Option.bind_eq_some_iff.mp hb
      obtain ⟨b', hb', hb⟩ := Option.bind_eq_some_iff.mp hb
      obtain rfl := Option.some.inj hb
      rw [List.forall_mem_cons] at hjs
      exact forall_mem_members (fun _ => h.1.codec.keeps ha hjs.1.1 hjs.1.2) (ih h.2 hb' hjs.2)

/-- Values that are read back from rewritten members were written as settled members. -/
theorem settled_of_reread {fs : Fields β} (h : fs.Tracks R) (hnames : fs.names.Nodup) {ms : List (String × Json)} {b : β}
    (hms : ∀ k ∈ fs.names, Assoc.get k ms = (Assoc.get k (fs.members b)).map R.rewrite)
    (hb : fs.ofObject ms = some b) : ∀ e ∈ fs.members b, R.Settled e.2 := by
  induction fs with
  | nil => exact fun _ he => absurd he List.not_mem_nil
  | cons f fs ih =>
    obtain ⟨a', ha, hb⟩ := Option.bind_eq_some_iff.mp hb
    obtain ⟨b', hb', hb⟩ := Option.bind_eq_some_iff.mp hb
    obtain rfl := Option.some.inj hb
    rw [names, List.nodup_cons] at hnames
    refine forall_mem_members (fun hskip => ?_) (ih h.2 hnames.2 (fun k hk => ?_) hb')
    · have hget : Assoc.get f.name ms = some (R.rewrite (f.codec.encode a')) := by
        rw [hms f.name List.mem_cons_self, members, if_neg (by simp [hskip]), Assoc.get_cons, if_pos rfl]
        rfl
      rw [hget] at ha
      exact h.1.codec.exposes ha
    · have hne : k ≠ f.name := fun he => hnames.1 (he ▸ hk)
      rw [hms k (List.mem_cons_of_mem _ hk), members]
      split_ifs
      · rfl
      · rw [Assoc.get_cons, if_neg hne]

end Fields

namespace Codec

variable {β σ : Type} {R : Rewriting} {fs : Fields β} {split : σ → β} {join : β → σ}

/-- A written struct is settled when its members are. -/
theorem record_settled_iff (hnames : fs.names.Nodup) (htop : ∀ b, R.settled (Assoc.ofList (fs.members b))) {s : σ} :
    R.Settled ((record fs split join).encode s) ↔ ∀ e ∈ fs.members (split s), R.Settled e.2 := by
  have hkeys : (Assoc.keys (fs.members (split s))).Nodup := (fs.keys_members _).nodup hnames
  change R.Settled (.object (Assoc.ofList (fs.members (split s)))) ↔ _
  rw [Rewriting.settled_object, and_iff_right (htop _)]
  constructor
  · intro h e he
    have hget : Assoc.get e.1 (Assoc.ofList (fs.members (split s))) = some e.2 := by
      rw [Assoc.get_ofList hkeys, Assoc.get_of_mem hkeys he]
    exact h _ (Assoc.mem_of_get hget)
  · exact fun h e he => h e (Assoc.mem_of_mem_ofList he)

/-- A struct is closed when its fields' types are and its own keys are settled. -/
theorem record_closed (htop : ∀ b, R.settled (Assoc.ofList (fs.members b))) (h : fs.Closed R) :
    (record fs split join).Closed R := fun _ =>
  Rewriting.settled_object.mpr ⟨htop _, fun _ he => Fields.settled_of_closed h _ _ (Assoc.mem_of_mem_ofList he)⟩

/-- **A struct tracks** when its fields do and its own keys are settled. -/
theorem record_tracks (hnames : fs.names.Nodup) (htop : ∀ b, R.settled (Assoc.ofList (fs.members b))) (h : fs.Tracks R)
    (hsplit : ∀ b, split (join b) = b) : (record fs split join).Tracks R where
  keeps {j s} hs hj hset := by
    have hof : ∀ b, (∀ e ∈ fs.members b, R.Settled e.2) → R.Settled ((record fs split join).encode (join b)) := by
      intro b hb
      change R.Settled (.object (Assoc.ofList (fs.members (split (join b)))))
      rw [hsplit]
      exact Rewriting.settled_object.mpr ⟨htop b, fun e he => hb e (Assoc.mem_of_mem_ofList he)⟩
    cases j with
    | object ms =>
      obtain ⟨b, hb, rfl⟩ := Option.map_eq_some_iff.mp hs
      exact hof b (Fields.settled_of_ofObject h hb fun e he =>
        ⟨(Json.wf_object.mp hj).2 e he, (Rewriting.settled_object.mp hset).2 e he⟩)
    | array js =>
      obtain ⟨b, hb, rfl⟩ := Option.map_eq_some_iff.mp hs
      exact hof b (Fields.settled_of_ofArray h hb fun j hjm =>
        ⟨Json.wf_array.mp hj j hjm, Rewriting.settled_array.mp hset j hjm⟩)
    | _ => cases hs
  exposes {s} hs := by
    have hkeys : (Assoc.keys (fs.members (split s))).Nodup := (fs.keys_members _).nodup hnames
    change (record fs split join).decode (R.rewrite (.object (Assoc.ofList (fs.members (split s))))) = some s at hs
    rw [R.rewrite_settled (htop _)] at hs
    obtain ⟨b, hb, hbs⟩ := Option.map_eq_some_iff.mp hs
    obtain rfl : b = split s := by rw [← hbs, hsplit]
    refine Rewriting.settled_object.mpr ⟨htop _, fun e he => ?_⟩
    refine Fields.settled_of_reread h hnames (fun k _ => ?_) hb e (Assoc.mem_of_mem_ofList he)
    rw [Assoc.get_mapVals, Assoc.get_ofList hkeys]

/-- A tagged union is closed when the fields of its cases are and their keys with the tag are settled. -/
theorem tagged_closed {key : String} {numbered : Bool} {write : σ → Tagged} {cases : List (String × TaggedCase σ)}
    (hfit : CasesFit key write cases)
    (htop : ∀ e ∈ cases, ∀ b, R.settled (Assoc.ofList ((key, .string e.1) :: e.2.fields.members b)))
    (h : ∀ e ∈ cases, e.2.fields.Closed R) : (tagged key numbered write cases).Closed R := by
  intro s
  obtain ⟨make, hcase⟩ := hfit.mem s
  refine Rewriting.settled_object.mpr ⟨htop _ hcase _, fun e he => ?_⟩
  rcases List.mem_cons.mp (Assoc.mem_of_mem_ofList he) with rfl | he
  · exact Rewriting.settled_atom rfl rfl
  · exact Fields.settled_of_closed (h _ hcase) _ _ he

end Codec

end Forge
