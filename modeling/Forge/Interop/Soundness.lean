import Forge.Geometry.Bake
import Forge.Interop.Import

/-!
# What an imported contract guarantees

The nodes that `validate_imported_nodes` accepts are exactly those that make a tree
(`validateImportedNodes_eq_ok`): its walk from a node to its ancestors, which stops at names
that an earlier walk has been at, comes to an end exactly on the paths of a forest. The parts of
a contract take their nodes from the shapes that were found, which is another piece of state.

The **key result** `importContract_sound_iff` says for which texts the two fit together: always
for URDF, and for MJCF where no shape stands outside of every body.
-/

namespace Forge.Interop

open Contract Forge.Geometry Text

/-! ### Valid nodes -/

/-- The node lists that make a tree. -/
structure WellFormed (nodes : List ImportedNode) : Prop where
  nonempty : nodes ≠ []
  distinct : (nodes.map ImportedNode.name).Nodup
  named : ∀ n ∈ nodes, isBlank n.name = false
  listed : ∀ n ∈ nodes, ∀ p, n.parent = some p → ∃ m ∈ nodes, m.name = p
  rooted : ∀ n ∈ nodes, Forest.Rooted ImportedNode.name ImportedNode.parent nodes n

section

variable {nodes : List ImportedNode} {format : String}

theorem parentOf_name (hd : (nodes.map ImportedNode.name).Nodup) {n : ImportedNode} (hn : n ∈ nodes) :
    parentOf nodes n.name = n.parent := by
  unfold parentOf
  cases hf : nodes.find? fun m => m.name = n.name with
  | none => exact absurd (List.find?_eq_none.mp hf n hn) (by simp)
  | some m =>
    have hm := List.mem_of_find?_eq_some hf
    have hname : m.name = n.name := by simpa using List.find?_some hf
    rw [List.inj_on_of_nodup_map hd hm hn hname]
    rfl

/-- The names of rooted nodes. -/
def RootedNames (nodes : List ImportedNode) (names : List String) : Prop :=
  ∀ n ∈ nodes, n.name ∈ names → Forest.Rooted ImportedNode.name ImportedNode.parent nodes n

/-- **A walk that ends has only been at rooted nodes**, besides those it started from. -/
theorem rooted_of_climb (hd : (nodes.map ImportedNode.name).Nodup)
    (hlisted : ∀ n ∈ nodes, ∀ p, n.parent = some p → ∃ m ∈ nodes, m.name = p) {resolved : List String}
    (hr : RootedNames nodes resolved) {fuel : ℕ} {n : ImportedNode} (hn : n ∈ nodes) {ancestors out : List String}
    (h : climb nodes resolved fuel (some n.name) ancestors = some out) :
    Forest.Rooted ImportedNode.name ImportedNode.parent nodes n ∧
      ∀ m ∈ nodes, m.name ∈ out → m.name ∈ ancestors ∨ Forest.Rooted ImportedNode.name ImportedNode.parent nodes m := by
  induction fuel generalizing n ancestors with
  | zero => cases h
  | succ fuel ih =>
    rw [climb] at h
    split at h
    · next hres =>
      obtain rfl := Option.some.inj h
      exact ⟨hr n hn hres, fun m _ hm => .inl hm⟩
    · split at h
      · cases h
      · rw [parentOf_name hd hn] at h
        cases hp : n.parent with
        | none =>
          rw [hp, climb] at h
          obtain rfl := Option.some.inj h
          refine ⟨.root hp, fun m hm hout => ?_⟩
          rcases List.mem_cons.mp hout with hname | hin
          · rw [List.inj_on_of_nodup_map hd hm hn hname]
            exact .inr (.root hp)
          · exact .inl hin
        | some p =>
          rw [hp] at h
          obtain ⟨q, hq, rfl⟩ := hlisted n hn p hp
          obtain ⟨hroot, hout⟩ := ih hq h
          have hself : Forest.Rooted ImportedNode.name ImportedNode.parent nodes n := .child hp hq rfl hroot
          refine ⟨hself, fun m hm hmo => ?_⟩
          rcases hout m hm hmo with hin | hm'
          · rcases List.mem_cons.mp hin with hname | hin
            · rw [List.inj_on_of_nodup_map hd hm hn hname]
              exact .inr hself
            · exact .inl hin
          · exact .inr hm'

/-- What the last loop accepts is rooted. -/
theorem rooted_of_climbAll (hd : (nodes.map ImportedNode.name).Nodup)
    (hlisted : ∀ n ∈ nodes, ∀ p, n.parent = some p → ∃ m ∈ nodes, m.name = p) {todo : List ImportedNode}
    (htodo : ∀ n ∈ todo, n ∈ nodes) {resolved : List String} (hr : RootedNames nodes resolved)
    (h : climbAll format nodes todo resolved = .ok ()) :
    ∀ n ∈ todo, Forest.Rooted ImportedNode.name ImportedNode.parent nodes n := by
  induction todo generalizing resolved with
  | nil => exact fun _ hn => absurd hn List.not_mem_nil
  | cons n todo ih =>
    have hn := htodo n List.mem_cons_self
    rw [climbAll] at h
    split at h
    · next hres =>
      exact List.forall_mem_cons.mpr ⟨hr n hn hres, ih (fun m hm => htodo m (List.mem_cons_of_mem _ hm)) hr h⟩
    · cases hc : climb nodes resolved (nodes.length + 1) (some n.name) [] with
      | none =>
        rw [hc] at h
        cases h
      | some out =>
        rw [hc] at h
        obtain ⟨hroot, hout⟩ := rooted_of_climb hd hlisted hr hn hc
        refine List.forall_mem_cons.mpr ⟨hroot, ih (fun m hm => htodo m (List.mem_cons_of_mem _ hm)) ?_ h⟩
        intro m hm hname
        rcases List.mem_append.mp hname with hnew | hold
        · exact (hout m hm hnew).resolve_left List.not_mem_nil
        · exact hr m hm hold

/-- **A walk along the path of a node comes to its end**, with fuel for every name on it. -/
theorem climb_of_path (hd : (nodes.map ImportedNode.name).Nodup) {resolved : List String} {fuel : ℕ} {n : ImportedNode}
    (hn : n ∈ nodes) {names : List String} (hpath : Forest.Path ImportedNode.name ImportedNode.parent nodes n names)
    {ancestors : List String} (hnew : ∀ a ∈ names, a ∉ ancestors) (hfuel : names.length ≤ fuel) :
    ∃ out, climb nodes resolved fuel (some n.name) ancestors = some out := by
  induction fuel generalizing n names ancestors with
  | zero =>
    rcases hpath.cases with ⟨-, rfl⟩ | ⟨m, above, -, -, -, rfl⟩
    · exact absurd hfuel (by simp)
    · exact absurd hfuel (by simp)
  | succ fuel ih =>
    rw [climb]
    split
    · exact ⟨_, rfl⟩
    · rcases hpath.cases with ⟨hp, rfl⟩ | ⟨m, above, hp, hm, habove, rfl⟩
      · rw [if_neg (hnew _ (List.mem_singleton_self _)), parentOf_name hd hn, hp, climb]
        exact ⟨_, rfl⟩
      · have hnodup := hpath.nodup hd hn
        rw [if_neg (hnew _ (by simp)), parentOf_name hd hn, hp]
        refine ih hm habove ?_ (by simpa using hfuel)
        intro a ha hin
        rcases List.mem_cons.mp hin with rfl | hold
        · exact (List.nodup_append'.mp hnodup).2.2 ha (List.mem_singleton_self _)
        · exact hnew a (List.mem_append_left _ ha) hold

theorem climbAll_of_rooted (hd : (nodes.map ImportedNode.name).Nodup)
    (hr : ∀ n ∈ nodes, Forest.Rooted ImportedNode.name ImportedNode.parent nodes n) {todo : List ImportedNode}
    (htodo : ∀ n ∈ todo, n ∈ nodes) (resolved : List String) : climbAll format nodes todo resolved = .ok () := by
  induction todo generalizing resolved with
  | nil => rfl
  | cons n todo ih =>
    have hn := htodo n List.mem_cons_self
    have hrest := ih fun m hm => htodo m (List.mem_cons_of_mem _ hm)
    rw [climbAll]
    split
    · exact hrest resolved
    · obtain ⟨names, hpath⟩ := (hr n hn).path
      obtain ⟨out, hout⟩ : ∃ out, climb nodes resolved (nodes.length + 1) (some n.name) [] = some out :=
        climb_of_path hd hn hpath (fun _ _ => List.not_mem_nil) ((hpath.length_le hd hn).trans (Nat.le_succ _))
      rw [hout]
      exact hrest _

theorem checkNode_eq_ok {n : ImportedNode} : checkNode format nodes n = .ok () ↔
    isBlank n.name = false ∧ ∀ p, n.parent = some p → p ≠ n.name ∧ ∃ m ∈ nodes, m.name = p := by
  unfold checkNode
  cases n.parent with
  | none => cases isBlank n.name <;> simp
  | some p =>
    cases isBlank n.name <;> simp

/-- Distinct names are as many as the nodes. -/
theorem dedup_length_eq_iff {l : List String} : l.dedup.length = l.length ↔ l.Nodup := by
  rw [← List.dedup_eq_self]
  exact ⟨fun h => (List.dedup_sublist l).eq_of_length h, congrArg List.length⟩

/-- No node is its own parent where every node is rooted. -/
theorem parent_ne_name (hd : (nodes.map ImportedNode.name).Nodup) {n : ImportedNode} (hn : n ∈ nodes)
    (hr : Forest.Rooted ImportedNode.name ImportedNode.parent nodes n) {p : String} (hp : n.parent = some p) :
    p ≠ n.name := by
  rintro rfl
  obtain ⟨names, hpath⟩ := hr.path
  rcases hpath.cases with ⟨hnone, -⟩ | ⟨m, above, hsome, hm, habove, rfl⟩
  · rw [hnone] at hp
    cases hp
  · have hname : m.name = n.name := Option.some.inj (hsome.symm.trans hp)
    rw [List.inj_on_of_nodup_map hd hm hn hname] at habove
    have heq : above = above ++ [n.name] := habove.unique hd hpath
    simpa using congrArg List.length heq

/-- **`validate_imported_nodes` accepts exactly the lists that make a tree.** -/
theorem validateImportedNodes_eq_ok : validateImportedNodes nodes format = .ok () ↔ WellFormed nodes := by
  unfold validateImportedNodes
  by_cases hne : nodes = []
  · subst hne
    exact ⟨nofun, fun h => absurd rfl h.nonempty⟩
  by_cases hd : (nodes.map ImportedNode.name).Nodup
  · have hlength : (nodes.map ImportedNode.name).dedup.length = nodes.length := by
      rw [dedup_length_eq_iff.mpr hd, List.length_map]
    rw [if_neg (by simpa using hne), if_neg (not_not.mpr hlength), check_eq_ok, forM_eq_ok]
    constructor
    · rintro ⟨hcheck, hclimb⟩
      have hchecked (n : ImportedNode) (hn : n ∈ nodes) := checkNode_eq_ok.mp (hcheck n hn)
      have hlisted : ∀ n ∈ nodes, ∀ p, n.parent = some p → ∃ m ∈ nodes, m.name = p :=
        fun n hn p hp => ((hchecked n hn).2 p hp).2
      exact ⟨hne, hd, fun n hn => (hchecked n hn).1, hlisted,
        rooted_of_climbAll hd hlisted (fun _ h => h) (fun _ _ h => absurd h List.not_mem_nil) hclimb⟩
    · intro h
      refine ⟨fun n hn => checkNode_eq_ok.mpr ⟨h.named n hn, fun p hp => ⟨?_, h.listed n hn p hp⟩⟩, ?_⟩
      · exact parent_ne_name hd hn (h.rooted n hn) hp
      · exact climbAll_of_rooted hd h.rooted (fun _ h => h) []
  · have hlength : (nodes.map ImportedNode.name).dedup.length ≠ nodes.length := by
      rw [← List.length_map (f := ImportedNode.name)]
      exact fun h => hd (dedup_length_eq_iff.mp h)
    rw [if_neg (by simpa using hne), if_pos hlength]
    exact ⟨nofun, fun h => absurd h.distinct hd⟩

end

/-! ### Sound contracts -/

/-- What a contract that was imported should be: a tree of nodes to which all parts belong, so that
baking it can only fail over a part's own geometry. -/
structure Sound (spec : ModelSpec) : Prop where
  nonempty : spec.skeleton ≠ []
  distinct : (spec.skeleton.map Node.name).Nodup
  named : ∀ n ∈ spec.skeleton, isBlank n.name = false
  listed : ∀ n ∈ spec.skeleton, ∀ p, n.parent = some p → ∃ m ∈ spec.skeleton, m.name = p
  rooted : ∀ n ∈ spec.skeleton, Forest.Rooted Node.name Node.parent spec.skeleton n
  parts : ∀ part ∈ spec.parts, ∃ n ∈ spec.skeleton, n.name = part.node
  transforms : ∀ (K : Type) [DivisionRing K] (E : Exact K), ∃ w, nodeWorldTransforms E spec = .ok w
  bakes : ∀ (K : Type) [DivisionRing K] (E : Exact K) (build : Builder) (e : BakeError), bake E build spec = .error e →
    (∃ i assetRef, e = .meshRefUnsupported i assetRef) ∨ ∃ i message, e = .badGeom i message

/-- What a part fails with, where its node has a transform. -/
theorem error_of_bakePart {K : Type} {build : Builder} {w : BTreeMap String (Mat4 K)} {i : ℕ} {path : String} {part : Part}
    {e : BakeError} (hw : (w.get part.node).isSome) (h : bakePart build w i path part = .error e) :
    (∃ i assetRef, e = .meshRefUnsupported i assetRef) ∨ ∃ i message, e = .badGeom i message := by
  unfold bakePart at h
  rw [if_neg (Option.isSome_iff_ne_none.mp hw)] at h
  cases hb : build part.geom part.pose with
  | ok _ =>
    rw [hb] at h
    cases h
  | error failure =>
    rw [hb] at h
    cases failure with
    | meshRef assetRef => exact .inl ⟨i, assetRef, (Except.error.inj h).symm⟩
    | degenerate message => exact .inr ⟨i, message, (Except.error.inj h).symm⟩


/-- A bake of nodes that have transforms, to which all parts belong. -/
theorem error_of_bake {K : Type} [DivisionRing K] {E : Exact K} {build : Builder} {spec : ModelSpec}
    {w : BTreeMap String (Mat4 K)} (hw : nodeWorldTransforms E spec = .ok w)
    (hparts : ∀ e ∈ spec.physicalPartsWithPaths, (w.get e.2.node).isSome) {e : BakeError}
    (h : bake E build spec = .error e) :
    (∃ i assetRef, e = .meshRefUnsupported i assetRef) ∨ ∃ i message, e = .badGeom i message := by
  rcases bind_eq_error.mp h with hfail | ⟨w', hw', hrest⟩
  · rw [hw] at hfail
    cases hfail
  · obtain rfl := Except.ok.inj (hw.symm.trans hw')
    rcases bind_eq_error.mp hrest with hfail | ⟨parts, -, hpure⟩
    · obtain ⟨a, ha, hfail⟩ := exists_of_mapM_eq_error hfail
      exact error_of_bakePart (hparts a.1 (List.fst_mem_of_mem_zipIdx ha)) hfail
    · cases hpure

theorem Rooted.map_import {nodes : List ImportedNode} {n : ImportedNode}
    (h : Forest.Rooted ImportedNode.name ImportedNode.parent nodes n) :
    Forest.Rooted Node.name Node.parent (nodes.map importNode) (importNode n) := by
  induction h with
  | root hp => exact .root hp
  | child hp hm hname _ ih => exact .child hp (List.mem_map_of_mem hm) hname ih

theorem summaryToContract_eq_ok {summary : ImportedSummary} {spec : ModelSpec} (h : summaryToContract summary = .ok spec) :
    spec.skeleton = summary.nodes.map importNode ∧ spec.slots = [] ∧
      ((∀ part ∈ spec.parts, ∃ n ∈ summary.nodes, n.name = part.node) ↔
        ∀ g ∈ summary.geoms, ∃ n ∈ summary.nodes, n.name = g.node) := by
  unfold summaryToContract at h
  cases hnodes : summary.nodes with
  | nil =>
    rw [hnodes] at h
    cases h
  | cons first rest =>
    rw [hnodes] at h
    cases h
    refine ⟨rfl, rfl, ?_⟩
    cases hgeoms : summary.geoms with
    | nil => simp [placeholder]
    | cons g gs =>
      have hpos : ((g :: gs).zipIdx.map fun e => importPart summary e.1 e.2).isEmpty = false := rfl
      dsimp only
      rw [if_neg (by rw [hpos]; exact Bool.false_ne_true)]
      constructor
      · intro hall g' hg'
        obtain ⟨i, hi, hget⟩ := List.getElem_of_mem hg'
        have hat : (g', i) ∈ (g :: gs).zipIdx :=
          List.mk_mem_zipIdx_iff_getElem?.mpr (by rw [List.getElem?_eq_getElem hi, hget])
        exact hall _ (List.mem_map_of_mem hat)
      · intro hall part hpart
        obtain ⟨e, he, rfl⟩ := List.mem_map.mp hpart
        exact hall e.1 (List.fst_mem_of_mem_zipIdx he)

/-- The nodes of a contract without slots to which parts belong. -/
theorem mem_parts {spec : ModelSpec} (hslots : spec.slots = []) {e : String × Part} (he : e ∈ spec.physicalPartsWithPaths) :
    e.2 ∈ spec.parts := by
  unfold ModelSpec.physicalPartsWithPaths at he
  rw [hslots] at he
  simp only [List.zipIdx_nil, List.flatMap_nil, List.append_nil] at he
  obtain ⟨a, ha, rfl⟩ := List.mem_map.mp he
  exact List.fst_mem_of_mem_zipIdx ha

/-- **A contract made of valid nodes is sound** exactly when every shape is on one of them. -/
theorem sound_iff {summary : ImportedSummary} {spec : ModelSpec} (hwf : WellFormed summary.nodes)
    (h : summaryToContract summary = .ok spec) :
    Sound spec ↔ ∀ g ∈ summary.geoms, ∃ n ∈ summary.nodes, n.name = g.node := by
  obtain ⟨hskeleton, hslots, hparts⟩ := summaryToContract_eq_ok h
  rw [← hparts]
  have hfind {name : String} : (∃ n ∈ spec.skeleton, n.name = name) ↔ ∃ n ∈ summary.nodes, n.name = name := by
    rw [hskeleton]
    simp [importNode]
  constructor
  · exact fun hs part hpart => hfind.mp (hs.parts part hpart)
  · intro hall
    have hdistinct : (spec.skeleton.map Node.name).Nodup := by
      rw [hskeleton, List.map_map]
      exact hwf.distinct
    have hrooted : ∀ n ∈ spec.skeleton, Forest.Rooted Node.name Node.parent spec.skeleton n := by
      rw [hskeleton]
      exact List.forall_mem_map.mpr fun n hn => Rooted.map_import (hwf.rooted n hn)
    have hworld (K : Type) [DivisionRing K] (E : Exact K) : ∃ w, nodeWorldTransforms E spec = .ok w := by
      have hok : ∃ w, Forest.resolve Node.name Node.parent (place E) spec.skeleton.length spec.skeleton .empty = .ok w :=
        (Forest.resolve_isOk_iff hdistinct).mpr hrooted
      obtain ⟨w, hw⟩ := hok
      exact ⟨w, nodeWorldTransforms_eq_ok.mpr hw⟩
    refine ⟨?_, hdistinct, ?_, ?_, hrooted, fun part hpart => hfind.mpr (hall part hpart), hworld, ?_⟩
    · rw [hskeleton]
      exact fun hnil => hwf.nonempty (List.map_eq_nil_iff.mp hnil)
    · rw [hskeleton]
      exact List.forall_mem_map.mpr hwf.named
    · intro n hn p hp
      rw [hskeleton] at hn
      obtain ⟨m, hm, rfl⟩ := List.mem_map.mp hn
      exact hfind.mpr (hwf.listed m hm p hp)
    · intro K _ E build e hbake
      obtain ⟨w, hw⟩ := hworld K E
      refine error_of_bake hw (fun e he => ?_) hbake
      obtain ⟨n, hn, hname⟩ := hfind.mpr (hall e.2 (mem_parts hslots he))
      obtain ⟨v, hv, -⟩ := Forest.placed_of_resolve hdistinct (nodeWorldTransforms_eq_ok.mp hw) hn
      rw [← hname, hv]
      rfl

/-! ### The importers -/

section

variable {xml : List Char} {summary : ImportedSummary}

theorem name_updateNode {name : String} {f : ImportedNode → ImportedNode} (hf : ∀ n, (f n).name = n.name)
    (nodes : List ImportedNode) : (updateNode name f nodes).map ImportedNode.name = nodes.map ImportedNode.name := by
  induction nodes with
  | nil => rfl
  | cons n ns ih =>
    rw [updateNode]
    split
    · rw [List.map_cons, List.map_cons, hf]
    · rw [List.map_cons, List.map_cons, ih]

theorem name_urdfJoint {nodes nodes' : List ImportedNode} {joint : Element} (h : urdfJoint nodes joint = .ok nodes') :
    nodes'.map ImportedNode.name = nodes.map ImportedNode.name := by
  unfold urdfJoint at h
  split at h
  · cases h
  · cases h
  · split at h
    · cases h
    · split at h
      · cases h
      · rw [← Except.ok.inj h, name_updateNode]
        exact fun _ => rfl

theorem node_urdfGeom {body : List Char} {node : String} {collision : Bool} {g : ImportedGeom}
    (h : urdfGeom body node collision = some g) : g.node = node := by
  unfold urdfGeom at h
  dsimp only at h
  split at h
  · rw [← Option.some.inj h]
  · split at h
    · rw [← Option.some.inj h]
    · obtain ⟨_, -, rfl⟩ := Option.map_eq_some_iff.mp h
      rfl

/-- The shapes of a link are on its node. -/
theorem node_urdfLink {link : Element} {found : ImportedNode × List ImportedGeom} (h : urdfLink link = .ok found) :
    ∀ g ∈ found.2, g.node = found.1.name := by
  unfold urdfLink at h
  split at h
  · cases h
  · rw [← Except.ok.inj h]
    intro g hg
    rcases List.mem_append.mp hg with hv | hc
    · obtain ⟨_, -, hgeom⟩ := List.mem_filterMap.mp hv
      exact node_urdfGeom hgeom
    · obtain ⟨_, -, hgeom⟩ := List.mem_filterMap.mp hc
      exact node_urdfGeom hgeom

/-- What the URDF importer accepts is valid, and every shape is on a node. -/
theorem importUrdfSummary_spec (h : importUrdfSummary xml = .ok summary) :
    WellFormed summary.nodes ∧ ∀ g ∈ summary.geoms, ∃ n ∈ summary.nodes, n.name = g.node := by
  obtain ⟨-, h⟩ := check_eq_ok.mp h
  obtain ⟨links, hlinks, h⟩ := bind_eq_ok.mp h
  obtain ⟨nodes, hnodes, h⟩ := bind_eq_ok.mp h
  obtain ⟨hvalid, h⟩ := check_eq_ok.mp h
  rw [← pure_eq_ok.mp h]
  refine ⟨validateImportedNodes_eq_ok.mp hvalid, fun g hg => ?_⟩
  have hnames : nodes.map ImportedNode.name = (links.map Prod.fst).map ImportedNode.name :=
    invariant_of_foldlM_eq_ok (P := fun ns => ns.map ImportedNode.name = (links.map Prod.fst).map ImportedNode.name)
      (fun hj hp => (name_urdfJoint hj).trans hp) hnodes rfl
  obtain ⟨link, hlink, hg⟩ := List.mem_flatMap.mp hg
  have hnode : g.node = link.1.name :=
    forall_mem_of_mapM_eq_ok (P := fun found => ∀ g ∈ found.2, g.node = found.1.name) node_urdfLink hlinks link hlink g hg
  have hmem : g.node ∈ nodes.map ImportedNode.name := by
    rw [hnames, hnode]
    exact List.mem_map_of_mem (List.mem_map_of_mem hlink)
  obtain ⟨n, hn, hname⟩ := List.mem_map.mp hmem
  exact ⟨n, hn, hname⟩

/-- The names of the bodies of an MJCF text. -/
def bodyNames (ts : List Token) : List String :=
  ts.filterMap fun t => match t with
    | .body tag => (attr tag "<body" "name").map String.ofList
    | _ => none

/-- How many bodies are open after a token. -/
def depthAfter (depth : ℕ) : Token → ℕ
  | .close => depth - 1
  | .body _ => depth + 1
  | _ => depth

/-- Whether a token is a shape outside of every body. -/
def isStray (depth : ℕ) : Token → Bool
  | .geom _ => depth = 0
  | _ => false

/-- Whether a text has a shape outside of every body, where this many are open at first. -/
def strayGeom : ℕ → List Token → Bool
  | _, [] => false
  | depth, t :: ts => isStray depth t || strayGeom (depthAfter depth t) ts

/-- Open bodies are nodes. -/
def MjcfState.Open (s : MjcfState) : Prop := ∀ name ∈ s.stack, name ∈ s.nodes.map ImportedNode.name

/-- The node that the shape of a token is on. -/
def geomNodes (stack : List String) : Token → List String
  | .geom _ => [stack.headD "world"]
  | _ => []

theorem mem_geomNodes {stack : List String} {t : Token} {name : String} (h : name ∈ geomNodes stack t) :
    name ∈ stack ∨ isStray stack.length t = true ∧ name = "world" := by
  cases t with
  | geom tag =>
    cases stack with
    | nil => exact .inr ⟨rfl, List.mem_singleton.mp h⟩
    | cons current rest => exact .inl (List.mem_singleton.mp h ▸ List.mem_cons_self)
  | _ => cases h

theorem world_mem_geomNodes {stack : List String} {t : Token} (h : isStray stack.length t = true) :
    "world" ∈ geomNodes stack t := by
  cases t with
  | geom tag =>
    cases stack with
    | nil => exact List.mem_singleton_self _
    | cons current rest => cases h
  | _ => cases h

/-- **One token**: a body adds its name and is open, and a shape is on the innermost open body. -/
theorem mjcfStep_spec {s s' : MjcfState} {t : Token} (h : mjcfStep s t = .ok s') (ho : s.Open) :
    s'.Open ∧ s'.stack.length = depthAfter s.stack.length t ∧
      s'.nodes.map ImportedNode.name = s.nodes.map ImportedNode.name ++ bodyNames [t] ∧
      s'.geoms.map ImportedGeom.node = s.geoms.map ImportedGeom.node ++ geomNodes s.stack t := by
  unfold mjcfStep at h
  cases t with
  | close =>
    rw [← Except.ok.inj h]
    refine ⟨fun name hn => ho name (List.mem_of_mem_tail hn), List.length_tail, ?_, ?_⟩
    · exact (List.append_nil _).symm
    · exact (List.append_nil _).symm
  | body tag =>
    cases hname : attr tag "<body" "name" with
    | none =>
      simp only [hname] at h
      cases h
    | some text =>
      simp only [hname] at h
      rw [← Except.ok.inj h]
      have hnames : bodyNames [Token.body tag] = [String.ofList text] := by simp [bodyNames, hname]
      refine ⟨?_, rfl, ?_, (List.append_nil _).symm⟩
      · intro name hn
        rw [List.map_append, List.mem_append]
        rcases List.mem_cons.mp hn with rfl | hold
        · exact .inr (List.mem_singleton_self _)
        · exact .inl (ho name hold)
      · rw [List.map_append, hnames]
        rfl
  | joint tag =>
    cases hstack : s.stack with
    | nil =>
      simp only [hstack] at h
      rw [← Except.ok.inj h, hstack]
      exact ⟨ho, rfl, (List.append_nil _).symm, (List.append_nil _).symm⟩
    | cons current rest =>
      simp only [hstack] at h
      rw [← Except.ok.inj h]
      refine ⟨?_, rfl, ?_, (List.append_nil _).symm⟩
      · intro name hn
        rw [name_updateNode]
        · exact ho name (hstack ▸ hn)
        · exact fun _ => rfl
      · rw [name_updateNode]
        · exact (List.append_nil _).symm
        · exact fun _ => rfl
  | geom tag =>
    rw [← Except.ok.inj h]
    refine ⟨ho, rfl, (List.append_nil _).symm, ?_⟩
    rw [List.map_append]
    rfl
  | other =>
    rw [← Except.ok.inj h]
    exact ⟨ho, rfl, (List.append_nil _).symm, (List.append_nil _).symm⟩

/-- **A whole text**: the nodes are its bodies, and a shape that is on no node is a stray one. -/
theorem mjcf_run {ts : List Token} {s s' : MjcfState} (h : ts.foldlM mjcfStep s = .ok s') (ho : s.Open) :
    s'.nodes.map ImportedNode.name = s.nodes.map ImportedNode.name ++ bodyNames ts ∧
      (∀ name ∈ s'.geoms.map ImportedGeom.node, name ∈ s.geoms.map ImportedGeom.node ∨
        name ∈ s'.nodes.map ImportedNode.name ∨ strayGeom s.stack.length ts = true ∧ name = "world") ∧
      (strayGeom s.stack.length ts = true ∨ "world" ∈ s.geoms.map ImportedGeom.node →
        "world" ∈ s'.geoms.map ImportedGeom.node) := by
  induction ts generalizing s with
  | nil =>
    obtain rfl := Except.ok.inj h
    exact ⟨(List.append_nil _).symm, fun _ hn => .inl hn, fun hs => hs.resolve_left Bool.false_ne_true⟩
  | cons t ts ih =>
    rw [List.foldlM_cons, bind_eq_ok] at h
    obtain ⟨s₁, ht, hts⟩ := h
    obtain ⟨ho₁, hdepth, hnames, hgeoms⟩ := mjcfStep_spec ht ho
    obtain ⟨hnames', hon, hstray⟩ := ih hts ho₁
    have hcons : bodyNames (t :: ts) = bodyNames [t] ++ bodyNames ts := List.filterMap_append (l := [t])
    have hall : s'.nodes.map ImportedNode.name = s.nodes.map ImportedNode.name ++ bodyNames (t :: ts) := by
      rw [hnames', hnames, hcons, List.append_assoc]
    rw [hdepth, hgeoms] at hon hstray
    have hcases : strayGeom s.stack.length (t :: ts) = true ↔
        isStray s.stack.length t = true ∨ strayGeom (depthAfter s.stack.length t) ts = true := Bool.or_eq_true_iff
    refine ⟨hall, fun name hname => ?_, fun hs => hstray ?_⟩
    · rcases hon name hname with hold | hnode | ⟨hs, hworld⟩
      · rcases List.mem_append.mp hold with hold | hnew
        · exact .inl hold
        · rcases mem_geomNodes hnew with hopen | ⟨hs, hworld⟩
          · refine .inr (.inl ?_)
            rw [hall]
            exact List.mem_append_left _ (ho name hopen)
          · exact .inr (.inr ⟨hcases.mpr (.inl hs), hworld⟩)
      · exact .inr (.inl hnode)
      · exact .inr (.inr ⟨hcases.mpr (.inr hs), hworld⟩)
    · rcases hs with hs | hold
      · rcases hcases.mp hs with hs | hs
        · exact .inr (List.mem_append_right _ (world_mem_geomNodes hs))
        · exact .inl hs
      · exact .inr (List.mem_append_left _ hold)

/-- What the MJCF importer accepts is valid; every shape is on a node unless there is a stray one and no
body is called `world`. -/
theorem importMjcfSummary_spec (h : importMjcfSummary xml = .ok summary) : WellFormed summary.nodes ∧
    ((∀ g ∈ summary.geoms, ∃ n ∈ summary.nodes, n.name = g.node) ↔
      strayGeom 0 (tokens xml) = false ∨ "world" ∈ bodyNames (tokens xml)) := by
  obtain ⟨-, h⟩ := check_eq_ok.mp h
  obtain ⟨s, hs, h⟩ := bind_eq_ok.mp h
  obtain ⟨hvalid, h⟩ := check_eq_ok.mp h
  rw [← pure_eq_ok.mp h]
  refine ⟨validateImportedNodes_eq_ok.mp hvalid, ?_⟩
  obtain ⟨hnames, hon, hstray⟩ := mjcf_run hs fun name hn => absurd hn List.not_mem_nil
  have hnode {name : String} : (∃ n ∈ s.nodes, n.name = name) ↔ name ∈ bodyNames (tokens xml) := by
    rw [← List.mem_map, hnames]
    rfl
  constructor
  · intro hall
    cases hb : strayGeom 0 (tokens xml) with
    | false => exact .inl rfl
    | true =>
      obtain ⟨g, hg, hworld⟩ := List.mem_map.mp (hstray (.inl hb))
      exact .inr (hnode.mp (hworld ▸ hall g hg))
  · intro hcond g hg
    rcases hon g.node (List.mem_map_of_mem hg) with hold | hin | ⟨hb, hworld⟩
    · exact absurd hold List.not_mem_nil
    · exact List.mem_map.mp hin
    · rcases hcond with hnone | hcalled
      · exact absurd (hb.symm.trans hnone) nofun
      · rw [hworld]
        exact hnode.mpr hcalled

end

/-! ### Soundness -/

/-- The two formats that can be imported. -/
inductive Format where
  | urdf | mjcf
deriving DecidableEq

/-- `import_urdf_contract` or `import_mjcf_contract` -/
def importContract : Format → String → Except String ModelSpec
  | .urdf => importUrdfContract
  | .mjcf => importMjcfContract

/-- The texts of which every shape is on a node: all of URDF, and MJCF without a shape outside of every body,
unless a body is called `world`. -/
def Attached (format : Format) (xml : String) : Prop :=
  format = .mjcf → strayGeom 0 (tokens xml.toList) = false ∨ "world" ∈ bodyNames (tokens xml.toList)

instance (format : Format) (xml : String) : Decidable (Attached format xml) :=
  inferInstanceAs (Decidable (format = .mjcf → _))

/-- **Key result**: the importers accept node lists that make a tree and no others, and the contract that
they make is sound exactly when every shape of the text is on a node. -/
theorem importContract_sound_iff (format : Format) (xml : String) (spec : ModelSpec)
    (h : importContract format xml = .ok spec) :
    (∀ nodes label, validateImportedNodes nodes label = .ok () ↔ WellFormed nodes) ∧
      (Sound spec ↔ Attached format xml) := by
  refine ⟨fun _ _ => validateImportedNodes_eq_ok, ?_⟩
  cases format with
  | urdf =>
    obtain ⟨summary, hsummary, hspec⟩ := bind_eq_ok.mp h
    obtain ⟨hwf, hall⟩ := importUrdfSummary_spec hsummary
    rw [sound_iff hwf hspec]
    exact ⟨fun _ hf => absurd hf (by decide), fun _ => hall⟩
  | mjcf =>
    obtain ⟨summary, hsummary, hspec⟩ := bind_eq_ok.mp h
    obtain ⟨hwf, hiff⟩ := importMjcfSummary_spec hsummary
    rw [sound_iff hwf hspec, hiff]
    exact ⟨fun hc _ => hc, fun hc => hc rfl⟩

/-! ### A floor -/

/-- A model with a floor outside of its only body, as MJCF models have it. -/
def floorText : String :=
  "<mujoco model=\"floor\"><worldbody><geom type=\"plane\"/><body name=\"base\"></body></worldbody></mujoco>"

/-- A text whose bodies make a tree is imported. -/
theorem import_of_nodes {xml : String}
    (hvalid : validateImportXml xml.toList "MJCF" ["pos", "axis", "range", "size"] = .ok ())
    (hrun : ((tokens xml.toList).foldlM mjcfStep ⟨[], [], []⟩ >>= fun s => validateImportedNodes s.nodes "MJCF") = .ok ()) :
    ∃ spec, importContract .mjcf xml = .ok spec := by
  obtain ⟨s, hs, hnodes⟩ := bind_eq_ok.mp hrun
  have hwf := validateImportedNodes_eq_ok.mp hnodes
  have hsummary : ∃ summary, importMjcfSummary xml.toList = .ok summary ∧ summary.nodes = s.nodes :=
    ⟨_, check_eq_ok.mpr ⟨hvalid, bind_eq_ok.mpr ⟨s, hs, check_eq_ok.mpr ⟨hnodes, rfl⟩⟩⟩, rfl⟩
  obtain ⟨summary, hsummary, hsame⟩ := hsummary
  cases hn : summary.nodes with
  | nil => exact absurd (hsame.symm.trans hn) hwf.nonempty
  | cons first rest => exact ⟨_, bind_eq_ok.mpr ⟨summary, hsummary, by unfold summaryToContract; rw [hn]⟩⟩

theorem import_floorText : ∃ spec, importContract .mjcf floorText = .ok spec := by
  apply import_of_nodes <;> rw [Text.toList_eq_asciiChars] <;> decide +kernel

/-- **The floor is a part of a node that does not exist.** -/
theorem floorText_unsound : ∃ spec, importContract .mjcf floorText = .ok spec ∧ ¬ Sound spec := by
  obtain ⟨spec, hspec⟩ := import_floorText
  obtain ⟨summary, hsummary, hcontract⟩ := bind_eq_ok.mp hspec
  obtain ⟨hwf, hiff⟩ := importMjcfSummary_spec hsummary
  refine ⟨spec, hspec, fun hsound => ?_⟩
  have hattached : ¬ (strayGeom 0 (tokens floorText.toList) = false ∨ "world" ∈ bodyNames (tokens floorText.toList)) := by
    rw [Text.toList_eq_asciiChars]
    decide +kernel
  exact hattached (hiff.mp ((sound_iff hwf hcontract).mp hsound))

/-- A board with an arm on it that holds a tool, each with a shape of its own. -/
def armText : String :=
  "<mujoco model=\"arm\"><worldbody><body name=\"base\"><geom type=\"plane\"/><body name=\"arm\" pos=\"0 0 0.5\">" ++
  "<joint type=\"hinge\" axis=\"0 0 1\"/><geom type=\"box\" size=\"0.1 0.1 0.5\"/><body name=\"tool\">" ++
  "<geom type=\"sphere\" size=\"0.05\"/></body></body></body></worldbody></mujoco>"

theorem armText_sound : ∃ spec, importContract .mjcf armText = .ok spec ∧ Sound spec := by
  obtain ⟨spec, hspec⟩ : ∃ spec, importContract .mjcf armText = .ok spec := by
    apply import_of_nodes <;> rw [Text.toList_eq_asciiChars] <;> decide +kernel
  have hstray : strayGeom 0 (tokens armText.toList) = false := by
    rw [Text.toList_eq_asciiChars]
    decide +kernel
  exact ⟨spec, hspec, (importContract_sound_iff .mjcf armText spec hspec).2.mpr fun _ => .inl hstray⟩

end Forge.Interop
