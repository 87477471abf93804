import Forge.Data.Forest

/-!
# Walks through a forest

A walk writes something for an entry, then for its children in turn, each with all that is below it. The children of an
entry are found by its name, in the order of the entries. On a cycle of names the walk does not return; `walk` has fuel
for it.

**`exists_walkAll`** and **`perm_of_walkAll`**: when names are distinct and every chain of parents ends at a root, the
walk from all roots returns, and has come to every entry exactly once.
-/

namespace Forge.Forest

section

variable {κ β γ : Type} [DecidableEq κ] (name : β → κ) (parent : β → Option κ) (es : List β) (emit : β → List γ)

/-- The entries that name an entry as their parent. -/
def children (n : β) : List β := es.filter fun m => parent m = some (name n)

/-- The entries without a parent. -/
def roots : List β := es.filter fun n => parent n = none

/-- What is written for an entry and all that is below it. -/
def walk : ℕ → β → Option (List γ)
  | 0, _ => none
  | fuel + 1, n => ((children name parent es n).mapM (walk fuel)).map fun below => emit n ++ below.flatten

/-- What is written for all roots. -/
def walkAll (fuel : ℕ) : Option (List γ) := ((roots parent es).mapM (walk name parent es emit fuel)).map List.flatten

/-- The entries at most `depth` levels down from an entry. -/
def within : ℕ → β → List β
  | 0, _ => []
  | depth + 1, n => n :: (children name parent es n).flatMap (within depth)

end

/-! ### Returning walks -/

section

variable {κ β γ : Type} [DecidableEq κ] {name : β → κ} {parent : β → Option κ} {es : List β} {emit : β → List γ}

theorem mem_children {n m : β} : m ∈ children name parent es n ↔ m ∈ es ∧ parent m = some (name n) := by
  rw [children, List.mem_filter, decide_eq_true_eq]

omit [DecidableEq κ] in
theorem mem_roots {n : β} : n ∈ roots parent es ↔ n ∈ es ∧ parent n = none := by
  rw [roots, List.mem_filter, decide_eq_true_eq]

/-- What several walks return together. -/
theorem mapM_flatten_eq_some {f : β → Option (List γ)} {l : List β} {out : List γ} {g : β → List γ}
    (hf : ∀ n ∈ l, ∀ a, f n = some a → a = g n) (h : (l.mapM f).map List.flatten = some out) : out = l.flatMap g := by
  induction l generalizing out with
  | nil => simpa using h.symm
  | cons n l ih =>
    obtain ⟨ls, hls, rfl⟩ := Option.map_eq_some_iff.mp h
    rw [List.mapM_cons] at hls
    obtain ⟨a, ha, hrest⟩ := Option.bind_eq_some_iff.mp hls
    obtain ⟨as, has, heq⟩ := Option.bind_eq_some_iff.mp hrest
    obtain rfl := Option.some.inj heq
    have hmore := ih (fun m hm => hf m (List.mem_cons_of_mem _ hm)) (by rw [has]; rfl)
    rw [List.flatten_cons, List.flatMap_cons, hf n List.mem_cons_self a ha, hmore]

theorem exists_mapM {f : β → Option (List γ)} {l : List β} (h : ∀ n ∈ l, ∃ a, f n = some a) :
    ∃ ls, l.mapM f = some ls := by
  induction l with
  | nil => exact ⟨[], rfl⟩
  | cons n l ih =>
    obtain ⟨a, ha⟩ := h n List.mem_cons_self
    obtain ⟨as, has⟩ := ih fun m hm => h m (List.mem_cons_of_mem _ hm)
    exact ⟨a :: as, by rw [List.mapM_cons, ha, has]; rfl⟩

/-- A walk that returns has been everywhere within its fuel, and within any greater depth. -/
theorem walk_eq {fuel : ℕ} {n : β} {out : List γ} (h : walk name parent es emit fuel n = some out) {depth : ℕ}
    (hdepth : fuel ≤ depth) : out = (within name parent es depth n).flatMap emit := by
  induction fuel generalizing n out depth with
  | zero => cases h
  | succ fuel ih =>
    obtain ⟨depth, rfl⟩ : ∃ k, depth = k + 1 := ⟨depth - 1, by omega⟩
    obtain ⟨below, hbelow, rfl⟩ := Option.map_eq_some_iff.mp h
    rw [within, List.flatMap_cons, List.flatMap_assoc]
    refine congrArg _ (mapM_flatten_eq_some (fun m _ a ha => ih ha (by omega)) ?_)
    rw [hbelow]
    rfl

theorem walkAll_eq {fuel : ℕ} {out : List γ} (h : walkAll name parent es emit fuel = some out) {depth : ℕ}
    (hdepth : fuel ≤ depth) : out = ((roots parent es).flatMap (within name parent es depth)).flatMap emit := by
  rw [List.flatMap_assoc]
  exact mapM_flatten_eq_some (fun n _ a ha => walk_eq ha hdepth) h

/-- **A walk returns** when names are distinct: below an entry there is no more than the rest of the entries. -/
theorem exists_walk (hd : (es.map name).Nodup) {fuel : ℕ} {n : β} (hn : n ∈ es) {names : List κ}
    (h : Path name parent es n names) (hfuel : es.length < names.length + fuel) :
    ∃ out, walk name parent es emit fuel n = some out := by
  induction fuel generalizing n names with
  | zero =>
    have := h.length_le hd hn
    omega
  | succ fuel ih =>
    obtain ⟨below, hbelow⟩ := exists_mapM (f := walk name parent es emit fuel) (l := children name parent es n)
      fun m hm => by
        obtain ⟨hm, hp⟩ := mem_children.mp hm
        refine ih hm (.child hp hn h) ?_
        rw [List.length_append, List.length_singleton]
        omega
    exact ⟨_, by rw [walk, hbelow]; rfl⟩

theorem exists_walkAll (hd : (es.map name).Nodup) {fuel : ℕ} (hfuel : es.length ≤ fuel) :
    ∃ out, walkAll name parent es emit fuel = some out := by
  obtain ⟨ls, hls⟩ := exists_mapM (f := walk name parent es emit fuel) (l := roots parent es) fun n hn => by
    obtain ⟨hn, hp⟩ := mem_roots.mp hn
    refine exists_walk hd hn (.root hp) ?_
    rw [List.length_singleton]
    omega
  exact ⟨_, by rw [walkAll, hls]; rfl⟩

/-! ### Every entry once -/

/-- One level more is the children of what was there. -/
theorem within_succ (l : List β) (depth : ℕ) : (l.flatMap (within name parent es (depth + 1))).Perm
    (l ++ (l.flatMap (within name parent es depth)).flatMap (children name parent es)) := by
  induction depth generalizing l with
  | zero =>
    have hone : within name parent es (0 + 1) = fun n => [n] := funext fun n => by simp [within]
    have hnone : l.flatMap (within name parent es 0) = [] := List.flatMap_eq_nil_iff.mpr fun _ _ => rfl
    rw [hone, hnone]
    simp
  | succ depth ih =>
    have hsplit (d : ℕ) : (l.flatMap (within name parent es (d + 1))).Perm
        (l ++ (l.flatMap (children name parent es)).flatMap (within name parent es d)) := by
      have hcons := List.map_append_flatMap_perm l id fun n =>
        (children name parent es n).flatMap (within name parent es d)
      rw [List.map_id, ← List.flatMap_assoc] at hcons
      exact hcons.symm
    refine (hsplit _).trans (((ih _).append_left l).trans (.append_left l ?_))
    rw [← List.flatMap_append]
    exact (hsplit _).symm.flatMap_right _

/-- An entry stands once among the children of its parent, and nowhere else. -/
theorem count_children [DecidableEq β] (hd : (es.map name).Nodup) {n m : β} (hn : n ∈ es) {p : β}
    (hp : parent m = some (name p)) (hpes : p ∈ es) (hm : m ∈ es) :
    (children name parent es n).count m = if n = p then 1 else 0 := by
  have hone : es.count m = 1 := List.count_eq_one_of_mem hd.of_map hm
  split_ifs with h
  · rw [children, List.count_filter (by rw [decide_eq_true_eq, h, hp]), hone]
  · refine List.count_eq_zero_of_not_mem fun hc => h ?_
    obtain ⟨-, hname⟩ := mem_children.mp hc
    exact eq_of_name_eq hd hn hpes (Option.some.inj (hname.symm.trans hp))

omit [DecidableEq κ] in
theorem count_roots [DecidableEq β] (hd : (es.map name).Nodup) {n : β} (hn : n ∈ es) :
    (roots parent es).count n = if parent n = none then 1 else 0 := by
  have hone : es.count n = 1 := List.count_eq_one_of_mem hd.of_map hn
  split_ifs with h
  · rw [roots, List.count_filter (by simpa using h), hone]
  · exact List.count_eq_zero_of_not_mem fun hc => h (mem_roots.mp hc).2

theorem mem_of_mem_within {depth : ℕ} {n m : β} (hn : n ∈ es) (hm : m ∈ within name parent es depth n) : m ∈ es := by
  induction depth generalizing n with
  | zero => cases hm
  | succ depth ih =>
    rcases List.mem_cons.mp hm with rfl | hm
    · exact hn
    · obtain ⟨k, hk, hm⟩ := List.mem_flatMap.mp hm
      exact ih (mem_children.mp hk).1 hm

theorem mem_of_mem_order {depth : ℕ} {m : β} (hm : m ∈ (roots parent es).flatMap (within name parent es depth)) :
    m ∈ es := by
  obtain ⟨n, hn, hm⟩ := List.mem_flatMap.mp hm
  exact mem_of_mem_within (mem_roots.mp hn).1 hm

theorem sum_indicator [DecidableEq β] (p : β) (l : List β) :
    (l.map fun n => if n = p then 1 else 0).sum = l.count p := by
  induction l with
  | nil => rfl
  | cons n l ih => rw [List.map_cons, List.sum_cons, ih, List.count_cons, add_comm]; simp

/-- As deep as its path is long, an entry has been come to once. -/
theorem exists_path_count [DecidableEq β] (hd : (es.map name).Nodup) {m : β} (hr : Rooted name parent es m)
    (hm : m ∈ es) : ∃ names, Path name parent es m names ∧
      ∀ d, names.length ≤ d → ((roots parent es).flatMap (within name parent es d)).count m = 1 := by
  have hstep (k : β) (d : ℕ) : ((roots parent es).flatMap (within name parent es (d + 1))).count k =
      (roots parent es).count k +
        (((roots parent es).flatMap (within name parent es d)).map fun n =>
          (children name parent es n).count k).sum := by
    rw [(within_succ (roots parent es) d).count_eq, List.count_append, List.count_flatMap]
    rfl
  induction hr with
  | @root m hp =>
    refine ⟨_, .root hp, fun d hdepth => ?_⟩
    rw [List.length_singleton] at hdepth
    obtain ⟨d, rfl⟩ : ∃ k, d = k + 1 := ⟨d - 1, by omega⟩
    have hnone (n : β) : (children name parent es n).count m = 0 := List.count_eq_zero_of_not_mem fun hc => by
      have hname := (mem_children.mp hc).2
      rw [hp] at hname
      cases hname
    rw [hstep, count_roots hd hm, if_pos hp]
    simp [hnone]
  | @child m k p hp hk hname _ ih =>
    obtain ⟨names, hpath, hdepth⟩ := ih hk
    subst hname
    refine ⟨_, .child hp hk hpath, fun d hle => ?_⟩
    rw [List.length_append, List.length_singleton] at hle
    obtain ⟨d, rfl⟩ : ∃ k, d = k + 1 := ⟨d - 1, by omega⟩
    have hcount : ((roots parent es).flatMap (within name parent es d)).map (fun n =>
        (children name parent es n).count m) =
        ((roots parent es).flatMap (within name parent es d)).map fun n => if n = k then 1 else 0 :=
      List.map_congr_left fun n hn => count_children hd (mem_of_mem_order hn) hp hk hm
    rw [hstep, count_roots hd hm, if_neg (by simp [hp]), hcount, sum_indicator, hdepth d (by omega)]

/-- As deep as there are entries, every entry has been come to once. -/
theorem perm_order (hd : (es.map name).Nodup) (hr : ∀ n ∈ es, Rooted name parent es n) {depth : ℕ}
    (hdepth : es.length ≤ depth) : ((roots parent es).flatMap (within name parent es depth)).Perm es := by
  classical
  refine List.perm_iff_count.mpr fun m => ?_
  by_cases hm : m ∈ es
  · obtain ⟨names, hpath, hcount⟩ := exists_path_count hd (hr m hm) hm
    rw [hcount depth ((hpath.length_le hd hm).trans hdepth), List.count_eq_one_of_mem hd.of_map hm]
  · rw [List.count_eq_zero_of_not_mem hm, List.count_eq_zero_of_not_mem fun h => hm (mem_of_mem_order h)]

/-- **Key result**: a walk from the roots that returns has come to every entry exactly once. -/
theorem perm_of_walkAll (hd : (es.map name).Nodup) (hr : ∀ n ∈ es, Rooted name parent es n) {fuel : ℕ}
    {out : List γ} (h : walkAll name parent es emit fuel = some out) : out.Perm (es.flatMap emit) := by
  rw [walkAll_eq h (le_max_left fuel es.length)]
  exact (perm_order hd hr (le_max_right fuel es.length)).flatMap_right emit

end

end Forge.Forest
