import Forge.Contract.Model
import Forge.Data.Choice
import Forge.Data.Span
import Forge.Geometry.Doubles
import Mathlib.Algebra.Order.Field.Basic
import Mathlib.Algebra.Order.Monoid.Unbundled.WithTop

/-!
# Printability

The design checks for printed parts (`dfm.rs`), in exact arithmetic: walls, and for the best of six orientations the
fit on the bed, overhang and support. The square root and the arc sine may be any functions.

The **key result** is `analyzeMesh_verdict`: a part passes exactly when its walls do and one orientation passes all
three other checks; moving the part by translations and quarter turns, or listing its triangles in another order,
changes neither this nor the measured wall; and a part that passes also passes for a printer with wider limits.
-/

namespace Forge.Geometry.Dfm

open Contract (Arr3)
open Forge.Span

inductive PrintProcess where
  | fdm
  | sla
deriving DecidableEq

structure PrintProfile (K : Type) where
  process : PrintProcess
  minWallM : K
  maxOverhangDeg : K
  maxSupportRatio : K
  /-- Oriented print volume: across the bed, along the bed, height. -/
  bedM : Arr3 K

inductive AxisDirection where
  | posX
  | negX
  | posY
  | negY
  | posZ
  | negZ
deriving DecidableEq

structure DfmProfileAnalysis (K : Type) where
  process : PrintProcess
  minWallM : WithTop K
  minWallOk : Bool
  orientationUp : AxisDirection
  orientedExtentsM : Arr3 (WithBot K)
  bedFitOk : Bool
  maxOverhangDeg : K
  overhangOk : Bool
  supportVolumeM3 : K
  supportRatio : K
  supportOk : Bool
  passed : Bool

structure OrientationAnalysis (K : Type) where
  orientationUp : AxisDirection
  orientedExtentsM : Arr3 (WithBot K)
  bedFitOk : Bool
  maxOverhangDeg : K
  overhangOk : Bool
  supportVolumeM3 : K
  supportRatio : K
  supportOk : Bool

/-- Flat buffers: three coordinates for each vertex, three vertices for each triangle. What is left over at the end of
a buffer is not read. -/
structure MeshBuffers (K : Type) where
  positions : List K
  indices : List ℕ
  inRange : ∀ i ∈ indices, 3 * i + 2 < positions.length

/-- A mesh as points. -/
structure Shape (K : Type) where
  vertices : List (Arr3 K)
  triangles : List (Arr3 K × Arr3 K × Arr3 K)

/-- The two functions that are not rational. -/
structure Functions (K : Type) where
  sqrt : K → K
  /-- `asin`, in degrees -/
  asinDegrees : K → K

section

variable {K : Type} [Field K] [LinearOrder K] [IsStrictOrderedRing K] (F : Functions K)

/-! ### Vectors -/

def dot (a b : Arr3 K) : K := a.x * b.x + a.y * b.y + a.z * b.z

def sub (a b : Arr3 K) : Arr3 K := ⟨a.x - b.x, a.y - b.y, a.z - b.z⟩

def cross (a b : Arr3 K) : Arr3 K := ⟨a.y * b.z - a.z * b.y, a.z * b.x - a.x * b.z, a.x * b.y - a.y * b.x⟩

def len (a : Arr3 K) : K := F.sqrt (dot a a)

def scale (a : Arr3 K) (s : K) : Arr3 K := ⟨a.x * s, a.y * s, a.z * s⟩

namespace AxisDirection

def all : List AxisDirection := [posY, negY, posX, negX, posZ, negZ]

def vector : AxisDirection → Arr3 K
  | posX => ⟨1, 0, 0⟩
  | negX => ⟨-1, 0, 0⟩
  | posY => ⟨0, 1, 0⟩
  | negY => ⟨0, -1, 0⟩
  | posZ => ⟨0, 0, 1⟩
  | negZ => ⟨0, 0, -1⟩

def bedAxes : AxisDirection → Arr3 K × Arr3 K
  | posY => (⟨1, 0, 0⟩, ⟨0, 0, 1⟩)
  | negY => (⟨1, 0, 0⟩, ⟨0, 0, -1⟩)
  | posX => (⟨0, 1, 0⟩, ⟨0, 0, 1⟩)
  | negX => (⟨0, 1, 0⟩, ⟨0, 0, -1⟩)
  | posZ => (⟨1, 0, 0⟩, ⟨0, 1, 0⟩)
  | negZ => (⟨1, 0, 0⟩, ⟨0, -1, 0⟩)

end AxisDirection

/-! ### Meshes -/

/-- The vertex at an index. -/
def point (mesh : MeshBuffers K) (i : ℕ) : Arr3 K :=
  ⟨mesh.positions.getD (i * 3) 0, mesh.positions.getD (i * 3 + 1) 0, mesh.positions.getD (i * 3 + 2) 0⟩

def MeshBuffers.vertices (mesh : MeshBuffers K) : List (Arr3 K) :=
  (Doubles.triples mesh.positions).map fun (x, y, z) => ⟨x, y, z⟩

def MeshBuffers.shape (mesh : MeshBuffers K) : Shape K where
  vertices := mesh.vertices
  triangles := (Doubles.triples mesh.indices).map fun (a, b, c) => (point mesh a, point mesh b, point mesh c)

/-! ### Checks -/

/-- The height above a level that may be infinite. -/
def heightAbove (height : K) : WithTop K → K
  | none => 0
  | some level => max (height - level) 0

/-- `min_axis_extent`; infinite for a mesh without vertices. -/
def minAxisExtent (shape : Shape K) : WithTop K :=
  let extents := [span (shape.vertices.map Arr3.x), span (shape.vertices.map Arr3.y), span (shape.vertices.map Arr3.z)]
  lowest (extents.filterMap finite)

/-- The extent along a vector. -/
def extent (shape : Shape K) (w : Arr3 K) : WithBot K := span (shape.vertices.map fun p => dot p w)

/-- `oriented_extents` -/
def orientedExtents (shape : Shape K) (bedU bedV up : Arr3 K) : Arr3 (WithBot K) :=
  ⟨extent shape bedU, extent shape bedV, extent shape up⟩

/-- `fits_bed` -/
def fitsBed (extents : Arr3 (WithBot K)) (bedM : Arr3 K) : Bool :=
  ((extents.x ≤ bedM.x && extents.y ≤ bedM.y) || (extents.x ≤ bedM.y && extents.y ≤ bedM.x)) && extents.z ≤ bedM.z

/-- `bed_contact_tol`; the extent of a mesh without vertices is infinite. -/
def bedContactTol : WithBot K → K
  | none => 5 / 10 ^ 4
  | some height => max (5 / 10 ^ 5) (min (5 / 10 ^ 4) (|height| * (1 / 100)))

/-- What a triangle needs: the overhang in degrees and the volume of the support. -/
def triangleSupport (up : Arr3 K) (bedMin : WithTop K) (tol : K) : Arr3 K × Arr3 K × Arr3 K → Option (K × K)
  | (a, b, c) =>
    let ab := sub b a
    let ac := sub c a
    let cr := cross ab ac
    let crLen := len F cr
    if crLen < 1 / 10 ^ 18 then none
    else
      let area := 1 / 2 * crLen
      let n := scale cr (1 / crLen)
      let down := -dot n up
      if down ≤ 1 / 10 ^ 9 then none
      else
        let centroidUp := (dot a up + dot b up + dot c up) / 3
        if (centroidUp : WithTop K) ≤ bedMin + tol then none
        else some (F.asinDegrees (max 0 (min 1 down)), area * down * heightAbove centroidUp bedMin)

/-- The steps of the loop in `overhang_and_support`. -/
def supportStep (acc : K × K) : Option (K × K) → K × K
  | none => acc
  | some (overhangDeg, volume) => (max acc.1 overhangDeg, acc.2 + volume)

/-- `bbox_volume` -/
def bboxVolume : WithBot K → WithBot K → WithBot K → K
  | some x, some y, some z => max (x * y * z) (1 / 10 ^ 18)
  | _, _, _ => 1 / 10 ^ 18

/-- `overhang_and_support` -/
def overhangAndSupport (shape : Shape K) (up : Arr3 K) (extents : Arr3 (WithBot K)) : K × K × K :=
  let bedMin := lowest (shape.vertices.map fun p => dot p up)
  let tol := bedContactTol extents.z
  let (maxOverhangDeg, supportVolume) :=
    (shape.triangles.map (triangleSupport F up bedMin tol)).foldl supportStep (0, 0)
  (maxOverhangDeg, supportVolume, supportVolume / bboxVolume extents.x extents.y extents.z)

/-! ### Orientations -/

/-- `analyze_orientation` -/
def analyzeOrientation (shape : Shape K) (profile : PrintProfile K) (orientationUp : AxisDirection) :
    OrientationAnalysis K :=
  let up : Arr3 K := orientationUp.vector
  let (bedU, bedV) : Arr3 K × Arr3 K := orientationUp.bedAxes
  let extents := orientedExtents shape bedU bedV up
  let bedFitOk := fitsBed extents profile.bedM
  let (maxOverhangDeg, supportVolumeM3, supportRatio) := overhangAndSupport F shape up extents
  { orientationUp, orientedExtentsM := extents, bedFitOk, maxOverhangDeg
    overhangOk := maxOverhangDeg ≤ profile.maxOverhangDeg + 1 / 10 ^ 9
    supportVolumeM3, supportRatio
    supportOk := supportRatio ≤ profile.maxSupportRatio + 1 / 10 ^ 9 }

/-- The number of failed checks of an orientation. -/
def failures (x : OrientationAnalysis K) : ℕ := (!x.bedFitOk).toNat + (!x.overhangOk).toNat + (!x.supportOk).toNat

/-- `compare_orientation` -/
def compareOrientation (a b : OrientationAnalysis K) : Ordering :=
  (compare (!a.bedFitOk) (!b.bedFitOk)).then
    ((compare (failures a) (failures b)).then (compare a.supportRatio b.supportRatio)) |>.then
      (compare a.maxOverhangDeg b.maxOverhangDeg) |>.then (compare a.orientedExtentsM.z b.orientedExtentsM.z)

/-- The best orientation for a profile. -/
def bestOrientation (shape : Shape K) (profile : PrintProfile K) : OrientationAnalysis K :=
  (Choice.minBy compareOrientation (AxisDirection.all.map (analyzeOrientation F shape profile))).getD
    (analyzeOrientation F shape profile .posY)

/-- The analysis for a profile. -/
def analyzeProfile (shape : Shape K) (minWallM : WithTop K) (profile : PrintProfile K) : DfmProfileAnalysis K :=
  let best := bestOrientation F shape profile
  let minWallOk := decide ((profile.minWallM : WithTop K) ≤ minWallM + ((1 / 10 ^ 12 : K) : WithTop K))
  { process := profile.process, minWallM, minWallOk
    orientationUp := best.orientationUp, orientedExtentsM := best.orientedExtentsM, bedFitOk := best.bedFitOk
    maxOverhangDeg := best.maxOverhangDeg, overhangOk := best.overhangOk
    supportVolumeM3 := best.supportVolumeM3, supportRatio := best.supportRatio, supportOk := best.supportOk
    passed := minWallOk && best.bedFitOk && best.overhangOk && best.supportOk }

/-- `analyze_mesh` -/
def analyzeMesh (mesh : MeshBuffers K) (profiles : List (PrintProfile K)) : List (DfmProfileAnalysis K) :=
  profiles.map (analyzeProfile F mesh.shape (minAxisExtent mesh.shape))

/-! ### The choice of an orientation -/

/-- The checks that depend on the orientation. -/
def OrientationAnalysis.Passes (x : OrientationAnalysis K) : Prop := x.bedFitOk ∧ x.overhangOk ∧ x.supportOk

variable {F}

omit [Field K] [IsStrictOrderedRing K] in
/-- Orientations that pass come before all others. -/
theorem compareOrientation_prefers :
    Choice.Prefers compareOrientation fun x : OrientationAnalysis K => x.Passes where
  lt {x y} hx hy := by
    obtain ⟨bed, overhang, support⟩ := hx
    rw [compareOrientation, failures, failures, bed, overhang, support]
    cases hbed : y.bedFitOk with
    | false => rfl
    | true =>
      cases hoverhang : y.overhangOk with
      | false => cases y.supportOk <;> rfl
      | true =>
        cases hsupport : y.supportOk with
        | false => rfl
        | true => exact absurd ⟨hbed, hoverhang, hsupport⟩ hy
  gt {x y} hx hy := by
    obtain ⟨bed, overhang, support⟩ := hy
    rw [compareOrientation, failures, failures, bed, overhang, support]
    cases hbed : x.bedFitOk with
    | false => rfl
    | true =>
      cases hoverhang : x.overhangOk with
      | false => cases x.supportOk <;> rfl
      | true =>
        cases hsupport : x.supportOk with
        | false => rfl
        | true => exact absurd ⟨hbed, hoverhang, hsupport⟩ hx

/-- Some orientation passes its checks. -/
def Printable (F : Functions K) (shape : Shape K) (profile : PrintProfile K) : Prop :=
  ∃ up, (analyzeOrientation F shape profile up).Passes

theorem mem_all (up : AxisDirection) : up ∈ AxisDirection.all := by cases up <;> decide

omit [IsStrictOrderedRing K] in
/-- **The best orientation passes** when there is one that does. -/
theorem bestOrientation_passes (shape : Shape K) (profile : PrintProfile K) :
    (bestOrientation F shape profile).Passes ↔ Printable F shape profile := by
  have hsome : Choice.minBy compareOrientation (AxisDirection.all.map (analyzeOrientation F shape profile)) =
      some (bestOrientation F shape profile) := rfl
  rw [Choice.minBy_iff compareOrientation_prefers hsome]
  constructor
  · rintro ⟨x, hx, hpasses⟩
    obtain ⟨up, -, rfl⟩ := List.mem_map.mp hx
    exact ⟨up, hpasses⟩
  · rintro ⟨up, hpasses⟩
    exact ⟨_, List.mem_map_of_mem (mem_all up), hpasses⟩

/-! ### Wider limits -/

/-- Every limit of the second profile is at least as wide. -/
structure Relaxed (profile wider : PrintProfile K) : Prop where
  bedX : profile.bedM.x ≤ wider.bedM.x
  bedY : profile.bedM.y ≤ wider.bedM.y
  bedZ : profile.bedM.z ≤ wider.bedM.z
  overhang : profile.maxOverhangDeg ≤ wider.maxOverhangDeg
  support : profile.maxSupportRatio ≤ wider.maxSupportRatio
  wall : wider.minWallM ≤ profile.minWallM

variable {profile wider : PrintProfile K}

omit [Field K] [IsStrictOrderedRing K] in
theorem Relaxed.fitsBed (h : Relaxed profile wider) {extents : Arr3 (WithBot K)}
    (hfits : fitsBed extents profile.bedM) : fitsBed extents wider.bedM := by
  have hx := WithBot.coe_le_coe.mpr h.bedX
  have hy := WithBot.coe_le_coe.mpr h.bedY
  have hz := WithBot.coe_le_coe.mpr h.bedZ
  simp only [Dfm.fitsBed, Bool.and_eq_true, Bool.or_eq_true, decide_eq_true_eq] at hfits ⊢
  obtain ⟨⟨hax, hay⟩ | ⟨hay, hax⟩, haz⟩ := hfits
  · exact ⟨.inl ⟨hax.trans hx, hay.trans hy⟩, haz.trans hz⟩
  · exact ⟨.inr ⟨hay.trans hy, hax.trans hx⟩, haz.trans hz⟩

theorem Relaxed.printable (h : Relaxed profile wider) {shape : Shape K} (hprint : Printable F shape profile) :
    Printable F shape wider := by
  obtain ⟨up, hbed, hoverhang, hsupport⟩ := hprint
  refine ⟨up, h.fitsBed hbed, decide_eq_true ?_, decide_eq_true ?_⟩
  · exact (of_decide_eq_true hoverhang).trans (by gcongr; exact h.overhang)
  · exact (of_decide_eq_true hsupport).trans (by gcongr; exact h.support)

/-! ### Moved shapes -/

inductive Axis where
  | x
  | y
  | z

/-- A quarter turn about an axis. -/
def turn : Axis → Arr3 K → Arr3 K
  | .x, p => ⟨p.x, -p.z, p.y⟩
  | .y, p => ⟨p.z, p.y, -p.x⟩
  | .z, p => ⟨-p.y, p.x, p.z⟩

/-- Where a quarter turn takes a direction. -/
def AxisDirection.turned : Axis → AxisDirection → AxisDirection
  | .x, .posY => .posZ
  | .x, .posZ => .negY
  | .x, .negY => .negZ
  | .x, .negZ => .posY
  | .x, up => up
  | .y, .posZ => .posX
  | .y, .posX => .negZ
  | .y, .negZ => .negX
  | .y, .negX => .posZ
  | .y, up => up
  | .z, .posX => .posY
  | .z, .posY => .negX
  | .z, .negX => .negY
  | .z, .negY => .posX
  | .z, up => up

def translate (t p : Arr3 K) : Arr3 K := ⟨p.x + t.x, p.y + t.y, p.z + t.z⟩

/-- Translations and quarter turns, one after the other. -/
inductive Motion : (Arr3 K → Arr3 K) → Prop
  | still : Motion fun p => p
  | translate {f : Arr3 K → Arr3 K} (t : Arr3 K) : Motion f → Motion fun p => translate t (f p)
  | turn {f : Arr3 K → Arr3 K} (axis : Axis) : Motion f → Motion fun p => turn axis (f p)

def Shape.map (f : Arr3 K → Arr3 K) (shape : Shape K) : Shape K where
  vertices := shape.vertices.map f
  triangles := shape.triangles.map fun (a, b, c) => (f a, f b, f c)

/-- Coordinates along the second vector are those along the first before the move, shifted or reflected. -/
def Along (f : Arr3 K → Arr3 K) (w w' : Arr3 K) : Prop :=
  (∃ c, ∀ p, dot (f p) w' = dot p w + c) ∨ ∀ p, dot (f p) w' = -dot p w

/-- What moving a shape keeps, where `dir` says how it turns the directions. -/
structure Moves (f : Arr3 K → Arr3 K) (dir : AxisDirection → AxisDirection) : Prop where
  up : ∀ d, ∃ c, ∀ p, dot (f p) (dir d).vector = dot p d.vector + c
  bed : ∀ d, (Along f d.bedAxes.1 (dir d).bedAxes.1 ∧ Along f d.bedAxes.2 (dir d).bedAxes.2) ∨
    (Along f d.bedAxes.2 (dir d).bedAxes.1 ∧ Along f d.bedAxes.1 (dir d).bedAxes.2)
  normal : ∀ d a b c, dot (cross (sub (f b) (f a)) (sub (f c) (f a))) (dir d).vector =
    dot (cross (sub b a) (sub c a)) d.vector
  area : ∀ a b c, dot (cross (sub (f b) (f a)) (sub (f c) (f a))) (cross (sub (f b) (f a)) (sub (f c) (f a))) =
    dot (cross (sub b a) (sub c a)) (cross (sub b a) (sub c a))
  onto : ∀ d', ∃ d, dir d = d'
  walls : ∀ shape : Shape K, minAxisExtent (shape.map f) = minAxisExtent shape

theorem translate_moves (t : Arr3 K) : Moves (translate t) id where
  up d := ⟨dot t d.vector, fun p => by simp only [dot, translate, id]; ring⟩
  bed d := by
    have halong (w : Arr3 K) : Along (translate t) w w := .inl ⟨dot t w, fun p => by simp only [dot, translate]; ring⟩
    exact .inl ⟨halong _, halong _⟩
  normal d a b c := by simp only [dot, cross, sub, translate, id]; ring
  area a b c := by simp only [dot, cross, sub, translate]; ring
  onto d := ⟨d, rfl⟩
  walls shape := by
    have hspan (g : Arr3 K → K) (c : K) (hg : ∀ p, g (translate t p) = g p + c) :
        span ((shape.vertices.map (translate t)).map g) = span (shape.vertices.map g) := by
      rw [← span_add (shape.vertices.map g) c, List.map_map, List.map_map]
      exact congrArg span (List.map_congr_left fun p _ => hg p)
    simp only [minAxisExtent, Shape.map, hspan Arr3.x t.x fun _ => rfl, hspan Arr3.y t.y fun _ => rfl,
      hspan Arr3.z t.z fun _ => rfl]

def negate (p : Arr3 K) : Arr3 K := ⟨-p.x, -p.y, -p.z⟩

/-- A quarter turn takes the first vector to the line of the second. -/
def OnLine (axis : Axis) (w w' : Arr3 K) : Prop := w' = turn axis w ∨ w' = negate (turn axis w)

omit [LinearOrder K] [IsStrictOrderedRing K] in
theorem OnLine.along {axis : Axis} {w w' : Arr3 K} (h : OnLine axis w w') : Along (turn axis) w w' := by
  obtain rfl | rfl := h
  · exact .inl ⟨0, fun p => by cases axis <;> simp only [dot, turn] <;> ring⟩
  · exact .inr fun p => by cases axis <;> simp only [dot, turn, negate] <;> ring

omit [LinearOrder K] [IsStrictOrderedRing K] in
/-- The bed turns along, though its two axes may change places. -/
theorem bedAxes_turned (axis : Axis) (d : AxisDirection) :
    (@OnLine K _ axis d.bedAxes.1 (d.turned axis).bedAxes.1 ∧ @OnLine K _ axis d.bedAxes.2 (d.turned axis).bedAxes.2) ∨
      (@OnLine K _ axis d.bedAxes.2 (d.turned axis).bedAxes.1 ∧
        @OnLine K _ axis d.bedAxes.1 (d.turned axis).bedAxes.2) := by
  cases axis <;> cases d <;> simp [OnLine, turn, negate, AxisDirection.bedAxes, AxisDirection.turned]

theorem turn_moves (axis : Axis) : Moves (K := K) (turn axis) (AxisDirection.turned axis) where
  up d := ⟨0, fun p => by cases axis <;> cases d <;> simp [dot, turn, AxisDirection.turned, AxisDirection.vector]⟩
  bed d := (bedAxes_turned axis d).imp (fun h => ⟨h.1.along, h.2.along⟩) fun h => ⟨h.1.along, h.2.along⟩
  normal d a b c := by
    cases axis <;> cases d <;>
      simp only [dot, cross, sub, turn, AxisDirection.turned, AxisDirection.vector] <;> ring
  area a b c := by cases axis <;> simp only [dot, cross, sub, turn] <;> ring
  onto d := ⟨(AxisDirection.turned axis)^[3] d, by cases axis <;> cases d <;> rfl⟩
  walls shape := by
    have hneg (g : Arr3 K → K) : span (shape.vertices.map fun p => -g p) = span (shape.vertices.map g) := by
      rw [← span_neg, List.map_map]
      simp [Function.comp_def]
    cases axis with
    | x =>
      simp only [minAxisExtent, Shape.map, List.map_map, Function.comp_def, turn, hneg]
      exact lowest_perm (((List.Perm.swap ..).cons _).filterMap _)
    | y =>
      simp only [minAxisExtent, Shape.map, List.map_map, Function.comp_def, turn, hneg]
      exact lowest_perm ((List.reverse_perm [_, _, _]).filterMap _)
    | z =>
      simp only [minAxisExtent, Shape.map, List.map_map, Function.comp_def, turn, hneg]
      exact lowest_perm ((List.Perm.swap ..).filterMap _)

/-! ### Moved shapes are analyzed alike -/

/-- Extents up to the order of the axes of the bed. -/
def SameExtents (extents extents' : Arr3 (WithBot K)) : Prop :=
  ((extents'.x = extents.x ∧ extents'.y = extents.y) ∨ (extents'.x = extents.y ∧ extents'.y = extents.x)) ∧
    extents'.z = extents.z

omit [Field K] [IsStrictOrderedRing K] in
theorem SameExtents.fitsBed {extents extents' : Arr3 (WithBot K)} (h : SameExtents extents extents') (bedM : Arr3 K) :
    fitsBed extents' bedM = fitsBed extents bedM := by
  obtain ⟨⟨hx, hy⟩ | ⟨hx, hy⟩, hz⟩ := h
  · rw [Dfm.fitsBed, hx, hy, hz, Dfm.fitsBed]
  · rw [Dfm.fitsBed, hx, hy, hz, Dfm.fitsBed, Bool.or_comm, Bool.and_comm (decide (extents.y ≤ _)),
      Bool.and_comm (decide (extents.y ≤ _))]

omit [IsStrictOrderedRing K] in
theorem bboxVolume_comm (x y z : WithBot K) : bboxVolume y x z = bboxVolume x y z := by
  cases x with
  | bot => cases y <;> rfl
  | coe x =>
    cases y with
    | bot => rfl
    | coe y =>
      cases z with
      | bot => rfl
      | coe z => exact congrArg (fun v => max (v * z) _) (mul_comm y x)

omit [IsStrictOrderedRing K] in
theorem SameExtents.bboxVolume {extents extents' : Arr3 (WithBot K)} (h : SameExtents extents extents') :
    bboxVolume extents'.x extents'.y extents'.z = bboxVolume extents.x extents.y extents.z := by
  obtain ⟨⟨hx, hy⟩ | ⟨hx, hy⟩, hz⟩ := h
  · rw [hx, hy, hz]
  · rw [hx, hy, hz, bboxVolume_comm]

theorem Along.extent {f : Arr3 K → Arr3 K} {w w' : Arr3 K} (h : Along f w w') (shape : Shape K) :
    extent (shape.map f) w' = extent shape w := by
  rw [Dfm.extent, Dfm.extent, Shape.map, List.map_map]
  obtain ⟨c, hc⟩ | hneg := h
  · rw [← span_add (shape.vertices.map fun p => dot p w) c, List.map_map]
    exact congrArg span (List.map_congr_left fun p _ => hc p)
  · rw [← span_neg (shape.vertices.map fun p => dot p w), List.map_map]
    exact congrArg span (List.map_congr_left fun p _ => hneg p)

omit [IsStrictOrderedRing K] in
/-- The height of a triangle above the bed does not change when both are lifted. -/
theorem heightAbove_lift (height c : K) (level : WithTop K) :
    heightAbove (height + c) (level.map (· + c)) = heightAbove height level := by
  cases level with
  | top => rfl
  | coe level => exact congrArg (max · 0) (add_sub_add_right_eq_sub height level c)

theorem le_lift (height c tol : K) (level : WithTop K) :
    ((height + c : K) : WithTop K) ≤ level.map (· + c) + tol ↔ (height : WithTop K) ≤ level + tol := by
  cases level with
  | top => simp
  | coe level =>
    rw [WithTop.map_coe, ← WithTop.coe_add, WithTop.coe_le_coe, ← WithTop.coe_add, WithTop.coe_le_coe, add_right_comm,
      add_le_add_iff_right]

variable {f : Arr3 K → Arr3 K} {dir : AxisDirection → AxisDirection}

/-- A triangle needs the same support after a move. -/
theorem Moves.triangleSupport (h : Moves f dir) {d : AxisDirection} {c : K}
    (hc : ∀ p, dot (f p) (dir d).vector = dot p d.vector + c) (bedMin : WithTop K) (tol : K)
    (t : Arr3 K × Arr3 K × Arr3 K) : triangleSupport F (dir d).vector (bedMin.map (· + c)) tol
      (f t.1, f t.2.1, f t.2.2) = triangleSupport F d.vector bedMin tol t := by
  obtain ⟨a, b, e⟩ := t
  have hscale (v w : Arr3 K) (s : K) : dot (scale v s) w = dot v w * s := by
    simp only [dot, scale]
    ring
  have hcentroid : (dot a d.vector + c + (dot b d.vector + c) + (dot e d.vector + c)) / 3 =
      (dot a d.vector + dot b d.vector + dot e d.vector) / 3 + c := by ring
  simp only [Dfm.triangleSupport, len, h.area, hscale, h.normal, hc, hcentroid, le_lift, heightAbove_lift]

theorem Moves.overhangAndSupport (h : Moves f dir) (d : AxisDirection) (shape : Shape K)
    {extents extents' : Arr3 (WithBot K)} (hsame : SameExtents extents extents') :
    overhangAndSupport F (shape.map f) (dir d).vector extents' = overhangAndSupport F shape d.vector extents := by
  obtain ⟨c, hc⟩ := h.up d
  have hlowest : lowest ((shape.map f).vertices.map fun p => dot p (dir d).vector) =
      (lowest (shape.vertices.map fun p => dot p d.vector)).map (· + c) := by
    rw [← lowest_map fun a b hab => add_le_add_left hab c, Shape.map, List.map_map, List.map_map]
    exact congrArg lowest (List.map_congr_left fun p _ => hc p)
  have htriangles (bedMin : WithTop K) (tol : K) :
      (shape.map f).triangles.map (Dfm.triangleSupport F (dir d).vector (bedMin.map (· + c)) tol) =
        shape.triangles.map (Dfm.triangleSupport F d.vector bedMin tol) := by
    rw [Shape.map, List.map_map]
    exact List.map_congr_left fun t _ => h.triangleSupport hc bedMin tol t
  have hbox := hsame.bboxVolume
  rw [hsame.2] at hbox
  simp only [Dfm.overhangAndSupport, hlowest, hsame.2, htriangles, hbox]

/-- **A turned orientation of a moved shape** passes the same checks. -/
theorem Moves.passes (h : Moves f dir) (d : AxisDirection) (shape : Shape K) (profile : PrintProfile K) :
    (analyzeOrientation F (shape.map f) profile (dir d)).Passes ↔ (analyzeOrientation F shape profile d).Passes := by
  obtain ⟨c, hc⟩ := h.up d
  have hup : Along f d.vector (dir d).vector := .inl ⟨c, hc⟩
  have hsame : SameExtents (orientedExtents shape d.bedAxes.1 d.bedAxes.2 d.vector)
      (orientedExtents (shape.map f) (dir d).bedAxes.1 (dir d).bedAxes.2 (dir d).vector) :=
    ⟨(h.bed d).imp (fun hb => ⟨hb.1.extent shape, hb.2.extent shape⟩) fun hb => ⟨hb.1.extent shape, hb.2.extent shape⟩,
      hup.extent shape⟩
  simp only [analyzeOrientation, OrientationAnalysis.Passes, hsame.fitsBed, h.overhangAndSupport d shape hsame]

theorem Moves.printable (h : Moves f dir) (shape : Shape K) (profile : PrintProfile K) :
    Printable F (shape.map f) profile ↔ Printable F shape profile := by
  constructor
  · rintro ⟨d', hd'⟩
    obtain ⟨d, rfl⟩ := h.onto d'
    exact ⟨d, (h.passes d shape profile).mp hd'⟩
  · rintro ⟨d, hd⟩
    exact ⟨dir d, (h.passes d shape profile).mpr hd⟩

/-- **Motions** change neither what can be printed nor the walls. -/
theorem Motion.invariant (h : Motion f) (shape : Shape K) : minAxisExtent (shape.map f) = minAxisExtent shape ∧
    ∀ profile, Printable F (shape.map f) profile ↔ Printable F shape profile := by
  have hmap (f g : Arr3 K → Arr3 K) : shape.map (fun p => g (f p)) = (shape.map f).map g := by
    simp [Shape.map, Function.comp_def]
  induction h with
  | still =>
    have hsame : shape.map (fun p => p) = shape := by simp [Shape.map]
    rw [hsame]
    exact ⟨rfl, fun _ => Iff.rfl⟩
  | translate t _ ih =>
    rw [hmap]
    have h := translate_moves t
    exact ⟨(h.walls _).trans ih.1, fun profile => (h.printable _ profile).trans (ih.2 profile)⟩
  | turn axis _ ih =>
    rw [hmap]
    have h := turn_moves (K := K) axis
    exact ⟨(h.walls _).trans ih.1, fun profile => (h.printable _ profile).trans (ih.2 profile)⟩

/-! ### Triangles in another order -/

omit [IsStrictOrderedRing K] in
theorem supportStep_comm (acc : K × K) (a b : Option (K × K)) :
    supportStep (supportStep acc a) b = supportStep (supportStep acc b) a := by
  cases a with
  | none => rfl
  | some a =>
    cases b with
    | none => rfl
    | some b => exact Prod.ext (max_right_comm ..) (add_right_comm ..)

omit [IsStrictOrderedRing K] in
theorem analyzeOrientation_perm {shape shape' : Shape K} (hvertices : shape'.vertices = shape.vertices)
    (htriangles : shape'.triangles.Perm shape.triangles) (profile : PrintProfile K) (up : AxisDirection) :
    analyzeOrientation F shape' profile up = analyzeOrientation F shape profile up := by
  have hextents : orientedExtents shape' up.bedAxes.1 up.bedAxes.2 up.vector =
      orientedExtents shape up.bedAxes.1 up.bedAxes.2 up.vector := by
    simp only [orientedExtents, extent, hvertices]
  have hsupport (bedMin : WithTop K) (tol : K) :
      (shape'.triangles.map (triangleSupport F up.vector bedMin tol)).foldl supportStep (0, 0) =
        (shape.triangles.map (triangleSupport F up.vector bedMin tol)).foldl supportStep (0, 0) :=
    (htriangles.map _).foldl_eq' (fun a _ b _ acc => supportStep_comm acc a b) _
  have hoverhang (extents : Arr3 (WithBot K)) :
      overhangAndSupport F shape' up.vector extents = overhangAndSupport F shape up.vector extents := by
    simp only [overhangAndSupport, hvertices, hsupport]
  unfold analyzeOrientation
  dsimp only
  rw [hextents, hoverhang]

/-! ### Meshes -/

theorem triples_get {α : Type} (d : α) (l : List α) {i : ℕ} (hi : 3 * i + 2 < l.length) :
    (Doubles.triples l)[i]? = some (l.getD (i * 3) d, l.getD (i * 3 + 1) d, l.getD (i * 3 + 2) d) := by
  fun_induction Doubles.triples l generalizing i with
  | case1 a b c rest ih =>
    cases i with
    | zero => rfl
    | succ i =>
      rw [List.getElem?_cons_succ, ih (by simp only [List.length_cons] at hi; omega)]
      simp only [Nat.succ_mul, List.getD_cons_succ]
  | case2 l hl =>
    match l, hl, hi with
    | [], _, hi => simp at hi
    | [_], _, hi => simp at hi
    | [_, _], _, hi => simp at hi
    | a :: b :: c :: rest, hl, _ => exact absurd rfl (hl a b c rest)

theorem mem_of_mem_triples {α : Type} {l : List α} {t : α × α × α} (ht : t ∈ Doubles.triples l) :
    t.1 ∈ l ∧ t.2.1 ∈ l ∧ t.2.2 ∈ l := by
  fun_induction Doubles.triples l with
  | case1 a b c rest ih =>
    obtain rfl | ht := List.mem_cons.mp ht
    · simp
    · obtain ⟨h1, h2, h3⟩ := ih ht
      simp [h1, h2, h3]
  | case2 => simp at ht

omit [LinearOrder K] [IsStrictOrderedRing K] in
theorem vertices_get (mesh : MeshBuffers K) {i : ℕ} (hi : i ∈ mesh.indices) :
    mesh.vertices[i]? = some (point mesh i) := by
  rw [MeshBuffers.vertices, List.getElem?_map, triples_get 0 _ (mesh.inRange i hi)]
  rfl

/-- The second mesh is the first one after a motion, with its triangles in any order. -/
def Moved (mesh mesh' : MeshBuffers K) : Prop :=
  ∃ f, Motion f ∧ mesh'.vertices = mesh.vertices.map f ∧
    (Doubles.triples mesh'.indices).Perm (Doubles.triples mesh.indices)

variable {mesh mesh' : MeshBuffers K}

omit [LinearOrder K] [IsStrictOrderedRing K] in
theorem triangles_perm (hvertices : mesh'.vertices = mesh.vertices.map f)
    (hindices : (Doubles.triples mesh'.indices).Perm (Doubles.triples mesh.indices)) :
    mesh'.shape.triangles.Perm (mesh.shape.map f).triangles := by
  have hpoint {i : ℕ} (hi : i ∈ mesh.indices) (hi' : i ∈ mesh'.indices) : point mesh' i = f (point mesh i) := by
    have hmoved := vertices_get mesh' hi'
    rw [hvertices, List.getElem?_map, vertices_get mesh hi] at hmoved
    exact (Option.some.inj hmoved).symm
  have hsame : (mesh.shape.map f).triangles = (Doubles.triples mesh.indices).map fun (a, b, c) =>
      (point mesh' a, point mesh' b, point mesh' c) := by
    rw [Shape.map, MeshBuffers.shape, List.map_map]
    refine List.map_congr_left fun t ht => ?_
    obtain ⟨h1, h2, h3⟩ := mem_of_mem_triples ht
    obtain ⟨h1', h2', h3'⟩ := mem_of_mem_triples (hindices.mem_iff.mpr ht)
    exact Prod.ext (hpoint h1 h1').symm (Prod.ext (hpoint h2 h2').symm (hpoint h3 h3').symm)
  rw [hsame]
  exact hindices.map _

/-- **A moved mesh** has the same walls, and can be printed with the same profiles. -/
theorem Moved.invariant (h : Moved mesh mesh') : minAxisExtent mesh'.shape = minAxisExtent mesh.shape ∧
    ∀ profile, Printable F mesh'.shape profile ↔ Printable F mesh.shape profile := by
  obtain ⟨f, hf, hvertices, hindices⟩ := h
  obtain ⟨hwalls, hprint⟩ := @Motion.invariant K _ _ _ F f hf mesh.shape
  have hsame : mesh'.shape.vertices = (mesh.shape.map f).vertices := hvertices
  refine ⟨?_, fun profile => Iff.trans ?_ (hprint profile)⟩
  · rw [← hwalls, minAxisExtent, minAxisExtent, hsame]
  · simp only [Printable, analyzeOrientation_perm hsame (triangles_perm hvertices hindices)]

/-! ### The verdict -/

/-- The check of the walls. -/
def WallOk (shape : Shape K) (profile : PrintProfile K) : Prop :=
  (profile.minWallM : WithTop K) ≤ minAxisExtent shape + ((1 / 10 ^ 12 : K) : WithTop K)

omit [IsStrictOrderedRing K] in
theorem passed_iff (shape : Shape K) (profile : PrintProfile K) :
    (analyzeProfile F shape (minAxisExtent shape) profile).passed ↔
      WallOk shape profile ∧ Printable F shape profile := by
  rw [← bestOrientation_passes]
  simp only [analyzeProfile, Bool.and_eq_true, decide_eq_true_eq, WallOk, OrientationAnalysis.Passes, and_assoc]

omit [IsStrictOrderedRing K] in
theorem Relaxed.wallOk (h : Relaxed profile wider) {shape : Shape K} (hwall : WallOk shape profile) :
    WallOk shape wider :=
  (WithTop.coe_le_coe.mpr h.wall).trans hwall

/-- **The verdict on a mesh.** It passes for a profile exactly when its walls pass and some orientation passes all
other checks. A moved mesh passes for the same profiles and has the same walls, and a mesh that passes for a profile
passes for all that are wider. -/
theorem analyzeMesh_verdict (F : Functions K) (mesh : MeshBuffers K) (profiles : List (PrintProfile K)) :
    List.Forall₂ (fun profile a => a.passed ↔ WallOk mesh.shape profile ∧ Printable F mesh.shape profile) profiles
      (analyzeMesh F mesh profiles) ∧
    (∀ mesh', Moved mesh mesh' → (analyzeMesh F mesh' profiles).map (fun a => (a.passed, a.minWallM)) =
      (analyzeMesh F mesh profiles).map fun a => (a.passed, a.minWallM)) ∧
    ∀ wider, List.Forall₂ Relaxed profiles wider →
      List.Forall₂ (fun a b => a.passed → b.passed) (analyzeMesh F mesh profiles) (analyzeMesh F mesh wider) := by
  refine ⟨?_, fun mesh' hmoved => ?_, fun wider hwider => ?_⟩
  · rw [analyzeMesh, List.forall₂_map_right_iff]
    exact List.forall₂_same.mpr fun profile _ => passed_iff mesh.shape profile
  · obtain ⟨hwalls, hprint⟩ := @Moved.invariant K _ _ _ F mesh mesh' hmoved
    simp only [analyzeMesh, List.map_map]
    refine List.map_congr_left fun profile _ => Prod.ext (Bool.eq_iff_iff.mpr ?_) hwalls
    refine (passed_iff mesh'.shape profile).trans (Iff.trans ?_ (passed_iff mesh.shape profile).symm)
    rw [WallOk, hwalls, hprint profile, WallOk]
  · rw [analyzeMesh, analyzeMesh, List.forall₂_map_left_iff, List.forall₂_map_right_iff]
    refine hwider.imp fun {profile wider} h hpassed => ?_
    obtain ⟨hwall, hprint⟩ := (passed_iff mesh.shape profile).mp hpassed
    exact (passed_iff mesh.shape wider).mpr ⟨h.wallOk hwall, h.printable hprint⟩

end

/-! ### A table -/

/-- The plate and the foot of a table. -/
def table : MeshBuffers ℚ where
  positions := [-5, 2, -5, 5, 2, -5, 5, 2, 5, -5, 2, 5, -1 / 2, 0, -1 / 2, 1 / 2, 0, -1 / 2, 1 / 2, 0, 1 / 2,
    -1 / 2, 0, 1 / 2].map (· / 100)
  indices := [0, 1, 2, 0, 2, 3, 4, 6, 5, 4, 7, 6]
  inRange := by decide

/-- Right on the two normals of the table. -/
def tableFunctions : Functions ℚ := ⟨fun a => if a < 1 / 10 ^ 6 then 1 / 10 ^ 4 else 1 / 100, fun a => a * 90⟩

/-- A printer for small parts. -/
def smallPrinter : PrintProfile ℚ := ⟨.fdm, 1 / 1000, 45, 1 / 200, ⟨1 / 5, 1 / 5, 1 / 20⟩⟩

/-- One with a larger bed and wider limits. -/
def largePrinter : PrintProfile ℚ := ⟨.fdm, 1 / 2000, 60, 1 / 2, ⟨2 / 5, 2 / 5, 1 / 10⟩⟩

/-- The table on its side, moved along the bed, with its triangles in another order. -/
def fallenTable : MeshBuffers ℚ where
  positions := (table.vertices.map fun p => translate ⟨1 / 10, 0, 1 / 20⟩ (turn .x p)).flatMap fun p => [p.x, p.y, p.z]
  indices := [4, 7, 6, 4, 6, 5, 0, 1, 2, 0, 2, 3]
  inRange := by decide +kernel

theorem moved_fallenTable : Moved table fallenTable :=
  ⟨_, .translate ⟨1 / 10, 0, 1 / 20⟩ (.turn .x .still), by decide +kernel, by decide⟩

theorem relaxed_largePrinter : Relaxed smallPrinter largePrinter := by
  constructor <;> decide +kernel

/-- The verdict on the table, and what it says of the fallen table and the larger printer. -/
theorem table_verdict :
    List.Forall₂ (fun profile a => a.passed ↔
      WallOk table.shape profile ∧ Printable tableFunctions table.shape profile) [smallPrinter, largePrinter]
      (analyzeMesh tableFunctions table [smallPrinter, largePrinter]) ∧
    (analyzeMesh tableFunctions fallenTable [smallPrinter]).map (fun a => (a.passed, a.minWallM)) =
      (analyzeMesh tableFunctions table [smallPrinter]).map (fun a => (a.passed, a.minWallM)) ∧
    List.Forall₂ (fun a b => a.passed → b.passed) (analyzeMesh tableFunctions table [smallPrinter])
      (analyzeMesh tableFunctions table [largePrinter]) := by
  obtain ⟨hverdict, -, -⟩ := analyzeMesh_verdict tableFunctions table [smallPrinter, largePrinter]
  obtain ⟨-, hmoved, hrelaxed⟩ := analyzeMesh_verdict tableFunctions table [smallPrinter]
  exact ⟨hverdict, hmoved fallenTable moved_fallenTable, hrelaxed [largePrinter] (.cons relaxed_largePrinter .nil)⟩

example : (analyzeMesh tableFunctions table [smallPrinter]).map
    (fun a => (a.bedFitOk, a.overhangOk, a.supportOk, a.maxOverhangDeg)) = [(true, false, false, 90)] := by
  decide +kernel

end Forge.Geometry.Dfm
