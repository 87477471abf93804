import Forge.Contract.Model
import Forge.Data.Except
import Forge.Data.Scan

/-!
# The URDF and MJCF importers

`interop.rs`: a scanner that finds elements and attributes by searching for text, the two
importers that it feeds, and the contract that is made of what they found. The scanner neither
balances tags nor reads escapes. Texts are lists of characters until they are names of nodes.
-/

namespace Forge.Interop

open Contract Text

/-! ### The scanner -/

/-- `Element` -/
structure Element where
  /-- The opening tag. -/
  «open» : List Char
  /-- What stands between the tags. -/
  body : List Char

/-- The rounds of `elements`. -/
def elementsFrom (openPat closePat : List Char) : ℕ → List Char → List Element
  | 0, _ => []
  | fuel + 1, rest =>
    match cut openPat rest with
    | none => []
    | some (_, after) =>
      match cut ['>'] (openPat ++ after) with
      | none => []
      | some (tag, afterOpen) =>
        match cut closePat afterOpen with
        | none => elementsFrom openPat closePat fuel afterOpen
        | some (body, rest) => ⟨tag ++ ['>'], body⟩ :: elementsFrom openPat closePat fuel rest

/-- `elements`: every round takes an opening tag away, so that there are fewer rounds than characters. -/
def elements (xml : List Char) (tag : String) : List Element :=
  elementsFrom ('<' :: tag.toList) ('<' :: '/' :: tag.toList ++ ['>']) xml.length xml

/-- `attr` -/
def attr (text : List Char) (pat name : String) : Option (List Char) :=
  (cut pat.toList text).bind fun p =>
    (cut (name.toList ++ ['=', '"']) (pat.toList ++ p.2)).bind fun q => (cut ['"'] q.2).map Prod.fst

/-- `child_text_attr` -/
def childTextAttr (body : List Char) (tag name : String) : Option (List Char) := attr body ("<" ++ tag) name

/-- `parse_numbers` -/
def parseNumbers (value : List Char) : Option (List Float) :=
  ((words value).mapM parseFloat).bind fun values =>
    if values.isEmpty ∨ values.any fun number => !number.isFinite then none else some values

/-- `parse_finite` -/
def parseFinite (value : List Char) : Option Float := (parseFloat value).filter Float.isFinite

/-- `parse_vec3` -/
def parseVec3 (value : List Char) : Option (Arr3 Float) :=
  match parseNumbers value with
  | some [x, y, z] => some ⟨x, y, z⟩
  | _ => none

/-- `parse_pair` -/
def parsePair (value : List Char) : Option (Arr2 Float) :=
  match parseNumbers value with
  | some [lower, upper] => some ⟨lower, upper⟩
  | _ => none

/-- `parse_limits` -/
def parseLimits (text : List Char) : Option (Arr2 Float) :=
  ((attr text "<limit" "lower").bind parseFinite).bind fun lower =>
    ((attr text "<limit" "upper").bind parseFinite).map fun upper => ⟨lower, upper⟩

/-- `zup_to_forge` -/
def zupToForge (p : Arr3 Float) : Arr3 Float := ⟨p.x, p.z, -p.y⟩

def origin : Arr3 Float := ⟨0.0, 0.0, 0.0⟩

/-- The three numbers of an attribute, in the frame of the contract. -/
def vec3Attr (value : Option (List Char)) : Option (Arr3 Float) := (value.bind parseVec3).map zupToForge

/-- The rounds of `validate_import_xml` for one attribute: an occurrence counts where nothing or white space
stands before it. -/
def checkNumeric (format name : String) : ℕ → List Char → Except String Unit
  | 0, _ => .ok ()
  | fuel + 1, rest =>
    match cut (name.toList ++ ['=', '"']) rest with
    | none => .ok ()
    | some (before, tail) =>
      if before.getLast?.any fun c => !isWhiteSpace c then checkNumeric format name fuel tail
      else match cut ['"'] tail with
        | none => .error s!"{format} import has an unterminated {name} attribute"
        | some (raw, rest) =>
          match parseNumbers raw with
          | none => .error s!"{format} import has an invalid finite numeric {name} attribute"
          | some values =>
            if 16 < values.length then .error s!"{format} import {name} attribute is too wide"
            else checkNumeric format name fuel rest

/-- `MAX_IMPORT_XML_BYTES` -/
def maxImportXmlBytes : ℕ := 4 * 1024 * 1024

/-- The number of bytes of a text. -/
def utf8Length (s : List Char) : ℕ := (s.map Char.utf8Size).sum

/-- `validate_import_xml` -/
def validateImportXml (xml : List Char) (format : String) (numericAttrs : List String) : Except String Unit :=
  if maxImportXmlBytes < utf8Length xml then .error s!"{format} import exceeds the {maxImportXmlBytes} byte limit"
  else if '\x00' ∈ xml then .error s!"{format} import contains a NUL byte"
  else numericAttrs.forM fun name => checkNumeric format name xml.length xml

/-! ### What was found -/

/-- `ImportedNode` -/
structure ImportedNode where
  name : String
  parent : Option String
  pos : Arr3 Float
  rot : Arr3 Float
  jointKind : Option (List Char)
  jointAxis : Option (Arr3 Float)
  jointLimits : Option (Arr2 Float)

/-- `ImportedGeom` -/
structure ImportedGeom where
  node : String
  kind : List Char
  collision : Bool
  pose : Arr3 Float
  dimensions : List Float
  assetRef : Option (List Char)

/-- `ImportedSummary` -/
structure ImportedSummary where
  format : String
  model : String
  nodes : List ImportedNode
  geoms : List ImportedGeom
  actuatorCount : ℕ

/-- A node of which only the name and the place in the tree are known. -/
def bareNode (name : String) (parent : Option String) (pos : Arr3 Float) : ImportedNode :=
  { name, parent, pos, rot := origin, jointKind := none, jointAxis := none, jointLimits := none }

/-- The first node of this name, changed. -/
def updateNode (name : String) (f : ImportedNode → ImportedNode) : List ImportedNode → List ImportedNode
  | [] => []
  | n :: ns => if n.name = name then f n :: ns else n :: updateNode name f ns

/-! ### Valid nodes -/

/-- The parent of the node of this name. -/
def parentOf (nodes : List ImportedNode) (name : String) : Option String :=
  (nodes.find? fun n => n.name = name).bind ImportedNode.parent

/-- The walk from `cursor` to what is resolved already; the names on the way are new. -/
def climb (nodes : List ImportedNode) (resolved : List String) : ℕ → Option String → List String → Option (List String)
  | _, none, ancestors => some ancestors
  | 0, some _, _ => none
  | fuel + 1, some name, ancestors =>
    if name ∈ resolved then some ancestors
    else if name ∈ ancestors then none
    else climb nodes resolved fuel (parentOf nodes name) (name :: ancestors)

/-- The last loop of `validate_imported_nodes`: no walk comes back to a name that it has been at. -/
def climbAll (format : String) (nodes : List ImportedNode) : List ImportedNode → List String → Except String Unit
  | [], _ => .ok ()
  | n :: ns, resolved =>
    if n.name ∈ resolved then climbAll format nodes ns resolved
    else match climb nodes resolved (nodes.length + 1) (some n.name) [] with
      | none => .error s!"{format} import contains a parent cycle"
      | some ancestors => climbAll format nodes ns (ancestors ++ resolved)

def isBlank (s : String) : Bool := s.toList.all isWhiteSpace

/-- The checks of one node. -/
def checkNode (format : String) (nodes : List ImportedNode) (n : ImportedNode) : Except String Unit :=
  if isBlank n.name then .error s!"{format} import contains an empty node name"
  else if n.parent.any fun p => p = n.name ∨ p ∉ nodes.map ImportedNode.name then
    .error s!"{format} import node '{n.name}' has an invalid parent"
  else .ok ()

/-- `validate_imported_nodes` -/
def validateImportedNodes (nodes : List ImportedNode) (format : String) : Except String Unit :=
  if nodes.isEmpty then .error s!"{format} import produced no skeleton nodes"
  else if (nodes.map ImportedNode.name).dedup.length ≠ nodes.length then
    .error s!"{format} import contains duplicate node names"
  else do
    nodes.forM (checkNode format nodes)
    climbAll format nodes nodes []

/-! ### URDF -/

/-- `urdf_geom` -/
def urdfGeom (body : List Char) (node : String) (collision : Bool) : Option ImportedGeom :=
  let pose := (vec3Attr (childTextAttr body "origin" "xyz")).getD origin
  match (attr body "<box" "size").bind parseVec3 with
  | some size =>
    some { node, kind := "box".toList, collision, pose, dimensions := [size.x, size.z, size.y], assetRef := none }
  | none =>
    match (attr body "<cylinder" "radius").bind parseFinite, (attr body "<cylinder" "length").bind parseFinite with
    | some radius, some length =>
      some { node, kind := "cylinder".toList, collision, pose, dimensions := [radius, length], assetRef := none }
    | _, _ =>
      ((attr body "<mesh" "filename").or (attr body "<mesh" "url")).map fun assetRef =>
        { node, kind := "mesh".toList, collision, pose, dimensions := [], assetRef := some assetRef }

/-- A link: its node and its shapes. -/
def urdfLink (link : Element) : Except String (ImportedNode × List ImportedGeom) :=
  match attr link.open "<link" "name" with
  | none => .error "URDF link missing name"
  | some text =>
    let name := String.ofList text
    .ok (bareNode name none origin,
      (elements link.body "visual").filterMap (fun visual => urdfGeom visual.body name false) ++
        (elements link.body "collision").filterMap fun collision => urdfGeom collision.body name true)

/-- A joint, written into the node of its child. -/
def urdfJoint (nodes : List ImportedNode) (joint : Element) : Except String (List ImportedNode) :=
  match childTextAttr joint.body "child" "link", childTextAttr joint.body "parent" "link" with
  | none, _ => .error "URDF joint missing child"
  | _, none => .error "URDF joint missing parent"
  | some child, some parent =>
    match nodes.find? fun n => n.name = String.ofList child with
    | none => .error s!"URDF joint references missing child '{String.ofList child}'"
    | some node =>
      if node.parent.isSome then .error s!"URDF link '{String.ofList child}' has more than one parent joint"
      else .ok (updateNode (String.ofList child) (fun n =>
        { n with
          parent := some (String.ofList parent)
          jointKind := attr joint.open "<joint" "type"
          pos := (vec3Attr (childTextAttr joint.body "origin" "xyz")).getD origin
          rot := ((childTextAttr joint.body "origin" "rpy").bind parseVec3).getD origin
          jointAxis := vec3Attr (childTextAttr joint.body "axis" "xyz")
          jointLimits := parseLimits joint.body }) nodes)

/-- `import_urdf_summary` -/
def importUrdfSummary (xml : List Char) : Except String ImportedSummary := do
  validateImportXml xml "URDF" ["xyz", "rpy", "size", "radius", "length", "lower", "upper"]
  let links ← (elements xml "link").mapM urdfLink
  let nodes ← (elements xml "joint").foldlM urdfJoint (links.map Prod.fst)
  validateImportedNodes nodes "URDF"
  pure { format := "urdf", model := String.ofList ((attr xml "<robot" "name").getD "imported-urdf".toList), nodes
         geoms := links.flatMap Prod.snd, actuatorCount := occurrences "<ros2_control".toList xml.length xml }

/-! ### MJCF -/

/-- `mjcf_geom`, which gives every shape a node. -/
def mjcfGeom (tag : List Char) (node : String) : ImportedGeom :=
  let kind := (attr tag "<geom" "type").getD "unknown".toList
  let size := (attr tag "<geom" "size").bind parseNumbers
  { node, kind, collision := true, pose := (vec3Attr (attr tag "<geom" "pos")).getD origin
    dimensions :=
      if kind = "box".toList then
        match size with
        | some [x, y, z] => [2.0 * x, 2.0 * z, 2.0 * y]
        | _ => []
      else if kind = "cylinder".toList then
        match size with
        | some (radius :: half :: _) => [radius, 2.0 * half]
        | _ => []
      else []
    assetRef := attr tag "<geom" "mesh" }

/-- What the loop over the tokens of an MJCF text carries. -/
structure MjcfState where
  /-- The names of the open bodies, the innermost first. -/
  stack : List String
  nodes : List ImportedNode
  geoms : List ImportedGeom

/-- The tag that a token begins with. -/
def tagOf (token : List Char) : List Char := '<' :: token.takeWhile fun c => c ≠ '>'

/-- The four tokens that the loop looks at. -/
inductive Token where
  | close
  | body (tag : List Char)
  | joint (tag : List Char)
  | geom (tag : List Char)
  | other

def Token.ofText (text : List Char) : Token :=
  if "/body".toList.isPrefixOf text then .close
  else if "body ".toList.isPrefixOf text then .body (tagOf text)
  else if "joint ".toList.isPrefixOf text then .joint (tagOf text)
  else if "geom ".toList.isPrefixOf text then .geom (tagOf text)
  else .other

/-- `xml.split('<').skip(1)` -/
def tokens (xml : List Char) : List Token := ((xml.splitOn '<').drop 1).map Token.ofText

/-- One turn of the loop of `import_mjcf_summary`. -/
def mjcfStep (s : MjcfState) : Token → Except String MjcfState
  | .close => .ok { s with stack := s.stack.tail }
  | .body tag =>
    match attr tag "<body" "name" with
    | none => .error "MJCF body missing name"
    | some text =>
      .ok { s with
        stack := String.ofList text :: s.stack
        nodes := s.nodes ++
          [bareNode (String.ofList text) s.stack.head? ((vec3Attr (attr tag "<body" "pos")).getD origin)] }
  | .joint tag =>
    match s.stack with
    | [] => .ok s
    | current :: _ =>
      .ok { s with
        nodes := updateNode current (fun n =>
          { n with
            jointKind := attr tag "<joint" "type"
            jointAxis := vec3Attr (attr tag "<joint" "axis")
            jointLimits := (attr tag "<joint" "range").bind parsePair }) s.nodes }
  | .geom tag => .ok { s with geoms := s.geoms ++ [mjcfGeom tag (s.stack.headD "world")] }
  | .other => .ok s

/-- `import_mjcf_summary` -/
def importMjcfSummary (xml : List Char) : Except String ImportedSummary := do
  validateImportXml xml "MJCF" ["pos", "axis", "range", "size"]
  let s ← (tokens xml).foldlM mjcfStep ⟨[], [], []⟩
  validateImportedNodes s.nodes "MJCF"
  pure { format := "mjcf", model := String.ofList ((attr xml "<mujoco" "model").getD "imported-mjcf".toList)
         nodes := s.nodes, geoms := s.geoms, actuatorCount := occurrences "<motor ".toList xml.length xml }

/-! ### The contract -/

/-- `import_joint` -/
def importJoint (kind : Option (List Char)) (axis : Option (Arr3 Float)) : Joint :=
  let revolute := ["revolute".toList, "continuous".toList, "hinge".toList]
  let spherical := ["floating".toList, "free".toList, "ball".toList]
  { kind := if kind.any (· ∈ revolute) then .revolute else if kind.any (· ∈ spherical) then .spherical else .fixed
    axis, maxTorqueNm := some 10.0, maxVelRad := some 20.0 }

/-- `total_cmp` of the magnitudes of two doubles, which is the order of their bits. -/
def magnitudeLe (x y : Float) : Bool := x.abs.toBits ≤ y.abs.toBits

/-- `limits_for_axis`: of equal components the last one is the greatest. -/
def limitsForAxis (axis : Arr3 Float) (limits : Arr2 Float) : Arr3 (Arr2 Float) :=
  let free : Arr2 Float := ⟨0.0, 0.0⟩
  if magnitudeLe axis.x axis.y then
    if magnitudeLe axis.y axis.z then ⟨free, free, limits⟩ else ⟨free, limits, free⟩
  else if magnitudeLe axis.x axis.z then ⟨free, free, limits⟩
  else ⟨limits, free, free⟩

/-- `primitive_geom` -/
def primitiveGeom (geom : ImportedGeom) : Option Geom :=
  if geom.kind = "box".toList then
    match geom.dimensions with
    | w :: h :: d :: _ => some (.box w h d)
    | _ => none
  else if geom.kind = "cylinder".toList then
    match geom.dimensions with
    | r0 :: h :: _ => some (.cyl r0 none h (some 24))
    | _ => none
  else none

/-- `asset_ref` -/
def assetRef (summary : ImportedSummary) (geom : ImportedGeom) (index : ℕ) : String :=
  let role := if geom.collision then "collision" else "visual"
  s!"import://{summary.format}/{summary.model}/{geom.node}/{role}-{index}"

/-- `f64::clamp` -/
def clamp (x lower upper : Float) : Float := if x < lower then lower else if upper < x then upper else x

/-- `imported_explode` -/
def importedExplode (index total : ℕ) (collision : Bool) : Explode :=
  let side := if index % 2 = 0 then 1.0 else -1.0
  let band := if total ≤ 1 then 0.0 else Float.ofNat index / Float.ofNat total
  { dir := if index % 3 = 0 then ⟨side, 0.0, 0.0⟩ else if index % 3 = 1 then ⟨0.0, side, 0.0⟩ else ⟨0.0, 0.0, side⟩
    mag := if collision then 0.035 else 0.055
    t0 := clamp (band * 0.55) 0.0 0.9
    t1 := clamp (band * 0.55 + 0.35) 0.1 1.0
    leader := if index = 0 then some "imported assembly" else none }

/-- The distance between two nodes. -/
def distance (a b : Arr3 Float) : Float :=
  let dx := a.x - b.x
  let dy := a.y - b.y
  let dz := a.z - b.z
  (dx * dx + dy * dy + dz * dz).sqrt

/-- The greatest of `w` and the distances between two of the positions. -/
def widest : Float → List (Arr3 Float) → Float
  | w, [] => w
  | w, p :: ps => widest (ps.foldl (fun w q => if w < distance p q then distance p q else w) w) ps

/-- A double as JSON, where it is one. -/
def jsonNumber (x : Float) : Json := if h : x.isFinite = true then .number (.float x h) else .null

/-- `inferred_rover_driver_params` -/
def inferredRoverDriverParams (summary : ImportedSummary) : Json :=
  let wheels := summary.nodes.filter fun n =>
    (cut "wheel".toList (n.name.toList.map Char.toLower)).isSome ||
      n.jointKind.any (· ∈ ["revolute".toList, "continuous".toList, "hinge".toList])
  .object [("maxSpeedMs", jsonNumber (if 0 < summary.actuatorCount then 1.2 else 1.0)),
    ("wheelbaseM", jsonNumber (clamp (widest 0.2 (wheels.map ImportedNode.pos)) 0.05 5.0))]

/-- The skeleton entry of a node. -/
def importNode (n : ImportedNode) : Node :=
  { name := n.name, parent := n.parent, pos := n.pos, rot := n.rot
    limits := n.jointLimits.map (limitsForAxis (n.jointAxis.getD ⟨0.0, 1.0, 0.0⟩))
    joint := n.parent.map fun _ => importJoint n.jointKind n.jointAxis }

/-- The part of a shape. -/
def importPart (summary : ImportedSummary) (geom : ImportedGeom) (i : ℕ) : Part :=
  { node := geom.node
    geom := (primitiveGeom geom).getD (.mesh ((geom.assetRef.map String.ofList).getD (assetRef summary geom i)))
    pose := some { p := geom.pose, r := origin, s := ⟨1.0, 1.0, 1.0⟩ }
    material := if geom.collision then .rubber else .matte
    color := if geom.collision then "#4a5568" else "#9ca3af"
    explode := some (importedExplode i summary.geoms.length geom.collision)
    renderBias := none, comp := some s!"imported-{summary.format}-{i}", mass := none
    collision := if geom.collision then .primitive else .none }

/-- The part of a model without shapes. -/
def placeholder (node : String) : Part :=
  { node, geom := .box 0.1 0.1 0.1, pose := none, material := .matte, color := "#9ca3af"
    explode := some (importedExplode 0 1 false), renderBias := none, comp := some "imported-placeholder", mass := none
    collision := .primitive }

/-- `summary_to_contract` -/
def summaryToContract (summary : ImportedSummary) : Except String ModelSpec :=
  match summary.nodes with
  | [] => .error "import produced no skeleton nodes"
  | first :: _ =>
    let parts := summary.geoms.zipIdx.map fun e => importPart summary e.1 e.2
    .ok {
      «meta» := {
        id := summary.model, name := s!"Imported {summary.model}", version := schemaVersion, archetype := .rover
        provenance := { kind := .human, promptHash := none, modelVersion := some s!"{summary.format}-importer-v0"
                        seed := none }
        license := "imported-source-license-required" }
      env := .default
      skeleton := summary.nodes.map importNode
      parts := if parts.isEmpty then [placeholder first.name] else parts
      slots := [], lockfile := .empty, ports := [], chains := []
      driver := { archetype := .rover, params := inferredRoverDriverParams summary }
      sim := .default }

/-- `import_urdf_contract` -/
def importUrdfContract (xml : String) : Except String ModelSpec :=
  importUrdfSummary xml.toList >>= summaryToContract

/-- `import_mjcf_contract` -/
def importMjcfContract (xml : String) : Except String ModelSpec :=
  importMjcfSummary xml.toList >>= summaryToContract

end Forge.Interop
