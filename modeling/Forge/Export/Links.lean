import Forge.Geometry.Bake

/-!
# The links of a URDF export

`to_urdf` writes one `<link>` for every skeleton node: its escaped name, then the inertial and
the shapes of the baked parts on the node. What stands between the tags (`LinkBody`) is
computed from the physical parts, the baked parts and the name of the node, and from nothing
else, so that it is a parameter here.
-/

namespace Forge.Export

open Contract Forge.Geometry

/-- `s.replace(c, by)` for a single character. -/
def replaceChar (c : Char) (text : List Char) (s : List Char) : List Char :=
  s.flatMap fun x => if x = c then text else [x]

/-- `xml_escape` -/
def xmlEscape (s : String) : List Char :=
  replaceChar '"' "&quot;".toList (replaceChar '>' "&gt;".toList (replaceChar '<' "&lt;".toList
    (replaceChar '&' "&amp;".toList s.toList)))

/-- The lines of a link between its tags. -/
abbrev LinkBody : Type := List (String × Part) → List BakedPart → String → List Char

variable {K : Type} [DivisionRing K]

/-- The link of one node. -/
def urdfLink (body : LinkBody) (spec : ModelSpec) (baked : BakedModel K) (node : Node) : List Char :=
  "  <link name=\"".toList ++ xmlEscape node.name ++ "\">\n".toList ++
    body spec.physicalPartsWithPaths baked.parts node.name ++ "  </link>\n".toList

/-- The links of `to_urdf`, in the order of the skeleton. -/
def urdfLinks (body : LinkBody) (spec : ModelSpec) (baked : BakedModel K) : List (List Char) :=
  spec.skeleton.map (urdfLink body spec baked)

end Forge.Export
