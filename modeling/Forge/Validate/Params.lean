import Forge.Contract.Codec

/-!
# Driver parameters

`check_driver_params` (`params.rs`): the schema that each archetype's driver has for
`driver.params`. Every field has a default and further members are tolerated. The errors
of serde are left out: an error says which archetype's parameters did not parse.
-/

namespace Forge.Validate

open Contract

def multirotorParams :=
  Fields.cons (.defaulted "tiltMaxRad" .double 0.4) <|
  .cons (.defaulted "yawRate" .double 2.4) <|
  .cons (.defaulted "mixer" .string "x4") .nil

def roverParams :=
  Fields.cons (.defaulted "wheelbaseM" .double 0.2) <|
  .cons (.defaulted "maxSpeedMs" .double 1.0) .nil

def quadrupedParams :=
  Fields.cons (.defaulted "standHeightM" .double 0.22) <|
  .cons (.defaulted "strideM" .double 0.18) <|
  .cons (.defaulted "cadenceHz" .double 2.0) <|
  .cons (.defaulted "duty" .double 0.5) <|
  .cons (.defaulted "liftM" .double 0.05) <|
  .cons (.defaulted "yawRate" .double 1.2) .nil

def armParams :=
  Fields.cons (.defaulted "targetM" triple ⟨0.0, -0.10, 0.32⟩) <|
  .cons (.defaulted "jointNodes" (.list .string) []) <|
  .cons (.defaulted "endEffectorNode" (.option .string) none) <|
  .cons (.defaulted "damping" .double 0.08) <|
  .cons (.defaulted "stepGain" .double 0.85) <|
  .cons (.defaulted "maxStepRad" .double 0.12) <|
  .cons (.defaulted "iterations" .uint64 32) <|
  .cons (.defaulted "reachToleranceM" .double 0.02) <|
  .cons (.defaulted "postureBiasRad" .double 0.0) .nil

/-- Whether the members of an object parse as these fields. -/
def parses {β : Type} (fs : Fields β) (ms : List (String × Json)) (archetype : String) : Except String Unit :=
  if (fs.ofObject ms).isSome then .ok () else .error (archetype ++ " params")

/-- `check_driver_params` -/
def checkDriverParams (spec : ModelSpec) : Except String Unit :=
  match spec.driver.params with
  | .null => .ok ()
  | .object ms =>
    match spec.driver.archetype with
    | .multirotor => parses multirotorParams ms "multirotor"
    | .rover => parses roverParams ms "rover"
    | .quadruped => parses quadrupedParams ms "quadruped"
    | .arm => parses armParams ms "arm"
    | .biped | .fixedwing => .ok ()
  | _ => .error "driver.params must be an object"

end Forge.Validate
