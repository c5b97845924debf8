import TensorBind.Fault
import TensorBind.Number.Integer
import TensorBind.Shape
import TensorBind.Text.Quoted
import TensorBind.Text.Whitespace
import TensorBind.Topology

/-!
# Client options

A client is made from options, aotc's `HostClientOptions`: a platform name, a
kind of device, the number of devices, the node id and the memory limit of
each device. Two of these can be set by environment variables
(`ClientOptions.overlay`); the value of a variable is a natural number with
or without white space around it.
-/

namespace TensorBind

/-- **The description of a client**, aotc's `HostClientOptions`. -/
structure ClientOptions where
  /-- The name of the platform. -/
  platformName : String
  /-- The kind of the devices. -/
  deviceKind : String
  /-- How many devices there are. -/
  deviceCount : Nat
  /-- The node id: device ids start at this many times the number of
  devices. -/
  nodeId : Nat
  /-- The byte budget of a device, if it has one. -/
  memoryLimit : Option Nat
deriving DecidableEq

/-- Why the value of a variable is refused. -/
structure SettingError where
  /-- The name of the variable. -/
  variableName : String
  /-- Its value. -/
  value : String
  /-- Why the value is not a number. -/
  cause : IntegerFault
deriving DecidableEq

namespace SettingError

/-- The wording of the cause, which quotes the value. -/
def reason (e : SettingError) : String :=
  e.variableName ++ " must be a non-negative integer, got "
    ++ Text.quote e.value ++ ": " ++ e.cause.message

/-- The fault a caller is shown. -/
def toFault (e : SettingError) : Fault := ⟨.invalidArgument, e.reason⟩

end SettingError

namespace ClientOptions

/-- One device of the host platform without a memory limit. -/
def default : ClientOptions :=
  ⟨Topology.hostPlatform, "host_device", 1, 0, none⟩

/-- The variable that sets the number of devices, aotc's
`DEVICE_COUNT_VAR`. -/
def deviceCountVariable : String := "AOTC_HOST_DEVICE_COUNT"

/-- The variable that sets the memory limit, aotc's `MEMORY_LIMIT_VAR`. -/
def memoryLimitVariable : String := "AOTC_HOST_MEMORY_LIMIT"

/-- aotc's `parse_var`: the number that a variable is set to. -/
def readSetting (variableName value : String) :
    Except SettingError Nat :=
  (Integer.readNat largestSize (Text.trim value.toList)).mapError
    fun cause => ⟨variableName, value, cause⟩

/-- **aotc's `overlay`**: the options with those variables that are set in
place of their values. -/
def overlay (options : ClientOptions) (lookup : String → Option String) :
    Except SettingError ClientOptions := do
  let options ← match lookup deviceCountVariable with
    | none => pure options
    | some value =>
      pure { options with
        deviceCount := ← readSetting deviceCountVariable value }
  match lookup memoryLimitVariable with
  | none => pure options
  | some value =>
    pure { options with
      memoryLimit := some (← readSetting memoryLimitVariable value) }

end ClientOptions

end TensorBind
