import CarrierTape.Log
import CarrierTape.Record
import CarrierTape.Script.NumberFormat

/-!
Settings of the program, and what makes them invalid.
-/

namespace CarrierTape

structure Config where
  /-- As it was given; scripts have at most `maxDecimals`. -/
  decimals : UInt8
  layers : LayerMap
  level : String
deriving DecidableEq

inductive LayerSetting where
  | tapeBody
  | holes
  | parts
deriving DecidableEq

def LayerSetting.name : LayerSetting → String
  | .tapeBody => "layers.tape_body"
  | .holes => "layers.holes"
  | .parts => "layers.parts"

inductive ConfigProblem where
  | tooManyDecimals (given : UInt8)
  /-- Layer numbers start at one. -/
  | layerZero (setting : LayerSetting)
  | unknownLevel (given : String)
deriving DecidableEq

def ConfigProblem.message : ConfigProblem → String
  | .tooManyDecimals given =>
    "output.decimals must be at most " ++ maxDecimals.repr ++ ", got " ++ given.toNat.repr
  | .layerZero setting => setting.name ++ " must be a layer number from 1 to 255"
  | .unknownLevel given =>
    "Invalid log level '" ++ given ++ "'. Must be one of: " ++
      ", ".intercalate (LogLevel.all.map LogLevel.name)

namespace Config

def standard : Config :=
  ⟨4, .standard, "warn"⟩

def numberFormat (c : Config) : NumberFormat :=
  .ofDecimals c.decimals.toNat

/-- The level that the settings name, or `warn`. -/
def logLevel (c : Config) : LogLevel :=
  (LogLevel.ofName? c.level).getD .warn

def layerSettings (c : Config) : List (LayerSetting × Option Layer) :=
  [(.tapeBody, some c.layers.tapeBody), (.holes, some c.layers.holes), (.parts, c.layers.parts)]

def problem? (c : Config) : Option ConfigProblem :=
  if maxDecimals < c.decimals.toNat then some (.tooManyDecimals c.decimals)
  else match c.layerSettings.find? (·.2 = some 0) with
    | some (setting, _) => some (.layerZero setting)
    | none => if (LogLevel.ofName? c.level).isSome then none else some (.unknownLevel c.level)

def Valid (c : Config) : Prop :=
  c.problem? = none

instance (c : Config) : Decidable c.Valid :=
  inferInstanceAs (Decidable (_ = _))

end Config

end CarrierTape
