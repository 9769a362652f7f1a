import ContractHost.Decimal.Layout
import ContractHost.Gas.StorageCosts

/-!
# Configuration

The settings of a host: what every dispatch costs, how the gas that methods ask for is scaled, how
deep calls may nest, and what storage costs. A configuration is valid when the ratio is a number
that is not below zero and at least one call may run.
-/

namespace ContractHost

/-- The settings of a host. -/
structure Config where
  basicGas : Gas
  gasRatio : Binary64
  maxCallDepth : UInt64
  storage : StorageCosts
deriving DecidableEq, Repr

/-- Why a configuration is refused. -/
inductive ConfigError where
  /-- The text is no configuration. -/
  | malformed
  | invalidGasRatio (ratio : Binary64)
  | invalidCallDepth
deriving DecidableEq, Repr

namespace Config

/-- The settings that hold unless configured otherwise. -/
def standard : Config where
  basicGas := 21000
  gasRatio := ⟨0x3ff0000000000000⟩
  maxCallDepth := 128
  storage := .standard

instance : Inhabited Config := ⟨standard⟩

/-- The ratio is looked at first. -/
def validate (config : Config) : Except ConfigError Unit :=
  if !config.gasRatio.isFinite || config.gasRatio.isBelowZero then
    .error (.invalidGasRatio config.gasRatio)
  else if config.maxCallDepth = 0 then .error .invalidCallDepth
  else .ok ()

/-- What a method costs that asks for `raw` gas: the basic gas and the scaled raw gas, computed in
double precision, rounded toward zero and clamped to the range of gas. -/
def methodGas (config : Config) (raw : Gas) : Gas :=
  (config.basicGas.toFloat + raw.toFloat * config.gasRatio.toFloat).toUInt64

end Config

namespace ConfigError

/-- A ratio in a message is written positionally whatever its size, without a point when whole, and
with the larger of two equally near decimals. -/
def ratioLayout : Decimal.Layout where
  tie := .up
  positional _ := true
  pointZero := false

/-- The text of a ratio, finite or not. -/
def ratioText (ratio : Binary64) : String :=
  if ratio.isNaN then "NaN"
  else if ratio.isFinite then String.ofList (ratioLayout.numeral ratio).text
  else if ratio.isNegative then "-inf"
  else "inf"

/-- Why a configuration is refused, in words. -/
def message : ConfigError → String
  | malformed => "failed to parse config"
  | invalidGasRatio ratio => s!"invalid gas ratio: {ratioText ratio}"
  | invalidCallDepth => "max call depth must be at least 1"

end ConfigError

end ContractHost
