import ContractHost.Config
import ContractHost.Decimal.Reading
import ContractHost.Json.Reader

/-!
# Configurations as text

A configuration is written as a JSON object of its settings. Reading one takes the settings that
are there and keeps the standard for the others, also inside the storage costs, and then checks
that the configuration is valid.
-/

namespace ContractHost

namespace Json

/-- A natural number as a value. -/
def ofUInt64 (n : UInt64) : Json := .number (.ofNat n.toNat)

/-- A number that is an integer of 64 bits. -/
def toUInt64? : Json → Option UInt64
  | .number n => n.toUInt64?
  | _ => none

/-- A number as a double. -/
def toBinary64? : Json → Option Binary64
  | .number n => n.toBinary64?
  | _ => none

/-- The field with a name, read by `read?`; the standard value when it is missing. -/
def field {α : Type} (fields : List (String × Json)) (name : String) (standard : α)
    (read? : Json → Option α) : Option α :=
  match fields.lookup name with
  | none => some standard
  | some value => read? value

end Json

namespace StorageCosts

/-- The names of the prices, in their order. -/
def fieldNames : List String :=
  ["delete_cost", "read_cost_flat", "read_cost_per_byte", "write_cost_flat",
    "write_cost_per_byte"]

/-- The prices as an object. -/
def toJson (costs : StorageCosts) : Json :=
  .object <| (fieldNames.map StringPart.ofString).zip
    ([costs.delete, costs.readFlat, costs.readPerByte, costs.writeFlat, costs.writePerByte].map
      Json.ofUInt64)

/-- Reads prices; those that are missing are standard. -/
def ofJson? (value : Json) : Option StorageCosts := do
  let fields ← value.fields? fieldNames
  let price (name : String) (standard : Gas) := Json.field fields name standard Json.toUInt64?
  return {
    delete := ← price "delete_cost" standard.delete
    readFlat := ← price "read_cost_flat" standard.readFlat
    readPerByte := ← price "read_cost_per_byte" standard.readPerByte
    writeFlat := ← price "write_cost_flat" standard.writeFlat
    writePerByte := ← price "write_cost_per_byte" standard.writePerByte }

/-- Reads prices from a text. -/
def ofText (text : String) : Except ConfigError StorageCosts :=
  match (Json.ofText? text).bind ofJson? with
  | some costs => .ok costs
  | none => .error .malformed

end StorageCosts

namespace Config

/-- A ratio is written positionally from five places behind the point up to sixteen before it, with
a zero after the point when whole, and with the even one of two equally near decimals. -/
def ratioLayout : Decimal.Layout where
  tie := .toEven
  positional lead := -5 ≤ lead ∧ lead ≤ 15
  pointZero := true

/-- A ratio as a value; one that is not finite has no numeral. -/
def ratioToJson (ratio : Binary64) : Json :=
  if ratio.isFinite then .number (ratioLayout.numeral ratio) else .null

/-- The names of the settings, in their order. -/
def fieldNames : List String := ["basic_gas", "gas_ratio", "max_call_depth", "storage"]

/-- The settings as an object. -/
def toJson (config : Config) : Json :=
  .object <| (fieldNames.map StringPart.ofString).zip
    [Json.ofUInt64 config.basicGas, ratioToJson config.gasRatio,
      Json.ofUInt64 config.maxCallDepth, config.storage.toJson]

/-- The settings as a text without blanks. -/
def text (config : Config) : String := String.ofList config.toJson.text

/-- Reads settings; those that are missing are standard. -/
def ofJson? (value : Json) : Option Config := do
  let fields ← value.fields? fieldNames
  return {
    basicGas := ← Json.field fields "basic_gas" standard.basicGas Json.toUInt64?
    gasRatio := ← Json.field fields "gas_ratio" standard.gasRatio Json.toBinary64?
    maxCallDepth := ← Json.field fields "max_call_depth" standard.maxCallDepth Json.toUInt64?
    storage := ← Json.field fields "storage" standard.storage StorageCosts.ofJson? }

/-- Reads a valid configuration from a text. -/
def ofText (text : String) : Except ConfigError Config :=
  match (Json.ofText? text).bind ofJson? with
  | none => .error .malformed
  | some config =>
    match config.validate with
    | .error cause => .error cause
    | .ok _ => .ok config

end Config

end ContractHost
