import Mathlib
import ContractHost.Config.Text
import ContractHost.Proofs.Json.Text

/-!
# Configurations and their texts

A record is written under its field names and read by looking its fields up (`fields?_record`), so it
comes back field by field, in whatever order they are looked up and whatever the standard values are. With
numbers of 64 bits, which read back, and a ratio that does, so does a whole valid configuration; and no
other than valid configurations are read from any text.
-/

namespace ContractHost

open Decimal (isWhole_digits)

theorem StringPart.decode_map_char (cs : List Char) : decode (cs.map char) = some cs := by
  induction cs with
  | nil => rfl
  | cons c cs ih =>
    rw [List.map_cons, decode, ih]
    rfl

theorem StringPart.decode_ofString (s : String) : decode (ofString s) = some s.toList :=
  decode_map_char s.toList

namespace Json

/-! ## Records -/

/-- Values under the names of their fields. -/
def record (names : List String) (values : List Json) : Json :=
  object ((names.map StringPart.ofString).zip values)

theorem wellFormed_record {names : List String} {values : List Json}
    (printable : names.all fun name => name.toList.all fun c => decide (32 ≤ c.toNat))
    (each : ∀ value ∈ values, value.WellFormed) : (record names values).WellFormed := by
  refine .object (fun member inside part among => ?_) fun member inside =>
    each _ (List.of_mem_zip inside).2
  obtain ⟨name, known, written⟩ := List.mem_map.1 (List.of_mem_zip inside).1
  rw [← written] at among
  obtain ⟨c, place, rfl⟩ := List.mem_map.1 among
  have visible : 32 ≤ c.toNat :=
    of_decide_eq_true (List.all_eq_true.1 (List.all_eq_true.1 printable name known) c place)
  exact visible

theorem mapM_decode_record (names : List String) (values : List Json) :
    (((names.map StringPart.ofString).zip values).mapM fun (key, value) =>
      (StringPart.decode key).map fun cs => (String.ofList cs, value)) = some (names.zip values) := by
  induction names generalizing values with
  | nil => rfl
  | cons name names ih =>
    cases values with
    | nil => rfl
    | cons value values =>
      rw [List.map_cons, List.zip_cons_cons, List.mapM_cons, ih]
      show ((StringPart.decode (StringPart.ofString name)).map _ >>= _) = _
      rw [StringPart.decode_ofString, Option.map_some, String.ofList_toList]
      rfl

/-- All the fields of a record are found under their names. -/
theorem fields?_record {names : List String} (nodup : names.Nodup) {values : List Json}
    (full : names.length ≤ values.length) :
    (record names values).fields? names = some (names.zip values) := by
  have known : (names.zip values).filter (fun field => field.1 ∈ names) = names.zip values :=
    List.filter_eq_self.2 fun field inside => decide_eq_true (List.of_mem_zip inside).1
  rw [record, fields?, mapM_decode_record, Option.bind_eq_bind, Option.bind_some]
  show (if (((names.zip values).filter fun field => field.1 ∈ names).map Prod.fst).Nodup then
    some ((names.zip values).filter fun field => field.1 ∈ names) else none) = _
  rw [known, List.map_fst_zip full, if_pos nodup]

theorem lookup_of_mem {fields : List (String × Json)} (nodup : (fields.map Prod.fst).Nodup)
    {name : String} {value : Json} (inside : (name, value) ∈ fields) :
    fields.lookup name = some value := by
  induction fields with
  | nil => cases inside
  | cons first fields ih =>
    obtain ⟨other, unlike⟩ := first
    rw [List.map_cons, List.nodup_cons] at nodup
    rcases List.mem_cons.1 inside with same | later
    · cases same
      exact List.lookup_cons_self
    · have differs : name ≠ other := by
        rintro rfl
        exact nodup.1 (List.mem_map.2 ⟨_, later, rfl⟩)
      rw [List.lookup_cons, beq_false_of_ne differs]
      exact ih nodup.2 later

/-- A field of a record is read, and its standard value not needed. -/
theorem field_record {α : Type} {names : List String} (nodup : names.Nodup) {values : List Json}
    (full : names.length ≤ values.length) {name : String} {value : Json}
    (inside : (name, value) ∈ names.zip values) (standard : α) (read? : Json → Option α) :
    field (names.zip values) name standard read? = read? value := by
  rw [← List.map_fst_zip full] at nodup
  rw [field, lookup_of_mem nodup inside]

theorem wellFormed_ofUInt64 (n : UInt64) : (ofUInt64 n).WellFormed :=
  .number (isWhole_digits n.toNat)

theorem toUInt64?_ofUInt64 (n : UInt64) : toUInt64? (ofUInt64 n) = some n :=
  Decimal.Numeral.toUInt64?_ofNat n

end Json

/-! ## Prices -/

namespace StorageCosts

/-- The prices in the order of their names. -/
def prices (costs : StorageCosts) : List Json :=
  [costs.delete, costs.readFlat, costs.readPerByte, costs.writeFlat, costs.writePerByte].map
    Json.ofUInt64

theorem toJson_eq_record (costs : StorageCosts) :
    costs.toJson = Json.record fieldNames costs.prices :=
  rfl

theorem nodup_fieldNames : fieldNames.Nodup := by decide

theorem wellFormed_toJson (costs : StorageCosts) : costs.toJson.WellFormed := by
  refine Json.wellFormed_record (by decide) fun value inside => ?_
  obtain ⟨price, -, rfl⟩ := List.mem_map.1 inside
  exact Json.wellFormed_ofUInt64 price

theorem ofJson?_toJson (costs : StorageCosts) : ofJson? costs.toJson = some costs := by
  have full : fieldNames.length ≤ costs.prices.length := Nat.le_refl 5
  have price {name : String} {price : Gas}
      (inside : (name, Json.ofUInt64 price) ∈ fieldNames.zip costs.prices) (standard : Gas) :
      Json.field (fieldNames.zip costs.prices) name standard Json.toUInt64? = some price :=
    (Json.field_record nodup_fieldNames full inside standard _).trans (Json.toUInt64?_ofUInt64 price)
  have delete := price (.head _) standard.delete
  have readFlat := price (.tail _ (.head _)) standard.readFlat
  have readPerByte := price (.tail _ (.tail _ (.head _))) standard.readPerByte
  have writeFlat := price (.tail _ (.tail _ (.tail _ (.head _)))) standard.writeFlat
  have writePerByte := price (.tail _ (.tail _ (.tail _ (.tail _ (.head _))))) standard.writePerByte
  rw [ofJson?, toJson_eq_record, Json.fields?_record nodup_fieldNames full]
  simp only [Option.bind_eq_bind, Option.bind_some, delete, readFlat, readPerByte, writeFlat,
    writePerByte]
  rfl

end StorageCosts

/-! ## Settings -/

namespace Config

/-- The settings in the order of their names. -/
def settings (config : Config) : List Json :=
  [Json.ofUInt64 config.basicGas, ratioToJson config.gasRatio, Json.ofUInt64 config.maxCallDepth,
    config.storage.toJson]

theorem toJson_eq_record (config : Config) :
    config.toJson = Json.record fieldNames config.settings :=
  rfl

theorem nodup_fieldNames : fieldNames.Nodup := by decide

theorem wellFormed_ratioToJson (ratio : Binary64) : (ratioToJson ratio).WellFormed := by
  rw [ratioToJson]
  split
  · exact .number (ratioLayout.isWhole_numeral ratio)
  · exact .null

theorem wellFormed_toJson (config : Config) : config.toJson.WellFormed := by
  refine Json.wellFormed_record (by decide) ?_
  rw [List.forall_mem_cons, List.forall_mem_cons, List.forall_mem_cons, List.forall_mem_singleton]
  exact ⟨Json.wellFormed_ofUInt64 _, wellFormed_ratioToJson _, Json.wellFormed_ofUInt64 _,
    config.storage.wellFormed_toJson⟩

theorem ofJson?_toJson {config : Config}
    (ratio : (ratioToJson config.gasRatio).toBinary64? = some config.gasRatio) :
    ofJson? config.toJson = some config := by
  have full : fieldNames.length ≤ config.settings.length := Nat.le_refl 4
  have setting {α : Type} {name : String} {value : Json}
      (inside : (name, value) ∈ fieldNames.zip config.settings) (standard : α)
      (read? : Json → Option α) :
      Json.field (fieldNames.zip config.settings) name standard read? = read? value :=
    Json.field_record nodup_fieldNames full inside standard read?
  have basicGas := setting (.head _) standard.basicGas Json.toUInt64?
  have gasRatio := setting (.tail _ (.head _)) standard.gasRatio Json.toBinary64?
  have maxCallDepth := setting (.tail _ (.tail _ (.head _))) standard.maxCallDepth Json.toUInt64?
  have storage :=
    setting (.tail _ (.tail _ (.tail _ (.head _)))) standard.storage StorageCosts.ofJson?
  rw [Json.toUInt64?_ofUInt64] at basicGas maxCallDepth
  rw [ratio] at gasRatio
  rw [StorageCosts.ofJson?_toJson] at storage
  rw [ofJson?, toJson_eq_record, Json.fields?_record nodup_fieldNames full]
  simp only [Option.bind_eq_bind, Option.bind_some, basicGas, gasRatio, maxCallDepth, storage]
  rfl

theorem validate_of_ofText {text : String} {config : Config} (read : ofText text = .ok config) :
    config.validate = .ok () := by
  unfold ofText at read
  split at read
  · cases read
  · split at read
    · cases read
    · rename_i valid
      cases read
      exact valid

/-- A valid configuration whose ratio reads back is read from its text as it was, whatever its
numbers are; and whatever text is read, the configuration is valid. -/
theorem ofText_inverts_text :
    (∀ config : Config, config.validate = .ok () →
      (ratioToJson config.gasRatio).toBinary64? = some config.gasRatio →
      ofText config.text = .ok config) ∧
    ∀ (text : String) (config : Config), ofText text = .ok config → config.validate = .ok () := by
  refine ⟨fun config valid ratio => ?_, fun text config read => validate_of_ofText read⟩
  rw [ofText, text, Json.ofText?_text config.wellFormed_toJson, Option.bind_some,
    ofJson?_toJson ratio]
  dsimp only
  rw [valid]

/-- The largest numbers everywhere, and a tenth of the raw gas. -/
def largest : Config where
  basicGas := 0xffffffffffffffff
  gasRatio := ⟨0x3fb999999999999a⟩
  maxCallDepth := 0xffffffffffffffff
  storage :=
    { delete := 0xffffffffffffffff
      readFlat := 0xffffffffffffffff
      readPerByte := 0xffffffffffffffff
      writeFlat := 0xffffffffffffffff
      writePerByte := 0xffffffffffffffff }

theorem ofText_inverts_text_largest :
    largest.validate = .ok () ∧
    (ratioToJson largest.gasRatio).toBinary64? = some largest.gasRatio ∧
    ofText largest.text = .ok largest := by
  have valid : largest.validate = .ok () := rfl
  have ratio : (ratioToJson largest.gasRatio).toBinary64? = some largest.gasRatio := by
    decide +kernel
  have read := ofText_inverts_text.1 largest valid ratio
  exact ⟨ofText_inverts_text.2 largest.text largest read, ratio, read⟩

end Config

end ContractHost
