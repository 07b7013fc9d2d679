import ForgeOS.Json

/-!
The fields of pydantic models, as they are taken out of a mapping.
-/

namespace ForgeOS

open Library

/-- A required `str`. -/
def strField (raw : JsonObject) (key : String) : Option String :=
  (Dict.get? raw key).bind Json.str?

/-- A `str` with a default. -/
def strFieldOr (raw : JsonObject) (key default : String) : Option String :=
  match Dict.get? raw key with
  | some value => value.str?
  | none => some default

/-- `str | None`, by default none. -/
def optionalStrField (raw : JsonObject) (key : String) : Option (Option String) :=
  match Dict.get? raw key with
  | none => some none
  | some .null => some none
  | some value => value.str?.map some

/-- `list[str]`, by default empty. -/
def strListField (raw : JsonObject) (key : String) : Option (List String) :=
  match Dict.get? raw key with
  | none => some []
  | some (.arr items) => items.mapM Json.str?
  | some _ => none

/-- A `dict[str, Any]`, by default empty. -/
def mappingField (raw : JsonObject) (key : String) : Option JsonObject :=
  match Dict.get? raw key with
  | none => some []
  | some (.obj entries) => some entries
  | some _ => none

/-- The values pydantic takes for a `bool`. -/
def Json.laxBool? : Json → Option Bool
  | .bool value => some value
  | .int value => if value = 0 then some false else if value = 1 then some true else none
  | .float (.finite value) =>
      if value = 0 then some false else if value = 1 then some true else none
  | .str value =>
      if value.toLower ∈ ["0", "off", "f", "false", "n", "no"] then some false
      else if value.toLower ∈ ["1", "on", "t", "true", "y", "yes"] then some true
      else none
  | _ => none

/-- A `bool`, by default false. -/
def boolField (raw : JsonObject) (key : String) : Option Bool :=
  match Dict.get? raw key with
  | some value => value.laxBool?
  | none => some false

theorem mapM_str?_map (values : List String) :
    (values.map Json.str).mapM Json.str? = some values := by
  induction values with
  | nil => rfl
  | cons value rest ih =>
      rw [List.map_cons, List.mapM_cons, ih]
      rfl

theorem optionalStrField_optional {raw : JsonObject} {key : String} {value : Option String}
    (h : Dict.get? raw key = some (.optional value)) : optionalStrField raw key = some value := by
  rw [optionalStrField, h]
  cases value <;> rfl

/-- What has a required field has a member of that name. -/
theorem mem_of_strField {raw : JsonObject} {key : String}
    (h : (strField raw key).isSome = true) : ∃ entry ∈ raw, entry.1 = key := by
  unfold strField at h
  cases hvalue : Dict.get? raw key with
  | none =>
      rw [hvalue] at h
      cases h
  | some value => exact ⟨(key, value), Dict.mem_of_get? hvalue, rfl⟩

end ForgeOS
