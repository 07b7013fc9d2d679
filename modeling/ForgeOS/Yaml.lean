import ForgeOS.JsonReading

/-!
YAML: the values that `yaml.safe_load` makes of a text, and the files of the
stores. The stores are dumped with `allow_unicode`, so that a line break of
Unicode stands in the file as it is, and it is for PyYAML to say what the text
around it is when the file is loaded again.
-/

namespace ForgeOS

open Library

inductive YamlKey where
  | str (value : String)
  | binary (content : List UInt8)
  /-- Any other key. -/
  | other (repr : String)
deriving DecidableEq, Repr

/-- What `yaml.safe_load` makes of a text. -/
inductive YamlValue where
  | null
  | bool (value : Bool)
  | int (value : Int)
  | float (value : PyFloat)
  | str (value : String)
  | binary (content : List UInt8)
  /-- A date, a time or a set. -/
  | other (repr : String)
  | seq (items : List YamlValue)
  | map (entries : List (YamlKey × YamlValue))
deriving Repr

abbrev YamlMapping := Dict YamlKey YamlValue

mutual

def Json.toYaml : Json → YamlValue
  | .null => .null
  | .bool value => .bool value
  | .int value => .int value
  | .float value => .float value
  | .str value => .str value
  | .arr items => .seq (Json.toYamlItems items)
  | .obj entries => .map (Json.toYamlEntries entries)

def Json.toYamlItems : List Json → List YamlValue
  | [] => []
  | item :: rest => item.toYaml :: Json.toYamlItems rest

def Json.toYamlEntries : List (String × Json) → List (YamlKey × YamlValue)
  | [] => []
  | entry :: rest => (.str entry.1, entry.2.toYaml) :: Json.toYamlEntries rest

end

theorem toYamlEntries_eq (entries : JsonObject) :
    Json.toYamlEntries entries = entries.map fun entry => (.str entry.1, entry.2.toYaml) := by
  induction entries with
  | nil => rfl
  | cons entry rest ih => rw [Json.toYamlEntries, ih, List.map_cons]

/-! ### Files -/

/-- What stands in a YAML file that is to hold a document of some model. -/
inductive YamlFile (δ : Type) where
  | absent
  /-- Bytes that reading raises a `ValueError` on, as when they are not UTF-8. -/
  | unreadable (content : List UInt8)
  | invalidYaml (content : List UInt8)
  /-- YAML without a value, as in an empty file. -/
  | blank (content : List UInt8)
  | notMapping (content : List UInt8)
  /-- A mapping that the model refuses, with its complaint. -/
  | invalidDocument (content : List UInt8) (complaint : String)
  | decoded (document : δ)

/-- A field of a model that takes any data. -/
abbrev Metadata := Dict String YamlValue

/-- JSON data in such a field. -/
def JsonObject.metadata (data : JsonObject) : Metadata :=
  data.map fun entry => (entry.1, entry.2.toYaml)

/-- Texts and lists of texts. -/
def Json.isTexts : Json → Bool
  | .str _ => true
  | .arr items => items.all fun item => item.str?.isSome
  | _ => false

def JsonObject.isTexts (data : JsonObject) : Bool := data.all fun entry => entry.2.isTexts

/-- What is loaded where some data has been dumped, by `yaml.safe_dump` with
`allow_unicode`. A text need not be what it was, for U+0085 is written as it is
and can be read as a blank. -/
structure YamlHost where
  text : String → String
  /-- Tags, which are normalized once more when they are loaded. -/
  tags : List String → List String
  object : JsonObject → JsonObject
  /-- Before the dump, `model_dump` makes JSON of dates and other data, or it
  raises, as it does on bytes that are not UTF-8. -/
  metadata : Metadata → Option Metadata
  text_printable (value : String) : value.toList.all isPrintable = true → text value = value
  /-- Data of texts comes back if they do, the keys among them. -/
  object_of_texts (data : JsonObject) : (data.map Prod.fst).Nodup → data.isTexts = true →
    (∀ value ∈ Json.stringsOfEntries data, text value = value) → object data = data
  metadata_nil : metadata [] = some []
  /-- Texts are dumped, and come back as texts. -/
  metadata_texts (data : JsonObject) : data.isTexts = true →
    ∃ reread : JsonObject, metadata data.metadata = some reread.metadata ∧ reread.isTexts = true

namespace YamlHost

/-- All data comes back as it was. -/
def exact : YamlHost where
  text value := value
  tags tags := tags
  object data := data
  metadata data := some data
  text_printable _ _ := rfl
  object_of_texts _ _ _ _ := rfl
  metadata_nil := rfl
  metadata_texts data h := ⟨data, rfl, h⟩

/-- What PyYAML does to U+0085 between two other characters: it reads a blank. -/
def foldText (value : String) : String :=
  String.ofList (value.toList.map fun c => if c = Char.ofNat 0x85 then ' ' else c)

theorem foldText_printable {value : String} (h : value.toList.all isPrintable = true) :
    foldText value = value := by
  have hsame : (value.toList.map fun c => if c = Char.ofNat 0x85 then ' ' else c) =
      value.toList := by
    refine (List.map_congr_left fun c hc => if_neg ?_).trans (List.map_id _)
    rintro rfl
    exact absurd (List.all_eq_true.mp h _ hc) (by decide)
  rw [foldText, hsame, String.ofList_toList]

/-- The texts of an object folded, not those inside of its values. -/
def foldObject (data : JsonObject) : JsonObject :=
  data.map fun entry => (foldText entry.1, match entry.2 with
    | .str value => .str (foldText value)
    | value => value)

theorem foldObject_eq_self {data : JsonObject}
    (h : ∀ value ∈ Json.stringsOfEntries data, foldText value = value) :
    foldObject data = data := by
  refine (List.map_congr_left fun entry hentry => ?_).trans (List.map_id _)
  have hkey := h entry.1 (Json.mem_stringsOfEntries.mpr ⟨entry, hentry, .inl rfl⟩)
  have hvalue (value : String) (hvalue : value ∈ entry.2.strings) : foldText value = value :=
    h value (Json.mem_stringsOfEntries.mpr ⟨entry, hentry, .inr hvalue⟩)
  obtain ⟨key, value⟩ := entry
  cases value with
  | str value =>
      exact Prod.ext hkey (congrArg Json.str (hvalue value (List.mem_singleton.mpr rfl)))
  | _ => exact Prod.ext hkey rfl

theorem isTexts_foldObject {data : JsonObject} (h : data.isTexts = true) :
    (foldObject data).isTexts = true := by
  rw [JsonObject.isTexts, List.all_eq_true] at h ⊢
  rw [foldObject, List.forall_mem_map]
  intro entry hentry
  have hvalue := h entry hentry
  obtain ⟨key, value⟩ := entry
  cases value with
  | str value => rfl
  | _ => exact hvalue

/-- A host that folds texts in this way, and reads a date as the text of it. -/
def folding : YamlHost where
  text := foldText
  tags tags := tags.map foldText
  object := foldObject
  metadata data := some (data.map fun entry => (foldText entry.1, match entry.2 with
    | .str value | .other value => .str (foldText value)
    | value => value))
  text_printable _ h := foldText_printable h
  object_of_texts _ _ _ h := foldObject_eq_self h
  metadata_nil := rfl
  metadata_texts data h := by
    refine ⟨foldObject data, congrArg some ?_, isTexts_foldObject h⟩
    rw [JsonObject.metadata, JsonObject.metadata, foldObject, List.map_map, List.map_map]
    refine List.map_congr_left fun entry _ => ?_
    obtain ⟨key, value⟩ := entry
    cases value <;> rfl

end YamlHost

end ForgeOS
