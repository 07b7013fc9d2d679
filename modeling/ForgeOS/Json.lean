import ForgeOS.Library.Dict
import Mathlib.Data.Rat.Defs

/-!
JSON values as Python's `json` and `yaml` modules produce them, and the parts
of the string and sequence protocols the repository applies to them. Floats
are exact rationals, with the three non-finite values Python's decoder also
accepts.
-/

namespace ForgeOS

open Library

inductive PyFloat where
  | finite (value : ℚ)
  | nan
  | inf (negative : Bool)
deriving DecidableEq, Repr

namespace PyFloat

/-- `a < b`; nothing compares with NaN. -/
def lt : PyFloat → PyFloat → Bool
  | .finite a, .finite b => a < b
  | .finite _, .inf negative => !negative
  | .inf negative, .finite _ => negative
  | .inf a, .inf b => a && !b
  | _, _ => false

/-- `a == b`; NaN differs from itself. -/
def eq : PyFloat → PyFloat → Bool
  | .finite a, .finite b => a = b
  | .inf a, .inf b => a = b
  | _, _ => false

/-- `a <= b`. -/
def le (a b : PyFloat) : Bool := a.lt b || a.eq b

end PyFloat

inductive Json where
  | null
  | bool (value : Bool)
  | int (value : Int)
  | float (value : PyFloat)
  | str (value : String)
  | arr (items : List Json)
  | obj (entries : List (String × Json))
deriving Repr

abbrev JsonObject := Dict String Json

/-- An exception: its class and its message. -/
structure PyError where
  className : String
  message : String
deriving DecidableEq, Repr

/-- `str | None`. -/
def Json.optional : Option String → Json
  | some value => .str value
  | none => .null

/-- `isinstance(value, str)`, with the string when it is one. -/
def Json.str? : Json → Option String
  | .str value => some value
  | _ => none

/-- The number a value compares as; booleans are 0 and 1. -/
def Json.number? : Json → Option PyFloat
  | .bool value => some (.finite (if value then 1 else 0))
  | .int value => some (.finite value)
  | .float value => some value
  | _ => none

/-- `bool(value)`: zero and what is empty are false, NaN is not. -/
def Json.truthy : Json → Bool
  | .null => false
  | .bool value => value
  | .int value => value ≠ 0
  | .float value => !value.eq (.finite 0)
  | .str value => value ≠ ""
  | .arr items => !items.isEmpty
  | .obj entries => !entries.isEmpty

/-- `value or other`. -/
def Json.or (value other : Json) : Json := if value.truthy then value else other

/-- `value.get(key, default)`, which only a mapping has. -/
def Json.getOr? : Json → String → Json → Option Json
  | .obj entries, key, default => some ((Dict.get? entries key).getD default)
  | _, _, _ => none

def Json.get? (value : Json) (key : String) : Option Json := value.getOr? key .null

/-- `type(value).__name__`. -/
def Json.typeName : Json → String
  | .null => "NoneType"
  | .bool _ => "bool"
  | .int _ => "int"
  | .float _ => "float"
  | .str _ => "str"
  | .arr _ => "list"
  | .obj _ => "dict"

/-- `list(value)`: the items of a list, the characters of a string, the keys
of a mapping. Anything else is not iterable. -/
def Json.toList? : Json → Option (List Json)
  | .arr items => some items
  | .str value => some (value.toList.map fun c => .str (String.singleton c))
  | .obj entries => some (entries.map fun entry => .str entry.1)
  | _ => none

/-- The characters `str.strip` removes. -/
def isPySpace (c : Char) : Bool :=
  let code := c.toNat
  (0x09 ≤ code && code ≤ 0x0d) || (0x1c ≤ code && code ≤ 0x20) || code == 0x85 ||
    code == 0xa0 || code == 0x1680 || (0x2000 ≤ code && code ≤ 0x200a) ||
    code == 0x2028 || code == 0x2029 || code == 0x202f || code == 0x205f || code == 0x3000

/-- `c.replace("\\", "/")` makes nothing a space that was none. -/
theorem isPySpace_slash (c : Char) :
    isPySpace (if c = '\\' then '/' else c) = isPySpace c := by
  split
  · rename_i heq
    rw [heq]
    decide
  · rfl

/-- Printable ASCII. -/
def isPrintable (c : Char) : Bool := 0x20 ≤ c.toNat && c.toNat < 0x7f

/-- Where `str.splitlines` ends a line. -/
def isLineBreak (c : Char) : Bool :=
  c = '\n' || c = '\r' || c = '\x0b' || c = '\x0c' || c = '\x1c' || c = '\x1d' || c = '\x1e' ||
    c = '\x85' || c = '\u2028' || c = '\u2029'

/-- `str.strip()`, of characters. -/
def stripLine (line : List Char) : List Char :=
  ((line.dropWhile isPySpace).reverse.dropWhile isPySpace).reverse

/-- `str.strip()`. -/
def pyStrip (s : String) : String := String.ofList (stripLine s.toList)

/-- A text between two characters that are no spaces is left as it is. -/
theorem pyStrip_eq_self {s : String} (hfirst : ∀ c ∈ s.toList.head?, isPySpace c = false)
    (hlast : ∀ c ∈ s.toList.getLast?, isPySpace c = false) : pyStrip s = s := by
  have hkeep (chars : List Char) (h : ∀ c ∈ chars.head?, isPySpace c = false) :
      chars.dropWhile isPySpace = chars := by
    cases chars with
    | nil => rfl
    | cons c rest => rw [List.dropWhile_cons_of_neg (by simp [h c rfl])]
  rw [pyStrip, stripLine, hkeep _ hfirst, hkeep _ (by rwa [List.head?_reverse]),
    List.reverse_reverse, String.ofList_toList]

end ForgeOS
