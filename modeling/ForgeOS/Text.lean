import ForgeOS.Json
import Mathlib.Data.List.Basic

/-!
Text as Python reads it from a file and writes it to one, and the lines it has.
-/

namespace ForgeOS

/-- `text.splitlines()[0]`; a text without lines has no first one. -/
def firstOfLines? (text : String) : Option String :=
  if text = "" then none else some (String.ofList (text.toList.takeWhile fun c => ¬ isLineBreak c))

/-- `content.decode("utf-8")`; none is a `UnicodeDecodeError`. -/
def decodeUtf8 (content : List UInt8) : Option String := String.fromUTF8? ⟨content.toArray⟩

/-- What a text file in universal newlines mode gives for its characters. -/
def universalNewlines : List Char → List Char
  | [] => []
  | '\r' :: '\n' :: rest => '\n' :: universalNewlines rest
  | '\r' :: rest => '\n' :: universalNewlines rest
  | c :: rest => c :: universalNewlines rest

/-- `IncrementalNewlineDecoder`, at one character: what comes out, and whether a
carriage return is held back since a line feed may follow it. -/
def decodeNewline (heldReturn : Bool) (c : Char) : List Char × Bool :=
  if c = '\r' then (if heldReturn then ['\n'] else [], true)
  else if c = '\n' then (['\n'], false)
  else (if heldReturn then ['\n', c] else [c], false)

/-- The decoder on a chunk of text. -/
def decodeNewlines (heldReturn : Bool) : List Char → List Char × Bool
  | [] => ([], heldReturn)
  | c :: rest =>
      let first := decodeNewline heldReturn c
      let others := decodeNewlines first.2 rest
      (first.1 ++ others.1, others.2)

/-- What still comes out at the end of the text. -/
def flushNewline (heldReturn : Bool) : List Char := if heldReturn then ['\n'] else []

/-- `path.read_text(encoding="utf-8")`, of what the file contains. -/
def readText (content : List UInt8) : Option String :=
  (decodeUtf8 content).map fun text => String.ofList (universalNewlines text.toList)

/-- The bytes of a text in UTF-8. -/
def encodeUtf8 (text : String) : List UInt8 := text.toList.flatMap String.utf8EncodeChar

/-- A code point of a Python string, which can have a surrogate of its own. -/
inductive CodePoint where
  | char (c : Char)
  | surrogate (offset : Fin 0x800)
deriving DecidableEq, Repr

/-- A Python string that need not have an encoding. -/
abbrev PyText := List CodePoint

def PyText.ofString (text : String) : PyText := text.toList.map CodePoint.char

/-- `text.encode("utf-8")`; none is a `UnicodeEncodeError`. -/
def PyText.encode? : PyText → Option (List UInt8)
  | [] => some []
  | .char c :: rest => (encode? rest).map (String.utf8EncodeChar c ++ ·)
  | .surrogate _ :: _ => none

/-! ### Encoding -/

theorem toByteArray_toList (text : String) : text.toByteArray.data.toList = encodeUtf8 text := by
  have hencode : text.toByteArray = text.toList.utf8Encode := by
    rw [← String.toByteArray_ofList, String.ofList_toList]
  rw [hencode, List.utf8Encode, encodeUtf8]
  simp

theorem decodeUtf8_eq_some {content : List UInt8} {text : String} :
    decodeUtf8 content = some text ↔ encodeUtf8 text = content := by
  rw [← toByteArray_toList, decodeUtf8, String.fromUTF8?]
  constructor
  · intro h
    split_ifs at h with hvalid
    rw [← Option.some.inj h]
    simp [String.fromUTF8]
  · rintro rfl
    rw [dif_pos text.isValidUTF8]
    rfl

/-- Different texts have different bytes. -/
theorem encodeUtf8_inj {text other : String} :
    encodeUtf8 text = encodeUtf8 other ↔ text = other := by
  constructor
  · intro h
    have hdecode := decodeUtf8_eq_some.mpr h
    rw [decodeUtf8_eq_some.mpr rfl] at hdecode
    exact (Option.some.inj hdecode).symm
  · rintro rfl
    rfl

theorem PyText.ofString_append (text other : String) :
    ofString (text ++ other) = ofString text ++ ofString other := by
  rw [ofString, String.toList_append, List.map_append, ofString, ofString]

theorem encode_ofString (text : String) :
    (PyText.ofString text).encode? = some (encodeUtf8 text) := by
  rw [PyText.ofString, encodeUtf8]
  induction text.toList with
  | nil => rfl
  | cons c rest ih => rw [List.map_cons, PyText.encode?, ih, List.flatMap_cons, Option.map_some]

/-! ### Line endings -/

theorem universalNewlines_of_no_return {text : List Char} (h : '\r' ∉ text) :
    universalNewlines text = text := by
  induction text with
  | nil => rfl
  | cons c rest ih =>
      rw [List.mem_cons, not_or] at h
      rw [universalNewlines, ih h.2]
      · exact fun _ hc => absurd hc.symm h.1
      · exact fun hc => absurd hc.symm h.1

theorem return_not_mem_universalNewlines (text : List Char) : '\r' ∉ universalNewlines text := by
  fun_induction universalNewlines text with
  | case1 => exact List.not_mem_nil
  | case2 rest ih => simp [ih]
  | case3 rest _ ih => simp [ih]
  | case4 c rest _ hc ih =>
      rw [List.mem_cons, not_or]
      exact ⟨fun h => hc h.symm, ih⟩

theorem universalNewlines_eq_self {text : List Char} :
    universalNewlines text = text ↔ '\r' ∉ text := by
  constructor
  · intro h
    rw [← h]
    exact return_not_mem_universalNewlines text
  · exact universalNewlines_of_no_return

theorem decodeNewlines_append (heldReturn : Bool) (text more : List Char) :
    decodeNewlines heldReturn (text ++ more) =
      ((decodeNewlines heldReturn text).1 ++
          (decodeNewlines (decodeNewlines heldReturn text).2 more).1,
        (decodeNewlines (decodeNewlines heldReturn text).2 more).2) := by
  induction text generalizing heldReturn with
  | nil => rfl
  | cons c rest ih => simp only [List.cons_append, decodeNewlines, ih, List.append_assoc]

/-- In chunks or not, the decoder gives the same text. -/
theorem universalNewlines_eq_decodeNewlines (text : List Char) :
    universalNewlines text =
      (decodeNewlines false text).1 ++ flushNewline (decodeNewlines false text).2 := by
  have hboth : ∀ text : List Char,
      universalNewlines text =
        (decodeNewlines false text).1 ++ flushNewline (decodeNewlines false text).2 ∧
      universalNewlines ('\r' :: text) =
        (decodeNewlines true text).1 ++ flushNewline (decodeNewlines true text).2 := by
    intro text
    induction text with
    | nil => exact ⟨rfl, rfl⟩
    | cons c rest ih =>
        by_cases hreturn : c = '\r'
        · subst hreturn
          refine ⟨ih.2, ?_⟩
          rw [universalNewlines, ih.2]
          · rfl
          · intro rest' h
            cases h
        · by_cases hfeed : c = '\n'
          · subst hfeed
            refine ⟨?_, ?_⟩
            · rw [universalNewlines, ih.1]
              · rfl
              · intro rest' h
                cases h
              · intro h
                cases h
            · rw [universalNewlines, ih.1]
              rfl
          · have hplain : universalNewlines (c :: rest) = c :: universalNewlines rest := by
              rw [universalNewlines]
              · exact fun _ h => absurd h hreturn
              · exact fun h => absurd h hreturn
            refine ⟨?_, ?_⟩
            · rw [hplain, ih.1]
              simp [decodeNewlines, decodeNewline, hreturn, hfeed]
            · rw [universalNewlines, hplain, ih.1]
              · simp [decodeNewlines, decodeNewline, hreturn, hfeed]
              · intro rest' h
                exact absurd (List.cons.inj h).1 hfeed
  exact (hboth text).1

/-- A text that is read and written again has its bytes unless it had a
carriage return. -/
theorem encode_readText {content : List UInt8} {text : String}
    (h : readText content = some text) :
    encodeUtf8 text = content ↔
      ∃ decoded, decodeUtf8 content = some decoded ∧ '\r' ∉ decoded.toList := by
  rw [readText, Option.map_eq_some_iff] at h
  obtain ⟨decoded, hdecoded, rfl⟩ := h
  simp only [hdecoded, Option.some.injEq, exists_eq_left']
  rw [← decodeUtf8_eq_some.mp hdecoded, encodeUtf8_inj, ← universalNewlines_eq_self,
    ← String.toList_inj, String.toList_ofList]

end ForgeOS
