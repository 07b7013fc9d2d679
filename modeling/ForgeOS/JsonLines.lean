import ForgeOS.Adapters.ClaudeFraming
import ForgeOS.Fields
import ForgeOS.Text

/-!
Files that hold one JSON object a line, each as its model dumps it, and the two
ways they are read: a line that is no such object is skipped, or the reading of
the file raises. Both take the file into the lines of `str.splitlines`, which
ends a line at three characters that a dump has inside of strings.
-/

namespace ForgeOS

open Library

mutual

/-- What a dump makes of a value of any type: a float that is no finite number
becomes `null`. -/
def Json.dumped : Json → Json
  | .float value => if value.isFinite then .float value else .null
  | .arr items => .arr (dumpedItems items)
  | .obj entries => .obj (dumpedEntries entries)
  | value => value

def Json.dumpedItems : List Json → List Json
  | [] => []
  | item :: rest => item.dumped :: dumpedItems rest

def Json.dumpedEntries : List (String × Json) → List (String × Json)
  | [] => []
  | (key, value) :: rest => (key, value.dumped) :: dumpedEntries rest

end

namespace Json

mutual

theorem dumped_eq_iff : (v : Json) → (v.dumped = v ↔ v.allFinite = true)
  | .null => by simp [dumped, allFinite]
  | .bool _ => by simp [dumped, allFinite]
  | .int _ => by simp [dumped, allFinite]
  | .str _ => by simp [dumped, allFinite]
  | .float value => by
      unfold dumped allFinite
      cases value.isFinite <;> simp
  | .arr items => by
      unfold dumped allFinite
      rw [arr.injEq]
      exact dumpedItems_eq_iff items
  | .obj entries => by
      unfold dumped allFinite
      rw [obj.injEq]
      exact dumpedEntries_eq_iff entries

theorem dumpedItems_eq_iff :
    (items : List Json) → (dumpedItems items = items ↔ allFiniteItems items = true)
  | [] => by simp [dumpedItems, allFiniteItems]
  | item :: rest => by
      unfold dumpedItems allFiniteItems
      rw [List.cons.injEq, Bool.and_eq_true, dumped_eq_iff item, dumpedItems_eq_iff rest]

theorem dumpedEntries_eq_iff : (entries : List (String × Json)) →
    (dumpedEntries entries = entries ↔ allFiniteEntries entries = true)
  | [] => by simp [dumpedEntries, allFiniteEntries]
  | (key, value) :: rest => by
      unfold dumpedEntries allFiniteEntries
      rw [List.cons.injEq, Bool.and_eq_true, Prod.mk.injEq, dumped_eq_iff value,
        dumpedEntries_eq_iff rest, and_iff_right rfl]

end

mutual

theorem strings_dumped : (v : Json) → v.dumped.strings = v.strings
  | .null => rfl
  | .bool _ => rfl
  | .int _ => rfl
  | .str _ => rfl
  | .float value => by
      unfold dumped
      cases value.isFinite <;> rfl
  | .arr items => stringsOfItems_dumped items
  | .obj entries => stringsOfEntries_dumped entries

theorem stringsOfItems_dumped :
    (items : List Json) → stringsOfItems (dumpedItems items) = stringsOfItems items
  | [] => rfl
  | item :: rest => by
      rw [dumpedItems, stringsOfItems, stringsOfItems, strings_dumped item,
        stringsOfItems_dumped rest]

theorem stringsOfEntries_dumped : (entries : List (String × Json)) →
    stringsOfEntries (dumpedEntries entries) = stringsOfEntries entries
  | [] => rfl
  | (key, value) :: rest => by
      rw [dumpedEntries, stringsOfEntries, stringsOfEntries, strings_dumped value,
        stringsOfEntries_dumped rest]

end

theorem dumpedEntries_append (xs ys : List (String × Json)) :
    dumpedEntries (xs ++ ys) = dumpedEntries xs ++ dumpedEntries ys := by
  induction xs with
  | nil => rfl
  | cons entry rest ih =>
      obtain ⟨key, value⟩ := entry
      rw [List.cons_append, dumpedEntries, ih, dumpedEntries, List.cons_append]

theorem keys_dumpedEntries (entries : List (String × Json)) :
    (dumpedEntries entries).map Prod.fst = entries.map Prod.fst := by
  induction entries with
  | nil => rfl
  | cons entry rest ih =>
      obtain ⟨key, value⟩ := entry
      rw [dumpedEntries, List.map_cons, List.map_cons, ih]

end Json

namespace JsonLines

open ClaudeCode JsonText

/-- What `model_dump_json` makes of an object: a JSON text of it on one line, in
which characters beyond ASCII stand for themselves. -/
structure ModelDump (reading : Reading) extends FramedRecord reading where
  unescaped : ∀ s ∈ (Json.obj object).strings, ∀ c ∈ s.toList, 0x80 ≤ c.toNat → c ∈ text

/-- Dumps that are written one after the other, each with a newline. -/
def written {reading : Reading} (dumps : List (ModelDump reading)) : List Char :=
  dumps.flatMap fun dump => dump.text ++ ['\n']

/-- A file of some dumps; without any there is none. -/
def fileOf {reading : Reading} (dumps : List (ModelDump reading)) : Option (List Char) :=
  if dumps = [] then none else some (written dumps)

/-- What a file becomes by `open(path, "a")` and the dumps written to it. -/
def appended {reading : Reading} (dumps : List (ModelDump reading)) (file : Option (List Char)) :
    Option (List Char) :=
  some (file.getD [] ++ written dumps)

/-- `path.read_text(encoding="utf-8").splitlines()` -/
def fileLines (content : List Char) : List (List Char) := splitLines (universalNewlines content)

section Validation

variable {α : Type} (reading : Reading) (validate : JsonObject → Option α)

/-- `model_validate_json`, where `validate` is the validation of an object; none
is a `ValidationError`. -/
def modelValidateJson (line : List Char) : Option α :=
  match loads reading line with
  | .ok (.obj obj) => validate obj
  | _ => none

/-- What one line yields to a reader that skips what it cannot validate. -/
def validLine (raw : List Char) : Option α :=
  let line := stripLine raw
  if line = [] then none else modelValidateJson reading validate line

/-- The records of a file, if there is one, as far as they can be validated. -/
def readAll : Option (List Char) → List α
  | none => []
  | some content => (fileLines content).filterMap (validLine reading validate)

/-- The records of a file, if there is one and all can be validated. -/
def validateAll : Option (List Char) → Option (List α)
  | none => some []
  | some content =>
      ((fileLines content).filter fun line => stripLine line ≠ []).mapM
        (modelValidateJson reading validate)

end Validation

/-! ### Files -/

section Files

variable {α : Type} {reading : Reading} {validate : JsonObject → Option α}

theorem fileOf_getD (dumps : List (ModelDump reading)) :
    (fileOf dumps).getD [] = written dumps := by
  unfold fileOf
  split
  · rename_i hnil
    rw [hnil]
    rfl
  · rfl

theorem appended_fileOf (dumps : List (ModelDump reading)) {others : List (ModelDump reading)}
    (hne : others ≠ []) : appended others (fileOf dumps) = fileOf (dumps ++ others) := by
  have hall : dumps ++ others ≠ [] := List.append_ne_nil_of_right_ne_nil dumps hne
  rw [appended, fileOf_getD, fileOf, if_neg hall, written, written, written, List.flatMap_append]

/-- What reads no file like an empty one reads the file of some dumps like their
text. -/
theorem read_fileOf {β : Type} {read : Option (List Char) → β} (hnone : read none = read (some []))
    (dumps : List (ModelDump reading)) : read (fileOf dumps) = read (some (written dumps)) := by
  unfold fileOf
  split
  · rename_i hnil
    rw [hnil, hnone]
    rfl
  · rfl

theorem readAll_fileOf (dumps : List (ModelDump reading)) :
    readAll reading validate (fileOf dumps) = readAll reading validate (some (written dumps)) :=
  read_fileOf rfl dumps

theorem validateAll_fileOf (dumps : List (ModelDump reading)) :
    validateAll reading validate (fileOf dumps) =
      validateAll reading validate (some (written dumps)) := read_fileOf rfl dumps

end Files

/-! ### Separators -/

/-- The line ends that are no control characters of ASCII: next line, line
separator and paragraph separator. -/
def isSeparator (c : Char) : Bool := c = '\x85' || c = '\u2028' || c = '\u2029'

/-- No string of the value has a separator. -/
def Unseparated (v : Json) : Prop := ∀ s ∈ v.strings, ∀ c ∈ s.toList, isSeparator c = false

instance (v : Json) : Decidable (Unseparated v) :=
  decidable_of_iff ((v.strings.all fun s => s.toList.all fun c => !isSeparator c) = true)
    (by simp [Unseparated])

theorem eq_of_beyond_ascii {strings : List String} {given : Char}
    (h : (strings.all fun s => s.toList.all fun c => c.toNat < 0x80 || c = given) = true) :
    ∀ s ∈ strings, ∀ c ∈ s.toList, 0x80 ≤ c.toNat → c = given := by
  intro s hs c hc hbeyond
  have hchar := List.all_eq_true.mp (List.all_eq_true.mp h s hs) c hc
  simp only [Bool.or_eq_true, decide_eq_true_eq] at hchar
  exact hchar.resolve_left (Nat.not_lt.mpr hbeyond)

theorem beyond_ascii_of_isSeparator {c : Char} (h : isSeparator c = true) : 0x80 ≤ c.toNat := by
  simp only [isSeparator, Bool.or_eq_true, decide_eq_true_eq] at h
  rcases h with (rfl | rfl) | rfl <;> decide

theorem unseparated_of_ascii {v : Json}
    (h : (v.strings.all fun s => s.toList.all fun c => c.toNat < 0x80) = true) :
    Unseparated v := by
  intro s hs c hc
  have hascii : c.toNat < 0x80 := by
    simpa using List.all_eq_true.mp (List.all_eq_true.mp h s hs) c hc
  rw [← Bool.not_eq_true]
  exact fun hseparator => absurd (beyond_ascii_of_isSeparator hseparator) (Nat.not_le.mpr hascii)

theorem isSeparator_iff (c : Char) :
    isSeparator c = true ↔ isLineBreak c = true ∧ 0x20 ≤ c.toNat := by
  simp only [isSeparator, isLineBreak, Bool.or_eq_true, decide_eq_true_eq]
  constructor
  · rintro ((rfl | rfl) | rfl) <;> decide
  · rintro ⟨((((((((((rfl | rfl) | rfl) | rfl) | rfl) | rfl) | rfl) | rfl) | rfl) | rfl)), h⟩
    all_goals revert h; decide

/-- A dump is one line of a file exactly if no string of its object has a
separator. -/
theorem ModelDump.one_line_iff {reading : Reading} (dump : ModelDump reading) :
    (∀ c ∈ dump.text, isLineBreak c = false) ↔ Unseparated (.obj dump.object) := by
  constructor
  · intro h s hs c hc
    rw [← Bool.not_eq_true]
    intro hseparator
    have hclean := h c (dump.unescaped s hs c hc (beyond_ascii_of_isSeparator hseparator))
    rw [((isSeparator_iff c).mp hseparator).1] at hclean
    cases hclean
  · intro h c hc
    rw [← Bool.not_eq_true]
    intro hbreak
    obtain ⟨hcontrol, s, hs, hmem⟩ := dump.mem_strings hc hbreak
    have hclean := h s hs c hmem
    rw [(isSeparator_iff c).mpr ⟨hbreak, hcontrol⟩] at hclean
    cases hclean

/-! ### The lines of a file -/

theorem return_not_mem_written {reading : Reading} (dumps : List (ModelDump reading)) :
    '\r' ∉ written dumps := by
  intro h
  obtain ⟨dump, -, hmem⟩ := List.mem_flatMap.mp h
  rcases List.mem_append.mp hmem with hmem | hmem
  · exact dump.no_return hmem
  · cases List.mem_singleton.mp hmem

theorem fileLines_written {reading : Reading} (dumps : List (ModelDump reading)) :
    fileLines (written dumps) = dumps.flatMap fun dump => pieces [] dump.text := by
  have hframed : written dumps = framed (dumps.map ModelDump.toFramedRecord) := by
    rw [written, framed, List.flatMap_map]
  rw [fileLines, universalNewlines_of_no_return (return_not_mem_written dumps), hframed,
    splitLines_framed, List.flatMap_map]

/-! ### What is read of a dump -/

section Reading

variable {α : Type} {reading : Reading} {validate : JsonObject → Option α}

/-- The dump is one line of the file, within the limits of its reader. -/
def ModelDump.Kept (dump : ModelDump reading) : Prop :=
  Unseparated (.obj dump.object) ∧ Fits reading dump.text (.obj dump.object)

instance (dump : ModelDump reading) : Decidable dump.Kept := inferInstanceAs (Decidable (_ ∧ _))

/-- An object without integers is within the limits unless it is nested too
deep. -/
theorem ModelDump.kept_iff (dump : ModelDump reading)
    (hnone : (Json.obj dump.object).hasInteger = false)
    (hdepth : (Json.obj dump.object).depth reading.countsEmpty ≤ reading.maxDepth) :
    dump.Kept ↔ Unseparated (.obj dump.object) := by
  obtain ⟨maxDigits, maxDepth, hdecode⟩ := dump.serialises
  exact and_iff_left (fits_of_decode hdecode hnone hdepth)

def Requires (validate : JsonObject → Option α) (name : String) : Prop :=
  ∀ obj, (validate obj).isSome = true → ∃ entry ∈ obj, entry.1 = name

theorem modelValidateJson_text (dump : ModelDump reading) :
    modelValidateJson reading validate dump.text =
      if Fits reading dump.text (.obj dump.object) then validate dump.object else none := by
  unfold modelValidateJson
  rw [dump.loads_text]
  by_cases hfits : Fits reading dump.text (.obj dump.object)
  · rw [if_pos hfits, if_pos hfits]
  · rw [if_neg hfits, if_neg hfits]

theorem validLine_text (dump : ModelDump reading) :
    validLine reading validate dump.text = modelValidateJson reading validate dump.text := by
  unfold validLine modelValidateJson
  rw [if_neg dump.stripLine_ne_nil, dump.loads_stripLine]

theorem validLine_piece {name : String} (hname : '_' ∈ name.toList)
    (hrequires : Requires validate name) (dump : ModelDump reading)
    (hbreak : dump.text.any isLineBreak = true) {piece : List Char}
    (hpiece : piece ∈ pieces [] dump.text) : validLine reading validate piece = none := by
  unfold validLine modelValidateJson
  dsimp only
  split
  · rfl
  · split
    · rename_i obj hloads
      rw [← Option.not_isSome_iff_eq_none]
      intro hvalid
      obtain ⟨entry, hentry, hfirst⟩ := hrequires obj hvalid
      have hmem : name ∈ (Json.obj obj).strings :=
        Json.mem_stringsOfEntries.mpr ⟨entry, hentry, .inl hfirst.symm⟩
      have hplain := isPlain_of_pieces dump.toFramedRecord hbreak hpiece hloads name hmem '_' hname
      cases hplain
    · rfl

/-- A dump that is one line of the file is read as far as it is kept. -/
theorem modelValidateJson_unseparated {dump : ModelDump reading}
    (h : Unseparated (.obj dump.object)) :
    modelValidateJson reading validate dump.text =
      if dump.Kept then validate dump.object else none := by
  rw [modelValidateJson_text]
  exact if_congr ⟨fun hfits => ⟨h, hfits⟩, And.right⟩ rfl rfl

/-- A dump that is kept yields its record, and any other one nothing. -/
theorem filterMap_pieces {name : String} (hname : '_' ∈ name.toList)
    (hrequires : Requires validate name) (dump : ModelDump reading) :
    (pieces [] dump.text).filterMap (validLine reading validate) =
      if dump.Kept then (validate dump.object).toList else [] := by
  by_cases hseparated : Unseparated (.obj dump.object)
  · rw [pieces_of_no_break (dump.one_line_iff.mpr hseparated), List.nil_append,
      List.filterMap_cons, validLine_text, modelValidateJson_unseparated hseparated]
    by_cases hkept : dump.Kept
    · rw [if_pos hkept, if_pos hkept]
      cases validate dump.object <;> rfl
    · rw [if_neg hkept, if_neg hkept]
      rfl
  · rw [if_neg fun hkept => hseparated hkept.1, List.filterMap_eq_nil_iff]
    have hbreak : dump.text.any isLineBreak = true := by
      simpa using mt dump.one_line_iff.mp hseparated
    exact fun piece hpiece => validLine_piece hname hrequires dump hbreak hpiece

theorem readAll_written {name : String} (hname : '_' ∈ name.toList)
    (hrequires : Requires validate name) (dumps : List (ModelDump reading)) :
    readAll reading validate (some (written dumps)) =
      dumps.flatMap fun dump => if dump.Kept then (validate dump.object).toList else [] := by
  rw [readAll, fileLines_written, List.filterMap_flatMap]
  exact List.flatMap_congr fun dump _ => filterMap_pieces hname hrequires dump

/-- As many records are read as dumps are kept. -/
theorem length_readAll_written {name : String} (hname : '_' ∈ name.toList)
    (hrequires : Requires validate name) {dumps : List (ModelDump reading)}
    (hvalid : ∀ dump ∈ dumps, (validate dump.object).isSome = true) :
    (readAll reading validate (some (written dumps))).length =
      dumps.countP fun dump => dump.Kept := by
  rw [readAll_written hname hrequires]
  induction dumps with
  | nil => rfl
  | cons dump rest ih =>
      obtain ⟨hfirst, hrest⟩ := List.forall_mem_cons.mp hvalid
      obtain ⟨value, hvalue⟩ := Option.isSome_iff_exists.mp hfirst
      rw [List.flatMap_cons, List.length_append, ih hrest, List.countP_cons, hvalue,
        Nat.add_comm]
      by_cases hkept : dump.Kept
      · simp [hkept]
      · simp [hkept]

/-- A file that is read with its bad lines skipped gives back as many records as
were written, and those very records, exactly if every dump is kept. -/
theorem readAll_written_iff {name : String} (hname : '_' ∈ name.toList)
    (hrequires : Requires validate name) {dumps : List (ModelDump reading)} {items : List α}
    (hitems : dumps.map (fun dump => validate dump.object) = items.map some) :
    ((readAll reading validate (some (written dumps))).length = dumps.length ↔
        ∀ dump ∈ dumps, dump.Kept) ∧
      (readAll reading validate (some (written dumps)) = items ↔
        ∀ dump ∈ dumps, dump.Kept) := by
  have hvalid : ∀ dump ∈ dumps, (validate dump.object).isSome = true := by
    intro dump hdump
    have hmem := List.mem_map_of_mem (f := fun dump => validate dump.object) hdump
    rw [hitems] at hmem
    obtain ⟨item, -, hitem⟩ := List.mem_map.mp hmem
    rw [← hitem]
    rfl
  have hlength : (readAll reading validate (some (written dumps))).length = dumps.length ↔
      ∀ dump ∈ dumps, dump.Kept := by
    rw [length_readAll_written hname hrequires hvalid, List.countP_eq_length]
    simp only [decide_eq_true_eq]
  refine ⟨hlength, fun hread => hlength.mp ?_, fun hkept => ?_⟩
  · have hsame := congrArg List.length hitems
    rw [List.length_map, List.length_map] at hsame
    rw [hread, hsame]
  · have hsame : (dumps.flatMap fun dump =>
        if dump.Kept then (validate dump.object).toList else []) =
        (dumps.map fun dump => validate dump.object).flatMap Option.toList := by
      rw [List.flatMap_map]
      exact List.flatMap_congr fun dump hdump => if_pos (hkept dump hdump)
    rw [readAll_written hname hrequires, hsame, hitems, List.flatMap_map]
    exact List.flatMap_singleton' items

/-! ### A reading that raises -/

/-- A piece that ends inside a string is not blank. -/
theorem stripLine_ne_nil_of_unclosed {piece : List Char} {tokens : List JsonToken}
    {units : List Nat} (hrun : (LexMode.outside []).run piece = some (tokens, .string units)) :
    stripLine piece ≠ [] := by
  intro hempty
  obtain ⟨before, after, hpiece, hbefore, hafter⟩ := stripLine_spec piece
  rw [hempty, List.append_nil] at hpiece
  have hinvisible : ∀ c ∈ piece, isVisible c = false := by
    intro c hc
    rw [hpiece] at hc
    exact (List.mem_append.mp hc).elim (hbefore c) (hafter c)
  cases (run_invisible_outside hinvisible hrun).2

theorem mapM_pieces (dump : ModelDump reading) :
    ((pieces [] dump.text).filter fun line => stripLine line ≠ []).mapM
        (modelValidateJson reading validate) =
      if dump.Kept then (validate dump.object).map fun value => [value] else none := by
  by_cases hseparated : Unseparated (.obj dump.object)
  · rw [pieces_of_no_break (dump.one_line_iff.mpr hseparated), List.nil_append,
      List.filter_cons, if_pos (decide_eq_true dump.stripLine_ne_nil), List.filter_nil,
      List.mapM_cons, modelValidateJson_unseparated hseparated]
    by_cases hkept : dump.Kept
    · rw [if_pos hkept, if_pos hkept]
      cases validate dump.object <;> rfl
    · rw [if_neg hkept, if_neg hkept]
      rfl
  · have hbreak : dump.text.any isLineBreak = true := by
      simpa using mt dump.one_line_iff.mp hseparated
    obtain ⟨tokens, word, hrun⟩ := run_of_lex dump.invalid_not_mem
    have hstart : (LexMode.outside []).run [] = some ([], .outside []) := rfl
    obtain ⟨first, others, units, _, hpieces, hunclosed, -⟩ :=
      pieces_of_break dump.no_newline dump.no_return hbreak hstart hrun
    have hinvalid : modelValidateJson reading validate first = none := by
      unfold modelValidateJson
      split
      · rename_i obj hloads
        exact absurd (invalid_of_run hunclosed (by simp)) (strings_of_loads hloads).1
      · rfl
    rw [if_neg fun hkept => hseparated hkept.1, hpieces, List.filter_cons,
      if_pos (decide_eq_true (stripLine_ne_nil_of_unclosed hunclosed)), List.mapM_cons, hinvalid]
    rfl

/-- A file all of whose lines have to be validated gives back what was written
if every dump is kept, and raises otherwise. -/
theorem validateAll_written {dumps : List (ModelDump reading)} {items : List α}
    (hitems : dumps.map (fun dump => validate dump.object) = items.map some) :
    validateAll reading validate (some (written dumps)) =
      if ∀ dump ∈ dumps, dump.Kept then some items else none := by
  rw [validateAll, fileLines_written]
  induction dumps generalizing items with
  | nil =>
      obtain rfl := List.map_eq_nil_iff.mp hitems.symm
      rfl
  | cons dump rest ih =>
      cases items with
      | nil => cases hitems
      | cons item others =>
          obtain ⟨hitem, hothers⟩ := List.cons.inj hitems
          dsimp only at hitem
          rw [List.flatMap_cons, List.filter_append, List.mapM_append, mapM_pieces, ih hothers,
            hitem]
          simp only [List.forall_mem_cons]
          by_cases hkept : dump.Kept
          · by_cases hrest : ∀ dump ∈ rest, dump.Kept
            · rw [if_pos hkept, if_pos hrest, if_pos ⟨hkept, hrest⟩]
              rfl
            · rw [if_pos hkept, if_neg hrest, if_neg fun h => hrest h.2]
              rfl
          · have hnot : ¬ (dump.Kept ∧ ∀ dump ∈ rest, dump.Kept) := fun h => hkept h.1
            rw [if_neg hkept, if_neg hnot]
            rfl

end Reading

/-- A reader for texts without floats. -/
def demoReading : Reading := ⟨fun _ => .nan, 4300, 200, false⟩

end JsonLines

end ForgeOS
