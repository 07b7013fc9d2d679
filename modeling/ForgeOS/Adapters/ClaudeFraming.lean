import ForgeOS.JsonReading
import ForgeOS.Adapters.ClaudeRunner
import Mathlib.Data.List.TakeWhile

/-!
Records that are separated by newlines, read back by the runner. The text of a
record may hold line ends of Unicode in its strings; there the runner takes it
apart, and what is left of it is no record any more.
-/

namespace ForgeOS

open Library

namespace ClaudeCode

open JsonText

/-- An object with a JSON text of it, on one line of the producer. -/
structure FramedRecord (reading : Reading) where
  object : JsonObject
  text : List Char
  serialises : ∃ maxDigits maxDepth,
    decode ⟨reading.toFloat, maxDigits, maxDepth, reading.countsEmpty⟩ distinctHook text =
      .ok (.obj object)
  no_newline : '\n' ∉ text
  no_return : '\r' ∉ text

/-- The records, each with its newline. -/
def framed {reading : Reading} (records : List (FramedRecord reading)) : List Char :=
  records.flatMap fun record => record.text ++ ['\n']

/-! ### The pieces of a record -/

/-- The lines a text is taken into, its first line continuing `partialLine`. -/
def pieces (partialLine : List Char) : List Char → List (List Char)
  | [] => [partialLine]
  | c :: rest =>
      if isLineBreak c then partialLine :: pieces [] rest
      else pieces (partialLine ++ [c]) rest

theorem splitLinesFrom_record {text : List Char} (hnewline : '\n' ∉ text) (hreturn : '\r' ∉ text)
    (partialLine rest : List Char) :
    splitLinesFrom partialLine false (text ++ '\n' :: rest) =
      pieces partialLine text ++ splitLines rest := by
  induction text generalizing partialLine with
  | nil => rfl
  | cons c others ih =>
      rw [List.mem_cons, not_or] at hnewline hreturn
      have hc : decide (c = '\r') = false := decide_eq_false (Ne.symm hreturn.1)
      rw [List.cons_append, splitLinesFrom, pieces, hc, ih hnewline.2 hreturn.2,
        ih hnewline.2 hreturn.2, Bool.false_and, if_neg Bool.false_ne_true]
      split <;> rfl

theorem splitLines_framed {reading : Reading} (records : List (FramedRecord reading)) :
    splitLines (framed records) = records.flatMap fun record => pieces [] record.text := by
  induction records with
  | nil => rfl
  | cons record others ih =>
      rw [framed, List.flatMap_cons, List.flatMap_cons, ← ih, List.append_assoc]
      exact splitLinesFrom_record record.no_newline record.no_return [] (framed others)

theorem pieces_of_no_break {text : List Char} (h : ∀ c ∈ text, isLineBreak c = false)
    (partialLine : List Char) : pieces partialLine text = [partialLine ++ text] := by
  induction text generalizing partialLine with
  | nil => rw [List.append_nil]; rfl
  | cons c rest ih =>
      rw [List.forall_mem_cons] at h
      rw [pieces, h.1, if_neg Bool.false_ne_true, ih h.2, List.append_assoc]
      rfl

/-! ### Stripping -/

theorem isVisible_of_isPySpace {c : Char} (h : isPySpace c = true) : isVisible c = false := by
  simp only [isPySpace, Bool.or_eq_true, Bool.and_eq_true, decide_eq_true_eq, beq_iff_eq] at h
  simp only [isVisible, Bool.and_eq_false_iff, decide_eq_false_iff_not]
  omega

theorem isVisible_of_isLineBreak {c : Char} (h : isLineBreak c = true) : isVisible c = false := by
  simp only [isLineBreak, Bool.or_eq_true, decide_eq_true_eq] at h
  rcases h with (((((((((rfl | rfl) | rfl) | rfl) | rfl) | rfl) | rfl) | rfl) | rfl) | rfl) <;> rfl

theorem stripLine_spec (line : List Char) :
    ∃ before after, line = before ++ stripLine line ++ after ∧
      (∀ c ∈ before, isVisible c = false) ∧ ∀ c ∈ after, isVisible c = false := by
  refine ⟨line.takeWhile isPySpace,
    ((line.dropWhile isPySpace).reverse.takeWhile isPySpace).reverse, ?_, ?_, ?_⟩
  · rw [stripLine, List.append_assoc, ← List.reverse_append, List.takeWhile_append_dropWhile,
      List.reverse_reverse, List.takeWhile_append_dropWhile]
  · intro c hc
    exact isVisible_of_isPySpace (List.mem_takeWhile_imp hc)
  · intro c hc
    exact isVisible_of_isPySpace (List.mem_takeWhile_imp (List.mem_reverse.mp hc))

/-- The tokens of a text do not change when its ends are stripped. -/
theorem lex_stripLine {text : List Char} {all : List JsonToken} {last : LexMode}
    (hrun : (LexMode.outside []).run text = some (all, last)) :
    lex (.outside []) (stripLine text) = lex (.outside []) text := by
  obtain ⟨before, after, htext, hbefore, hafter⟩ := stripLine_spec text
  rw [htext] at hrun
  obtain ⟨_, middle, behind, hfront, hbehind, -⟩ := run_split hrun
  obtain ⟨spaces, start, tokens, hspaces, hmiddle, -⟩ := run_split hfront
  obtain ⟨rfl, rfl⟩ := run_invisible_outside hbefore hspaces
  have hstripped := lex_append hmiddle []
  have hwhole := lex_append (run_append (run_append hspaces hmiddle) hbehind) []
  rw [List.append_nil] at hstripped hwhole
  rw [hstripped, htext, hwhole, List.nil_append, List.append_assoc, lex_invisible hafter hbehind]

/-! ### Records without a line end in their strings -/

theorem decode_congr {reading : Reading} {hook : PairsHook} {text text' : List Char}
    (h : lex (.outside []) text = lex (.outside []) text') :
    decode reading hook text = decode reading hook text' := by
  simp only [decode, h]

theorem FramedRecord.invalid_not_mem {reading : Reading} (record : FramedRecord reading) :
    JsonToken.invalid ∉ lex (.outside []) record.text := by
  obtain ⟨maxDigits, maxDepth, hdecode⟩ := record.serialises
  exact (strings_of_decode hdecode).1

theorem FramedRecord.loads_text {reading : Reading} (record : FramedRecord reading) :
    loads reading record.text =
      if Fits reading record.text (.obj record.object) then .ok (.obj record.object)
      else .error .refused := by
  obtain ⟨maxDigits, maxDepth, hdecode⟩ := record.serialises
  have hfloat : (Reading.mk reading.toFloat maxDigits maxDepth reading.countsEmpty).toFloat =
      reading.toFloat := rfl
  exact loads_of_decode hfloat hdecode

theorem FramedRecord.loads_stripLine {reading : Reading} (record : FramedRecord reading) :
    loads reading (stripLine record.text) = loads reading record.text := by
  obtain ⟨_, _, hrun⟩ := run_of_lex record.invalid_not_mem
  exact decode_congr (lex_stripLine hrun)

theorem FramedRecord.stripLine_ne_nil {reading : Reading} (record : FramedRecord reading) :
    stripLine record.text ≠ [] := by
  intro hempty
  obtain ⟨_, _, hrun⟩ := run_of_lex record.invalid_not_mem
  obtain ⟨maxDigits, maxDepth, hdecode⟩ := record.serialises
  have hlex := lex_stripLine hrun
  rw [hempty] at hlex
  rw [decode_congr hlex.symm] at hdecode
  cases hdecode

/-- A record on one line is read, unless it goes beyond the limits of Python. -/
theorem parseStreamLine_record {reading : Reading} (record : FramedRecord reading) :
    parseStreamLine reading record.text =
      if Fits reading record.text (.obj record.object) then .ok (some (streamEvent record.object))
      else .error .refused := by
  unfold parseStreamLine
  rw [if_neg record.stripLine_ne_nil, record.loads_stripLine, record.loads_text]
  by_cases hfits : Fits reading record.text (.obj record.object)
  · simp only [hfits, if_true]
  · simp only [hfits, if_false]

/-! ### Records with one -/

/-- JSON has the line ends that are no newlines only inside of strings. -/
theorem step_lineBreak {mode next : LexMode} {c : Char} {tokens : List JsonToken}
    (hbreak : isLineBreak c = true) (hnewline : c ≠ '\n') (hreturn : c ≠ '\r')
    (h : mode.step c = some (tokens, next)) :
    ∃ units, mode = .string units ∧ next = .string (units ++ [c.toNat]) := by
  rcases step_invisible (isVisible_of_isLineBreak hbreak) h with
    ⟨_, -, hspace, -⟩ | ⟨units, rfl, -, rfl⟩
  · simp only [isJsonSpace, Bool.or_eq_true, decide_eq_true_eq] at hspace
    rcases hspace with ((rfl | rfl) | rfl) | rfl
    · cases hbreak
    · cases hbreak
    · exact absurd rfl hnewline
    · exact absurd rfl hreturn
  · exact ⟨units, rfl, rfl⟩

/-- A value with a string that holds a line end. -/
def breaksLine (v : Json) : Bool := v.strings.any fun s => s.toList.any isLineBreak

/-- A string has no control characters. -/
theorem not_control_of_step {units : List Nat} {c : Char} {result : List JsonToken × LexMode}
    (h : (LexMode.string units).step c = some result) : 0x20 ≤ c.toNat := by
  by_cases hquote : c = '"'
  · subst hquote
    decide
  · by_cases hbackslash : c = '\\'
    · subst hbackslash
      decide
    · simp only [LexMode.step, hquote, hbackslash, if_false] at h
      split at h
      · cases h
      · rename_i hcontrol
        exact Nat.not_lt.mp hcontrol

/-- A line end of a text is no control character, and stands in a string of what
is read. -/
theorem FramedRecord.mem_strings {reading : Reading} (record : FramedRecord reading) {c : Char}
    (hc : c ∈ record.text) (hbreak : isLineBreak c = true) :
    0x20 ≤ c.toNat ∧ ∃ s ∈ (Json.obj record.object).strings, c ∈ s.toList := by
  obtain ⟨maxDigits, maxDepth, hdecode⟩ := record.serialises
  obtain ⟨hvalid, hstrings⟩ := strings_of_decode hdecode
  obtain ⟨before, after, htext⟩ := List.append_of_mem hc
  obtain ⟨all, word, hrun⟩ := run_of_lex hvalid
  have hlex := lex_append hrun []
  rw [List.append_nil] at hlex
  rw [htext] at hrun
  obtain ⟨front, mode, behind, -, hrest, rfl⟩ := run_split hrun
  obtain ⟨tokens, next, more, hstep, hafter, rfl⟩ := run_cons hrest
  obtain ⟨units, rfl, rfl⟩ := step_lineBreak hbreak (fun h => record.no_newline (h ▸ hc))
    (fun h => record.no_return (h ▸ hc)) hstep
  have hunit : c.toNat ∈ (LexMode.string (units ++ [c.toNat])).units :=
    List.mem_append_right _ (List.mem_singleton_self _)
  obtain ⟨units', hmem, htoken⟩ := run_units hunit hafter
  have hstring : String.ofList (ofUnits units') ∈ (Json.obj record.object).strings := by
    apply hstrings
    rw [hlex]
    simp [htoken]
  refine ⟨not_control_of_step hstep, _, hstring, ?_⟩
  rw [String.toList_ofList]
  exact mem_ofUnits hmem

/-- A text with a line end is read with a string that holds it. -/
theorem breaksLine_of_mem {reading : Reading} (record : FramedRecord reading) {c : Char}
    (hc : c ∈ record.text) (hbreak : isLineBreak c = true) :
    breaksLine (.obj record.object) = true := by
  obtain ⟨-, s, hs, hmem⟩ := record.mem_strings hc hbreak
  exact List.any_eq_true.mpr ⟨s, hs, List.any_eq_true.mpr ⟨c, hmem, hbreak⟩⟩

/-- The characters of one line that JSON has outside of strings, the quotation
mark apart. -/
def isPlain (c : Char) : Bool := c = ' ' || c = '\t' || isMark c || isWordChar c

theorem isLineBreak_of_isPlain {c : Char} (h : isPlain c = true) : isLineBreak c = false := by
  cases hbreak : isLineBreak c with
  | false => rfl
  | true =>
      have hvisible := isVisible_of_isLineBreak hbreak
      simp only [isPlain, Bool.or_eq_true, decide_eq_true_eq] at h
      rcases h with ((rfl | rfl) | hmark) | hword
      · cases hbreak
      · cases hbreak
      · rw [isVisible_of_isMark hmark] at hvisible
        cases hvisible
      · rw [isVisible_of_isWordChar hword] at hvisible
        cases hvisible

theorem isPlain_of_step_outside {word : List Char} {c : Char}
    {result : List JsonToken × LexMode} (hquote : c ≠ '"') (hnewline : c ≠ '\n')
    (hreturn : c ≠ '\r') (h : (LexMode.outside word).step c = some result) :
    isPlain c = true := by
  simp only [LexMode.step, hquote, if_false] at h
  simp only [isPlain, Bool.or_eq_true, decide_eq_true_eq]
  split at h
  · rename_i hspace
    simp only [isJsonSpace, Bool.or_eq_true, decide_eq_true_eq, hnewline, hreturn, or_false]
      at hspace
    exact .inl (.inl hspace)
  · split at h
    · rename_i hmark
      exact .inl (.inr hmark)
    · split at h
      · rename_i hword
        exact .inr hword
      · cases h

/-- The machine on the text of a record, and the one that begins at a piece of
it: where one stands in a string the other stands outside. -/
inductive Opposed : LexMode → LexMode → Prop
  | outside (units : List Nat) (word : List Char) : Opposed (.string units) (.outside word)
  | inside (word : List Char) (chars : List Char) (h : ∀ c ∈ chars, isPlain c = true) :
      Opposed (.outside word) (.string (chars.map Char.toNat))

theorem Opposed.step {mode mode' next next' : LexMode} {c : Char} {tokens tokens' : List JsonToken}
    (h : Opposed mode mode') (hnewline : c ≠ '\n') (hreturn : c ≠ '\r')
    (hstep : mode.step c = some (tokens, next)) (hstep' : mode'.step c = some (tokens', next')) :
    Opposed next next' ∧
      ∀ s, JsonToken.str s ∈ tokens' → ∀ c ∈ s.toList, isPlain c = true := by
  cases h with
  | outside units word =>
      by_cases hquote : c = '"'
      · subst hquote
        cases hstep
        cases hstep'
        refine ⟨.inside [] [] (by simp), fun s hs => ?_⟩
        cases word <;> simp [LexMode.flush] at hs
      · have hbackslash := (ascii_of_step_outside hstep').2
        obtain ⟨⟨word', rfl⟩, hstrings⟩ := step_outside hquote hstep'
        simp only [LexMode.step, hquote, hbackslash, if_false] at hstep
        split at hstep
        · cases hstep
        · cases hstep
          exact ⟨.outside _ _, fun s hs => absurd hs (hstrings s)⟩
  | inside word chars hchars =>
      by_cases hquote : c = '"'
      · subst hquote
        cases hstep
        cases hstep'
        refine ⟨.outside [] [], fun s hs => ?_⟩
        obtain rfl := JsonToken.str.inj (List.mem_singleton.mp hs)
        rw [ofUnits_map, String.toList_ofList]
        exact hchars
      · have hbackslash := (ascii_of_step_outside hstep).2
        have hplain := isPlain_of_step_outside hquote hnewline hreturn hstep
        obtain ⟨⟨word', rfl⟩, -⟩ := step_outside hquote hstep
        simp only [LexMode.step, hquote, hbackslash, if_false] at hstep'
        split at hstep'
        · cases hstep'
        · cases hstep'
          refine ⟨?_, by simp⟩
          have hmore := Opposed.inside word' (chars ++ [c]) fun other hother => by
            rcases List.mem_append.mp hother with hold | hnew
            · exact hchars other hold
            · rwa [List.mem_singleton.mp hnew]
          simpa using hmore

/-- Whatever strings a piece has on its own, they are plain. -/
theorem Opposed.lex {mode mode' last : LexMode} {text : List Char} {tokens : List JsonToken}
    (h : Opposed mode mode') (hnewline : '\n' ∉ text) (hreturn : '\r' ∉ text)
    (hrun : mode.run text = some (tokens, last)) :
    ∀ s, JsonToken.str s ∈ JsonText.lex mode' text → ∀ c ∈ s.toList, isPlain c = true := by
  induction text generalizing mode mode' tokens with
  | nil =>
      intro s hs
      cases h with
      | outside units word => cases word <;> simp [JsonText.lex, LexMode.flush] at hs
      | inside word chars hchars => simp [JsonText.lex] at hs
  | cons c rest ih =>
      rw [List.mem_cons, not_or] at hnewline hreturn
      obtain ⟨first, next, more, hstep, hrest, -⟩ := run_cons hrun
      intro s hs
      rw [JsonText.lex] at hs
      cases hstep' : mode'.step c with
      | none =>
          simp only [hstep'] at hs
          cases h with
          | outside units word => cases word <;> simp [LexMode.flush] at hs
          | inside word chars hchars => simp [LexMode.flush] at hs
      | some result =>
          obtain ⟨tokens', next'⟩ := result
          simp only [hstep'] at hs
          obtain ⟨hopposed, hstrings⟩ :=
            h.step (Ne.symm hnewline.1) (Ne.symm hreturn.1) hstep hstep'
          rcases List.mem_append.mp hs with hs | hs
          · exact hstrings s hs
          · exact ih hopposed hnewline.2 hreturn.2 hrest s hs

theorem loads_of_parseStreamLine {reading : Reading} {line : List Char} {event : StreamEvent}
    (h : parseStreamLine reading line = .ok (some event)) :
    ∃ obj, loads reading (stripLine line) = .ok (.obj obj) ∧ event = streamEvent obj := by
  simp only [parseStreamLine] at h
  split at h
  · cases h
  · split at h
    · cases h
    · cases h
    · rename_i obj hloads
      cases h
      exact ⟨obj, hloads, rfl⟩
    · cases h

theorem isPlain_of_inside {reading : Reading} {units : List Nat} {last : LexMode}
    {piece : List Char} {tokens : List JsonToken} {v : Json}
    (hnewline : '\n' ∉ piece) (hreturn : '\r' ∉ piece)
    (hrun : (LexMode.string units).run piece = some (tokens, last))
    (h : loads reading (stripLine piece) = .ok v) :
    ∀ s ∈ v.strings, ∀ c ∈ s.toList, isPlain c = true := by
  obtain ⟨before, after, hpiece, hbefore, -⟩ := stripLine_spec piece
  have hsub : ∀ c ∈ stripLine piece, c ∈ piece := fun c hc => by
    rw [hpiece]
    simp [hc]
  have hmiddle : ∃ units' tokens' last',
      (LexMode.string units').run (stripLine piece) = some (tokens', last') := by
    rw [hpiece] at hrun
    obtain ⟨_, _, _, hfront, -⟩ := run_split hrun
    obtain ⟨_, mode, _, hspaces, hmiddle, -⟩ := run_split hfront
    rcases run_invisible hbefore hspaces with ⟨-, rfl⟩ | ⟨_, _, hmode, -⟩ | ⟨_, units', -, rfl, -⟩
    · exact ⟨_, _, _, hmiddle⟩
    · cases hmode
    · exact ⟨_, _, _, hmiddle⟩
  obtain ⟨units', tokens', last', hmiddle⟩ := hmiddle
  have hstrings := (Opposed.outside units' []).lex (fun hc => hnewline (hsub _ hc))
    (fun hc => hreturn (hsub _ hc)) hmiddle
  exact fun s hs => hstrings s ((strings_of_loads h).2 s hs)

/-- A piece that ends inside a string is not read. -/
theorem loads_of_unclosed {reading : Reading} {units : List Nat} {piece : List Char}
    {tokens : List JsonToken} {v : Json}
    (hrun : (LexMode.outside []).run piece = some (tokens, .string units)) :
    loads reading (stripLine piece) ≠ .ok v := by
  intro h
  apply (strings_of_loads h).1
  rw [lex_stripLine hrun]
  exact invalid_of_run hrun (by simp)

/-- A piece the machine comes to inside a string. -/
def BeginsInside (piece : List Char) : Prop :=
  ∃ units tokens last, (LexMode.string units).run piece = some (tokens, last)

/-- The pieces behind a line end begin inside a string; so do all of them when
the first one does. -/
theorem beginsInside_of_pieces {text partialLine : List Char} {units : List Nat}
    {mode last : LexMode} {tokens tokens' : List JsonToken} (hnewline : '\n' ∉ text)
    (hreturn : '\r' ∉ text)
    (hsofar : (LexMode.string units).run partialLine = some (tokens, mode))
    (hrun : mode.run text = some (tokens', last)) :
    ∀ piece ∈ pieces partialLine text, BeginsInside piece := by
  induction text generalizing partialLine units mode tokens tokens' with
  | nil =>
      intro piece hpiece
      obtain rfl := List.mem_singleton.mp hpiece
      exact ⟨units, tokens, mode, hsofar⟩
  | cons c rest ih =>
      rw [List.mem_cons, not_or] at hnewline hreturn
      obtain ⟨first, next, more, hstep, hrest, -⟩ := run_cons hrun
      intro piece hpiece
      rw [pieces] at hpiece
      split at hpiece
      · rename_i hbreak
        obtain ⟨units', -, rfl⟩ :=
          step_lineBreak hbreak (Ne.symm hnewline.1) (Ne.symm hreturn.1) hstep
        rcases List.mem_cons.mp hpiece with rfl | hpiece
        · exact ⟨units, tokens, mode, hsofar⟩
        · exact ih hnewline.2 hreturn.2 rfl hrest piece hpiece
      · have hstepRun : mode.run [c] = some (first ++ [], next) := by
          simp only [LexMode.run, hstep, Option.map_some]
        exact ih hnewline.2 hreturn.2 (run_append hsofar hstepRun) hrest piece hpiece

/-- The first piece of a text with a line end ends inside a string, and the
others begin there. -/
theorem pieces_of_break {text partialLine : List Char} {mode last : LexMode}
    {tokens tokens' : List JsonToken} (hnewline : '\n' ∉ text) (hreturn : '\r' ∉ text)
    (hbreak : text.any isLineBreak = true)
    (hsofar : (LexMode.outside []).run partialLine = some (tokens, mode))
    (hrun : mode.run text = some (tokens', last)) :
    ∃ piece others units tokens, pieces partialLine text = piece :: others ∧
      (LexMode.outside []).run piece = some (tokens, .string units) ∧
      ∀ other ∈ others, BeginsInside other := by
  induction text generalizing partialLine mode tokens tokens' with
  | nil => cases hbreak
  | cons c rest ih =>
      rw [List.mem_cons, not_or] at hnewline hreturn
      obtain ⟨first, next, more, hstep, hrest, -⟩ := run_cons hrun
      rw [pieces]
      split
      · rename_i hc
        obtain ⟨units, rfl, rfl⟩ := step_lineBreak hc (Ne.symm hnewline.1) (Ne.symm hreturn.1) hstep
        exact ⟨partialLine, pieces [] rest, units, tokens, rfl, hsofar,
          beginsInside_of_pieces hnewline.2 hreturn.2 rfl hrest⟩
      · rename_i hc
        rw [Bool.not_eq_true] at hc
        rw [List.any_cons, hc, Bool.false_or] at hbreak
        have hstepRun : mode.run [c] = some (first ++ [], next) := by
          simp only [LexMode.run, hstep, Option.map_some]
        exact ih hnewline.2 hreturn.2 hbreak (run_append hsofar hstepRun) hrest

theorem mem_of_mem_pieces {text partialLine piece : List Char} {c : Char}
    (hpiece : piece ∈ pieces partialLine text) (hc : c ∈ piece) : c ∈ partialLine ++ text := by
  induction text generalizing partialLine with
  | nil =>
      obtain rfl := List.mem_singleton.mp hpiece
      exact List.mem_append_left _ hc
  | cons d rest ih =>
      rw [pieces] at hpiece
      split at hpiece
      · rcases List.mem_cons.mp hpiece with rfl | hpiece
        · exact List.mem_append_left _ hc
        · exact List.mem_append_right _ (List.mem_cons_of_mem _ (ih hpiece))
      · have hmem := ih hpiece
        rwa [List.append_assoc] at hmem

theorem isPlain_of_pieces {reading : Reading} (record : FramedRecord reading)
    (hbreak : record.text.any isLineBreak = true) {piece : List Char} {v : Json}
    (hpiece : piece ∈ pieces [] record.text) (h : loads reading (stripLine piece) = .ok v) :
    ∀ s ∈ v.strings, ∀ c ∈ s.toList, isPlain c = true := by
  obtain ⟨tokens, word, hrun⟩ := run_of_lex record.invalid_not_mem
  have hstart : (LexMode.outside []).run [] = some ([], .outside []) := rfl
  obtain ⟨first, others, units, _, hpieces, hunclosed, hinside⟩ :=
    pieces_of_break record.no_newline record.no_return hbreak hstart hrun
  have hmem := hpiece
  rw [hpieces] at hmem
  rcases List.mem_cons.mp hmem with rfl | hmem
  · exact absurd h (loads_of_unclosed hunclosed)
  · obtain ⟨_, _, _, hpieceRun⟩ := hinside piece hmem
    exact isPlain_of_inside (fun hc => record.no_newline (mem_of_mem_pieces hpiece hc))
      (fun hc => record.no_return (mem_of_mem_pieces hpiece hc)) hpieceRun h

/-- What a record with a line end yields are no records with one. -/
theorem not_breaksLine_of_pieces {reading : Reading} (record : FramedRecord reading)
    (hbreak : record.text.any isLineBreak = true) {piece : List Char} {event : StreamEvent}
    (hpiece : piece ∈ pieces [] record.text)
    (h : parseStreamLine reading piece = .ok (some event)) :
    breaksLine (.obj event.raw) = false := by
  obtain ⟨obj, hloads, rfl⟩ := loads_of_parseStreamLine h
  have hplain := isPlain_of_pieces record hbreak hpiece hloads
  rw [breaksLine, List.any_eq_false]
  intro s hs
  rw [Bool.not_eq_true, List.any_eq_false]
  intro c hc
  rw [isLineBreak_of_isPlain (hplain s hs c hc)]
  exact Bool.false_ne_true

/-! ### The stream -/

section Stream

variable {reading : Reading}

theorem parseLines_append {lines others : List (List Char)} {events : List StreamEvent}
    (h : parseLines reading (lines ++ others) = (events, none)) :
    ∃ front behind, parseLines reading lines = (front, none) ∧
      parseLines reading others = (behind, none) ∧ events = front ++ behind := by
  induction lines generalizing events with
  | nil => exact ⟨[], events, rfl, h, rfl⟩
  | cons line rest ih =>
      rw [List.cons_append, parseLines] at h
      rw [parseLines]
      cases hline : parseStreamLine reading line with
      | error error =>
          simp only [hline] at h
          cases h
      | ok yielded =>
          cases yielded with
          | none =>
              simp only [hline] at h
              exact ih h
          | some event =>
              simp only [hline, Prod.mk.injEq] at h
              obtain ⟨rfl, hnone⟩ := h
              obtain ⟨front, behind, hfront, hbehind, hevents⟩ := ih (Prod.ext rfl hnone)
              exact ⟨event :: front, behind, by simp [hfront], hbehind,
                congrArg (event :: ·) hevents⟩

theorem parseStreamLine_of_mem {lines : List (List Char)} {event : StreamEvent}
    (h : event ∈ (parseLines reading lines).1) :
    ∃ line ∈ lines, parseStreamLine reading line = .ok (some event) := by
  induction lines with
  | nil => cases h
  | cons line rest ih =>
      rw [parseLines] at h
      split at h
      · cases h
      · obtain ⟨other, hother, hyields⟩ := ih h
        exact ⟨other, List.mem_cons_of_mem _ hother, hyields⟩
      · rename_i first hfirst
        rcases List.mem_cons.mp h with rfl | h
        · exact ⟨line, List.mem_cons_self, hfirst⟩
        · obtain ⟨other, hother, hyields⟩ := ih h
          exact ⟨other, List.mem_cons_of_mem _ hother, hyields⟩

/-- The objects with a line end in a string that are read are fewer than those
written, by one for each record with a line end in its text; and a record
without one is within the limits if nothing is raised. -/
theorem count_breaksLine (records : List (FramedRecord reading)) {events : List StreamEvent}
    (h : parseLines reading (records.flatMap fun record => pieces [] record.text) =
      (events, none)) :
    events.countP (fun event => breaksLine (.obj event.raw)) +
        records.countP (fun record => record.text.any isLineBreak) ≤
      records.countP (fun record => breaksLine (.obj record.object)) ∧
    ∀ record ∈ records, record.text.any isLineBreak = false →
      Fits reading record.text (.obj record.object) := by
  induction records generalizing events with
  | nil =>
      cases h
      exact ⟨Nat.le_refl _, by simp⟩
  | cons record others ih =>
      rw [List.flatMap_cons] at h
      obtain ⟨front, behind, hfront, hbehind, rfl⟩ := parseLines_append h
      obtain ⟨hcount, hfits⟩ := ih hbehind
      rw [List.countP_append, List.countP_cons, List.countP_cons, List.forall_mem_cons]
      by_cases hbreak : record.text.any isLineBreak = true
      · obtain ⟨c, hc, hcBreak⟩ := List.any_eq_true.mp hbreak
        have hnone : front.countP (fun event => breaksLine (.obj event.raw)) = 0 := by
          rw [List.countP_eq_zero]
          intro event hevent
          have hmem : event ∈ (parseLines reading (pieces [] record.text)).1 := by rwa [hfront]
          obtain ⟨piece, hpiece, hyields⟩ := parseStreamLine_of_mem hmem
          rw [not_breaksLine_of_pieces record hbreak hpiece hyields]
          exact Bool.false_ne_true
        rw [breaksLine_of_mem record hc hcBreak, hbreak, hnone]
        refine ⟨by simp; omega, ?_, hfits⟩
        intro hclean
        cases hclean
      · rw [Bool.not_eq_true] at hbreak
        have hclean : ∀ c ∈ record.text, isLineBreak c = false := by simpa using hbreak
        rw [pieces_of_no_break hclean, List.nil_append, parseLines,
          parseStreamLine_record record] at hfront
        by_cases hfit : Fits reading record.text (.obj record.object)
        · rw [if_pos hfit] at hfront
          obtain ⟨rfl, -⟩ := Prod.mk.inj hfront
          refine ⟨?_, fun _ => hfit, hfits⟩
          have hraw : (streamEvent record.object).raw = record.object := rfl
          cases hmention : breaksLine (.obj record.object)
          · simp [parseLines, hraw, hmention, hbreak, hcount]
          · simp [parseLines, hraw, hmention, hbreak]
            omega
        · rw [if_neg hfit] at hfront
          cases hfront

theorem parseLines_clean (records : List (FramedRecord reading))
    (h : ∀ record ∈ records, (∀ c ∈ record.text, isLineBreak c = false) ∧
      Fits reading record.text (.obj record.object)) :
    parseLines reading (records.flatMap fun record => pieces [] record.text) =
      (records.map fun record => streamEvent record.object, none) := by
  induction records with
  | nil => rfl
  | cons record others ih =>
      obtain ⟨⟨hclean, hfits⟩, hothers⟩ := List.forall_mem_cons.mp h
      rw [List.flatMap_cons, pieces_of_no_break hclean, List.nil_append, List.singleton_append,
        parseLines, parseStreamLine_record record, if_pos hfits, ih hothers]
      rfl

/-- What is written is read back exactly when no text holds a line end of Unicode
as it is, and every text is within the limits of Python. Such a line end takes a
record into pieces, and no piece of it is an event. -/
theorem parseStreamLines_framed_iff (records : List (FramedRecord reading)) :
    parseStreamLines reading (framed records) =
        (records.map fun record => streamEvent record.object, none) ↔
      ∀ record ∈ records, (∀ c ∈ record.text, isLineBreak c = false) ∧
        Fits reading record.text (.obj record.object) := by
  rw [parseStreamLines, splitLines_framed]
  constructor
  · intro h
    obtain ⟨hcount, hfits⟩ := count_breaksLine records h
    rw [List.countP_map] at hcount
    have hzero : records.countP (fun record => record.text.any isLineBreak) = 0 := by
      have hsame : records.countP
          ((fun event => breaksLine (.obj event.raw)) ∘ fun record => streamEvent record.object) =
          records.countP fun record => breaksLine (.obj record.object) := rfl
      omega
    rw [List.countP_eq_zero] at hzero
    intro record hrecord
    have hclean := hzero record hrecord
    rw [Bool.not_eq_true] at hclean
    exact ⟨by simpa using hclean, hfits record hrecord hclean⟩
  · exact parseLines_clean records

end Stream

/-- `{"result":"a…b"}` with a line separator between the two letters. -/
def separatedText : List Char := "\x7b\"result\":\"a\u2028b\"\x7d".toList

theorem lex_separatedText :
    JsonText.lex (.outside []) separatedText =
      [.mark '\x7b', .str "result", .mark ':', .str "a\u2028b", .mark '\x7d'] := by
  decide +kernel

theorem decode_separatedText (maxDigits : Nat) :
    decode ⟨fun _ => .nan, maxDigits, 1000, true⟩ distinctHook separatedText =
      .ok (.obj [("result", .str "a\u2028b")]) := by
  simp only [decode, lex_separatedText]
  rfl

theorem separatedText_one_line : '\n' ∉ separatedText ∧ '\r' ∉ separatedText := by
  decide +kernel

def separatedRecord : FramedRecord ⟨fun _ => .nan, 4300, 1000, true⟩ where
  object := [("result", .str "a\u2028b")]
  text := separatedText
  serialises := ⟨4300, 1000, decode_separatedText 4300⟩
  no_newline := separatedText_one_line.1
  no_return := separatedText_one_line.2

theorem parseStreamLines_separatedRecord :
    parseStreamLines ⟨fun _ => .nan, 4300, 1000, true⟩ (framed [separatedRecord]) ≠
      ([separatedRecord].map fun record => streamEvent record.object, none) := by
  intro h
  have hlength := congrArg (fun parsed => parsed.1.length) h
  revert hlength
  decide +kernel

end ClaudeCode

end ForgeOS
