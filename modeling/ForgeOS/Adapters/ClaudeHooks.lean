import ForgeOS.Adapters.Bridge
import ForgeOS.Json
import ForgeOS.Library.Effect
import ForgeOS.Text

/-!
The hooks that are put into `.claude/settings.json` for a run of Claude Code
and taken out of it afterwards. What is written back is the text that was read,
and the file is written in place, so the bytes of the file come back only where
reading, merging and writing have lost none of them.
-/

namespace ForgeOS

open Library

namespace ClaudeSettings

/-- A value of `json.loads`, and what `dict` makes of one: its strings need
not have an encoding, and its keys need not be strings. -/
inductive PyValue where
  | null
  | bool (value : Bool)
  | int (value : Int)
  | float (value : PyFloat)
  | str (text : PyText)
  | list (items : List PyValue)
  | dict (entries : List (PyValue × PyValue))

abbrev PyDict := List (PyValue × PyValue)

namespace PyValue

def ofString (text : String) : PyValue := .str (PyText.ofString text)

/-- `type(value).__name__`. -/
def typeName : PyValue → String
  | .null => "NoneType"
  | .bool _ => "bool"
  | .int _ => "int"
  | .float _ => "float"
  | .str _ => "str"
  | .list _ => "list"
  | .dict _ => "dict"

/-- The number a value compares as. -/
def number? : PyValue → Option PyFloat
  | .bool value => some (.finite (if value then 1 else 0))
  | .int value => some (.finite value)
  | .float value => some value
  | _ => none

/-- Two values are the same key of a `dict`. The decoder has only one NaN. -/
def sameKey : PyValue → PyValue → Bool
  | .null, .null => true
  | .str a, .str b => a = b
  | a, b =>
      match a.number?, b.number? with
      | some x, some y => x = y
      | _, _ => false

def hashable : PyValue → Bool
  | .list _ | .dict _ => false
  | _ => true

/-- What an iteration over a value gives. -/
def items? : PyValue → Option (List PyValue)
  | .str text => some (text.map fun c => .str [c])
  | .list items => some items
  | .dict entries => some (entries.map Prod.fst)
  | _ => none

/-- `list(value)`. -/
def toList (value : PyValue) : Except PyError (List PyValue) :=
  match value.items? with
  | some items => .ok items
  | none => .error ⟨"TypeError", s!"'{value.typeName}' object is not iterable"⟩

end PyValue

namespace PyDict

/-- `entries.get(key, default)`. -/
def getD (entries : PyDict) (key : String) (default : PyValue) : PyValue :=
  ((entries.find? fun entry => entry.1.sameKey (.ofString key)).map Prod.snd).getD default

/-- `entries[key] = value`; a key that is there already stays. -/
def set : PyDict → PyValue → PyValue → PyDict
  | [], key, value => [(key, value)]
  | entry :: rest, key, value =>
      if entry.1.sameKey key then (entry.1, value) :: rest else entry :: set rest key value

/-- An element of the sequence that `dict` updates from. -/
def setPair (entries : PyDict) (element : PyValue × Nat) : Except PyError PyDict :=
  match element.1.items? with
  | none => .error ⟨"TypeError",
      s!"cannot convert dictionary update sequence element #{element.2} to a sequence"⟩
  | some [key, value] =>
      if key.hashable then .ok (entries.set key value)
      else .error ⟨"TypeError", s!"unhashable type: '{key.typeName}'"⟩
  | some items => .error ⟨"ValueError",
      s!"dictionary update sequence element #{element.2} has length {items.length}; 2 is required"⟩

end PyDict

/-- `dict(value)`. -/
def PyValue.toDict : PyValue → Except PyError PyDict
  | .dict entries => .ok entries
  | value => do
      let items ← value.toList
      items.zipIdx.foldlM PyDict.setPair []

/-! ### The writer -/

/-- What `json.loads` raises. -/
inductive LoadsError where
  | decode (message : String)
  | other (error : PyError)

/-- The `json` module. -/
structure JsonModule where
  loads : String → Except LoadsError PyValue
  /-- `json.dumps(merged, indent=2, ensure_ascii=False)`. -/
  dumps : PyDict → Except PyError PyText

/-- The arguments of a `ClaudeSettingsHookWriter`. -/
structure HookWriter where
  preToolCommand : PyText
  postToolCommand : PyText
  matcher : PyText := PyText.ofString "*"

def hookBlock (command matcher : PyText) : PyValue :=
  .dict [
    (.ofString "matcher", .str matcher),
    (.ofString "hooks", .list [
      .dict [(.ofString "type", .ofString "command"), (.ofString "command", .str command)]])]

def loadSettings (json : JsonModule) (text : String) : Except PyError PyDict :=
  match json.loads text with
  | .error (.decode message) => .error ⟨"ClaudeSettingsError",
      s!"existing .claude/settings.json is not valid JSON: {message}"⟩
  | .error (.other error) => .error error
  | .ok (.dict settings) => .ok settings
  | .ok _ =>
      .error ⟨"ClaudeSettingsError", ".claude/settings.json must contain a JSON object"⟩

def mergeHooks (writer : HookWriter) (settings : PyDict) : Except PyError PyDict := do
  let hooks ← (PyDict.getD settings "hooks" (.dict [])).toDict
  let pre ← (hooks.getD "PreToolUse" (.list [])).toList
  let post ← (hooks.getD "PostToolUse" (.list [])).toList
  let pre := pre ++ [hookBlock writer.preToolCommand writer.matcher]
  let post := post ++ [hookBlock writer.postToolCommand writer.matcher]
  let hooks := (hooks.set (.ofString "PreToolUse") (.list pre)).set (.ofString "PostToolUse")
    (.list post)
  return PyDict.set settings (.ofString "hooks") (.dict hooks)

/-- The directory `.claude`. -/
structure ClaudeDir where
  settings : Option (List UInt8) := none
  hasOthers : Bool := false
deriving DecidableEq

/-- The directory, and what the writer remembers of it. -/
structure HookRun where
  claudeDir : Option ClaudeDir
  originalText : Option String := none
  createdClaudeDir : Bool := false

def settingsOf (claudeDir : Option ClaudeDir) : Option (List UInt8) :=
  claudeDir.bind ClaudeDir.settings

def HookRun.setSettings (run : HookRun) (settings : Option (List UInt8)) : HookRun :=
  { run with claudeDir := run.claudeDir.map fun dir => { dir with settings := settings } }

/-- How a `write_text` ends: a refused one has not opened the file, and one that
is interrupted has put only the first bytes into it. -/
inductive WriteOutcome where
  | done
  | refused (error : PyError)
  | interrupted (error : PyError) (count : Nat)

namespace WriteOutcome

def error? : WriteOutcome → Option PyError
  | .done => none
  | .refused error => some error
  | .interrupted error _ => some error

/-- What is in a file after bytes have been written to it. -/
def leaves (outcome : WriteOutcome) (bytes : List UInt8) (before : Option (List UInt8)) :
    Option (List UInt8) :=
  match outcome with
  | .done => some bytes
  | .refused _ => before
  | .interrupted _ count => some (bytes.take count)

end WriteOutcome

/-- How the calls of `install` and `restore` on the file system end, with the
`OSError` they raise if they do. -/
structure FileCalls where
  claudeDirExists : Option PyError := none
  mkdir : Option PyError := none
  settingsExists : Option PyError := none
  read : Option PyError := none
  write : WriteOutcome := .done
  rewrite : WriteOutcome := .done
  unlink : Option PyError := none
  /-- Of looking into the directory and removing it. -/
  rmdir : Option PyError := none

def raiseIf : Option PyError → Effect HookRun PyError Unit
  | some error => throw error
  | none => pure ()

/-- `self._settings_path.write_text(text, encoding="utf-8")`: the file is opened,
and with that emptied, before the text is encoded. -/
def writeText (outcome : WriteOutcome) (text : PyText) : Effect HookRun PyError Unit := do
  let run ← get
  match text.encode? with
  | none =>
      match outcome with
      | .refused error => throw error
      | _ =>
          set (run.setSettings (some []))
          throw ⟨"UnicodeEncodeError", "surrogates not allowed"⟩
  | some bytes =>
      set (run.setSettings (outcome.leaves bytes (settingsOf run.claudeDir)))
      raiseIf outcome.error?

/-- The directory is made if there is none. -/
def makeClaudeDir (calls : FileCalls) : Effect HookRun PyError Unit := do
  raiseIf calls.claudeDirExists
  if (← get).claudeDir.isNone then
    raiseIf calls.mkdir
    modify fun run => { run with claudeDir := some {}, createdClaudeDir := true }

/-- The settings there are, and the text they have been read from. -/
def readOriginal (json : JsonModule) (calls : FileCalls) : Effect HookRun PyError PyDict := do
  raiseIf calls.settingsExists
  match settingsOf (← get).claudeDir with
  | some content =>
      raiseIf calls.read
      let text ← Effect.ofExcept <| match readText content with
        | some text => .ok text
        | none => .error ⟨"UnicodeDecodeError", "invalid utf-8"⟩
      modify fun run => { run with originalText := some text }
      Effect.ofExcept (loadSettings json text)
  | none =>
      modify fun run => { run with originalText := none }
      return []

def install (json : JsonModule) (writer : HookWriter) (calls : FileCalls) :
    Effect HookRun PyError Unit := do
  makeClaudeDir calls
  let settings ← readOriginal json calls
  let merged ← Effect.ofExcept (mergeHooks writer settings)
  let text ← Effect.ofExcept (json.dumps merged)
  writeText calls.write (text ++ PyText.ofString "\n")

/-- What `restore` does, and can only raise an `OSError` from. -/
def restoring (calls : FileCalls) : Effect HookRun PyError Unit := do
  match (← get).originalText with
  | some text => writeText calls.rewrite (PyText.ofString text)
  | none =>
      raiseIf calls.unlink
      modify fun run => run.setSettings none
      let run ← get
      if run.createdClaudeDir ∧ run.claudeDir.any fun dir => !dir.hasOthers then
        raiseIf calls.rmdir
        set { run with claudeDir := none, createdClaudeDir := false }

/-- `ClaudeSettingsHookWriter.restore`, which logs the exception. -/
def restore (calls : FileCalls) (run : HookRun) : HookRun := ((restoring calls).exec run).2

/-! ### What is asked of the settings -/

/-- An `install` that returns and a `restore` give back the directory as it was,
and an `install` that raises leaves the settings as they were. -/
def RestoresSettings (json : JsonModule) (writer : HookWriter) (calls : FileCalls)
    (prior : Option ClaudeDir) : Prop :=
  match (install json writer calls).exec { claudeDir := prior } with
  | (.ok _, run) => (restore calls run).claudeDir = prior
  | (.error _, run) => settingsOf run.claudeDir = settingsOf prior

/-- The text that is remembered of the settings. -/
def ReadsAs (calls : FileCalls) (prior : Option ClaudeDir) (original : Option String) : Prop :=
  match settingsOf prior with
  | some content => calls.read = none ∧ ∃ text, readText content = some text ∧ original = some text
  | none => original = none

/-- The settings that a text has been read into. -/
def settingsIn (json : JsonModule) : Option String → Except PyError PyDict
  | some text => loadSettings json text
  | none => .ok []

/-- What is written over the settings. -/
def mergedText (json : JsonModule) (writer : HookWriter) (original : Option String) :
    Except PyError PyText := do
  let settings ← settingsIn json original
  let merged ← mergeHooks writer settings
  let text ← json.dumps merged
  return text ++ PyText.ofString "\n"

/-- There is a directory to write the settings to. -/
def HasClaudeDir (calls : FileCalls) (prior : Option ClaudeDir) : Prop :=
  calls.claudeDirExists = none ∧ (prior = none → calls.mkdir = none)

/-- Nothing fails before the merged text is written. -/
structure Merges (json : JsonModule) (writer : HookWriter) (calls : FileCalls)
    (prior : Option ClaudeDir) (original : Option String) (text : PyText) : Prop where
  hasClaudeDir : HasClaudeDir calls prior
  settingsExists : calls.settingsExists = none
  reads : ReadsAs calls prior original
  merged : mergedText json writer original = .ok text

/-- `restore` can take back what has been written: the text of the settings has
no carriage return, or the calls that put it back fail in such a way that its
bytes are there. -/
def TakesBack (calls : FileCalls) (prior : Option ClaudeDir) (original : Option String)
    (written : List UInt8) : Prop :=
  match original, calls.rewrite with
  | some _, .done => ∃ content decoded, settingsOf prior = some content ∧
      decodeUtf8 content = some decoded ∧ '\r' ∉ decoded.toList
  | some text, outcome => outcome.leaves (encodeUtf8 text) (some written) = settingsOf prior
  | none, _ => calls.unlink = none ∧ (prior = none → calls.rmdir = none)

/-- Where the settings are opened to be written, they are empty if the text
cannot be encoded, they begin it if the write is interrupted, and otherwise
`restore` can take it back. -/
def KeepsBytes (json : JsonModule) (writer : HookWriter) (calls : FileCalls)
    (prior : Option ClaudeDir) : Prop :=
  ∀ original text, Merges json writer calls prior original text →
    match calls.write, text.encode? with
    | .refused _, _ => True
    | _, none => settingsOf prior = some []
    | .interrupted _ count, some bytes => settingsOf prior = some (bytes.take count)
    | .done, some bytes => TakesBack calls prior original bytes

/-! ### Writing -/

theorem HookRun.setSettings_self (run : HookRun) :
    run.setSettings (settingsOf run.claudeDir) = run := by
  obtain ⟨claudeDir, original, created⟩ := run
  cases claudeDir with
  | none => rfl
  | some dir => rfl

theorem exec_writeText (outcome : WriteOutcome) (text : PyText) (run : HookRun) :
    (writeText outcome text).exec run =
      match outcome, text.encode? with
      | .refused error, _ => (.error error, run)
      | _, none => (.error ⟨"UnicodeEncodeError", "surrogates not allowed"⟩,
          run.setSettings (some []))
      | .interrupted error count, some bytes =>
          (.error error, run.setSettings (some (bytes.take count)))
      | .done, some bytes => (.ok (), run.setSettings (some bytes)) := by
  unfold writeText
  rw [Effect.exec_bind_ok _ (Effect.exec_get run)]
  cases text.encode? with
  | none =>
      cases outcome with
      | done => rfl
      | refused error => rfl
      | interrupted error count => rfl
  | some bytes =>
      cases outcome with
      | done => rfl
      | refused error =>
          change (Except.error error, run.setSettings (settingsOf run.claudeDir)) = _
          rw [run.setSettings_self]
      | interrupted error count => rfl

/-! ### Installing -/

variable {json : JsonModule} {writer : HookWriter} {calls : FileCalls} {prior : Option ClaudeDir}

/-- The state in which the merged text is written. -/
def opened (prior : Option ClaudeDir) (original : Option String) : HookRun :=
  ⟨some (prior.getD {}), original, prior.isNone⟩

theorem settingsOf_opened (prior : Option ClaudeDir) (original : Option String) :
    settingsOf (opened prior original).claudeDir = settingsOf prior := by
  cases prior with
  | none => rfl
  | some dir => rfl

theorem exec_raiseIf (error? : Option PyError) (run : HookRun) :
    (raiseIf error?).exec run =
      match error? with
      | some error => (.error error, run)
      | none => (.ok (), run) := by
  cases error? with
  | none => rfl
  | some error => rfl

theorem exec_makeClaudeDir (calls : FileCalls) (prior : Option ClaudeDir) :
    (HasClaudeDir calls prior ∧
      (makeClaudeDir calls).exec { claudeDir := prior } = (.ok (), opened prior none)) ∨
    (¬HasClaudeDir calls prior ∧
      ∃ error, (makeClaudeDir calls).exec { claudeDir := prior } =
        (.error error, { claudeDir := prior })) := by
  unfold makeClaudeDir HasClaudeDir
  rw [Effect.exec_bind, exec_raiseIf]
  cases hexists : calls.claudeDirExists with
  | some error => exact Or.inr ⟨fun h => (nomatch h.1), error, rfl⟩
  | none =>
      cases prior with
      | some dir => exact Or.inl ⟨⟨rfl, fun h => nomatch h⟩, rfl⟩
      | none =>
          cases hmkdir : calls.mkdir with
          | some error => exact Or.inr ⟨fun h => (nomatch h.2 rfl), error, rfl⟩
          | none => exact Or.inl ⟨⟨rfl, fun _ => rfl⟩, rfl⟩

theorem exec_readOriginal (json : JsonModule) (calls : FileCalls) (prior : Option ClaudeDir) :
    (calls.settingsExists = none ∧ ∃ original, ReadsAs calls prior original ∧
      (readOriginal json calls).exec (opened prior none) =
        (settingsIn json original, opened prior original)) ∨
    ((calls.settingsExists = none → ∀ original, ¬ReadsAs calls prior original) ∧
      ∃ error, (readOriginal json calls).exec (opened prior none) =
        (.error error, opened prior none)) := by
  unfold readOriginal
  rw [Effect.exec_bind, exec_raiseIf]
  cases hexists : calls.settingsExists with
  | some error => exact Or.inr ⟨fun h => (nomatch h), error, rfl⟩
  | none =>
      simp only [Effect.exec_bind, Effect.exec_get, settingsOf_opened, ReadsAs]
      cases hsettings : settingsOf prior with
      | none => exact Or.inl ⟨trivial, none, rfl, rfl⟩
      | some content =>
          simp only [Effect.exec_bind, exec_raiseIf]
          cases hread : calls.read with
          | some error => exact Or.inr ⟨fun _ _ h => (nomatch h.1), error, rfl⟩
          | none =>
              cases htext : readText content with
              | none => exact Or.inr ⟨fun _ _ ⟨_, _, h, _⟩ => (nomatch h), _, rfl⟩
              | some text => exact Or.inl ⟨trivial, some text, ⟨rfl, text, rfl, rfl⟩, rfl⟩

theorem readsAs_unique {original other : Option String} (h : ReadsAs calls prior original)
    (h' : ReadsAs calls prior other) : original = other := by
  unfold ReadsAs at h h'
  cases hsettings : settingsOf prior with
  | none =>
      rw [hsettings] at h h'
      exact h.trans h'.symm
  | some content =>
      rw [hsettings] at h h'
      obtain ⟨-, text, htext, rfl⟩ := h
      obtain ⟨-, text', htext', rfl⟩ := h'
      exact htext.symm.trans htext'

theorem exec_merging (json : JsonModule) (writer : HookWriter) (outcome : WriteOutcome)
    (original : Option String) (run : HookRun) :
    (Effect.ofExcept (settingsIn json original) >>= fun settings => do
      let merged ← Effect.ofExcept (mergeHooks writer settings)
      let text ← Effect.ofExcept (json.dumps merged)
      writeText outcome (text ++ PyText.ofString "\n")).exec run =
    match mergedText json writer original with
    | .ok text => (writeText outcome text).exec run
    | .error error => (.error error, run) := by
  unfold mergedText
  cases settingsIn json original with
  | error error => rfl
  | ok settings =>
      rw [ok_bind, Effect.exec_bind_ok _ (Effect.exec_ofExcept _ _)]
      cases mergeHooks writer settings with
      | error error => rfl
      | ok merged =>
          rw [ok_bind, Effect.exec_bind_ok _ (Effect.exec_ofExcept _ _)]
          cases json.dumps merged with
          | error error => rfl
          | ok text => rfl

/-- A run of `install` gets as far as writing the merged text, or fails without
a change of the settings. -/
theorem exec_install (json : JsonModule) (writer : HookWriter) (calls : FileCalls)
    (prior : Option ClaudeDir) :
    (∃ original text, Merges json writer calls prior original text ∧
      (install json writer calls).exec { claudeDir := prior } =
        (writeText calls.write text).exec (opened prior original)) ∨
    ((∀ original text, ¬Merges json writer calls prior original text) ∧
      ∃ error run, (install json writer calls).exec { claudeDir := prior } = (.error error, run) ∧
        settingsOf run.claudeDir = settingsOf prior) := by
  unfold install
  rcases exec_makeClaudeDir calls prior with ⟨hdir, hmake⟩ | ⟨hdir, error, hmake⟩
  · rw [Effect.exec_bind_ok _ hmake]
    rcases exec_readOriginal json calls prior with
      ⟨hexists, original, hreads, hread⟩ | ⟨hreads, error, hread⟩
    · have hrest := exec_merging json writer calls.write original (opened prior original)
      rw [Effect.exec_bind, Effect.exec_ofExcept] at hrest
      rw [Effect.exec_bind, hread, hrest]
      cases hmerged : mergedText json writer original with
      | ok text => exact Or.inl ⟨original, text, ⟨hdir, hexists, hreads, hmerged⟩, rfl⟩
      | error error =>
          refine Or.inr ⟨fun other text h => ?_, error, opened prior original, rfl,
            settingsOf_opened prior original⟩
          obtain rfl := readsAs_unique hreads h.reads
          rw [h.merged] at hmerged
          cases hmerged
    · rw [Effect.exec_bind_error _ hread]
      exact Or.inr ⟨fun original text h => hreads h.settingsExists original h.reads, error,
        opened prior none, rfl, settingsOf_opened prior none⟩
  · rw [Effect.exec_bind_error _ hmake]
    exact Or.inr ⟨fun _ _ h => hdir h.hasClaudeDir, error, { claudeDir := prior }, rfl, rfl⟩

/-! ### Restoring -/

/-- What is left of a text that is put back. -/
theorem restore_original {run : HookRun} {text : String} (h : run.originalText = some text) :
    restore calls run =
      run.setSettings (calls.rewrite.leaves (encodeUtf8 text) (settingsOf run.claudeDir)) := by
  have hblock : (restoring calls).exec run =
      (writeText calls.rewrite (PyText.ofString text)).exec run := by
    rw [restoring, Effect.exec_bind_ok _ (Effect.exec_get run)]
    simp only [h]
  rw [restore, hblock, exec_writeText, encode_ofString]
  cases calls.rewrite with
  | done => rfl
  | refused error => exact run.setSettings_self.symm
  | interrupted error count => rfl

/-- What is left of settings there were none of. -/
theorem restore_absent (calls : FileCalls) (dir : ClaudeDir) (created : Bool) :
    (restore calls ⟨some dir, none, created⟩).claudeDir =
      if calls.unlink ≠ none then some dir
      else if created ∧ dir.hasOthers = false ∧ calls.rmdir = none then none
      else some { dir with settings := none } := by
  unfold restore restoring
  simp only [Effect.exec_bind, Effect.exec_get, exec_raiseIf]
  cases hunlink : calls.unlink with
  | some error => rfl
  | none =>
      obtain ⟨settings, hasOthers⟩ := dir
      cases created with
      | false => rfl
      | true =>
          cases hasOthers with
          | true => rfl
          | false =>
              cases calls.rmdir with
              | none => rfl
              | some error => rfl

theorem restored_iff {original : Option String} (h : ReadsAs calls prior original)
    (written : List UInt8) :
    (restore calls ((opened prior original).setSettings (some written))).claudeDir = prior ↔
      TakesBack calls prior original written := by
  unfold ReadsAs at h
  cases hsettings : settingsOf prior with
  | none =>
      rw [hsettings] at h
      obtain rfl : original = none := h
      unfold TakesBack
      cases prior with
      | none =>
          change (restore calls ⟨some ⟨some written, false⟩, none, true⟩).claudeDir = none ↔ _
          rw [restore_absent]
          cases calls.unlink with
          | some error => simp
          | none =>
              cases calls.rmdir with
              | none => simp
              | some error => simp
      | some dir =>
          obtain ⟨settings, hasOthers⟩ := dir
          obtain rfl : settings = none := hsettings
          change (restore calls ⟨some ⟨some written, hasOthers⟩, none, false⟩).claudeDir = _ ↔ _
          rw [restore_absent]
          cases calls.unlink with
          | some error => simp
          | none => simp
  | some content =>
      rw [hsettings] at h
      obtain ⟨-, text, htext, rfl⟩ := h
      cases prior with
      | none => cases hsettings
      | some dir =>
          have hleft : (restore calls ((opened (some dir) (some text)).setSettings
              (some written))).claudeDir = some dir ↔
              calls.rewrite.leaves (encodeUtf8 text) (some written) = some content := by
            rw [restore_original rfl, ← show dir.settings = some content from hsettings]
            obtain ⟨settings, hasOthers⟩ := dir
            change some (ClaudeDir.mk _ hasOthers) = some ⟨settings, hasOthers⟩ ↔ _
            simp only [Option.some.injEq, ClaudeDir.mk.injEq, and_true]
            rfl
          rw [hleft]
          unfold TakesBack
          rw [hsettings]
          cases calls.rewrite with
          | done =>
              simp only [WriteOutcome.leaves, Option.some.injEq, exists_and_left, exists_eq_left']
              exact encode_readText htext
          | refused error => exact Iff.rfl
          | interrupted error count => exact Iff.rfl

theorem Merges.unique {original other : Option String} {text text' : PyText}
    (h : Merges json writer calls prior original text)
    (h' : Merges json writer calls prior other text') : original = other ∧ text = text' := by
  obtain rfl := readsAs_unique h.reads h'.reads
  exact ⟨rfl, Except.ok.inj (h.merged.symm.trans h'.merged)⟩

theorem forall_merges_iff {original : Option String} {text : PyText}
    (h : Merges json writer calls prior original text) {p : Option String → PyText → Prop} :
    (∀ other text', Merges json writer calls prior other text' → p other text') ↔
      p original text := by
  constructor
  · exact fun hall => hall original text h
  · intro hp other text' h'
    obtain ⟨rfl, rfl⟩ := h.unique h'
    exact hp

theorem exec_install_of_merges {original : Option String} {text : PyText}
    (h : Merges json writer calls prior original text) :
    (install json writer calls).exec { claudeDir := prior } =
      (writeText calls.write text).exec (opened prior original) := by
  rcases exec_install json writer calls prior with ⟨other, text', h', hexec⟩ | ⟨hnever, -⟩
  · obtain ⟨rfl, rfl⟩ := h.unique h'
    exact hexec
  · exact absurd h (hnever original text)

/-- Where all of the merged text is written, the rest is up to `restore`. -/
theorem restoresSettings_of_written {original : Option String} {text : PyText}
    {bytes : List UInt8} (h : Merges json writer calls prior original text)
    (hwrite : calls.write = .done) (hencode : text.encode? = some bytes) :
    RestoresSettings json writer calls prior ↔ TakesBack calls prior original bytes := by
  unfold RestoresSettings
  rw [exec_install_of_merges h, exec_writeText, hwrite, hencode]
  exact restored_iff h.reads bytes

/-- The settings are restored exactly if no text with a carriage return has to be
put back and no write that opens the file fails. Reading translates the line
ends, and a write that fails leaves what it has got to. -/
theorem restoresSettings_iff (json : JsonModule) (writer : HookWriter) (calls : FileCalls)
    (prior : Option ClaudeDir) :
    RestoresSettings json writer calls prior ↔ KeepsBytes json writer calls prior := by
  unfold KeepsBytes
  rcases exec_install json writer calls prior with
    ⟨original, text, hmerges, hexec⟩ | ⟨hnever, error, run, hexec, hsettings⟩
  · rw [forall_merges_iff hmerges]
    cases hwrite : calls.write with
    | refused error =>
        rw [RestoresSettings, hexec, exec_writeText, hwrite]
        exact iff_of_true (settingsOf_opened prior original) trivial
    | done =>
        cases hencode : text.encode? with
        | none =>
            rw [RestoresSettings, hexec, exec_writeText, hwrite, hencode]
            exact eq_comm
        | some bytes => exact restoresSettings_of_written hmerges hwrite hencode
    | interrupted error count =>
        rw [RestoresSettings, hexec, exec_writeText, hwrite]
        cases text.encode? with
        | none => exact eq_comm
        | some bytes => exact eq_comm
  · rw [RestoresSettings, hexec]
    exact iff_of_true hsettings fun original text h => absurd h (hnever original text)

/-! ### Settings with carriage returns -/

/-- Empty settings, on a line that ends as on Windows. -/
def windowsSettings : List UInt8 := [0x7b, 0x7d, 0x0d, 0x0a]

/-- `{"hooks": …}` with the commands `a` and `b`, as `json.dumps` indents it. -/
def hookedSettings : String := "\n".intercalate [
    "\x7b",
    "  \"hooks\": \x7b",
    "    \"PreToolUse\": [",
    "      \x7b",
    "        \"matcher\": \"*\",",
    "        \"hooks\": [",
    "          \x7b",
    "            \"type\": \"command\",",
    "            \"command\": \"a\"",
    "          \x7d",
    "        ]",
    "      \x7d",
    "    ],",
    "    \"PostToolUse\": [",
    "      \x7b",
    "        \"matcher\": \"*\",",
    "        \"hooks\": [",
    "          \x7b",
    "            \"type\": \"command\",",
    "            \"command\": \"b\"",
    "          \x7d",
    "        ]",
    "      \x7d",
    "    ]",
    "  \x7d",
    "\x7d"]

/-- The `json` module on empty settings. -/
def emptyJson : JsonModule where
  loads _ := .ok (.dict [])
  dumps _ := .ok (PyText.ofString hookedSettings)

def shortHooks : HookWriter where
  preToolCommand := PyText.ofString "a"
  postToolCommand := PyText.ofString "b"

theorem merges_windowsSettings : Merges emptyJson shortHooks {}
    (some { settings := some windowsSettings }) (some "\x7b\x7d\n")
    (PyText.ofString (hookedSettings ++ "\n")) where
  hasClaudeDir := ⟨rfl, fun h => nomatch h⟩
  settingsExists := rfl
  reads := ⟨rfl, "\x7b\x7d\n", by decide, rfl⟩
  merged := by
    have hsettings : settingsIn emptyJson (some "\x7b\x7d\n") = .ok [] := rfl
    obtain ⟨merged, hmerge⟩ : ∃ merged, mergeHooks shortHooks [] = .ok merged := ⟨_, rfl⟩
    have hdumps : emptyJson.dumps merged = .ok (PyText.ofString hookedSettings) := rfl
    rw [mergedText, hsettings, ok_bind, hmerge, ok_bind, hdumps, ok_bind, PyText.ofString_append]
    rfl

/-- The carriage return is lost though no call fails. -/
theorem not_restoresSettings :
    ¬RestoresSettings emptyJson shortHooks {} (some { settings := some windowsSettings }) := by
  rw [restoresSettings_of_written merges_windowsSettings rfl (encode_ofString _)]
  rintro ⟨content, decoded, hcontent, hdecoded, hreturn⟩
  obtain rfl := Option.some.inj hcontent
  have hwindows : decodeUtf8 windowsSettings = some "\x7b\x7d\r\n" := by decide
  obtain rfl := Option.some.inj (hwindows.symm.trans hdecoded)
  exact hreturn (by decide)

end ClaudeSettings

end ForgeOS
