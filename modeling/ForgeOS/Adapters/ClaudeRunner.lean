import ForgeOS.Adapters.Bridge
import ForgeOS.Floats
import ForgeOS.JsonText

/-!
The runner of the Claude Code adapter: the lines the `claude` process has
written are read as one event each, and the events make up the result of the
run. What is no JSON object is skipped.
-/

namespace ForgeOS

open Library

namespace ClaudeCode

open JsonText

/-! ### Lines -/

/-- `str.splitlines()`, the first line continuing `partialLine`. A newline that
follows a carriage return ends no line of its own. -/
def splitLinesFrom (partialLine : List Char) (afterReturn : Bool) : List Char → List (List Char)
  | [] => if partialLine = [] then [] else [partialLine]
  | c :: rest =>
      if afterReturn && c = '\n' then splitLinesFrom [] false rest
      else if isLineBreak c then partialLine :: splitLinesFrom [] (c = '\r') rest
      else splitLinesFrom (partialLine ++ [c]) false rest

def splitLines (text : List Char) : List (List Char) := splitLinesFrom [] false text

/-! ### Events -/

/-- One parsed line of the stream; the type is that of the envelope. -/
structure StreamEvent where
  type : Json
  raw : JsonObject

def streamEvent (obj : JsonObject) : StreamEvent :=
  ⟨(Dict.get? obj "type").getD (.str "unknown"), obj⟩

section Parse

variable (reading : Reading)

/-- What one line yields. Only a `JSONDecodeError` is caught. -/
def parseStreamLine (line : List Char) : Except LoadError (Option StreamEvent) :=
  let line := stripLine line
  if line = [] then .ok none
  else
    match loads reading line with
    | .error .malformed => .ok none
    | .error .refused => .error .refused
    | .ok (.obj obj) => .ok (some (streamEvent obj))
    | .ok _ => .ok none

/-- The events yielded, and what is raised behind the last one. -/
def parseLines : List (List Char) → List StreamEvent × Option LoadError
  | [] => ([], none)
  | line :: rest =>
      match parseStreamLine reading line with
      | .error error => ([], some error)
      | .ok none => parseLines rest
      | .ok (some event) => (event :: (parseLines rest).1, (parseLines rest).2)

def parseStreamLines (stdout : List Char) : List StreamEvent × Option LoadError :=
  parseLines reading (splitLines stdout)

end Parse

/-! ### The result of a run -/

/-- The `content` blocks of an assistant or user message. -/
def StreamEvent.contentBlocks (event : StreamEvent) : List JsonObject :=
  match Dict.get? event.raw "message" with
  | some (.obj message) =>
      match Dict.get? message "content" with
      | some (.arr blocks) =>
          blocks.filterMap fun
            | .obj block => some block
            | _ => none
      | _ => []
  | _ => []

/-- `block.get("type") == type`. -/
def blockHasType (type : String) (block : JsonObject) : Bool :=
  (Dict.get? block "type").bind Json.str? = some type

/-- Concatenated text of an assistant message. -/
def StreamEvent.text (event : StreamEvent) : Except PyError String :=
  Bridge.joinText ((event.contentBlocks.filter (blockHasType "text")).map fun block =>
    (Dict.get? block "text").getD (.str ""))

def StreamEvent.toolUseBlocks (event : StreamEvent) : List JsonObject :=
  event.contentBlocks.filter (blockHasType "tool_use")

/-- `event.type == type`. -/
def StreamEvent.hasType (event : StreamEvent) (type : String) : Bool :=
  event.type.str? = some type

/-- Aggregated result of a claude subprocess run. -/
structure RunResult where
  returncode : Int
  events : List StreamEvent
  stderr : String := ""

namespace RunResult

variable (result : RunResult)

/-- The last `result` line. -/
def resultEvent : Option StreamEvent :=
  result.events.reverse.find? (·.hasType "result")

def resultField (key : String) : Json :=
  ((result.resultEvent.bind fun event => Dict.get? event.raw key)).getD .null

/-- The text of the `result` line, else that of the assistant turns. -/
def textOutput : Except PyError String :=
  match result.resultField "result" with
  | .str text => .ok text
  | _ => do
      let texts ← (result.events.filter (·.hasType "assistant")).mapM StreamEvent.text
      return "\n".intercalate (texts.filter (· ≠ ""))

/-- Every `tool_use` block across all assistant turns. -/
def toolUses : List JsonObject :=
  (result.events.filter (·.hasType "assistant")).flatMap StreamEvent.toolUseBlocks

def usage : JsonObject :=
  match result.resultField "usage" with
  | .obj usage => usage
  | _ => []

/-- `total_cost_usd`; a number that is too large raises. -/
def totalCostUsd (rnd : Rounding) : Except PyError Json :=
  match result.resultField "total_cost_usd" with
  | .bool value => .ok (.float (.finite (if value then 1 else 0)))
  | .int value =>
      match floatOfInt rnd value with
      | .ok cost => .ok (.float cost)
      | .error _ => .error ⟨"OverflowError", "int too large to convert to float"⟩
  | .float value => .ok (.float value)
  | _ => .ok .null

def isError : Bool := (result.resultField "is_error").truthy

def succeeded : Bool := result.returncode = 0 && !result.isError

end RunResult

end ClaudeCode

end ForgeOS
