import ForgeOS.Json
import Mathlib.Data.List.Nodup

/-!
JSON texts as `json.loads` reads them. The characters of a text are put into
tokens by a machine that knows whether it is inside a string; the tokens are
parsed with the two limits Python has, on the depth of a nesting and on the
digits of an integer. Inside a string every character from U+0020 on stands for
itself, those that end a line in the eyes of `str.splitlines` among them.
-/

namespace ForgeOS

open Library

namespace JsonText

/-! ### Tokens -/

inductive JsonToken where
  | mark (c : Char)
  | str (value : String)
  | word (text : List Char)
  | invalid
deriving DecidableEq, Repr

/-- Where the machine stands: outside of strings with the number or literal it
is in, or in a string with the code units read so far. An escape by number has
still some digits to come. -/
inductive LexMode where
  | outside (word : List Char)
  | string (units : List Nat)
  | escape (units : List Nat)
  | hex (units : List Nat) (value missing : Nat)
deriving DecidableEq, Repr

def isJsonSpace (c : Char) : Bool := c = ' ' || c = '\t' || c = '\n' || c = '\r'

def isMark (c : Char) : Bool :=
  c = '\x7b' || c = '\x7d' || c = '[' || c = ']' || c = ':' || c = ','

/-- The characters of numbers and literals. -/
def isWordChar (c : Char) : Bool := c.isAlphanum || c = '+' || c = '-' || c = '.'

/-- The code unit a short escape stands for. -/
def escaped? (c : Char) : Option Nat :=
  if c = '"' || c = '\\' || c = '/' then some c.toNat
  else if c = 'b' then some 0x08
  else if c = 'f' then some 0x0c
  else if c = 'n' then some 0x0a
  else if c = 'r' then some 0x0d
  else if c = 't' then some 0x09
  else none

def hexDigit? (c : Char) : Option Nat :=
  if c.isDigit then some (c.toNat - '0'.toNat)
  else if 'a' ≤ c && c ≤ 'f' then some (c.toNat - 'a'.toNat + 10)
  else if 'A' ≤ c && c ≤ 'F' then some (c.toNat - 'A'.toNat + 10)
  else none

/-- The character of a code unit. A surrogate without its partner, which a
Python string can hold, becomes the replacement character. -/
def charOfUnit (unit : Nat) : Char :=
  if unit.isValidChar then Char.ofNat unit else '\uFFFD'

/-- The characters of the code units of a string; two surrogates are one. -/
def ofUnits : List Nat → List Char
  | high :: low :: rest =>
      if 0xd800 ≤ high ∧ high ≤ 0xdbff ∧ 0xdc00 ≤ low ∧ low ≤ 0xdfff then
        charOfUnit (0x10000 + (high - 0xd800) * 0x400 + (low - 0xdc00)) :: ofUnits rest
      else charOfUnit high :: ofUnits (low :: rest)
  | [unit] => [charOfUnit unit]
  | [] => []

/-- The number or literal that ends where the machine stands. -/
def LexMode.flush : LexMode → List JsonToken
  | .outside [] => []
  | .outside word => [.word word]
  | _ => []

/-- One character: the tokens it completes, and where the machine stands then. -/
def LexMode.step (mode : LexMode) (c : Char) : Option (List JsonToken × LexMode) :=
  match mode with
  | .outside word =>
      if isJsonSpace c then some (mode.flush, .outside [])
      else if isMark c then some (mode.flush ++ [.mark c], .outside [])
      else if c = '"' then some (mode.flush, .string [])
      else if isWordChar c then some ([], .outside (word ++ [c]))
      else none
  | .string units =>
      if c = '"' then some ([.str (String.ofList (ofUnits units))], .outside [])
      else if c = '\\' then some ([], .escape units)
      else if c.toNat < 0x20 then none
      else some ([], .string (units ++ [c.toNat]))
  | .escape units =>
      if c = 'u' then some ([], .hex units 0 3)
      else (escaped? c).map fun unit => ([], .string (units ++ [unit]))
  | .hex units value missing =>
      (hexDigit? c).map fun digit =>
        ([], match missing with
          | 0 => .string (units ++ [value * 16 + digit])
          | left + 1 => .hex units (value * 16 + digit) left)

/-- The tokens of a text. Where it is no JSON the last token is invalid. -/
def lex (mode : LexMode) : List Char → List JsonToken
  | [] =>
      match mode with
      | .outside _ => mode.flush
      | _ => [.invalid]
  | c :: rest =>
      match mode.step c with
      | some (tokens, next) => tokens ++ lex next rest
      | none => mode.flush ++ [.invalid]

/-! ### Values -/

/-- What `json.loads` raises: its `JSONDecodeError`, or another error on a text
that goes beyond a limit of Python. -/
inductive LoadError where
  | malformed
  | refused
deriving DecidableEq, Repr

/-- How numbers are read, and how far: `float` of a literal, the digits an
integer may have, and the containers a value may stand in. Python's `json` counts
an empty container among these, the reader of pydantic does not. -/
structure Reading where
  toFloat : List Char → PyFloat
  maxDigits : Nat
  maxDepth : Nat
  countsEmpty : Bool

/-- What becomes of the members of an object. -/
abbrev PairsHook := List (String × Json) → Except LoadError (List (String × Json))

/-- `dict(pairs)`: of several members with one key the last one counts. -/
def dictHook : PairsHook := fun pairs => .ok (Dict.update [] pairs)

/-- Objects whose keys are distinct, as texts made of a `dict` are. -/
def distinctHook : PairsHook := fun pairs =>
  if (pairs.map Prod.fst).Nodup then .ok pairs else .error .malformed

/-- The number at the front of a text, whether it is a float, and the rest. -/
def scanNumber (text : List Char) : Option (List Char × Bool × List Char) :=
  let (sign, body) := text.span (· = '-')
  if 1 < sign.length then none
  else
    let (integer, afterInteger) :=
      match body with
      | '0' :: rest => (['0'], rest)
      | _ => body.span Char.isDigit
    if integer = [] then none
    else
      let (fraction, afterFraction) :=
        match afterInteger with
        | '.' :: digit :: rest =>
            if digit.isDigit then ('.' :: (digit :: rest).takeWhile Char.isDigit,
              (digit :: rest).dropWhile Char.isDigit)
            else ([], afterInteger)
        | _ => ([], afterInteger)
      let (exponent, afterExponent) :=
        match afterFraction with
        | e :: rest =>
            if e = 'e' || e = 'E' then
              let (expSign, digits) :=
                match rest with
                | c :: more => if c = '+' || c = '-' then ([c], more) else ([], rest)
                | [] => ([], [])
              if (digits.takeWhile Char.isDigit).isEmpty then ([], afterFraction)
              else (e :: expSign ++ digits.takeWhile Char.isDigit, digits.dropWhile Char.isDigit)
            else ([], afterFraction)
        | [] => ([], [])
      some (sign ++ integer ++ fraction ++ exponent, !(fraction ++ exponent).isEmpty,
        afterExponent)

/-- The value of a run of digits. -/
def natOfDigits (digits : List Char) : Nat :=
  digits.foldl (fun value digit => value * 10 + (digit.toNat - '0'.toNat)) 0

def intOfText (text : List Char) : Int :=
  match text with
  | '-' :: digits => -(natOfDigits digits : Int)
  | digits => natOfDigits digits

section Parser

variable (reading : Reading) (hook : PairsHook)

/-- A literal or a number. An integer is converted before what follows it is
looked at. -/
def wordValue (text : List Char) : Except LoadError Json :=
  if text = "null".toList then .ok .null
  else if text = "true".toList then .ok (.bool true)
  else if text = "false".toList then .ok (.bool false)
  else if text = "NaN".toList then .ok (.float .nan)
  else if text = "Infinity".toList then .ok (.float (.inf false))
  else if text = "-Infinity".toList then .ok (.float (.inf true))
  else
    match scanNumber text with
    | none => .error .malformed
    | some (number, isFloat, rest) =>
        if !isFloat && decide (reading.maxDigits < (number.filter Char.isDigit).length) then
          .error .refused
        else if rest ≠ [] then .error .malformed
        else if isFloat then .ok (.float (reading.toFloat number))
        else .ok (.int (intOfText number))

mutual

/-- One value, with the tokens behind it. `depth` is how many containers may
still be entered; there is fuel for every token. -/
def parseValue (fuel depth : Nat) (tokens : List JsonToken) :
    Except LoadError (Json × List JsonToken) :=
  match fuel with
  | 0 => .error .malformed
  | fuel + 1 =>
      match tokens with
      | .str value :: rest => .ok (.str value, rest)
      | .word text :: rest => (wordValue reading text).map (·, rest)
      | .mark '[' :: rest =>
          match rest with
          | .mark ']' :: behind =>
              if reading.countsEmpty = true ∧ depth = 0 then .error .refused
              else .ok (.arr [], behind)
          | _ =>
              match depth with
              | 0 => .error .refused
              | depth + 1 =>
                  (parseItems fuel depth rest).map fun parsed => (.arr parsed.1, parsed.2)
      | .mark '\x7b' :: rest =>
          match rest with
          | .mark '\x7d' :: behind =>
              if reading.countsEmpty = true ∧ depth = 0 then .error .refused
              else (hook []).map fun entries => (.obj entries, behind)
          | _ =>
              match depth with
              | 0 => .error .refused
              | depth + 1 =>
                  match parseMembers fuel depth rest with
                  | .error error => .error error
                  | .ok (pairs, behind) =>
                      (hook pairs).map fun entries => (.obj entries, behind)
      | _ => .error .malformed

/-- The items of a list up to its end. -/
def parseItems (fuel depth : Nat) (tokens : List JsonToken) :
    Except LoadError (List Json × List JsonToken) :=
  match fuel with
  | 0 => .error .malformed
  | fuel + 1 =>
      match parseValue fuel depth tokens with
      | .error error => .error error
      | .ok (item, .mark ',' :: rest) =>
          (parseItems fuel depth rest).map fun parsed => (item :: parsed.1, parsed.2)
      | .ok (item, .mark ']' :: rest) => .ok ([item], rest)
      | .ok _ => .error .malformed

/-- The members of an object up to its end. -/
def parseMembers (fuel depth : Nat) (tokens : List JsonToken) :
    Except LoadError (List (String × Json) × List JsonToken) :=
  match fuel with
  | 0 => .error .malformed
  | fuel + 1 =>
      match tokens with
      | .str key :: .mark ':' :: behind =>
          match parseValue fuel depth behind with
          | .error error => .error error
          | .ok (value, .mark ',' :: rest) =>
              (parseMembers fuel depth rest).map fun parsed =>
                ((key, value) :: parsed.1, parsed.2)
          | .ok (value, .mark '\x7d' :: rest) => .ok ([(key, value)], rest)
          | .ok _ => .error .malformed
      | _ => .error .malformed

end

/-- The value of a text that holds nothing besides. -/
def decode (text : List Char) : Except LoadError Json :=
  let tokens := lex (.outside []) text
  match parseValue reading hook (3 * tokens.length + 3) reading.maxDepth tokens with
  | .error error => .error error
  | .ok (value, []) => .ok value
  | .ok _ => .error .malformed

end Parser

def loads (reading : Reading) (text : List Char) : Except LoadError Json :=
  decode reading dictHook text

/-! ### The machine on a stretch of text -/

/-- The machine over a stretch of text: the tokens completed, and where it
stands behind it. -/
def LexMode.run (mode : LexMode) : List Char → Option (List JsonToken × LexMode)
  | [] => some ([], mode)
  | c :: rest =>
      match mode.step c with
      | none => none
      | some (tokens, next) => (next.run rest).map fun ran => (tokens ++ ran.1, ran.2)

theorem run_cons {mode last : LexMode} {c : Char} {rest : List Char} {all : List JsonToken}
    (h : mode.run (c :: rest) = some (all, last)) :
    ∃ tokens next more, mode.step c = some (tokens, next) ∧ next.run rest = some (more, last) ∧
      all = tokens ++ more := by
  unfold LexMode.run at h
  split at h
  · cases h
  · rename_i tokens next hstep
    obtain ⟨⟨more, behind⟩, hrun, hpair⟩ := Option.map_eq_some_iff.mp h
    obtain ⟨rfl, rfl⟩ := Prod.mk.inj hpair
    exact ⟨tokens, next, more, hstep, hrun, rfl⟩

theorem run_append {mode middle last : LexMode} {xs ys : List Char}
    {tokens more : List JsonToken} (hxs : mode.run xs = some (tokens, middle))
    (hys : middle.run ys = some (more, last)) :
    mode.run (xs ++ ys) = some (tokens ++ more, last) := by
  induction xs generalizing mode tokens with
  | nil =>
      obtain ⟨rfl, rfl⟩ := Prod.mk.inj (Option.some.inj hxs)
      exact hys
  | cons c rest ih =>
      obtain ⟨first, next, behind, hstep, hrun, rfl⟩ := run_cons hxs
      simp only [List.cons_append, LexMode.run, hstep, ih hrun, Option.map_some,
        List.append_assoc]

/-- A machine that runs through a text runs through both parts of it. -/
theorem run_split {mode last : LexMode} {xs ys : List Char} {all : List JsonToken}
    (h : mode.run (xs ++ ys) = some (all, last)) :
    ∃ tokens middle more, mode.run xs = some (tokens, middle) ∧
      middle.run ys = some (more, last) ∧ all = tokens ++ more := by
  induction xs generalizing mode all with
  | nil => exact ⟨[], mode, all, rfl, h, rfl⟩
  | cons c rest ih =>
      obtain ⟨first, next, behind, hstep, hrun, rfl⟩ := run_cons h
      obtain ⟨tokens, middle, more, hrest, hys, rfl⟩ := ih hrun
      refine ⟨first ++ tokens, middle, more, ?_, hys, (List.append_assoc ..).symm⟩
      simp only [LexMode.run, hstep, hrest, Option.map_some]

theorem lex_append {mode next : LexMode} {xs : List Char} {tokens : List JsonToken}
    (h : mode.run xs = some (tokens, next)) (ys : List Char) :
    lex mode (xs ++ ys) = tokens ++ lex next ys := by
  induction xs generalizing mode tokens with
  | nil =>
      obtain ⟨rfl, rfl⟩ := Prod.mk.inj (Option.some.inj h)
      rfl
  | cons c rest ih =>
      obtain ⟨first, middle, more, hstep, hrun, rfl⟩ := run_cons h
      simp only [List.cons_append, lex, hstep, ih hrun, List.append_assoc]

/-- A text without an invalid token is one the machine runs through, and it
stands outside of strings then. -/
theorem run_of_lex {mode : LexMode} {text : List Char}
    (h : JsonToken.invalid ∉ lex mode text) :
    ∃ tokens word, mode.run text = some (tokens, .outside word) := by
  induction text generalizing mode with
  | nil =>
      cases mode with
      | outside word => exact ⟨[], word, rfl⟩
      | string units => simp [lex] at h
      | escape units => simp [lex] at h
      | hex units value missing => simp [lex] at h
  | cons c rest ih =>
      unfold lex at h
      split at h
      · rename_i tokens next hstep
        obtain ⟨more, word, hrun⟩ := ih fun hmem => h (List.mem_append_right _ hmem)
        exact ⟨tokens ++ more, word, by simp only [LexMode.run, hstep, hrun, Option.map_some]⟩
      · simp at h

/-- A text that ends inside a string has an invalid token. -/
theorem invalid_of_run {mode next : LexMode} {text : List Char} {tokens : List JsonToken}
    (h : mode.run text = some (tokens, next)) (hnext : ∀ word, next ≠ .outside word) :
    JsonToken.invalid ∈ lex mode text := by
  have hlex := lex_append h []
  rw [List.append_nil] at hlex
  rw [hlex]
  cases next with
  | outside word => exact absurd rfl (hnext word)
  | string units => simp [lex]
  | escape units => simp [lex]
  | hex units value missing => simp [lex]

/-! ### Characters that JSON has only inside strings -/

/-- The characters of marks, words and escapes: ASCII with an image. -/
def isVisible (c : Char) : Bool := 0x21 ≤ c.toNat && c.toNat ≤ 0x7e

theorem isVisible_of_isMark {c : Char} (h : isMark c = true) : isVisible c = true := by
  simp only [isMark, Bool.or_eq_true, decide_eq_true_eq] at h
  rcases h with ((((rfl | rfl) | rfl) | rfl) | rfl) | rfl <;> rfl

theorem isVisible_of_isWordChar {c : Char} (h : isWordChar c = true) : isVisible c = true := by
  have hval : c.toNat = c.val.toNat := rfl
  simp only [isWordChar, Bool.or_eq_true, decide_eq_true_eq] at h
  rcases h with ((h | rfl) | rfl) | rfl
  · have hcodes : (decide ('A'.val ≤ c.val ∧ c.val ≤ 'Z'.val) ||
        ('a'.val ≤ c.val && c.val ≤ 'z'.val) || ('0'.val ≤ c.val && c.val ≤ '9'.val)) = true := h
    simp only [isVisible, Bool.and_eq_true, decide_eq_true_eq]
    simp [UInt32.le_iff_toNat_le] at hcodes
    omega
  · rfl
  · rfl
  · rfl

theorem isVisible_of_hexDigit {c : Char} {digit : Nat} (h : hexDigit? c = some digit) :
    isVisible c = true := by
  have hval : c.toNat = c.val.toNat := rfl
  simp only [isVisible, Bool.and_eq_true, decide_eq_true_eq]
  unfold hexDigit? at h
  split at h
  · rename_i hdigit
    simp [Char.isDigit, UInt32.le_iff_toNat_le] at hdigit
    omega
  · split at h
    · rename_i hlower
      simp [Char.le_def, UInt32.le_iff_toNat_le] at hlower
      omega
    · split at h
      · rename_i hupper
        simp [Char.le_def, UInt32.le_iff_toNat_le] at hupper
        omega
      · cases h

theorem isVisible_of_escaped {c : Char} {unit : Nat} (h : escaped? c = some unit) :
    isVisible c = true := by
  unfold escaped? at h
  split at h
  · rename_i hself
    simp only [Bool.or_eq_true, decide_eq_true_eq] at hself
    rcases hself with (rfl | rfl) | rfl <;> rfl
  · repeat' split at h
    all_goals
      first
      | (rename_i hchar; subst hchar; rfl)
      | cases h

/-- Any other character is white space outside of strings, or stands for itself
inside of one. -/
theorem step_invisible {mode next : LexMode} {c : Char} {tokens : List JsonToken}
    (hc : isVisible c = false) (h : mode.step c = some (tokens, next)) :
    (∃ word, mode = .outside word ∧ isJsonSpace c = true ∧ tokens = mode.flush ∧
        next = .outside []) ∨
      ∃ units, mode = .string units ∧ tokens = [] ∧ next = .string (units ++ [c.toNat]) := by
  have hquote : c ≠ '"' := by rintro rfl; cases hc
  have hbackslash : c ≠ '\\' := by rintro rfl; cases hc
  cases mode with
  | outside word =>
      have hmark : ¬ isMark c = true := fun hmark => by simp [isVisible_of_isMark hmark] at hc
      have hword : ¬ isWordChar c = true := fun hword => by
        simp [isVisible_of_isWordChar hword] at hc
      simp only [LexMode.step, hmark, hword, hquote, if_false, Bool.false_eq_true] at h
      split at h
      · rename_i hspace
        obtain ⟨rfl, rfl⟩ := Prod.mk.inj (Option.some.inj h)
        exact .inl ⟨word, rfl, hspace, rfl, rfl⟩
      · cases h
  | string units =>
      simp only [LexMode.step, hquote, hbackslash, if_false] at h
      split at h
      · cases h
      · obtain ⟨rfl, rfl⟩ := Prod.mk.inj (Option.some.inj h)
        exact .inr ⟨units, rfl, rfl, rfl⟩
  | escape units =>
      have hu : c ≠ 'u' := by rintro rfl; cases hc
      simp only [LexMode.step, hu, if_false, Option.map_eq_some_iff] at h
      obtain ⟨unit, hunit, -⟩ := h
      rw [isVisible_of_escaped hunit] at hc
      cases hc
  | hex units value missing =>
      simp only [LexMode.step, Option.map_eq_some_iff] at h
      obtain ⟨digit, hdigit, -⟩ := h
      rw [isVisible_of_hexDigit hdigit] at hc
      cases hc

/-- Outside of strings JSON is ASCII without a backslash. -/
theorem ascii_of_step_outside {word : List Char} {c : Char}
    {result : List JsonToken × LexMode} (h : (LexMode.outside word).step c = some result) :
    c.toNat < 0x80 ∧ c ≠ '\\' := by
  cases hc : isVisible c with
  | true =>
      simp only [isVisible, Bool.and_eq_true, decide_eq_true_eq] at hc
      refine ⟨by omega, ?_⟩
      rintro rfl
      cases h
  | false =>
      obtain ⟨tokens, next⟩ := result
      rcases step_invisible hc h with ⟨_, -, hspace, -⟩ | ⟨_, hmode, -⟩
      · simp only [isJsonSpace, Bool.or_eq_true, decide_eq_true_eq] at hspace
        rcases hspace with ((rfl | rfl) | rfl) | rfl <;> decide
      · cases hmode

/-- A stretch of such characters leaves the machine outside of strings, and
completes what it stood in, or inside of one. -/
theorem run_invisible {mode last : LexMode} {text : List Char} {tokens : List JsonToken}
    (hc : ∀ c ∈ text, isVisible c = false) (h : mode.run text = some (tokens, last)) :
    (tokens = [] ∧ last = mode) ∨
      (∃ word word', mode = .outside word ∧ last = .outside word' ∧
        tokens ++ last.flush = mode.flush) ∨
      ∃ units units', mode = .string units ∧ last = .string units' ∧ tokens = [] := by
  induction text generalizing mode tokens with
  | nil =>
      obtain ⟨rfl, rfl⟩ := Prod.mk.inj (Option.some.inj h)
      exact .inl ⟨rfl, rfl⟩
  | cons c rest ih =>
      obtain ⟨first, next, more, hstep, hrun, rfl⟩ := run_cons h
      have hrest := ih (fun other hother => hc other (List.mem_cons_of_mem _ hother)) hrun
      rcases step_invisible (hc c List.mem_cons_self) hstep with
        ⟨word, rfl, -, rfl, rfl⟩ | ⟨units, rfl, rfl, rfl⟩
      · refine .inr (.inl ?_)
        rcases hrest with ⟨rfl, rfl⟩ | ⟨word', word'', -, rfl, hflush⟩ | ⟨units, _, hmode, -⟩
        · exact ⟨word, [], rfl, rfl, by simp [LexMode.flush]⟩
        · refine ⟨word, word'', rfl, rfl, ?_⟩
          rw [List.append_assoc, hflush]
          exact List.append_nil _
        · cases hmode
      · refine .inr (.inr ?_)
        rcases hrest with ⟨rfl, rfl⟩ | ⟨word, _, hmode, -⟩ | ⟨_, units', -, rfl, rfl⟩
        · exact ⟨units, _, rfl, rfl, rfl⟩
        · cases hmode
        · exact ⟨units, units', rfl, rfl, rfl⟩

/-- In front of a text they do nothing. -/
theorem run_invisible_outside {last : LexMode} {text : List Char} {tokens : List JsonToken}
    (hc : ∀ c ∈ text, isVisible c = false)
    (h : (LexMode.outside []).run text = some (tokens, last)) :
    tokens = [] ∧ last = .outside [] := by
  rcases run_invisible hc h with h | ⟨word, word', hmode, rfl, hflush⟩ | ⟨_, _, hmode, -⟩
  · exact h
  · cases hmode
    obtain ⟨rfl, hword⟩ := List.append_eq_nil_iff.mp hflush
    cases word' with
    | nil => exact ⟨rfl, rfl⟩
    | cons c rest => cases hword
  · cases hmode

/-- At the end of a text they add nothing to what the machine stood in. -/
theorem lex_invisible {mode last : LexMode} {text : List Char} {tokens : List JsonToken}
    (hc : ∀ c ∈ text, isVisible c = false) (h : mode.run text = some (tokens, last)) :
    tokens ++ lex last [] = lex mode [] := by
  rcases run_invisible hc h with
    ⟨rfl, rfl⟩ | ⟨word, word', rfl, rfl, hflush⟩ | ⟨_, _, rfl, rfl, rfl⟩
  · rfl
  · exact hflush
  · rfl

/-- The code units of the string the machine stands in. -/
def LexMode.units : LexMode → List Nat
  | .outside _ => []
  | .string units => units
  | .escape units => units
  | .hex units _ _ => units

/-- The machine keeps the units of a string up to its end. -/
theorem step_units {mode next : LexMode} {c : Char} {tokens : List JsonToken} {unit : Nat}
    (hunit : unit ∈ mode.units) (h : mode.step c = some (tokens, next)) :
    unit ∈ next.units ∨
      ∃ units, unit ∈ units ∧ tokens = [.str (String.ofList (ofUnits units))] := by
  cases mode with
  | outside word => exact absurd hunit List.not_mem_nil
  | string units =>
      simp only [LexMode.step] at h
      split at h
      · cases h
        exact .inr ⟨units, hunit, rfl⟩
      · split at h
        · cases h
          exact .inl hunit
        · split at h
          · cases h
          · cases h
            exact .inl (List.mem_append_left _ hunit)
  | escape units =>
      simp only [LexMode.step] at h
      split at h
      · cases h
        exact .inl hunit
      · obtain ⟨other, -, hpair⟩ := Option.map_eq_some_iff.mp h
        cases hpair
        exact .inl (List.mem_append_left _ hunit)
  | hex units value missing =>
      obtain ⟨digit, -, hpair⟩ := Option.map_eq_some_iff.mp h
      cases hpair
      cases missing with
      | zero => exact .inl (List.mem_append_left _ hunit)
      | succ left => exact .inl hunit

theorem run_units {mode : LexMode} {text word : List Char} {tokens : List JsonToken} {unit : Nat}
    (hunit : unit ∈ mode.units) (h : mode.run text = some (tokens, .outside word)) :
    ∃ units, unit ∈ units ∧ JsonToken.str (String.ofList (ofUnits units)) ∈ tokens := by
  induction text generalizing mode tokens with
  | nil =>
      obtain ⟨-, rfl⟩ := Prod.mk.inj (Option.some.inj h)
      exact absurd hunit List.not_mem_nil
  | cons c rest ih =>
      obtain ⟨first, next, more, hstep, hrun, rfl⟩ := run_cons h
      rcases step_units hunit hstep with hnext | ⟨units, hmem, rfl⟩
      · obtain ⟨units, hmem, htoken⟩ := ih hnext hrun
        exact ⟨units, hmem, List.mem_append_right _ htoken⟩
      · exact ⟨units, hmem, by simp⟩

theorem charOfUnit_toNat (c : Char) : charOfUnit c.toNat = c := by
  have hvalid : c.toNat.isValidChar := c.valid
  rw [charOfUnit, if_pos hvalid]
  exact Char.ofNat_toNat c

/-- A character that was read as it is stands in the string. -/
theorem mem_ofUnits {units : List Nat} {c : Char} (h : c.toNat ∈ units) : c ∈ ofUnits units := by
  have hvalid : c.toNat < 0xd800 ∨ 0xdfff < c.toNat := c.valid.imp id And.left
  induction units using ofUnits.induct with
  | case1 high low rest hpair ih =>
      rw [ofUnits, if_pos hpair]
      rcases List.mem_cons.mp h with hhigh | h
      · omega
      · rcases List.mem_cons.mp h with hlow | h
        · omega
        · exact List.mem_cons_of_mem _ (ih h)
  | case2 high low rest hpair ih =>
      rw [ofUnits, if_neg hpair]
      rcases List.mem_cons.mp h with rfl | h
      · rw [charOfUnit_toNat]
        exact List.mem_cons_self
      · exact List.mem_cons_of_mem _ (ih h)
  | case3 unit =>
      obtain rfl := List.mem_singleton.mp h
      rw [ofUnits, charOfUnit_toNat]
      exact List.mem_singleton_self _
  | case4 => exact absurd h List.not_mem_nil

/-- Characters that stand for themselves are the string. -/
theorem ofUnits_map (chars : List Char) : ofUnits (chars.map Char.toNat) = chars := by
  induction chars with
  | nil => rfl
  | cons c rest ih =>
      have hvalid : c.toNat < 0xd800 ∨ 0xdfff < c.toNat := c.valid.imp id And.left
      cases rest with
      | nil => rw [List.map_cons, List.map_nil, ofUnits, charOfUnit_toNat]
      | cons next rest =>
          rw [List.map_cons, List.map_cons, ofUnits, if_neg (by omega), charOfUnit_toNat,
            ← List.map_cons, ih]

/-- Outside of strings a character other than a quotation mark completes no
string and begins none. -/
theorem step_outside {word : List Char} {next : LexMode} {c : Char} {tokens : List JsonToken}
    (hquote : c ≠ '"') (h : (LexMode.outside word).step c = some (tokens, next)) :
    (∃ word', next = .outside word') ∧ ∀ s, JsonToken.str s ∉ tokens := by
  have hflush : ∀ s, JsonToken.str s ∉ (LexMode.outside word).flush := by
    cases word <;> simp [LexMode.flush]
  simp only [LexMode.step, hquote, if_false] at h
  split at h
  · cases h
    exact ⟨⟨[], rfl⟩, hflush⟩
  · split at h
    · cases h
      exact ⟨⟨[], rfl⟩, fun s hs => by simp [hflush s] at hs⟩
    · split at h
      · cases h
        exact ⟨⟨_, rfl⟩, by simp⟩
      · cases h

end JsonText

end ForgeOS
