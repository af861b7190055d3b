import NetnsWatch.Pattern
import NetnsWatch.Text.Numeral

/-!
# Directives of a log filter

A directive says how much detail passes, and where. It is a level, or a target, or a target and a
level with an equals sign between them; after the target, brackets may narrow it to a span, or to
what carries a field, possibly with a value. A value is a number or a pattern. Left out, the level
lets everything through.

The reader is a state machine over the characters without the blanks at both ends, and counts their
bytes. The parts are then cut at these places from the text with its blanks, so a text that begins
with a blank is read with its parts shifted.
-/

namespace NetnsWatch

/-- Why a text is not a directive. -/
inductive DirectiveError where
  /-- A character does not belong where it stands, or a part is not complete. -/
  | malformed
  /-- No level has this name or number. -/
  | unknownLevel
  /-- The value of a field is no pattern. -/
  | badPattern (error : PatternError)
  deriving DecidableEq, Repr

/-- What is asked of a field: that it is there, or that it has a certain value too. -/
structure FieldTest where
  name : String
  hasValue : Bool
  deriving DecidableEq, Repr

/-- A directive: where it applies, as far as it says, and how much detail passes there. -/
structure Directive where
  target : Option String := none
  span : Option String := none
  field : Option FieldTest := none
  detail : Nat := 5
  deriving DecidableEq, Repr

/-- The reason in words. -/
def DirectiveError.message : DirectiveError → String
  | malformed => "invalid filter directive"
  | unknownLevel =>
    "error parsing level filter: expected one of \"off\", \"error\", \"warn\", \"info\", " ++
      "\"debug\", \"trace\", or a number 0-5"
  | badPattern error => "invalid field filter: " ++ error.message

/-- Read a test of a field: a name, and after an equals sign a value, which a second one ends. -/
def FieldTest.read (text : List Char) : Except DirectiveError FieldTest :=
  let name := String.ofList (text.takeWhile (· ≠ '='))
  match text.dropWhile (· ≠ '=') with
  | [] => .ok ⟨name, false⟩
  | _ :: rest =>
    let value := rest.takeWhile (· ≠ '=')
    if Numeral.isNumeral value then .ok ⟨name, true⟩
    else
      match Pattern.check value with
      | .ok () => .ok ⟨name, true⟩
      | .error error => .error (.badPattern error)

namespace DirectiveReader

/-- The names of the levels, by the detail that passes. -/
def levelNames : List String :=
  ["off", "error", "warn", "info", "debug", "trace"]

/-- A number in decimal digits. -/
def digits? (text : List Char) : Option Nat :=
  if text.isEmpty || !text.all Char.isDigit then none
  else some (text.foldl (fun n c => 10 * n + (c.toNat - '0'.toNat)) 0)

/-- A number, possibly with a plus sign. -/
def number? : List Char → Option Nat
  | '+' :: rest => digits? rest
  | text => digits? text

/-- The detail that the name or the number of a level asks for. -/
def detailOf? (text : String) : Option Nat :=
  match number? text.toList with
  | some n => if n < levelNames.length then some n else none
  | none => levelNames.findIdx? (· = text.toLower)

/-- Where the reader stands; a part that is being read has its first place. -/
inductive Place where
  | start
  | word (first : Nat)
  | level (first : Nat)
  | span (first : Nat)
  | field (first : Nat)
  | fieldEnd
  | spanEnd
  deriving DecidableEq, Repr

/-- Whether a character can begin a word. -/
def beginsWord (c : Char) : Bool :=
  ['-', ':', '_'].contains c || Unicode.alphanumeric c

/-- The characters from one byte offset up to another; the first one given stands at an offset. -/
def cut (first last : Nat) : Nat → List Char → List Char
  | _, [] => []
  | offset, c :: rest =>
    let others := cut first last (offset + c.utf8Size) rest
    if first ≤ offset && offset < last then c :: others else others

/-- The characters from a byte offset on. -/
def cutFrom (first : Nat) (text : List Char) : List Char :=
  cut first (String.ofList text).utf8ByteSize 0 text

/-- A text without the blanks at both ends. -/
def trim (text : List Char) : List Char :=
  ((text.dropWhile Unicode.blank).reverse.dropWhile Unicode.blank).reverse

/-- Read one character, which stands at a byte offset. -/
def step (text : List Char) (offset : Nat) (c : Char) (d : Directive) :
    Place → Except DirectiveError (Place × Directive)
  | .start =>
    if c = '[' then .ok (.span (offset + 1), d)
    else if beginsWord c then .ok (.word offset, d)
    else .error .malformed
  | .word first =>
    let target := some (String.ofList (cut first offset 0 text))
    if c = '=' then .ok (.level (offset + 1), { d with target })
    else if c = '[' then .ok (.span (offset + 1), { d with target })
    else .ok (.word first, d)
  | .level first => .ok (.level first, d)
  | .span first =>
    let name := cut first offset 0 text
    if c = ']' then .ok (.spanEnd, { d with span := some (String.ofList name) })
    else if c = '\x7b' then
      let span := if name.isEmpty then none else some (String.ofList name)
      .ok (.field (offset + 1), { d with span })
    else .ok (.span first, d)
  | .field first =>
    if c = '\x7d' then
      let name := cut first offset 0 text
      if name.isEmpty then .error .malformed
      else
        match FieldTest.read name with
        | .ok test => .ok (.fieldEnd, { d with field := some test })
        | .error error => .error error
    else .ok (.field first, d)
  | .fieldEnd => if c = ']' then .ok (.spanEnd, d) else .error .malformed
  | .spanEnd => if c = '=' then .ok (.level (offset + 1), d) else .error .malformed

/-- Take in the part that the end of the text completes. -/
def finish (text : List Char) (d : Directive) : Place → Except DirectiveError Directive
  | .word first =>
    let word := String.ofList (cutFrom first text)
    match detailOf? word with
    | some detail => .ok { d with detail }
    | none => .ok { d with target := some word }
  | .level first =>
    let level := String.ofList (cutFrom first text)
    if level.isEmpty then .ok d
    else
      match detailOf? level with
      | some detail => .ok { d with detail }
      | none => .error .unknownLevel
  | .spanEnd => .ok d
  | .start | .span _ | .field _ | .fieldEnd => .error .malformed

/-- Read the characters that are left, from a byte offset on. -/
def readFrom (text : List Char) (offset : Nat) (place : Place) (d : Directive) :
    List Char → Except DirectiveError Directive
  | [] => finish text d place
  | c :: rest =>
    match step text offset c d place with
    | .ok (place, d) => readFrom text (offset + c.utf8Size) place d rest
    | .error error => .error error

end DirectiveReader

/-- Read a directive. -/
def Directive.read (text : String) : Except DirectiveError Directive :=
  DirectiveReader.readFrom text.toList 0 .start {} (DirectiveReader.trim text.toList)

end NetnsWatch
