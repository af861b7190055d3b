import NetnsWatch.Text.Alphanumeric

/-!
# Atoms of patterns

A pattern is a regular expression from which an automaton is built. It need not be run here, so the
readers only find out whether that can be done. The builder has no tables of character properties: a
property, a shorthand for one, and the folding of case are refused wherever they mean all scripts.
Where they mean bytes they are accepted, as long as only whole characters can match.

In verbose mode blanks and comments may stand between the parts of a pattern.
-/

namespace NetnsWatch

/-- Why no automaton can be built for a pattern. -/
inductive PatternError where
  /-- It is not well formed, or needs tables that are not there, or could match half a character. -/
  | malformed
  /-- It looks for the boundaries of words in all scripts. -/
  | wordBoundary
  deriving DecidableEq, Repr

/-- The reason in words. -/
def PatternError.message : PatternError → String
  | malformed => "error building NFA"
  | wordBoundary =>
    "unsupported regex feature for DFAs: cannot build DFAs for regexes with Unicode word " ++
      "boundaries; switch to ASCII word boundaries, or heuristically enable Unicode word " ++
      "boundaries or use a different regex engine"

namespace Pattern

/-- The modes that decide how the next part of a pattern is read. -/
structure Flags where
  ignoreCase : Bool := false
  verbose : Bool := false
  unicode : Bool := true
  deriving DecidableEq, Repr

/-- What stands behind blanks and comments; a comment ends with its line. -/
def skipFrom (inComment : Bool) : List Char → List Char
  | [] => []
  | c :: rest =>
    if inComment then skipFrom (c ≠ '\n') rest
    else if Unicode.blank c then skipFrom false rest
    else if c = '#' then skipFrom true rest
    else c :: rest

/-- What stands behind blanks and comments, where these do not count. -/
def Flags.skip (flags : Flags) (text : List Char) : List Char :=
  if flags.verbose then skipFrom false text else text

/-- Whether the folding of case is asked for and would need a table. -/
def Flags.foldsAllScripts (flags : Flags) : Bool :=
  flags.ignoreCase && flags.unicode

/-- The smallest part of a pattern. -/
inductive Atom where
  /-- A character, possibly spelled as a byte. -/
  | literal (c : Char) (isByte : Bool)
  /-- A shorthand for digits, blanks or letters, or for all others. -/
  | shorthand (negated : Bool)
  /-- A place in the text, possibly at the boundary of a word. -/
  | assertion (ofWord : Bool)
  deriving DecidableEq, Repr

/-- The value of a hexadecimal digit. -/
def hexDigit? (c : Char) : Option Nat :=
  if c.isDigit then some (c.toNat - '0'.toNat)
  else if 'a' ≤ c && c ≤ 'f' then some (c.toNat - 'a'.toNat + 10)
  else if 'A' ≤ c && c ≤ 'F' then some (c.toNat - 'A'.toNat + 10)
  else none

/-- Read a number of hexadecimal digits behind those that have a value already. -/
def readHex (flags : Flags) : Nat → Nat → List Char → Except PatternError (Nat × List Char)
  | 0, value, text => .ok (value, text)
  | _ + 1, _, [] => .error .malformed
  | count + 1, value, c :: rest =>
    match hexDigit? c with
    | some digit => readHex flags count (16 * value + digit) (flags.skip rest)
    | none => .error .malformed

/-- Read a character that is spelled by its number, with so many digits. -/
def readCode (flags : Flags) (digits : Nat) (text : List Char) :
    Except PatternError (Atom × List Char) := do
  let (code, rest) ← readHex flags digits 0 (flags.skip text)
  if code.isValidChar then return (.literal (Char.ofNat code) (digits = 2), rest)
  else .error .malformed

/-- The control character that a letter stands for. -/
def control? (c : Char) : Option Char :=
  ([('a', '\x07'), ('f', '\x0c'), ('t', '\t'), ('n', '\n'), ('r', '\r'), ('v', '\x0b')].find?
    (·.1 = c)).map (·.2)

/-- Read what stands behind a backslash. Of ASCII everything but a letter or a digit stands for
itself; there is no property, no octal number and no reference to a group. -/
def readEscape (flags : Flags) : List Char → Except PatternError (Atom × List Char)
  | [] => .error .malformed
  | 'x' :: rest => readCode flags 2 rest
  | 'u' :: rest => readCode flags 4 rest
  | 'U' :: rest => readCode flags 8 rest
  | c :: rest =>
    if ['d', 's', 'w'].contains c then .ok (.shorthand false, rest)
    else if ['D', 'S', 'W'].contains c then .ok (.shorthand true, rest)
    else if ['A', 'z'].contains c then .ok (.assertion false, rest)
    else if ['b', 'B', '<', '>'].contains c then .ok (.assertion true, rest)
    else
      match control? c with
      | some control => .ok (.literal control false, rest)
      | none =>
        if c.toNat < 128 && !c.isAlphanum then .ok (.literal c false, rest)
        else .error .malformed

/-- Whether a shorthand is understood: only for bytes, and if it is not negated. -/
def Flags.allowsShorthand (flags : Flags) (negated : Bool) : Bool :=
  !flags.unicode && !negated

/-- Whether a character matches as a whole: a byte beyond ASCII is no character. -/
def Flags.allowsLiteral (flags : Flags) (c : Char) (isByte : Bool) : Bool :=
  flags.unicode || !isByte || c.toNat < 128

/-- The depth of a row of parts, which are nested once more if there are two or more. -/
def depthOf : List Nat → Nat
  | [] => 0
  | [depth] => depth
  | depths => depths.foldl max 0 + 1

end Pattern

end NetnsWatch
