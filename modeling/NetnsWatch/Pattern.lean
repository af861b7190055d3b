import NetnsWatch.Pattern.Bracket

/-!
# Patterns

A pattern is a row of alternatives, each a row of atoms, sets and groups that may be repeated. Modes
can be set for the rest of a group or for a group of its own. The parts of a pattern may be nested
only so deeply. A pattern that is well formed still has no automaton if it looks for the boundaries of
words in all scripts.

A closing brace never stands in the patterns that are read here, because it ends the field that they
belong to; so whatever an opening brace begins is incomplete.
-/

namespace NetnsWatch.Pattern

/-- How deeply the parts of a pattern may be nested. -/
def nestLimit : Nat := 250

/-- What is known of a part: how deeply it is nested, and whether it can be repeated. -/
structure Part where
  depth : Nat
  repeatable : Bool
  deriving DecidableEq, Repr

/-- Alternatives that are being read: the depths of those that are done, and the parts of the last
one, last first. -/
structure Alternatives where
  done : List Nat := []
  parts : List Part := []
  deriving DecidableEq, Repr

namespace Alternatives

/-- The depth of the last alternative. -/
def lastDepth (a : Alternatives) : Nat :=
  depthOf (a.parts.map Part.depth)

/-- The depth of all alternatives. -/
def depth (a : Alternatives) : Nat :=
  depthOf (a.lastDepth :: a.done)

/-- One part more. -/
def add (part : Part) (a : Alternatives) : Alternatives :=
  { a with parts := part :: a.parts }

/-- Begin the next alternative. -/
def next (a : Alternatives) : Alternatives where
  done := a.lastDepth :: a.done
  parts := []

/-- Repeat the last part, if there is one that can be. -/
def repeatLast (a : Alternatives) : Except PatternError Alternatives :=
  match a.parts with
  | ⟨depth, true⟩ :: parts => .ok { a with parts := ⟨depth + 1, true⟩ :: parts }
  | ⟨_, false⟩ :: _ | [] => .error .malformed

end Alternatives

/-- How far a pattern was read: the modes, the alternatives of the innermost group, the modes and
alternatives around it, the names of groups, and whether boundaries of words were met. -/
structure Reading where
  flags : Flags := {}
  inner : Alternatives := {}
  outer : List (Flags × Alternatives) := []
  names : List String := []
  wordBoundary : Bool := false
  deriving DecidableEq, Repr

/-- Modes after those in a list were switched on, and those behind its dash off. -/
def Flags.set (modes : List Char) (flags : Flags) : Flags :=
  let mode (letter : Char) (old : Bool) : Bool :=
    if (modes.takeWhile (· ≠ '-')).contains letter then true
    else if modes.contains letter then false
    else old
  { ignoreCase := mode 'i' flags.ignoreCase
    verbose := mode 'x' flags.verbose
    unicode := mode 'u' flags.unicode }

/-- Read a list of modes up to the bracket or the colon that ends it, behind those that were read,
last first. None comes twice, and a dash is not the last. -/
def readModes (modes : List Char) : List Char → Except PatternError (List Char × List Char)
  | [] => .error .malformed
  | c :: rest =>
    if [')', ':'].contains c then
      if modes.head? = some '-' then .error .malformed else .ok (modes.reverse, c :: rest)
    else if ['-', 'i', 'm', 's', 'U', 'u', 'R', 'x'].contains c && !modes.contains c then
      readModes (c :: modes) rest
    else .error .malformed

/-- Whether a character can stand in the name of a group. -/
def inName (isFirst : Bool) (c : Char) : Bool :=
  c = '_' || (if isFirst then Unicode.alphabetic c
    else ['.', '[', ']'].contains c || Unicode.alphanumeric c)

/-- Read the name of a group up to the bracket that ends it. -/
def readName (text : List Char) : Except PatternError (String × List Char) :=
  let name := text.takeWhile (· ≠ '>')
  match name, text.dropWhile (· ≠ '>') with
  | first :: others, _ :: rest =>
    if inName true first && others.all (inName false) then .ok (String.ofList name, rest)
    else .error .malformed
  | _, _ => .error .malformed

namespace Reading

/-- Begin a group with given modes inside. -/
def openGroup (flags : Flags) (r : Reading) : Reading :=
  { r with flags, inner := {}, outer := (r.flags, r.inner) :: r.outer }

/-- Begin a group with a name of its own. -/
def openNamed (r : Reading) (text : List Char) : Except PatternError (Reading × List Char) := do
  let (name, rest) ← readName text
  if r.names.contains name then .error .malformed
  else return ({ r.openGroup r.flags with names := name :: r.names }, rest)

/-- Read the beginning of a group, or a setting of modes, behind its opening bracket. -/
def readOpening (r : Reading) (text : List Char) : Except PatternError (Reading × List Char) :=
  match r.flags.skip text with
  | '?' :: 'P' :: '<' :: rest => r.openNamed rest
  | '?' :: '<' :: rest => r.openNamed rest
  | '?' :: rest => do
    match ← readModes [] rest with
    | (modes, ':' :: rest) => return (r.openGroup (r.flags.set modes), rest)
    | ([], _) | (_, []) => .error .malformed
    | (modes, _ :: rest) =>
      return ({ r with flags := r.flags.set modes, inner := r.inner.add ⟨0, false⟩ }, rest)
  | rest => .ok (r.openGroup r.flags, rest)

/-- End the innermost group. -/
def closeGroup (r : Reading) : Except PatternError Reading :=
  match r.outer with
  | [] => .error .malformed
  | (flags, around) :: outer =>
    .ok { r with flags, inner := around.add ⟨r.inner.depth + 1, true⟩, outer }

/-- One atom more. -/
def addAtom (atom : Atom) (r : Reading) : Except PatternError Reading :=
  let added := { r with inner := r.inner.add ⟨0, true⟩ }
  match atom with
  | .literal c isByte =>
    if r.flags.foldsAllScripts || !r.flags.allowsLiteral c isByte then .error .malformed
    else .ok added
  | .shorthand negated =>
    if r.flags.allowsShorthand negated then .ok added else .error .malformed
  | .assertion ofWord =>
    .ok { added with wordBoundary := r.wordBoundary || (ofWord && r.flags.unicode) }

/-- Read the next part of a pattern, which begins with a given character. -/
def readPart (r : Reading) (c : Char) (rest : List Char) :
    Except PatternError (Reading × List Char) := do
  match c with
  | '(' => r.readOpening rest
  | ')' => return (← r.closeGroup, rest)
  | '|' => return ({ r with inner := r.inner.next }, rest)
  | '[' =>
    let (depth, rest) ← readSet r.flags rest
    return ({ r with inner := r.inner.add ⟨depth, true⟩ }, rest)
  | '?' | '*' | '+' =>
    let inner ← r.inner.repeatLast
    return ({ r with inner }, if rest.head? = some '?' then rest.tail else rest)
  | '\x7b' => .error .malformed
  | '\\' =>
    let (atom, rest) ← readEscape r.flags rest
    return (← r.addAtom atom, rest)
  | '.' =>
    if r.flags.unicode then return ({ r with inner := r.inner.add ⟨0, true⟩ }, rest)
    else .error .malformed
  | '^' | '$' => return (← r.addAtom (.assertion false), rest)
  | c => return (← r.addAtom (.literal c false), rest)

/-- Read the rest of a pattern; each turn takes a character at least. -/
def readFrom : Nat → Reading → List Char → Except PatternError Reading
  | 0, _, _ => .error .malformed
  | fuel + 1, r, text =>
    match r.flags.skip text with
    | [] => .ok r
    | c :: rest => do
      let (r, rest) ← r.readPart c rest
      readFrom fuel r rest

end Reading

/-- Find out whether an automaton can be built for a pattern. -/
def check (text : List Char) : Except PatternError Unit := do
  let r ← Reading.readFrom (text.length + 1) {} text
  if !r.outer.isEmpty || nestLimit < r.inner.depth then .error .malformed
  else if r.wordBoundary then .error .wordBoundary
  else return ()

end NetnsWatch.Pattern
