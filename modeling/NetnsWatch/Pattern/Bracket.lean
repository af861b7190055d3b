import NetnsWatch.Pattern.Atom

/-!
# Sets of characters in brackets

A set lists characters, ranges, named sets and further sets in brackets, and may combine two such
lists by an operator. Operators bind to the left. Of a set it is kept how deeply its parts are nested.

Where case would have to be folded in all scripts, a set can list no character, but it need not be
empty: what is not in an empty set is everything, which no folding changes.
-/

namespace NetnsWatch.Pattern

/-- The names of the sets within ASCII. -/
def setNames : List String :=
  ["alnum", "alpha", "ascii", "blank", "cntrl", "digit", "graph", "lower", "print", "punct", "space",
    "upper", "word", "xdigit"]

/-- The depth of two sets that are combined, or of the second where there is no first one. -/
def combine (left : Option Nat) (right : Nat) : Nat :=
  match left with
  | none => right
  | some left => depthOf [left, right]

/-- A named set behind its opening bracket: whether it is negated, and the rest. -/
def namedSet? (text : List Char) : Option (Bool × List Char) :=
  match text with
  | ':' :: text =>
    let (negated, text) := match text with
      | '^' :: rest => (true, rest)
      | text => (false, text)
    match text.dropWhile (· ≠ ':') with
    | ':' :: ']' :: rest =>
      if setNames.contains (String.ofList (text.takeWhile (· ≠ ':'))) then some (negated, rest)
      else none
    | _ => none
  | _ => none

/-- The first character that is neither blank nor the start of a comment; where a comment has begun
its first character counts. -/
def firstVisible? (inComment : Bool) : List Char → Option Char
  | [] => none
  | c :: rest =>
    if Unicode.blank c then firstVisible? inComment rest
    else if !inComment && c = '#' then firstVisible? true rest
    else some c

/-- The character that decides whether a dash makes a range. -/
def Flags.next? (flags : Flags) (text : List Char) : Option Char :=
  if flags.verbose then (firstVisible? false text).or text.head? else text.head?

/-- Read an atom inside brackets. -/
def readItem (flags : Flags) : List Char → Except PatternError (Atom × List Char)
  | [] => .error .malformed
  | '\\' :: rest => readEscape flags rest
  | c :: rest => .ok (.literal c false, rest)

/-- Whether a character can be listed: its case need not be folded, and where bytes are meant it is
one. -/
def Flags.lists (flags : Flags) (c : Char) : Bool :=
  !flags.foldsAllScripts && (flags.unicode || c.toNat < 128)

/-- Whether what is not in a set can match as a whole: where bytes are meant, single bytes beyond
ASCII are among it. -/
def Flags.complements (flags : Flags) (negated : Bool) : Bool :=
  flags.unicode || !negated

/-- Whether an atom can be a member of a set. -/
def Flags.admits (flags : Flags) : Atom → Bool
  | .literal c _ => flags.lists c
  | .shorthand negated => flags.allowsShorthand negated
  | .assertion _ => false

/-- Whether two atoms are the ends of a range: characters, and in order. -/
def isRange : Atom → Atom → Bool
  | .literal first _, .literal last _ => first ≤ last
  | _, _ => false

/-- Read a character, a shorthand or a range. A dash before a bracket or a dash makes no range. -/
def readRange (flags : Flags) (text : List Char) : Except PatternError (List Char) := do
  let (first, rest) ← readItem flags text
  if !flags.admits first then .error .malformed
  else
    match flags.skip rest with
    | '-' :: rest =>
      if [some ']', some '-'].contains (flags.next? rest) then return '-' :: rest
      else
        let (last, rest) ← readItem flags (flags.skip rest)
        if flags.admits last && isRange first last then return rest else .error .malformed
    | rest => return rest

/-- Read the dashes at the beginning of a set, which stand for themselves, and count them. -/
def readDashes (flags : Flags) : Nat → Nat → List Char → Nat × List Char
  | fuel + 1, count, '-' :: rest => readDashes flags fuel (count + 1) (flags.skip rest)
  | _, count, text => (count, text)

/-- Read the beginning of a set behind its opening bracket, and list the depths of the members that
could not stand elsewhere, which are dashes or else a closing bracket. -/
def readOpening (flags : Flags) (text : List Char) :
    Except PatternError (List Nat × List Char) :=
  let (negated, text) := match flags.skip text with
    | '^' :: rest => (true, flags.skip rest)
    | text => (false, text)
  let (count, text) := match readDashes flags text.length 0 text with
    | (0, ']' :: rest) => (1, flags.skip rest)
    | others => others
  if flags.complements negated && (count = 0 || flags.lists '-') then
    .ok (List.replicate count 0, text)
  else .error .malformed

/-- Read the members of a set up to its closing bracket. The members before have depths, and there
may be an operator before them and a set to its left. -/
def readMembers (flags : Flags) :
    Nat → Option Nat → List Nat → List Char → Except PatternError (Nat × List Char)
  | 0, _, _, _ => .error .malformed
  | fuel + 1, left, depths, text =>
    let depth := combine left (depthOf depths)
    match flags.skip text with
    | [] => .error .malformed
    | ']' :: rest => .ok (depth, rest)
    | '&' :: '&' :: rest => readMembers flags fuel (some depth) [] rest
    | '-' :: '-' :: rest => readMembers flags fuel (some depth) [] rest
    | '~' :: '~' :: rest => readMembers flags fuel (some depth) [] rest
    | '[' :: rest =>
      match namedSet? rest with
      | some (negated, rest) =>
        if flags.complements negated && !flags.foldsAllScripts then
          readMembers flags fuel left (0 :: depths) rest
        else .error .malformed
      | none => do
        let (first, rest) ← readOpening flags rest
        let (depth, rest) ← readMembers flags fuel none first rest
        readMembers flags fuel left ((depth + 1) :: depths) rest
    | text => do
      let rest ← readRange flags text
      readMembers flags fuel left (0 :: depths) rest

/-- Read a set behind its opening bracket, to find its depth. Each turn takes a character at least,
so as many turns as there are characters are enough. -/
def readSet (flags : Flags) (text : List Char) : Except PatternError (Nat × List Char) := do
  let (first, rest) ← readOpening flags text
  let (depth, rest) ← readMembers flags (text.length + 1) none first rest
  return (depth + 1, rest)

end NetnsWatch.Pattern
