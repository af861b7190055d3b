import NetnsWatch.CommandLine.Directive
import NetnsWatch.Notice

/-!
# Choosing what is logged

A filter is a row of directives, separated by commas. Of the directives that apply to a notice the
one with the longest target decides; among equally long ones one that asks for a field, and then the
last. If none applies, the notice does not pass. Without any directive only errors pass. What is not
a directive is complained about and left out.
-/

namespace NetnsWatch.LogFilter

/-- The fields that a notice carries. -/
def fields : List String := ["message"]

/-- Split characters at every separator. -/
def splitAt (separator : Char) : List Char → List (List Char)
  | [] => [[]]
  | c :: rest =>
    match splitAt separator rest with
    | [] => [[c]]
    | part :: parts => if c = separator then [] :: part :: parts else (c :: part) :: parts

/-- The texts between the commas, without the empty ones. -/
def pieces (text : String) : List String :=
  ((splitAt ',' text.toList).filter (!·.isEmpty)).map String.ofList

/-- The directives of a filter. -/
def directives (text : String) : List Directive :=
  (pieces text).filterMap fun piece => (Directive.read piece).toOption

/-- What is said about a piece that is not a directive. -/
def complaint? (piece : String) : Option String :=
  match Directive.read piece with
  | .ok _ => none
  | .error error => some ("ignoring `" ++ piece ++ "`: " ++ error.message)

/-- The complaints about a filter. -/
def complaints (text : String) : List String :=
  (pieces text).filterMap complaint?

/-- Whether a directive applies to a notice. No notice stands in a span, and no value is known of a
field. -/
def applies (notice : Notice) (d : Directive) : Bool :=
  d.span.isNone &&
    d.field.all (fun test => !test.hasValue && fields.contains test.name) &&
    d.target.all (·.isPrefixOf notice.origin.path)

/-- How narrow a directive is: by the length of its target, and then by whether it asks for a
field. -/
def narrowness (d : Directive) : Nat :=
  2 * (d.target.map (·.length + 1)).getD 0 + (if d.field.isSome then 1 else 0)

/-- The directive that decides, between the best so far and the next. -/
def better (best : Option Directive) (next : Directive) : Option Directive :=
  match best with
  | none => some next
  | some b => if narrowness b ≤ narrowness next then some next else some b

/-- How much detail a filter lets through where a notice comes from. -/
def detail (text : String) (notice : Notice) : Nat :=
  match directives text with
  | [] => Level.error.detail
  | ds =>
    match (ds.filter (applies notice)).foldl better none with
    | some d => d.detail
    | none => 0

/-- Whether a filter lets a notice through. -/
def passes (text : String) (notice : Notice) : Bool :=
  notice.level.detail ≤ detail text notice

end NetnsWatch.LogFilter
