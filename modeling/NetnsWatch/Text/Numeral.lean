/-!
# Numbers in decimal notation

A number has digits with at most one point among or beside them, and possibly a sign and an exponent.
The words for infinity and for what is no number count as numbers too.
-/

namespace NetnsWatch.Numeral

/-- What stands behind a sign, if there is one. -/
def unsigned : List Char → List Char
  | '+' :: rest => rest
  | '-' :: rest => rest
  | text => text

/-- Whether a text consists of digits, and of one at least. -/
def isDigits (text : List Char) : Bool :=
  !text.isEmpty && text.all Char.isDigit

/-- Whether a text is an exponent or empty. -/
def isExponent : List Char → Bool
  | [] => true
  | c :: rest => ['e', 'E'].contains c && isDigits (unsigned rest)

/-- Whether a text is a number without a sign. -/
def isDecimal (text : List Char) : Bool :=
  let whole := text.takeWhile Char.isDigit
  match text.dropWhile Char.isDigit with
  | '.' :: rest =>
    (!whole.isEmpty || !(rest.takeWhile Char.isDigit).isEmpty) &&
      isExponent (rest.dropWhile Char.isDigit)
  | rest => !whole.isEmpty && isExponent rest

/-- Whether a text is a number. -/
def isNumeral (text : List Char) : Bool :=
  let body := unsigned text
  ["inf", "infinity", "nan"].contains (String.ofList (body.map Char.toLower)) || isDecimal body

end NetnsWatch.Numeral
