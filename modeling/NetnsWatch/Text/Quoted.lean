import NetnsWatch.Text.Unicode

/-!
# Quoted text

A text between double quotes, for messages. Quotes and backslashes are escaped, line breaks, tabs
and the NUL have a letter, and every other character without a visible form is spelled by its
number. The apostrophe stays as it is.
-/

namespace NetnsWatch.Quoted

/-- One character inside the quotes. -/
def escape (c : Char) : List Char :=
  match c with
  | '\x00' => ['\\', '0']
  | '\t' => ['\\', 't']
  | '\r' => ['\\', 'r']
  | '\n' => ['\\', 'n']
  | '\\' => ['\\', '\\']
  | '"' => ['\\', '"']
  | _ =>
    if Unicode.invisible c then
      ['\\', 'u', '\x7b'] ++ Nat.toDigits 16 c.toNat ++ ['\x7d']
    else [c]

/-- A text with its quotes. -/
def encode (text : String) : String :=
  String.ofList ('"' :: text.toList.flatMap escape ++ ['"'])

end NetnsWatch.Quoted
