import ValidatorGen.Text.Printable

/-!
# Quoted text

A text between double quotes, in which the quote and the backslash are escaped, four controls have
letters of their own, and every other character that shows nothing is written by its code point.

This is how texts stand in messages about documents. It is not the quoting of documents themselves,
in which characters outside of ASCII are never escaped.
-/

namespace ValidatorGen.Text

/-- One character inside quotes. -/
def quoteChar (c : Char) : List Char :=
  match c with
  | '"' => ['\\', '"']
  | '\\' => ['\\', '\\']
  | '\t' => ['\\', 't']
  | '\n' => ['\\', 'n']
  | '\r' => ['\\', 'r']
  | '\x00' => ['\\', '0']
  | c =>
    if isPrintable c then [c]
    else '\\' :: 'u' :: '\x7b' :: (Nat.toDigits 16 c.toNat ++ ['\x7d'])

/-- The text between quotes. -/
def quoted (s : String) : String :=
  String.ofList ('"' :: (s.toList.flatMap quoteChar ++ ['"']))

end ValidatorGen.Text
