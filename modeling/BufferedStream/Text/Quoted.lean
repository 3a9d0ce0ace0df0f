import BufferedStream.Text.Hidden

/-!
# Quoted text

A quoted text stands between double quotes on one line.  A quote and a backslash are preceded by a
backslash, the four characters with a short name take it, and every other character without a
printed form is written by its code point in hexadecimal.
-/

namespace BufferedStream.Text.Quoted

/-- A code point written out in hexadecimal between braces. -/
def codePoint (c : Char) : List Char :=
  ['\\', 'u', '\x7b'] ++ Nat.toDigits 16 c.toNat ++ ['\x7d']

/-- The written form of one character between quotes. -/
def escape (c : Char) : List Char :=
  match c with
  | '"' => ['\\', '"']
  | '\\' => ['\\', '\\']
  | '\n' => ['\\', 'n']
  | '\t' => ['\\', 't']
  | '\r' => ['\\', 'r']
  | '\x00' => ['\\', '0']
  | c => if isHidden c then codePoint c else [c]

/-- The quoted form of a text. -/
def quote (s : String) : String :=
  String.ofList ('"' :: s.toList.flatMap escape ++ ['"'])

end BufferedStream.Text.Quoted
