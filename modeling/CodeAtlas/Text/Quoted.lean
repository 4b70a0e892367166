import CodeAtlas.Text.Printable

/-!
Texts in quotes. Single quotes are taken, unless the text has a single quote and no double one. A
backslash stands before the quote inside and before itself; line feeds, carriage returns and tabs
are written by letter, other unprintable characters by number.
-/

namespace CodeAtlas.Text

def hexDigits : List Char := "0123456789abcdef".toList

def hexadecimal : Nat → Nat → List Char
  | 0, _ => []
  | width + 1, value => hexadecimal width (value / 16) ++ [hexDigits.getD (value % 16) '0']

def quotedChar (quote char : Char) : List Char :=
  if char == quote || char == '\\' then ['\\', char]
  else if char == '\n' then ['\\', 'n']
  else if char == '\r' then ['\\', 'r']
  else if char == '\t' then ['\\', 't']
  else if isPrintable char then [char]
  else if char.toNat < 256 then ['\\', 'x'] ++ hexadecimal 2 char.toNat
  else if char.toNat < 65536 then ['\\', 'u'] ++ hexadecimal 4 char.toNat
  else ['\\', 'U'] ++ hexadecimal 8 char.toNat

def quoted (text : String) : String :=
  let chars := text.toList
  let quote := if chars.contains '\'' && !chars.contains '"' then '"' else '\''
  String.ofList ([quote] ++ chars.flatMap (quotedChar quote) ++ [quote])

end CodeAtlas.Text
