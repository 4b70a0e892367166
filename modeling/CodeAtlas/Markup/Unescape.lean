import CodeAtlas.Json.Parser
import CodeAtlas.Markup.NameTable

/-!
Reading texts in markup: characters written by their names or their numbers. A name without its
semicolon is read as far as the longest name that is known.
-/

namespace CodeAtlas.Markup

def hexNumber (digits : List Char) : Nat :=
  digits.foldl (fun value char => 16 * value + (Json.Parser.hexValue? char).getD 0) 0

/-- A name with what it stands for, with and, where that is allowed, without the semicolon. -/
def spellings (chars : List Char) (name : String) : List (List Char × List Char) :=
  match Text.dropEnding? name "!" with
  | some short => [(short.toList ++ [';'], chars), (short.toList, chars)]
  | none => if name == "" then [] else [(name.toList ++ [';'], chars)]

def namesFrom (numbers : List Nat) (groups : List String) : List (List Char × List Char) :=
  groups.zipIdx.flatMap fun (group, index) =>
    let chars := numbers.zipIdx.map fun (number, place) =>
      Char.ofNat (if place == 0 then number + index else number)
    (Text.split group "/").flatMap (spellings chars)

def names : List (List Char × List Char) :=
  (nameTable.flatMap fun line => Text.split line " ").flatMap fun item =>
    match Text.cut? item "=" with
    | some (numbers, groups) =>
      namesFrom ((Text.split numbers "+").map fun digits => hexNumber digits.toList)
        (Text.split groups ",")
    | none => []

/-- What is read for the numbers from 128 on that mean no characters of their own; zero where the
number stands. -/
def windowNumbers : List Nat :=
  [0x20ac, 0, 0x201a, 0x0192, 0x201e, 0x2026, 0x2020, 0x2021, 0x02c6, 0x2030, 0x0160, 0x2039,
    0x0152, 0, 0x017d, 0, 0, 0x2018, 0x2019, 0x201c, 0x201d, 0x2022, 0x2013, 0x2014, 0x02dc,
    0x2122, 0x0161, 0x203a, 0x0153, 0, 0x017e, 0x0178]

/-- Whether a number means no character of a text. -/
def isVoid (number : Nat) : Bool :=
  number < 9 || number == 11 || (14 ≤ number && number < 32) || number == 127
    || (0xfdd0 ≤ number && number ≤ 0xfdef) || 0xfffe ≤ number % 0x10000

def numbered (number : Nat) : List Char :=
  if number == 0 then [Char.ofNat 0xfffd]
  else if 128 ≤ number && number < 160 then
    let other := windowNumbers.getD (number - 128) 0
    [Char.ofNat (if other == 0 then number else other)]
  else if (0xd800 ≤ number && number ≤ 0xdfff) || 0x10ffff < number then [Char.ofNat 0xfffd]
  else if isVoid number then []
  else [Char.ofNat number]

def dropSemicolon : List Char → List Char
  | ';' :: rest => rest
  | text => text

def isNameChar (char : Char) : Bool := !"\t\n\x0c <&#;".toList.contains char

/-- The longest leading part of a name that is known, of at least two characters: its characters
and the rest. The first argument is the length to try first. -/
def knownStart? (name : List Char) : Nat → Option (List Char × List Char)
  | 0 => none
  | 1 => none
  | length + 2 =>
    match names.lookup (name.take (length + 2)) with
    | some chars => some (chars, name.drop (length + 2))
    | none => knownStart? name (length + 1)

/-- What a name, with the semicolon if there is one, stands for; nothing if it is not known. -/
def named? (name : List Char) : Option (List Char) :=
  match names.lookup name with
  | some chars => some chars
  | none => (knownStart? name (name.length - 1)).map fun (chars, rest) => chars ++ rest

/-- Reads what follows an ampersand: the characters it stands for and the rest of the text. -/
def reference? : List Char → Option (List Char × List Char)
  | '#' :: mark :: rest =>
    if mark == 'x' || mark == 'X' then
      let digits := rest.takeWhile fun char => (Json.Parser.hexValue? char).isSome
      if digits.isEmpty then none
      else some (numbered (hexNumber digits), dropSemicolon (rest.drop digits.length))
    else
      let digits := (mark :: rest).takeWhile Json.Parser.isDigit
      if digits.isEmpty then none
      else some (numbered (Json.Parser.digitsValue digits),
        dropSemicolon ((mark :: rest).drop digits.length))
  | text =>
    let name := (text.takeWhile isNameChar).take 32
    if name.isEmpty then none
    else
      let rest := text.drop name.length
      let whole := if rest.head? == some ';' then name ++ [';'] else name
      (named? whole).map fun chars => (chars, dropSemicolon rest)

/-- Reads a text; the first argument bounds the number of characters. -/
def unescapeFrom : Nat → List Char → List Char
  | 0, text => text
  | _ + 1, [] => []
  | bound + 1, '&' :: rest =>
    match reference? rest with
    | some (chars, rest) => chars ++ unescapeFrom bound rest
    | none => '&' :: unescapeFrom bound rest
  | bound + 1, char :: rest => char :: unescapeFrom bound rest

def unescape (text : String) : String :=
  String.ofList (unescapeFrom text.length text.toList)

end CodeAtlas.Markup
