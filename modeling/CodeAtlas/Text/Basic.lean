import CodeAtlas.Text.Ranges

/-!
Searching, cutting, trimming and joining of texts. The work is done on lists of characters; the
functions on strings below convert at the border.

A blank is a character of a space, line or paragraph separator category or one of the bidirectional
classes for white space; a line break is one of the ten characters that end a line of text.
-/

namespace CodeAtlas.Text

def blankRanges : Ranges :=
  [
    (9, 13), (28, 32), (133, 133), (160, 160), (5760, 5760), (8192, 8202), (8232, 8233),
    (8239, 8239), (8287, 8287), (12288, 12288)]

def isBlank (char : Char) : Bool :=
  blankRanges.contains char.toNat

/-- A carriage return followed by a line feed is one break; that is the business of the splitter. -/
def isLineBreak (char : Char) : Bool :=
  match char.toNat with
  | 10 | 11 | 12 | 13 | 28 | 29 | 30 | 133 | 8232 | 8233 => true
  | _ => false

namespace Chars

def dropLead? : List Char → List Char → Option (List Char)
  | [], text => some text
  | _ :: _, [] => none
  | expected :: lead, char :: text => if expected == char then dropLead? lead text else none

def contains (part : List Char) : List Char → Bool
  | [] => part.isEmpty
  | char :: rest => part.isPrefixOf (char :: rest) || contains part rest

def cut? (part : List Char) : List Char → Option (List Char × List Char)
  | [] => if part.isEmpty then some ([], []) else none
  | char :: rest =>
    match dropLead? part (char :: rest) with
    | some after => some ([], after)
    | none => (cut? part rest).map fun (before, after) => (char :: before, after)

/-- The pieces between the occurrences of a separator, found from left to right without overlap.
The first argument counts the characters of a separator still to be passed over. -/
def splitFrom (separator : List Char) : Nat → List Char → List Char → List (List Char)
  | _, piece, [] => [piece.reverse]
  | passing + 1, piece, _ :: rest => splitFrom separator passing piece rest
  | 0, piece, char :: rest =>
    if separator.isPrefixOf (char :: rest) then
      piece.reverse :: splitFrom separator (separator.length - 1) [] rest
    else splitFrom separator 0 (char :: piece) rest

def split (separator text : List Char) : List (List Char) :=
  splitFrom separator 0 [] text

def replaceFrom (part image : List Char) : Nat → List Char → List Char
  | _, [] => []
  | passing + 1, _ :: rest => replaceFrom part image passing rest
  | 0, char :: rest =>
    if part.isPrefixOf (char :: rest) then
      image ++ replaceFrom part image (part.length - 1) rest
    else char :: replaceFrom part image 0 rest

def replace (part image text : List Char) : List Char :=
  replaceFrom part image 0 text

def trimRight (remove : Char → Bool) (text : List Char) : List Char :=
  (text.reverse.dropWhile remove).reverse

def trim (remove : Char → Bool) (text : List Char) : List Char :=
  trimRight remove (text.dropWhile remove)

/-- The lines of a text without their breaks. The break at the end of the last line opens no
further line. -/
def linesFrom (line : List Char) : List Char → List (List Char)
  | [] => if line.isEmpty then [] else [line.reverse]
  | '\r' :: '\n' :: rest => line.reverse :: linesFrom [] rest
  | char :: rest =>
    if isLineBreak char then line.reverse :: linesFrom [] rest
    else linesFrom (char :: line) rest

def wordsFrom (word : List Char) : List Char → List (List Char)
  | [] => if word.isEmpty then [] else [word.reverse]
  | char :: rest =>
    if isBlank char then
      if word.isEmpty then wordsFrom [] rest else word.reverse :: wordsFrom [] rest
    else wordsFrom (char :: word) rest

/-- A carriage return, alone or before a line feed, becomes a line feed. -/
def unifyBreaks : List Char → List Char
  | [] => []
  | '\r' :: '\n' :: rest => '\n' :: unifyBreaks rest
  | char :: rest => (if char == '\r' then '\n' else char) :: unifyBreaks rest

end Chars

def startsWith (text start : String) : Bool :=
  start.toList.isPrefixOf text.toList

def endsWith (text ending : String) : Bool :=
  ending.toList.reverse.isPrefixOf text.toList.reverse

def startsWithAny (text : String) (starts : List String) : Bool :=
  starts.any (startsWith text)

def contains (text part : String) : Bool :=
  Chars.contains part.toList text.toList

def containsAny (text : String) (parts : List String) : Bool :=
  parts.any (contains text)

def split (text separator : String) : List String :=
  (Chars.split separator.toList text.toList).map String.ofList

def cut? (text part : String) : Option (String × String) :=
  (Chars.cut? part.toList text.toList).map fun (before, after) =>
    (String.ofList before, String.ofList after)

def cutLast? (text part : String) : Option (String × String) :=
  (Chars.cut? part.toList.reverse text.toList.reverse).map fun (after, before) =>
    (String.ofList before.reverse, String.ofList after.reverse)

def replace (text part image : String) : String :=
  String.ofList (Chars.replace part.toList image.toList text.toList)

def strip (text : String) : String :=
  String.ofList (Chars.trim isBlank text.toList)

def stripLeft (text : String) : String :=
  String.ofList (text.toList.dropWhile isBlank)

def stripRight (text : String) : String :=
  String.ofList (Chars.trimRight isBlank text.toList)

def stripChars (text : String) (remove : List Char) : String :=
  String.ofList (Chars.trim (remove.contains ·) text.toList)

def stripRightChars (text : String) (remove : List Char) : String :=
  String.ofList (Chars.trimRight (remove.contains ·) text.toList)

def lines (text : String) : List String :=
  (Chars.linesFrom [] text.toList).map String.ofList

def words (text : String) : List String :=
  (Chars.wordsFrom [] text.toList).map String.ofList

def unifyBreaks (text : String) : String :=
  String.ofList (Chars.unifyBreaks text.toList)

def join (separator : String) (parts : List String) : String :=
  String.ofList (separator.toList.intercalate (parts.map String.toList))

def take (text : String) (count : Nat) : String :=
  String.ofList (text.toList.take count)

def drop (text : String) (count : Nat) : String :=
  String.ofList (text.toList.drop count)

def dropLast (text : String) (count : Nat) : String :=
  String.ofList (text.toList.take (text.toList.length - count))

def repeated (count : Nat) (part : String) : String :=
  String.ofList (List.replicate count part.toList).flatten

def indented (blanks : Nat) (lines : List String) : List String :=
  lines.map (repeated blanks " " ++ ·)

def padRight (width : Nat) (text : String) : String :=
  text ++ String.ofList (List.replicate (width - text.length) ' ')

def padLeft (width : Nat) (text : String) (fill : Char := ' ') : String :=
  String.ofList (List.replicate (width - text.length) fill) ++ text

def dropEnding? (text ending : String) : Option String :=
  if endsWith text ending then some (dropLast text ending.length) else none

def dropStart? (text start : String) : Option String :=
  (Chars.dropLead? start.toList text.toList).map String.ofList

def count (text part : String) : Nat :=
  (split text part).length - 1

end CodeAtlas.Text
