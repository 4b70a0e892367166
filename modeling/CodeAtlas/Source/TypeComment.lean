import CodeAtlas.Text.Basic
import CodeAtlas.Text.Word

/-!
Types named in documentation comments: after the tags for parameters, results, types, type
definitions and interfaces.
-/

namespace CodeAtlas.TypeComment

open Text (isBlank isWord)

/-- What a pattern captures at the head of a text, and how many characters it covers. -/
abbrev Pattern := List Char → Option (List Char × Nat)

/-- The captures of a pattern from left to right without overlap. The number counts characters
still to be passed over. -/
def findAllFrom (pattern : Pattern) : Nat → List Char → List (List Char)
  | _, [] => []
  | passing + 1, _ :: rest => findAllFrom pattern passing rest
  | 0, char :: rest =>
    match pattern (char :: rest) with
    | some (captured, length) => captured :: findAllFrom pattern (length - 1) rest
    | none => findAllFrom pattern 0 rest

def findAll (pattern : Pattern) (text : List Char) : List (List Char) :=
  findAllFrom pattern 0 text

def afterTag? (tag : String) (text : List Char) : Option (List Char) :=
  (Text.Chars.dropLead? tag.toList text).map (List.dropWhile isBlank)

def braced? : List Char → Option (List Char × List Char)
  | '\x7b' :: rest =>
    match rest.dropWhile (· != '\x7d') with
    | _ :: after => some (rest.takeWhile (· != '\x7d'), after)
    | [] => none
  | _ => none

def bracedAfter (tag : String) : Pattern := fun text => do
  let rest ← afterTag? tag text
  let (inside, after) ← braced? rest
  if inside.isEmpty then none else some (inside, text.length - after.length)

def resultType : Pattern := fun text =>
  (bracedAfter "@returns" text).or (bracedAfter "@return" text)

def word? (text : List Char) : Option (List Char) :=
  let word := text.takeWhile isWord
  if word.isEmpty then none else some word

def definedType : Pattern := fun text => do
  let rest ← afterTag? "@typedef" text
  let (_, after) ← braced? rest
  let after := after.dropWhile isBlank
  let word ← word? after
  some (word, text.length - (after.length - word.length))

def interfaceName : Pattern := fun text => do
  let rest ← Text.Chars.dropLead? "@interface".toList text
  let after := rest.dropWhile isBlank
  if after.length == rest.length then none
  else
    let word ← word? after
    some (word, text.length - (after.length - word.length))

def angled : Pattern := fun text =>
  match text with
  | '<' :: rest =>
    let inside := rest.takeWhile fun char => char != '<' && char != '>'
    match rest.drop inside.length with
    | '>' :: _ => if inside.isEmpty then none else some (inside, inside.length + 2)
    | _ => none
  | _ => none

def wordsFrom (word : List Char) : List Char → List (List Char)
  | [] => if word.isEmpty then [] else [word.reverse]
  | char :: rest =>
    if isWord char then wordsFrom (char :: word) rest
    else if word.isEmpty then wordsFrom [] rest
    else word.reverse :: wordsFrom [] rest

/-- The type names in a type expression: its first word, the words in angle brackets, and the first
word of each alternative. -/
def namesIn (expression : List Char) : List (List Char) :=
  let expression := Text.Chars.trim isBlank expression
  let alternatives :=
    if expression.contains '|' then
      (Text.Chars.split ['|'] expression).filterMap fun alternative =>
        word? (Text.Chars.trim isBlank alternative)
    else []
  (word? expression).toList ++ (findAll angled expression).flatMap (wordsFrom []) ++ alternatives

def builtinTypes : List String :=
  ["string", "number", "boolean", "object", "undefined", "null", "void", "any", "Array", "Promise",
    "Date", "RegExp", "Error", "Map", "Set", "WeakMap", "WeakSet", "Function", "Object", "String",
    "Number", "Boolean", "Symbol", "BigInt", "Element", "HTMLElement", "Document", "Window",
    "Event", "EventTarget", "Node", "Response", "Request", "Headers", "URL", "URLSearchParams",
    "FormData", "Blob", "File", "T", "U", "V", "K", "P", "R", "E"]

def patterns : List Pattern :=
  [bracedAfter "@param", resultType, bracedAfter "@type", definedType, interfaceName]

/-- The types named in a comment, built-in ones left out. -/
def types (comment : String) : List String :=
  let captures := patterns.flatMap fun pattern => findAll pattern comment.toList
  ((captures.flatMap namesIn).map String.ofList).filter fun name => !builtinTypes.contains name

end CodeAtlas.TypeComment
