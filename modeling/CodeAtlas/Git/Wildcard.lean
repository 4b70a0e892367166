import CodeAtlas.Text.Basic

/-!
Patterns for paths: a question mark stands for one character, a star for several within a name,
two stars between slashes for any directories, and brackets for one of a set of characters.
-/

namespace CodeAtlas.Git.Wildcard

def isInClass (name : String) (char : Char) : Bool :=
  match name with
  | "alnum" => char.isAlphanum
  | "alpha" => char.isAlpha
  | "blank" => char == ' ' || char == '\t'
  | "cntrl" => char.toNat < 32 || char.toNat == 127
  | "digit" => char.isDigit
  | "graph" => 33 ≤ char.toNat && char.toNat ≤ 126
  | "lower" => char.isLower
  | "print" => 32 ≤ char.toNat && char.toNat ≤ 126
  | "punct" => 33 ≤ char.toNat && char.toNat ≤ 126 && !char.isAlphanum
  | "space" => [' ', '\t', '\n', '\x0b', '\x0c', '\r'].contains char
  | "upper" => char.isUpper
  | "xdigit" => char.isDigit || ('a' ≤ char && char ≤ 'f') || ('A' ≤ char && char ≤ 'F')
  | _ => false

/-- A character of a set, which may be escaped, and the rest of the pattern. -/
def setChar? : List Char → Option (Char × List Char)
  | '\\' :: char :: rest => some (char, rest)
  | ['\\'] => none
  | char :: rest => some (char, rest)
  | [] => none

/-- Reads the set after its opening bracket: whether a character is in it and the pattern after the
closing bracket. The flag says whether a closing bracket would still be the first member. -/
def set? (char : Char) : Nat → Bool → Bool → List Char → Option (Bool × List Char)
  | 0, _, _, _ => none
  | bound + 1, isFirst, found, pattern =>
    match pattern with
    | [] => none
    | ']' :: rest =>
      if isFirst then afterMember bound found ']' rest else some (found, rest)
    | '[' :: ':' :: rest =>
      let name := rest.takeWhile (· ≠ ']')
      match name.reverse, rest.drop name.length with
      | ':' :: letters, ']' :: rest =>
        set? char bound false (found || isInClass (String.ofList letters.reverse) char) rest
      | _, _ => afterMember bound found '[' (':' :: rest)
    | pattern =>
      match setChar? pattern with
      | some (member, rest) => afterMember bound found member rest
      | none => none
where
  /-- After a member a dash makes it the start of a range, unless the set ends there. -/
  afterMember (bound : Nat) (found : Bool) (member : Char) (rest : List Char) :
      Option (Bool × List Char) :=
    match rest with
    | '-' :: ']' :: _ => set? char bound false (found || member == char) rest
    | '-' :: limits =>
      match setChar? limits with
      | some (limit, rest) =>
        set? char bound false (found || (member ≤ char && char ≤ limit)) rest
      | none => none
    | rest => set? char bound false (found || member == char) rest

def bracket? (char : Char) (pattern : List Char) : Option (Bool × List Char) :=
  let (negated, members) := match pattern with
    | '!' :: rest => (true, rest)
    | '^' :: rest => (true, rest)
    | rest => (false, rest)
  (set? char (members.length + 1) true false members).map fun (found, rest) =>
    (found != negated, rest)

/-- Whether a text is taken by a pattern. With `names` a slash is only taken by a slash, or by two
stars that stand alone between slashes. The flag `atStart` says that a name starts here. -/
def takes (names : Bool) : Nat → Bool → List Char → List Char → Bool
  | 0, _, _, _ => false
  | bound + 1, atStart, pattern, text =>
    match pattern, text with
    | [], text => text.isEmpty
    | '*' :: pattern, text =>
      let rest := pattern.dropWhile (· == '*')
      let isDouble := pattern.head? == some '*'
      let standsAlone := atStart && (rest.isEmpty || rest.head? == some '/')
      let passesSlash := !names || (isDouble && standsAlone)
      if isDouble && standsAlone && names && rest.head? == some '/'
          && takes names bound true (rest.drop 1) text then true
      else if rest.isEmpty then passesSlash || !text.contains '/'
      else anywhere bound passesSlash rest text
    | '?' :: pattern, char :: text =>
      (!names || char ≠ '/') && takes names bound false pattern text
    | '[' :: pattern, char :: text =>
      match bracket? char pattern with
      | some (true, pattern) => (!names || char ≠ '/') && takes names bound false pattern text
      | _ => false
    | '\\' :: pattern, char :: text =>
      match pattern with
      | [] => false
      | expected :: pattern =>
        expected == char && takes names bound (char == '/') pattern text
    | expected :: pattern, char :: text =>
      expected == char && takes names bound (char == '/') pattern text
    | _ :: _, [] => false
where
  anywhere (bound : Nat) (passesSlash : Bool) (rest : List Char) : List Char → Bool
    | [] => takes names bound false rest []
    | char :: text =>
      takes names bound false rest (char :: text)
        || ((passesSlash || char ≠ '/') && anywhere bound passesSlash rest text)

def byteChars (text : String) : List Char := text.toUTF8.toList.map fun byte => Char.ofNat byte.toNat

def isPlain (char : Char) : Bool := !(['*', '?', '[', '\\'].contains char)

def acceptsName (pattern name : String) : Bool :=
  let pattern := byteChars pattern
  takes false (pattern.length + 1) true pattern (byteChars name)

/-- Whether a path is taken by a pattern. What is written out at the start of the pattern is
compared first; the rest is read like a pattern of its own. -/
def acceptsPath (pattern path : String) : Bool :=
  let pattern := byteChars pattern
  let rest := pattern.dropWhile isPlain
  match Text.Chars.dropLead? (pattern.takeWhile isPlain) (byteChars path) with
  | some path => takes true (rest.length + 1) true rest path
  | none => false

end CodeAtlas.Git.Wildcard
