import CodeAtlas.Source.Python

/-!
Trees of Python modules as they are recorded. A record leaves out the names of parameters, so they
are taken from the headers in the text of the file, as they are written there. Only words, single
marks and their nesting matter for this: strings and comments are passed over, and a comma between
the word lambda and its colon separates nothing.
-/

namespace CodeAtlas.PythonTree

def plainTexts (fields : List Json) : List (String × String) :=
  fields.filterMap fun field =>
    match field.item 1 with
    | .text text => some ((field.item 0).asText, text)
    | _ => none

mutual

/-- Reads a tree: an object with kind, lines and a list of fields, each with its name and a text, a
tree or a list of trees. -/
def ofJson : Json → PythonTree
  | .object members =>
    .node ((Json.object members).get "t").asText ((Json.object members).get "l").asInt.toNat
      ((Json.object members).get "e").asInt.toNat
      (plainTexts ((Json.object members).get "f").asItems) (childrenOfMembers members)
  | _ => .node "" 0 0 [] []

def childrenOfMembers : List (String × Json) → List (String × PythonTree)
  | [] => []
  | ("f", .list fields) :: rest => childrenOfFields fields ++ childrenOfMembers rest
  | _ :: rest => childrenOfMembers rest

def childrenOfFields : List Json → List (String × PythonTree)
  | [] => []
  | .list [.text name, .list values] :: rest => childrenNamed name values ++ childrenOfFields rest
  | .list [.text name, .object members] :: rest =>
    (name, ofJson (.object members)) :: childrenOfFields rest
  | _ :: rest => childrenOfFields rest

def childrenNamed (name : String) : List Json → List (String × PythonTree)
  | [] => []
  | value :: rest => (name, ofJson value) :: childrenNamed name rest

end

/-! ## Headers -/

inductive Token where
  | word (letters : String)
  | mark (char : Char)
deriving DecidableEq

inductive Inside where
  | code
  | word (letters : List Char)
  | comment
  | quoted (quote : Char) (long : Bool)
  | escaped (quote : Char) (long : Bool)

def isQuote (char : Char) : Bool := char == '"' || char == '\''

/-- The characters of names. Outside strings and comments of a file that parses, every character
beyond ASCII belongs to a name. -/
def isNameChar (char : Char) : Bool :=
  char.isAlphanum || char == '_' || 128 ≤ char.toNat

def tokens : Inside → List Char → List Token
  | .code, [] => []
  | .word letters, [] => [.word (String.ofList letters.reverse)]
  | .comment, [] => []
  | .quoted _ _, [] => []
  | .escaped _ _, [] => []
  | .comment, char :: rest => tokens (if char == '\n' then .code else .comment) rest
  | .escaped quote long, _ :: rest => tokens (.quoted quote long) rest
  | .quoted quote false, char :: rest =>
    if char == '\\' then tokens (.escaped quote false) rest
    else if char == quote then tokens .code rest
    else tokens (.quoted quote false) rest
  | .quoted quote true, first :: second :: third :: rest =>
    if first == '\\' then tokens (.escaped quote true) (second :: third :: rest)
    else if first == quote && second == quote && third == quote then tokens .code rest
    else tokens (.quoted quote true) (second :: third :: rest)
  | .quoted _ true, _ => []
  | .code, first :: second :: third :: rest =>
    if isQuote first then
      if second == first && third == first then tokens (.quoted first true) rest
      else tokens (.quoted first false) (second :: third :: rest)
    else if first == '#' then tokens .comment (second :: third :: rest)
    else if Text.isBlank first || first == '\\' then tokens .code (second :: third :: rest)
    else if isNameChar first then tokens (.word [first]) (second :: third :: rest)
    else .mark first :: tokens .code (second :: third :: rest)
  | .code, char :: rest =>
    if isQuote char then tokens (.quoted char false) rest
    else if char == '#' then tokens .comment rest
    else if Text.isBlank char || char == '\\' then tokens .code rest
    else if isNameChar char then tokens (.word [char]) rest
    else .mark char :: tokens .code rest
  | .word letters, char :: rest =>
    if isNameChar char then tokens (.word (char :: letters)) rest
    else
      let word := Token.word (String.ofList letters.reverse)
      if isQuote char then
        match rest with
        | second :: third :: rest =>
          if second == char && third == char then word :: tokens (.quoted char true) rest
          else word :: tokens (.quoted char false) (second :: third :: rest)
        | rest => word :: tokens (.quoted char false) rest
      else if char == '#' then word :: tokens .comment rest
      else if Text.isBlank char || char == '\\' then word :: tokens .code rest
      else word :: .mark char :: tokens .code rest
  termination_by _ text => text.length

def opens (char : Char) : Bool := char == '(' || char == '[' || char == '\x7b'

def closes (char : Char) : Bool := char == ')' || char == ']' || char == '\x7d'

/-- How deep a token leaves the reader: the number of open brackets, and the count of lambdas
outside brackets whose colon is still to come. -/
def nesting (depth lambdas : Nat) : Token → Nat × Nat
  | .word letters => (depth, if depth == 0 && letters == "lambda" then lambdas + 1 else lambdas)
  | .mark char =>
    if opens char then (depth + 1, lambdas)
    else if closes char then (depth - 1, lambdas)
    else (depth, if depth == 0 && char == ':' then lambdas - 1 else lambdas)

/-- The parameters up to the closing parenthesis, each as the list of its tokens. -/
def parameterTokens (depth lambdas : Nat) (current : List Token) :
    List Token → List (List Token)
  | [] => [current.reverse]
  | token :: rest =>
    if depth == 0 && token == .mark ')' then [current.reverse]
    else if depth == 0 && lambdas == 0 && token == .mark ',' then
      current.reverse :: parameterTokens depth lambdas [] rest
    else
      let (depth, lambdas) := nesting depth lambdas token
      parameterTokens depth lambdas (token :: current) rest

def startsWithMark (char : Char) : List Token → Bool
  | .mark found :: _ => found == char
  | _ => false

def parameterName? : List Token → Option String
  | .word letters :: _ => some letters
  | _ => none

/-- The parameters that can be given by position or by name: those after a slash, if there is one,
and before the first star. -/
def ordinaryParameters (parameters : List (List Token)) : List String :=
  let beforeStar := parameters.takeWhile fun parameter => !startsWithMark '*' parameter
  let afterSlash := (beforeStar.dropWhile fun parameter => !startsWithMark '/' parameter).drop 1
  let ordinary := if beforeStar.any (startsWithMark '/') then afterSlash else beforeStar
  ordinary.filterMap parameterName?

def headerParameters (text : String) (line : Nat) : List String :=
  let lines := Text.Chars.split ['\n'] (Text.Chars.unifyBreaks text.toList)
  let header := ['\n'].intercalate (lines.drop (line - 1))
  match header.dropWhile (· != '(') with
  | [] => []
  | _ :: rest => ordinaryParameters (parameterTokens 0 0 [] (tokens .code rest))

/-! ## Records -/

def nameParameters : List String → List (String × PythonTree) → List (String × PythonTree)
  | name :: names, ("args", .node kind line stop texts children) :: rest =>
    ("args", .node kind line stop (("arg", name) :: texts) children) :: nameParameters names rest
  | names, other :: rest => other :: nameParameters names rest
  | _, [] => []

mutual

/-- A tree with the names of the parameters of its functions. -/
def named (text : String) : PythonTree → PythonTree
  | .node kind line stop texts children =>
    let isFunction := kind == "FunctionDef" || kind == "AsyncFunctionDef"
    let names := if isFunction then headerParameters text line else []
    .node kind line stop texts (namedChildren text names children)

def namedChildren (text : String) (names : List String) :
    List (String × PythonTree) → List (String × PythonTree)
  | [] => []
  | (field, child) :: rest =>
    let .node kind line stop texts children := named text child
    let children := if field == "args" then nameParameters names children else children
    (field, .node kind line stop texts children) :: namedChildren text names rest

end

def ofRecord (text : String) (record : Json) : PythonTree := (ofJson record).named text

end CodeAtlas.PythonTree
