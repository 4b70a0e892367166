import CodeAtlas.Text.CaseTable

/-!
Lowercase, uppercase and titlecase of texts in all scripts. One letter is mapped with a look at
its neighbours: a capital sigma that ends a word becomes the final small sigma.
-/

namespace CodeAtlas.Text

def mapCase (runs : List CaseRun) (expansions : List (Nat × List Nat)) (char : Char) : List Char :=
  match expansions.lookup char.toNat with
  | some image => image.map Char.ofNat
  | none =>
    match runs.find? (·.covers char.toNat) with
    | some run => [Char.ofNat (char.toNat + run.distance).toNat]
    | none => [char]

def lowerChar (char : Char) : List Char :=
  if char.toNat < 128 then [char.toLower] else mapCase lowerRuns lowerExpansions char

def upperChar (char : Char) : List Char :=
  if char.toNat < 128 then [char.toUpper] else mapCase upperRuns upperExpansions char

def titleChar (char : Char) : List Char :=
  if char.toNat < 128 then [char.toUpper] else mapCase titleRuns titleExpansions char

def isCased (char : Char) : Bool :=
  casedRanges.contains char.toNat

def isCaseIgnorable (char : Char) : Bool :=
  caseIgnorableRanges.contains char.toNat

def nextIsCased (neighbours : List Char) : Bool :=
  match neighbours.find? fun char => !isCaseIgnorable char with
  | some char => isCased char
  | none => false

def lowerBetween (before : List Char) (char : Char) (after : List Char) : List Char :=
  if char.toNat == 931 then
    if nextIsCased before && !nextIsCased after then [Char.ofNat 962] else [Char.ofNat 963]
  else lowerChar char

def lowerFrom (before : List Char) : List Char → List Char
  | [] => []
  | char :: rest => lowerBetween before char rest ++ lowerFrom (char :: before) rest

def lower (text : String) : String :=
  String.ofList (lowerFrom [] text.toList)

def upper (text : String) : String :=
  String.ofList (text.toList.flatMap upperChar)

/-- A letter after a character with a case is lowered, any other letter gets its titlecase. -/
def titleFrom (before : List Char) : List Char → List Char
  | [] => []
  | char :: rest =>
    let image :=
      match before with
      | previous :: _ => if isCased previous then lowerBetween before char rest else titleChar char
      | [] => titleChar char
    image ++ titleFrom (char :: before) rest

def title (text : String) : String :=
  String.ofList (titleFrom [] text.toList)

end CodeAtlas.Text
