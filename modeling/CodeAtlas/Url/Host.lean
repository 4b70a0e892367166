import CodeAtlas.Text.Basic

/-!
Which texts may stand between brackets as the host of an address: a numeric address of eight
groups, in which one run of zero groups may be left out, or an address of a later version, which
says so by a leading `v`.
-/

namespace CodeAtlas.Url

def isHexDigit (char : Char) : Bool :=
  char.isDigit || ('a' ≤ char && char ≤ 'f') || ('A' ≤ char && char ≤ 'F')

def isOctet (text : String) : Bool :=
  let chars := text.toList
  !chars.isEmpty && chars.all Char.isDigit && chars.length ≤ 3
    && (text == "0" || chars.head? ≠ some '0') && text.toNat?.any (· ≤ 255)

def isDottedAddress (text : String) : Bool :=
  let octets := Text.split text "."
  octets.length == 4 && octets.all isOctet

def isGroup (text : String) : Bool :=
  !text.isEmpty && text.length ≤ 4 && text.toList.all isHexDigit

/-- The groups of an address; dotted numbers at the end stand for two groups. -/
def addressGroups? (text : String) : Option (List String) :=
  let groups := Text.split text ":"
  let last := groups.getLastD ""
  if groups.length < 3 then none
  else if Text.contains last "." then
    if isDottedAddress last then some (groups.dropLast ++ ["0", "0"]) else none
  else some groups

/-- Whether groups form an address. An empty group inside stands for the run left out; it may be
the only one and reaches an end of the address only where that end is empty too. -/
def areAddressGroups (groups : List String) : Bool :=
  let inner := (groups.drop 1).dropLast
  let first := groups.headD ""
  let last := groups.getLastD ""
  match inner.idxOf? "" with
  | none => groups.length == 8 && groups.all isGroup
  | some index =>
    let before := groups.take (index + 1)
    let after := groups.drop (index + 2)
    let before := if first.isEmpty then before.drop 1 else before
    let after := if last.isEmpty then after.dropLast else after
    groups.length ≤ 9 && inner.count "" == 1
      && (!first.isEmpty || before.isEmpty) && (!last.isEmpty || after.isEmpty)
      && before.length + after.length < 8 && before.all isGroup && after.all isGroup

/-- Whether a text is a numeric address of eight groups, with or without a named zone. -/
def isGroupedAddress (text : String) : Bool :=
  let (address, zone) := match Text.cut? text "%" with
    | some (address, zone) => (address, some zone)
    | none => (text, none)
  zone.all (fun zone => !zone.isEmpty && !Text.contains zone "%")
    && (addressGroups? address).any areAddressGroups

/-- An address of a later version: its number, a point and some text. -/
def isLaterAddress (text : String) : Bool :=
  match Text.cut? (Text.drop text 1) "." with
  | some (version, rest) =>
    Text.startsWith text "v" && !version.isEmpty && version.toList.all isHexDigit && !rest.isEmpty
  | none => false

def isBracketedHost (text : String) : Bool :=
  if Text.startsWith text "v" then isLaterAddress text else isGroupedAddress text

end CodeAtlas.Url
