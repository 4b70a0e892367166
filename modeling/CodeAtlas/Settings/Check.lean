import CodeAtlas.Url.Basic
import CodeAtlas.Workspace.Basic

/-!
Checks of what a user enters: addresses, keys, names of models and folders for output. A check
gives back the accepted value or says what is wrong with it.
-/

namespace CodeAtlas.Settings

def localHosts : List String := ["localhost", "127.0.0.1", "::1"]

def refuse {α : Type} (message : String) : Except Problem α :=
  throw (.reported .configuration message)

/-- An address needs a scheme and a host; where a secure scheme is asked for, local hosts can be
exempt. -/
def checkUrl (address : String) (secure : Bool := false) (allowLocal : Bool := true) :
    Except Problem String :=
  match Url.parse address with
  | .error _ => refuse ("Invalid URL format: " ++ address ++ "\nError: ")
  | .ok url =>
    let isLocal := url.host?.any localHosts.contains
    if url.scheme.isEmpty then refuse ("Invalid URL (missing scheme): " ++ address)
    else if secure && url.scheme ≠ "https" && !(allowLocal && isLocal) then
      refuse ("URL must use HTTPS: " ++ address ++ "\nHTTP is only allowed for localhost")
    else if url.host?.isNone then refuse ("Invalid URL (missing hostname): " ++ address)
    else return address

def checkKey (key : String) (least : Int := 10) : Except Problem String :=
  let key := Text.strip key
  if key.isEmpty then refuse "API key cannot be empty"
  else if key.length < least then
    refuse ("API key too short (minimum " ++ Decimal.intText least ++ " characters)")
  else return key

def checkModelName (name : String) : Except Problem String :=
  let name := Text.strip name
  if name.isEmpty then refuse "Model name cannot be empty" else return name

def topTierParts : List String := ["claude-opus", "claude-sonnet", "gpt-4", "gpt-5", "gemini-2.5"]

def isTopTier (name : String) : Bool := Text.containsAny (Text.lower name) topTierParts

def position (length : Nat) (index : Int) : Nat :=
  if index < 0 then (length + index).toNat else min index.toNat length

/-- A key with only its ends visible; a short one shows two characters at each end. -/
def maskedKey (key : String) (visible : Int := 4) : String :=
  let length := key.length
  let visible := if length ≤ visible * 2 then 2 else visible
  if key.isEmpty then "Not set"
  else Text.take key (position length visible) ++ "..." ++ Text.drop key (position length (-visible))

/-- A value shown as a key. What counts as empty is not set; only a text can be masked. -/
def masked (value : Json) (visible : Int := 4) : Except Fault String :=
  match value with
  | .text key => return maskedKey key visible
  | _ => if value.isTruthy then throw .wrongKind else return maskedKey "" visible

end CodeAtlas.Settings
