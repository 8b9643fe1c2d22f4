import WalletToolbox.Async.Program
import WalletToolbox.Language.Text
import WalletToolbox.Language.Numerals

/-! Names and originators as `WalletPermissionsManager` compares them: what a name may not
start with, and the domain an originator is taken for. -/

namespace WalletToolbox

structure Url where
  hostname : String
  port : String
  protocol : String

abbrev SecurityLevel := Fin 3

structure WalletProtocol where
  level : SecurityLevel
  name : String
deriving DecidableEq, Repr

inductive PermissionsError where
  | error (message : String)
  | invalidParameter (parameter mustBe : String)
deriving DecidableEq, Repr

/-- What the manager has from the language and from the SDK. -/
structure Platform where
  parseUrl : String → Option Url
  toLowerCase : String → String
  toUpperCase : String → String

section
variable (platform : Platform)

def defaultPort (protocol : String) : Option String :=
  if protocol = "http:" then some "80" else if protocol = "https:" then some "443" else none

def isSchemeChar (c : Char) : Bool := c.isAlphanum || c = '+' || c = '-' || c = '.'

/-- The scheme test of `normalizeOriginator`. -/
def hasScheme (text : String) : Bool :=
  match text.toList with
  | [] => false
  | first :: rest => first.isAlpha && "://".toList.isPrefixOf (rest.dropWhile isSchemeChar)

def urlHost (url : Url) : String :=
  let hostname := platform.toLowerCase url.hostname
  let baseHost := if ':' ∈ hostname.toList then "[" ++ hostname ++ "]" else hostname
  if url.port = "" ∨ defaultPort url.protocol = some url.port then baseHost else baseHost ++ ":" ++ url.port

def normalizeOriginator (originator : Option String) : String :=
  let trimmed := Text.trim (originator.getD "")
  if trimmed = "" then ""
  else
    match platform.parseUrl (if hasScheme trimmed then trimmed else "https://" ++ trimmed) with
    | none => platform.toLowerCase trimmed
    | some url => if url.hostname = "" then platform.toLowerCase trimmed else urlHost platform url

structure PreparedOriginator where
  normalized : String
  lookupValues : List String
deriving DecidableEq, Repr

def orElseText (first second : String) : String := if first = "" then second else first

def prepareOriginator (originator : Option String) : Except PermissionsError PreparedOriginator :=
  let trimmed := Text.trim (originator.getD "")
  if trimmed = "" then .error (.error "Originator is required for permission checks.")
  else
    let normalized := orElseText (normalizeOriginator platform (some trimmed)) (platform.toLowerCase trimmed)
    .ok ⟨normalized, ([trimmed, normalized].eraseDups).filter (· ≠ "")⟩

end

def isAdminProtocol (proto : WalletProtocol) : Bool := Text.startsWith proto.name "admin"

def isAdminLabel (label : String) : Bool := Text.startsWith label "admin" || Text.startsWith label "p "

def isAdminBasket (basket : String) : Bool := basket = "default" || Text.startsWith basket "admin"

end WalletToolbox
