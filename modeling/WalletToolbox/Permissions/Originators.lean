import WalletToolbox.Permissions.TokenBatches

/-! The forms an originator takes: the text it is normalized to, the domain and the tag of
the tokens made for it, and the label of what it spends. How texts are read as URLs is
assumed to follow the URL standard. -/

namespace WalletToolbox

section
variable (platform : Platform)

def originatorUrl (trimmed : String) : Option Url :=
  platform.parseUrl (if hasScheme trimmed then trimmed else "https://" ++ trimmed)

def hostForm (trimmed : String) : String :=
  match originatorUrl platform trimmed with
  | none => platform.toLowerCase trimmed
  | some url => if url.hostname = "" then platform.toLowerCase trimmed else urlHost platform url

end

def isHostChar (c : Char) : Bool :=
  0x20 < c.toNat && c.toNat < 0x7F && !(['/', ':', '?', '#', '@', '\\', '[', ']'].contains c)

def PlainHost (host : String) : Prop := host ≠ "" ∧ ∀ c ∈ host.toList, isHostChar c = true

def BracketedHost (host : String) : Prop :=
  ∃ address, host = "[" ++ address ++ "]" ∧ ':' ∈ address.toList ∧ ∀ c ∈ address.toList, isHostChar c = true ∨ c = ':'

def SerializedPort (port : String) : Prop := port = "" ∨ ∃ number < 65536, port = Nat.repr number

def withPort (host port : String) : String := if port = "" then host else host ++ ":" ++ port

structure Platform.FollowsStandards (platform : Platform) (hostParser : String → Option String) : Prop where
  hostname : ∀ text url, platform.parseUrl text = some url → url.hostname = "" ∨ PlainHost url.hostname ∨ BracketedHost url.hostname
  port : ∀ text url, platform.parseUrl text = some url → SerializedPort url.port
  host : ∀ text host, PlainHost text → hostParser text = some host → PlainHost host
  /-- A host and a port after `https://`. The default port is no port. -/
  authority : ∀ host port, PlainHost host → SerializedPort port →
    platform.parseUrl ("https://" ++ withPort host port) =
      (hostParser host).map fun hostname => ⟨hostname, if port = "443" then "" else port, "https:"⟩
  brackets : ∀ host port, BracketedHost host → SerializedPort port →
    platform.parseUrl ("https://" ++ withPort ("[" ++ host ++ "]") port) = none
  lower_ascii : ∀ text : String, (∀ c ∈ text.toList, c.toNat < 0x80) → platform.toLowerCase text = text.map Char.toLower
  lower_lower : ∀ text, platform.toLowerCase (platform.toLowerCase text) = platform.toLowerCase text
  lower_trim : ∀ text, Text.trim text = text → Text.trim (platform.toLowerCase text) = platform.toLowerCase text
  lower_empty : ∀ text, platform.toLowerCase text = "" → text = ""

def spendingLabel (originator : String) : String := "admin originator " ++ originator

/-- The domain of the token is checked, and what it authorizes is read from it. -/
def findSpendingToken (platform : Platform) (held : List HeldToken) (originator : String) (lookupValues : List String) : Option PermissionToken :=
  ((tokenPages held originator (.spending 0 []) lookupValues).find? fun token =>
      normalizeOriginator platform (some token.originator) = originator).map fun token =>
    { foundToken originator token with
      authorizedAmount := match token.permission with
        | .spending satoshis _ => some satoshis.toNat
        | _ => none }

namespace PermissionsManager
variable (manager : PermissionsManager)

def createdToken (request : PermissionRequest) (expiry : Nat) (txid : String) (outputIndex : Nat) : HeldToken :=
  let prepared := manager.prepareRequest request
  ⟨txid, outputIndex, tokenOriginator manager.platform prepared.originator, prepared.permission, expiry⟩

end PermissionsManager

def labelOrigins (token : PermissionToken) : List String :=
  PermissionsManager.buildOriginatorLookupValues [token.rawOriginator, some token.originator]

end WalletToolbox
