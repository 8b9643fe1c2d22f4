import WalletToolbox.Permissions.PermissionFlows

/-! What the manager keeps of the decisions, and how it looks for a token. A token is an
output of an admin basket, under tags that are made from the request it was created for;
a search reads the first page of outputs of each query. -/

namespace WalletToolbox
open Async

structure CachedPermission where
  expiry : Nat
  cachedAt : Nat
deriving DecidableEq, Repr

structure PermissionCaches where
  permissionCache : String → Option CachedPermission := fun _ => none
  recentGrants : String → Option Nat := fun _ => none

def cacheTtlMs : Nat := 5 * 60 * 1000

def recentGrantCoverMs : Nat := 15 * 1000

def isTokenExpired (now expiry : Nat) : Bool := 0 < expiry && expiry < now / 1000

namespace PermissionCaches
variable (caches : PermissionCaches) (now : Nat)

def isPermissionCached (key : String) : Bool × PermissionCaches :=
  match caches.permissionCache key with
  | none => (false, caches)
  | some entry =>
    if cacheTtlMs < now - entry.cachedAt || isTokenExpired now entry.expiry then
      (false, { caches with permissionCache := Function.update caches.permissionCache key none })
    else (true, caches)

def cachePermission (key : String) (expiry : Nat) : PermissionCaches :=
  { caches with permissionCache := Function.update caches.permissionCache key (some ⟨expiry, now⟩) }

def markRecentGrant (key : String) : PermissionCaches :=
  { caches with recentGrants := Function.update caches.recentGrants key (some (now + recentGrantCoverMs)) }

def isRecentlyGranted (key : String) : Bool × PermissionCaches :=
  match caches.recentGrants key with
  | none => (false, caches)
  | some expiry =>
    if expiry = 0 then (false, caches)
    else if expiry < now then (false, { caches with recentGrants := Function.update caches.recentGrants key none })
    else (true, caches)

end PermissionCaches

/-- An unspent output of an admin basket, by the request whose fields and tags it carries. -/
structure HeldToken where
  txid : String
  outputIndex : Nat
  originator : String
  permission : Permission
  expiry : Nat
deriving DecidableEq, Repr

def basketOf : Permission → String
  | .protocol _ _ _ => "admin protocol-permission"
  | .basket _ => "admin basket-access"
  | .certificate _ _ _ _ => "admin certificate-access"
  | .spending _ _ => "admin spending-authorization"

def buildTagsForRequest (originator : String) (permission : Permission) : List String :=
  ("originator " ++ originator) :: match permission with
    | .protocol privileged protocolID counterparty =>
      ["privileged " ++ toString privileged, "protocolName " ++ protocolID.name, "protocolSecurityLevel " ++ toString protocolID.level.val] ++
        if protocolID.level = 2 then ["counterparty " ++ counterparty] else []
    | .basket basket => ["basket " ++ basket]
    | .certificate privileged verifier certType _ =>
      ["privileged " ++ toString privileged, "type " ++ certType, "verifier " ++ verifier]
    | .spending _ _ => []

def pageLimit : Nat := 10

def listOutputs (held : List HeldToken) (basket : String) (tags : List String) : List HeldToken :=
  (held.filter fun token => basketOf token.permission = basket ∧ ∀ tag ∈ tags, tag ∈ buildTagsForRequest token.originator token.permission).take pageLimit

section
variable (platform : Platform) (held : List HeldToken)

/-- The fields of a token, as they are read from its script, against those of a request. -/
def grants : Permission → Permission → Bool
  | .protocol held heldID heldPeer, .protocol privileged protocolID counterparty =>
    held = privileged ∧ heldID.level = protocolID.level ∧ heldID.name = protocolID.name ∧ (heldID.level = 2 → heldPeer = counterparty)
  | .basket held, .basket basket => held = basket
  | .certificate held heldVerifier heldType allFields, .certificate privileged verifier certType fields =>
    held = privileged ∧ heldType = certType ∧ heldVerifier = verifier ∧ ∀ field ∈ fields, field ∈ allFields
  | _, _ => false

def tokenMatches (originator : String) (permission : Permission) (token : HeldToken) : Bool :=
  normalizeOriginator platform (some token.originator) = originator && grants token.permission permission

def tokenPages (originator : String) (permission : Permission) (lookupValues : List String) : List HeldToken :=
  (if lookupValues = [] then [originator] else lookupValues).flatMap fun originTag =>
    listOutputs held (basketOf permission) (buildTagsForRequest originTag permission)

def foundToken (originator : String) (token : HeldToken) : PermissionToken :=
  let found : PermissionToken :=
    { txid := token.txid, outputIndex := token.outputIndex, originator, rawOriginator := some token.originator, expiry := token.expiry
      privileged := false, protocol := none, securityLevel := none, counterparty := none, basketName := none, verifier := none
      certType := none, certFields := [], authorizedAmount := none }
  match token.permission with
  | .protocol privileged protocolID counterparty =>
    { found with privileged, protocol := some protocolID.name, securityLevel := some protocolID.level, counterparty := some (if protocolID.level = 2 then counterparty else "") }
  | .basket basket => { found with basketName := some basket }
  | .certificate privileged verifier certType fields =>
    { found with privileged, verifier := some verifier, certType := some certType, certFields := fields }
  | .spending _ _ => found

def findToken (originator : String) (permission : Permission) (lookupValues : List String) : Option PermissionToken :=
  ((tokenPages held originator permission lookupValues).find? (tokenMatches platform originator permission)).map (foundToken originator)

/-- The checks while these tokens are held and the clock reads this time. What is not a lookup of
a cache or of a token for a protocol, a basket or a certificate is left open. -/
def tokenWorld (now : Nat) (others : Machine permissionsManager PermissionCaches) : Machine permissionsManager PermissionCaches
  | .isPermissionCached key, caches => caches.isPermissionCached now key
  | .isRecentlyGranted key, caches => caches.isRecentlyGranted now key
  | .isTokenExpired expiry, caches => (isTokenExpired now expiry, caches)
  | .cachePermission key expiry, caches => ((), caches.cachePermission now key expiry)
  | .findToken originator permission lookupValues, caches =>
    match permission with
    | .spending _ _ => others (.findToken originator permission lookupValues) caches
    | _ => (.ok (findToken platform held originator permission lookupValues), caches)
  | op, caches => others op caches

end
end WalletToolbox
