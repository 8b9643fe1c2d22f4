import WalletToolbox.Permissions.ActiveRequests
import WalletToolbox.Permissions.WalletMethods

/-! How `WalletPermissionsManager` asks the user and takes the answers: the flow from a
permission check to a prompt, single, grouped or for a counterparty, and the methods that
grant, deny or dismiss a request. -/

namespace WalletToolbox
open Async

abbrev FlowM := Program permissionRequests PermissionsError

abbrev RequestsOp.await (op : RequestsOp) : FlowM op.Reply := .await op .done

abbrev FlowOp.await (op : FlowOp) : FlowM op.Reply := (RequestsOp.outside op).await

/-- The reply of an operation that cannot be rejected. -/
def answered {α : Type} : Except Empty α → α
  | .ok value => value
  | .error error => nomatch error

def awaitAnswer (waiter : Nat) : FlowM Bool := do .ofExcept (← (RequestsOp.answer waiter).await)

def isPubKeyHex (text : String) : Bool :=
  text.toList.length = 66 && text.toList.all fun c => c.isDigit || ('a' ≤ c && c ≤ 'f') || ('A' ≤ c && c ≤ 'F')

namespace GroupedPermissions

def hasAnyPermissionsToRequest (permissions : GroupedPermissions) : Bool :=
  permissions.spendingAuthorization.isSome || permissions.protocolPermissions ≠ [] || permissions.basketAccess ≠ [] ||
    permissions.certificateAccess ≠ []

def leftToPeers (grant : ProtocolGrant) : Bool :=
  grant.counterparty = some "" || (grant.protocolID.level = 2 && grant.counterparty = none)

def isRequestIncluded (permissions : GroupedPermissions) : Permission → Bool
  | .protocol privileged protocolID counterparty =>
    !privileged && permissions.protocolPermissions.any fun grant =>
      !leftToPeers grant && grant.protocolID = protocolID &&
        (if grant.protocolID.level = 1 then "" else grant.counterparty.getD "self") = counterparty
  | .basket basket => basket ≠ "" && permissions.basketAccess.any (·.basket = basket)
  | .certificate privileged verifier certType fields =>
    !privileged && permissions.certificateAccess.any fun grant =>
      grant.fields.eraseDups.length = fields.eraseDups.length && grant.fields.all (· ∈ fields) &&
        grant.type = certType && grant.verifierPublicKey = verifier
  | .spending _ _ => permissions.spendingAuthorization.isSome

def validateSubset (granted requested : GroupedPermissions) : Except PermissionsError Unit :=
  if granted.spendingAuthorization.isSome && requested.spendingAuthorization = none then
    .error (.error "Granted spending authorization was not part of the original request.")
  else if granted.protocolPermissions.any (· ∉ requested.protocolPermissions) then
    .error (.error "Granted protocol permissions are not a subset of the original request.")
  else if granted.basketAccess.any (· ∉ requested.basketAccess) then
    .error (.error "Granted basket access permissions are not a subset of the original request.")
  else if granted.certificateAccess.any (· ∉ requested.certificateAccess) then
    .error (.error "Granted certificate access permissions are not a subset of the original request.")
  else .ok ()

end GroupedPermissions

def CounterpartyPermissions.includes (requested granted : List CounterpartyProtocol) : Bool :=
  granted.all fun grant => grant.protocolName ≠ "" && requested.any (·.protocolName = grant.protocolName)

namespace RequestData

def originator : RequestData → String
  | .single request => request.originator
  | .grouped originator _ _ | .counterparty originator _ _ _ => originator

def displayOriginator : RequestData → Option String
  | .single request => request.displayOriginator
  | .grouped _ _ display | .counterparty _ _ _ display => display

/-- A request of another kind has none of the permissions a grouped grant may name. -/
def groupedPermissions : RequestData → GroupedPermissions
  | .grouped _ permissions _ => permissions
  | .single _ | .counterparty _ _ _ _ => {}

/-- Nor the protocols a counterparty grant may name. -/
def counterpartyProtocols : RequestData → List CounterpartyProtocol
  | .counterparty _ _ permissions _ => permissions.protocols
  | .single _ | .grouped _ _ _ => []

def counterpartyName : RequestData → String
  | .counterparty _ peer _ _ => peer
  | .single _ | .grouped _ _ _ => ""

end RequestData

structure GrantParams where
  requestID : String
  expiry : Option Nat := none
  ephemeral : Bool := false
  amount : Option Nat := none
deriving DecidableEq, Repr

structure GroupedGrantParams where
  requestID : String
  granted : GroupedPermissions
  expiry : Option Nat := none
deriving DecidableEq, Repr

structure CounterpartyGrantParams where
  requestID : String
  granted : List CounterpartyProtocol
  expiry : Option Nat := none
deriving DecidableEq, Repr

namespace PermissionsManager
variable (manager : PermissionsManager)

def buildOriginatorLookupValues (origins : List (Option String)) : List String :=
  ((origins.map fun origin => Text.trim (origin.getD "")).filter (· ≠ "")).eraseDups

def buildActiveRequestKey (request : PermissionRequest) : String :=
  match request.permission with
  | .spending _ _ => manager.buildRequestKey request
  | .protocol _ _ _ | .basket _ | .certificate _ _ _ _ => manager.buildRequestKey request ++ ":" ++ request.usageType

def implementLookup : (op : PermissionsOp) → Program permissionRequests Empty op.Reply
  | .requestPermissionFlow _ => .done (.error (.error "seekPermission=false"))
  | op => .await (.outside (.lookup op)) .done

/-- Whether a check without the user lets the originator through. -/
def has (check : PermissionsM Bool) : FlowM Bool :=
  Program.handle
    (do
      let _ ← check.translate implementLookup fun _ => answered
      return true)
    fun _ => .done false

def hasProtocolPermission (originator : String) (privileged : Bool) (protocolID : WalletProtocol) (counterparty : String) : FlowM Bool :=
  has (manager.ensureProtocolPermission
    { originator := some originator, privileged, protocolID, counterparty, reason := some "hasProtocolPermission"
      seekPermission := false, usageType := .generic })

def hasBasketAccess (originator basket : String) : FlowM Bool :=
  has (manager.ensureBasketAccess
    { originator := some originator, basket, reason := none, seekPermission := false, usageType := .insertion })

def hasCertificateAccess (originator : String) (privileged : Bool) (verifier certType : String) (fields : List String) : FlowM Bool :=
  has (manager.ensureCertificateAccess
    { originator := some originator, privileged, verifier, certType, fields, reason := none, seekPermission := false })

def hasSpendingAuthorization (originator : String) (satoshis : Int) : FlowM Bool :=
  has (manager.ensureSpendingAuthorization
    { originator := some originator, satoshis, lineItems := [], reason := none, seekPermission := false })

/-- `checkSpecificPermissionAfterGroupFlow` -/
def hasRequested (request : PermissionRequest) : FlowM Bool :=
  match request.permission with
  | .protocol privileged protocolID counterparty => manager.hasProtocolPermission request.originator privileged protocolID counterparty
  | .basket basket => manager.hasBasketAccess request.originator basket
  | .certificate privileged verifier certType fields =>
    manager.hasCertificateAccess request.originator privileged verifier certType fields
  | .spending satoshis _ => manager.hasSpendingAuthorization request.originator satoshis

def satisfied (request : PermissionRequest) : FlowM (Option Bool) := do
  if ← manager.hasRequested request then return some true else return none

/-- The items whose permission is missing. The lookups run side by side. -/
def missing {α : Type} (items : List α) (has : α → FlowM Bool) : FlowM (List α) := do
  let checks ← items.mapM fun item => do
    let granted ← has item
    return (item, granted)
  return (checks.filter fun check => !check.2).map Prod.fst

def filterAlreadyGrantedPermissions (originator : String) (permissions : GroupedPermissions) : FlowM GroupedPermissions := do
  let spending ← missing permissions.spendingAuthorization.toList fun grant => manager.hasSpendingAuthorization originator grant.amount
  let protocols ← missing (permissions.protocolPermissions.filter fun grant => !GroupedPermissions.leftToPeers grant) fun grant =>
    manager.hasProtocolPermission originator false grant.protocolID (grant.counterparty.getD "self")
  let baskets ← missing permissions.basketAccess fun grant => manager.hasBasketAccess originator grant.basket
  let certificates ← missing permissions.certificateAccess fun grant =>
    manager.hasCertificateAccess originator false grant.verifierPublicKey grant.type grant.fields
  return {
    description := permissions.description
    spendingAuthorization := spending.head?
    protocolPermissions := protocols
    basketAccess := baskets
    certificateAccess := certificates }

def joinAndWait (event : RequestEvent) (key : String) (request : RequestData) (merges : Bool) : FlowM Bool := do
  let joined ← (RequestsOp.joinOrCreate key request merges).await
  if joined.created then
    (FlowOp.callEvent event key).await
    awaitAnswer joined.waiter
  else awaitAnswer joined.waiter

def hasPactEstablished (originator counterparty : String) : FlowM Bool := do
  if counterparty ∈ ["self", "anyone"] then return true
  else if ← (FlowOp.isPactEstablished (originator ++ ":" ++ counterparty)).await then return true
  else
    let manifest ← (FlowOp.fetchManifestPermissions originator).await
    match manifest.counterpartyPermissions.bind (·.protocols.head?) with
    | none => return true
    | some firstProtocol =>
      if ← manager.hasProtocolPermission originator false ⟨2, firstProtocol.protocolName⟩ counterparty then
        (FlowOp.markPactEstablished (originator ++ ":" ++ counterparty)).await
        return true
      else return false

/-- Ask for what the manifest wants of the counterparty, unless it is there. -/
def requestPact (request : PermissionRequest) (protocolID : WalletProtocol) (counterparty : String)
    (permissions : CounterpartyPermissions) : FlowM (Option Bool) := do
  let originator := request.originator
  let protocols ← missing permissions.protocols fun grant =>
    manager.hasProtocolPermission originator false ⟨2, grant.protocolName⟩ counterparty
  if protocols = [] then
    (FlowOp.markPactEstablished (originator ++ ":" ++ counterparty)).await
    return none
  else
    let _ ← joinAndWait .counterparty ("pact:" ++ originator ++ ":" ++ counterparty)
      (.counterparty originator counterparty { permissions with protocols } request.displayOriginator) true
    (FlowOp.markPactEstablished (originator ++ ":" ++ counterparty)).await
    if ← manager.hasProtocolPermission originator false protocolID counterparty then return some true else return none

def maybeRequestPact (request : PermissionRequest) : FlowM (Option Bool) := do
  if !manager.config.seekGroupedPermission then return none
  else if !(← (FlowOp.hasRequestedHandlers .counterparty).await) then return none
  else
    match request.permission with
    | .protocol false protocolID counterparty =>
      if protocolID.level ≠ 2 || counterparty ∈ ["", "self", "anyone"] || !isPubKeyHex counterparty then return none
      else
        let manifest ← (FlowOp.fetchManifestPermissions request.originator).await
        match manifest.counterpartyPermissions with
        | none => return none
        | some permissions =>
          if permissions.protocols.all (·.protocolName ≠ protocolID.name) then return none
          else if ← manager.hasPactEstablished request.originator counterparty then return none
          else manager.requestPact request protocolID counterparty permissions
    | _ => return none

def maybeRequestPeerGroupedLevel2ProtocolPermissions (request : PermissionRequest) : FlowM (Option Bool) := do
  if !manager.config.seekGroupedPermission then return none
  else if !(← (FlowOp.hasRequestedHandlers .grouped).await) then return none
  else
    match request.permission with
    | .protocol privileged protocolID counterparty =>
      if protocolID.level ≠ 2 then return none
      else
        let manifest ← (FlowOp.fetchManifestPermissions request.originator).await
        match manifest.groupPermissions with
        | none => return none
        | some permissions =>
          let forThisPeer := (permissions.protocolPermissions.filter fun grant =>
            grant.protocolID.level = 2 && grant.counterparty.getD counterparty ≠ "" &&
              grant.counterparty.getD counterparty = counterparty).map fun grant =>
            { grant with counterparty := some counterparty }
          if forThisPeer.all (·.protocolID ≠ protocolID) then return none
          else
            let protocols ← missing forThisPeer fun grant =>
              manager.hasProtocolPermission request.originator privileged grant.protocolID counterparty
            if protocols = [] then return none
            else
              let _ ← joinAndWait .grouped
                ("group-peer:" ++ request.originator ++ ":" ++ toString privileged ++ ":" ++ counterparty)
                (.grouped request.originator { protocolPermissions := protocols } request.displayOriginator) true
              manager.satisfied request
    | _ => return none

def maybeRequestGroupedPermissions (request : PermissionRequest) : FlowM (Option Bool) := do
  if !manager.config.seekGroupedPermission then return none
  else
    let manifest ← (FlowOp.fetchManifestPermissions request.originator).await
    match manifest.groupPermissions with
    | none => return none
    | some permissions =>
      if !permissions.isRequestIncluded request.permission then return none
      else
        let permissionsToRequest ← manager.filterAlreadyGrantedPermissions request.originator permissions
        if !permissionsToRequest.hasAnyPermissionsToRequest then return none
        else
          let _ ← joinAndWait .grouped ("group:" ++ request.originator)
            (.grouped request.originator permissionsToRequest request.displayOriginator) true
          manager.satisfied request

def withGroupedPermissionFlowLock {α : Type} (originator : String) (flow : FlowM α) : FlowM (Bool × α) := do
  let turn ← (RequestsOp.enterFlow originator).await
  (RequestsOp.flowTurn originator turn.ticket).await
  let result ← Program.ensuring flow (RequestsOp.leaveFlow originator turn.ticket).await
  return (turn.hadPending, result)

def resolveGroupedFlow (request : PermissionRequest) : FlowM (Option Bool) := do
  if !manager.config.seekGroupedPermission then manager.maybeRequestGroupedPermissions request
  else
    match ← withGroupedPermissionFlowLock request.originator (manager.maybeRequestGroupedPermissions request) with
    | (_, some result) => return some result
    | (hadPending, none) => if hadPending then manager.satisfied request else return none

def requestedEvent : Permission → RequestEvent
  | .protocol _ _ _ => .protocol
  | .basket _ => .basket
  | .certificate _ _ _ _ => .certificate
  | .spending _ _ => .spending

def enqueueAndFireEvent (request : PermissionRequest) (key : String) : FlowM Bool := do
  let joined ← (RequestsOp.enqueue key (.single request)).await
  if joined.created then
    (FlowOp.callEvent (requestedEvent request.permission) key).await
    awaitAnswer joined.waiter
  else awaitAnswer joined.waiter

def prepareRequest (request : PermissionRequest) : PermissionRequest :=
  { request with
    originator := orElseText (normalizeOriginator manager.platform (some request.originator)) request.originator
    displayOriginator := (request.displayOriginator.or (request.previousToken.bind (·.rawOriginator))).or (some request.originator)
    permission := match request.permission with
      | .protocol privileged protocolID counterparty =>
        .protocol privileged protocolID (if protocolID.level = 1 then "" else counterparty)
      | permission => permission }

def requestPermissionFlow (request : PermissionRequest) : FlowM Bool := do
  let request := manager.prepareRequest request
  let key := manager.buildActiveRequestKey request
  match ← (RequestsOp.piggyback key).await with
  | some waiter => awaitAnswer waiter
  | none =>
    match ← manager.maybeRequestPact request with
    | some result => return result
    | none =>
      match ← manager.maybeRequestPeerGroupedLevel2ProtocolPermissions request with
      | some result => return result
      | none =>
        match ← manager.resolveGroupedFlow request with
        | some result => return result
        | none => enqueueAndFireEvent request key

def implementCheck : (op : PermissionsOp) → Program permissionRequests Empty op.Reply
  | .requestPermissionFlow request => (manager.requestPermissionFlow request).settle
  | op => .await (.outside (.lookup op)) .done

def check {α : Type} (program : PermissionsM α) : FlowM α := program.translate manager.implementCheck fun _ => answered

def waitForAuthentication (originator : String) : FlowM Unit := do
  if manager.config.seekGroupedPermission && originator ≠ "" then
    let prepared ← .ofExcept (prepareOriginator manager.platform (some originator))
    let normalized := prepared.normalized
    let _ ← withGroupedPermissionFlowLock normalized do
      let manifest ← (FlowOp.fetchManifestPermissions normalized).await
      match manifest.groupPermissions with
      | none => return
      | some permissions =>
        let permissionsToRequest ← manager.filterAlreadyGrantedPermissions normalized permissions
        if !permissionsToRequest.hasAnyPermissionsToRequest then return
        else
          let _ ← joinAndWait .grouped ("group:" ++ normalized) (.grouped normalized permissionsToRequest none) false
          return
    .ofExcept (← FlowOp.waitForAuthentication.await)
  else .ofExcept (← FlowOp.waitForAuthentication.await)

def requestNotFound : PermissionsError := .error "Request ID not found."

def markRecentGrant (request : PermissionRequest) : FlowM Unit :=
  match request.permission with
  | .spending _ _ => return
  | .protocol _ _ _ | .basket _ | .certificate _ _ _ _ => (FlowOp.markRecentGrant (manager.buildRequestKey request)).await

/-- Settle a request and delete it. -/
def settleRequest (requestID : String) (outcome : Except PermissionsError Bool) : FlowM RequestData := do
  match ← (RequestsOp.decide requestID outcome).await with
  | none => throw requestNotFound
  | some found => return found.request

/-- A request that is not for a single permission has no type, and gets no token. -/
def grantPermission (params : GrantParams) : FlowM Unit := do
  let data ← settleRequest params.requestID (.ok true)
  match data with
  | .grouped _ _ _ | .counterparty _ _ _ _ => return
  | .single request =>
    if params.ephemeral then return
    else
      let expiry := params.expiry.getD 0
      let item : TokenItem := ⟨request, expiry, params.amount⟩
      if request.renewal then .ofExcept (← (FlowOp.renewPermissionOnChain request.previousToken item).await)
      else .ofExcept (← (FlowOp.createPermissionOnChain item).await)
      (FlowOp.lookup (.cachePermission (manager.buildRequestKey request) expiry)).await
      manager.markRecentGrant request

def denyPermission (requestID : String) : FlowM Unit := do
  let _ ← settleRequest requestID (.error (.error "Permission denied."))

def denyActiveRequest (requestID : String) : FlowM Unit := do
  let _ ← settleRequest requestID (.error (.error "The user has denied the request for permission."))

def dismissGroupedPermission (requestID : String) : FlowM Unit := do
  let _ ← settleRequest requestID (.ok true)

structure GrantItems where
  toCreate : List TokenItem
  toRenew : List RenewalItem

def findGrantItems (lookupValues : List String) (expiry : Nat) (requests : List PermissionRequest) : FlowM GrantItems := do
  let tokens ← requests.mapM fun request => do
    let token ← .ofExcept (← (FlowOp.lookup (.findToken request.originator request.permission lookupValues)).await)
    return (request, token)
  return {
    toCreate := tokens.filterMap fun (request, token) => if token = none then some ⟨request, expiry, none⟩ else none
    toRenew := tokens.filterMap fun (request, token) => token.map fun token => ⟨token, ⟨request, expiry, none⟩⟩ }

/-- Make the tokens as far as that works, and mark those that were made. -/
def makeTokens (items : GrantItems) : FlowM Unit := do
  let created ← (FlowOp.createPermissionTokensBestEffort items.toCreate).await
  let renewed ← (FlowOp.renewPermissionTokensBestEffort items.toRenew).await
  (created ++ renewed).forM manager.markRecentGrant

def grantGrouped (params : GroupedGrantParams) (request : RequestData) : FlowM Unit := do
  let originator := request.originator
  let lookupValues := buildOriginatorLookupValues [request.displayOriginator, some originator]
  .ofExcept (params.granted.validateSubset request.groupedPermissions)
  let expiry := params.expiry.getD 0
  let ask (permission : Permission) (reason : String) : PermissionRequest :=
    { originator, usageType := "", permission, reason := some reason }
  let spending := params.granted.spendingAuthorization.toList.map fun grant =>
    (⟨ask (.spending grant.amount []) grant.description, 0, some grant.amount⟩ : TokenItem)
  let protocols ← findGrantItems lookupValues expiry (params.granted.protocolPermissions.map fun grant =>
    ask (.protocol false grant.protocolID (if grant.protocolID.level = 1 then "" else orElseText (grant.counterparty.getD "") "self"))
      grant.description)
  let baskets := params.granted.basketAccess.map fun grant => (⟨ask (.basket grant.basket) grant.description, expiry, none⟩ : TokenItem)
  let certificates := params.granted.certificateAccess.map fun grant =>
    (⟨ask (.certificate false grant.verifierPublicKey grant.type grant.fields) grant.description, expiry, none⟩ : TokenItem)
  manager.makeTokens { protocols with toCreate := spending ++ protocols.toCreate ++ baskets ++ certificates }

/-- Its waiters are settled with the outcome, and whatever is under the ID is deleted. -/
def grantGroupedPermission (params : GroupedGrantParams) : FlowM Unit := do
  match ← (RequestsOp.find params.requestID).await with
  | none => throw requestNotFound
  | some found =>
    let outcome ← (manager.grantGrouped params found.request).settle
    (RequestsOp.finish params.requestID found.entry (outcome.map fun _ => true)).await
    .ofExcept outcome

/-- Only a grant that succeeds settles its waiters. -/
def grantCounterparty (params : CounterpartyGrantParams) (found : FoundRequest) : FlowM Unit := do
  let request := found.request
  let lookupValues := buildOriginatorLookupValues [request.displayOriginator, some request.originator]
  if !CounterpartyPermissions.includes request.counterpartyProtocols params.granted then
    throw (.error "Granted protocol permissions are not a subset of the original request.")
  else
    let items ← findGrantItems lookupValues (params.expiry.getD 0) (params.granted.map fun grant =>
      { originator := request.originator, usageType := "", reason := grant.description
        permission := .protocol false ⟨2, grant.protocolName⟩ request.counterpartyName })
    manager.makeTokens items
    (RequestsOp.finish params.requestID found.entry (.ok true)).await

def grantCounterpartyPermission (params : CounterpartyGrantParams) : FlowM Unit := do
  match ← (RequestsOp.find params.requestID).await with
  | none => throw requestNotFound
  | some found => manager.grantCounterparty params found

end PermissionsManager

inductive PermissionCall where
  | ensureProtocolPermission (check : PermissionsManager.ProtocolCheck)
  | ensureBasketAccess (check : PermissionsManager.BasketCheck)
  | ensureCertificateAccess (check : PermissionsManager.CertificateCheck)
  | ensureSpendingAuthorization (check : PermissionsManager.SpendingCheck)
  | ensureLabelAccess (check : PermissionsManager.LabelCheck)
  | perform (call : WalletCall) (originator : Option String)
  | waitForAuthentication (originator : String)
  | grantPermission (params : GrantParams)
  | denyPermission (requestID : String)
  | grantGroupedPermission (params : GroupedGrantParams)
  | denyGroupedPermission (requestID : String)
  | dismissGroupedPermission (requestID : String)
  | grantCounterpartyPermission (params : CounterpartyGrantParams)
  | denyCounterpartyPermission (requestID : String)

namespace PermissionsManager
variable (manager : PermissionsManager)

def checked {α : Type} (program : PermissionsM α) : FlowM Unit := do
  let _ ← manager.check program

def program : PermissionCall → FlowM Unit
  | .ensureProtocolPermission check => manager.checked (manager.ensureProtocolPermission check)
  | .ensureBasketAccess check => manager.checked (manager.ensureBasketAccess check)
  | .ensureCertificateAccess check => manager.checked (manager.ensureCertificateAccess check)
  | .ensureSpendingAuthorization check => manager.checked (manager.ensureSpendingAuthorization check)
  | .ensureLabelAccess check => manager.checked (manager.ensureLabelAccess check)
  | .perform call originator => manager.checked (manager.perform originator call)
  | .waitForAuthentication originator => manager.waitForAuthentication originator
  | .grantPermission params => manager.grantPermission params
  | .denyPermission requestID => denyPermission requestID
  | .grantGroupedPermission params => manager.grantGroupedPermission params
  | .denyGroupedPermission requestID | .denyCounterpartyPermission requestID => denyActiveRequest requestID
  | .dismissGroupedPermission requestID => dismissGroupedPermission requestID
  | .grantCounterpartyPermission params => manager.grantCounterpartyPermission params

end PermissionsManager
end WalletToolbox
