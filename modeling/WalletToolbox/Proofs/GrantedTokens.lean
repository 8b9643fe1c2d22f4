import WalletToolbox.Async.Traces
import WalletToolbox.Permissions.TokenBatches

/-! Which tokens a grouped or a counterparty grant makes. The granted entries are compared
with those of the request, except for the amount of a spending authorization; and the
originator of a token is normalized after the request has been made. -/

namespace WalletToolbox
open Async Program PermissionsManager CounterpartyPermissions GroupedPermissions List

/-- The tokens an operation is asked to make. -/
def tokenItems : RequestsOp → List TokenItem
  | .outside (.createPermissionOnChain item) | .outside (.renewPermissionOnChain _ item) => [item]
  | .outside (.createPermissionTokensBestEffort items) => items
  | .outside (.renewPermissionTokensBestEffort items) => items.map RenewalItem.item
  | _ => []

def ProtocolGrant.peer (grant : ProtocolGrant) : String :=
  if grant.protocolID.level = 2 then orElseText (grant.counterparty.getD "") "self" else ""

def RequestData.AsksProtocol (request : RequestData) (protocolID : WalletProtocol) (counterparty : String) : Prop :=
  (∃ grant ∈ request.groupedPermissions.protocolPermissions, grant.protocolID = protocolID ∧ grant.peer = counterparty) ∨
    (protocolID.level = 2 ∧ counterparty = request.counterpartyName ∧
      ∃ grant ∈ request.counterpartyProtocols, grant.protocolName = protocolID.name)

/-- The user is asked for the permission of a token, for the originator. -/
def RequestData.Asks (request : RequestData) : PushdropFields → Prop
  | .protocol domain _ privileged protocolID peer => domain = request.originator ∧ privileged = false ∧ request.AsksProtocol protocolID peer
  | .basket domain _ basket => domain = request.originator ∧ ∃ grant ∈ request.groupedPermissions.basketAccess, grant.basket = basket
  | .certificate domain _ privileged certType fields verifier =>
    domain = request.originator ∧ privileged = false ∧ ∃ grant ∈ request.groupedPermissions.certificateAccess,
      grant.type = certType ∧ grant.fields = fields ∧ grant.verifierPublicKey = verifier
  | .spending domain amount =>
    domain = request.originator ∧ ∃ grant ∈ request.groupedPermissions.spendingAuthorization, amount ≤ grant.amount

structure GrantsWithin (platform : Platform) (request : RequestData) (events : List (Event permissionRequests)) (outcome : Except PermissionsError Unit) :
    Prop where
  asked : ∀ event ∈ events, ∀ item ∈ tokenItems event.op, request.Asks (buildPermissionOutput platform item).fields
  rejected : ∀ error, outcome = .error error → ∀ event ∈ events, tokenItems event.op = []

def QuietFlow (events : List (Event permissionRequests)) : Prop := ∀ event ∈ events, tokenItems event.op = []

section
variable {α β : Type} {events : List (Event permissionRequests)}

theorem QuietFlow.append {others} (first : QuietFlow events) (second : QuietFlow others) : QuietFlow (events ++ others) := by
  intro event member
  rcases mem_append.mp member with left | right
  · exact first event left
  · exact second event right

theorem QuietFlow.within {platform request} (quiet : QuietFlow events) (outcome) :
    GrantsWithin platform request events outcome := by
  refine ⟨fun event member item inside => ?_, fun _ _ => quiet⟩
  rw [quiet event member] at inside
  nomatch inside

theorem quiet_of_uses {program : FlowM α} {outcome} (uses : program.Uses fun op => tokenItems op = [])
    (answers : program.Answers events outcome) : QuietFlow events := uses.answers answers

def lookupGrant (lookupValues : List String) (request : PermissionRequest) : FlowM (PermissionRequest × Option PermissionToken) := do
  let token ← .ofExcept (← (FlowOp.lookup (.findToken request.originator request.permission lookupValues)).await)
  return (request, token)

theorem lookupGrant_uses (lookupValues) (request) :
    (lookupGrant lookupValues request).Uses fun op => tokenItems op = [] :=
  Uses.bind ⟨rfl, fun _ => trivial⟩ fun _ => (Uses.ofExcept _).bind fun _ => trivial

theorem lookupGrant_request {lookupValues request result}
    (answers : (lookupGrant lookupValues request).Answers events (.ok result)) : result.1 = request := by
  rcases answers_bind answers with ⟨reply, first, rest, -, -, answers⟩ | ⟨_, same, -⟩
  · rcases answers_bind answers with ⟨token, _, _, -, -, answers⟩ | ⟨_, same, -⟩
    · cases answers
      rfl
    · cases same
  · cases same

theorem findGrantItems_requests
    (answers : (findGrantItems lookupValues expiry requests).Answers events (.ok items)) :
    ∀ item, item ∈ items.toCreate ∨ item ∈ items.toRenew.map RenewalItem.item → ∃ request ∈ requests, item = ⟨request, expiry, none⟩ := by
  change (requests.mapM (lookupGrant lookupValues) >>= fun tokens => pure _ : FlowM GrantItems).Answers events (.ok items) at answers
  rcases answers_bind answers with ⟨tokens, first, rest, -, looked, answers⟩ | ⟨_, same, -⟩
  · have own (entry : PermissionRequest × Option PermissionToken) (member : entry ∈ tokens) : entry.1 ∈ requests := by
      obtain ⟨request, inside, part, answered⟩ := answers_mapM looked entry member
      rw [lookupGrant_request answered]
      exact inside
    cases answers
    rintro item (made | renewed)
    · obtain ⟨⟨request, token⟩, member, same⟩ := mem_filterMap.mp made
      cases token with
      | none =>
        cases same
        exact ⟨request, own _ member, rfl⟩
      | some token => cases same
    · obtain ⟨renewal, inside, rfl⟩ := mem_map.mp renewed
      obtain ⟨entry, member, same⟩ := mem_filterMap.mp inside
      obtain ⟨token, -, rfl⟩ := Option.map_eq_some_iff.mp same
      exact ⟨entry.1, own entry member, rfl⟩
  · cases same

theorem findGrantItems_quiet {expiry requests outcome}
    (answers : (findGrantItems lookupValues expiry requests).Answers events outcome) : QuietFlow events :=
  quiet_of_uses ((Uses.mapM (lookupGrant_uses lookupValues) requests).bind fun _ => trivial : (findGrantItems lookupValues expiry requests).Uses _) answers

variable (manager : PermissionsManager)

theorem markRecentGrant_uses (request) : (manager.markRecentGrant request).Uses fun op => tokenItems op = [] := by
  unfold markRecentGrant
  split
  · trivial
  all_goals exact ⟨rfl, fun _ => trivial⟩

theorem forM_answers_ok {each : α → FlowM Unit} (settles : ∀ value events outcome, (each value).Answers events outcome → outcome = .ok ()) {values : List α}
    {outcome} (answers : (values.forM each).Answers events outcome) : outcome = .ok () := by
  induction values generalizing events with
  | nil =>
    cases answers
    rfl
  | cons first rest ih =>
    rcases answers_bind answers with ⟨_, _, _, -, -, later⟩ | ⟨error, -, failed⟩
    · exact ih later
    · cases settles first _ _ failed

theorem markRecentGrant_ok (request) (events) (outcome)
    (answers : (manager.markRecentGrant request).Answers events outcome) : outcome = .ok () := by
  unfold markRecentGrant at answers
  split at answers
  · cases answers
    rfl
  all_goals
    cases answers with
    | await reply answers =>
      cases answers
      rfl

theorem makeTokens_answers {items : GrantItems} {outcome : Except PermissionsError Unit} (answers : (manager.makeTokens items).Answers events outcome) :
    outcome = .ok () ∧ ∃ created renewed marks, QuietFlow marks ∧
      events = ⟨.outside (.createPermissionTokensBestEffort items.toCreate), created⟩ ::
        ⟨.outside (.renewPermissionTokensBestEffort items.toRenew), renewed⟩ :: marks := by
  cases answers with
  | await created answers =>
    cases answers with
    | @await _ _ marks _ renewed answers =>
      exact ⟨forM_answers_ok (markRecentGrant_ok manager) answers, created, renewed, marks,
        quiet_of_uses (Uses.forM (markRecentGrant_uses manager) _) answers, rfl⟩

theorem validateSubset_ok {granted requested : GroupedPermissions} (valid : granted.validateSubset requested = .ok ()) :
    (granted.spendingAuthorization.isSome = true → requested.spendingAuthorization ≠ none) ∧
      (∀ grant ∈ granted.protocolPermissions, grant ∈ requested.protocolPermissions) ∧
      (∀ grant ∈ granted.basketAccess, grant ∈ requested.basketAccess) ∧
      (∀ grant ∈ granted.certificateAccess, grant ∈ requested.certificateAccess) := by
  unfold validateSubset at valid
  split at valid
  · cases valid
  next spending =>
    split at valid
    · cases valid
    next protocols =>
      split at valid
      · cases valid
      next baskets =>
        split at valid
        · cases valid
        next certificates =>
          refine ⟨fun some none => spending (by simp [some, none]), ?_, ?_, ?_⟩
          · simpa using protocols
          · simpa using baskets
          · simpa using certificates

def grantRequest (originator : String) (permission : Permission) (reason : String) : PermissionRequest :=
  { originator, usageType := "", permission, reason := some reason }

variable (params : GroupedGrantParams) (request : RequestData)

def spendingItems : List TokenItem := params.granted.spendingAuthorization.toList.map fun grant =>
  ⟨grantRequest request.originator (.spending grant.amount []) grant.description, 0, some grant.amount⟩

def protocolRequests : List PermissionRequest := params.granted.protocolPermissions.map fun grant =>
  grantRequest request.originator
    (.protocol false grant.protocolID (if grant.protocolID.level = 1 then "" else orElseText (grant.counterparty.getD "") "self")) grant.description

def basketItems : List TokenItem := params.granted.basketAccess.map fun grant =>
  ⟨grantRequest request.originator (.basket grant.basket) grant.description, params.expiry.getD 0, none⟩

def certificateItems : List TokenItem := params.granted.certificateAccess.map fun grant =>
  ⟨grantRequest request.originator (.certificate false grant.verifierPublicKey grant.type grant.fields) grant.description, params.expiry.getD 0, none⟩

def groupedItems (protocols : GrantItems) : GrantItems :=
  { protocols with toCreate := spendingItems params request ++ protocols.toCreate ++ basketItems params request ++ certificateItems params request }

def grantLookups : List String := PermissionsManager.buildOriginatorLookupValues [request.displayOriginator, some request.originator]

theorem grantGrouped_eq : manager.grantGrouped params request =
    (Program.ofExcept (params.granted.validateSubset request.groupedPermissions) >>= fun _ =>
      findGrantItems (grantLookups request) (params.expiry.getD 0) (protocolRequests params request) >>= fun protocols =>
        manager.makeTokens (groupedItems params request protocols)) := rfl

/-- What keeps the tokens of a grouped grant within the request: no more satoshis are granted
than were asked for, and the originator is not changed by normalizing it again. -/
structure GroupedWithin (platform : Platform) (granted requested : GroupedPermissions) (originator : String) : Prop where
  amount : ∀ grant ∈ granted.spendingAuthorization, ∀ asked ∈ requested.spendingAuthorization, grant.amount ≤ asked.amount
  origin : granted.hasAnyPermissionsToRequest = true → tokenOriginator platform originator = originator

variable {manager params request}

theorem ProtocolGrant.peer_of (grant : ProtocolGrant) :
    (if grant.protocolID.level = 2 then (if grant.protocolID.level = 1 then "" else orElseText (grant.counterparty.getD "") "self") else "") = grant.peer := by
  unfold peer
  split
  next two =>
    rw [if_neg (by rw [two]; decide)]
  next => rfl

theorem any_of_protocols {granted : GroupedPermissions} (some : granted.protocolPermissions ≠ []) : granted.hasAnyPermissionsToRequest = true := by
  simp [hasAnyPermissionsToRequest, some]

theorem any_of_baskets {granted : GroupedPermissions} (some : granted.basketAccess ≠ []) : granted.hasAnyPermissionsToRequest = true := by
  simp [hasAnyPermissionsToRequest, some]

theorem any_of_certificates {granted : GroupedPermissions} (some : granted.certificateAccess ≠ []) : granted.hasAnyPermissionsToRequest = true := by
  simp [hasAnyPermissionsToRequest, some]

theorem any_of_spending {granted : GroupedPermissions} (some : granted.spendingAuthorization = some grant) :
    granted.hasAnyPermissionsToRequest = true := by
  simp [hasAnyPermissionsToRequest, some]

section
variable (valid : params.granted.validateSubset request.groupedPermissions = .ok ())
  (within : GroupedWithin manager.platform params.granted request.groupedPermissions request.originator)
include valid within

theorem spendingItems_asked {item : TokenItem} (member : item ∈ spendingItems params request) :
    request.Asks (buildPermissionOutput manager.platform item).fields := by
  obtain ⟨grant, inside, rfl⟩ := mem_map.mp member
  have here := Option.mem_toList.mp inside
  obtain ⟨asked, requested⟩ := Option.ne_none_iff_exists'.mp ((validateSubset_ok valid).1 (by rw [here]; rfl))
  exact ⟨within.origin (any_of_spending here), asked, requested, Int.ofNat_le.mpr (within.amount grant here asked requested)⟩

theorem protocolRequests_asked {grantee : PermissionRequest} (member : grantee ∈ protocolRequests params request) :
    request.Asks (buildPermissionOutput manager.platform ⟨grantee, params.expiry.getD 0, none⟩).fields := by
  obtain ⟨grant, inside, rfl⟩ := mem_map.mp member
  refine ⟨within.origin (any_of_protocols (ne_nil_of_mem inside)), rfl, .inl ⟨grant, (validateSubset_ok valid).2.1 grant inside, rfl, ?_⟩⟩
  exact grant.peer_of.symm

theorem basketItems_asked {item : TokenItem} (member : item ∈ basketItems params request) :
    request.Asks (buildPermissionOutput manager.platform item).fields := by
  obtain ⟨grant, inside, rfl⟩ := mem_map.mp member
  exact ⟨within.origin (any_of_baskets (ne_nil_of_mem inside)), grant, (validateSubset_ok valid).2.2.1 grant inside, rfl⟩

theorem certificateItems_asked {item : TokenItem} (member : item ∈ certificateItems params request) :
    request.Asks (buildPermissionOutput manager.platform item).fields := by
  obtain ⟨grant, inside, rfl⟩ := mem_map.mp member
  exact ⟨within.origin (any_of_certificates (ne_nil_of_mem inside)), rfl, grant, (validateSubset_ok valid).2.2.2 grant inside, rfl, rfl, rfl⟩

end

theorem makeTokens_within {items platform quiet outcome}
    (before : QuietFlow quiet) (answers : (manager.makeTokens items).Answers events outcome)
    (asked : ∀ item, item ∈ items.toCreate ∨ item ∈ items.toRenew.map RenewalItem.item → request.Asks (buildPermissionOutput platform item).fields) :
    GrantsWithin platform request (quiet ++ events) outcome := by
  obtain ⟨rfl, created, renewed, marks, silent, rfl⟩ := makeTokens_answers manager answers
  refine ⟨fun event member item inside => ?_, fun error same => nomatch same⟩
  rcases mem_append.mp member with early | late
  · rw [before event early] at inside
    nomatch inside
  · rcases mem_cons.mp late with rfl | late
    · exact asked item (.inl inside)
    · rcases mem_cons.mp late with rfl | late
      · exact asked item (.inr inside)
      · rw [silent event late] at inside
        nomatch inside

theorem grantGrouped_within {outcome} (answers : (manager.grantGrouped params request).Answers events outcome)
    (within : params.granted.validateSubset request.groupedPermissions = .ok () →
      GroupedWithin manager.platform params.granted request.groupedPermissions request.originator) :
    GrantsWithin manager.platform request events outcome := by
  rw [grantGrouped_eq] at answers
  rcases answers_bind answers with ⟨_, first, rest, rfl, validated, later⟩ | ⟨error, rfl, failed⟩
  · obtain ⟨rfl, valid⟩ := answers_ofExcept.mp validated
    have valid := valid.symm
    rcases answers_bind later with ⟨protocols, looked, made, rfl, found, making⟩ | ⟨error, rfl, failed⟩
    · rw [nil_append]
      refine makeTokens_within (findGrantItems_quiet found) making ?_
      have own := findGrantItems_requests found
      have within := within valid
      rintro item (created | renewed)
      · rcases mem_append.mp created with created | certificate
        · rcases mem_append.mp created with created | basket
          · rcases mem_append.mp created with spending | protocol
            · exact spendingItems_asked valid within spending
            · obtain ⟨grantee, inside, rfl⟩ := own item (.inl protocol)
              exact protocolRequests_asked valid within inside
          · exact basketItems_asked valid within basket
        · exact certificateItems_asked valid within certificate
      · obtain ⟨grantee, inside, rfl⟩ := own item (.inr renewed)
        exact protocolRequests_asked valid within inside
    · exact (findGrantItems_quiet failed).within _
  · obtain ⟨rfl, -⟩ := answers_ofExcept.mp failed
    exact QuietFlow.within (forall_mem_nil _) _

theorem awaited (op : RequestsOp) (reply : op.Reply) : op.await.Answers [⟨op, reply⟩] (.ok reply) :=
  @Answers.await permissionRequests PermissionsError _ op .done _ _ reply (.done reply)

def notFound (lookupValues : List String) (request : PermissionRequest) : List (Event permissionRequests) :=
  [⟨.outside (.lookup (.findToken request.originator request.permission lookupValues)), .ok none⟩]

def asNew (expiry : Nat) (requests : List PermissionRequest) : GrantItems where
  toCreate := requests.map fun request => ⟨request, expiry, none⟩
  toRenew := []

theorem findGrantItems_creates (lookupValues : List String) (expiry : Nat) (requests) :
    (findGrantItems lookupValues expiry requests).Answers (requests.flatMap (notFound lookupValues)) (.ok (asNew expiry requests)) := by
  have each (request : PermissionRequest) : (lookupGrant lookupValues request).Answers (notFound lookupValues request) (.ok (request, none)) :=
    (awaited (.outside (.lookup (.findToken request.originator request.permission lookupValues))) (.ok none)).bind
      ((answers_ofExcept.mpr ⟨rfl, rfl⟩).bind (.done _))
  have looked := Answers.mapM each requests
  have created : (requests.map fun request => (request, (none : Option PermissionToken))).filterMap
      (fun entry => if entry.2 = none then some (⟨entry.1, expiry, none⟩ : TokenItem) else none) = requests.map fun request => ⟨request, expiry, none⟩ := by
    rw [filterMap_map]
    exact congrFun (@List.filterMap_eq_map _ _ fun request => (⟨request, expiry, none⟩ : TokenItem)) requests
  have renewed : (requests.map fun request => (request, (none : Option PermissionToken))).filterMap
      (fun entry => entry.2.map fun token => (⟨token, ⟨entry.1, expiry, none⟩⟩ : RenewalItem)) = [] := by
    rw [filterMap_map]
    exact filterMap_eq_nil_iff.mpr fun _ _ => rfl
  have all : (findGrantItems lookupValues expiry requests).Answers (requests.flatMap (notFound lookupValues) ++ []) (.ok ⟨_, _⟩) :=
    looked.bind (.done _)
  rw [append_nil, created, renewed] at all
  exact all

def creating (items : GrantItems) : List (Event permissionRequests) :=
  [⟨.outside (.createPermissionTokensBestEffort items.toCreate), []⟩, ⟨.outside (.renewPermissionTokensBestEffort items.toRenew), []⟩]

theorem makeTokens_creates (items : GrantItems) : (manager.makeTokens items).Answers (creating items) (.ok ()) :=
  (awaited (.outside (.createPermissionTokensBestEffort items.toCreate)) []).bind
    ((awaited (.outside (.renewPermissionTokensBestEffort items.toRenew)) []).bind (.done ()))

theorem asks_domain {platform item} (asks : request.Asks (buildPermissionOutput platform item).fields) :
    tokenOriginator platform item.request.originator = request.originator := by
  obtain ⟨⟨_, _, _, permission, _, _, _⟩, _, _⟩ := item
  cases permission <;> exact asks.1

def EveryGrant (program : FlowM Unit) (requestID : String) (request : RequestData)
    (property : List (Event permissionRequests) → Except PermissionsError Unit → Prop) : Prop :=
  ∀ entry events outcome, program.Answers (⟨.find requestID, some ⟨entry, request⟩⟩ :: events) outcome → property events outcome

theorem GrantsWithin.append {platform outcome later}
    (grants : GrantsWithin platform request events outcome) (quiet : QuietFlow later) : GrantsWithin platform request (events ++ later) outcome := by
  refine ⟨fun event member item inside => ?_, fun error same => QuietFlow.append (grants.rejected error same) quiet⟩
  rcases mem_append.mp member with here | late
  · exact grants.asked event here item inside
  · rw [quiet event late] at inside
    nomatch inside

theorem grantGroupedPermission_answers {entry outcome}
    (answers : (manager.grantGroupedPermission params).Answers (⟨.find params.requestID, some ⟨entry, request⟩⟩ :: events) outcome) :
    ∃ first later, events = first ++ later ∧ QuietFlow later ∧ (manager.grantGrouped params request).Answers first outcome := by
  cases answers with
  | await reply answers =>
    have answers : ((manager.grantGrouped params request).settle >>= fun outcome =>
        (RequestsOp.finish params.requestID entry (outcome.map fun _ => true)).await >>= fun _ => .ofExcept outcome : FlowM Unit).Answers events outcome := answers
    rcases answers_bind answers with ⟨settled, first, rest, rfl, granted, after⟩ | ⟨error, -, failed⟩
    · obtain ⟨_, same, granted⟩ := answers_settle.mp granted
      cases same
      cases after with
      | await unit after =>
        obtain ⟨rfl, rfl⟩ := answers_ofExcept.mp after
        exact ⟨first, _, rfl, forall_mem_singleton.mpr rfl, granted⟩
    · obtain ⟨_, same, -⟩ := answers_settle.mp failed
      cases same

theorem grantGroupedPermission_succeeds (granted : (manager.grantGrouped params request).Answers events (.ok ())) :
    (manager.grantGroupedPermission params).Answers
      (⟨.find params.requestID, some ⟨0, request⟩⟩ :: (events ++ [⟨.finish params.requestID 0 (.ok true), ()⟩])) (.ok ()) :=
  (awaited (.find params.requestID) (some ⟨0, request⟩)).bind
    ((answers_settle.mpr ⟨_, rfl, granted⟩).bind ((awaited (.finish params.requestID 0 (.ok true)) ()).bind (answers_ofExcept.mpr ⟨rfl, rfl⟩)))

def newItems (params : GroupedGrantParams) (request : RequestData) : GrantItems :=
  groupedItems params request (asNew (params.expiry.getD 0) (protocolRequests params request))

theorem grantGrouped_creates (valid : params.granted.validateSubset request.groupedPermissions = .ok ()) :
    (manager.grantGrouped params request).Answers
      ([] ++ ((protocolRequests params request).flatMap (notFound (grantLookups request)) ++ creating (newItems params request))) (.ok ()) := by
  rw [grantGrouped_eq]
  exact (answers_ofExcept.mpr ⟨rfl, valid.symm⟩).bind ((findGrantItems_creates ..).bind (makeTokens_creates _))

theorem newItems_originator (some : params.granted.hasAnyPermissionsToRequest = true) :
    ∃ item ∈ (newItems params request).toCreate, item.request.originator = request.originator := by
  have entries : params.granted.spendingAuthorization.toList ≠ [] ∨ params.granted.protocolPermissions ≠ [] ∨ params.granted.basketAccess ≠ [] ∨
      params.granted.certificateAccess ≠ [] := by
    simpa [hasAnyPermissionsToRequest, Option.isSome_iff_ne_none, or_assoc] using some
  rcases entries with entry | entry | entry | entry <;> obtain ⟨grant, member⟩ := exists_mem_of_ne_nil _ entry
  · exact ⟨_, mem_append_left _ (mem_append_left _ (mem_append_left _ (mem_map_of_mem member))), rfl⟩
  · exact ⟨_, mem_append_left _ (mem_append_left _ (mem_append_right _ (mem_map_of_mem (mem_map_of_mem member)))), rfl⟩
  · exact ⟨_, mem_append_left _ (mem_append_right _ (mem_map_of_mem member)), rfl⟩
  · exact ⟨_, mem_append_right _ (mem_map_of_mem member), rfl⟩

theorem grouped_within_iff : EveryGrant (manager.grantGroupedPermission params) params.requestID request (GrantsWithin manager.platform request) ↔
    (params.granted.validateSubset request.groupedPermissions = .ok () →
      GroupedWithin manager.platform params.granted request.groupedPermissions request.originator) := by
  constructor
  · intro every valid
    have ran := every _ _ _ (grantGroupedPermission_succeeds (grantGrouped_creates valid))
    have asked : ∀ item ∈ (newItems params request).toCreate, request.Asks (buildPermissionOutput manager.platform item).fields := by
      refine ran.asked ⟨.outside (.createPermissionTokensBestEffort (newItems params request).toCreate), []⟩ ?_
      simp [creating]
    constructor
    · intro grant granted requested wanted
      have member : (⟨grantRequest request.originator (.spending grant.amount []) grant.description, 0, some grant.amount⟩ : TokenItem) ∈
          spendingItems params request := mem_map_of_mem (f := _) (Option.mem_toList.mpr granted)
      obtain ⟨-, found, same, fits⟩ := asked _ (mem_append_left _ (mem_append_left _ (mem_append_left _ member)))
      cases Option.some.inj (same.symm.trans wanted)
      exact Int.ofNat_le.mp fits
    · intro some
      obtain ⟨item, member, own⟩ := newItems_originator some
      exact own ▸ asks_domain (asked item member)
  · intro within entry events outcome answers
    obtain ⟨first, later, rfl, quiet, granted⟩ := grantGroupedPermission_answers answers
    exact (grantGrouped_within granted within).append quiet

variable {granting : CounterpartyGrantParams}

def counterpartyRequest (request : RequestData) (grant : CounterpartyProtocol) : PermissionRequest :=
  { originator := request.originator, usageType := "", reason := grant.description
    permission := .protocol false ⟨2, grant.protocolName⟩ request.counterpartyName }

def counterpartyRequests (granting : CounterpartyGrantParams) (request : RequestData) : List PermissionRequest :=
  granting.granted.map (counterpartyRequest request)

def counterpartyMade (manager : PermissionsManager) (granting : CounterpartyGrantParams) (request : RequestData) (entry : Nat) : FlowM Unit := do
  let items ← findGrantItems (grantLookups request) (granting.expiry.getD 0) (counterpartyRequests granting request)
  manager.makeTokens items
  (RequestsOp.finish granting.requestID entry (.ok true)).await

theorem grantCounterparty_eq (entry : Nat) : manager.grantCounterparty granting ⟨entry, request⟩ =
    if !includes request.counterpartyProtocols granting.granted then
      throw (.error "Granted protocol permissions are not a subset of the original request.")
    else counterpartyMade manager granting request entry := rfl

theorem counterpartyRequests_asked (included : includes request.counterpartyProtocols granting.granted = true)
    (origin : tokenOriginator manager.platform request.originator = request.originator)
    (member : grantee ∈ counterpartyRequests granting request) :
    request.Asks (buildPermissionOutput manager.platform ⟨grantee, granting.expiry.getD 0, none⟩).fields := by
  obtain ⟨grant, inside, rfl⟩ := mem_map.mp member
  have named := (Bool.and_eq_true_iff.mp (all_eq_true.mp included grant inside)).2
  obtain ⟨asked, known, same⟩ := any_eq_true.mp named
  exact ⟨origin, rfl, .inr ⟨rfl, rfl, asked, known, of_decide_eq_true same⟩⟩

theorem counterpartyMade_within {entry : Nat} {outcome}
    (answers : (counterpartyMade manager granting request entry).Answers events outcome)
    (included : includes request.counterpartyProtocols granting.granted = true)
    (within : granting.granted ≠ [] → tokenOriginator manager.platform request.originator = request.originator) :
    GrantsWithin manager.platform request events outcome := by
  rcases answers_bind answers with ⟨items, looked, rest, rfl, found, later⟩ | ⟨error, rfl, failed⟩
  · have own := findGrantItems_requests found
    have asked (grantee : PermissionRequest) (inside : grantee ∈ counterpartyRequests granting request) :
        request.Asks (buildPermissionOutput manager.platform ⟨grantee, granting.expiry.getD 0, none⟩).fields := by
      refine counterpartyRequests_asked included (within ?_) inside
      rintro empty
      rw [counterpartyRequests, empty] at inside
      nomatch inside
    rcases answers_bind later with ⟨_, making, last, rfl, made, finish⟩ | ⟨error, rfl, failed⟩
    · rw [← append_assoc]
      have grants := @makeTokens_within _ manager request items manager.platform looked (.ok ()) (findGrantItems_quiet found) made fun item member => by
        obtain ⟨grantee, inside, rfl⟩ := own item member
        exact asked grantee inside
      have silent : (RequestsOp.finish granting.requestID entry (.ok true)).await.Uses fun op => tokenItems op = [] := ⟨rfl, fun _ => trivial⟩
      have quiet := quiet_of_uses silent finish
      cases finish with
      | await unit finish =>
        cases finish
        exact grants.append quiet
    · cases (makeTokens_answers manager failed).1
  · exact (findGrantItems_quiet failed).within _

theorem counterparty_creates (included : includes request.counterpartyProtocols granting.granted = true) :
    (manager.grantCounterpartyPermission granting).Answers
      (⟨.find granting.requestID, some ⟨0, request⟩⟩ ::
        ((counterpartyRequests granting request).flatMap (notFound (grantLookups request)) ++
          (creating (asNew (granting.expiry.getD 0) (counterpartyRequests granting request)) ++ [⟨.finish granting.requestID 0 (.ok true), ()⟩]))) (.ok ()) := by
  have made : (counterpartyMade manager granting request 0).Answers _ (.ok ()) := (findGrantItems_creates (grantLookups request) (granting.expiry.getD 0)
    (counterpartyRequests granting request)).bind ((makeTokens_creates (asNew (granting.expiry.getD 0) (counterpartyRequests granting request))).bind
      (awaited (.finish granting.requestID 0 (.ok true)) ()))
  refine (awaited (.find granting.requestID) (some ⟨0, request⟩)).bind ?_
  change (manager.grantCounterparty granting ⟨0, request⟩).Answers _ _
  rw [grantCounterparty_eq, included]
  exact made

theorem counterparty_within_iff :
    EveryGrant (manager.grantCounterpartyPermission granting) granting.requestID request (GrantsWithin manager.platform request) ↔
      (includes request.counterpartyProtocols granting.granted = true → granting.granted ≠ [] →
        tokenOriginator manager.platform request.originator = request.originator) := by
  constructor
  · intro every included some
    have ran := every _ _ _ (counterparty_creates included)
    obtain ⟨grant, member⟩ := exists_mem_of_ne_nil _ some
    have grantee : counterpartyRequest request grant ∈ counterpartyRequests granting request := mem_map_of_mem member
    have item : (⟨counterpartyRequest request grant, granting.expiry.getD 0, none⟩ : TokenItem) ∈
        (asNew (granting.expiry.getD 0) (counterpartyRequests granting request)).toCreate := mem_map_of_mem grantee
    have asked := ran.asked ⟨.outside (.createPermissionTokensBestEffort (asNew (granting.expiry.getD 0) (counterpartyRequests granting request)).toCreate), []⟩
      (mem_append_right _ (mem_append_left _ (.head _))) _ item
    have own := asks_domain asked
    exact own
  · intro within entry events outcome answers
    cases answers with
    | await reply answers =>
      have answers : (manager.grantCounterparty granting ⟨entry, request⟩).Answers events outcome := answers
      rw [grantCounterparty_eq] at answers
      cases included : includes request.counterpartyProtocols granting.granted with
      | false =>
        rw [included] at answers
        cases answers
        exact QuietFlow.within (forall_mem_nil _) _
      | true =>
        rw [included] at answers
        exact counterpartyMade_within answers included (within included)

end

/-- A grouped grant makes only tokens that were asked for when its spending authorization is not
for more satoshis than the request's, and both grants need an originator that normalizing leaves as it is. -/
theorem grants_within_iff (manager : PermissionsManager) (request : RequestData) :
    (∀ params : GroupedGrantParams,
      EveryGrant (manager.grantGroupedPermission params) params.requestID request (GrantsWithin manager.platform request) ↔
        (params.granted.validateSubset request.groupedPermissions = .ok () →
          GroupedWithin manager.platform params.granted request.groupedPermissions request.originator)) ∧
    (∀ params : CounterpartyGrantParams,
      EveryGrant (manager.grantCounterpartyPermission params) params.requestID request (GrantsWithin manager.platform request) ↔
        (includes request.counterpartyProtocols params.granted = true → params.granted ≠ [] →
          tokenOriginator manager.platform request.originator = request.originator)) :=
  ⟨fun _ => grouped_within_iff, fun _ => counterparty_within_iff⟩

def plainManager : PermissionsManager where
  platform := ⟨fun text => some ⟨text, "", ""⟩, id, id⟩
  adminOriginator := "admin.com"
  config := {}

def askedSpending : RequestData := .grouped "example.com" { spendingAuthorization := some ⟨1000, "monthly"⟩ } none

def grantedMore : GroupedGrantParams where
  requestID := "group:example.com"
  granted := { spendingAuthorization := some ⟨1000000, "monthly"⟩ }

theorem grants_exceed_request :
    ¬EveryGrant (plainManager.grantGroupedPermission grantedMore) grantedMore.requestID askedSpending (GrantsWithin plainManager.platform askedSpending) := by
  rw [grouped_within_iff]
  intro within
  have fits := (within rfl).amount ⟨1000000, "monthly"⟩ rfl ⟨1000, "monthly"⟩ rfl
  exact absurd fits (by decide)

end WalletToolbox
