import WalletToolbox.Async.Guarded
import WalletToolbox.Proofs.PermissionChecks
import WalletToolbox.Proofs.PermissionFlows
import WalletToolbox.Proofs.RequestTables

/-! The waiters of permission requests, over any interleaving of permission checks and
decisions: each is answered by a decision on its own request, and a decision that is over
leaves none of those it found waiting. -/

namespace WalletToolbox
open Async RequestTable PermissionsManager List

variable {W : Type} (world : Machine outsideRequests W)

def Finds (event : Event permissionRequests) (entry : Nat) : Prop :=
  match event with
  | ⟨.decide _ _, some found⟩ | ⟨.find _, some found⟩ => found.entry = entry
  | _ => False

def HasFound (past : List (Event permissionRequests)) (entry : Nat) : Prop := ∃ event ∈ past, Finds event entry

/-- Nobody waits any more for what the caller has found. -/
def Covered (past : List (Event permissionRequests)) (table : RequestTable W) : Prop :=
  ∀ entry, HasFound past entry → Closed table entry

/-- A decision deletes the request it has found, and a grant for a counterparty gets that far:
it stays within the request, and its tokens can be looked up. -/
structure Careful (call : PermissionCall) (op : RequestsOp) (table : RequestTable W) : Prop where
  deletes : Deletes op table
  includes : ∀ params requestID found, call = .grantCounterpartyPermission params → op = .find requestID →
    table.active requestID = some found → CounterpartyPermissions.includes found.request.counterpartyProtocols params.granted = true
  lookups : ∀ params originator permission lookupValues error, call = .grantCounterpartyPermission params →
    op = .outside (.lookup (.findToken originator permission lookupValues)) →
    (world (.lookup (.findToken originator permission lookupValues)) table.world).1 ≠ .error error

def waiterContract (call : PermissionCall) : Contract permissionRequests (RequestTable W) where
  rely _ before after := Grows before after
  permitted _ op table := Kept table ∧ Careful world call op table
  promises _ op table := ∀ requestID entry, Settles op table requestID entry → table.keyOf entry = some requestID

section
variable {α β : Type} {world} {call : PermissionCall} {past : List (Event permissionRequests)} {table after : RequestTable W}
  {op : RequestsOp}

theorem found_append (event) (entry : Nat) :
    HasFound (past ++ [event]) entry ↔ HasFound past entry ∨ Finds event entry := by
  unfold HasFound
  simp only [mem_append, mem_singleton]
  constructor
  · rintro ⟨earlier, is | rfl, finds⟩
    · exact .inl ⟨earlier, is, finds⟩
    · exact .inr finds
  · rintro (⟨earlier, is, finds⟩ | finds)
    · exact ⟨earlier, .inl is, finds⟩
    · exact ⟨event, .inr rfl, finds⟩

theorem Covered.grows (covered : Covered past table) (grows : Grows table after) : Covered past after :=
  fun entry found => grows.closed entry (covered entry found)

theorem Covered.append {event} (covered : Covered past table)
    (finds : ∀ entry, Finds event entry → Closed table entry) : Covered (past ++ [event]) table := by
  intro entry found
  rcases (found_append event entry).mp found with before | now
  · exact covered entry before
  · exact finds entry now

theorem Checking.finds (checking : Checking op) (reply : op.Reply) (entry : Nat) : ¬ Finds ⟨op, reply⟩ entry := by
  cases op <;> first | exact checking.elim | exact id

theorem Checking.promises (checking : Checking op) : (waiterContract world call).promises past op table := by
  intro requestID entry settles
  cases op <;> first | exact checking.elim | exact settles.elim

/-- The caller has found the entry under the request ID, and nothing else that anyone waits for. -/
structure Owing (entry : Nat) (requestID : String) (past : List (Event permissionRequests)) (table : RequestTable W) : Prop where
  found : ∀ other, HasFound past other → other = entry ∨ Closed table other
  keyed : table.keyOf entry = some requestID

/-- A state of a decision that survives what the others do, and every operation of a check. -/
def Steady (world : Machine outsideRequests W) (state : List (Event permissionRequests) → RequestTable W → Prop) : Prop :=
  ∀ op past before current reply, Checking op → Grows before current → state past before →
    state (past ++ [⟨op, reply⟩]) (exec world op current).2

theorem Covered.steady : Steady world Covered := by
  intro op past before current reply checking grows covered
  exact (covered.grows (grows.trans (exec_grows world op current))).append fun entry finds => absurd finds (checking.finds reply entry)

theorem Owing.steady : Steady world (Owing entry requestID) := by
  intro op past before current reply checking grows owing
  have grows := grows.trans (exec_grows world op current)
  refine ⟨fun other seen => ?_, grows.keyed _ _ owing.keyed⟩
  rcases (found_append _ other).mp seen with earlier | now
  · exact (owing.found other earlier).imp id (grows.closed other)
  · exact absurd now (checking.finds reply other)

structure Carries (world : Machine outsideRequests W) (call : PermissionCall)
    (state : List (Event permissionRequests) → RequestTable W → Prop) (program : FlowM α) : Prop where
  guarded : ∀ past table, state past table →
    program.Guarded (exec world) (waiterContract world call) (fun more _ after => state more after) past table

/-- It settles with a value. -/
def Completes (world : Machine outsideRequests W) (call : PermissionCall)
    (state : List (Event permissionRequests) → RequestTable W → Prop) (program : FlowM α) : Prop :=
  ∀ past table, state past table →
    program.Guarded (exec world) (waiterContract world call)
      (fun more outcome after => (∃ value, outcome = .ok value) ∧ state more after) past table

variable {state : List (Event permissionRequests) → RequestTable W → Prop}

theorem Carries.bind {program : FlowM α} {next : α → FlowM β} (first : Carries world call state program)
    (rest : ∀ value, Carries world call state (next value)) : Carries world call state (program >>= next) := by
  constructor
  intro past table holds
  refine Program.Guarded.bind ((first.guarded past table holds).mono fun more outcome after holds => ?_)
  cases outcome with
  | ok value => exact (rest value).guarded more after holds
  | error error => exact holds

theorem OnlyChecks.carries {program : FlowM α} (checks : OnlyChecks program) (steady : Steady world state) :
    Carries world call state program := by
  obtain ⟨uses⟩ := checks
  constructor
  induction program with
  | done _ | fail _ => exact fun _ _ holds => holds
  | await op next ih =>
    intro past table holds current relied _
    exact ⟨uses.1.promises, ih _ (uses.2 _) _ _ (steady op past table current _ uses.1 relied holds)⟩

theorem Completes.done (value : α) : Completes world call state (.done value) := fun _ _ holds => ⟨⟨value, rfl⟩, holds⟩

theorem Completes.bind {program : FlowM α} {next : α → FlowM β} (first : Completes world call state program)
    (rest : ∀ value, Completes world call state (next value)) : Completes world call state (program >>= next) := by
  intro past table holds
  refine Program.Guarded.bind ((first past table holds).mono fun more outcome after holds => ?_)
  obtain ⟨⟨value, rfl⟩, holds⟩ := holds
  exact rest value more after holds

theorem Completes.mapM (completes : ∀ value, Completes world call state (each value)) (values : List α) :
    Completes world call state (values.mapM each) := by
  induction values with
  | nil => exact .done []
  | cons first rest ih =>
    rw [mapM_cons]
    exact .bind (completes first) fun _ => .bind ih fun _ => .done _

theorem Completes.forM (completes : ∀ value, Completes world call state (each value)) (values : List α) :
    Completes world call state (values.forM each) := by
  induction values with
  | nil => exact .done ()
  | cons first rest ih => exact .bind (completes first) fun _ => ih

theorem Completes.outside (steady : Steady world state) (op : FlowOp) : Completes world call state op.await := by
  intro past table holds current relied _
  exact ⟨Checking.promises trivial, ⟨_, rfl⟩, steady (.outside op) past table current _ trivial relied holds⟩

theorem makeTokens_completes {manager : PermissionsManager} (steady : Steady world state) (items) :
    Completes world call state (manager.makeTokens items) := by
  have marks : ∀ request, Completes world call state (manager.markRecentGrant request) := by
    intro request
    unfold markRecentGrant
    split
    · exact .done ()
    all_goals exact .outside steady _
  unfold makeTokens
  apply Completes.bind (.outside steady _)
  intro created
  apply Completes.bind (.outside steady _)
  intro renewed
  exact .forM marks _

theorem findGrantItems_completes (steady : Steady world state) (lookupValues)
    (expiry : Nat) (requests) :
    Completes world (.grantCounterpartyPermission params) state (findGrantItems lookupValues expiry requests) := by
  unfold findGrantItems
  refine Completes.bind (.mapM (fun request => ?_) requests) fun _ => .done _
  intro past table holds current relied permitted
  have found := fun error => permitted.2.lookups params request.originator request.permission lookupValues error rfl rfl
  have holds := steady (.outside (.lookup (.findToken request.originator request.permission lookupValues))) past table current
    (world (.lookup (.findToken request.originator request.permission lookupValues)) current.world).1 trivial relied holds
  refine ⟨Checking.promises trivial, ?_⟩
  dsimp only [exec] at holds ⊢
  cases answer : (world (.lookup (.findToken request.originator request.permission lookupValues)) current.world).1 with
  | error error => exact absurd answer (found error)
  | ok token =>
    rw [answer] at holds
    exact ⟨⟨_, rfl⟩, holds⟩

theorem settleRequest_carries (requestID : String) (outcome : Except PermissionsError Bool) :
    Carries world call Covered (settleRequest requestID outcome) := by
  constructor
  intro past table covered current relied permitted
  have covered := covered.grows relied
  refine ⟨fun key entry settles => permitted.1.keyed key entry settles.2, ?_⟩
  dsimp only [exec, RequestTable.decide]
  cases active : current.active requestID with
  | none => exact covered.append fun entry finds => finds.elim
  | some found =>
    have closed : Closed ((current.settle (current.pendingOf found.entry) outcome).delete requestID) found.entry :=
      permitted.1.closed (permitted.1.keyed requestID found.entry (active_some active))
    refine (covered.grows .close).append fun entry finds => ?_
    have is : found.entry = entry := finds
    exact is ▸ closed

theorem finish_guarded (owing : Owing entry requestID past table) :
    (RequestsOp.finish requestID entry outcome).await.Guarded (exec world) (waiterContract world call)
      (fun more _ after => Covered more after) past table := by
  intro current relied permitted
  have keyed := relied.keyed _ _ owing.keyed
  refine ⟨fun key other settles => ?_, fun other seen => ?_⟩
  · obtain ⟨rfl, rfl⟩ := settles
    exact keyed
  · rcases (found_append _ other).mp seen with before | now
    · rcases owing.found other before with rfl | closed
      · exact permitted.1.closed keyed
      · exact Grows.close.closed other (relied.closed other closed)
    · exact now.elim

theorem owing_found (covered : Covered past table) (kept : Kept table)
    (active : table.active requestID = some found) : Owing found.entry requestID (past ++ [⟨.find requestID, some found⟩]) table where
  found other seen := by
    rcases (found_append _ other).mp seen with before | now
    · exact .inr (covered other before)
    · exact .inl (Eq.symm now)
  keyed := kept.keyed _ _ (active_some active)

theorem grantGroupedPermission_carries {manager : PermissionsManager} (params : GroupedGrantParams) :
    Carries world call Covered (manager.grantGroupedPermission params) := by
  constructor
  intro past table covered current relied permitted
  have covered := covered.grows relied
  refine ⟨fun key entry settles => settles.elim, ?_⟩
  dsimp only [exec]
  cases active : current.active params.requestID with
  | none => exact covered.append fun entry finds => finds.elim
  | some found =>
    have body : Carries world call (Owing found.entry params.requestID) (manager.grantGrouped params found.request) :=
      (grantGrouped_checks params found.request).carries Owing.steady
    show ((manager.grantGrouped params found.request).settle >>= fun outcome => _ : FlowM Unit).Guarded _ _ _ _ current
    apply Program.Guarded.bind
    apply Program.Guarded.settle
    refine (body.guarded _ _ (owing_found covered permitted.1 active)).mono fun more outcome after owing => ?_
    apply Program.Guarded.bind
    refine (finish_guarded owing).mono fun more done after covered => ?_
    cases done with
    | error error => exact covered
    | ok _ => cases outcome <;> exact covered

theorem grantCounterpartyPermission_carries {manager : PermissionsManager} (params : CounterpartyGrantParams) :
    Carries world (.grantCounterpartyPermission params) Covered (manager.grantCounterpartyPermission params) := by
  constructor
  intro past table covered current relied permitted
  have covered := covered.grows relied
  refine ⟨fun key entry settles => settles.elim, ?_⟩
  dsimp only [exec]
  cases active : current.active params.requestID with
  | none => exact covered.append fun entry finds => finds.elim
  | some found =>
    have included := permitted.2.includes params params.requestID found rfl rfl active
    show (manager.grantCounterparty params found).Guarded _ _ _ _ current
    unfold grantCounterparty
    simp only [included, Bool.not_true, Bool.false_eq_true, if_false]
    have owing := owing_found covered permitted.1 active
    apply Program.Guarded.bind
    refine (findGrantItems_completes Owing.steady _ _ _ _ _ owing).mono fun more outcome after ⟨⟨items, is⟩, owing⟩ => ?_
    subst is
    apply Program.Guarded.bind
    refine (makeTokens_completes Owing.steady items _ _ owing).mono fun more outcome after ⟨⟨value, is⟩, owing⟩ => ?_
    subst is
    exact finish_guarded owing

theorem grantPermission_carries {manager : PermissionsManager} (params : GrantParams) :
    Carries world call Covered (manager.grantPermission params) := by
  unfold grantPermission
  apply Carries.bind (settleRequest_carries _ _)
  intro data
  apply OnlyChecks.carries _ Covered.steady
  cases data with
  | grouped _ _ _ | counterparty _ _ _ _ => exact .done _
  | single request =>
    have caches : OnlyChecks (do
        (FlowOp.lookup (.cachePermission (manager.buildRequestKey request) (params.expiry.getD 0))).await
        manager.markRecentGrant request) := .bind (.outside _) fun _ => markRecentGrant_checks request
    apply OnlyChecks.ite (.done _)
    apply OnlyChecks.ite
    all_goals exact .bind (.outside _) fun made => .bind (.ofExcept made) fun _ => caches

theorem settles_carries (requestID : String) (outcome : Except PermissionsError Bool) :
    Carries world call Covered (settleRequest requestID outcome >>= fun _ => .done ()) :=
  .bind (settleRequest_carries requestID outcome) fun _ => ⟨fun _ _ covered => covered⟩

theorem checked_carries {manager : PermissionsManager} (program : PermissionsM α) :
    Carries world call Covered (manager.checked program) := OnlyChecks.carries (checked_checks program) Covered.steady

theorem program_carries (manager : PermissionsManager) (call : PermissionCall) :
    Carries world call Covered (manager.program call) := by
  cases call with
  | ensureProtocolPermission check => exact checked_carries (manager.ensureProtocolPermission check)
  | ensureBasketAccess check => exact checked_carries (manager.ensureBasketAccess check)
  | ensureCertificateAccess check => exact checked_carries (manager.ensureCertificateAccess check)
  | ensureSpendingAuthorization check => exact checked_carries (manager.ensureSpendingAuthorization check)
  | ensureLabelAccess check => exact checked_carries (manager.ensureLabelAccess check)
  | perform call originator => exact checked_carries (manager.perform originator call)
  | waitForAuthentication originator => exact OnlyChecks.carries (waitForAuthentication_checks originator) Covered.steady
  | grantPermission params => exact grantPermission_carries params
  | denyPermission requestID | denyGroupedPermission requestID | dismissGroupedPermission requestID
  | denyCounterpartyPermission requestID => exact settles_carries requestID _
  | grantGroupedPermission params => exact grantGroupedPermission_carries params
  | grantCounterpartyPermission params => exact grantCounterpartyPermission_carries params

end

abbrev WaiterPool (W ι : Type) := Pool permissionRequests PermissionsError Unit (RequestTable W) ι

variable {ι : Type} [DecidableEq ι]

def startPermissionCalls (manager : PermissionsManager) (start : W) (calls : ι → PermissionCall) : WaiterPool W ι :=
  .start (.new start) fun caller => manager.program (calls caller)

/-- What the caller waits for has come. -/
def Steps (pool : WaiterPool W ι) (caller : ι) : Prop :=
  ∀ op next, (pool.task caller).program = .await op next → pool.store.Ready op

structure StepsCarefully (calls : ι → PermissionCall) (pool : WaiterPool W ι) (caller : ι) : Prop where
  steps : Steps pool caller
  careful : ∀ op next, (pool.task caller).program = .await op next → Careful world (calls caller) op pool.store

def Waits (table : RequestTable W) (entry : Nat) : Prop := ∃ waiter ∈ table.pendingOf entry, table.answers waiter = none

structure WaitersAnswered (pool : WaiterPool W ι) : Prop where
  active : ∀ entry requestID, pool.store.keyOf entry = some requestID → Waits pool.store entry →
    pool.store.activeRequests requestID = some entry
  prompted : ∀ first second requestID, pool.store.keyOf first = some requestID → pool.store.keyOf second = some requestID →
    Waits pool.store first → Waits pool.store second → first = second
  /-- A decision that is over leaves no waiters of a request it has found. -/
  covered : ∀ caller, (pool.task caller).program.outcome ≠ none → ∀ entry, HasFound (pool.task caller).past entry →
    ¬ Waits pool.store entry

def AnswersOwn (pool : WaiterPool W ι) (caller : ι) (after : WaiterPool W ι) : Prop :=
  ∀ waiter, after.store.answers waiter = pool.store.answers waiter ∨
    (pool.store.answers waiter = none ∧ ∃ op next requestID entry, (pool.task caller).program = .await op next ∧
      Settles op pool.store requestID entry ∧ pool.store.keyOf entry = some requestID ∧
      pool.store.activeRequests requestID = some entry ∧ waiter ∈ pool.store.pendingOf entry)

section
variable {world} {manager : PermissionsManager} {start : W} {calls : ι → PermissionCall} {pool : WaiterPool W ι}

theorem active_of_waits (kept : Kept table)
    (keyed : table.keyOf entry = some requestID) (waits : Waits table entry) : table.activeRequests requestID = some entry := by
  obtain ⟨waiter, pending, open_⟩ := waits
  obtain ⟨key, active⟩ := kept.unsettled entry waiter pending open_
  have same := kept.keyed key entry active
  rw [keyed] at same
  cases same
  exact active

theorem waiters_contracted : Pool.Contracted (exec world) (StepsCarefully (ι := ι) world calls) Kept
    (fun caller => waiterContract world (calls caller)) (fun _ more (_ : Except PermissionsError Unit) after => Covered more after) where
  steady _ _ store _ := .refl store
  trans _ _ _ _ _ earlier later := earlier.trans later
  stable _ _ _ _ _ covered grows := covered.grows grows
  permits _ _ op next kept allowed awaiting := ⟨kept, allowed.careful op next awaiting⟩
  keeps _ _ op next kept allowed awaiting _ := exec_kept world kept (allowed.careful op next awaiting).deletes
  spares pool _ _ op _ _ _ _ _ _ := exec_grows world op pool.store

theorem waiters_guarded (reached : Pool.Reaches (exec world) (StepsCarefully world calls) (startPermissionCalls manager start calls) pool) :
    Kept pool.store ∧ ∀ caller, (pool.task caller).program.Guarded (exec world) (waiterContract world (calls caller))
      (fun more _ after => Covered more after) (pool.task caller).past pool.store := by
  have covered : Covered [] (RequestTable.new start) := by
    intro entry ⟨event, member, _⟩
    cases member
  exact reached.guarded waiters_contracted (Kept.new start) fun caller => (program_carries manager (calls caller)).guarded [] _ covered

/-- In every run whose decisions take care, every waiter is answered by a decision on its own
request, and none is left behind. -/
theorem waiters_answered
    (reached : Pool.Reaches (exec world) (StepsCarefully world calls) (startPermissionCalls manager start calls) pool) :
    WaitersAnswered pool ∧ ∀ caller after, StepsCarefully world calls pool caller → pool.advance (exec world) caller = some after →
      AnswersOwn pool caller after := by
  obtain ⟨kept, guarded⟩ := waiters_guarded reached
  refine ⟨⟨fun entry requestID keyed waits => active_of_waits kept keyed waits, ?_, ?_⟩, ?_⟩
  · intro first second requestID one two left right
    have same := (active_of_waits kept one left).symm.trans (active_of_waits kept two right)
    exact Option.some.inj same
  · rintro caller settled entry found ⟨waiter, pending, open_⟩
    have covered : Covered (pool.task caller).past pool.store := by
      have here := guarded caller
      cases ends : (pool.task caller).program with
      | done _ | fail _ =>
        rw [ends] at here
        exact here
      | await op next => exact absurd (by rw [ends]; rfl) settled
    exact (covered entry found).answered waiter pending open_
  · intro caller after careful moves waiter
    obtain ⟨op, next, awaiting, store, -⟩ := Pool.advance_cases moves
    have here := guarded caller
    rw [awaiting] at here
    obtain ⟨promised, -⟩ := here pool.store (.refl pool.store) ⟨kept, careful.careful op next awaiting⟩
    rw [store]
    rcases exec_answers world op pool.store waiter with same | ⟨open_, requestID, entry, settles, pending⟩
    · exact .inl same
    · have keyed := promised requestID entry settles
      exact .inr ⟨open_, op, next, requestID, entry, awaiting, settles, keyed,
        active_of_waits kept keyed ⟨waiter, pending, open_⟩, pending⟩

end
/-- An app asks for the basket of its manifest, and no token is found. -/
def manifestOf (permissions : GroupedPermissions) : Machine outsideRequests Unit := fun op world => (reply op, world)
where
  looked : (op : PermissionsOp) → op.Reply
    | .isPermissionCached _ | .isRecentlyGranted _ | .isTokenExpired _ => false
    | .cachePermission _ _ => ()
    | .findToken _ _ _ => .ok none
    | .querySpentSince _ => .ok 0
    | .requestPermissionFlow _ | .isSignAction _ => .ok false
    | .getCurrentMonthYearUTC | .maybeEncryptMetadata _ => default
    | .onRequest _ call _ => .ok call
    | .onResponse _ result _ => .ok result
    | .decryptMetadata result => .ok result
    | .underlying _ _ | .signAction _ _ => .ok ⟨"", none⟩
    | .abortAction _ => .ok ()
  reply : (op : FlowOp) → op.Reply
    | .lookup op => looked op
    | .fetchManifestPermissions _ => ⟨some permissions, none⟩
    | .hasRequestedHandlers _ => true
    | .isPactEstablished _ => false
    | .markPactEstablished _ | .callEvent _ _ | .markRecentGrant _ => ()
    | .createPermissionOnChain _ | .renewPermissionOnChain _ _ | .waitForAuthentication => .ok ()
    | .createPermissionTokensBestEffort items => items.map TokenItem.request
    | .renewPermissionTokensBestEffort items => items.map fun renewal => renewal.item.request

def todoPermissions : GroupedPermissions := { basketAccess := [⟨"todo", "Tasks"⟩] }

/-- The user grants the request of the app and denies it at once; the app asks again. -/
def askedTwice : Fin 4 → PermissionCall
  | 0 | 3 => .waitForAuthentication "app.com"
  | 1 => .grantGroupedPermission ⟨"group:app.com", todoPermissions, none⟩
  | 2 => .denyGroupedPermission "group:app.com"

def startAskedTwice : WaiterPool Unit (Fin 4) := startPermissionCalls sampleManager () askedTwice

/-- What the caller waits for has come, and if it decides, the request under the ID is its own. -/
def mayStep (careful : Bool) (pool : WaiterPool Unit (Fin 4)) (caller : Fin 4) : Bool :=
  match (pool.task caller).program with
  | .await (.answer waiter) _ => (pool.store.answers waiter).isSome
  | .await (.flowTurn originator ticket) _ => (pool.store.groupedPermissionFlowTail originator).head? = some ticket
  | .await (.finish requestID entry _) _ => !careful || pool.store.activeRequests requestID = none || pool.store.activeRequests requestID = some entry
  | _ => true

theorem mayStep_steps (pool) (caller) (may : mayStep careful pool caller = true) :
    Steps pool caller := by
  intro op next awaiting
  unfold mayStep at may
  rw [awaiting] at may
  cases op with
  | answer waiter => exact Option.isSome_iff_ne_none.mp may
  | flowTurn originator ticket =>
    have turn := of_decide_eq_true may
    exact turn
  | _ => trivial

theorem mayStep_careful (pool) (caller) (may : mayStep true pool caller = true) :
    StepsCarefully (manifestOf todoPermissions) askedTwice pool caller := by
  have nobody : ∀ params, askedTwice caller ≠ .grantCounterpartyPermission params := by
    intro params
    match caller with
    | 0 | 1 | 2 | 3 => exact fun is => by cases is
  refine ⟨mayStep_steps pool caller may, fun op next awaiting => ⟨?_, ?_, ?_⟩⟩
  · unfold mayStep at may
    rw [awaiting] at may
    cases op with
    | finish requestID entry outcome => simpa [Deletes] using may
    | _ => trivial
  · exact fun params _ _ is => absurd is (nobody params)
  · exact fun params _ _ _ _ is => absurd is (nobody params)

/-- The request made meanwhile is deleted by the end of the grant, and nobody can answer it. -/
theorem waiters_lost :
    ∃ pool, Pool.Reaches (exec (manifestOf todoPermissions)) Steps startAskedTwice pool ∧ ¬ WaitersAnswered pool := by
  have runs : (startAskedTwice.followWhile (exec (manifestOf todoPermissions)) (mayStep false)
      (replicate 8 0 ++ replicate 4 1 ++ [2, 0, 0] ++ replicate 7 3 ++ [1])).map (fun pool =>
        (pool.store.keyOf 1, pool.store.pendingOf 1, (pool.store.answers 1).isNone, pool.store.activeRequests "group:app.com")) =
      some (some "group:app.com", [1], true, none) := by decide +kernel
  obtain ⟨pool, followed, ends⟩ := Option.map_eq_some_iff.mp runs
  simp only [Prod.mk.injEq] at ends
  obtain ⟨keyed, pending, open_, gone⟩ := ends
  refine ⟨pool, Pool.reaches_followWhile mayStep_steps followed, fun answered => ?_⟩
  have active := answered.active 1 "group:app.com" keyed ⟨1, by rw [pending]; exact mem_singleton_self 1, Option.isNone_iff_eq_none.mp open_⟩
  rw [gone] at active
  cases active

/-- The user grants the request and lets it be. -/
theorem waiters_answered_once :
    ∃ pool, Pool.Reaches (exec (manifestOf todoPermissions)) (StepsCarefully (manifestOf todoPermissions) askedTwice) startAskedTwice pool ∧
      (pool.store.answers 0).isSome = true ∧ WaitersAnswered pool := by
  have runs : (startAskedTwice.followWhile (exec (manifestOf todoPermissions)) (mayStep true)
      (replicate 8 0 ++ replicate 5 1 ++ replicate 3 0)).map (fun pool => (pool.store.answers 0).isSome) = some true := by
    decide +kernel
  obtain ⟨pool, followed, answered⟩ := Option.map_eq_some_iff.mp runs
  have reached := Pool.reaches_followWhile mayStep_careful followed
  exact ⟨pool, reached, answered, (waiters_answered reached).1⟩

end WalletToolbox
