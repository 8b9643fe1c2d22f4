import WalletToolbox.Permissions.PermissionFlows

/-! What the permission checks await on their way to a prompt: they join requests and wait
for answers, and leave the decisions to others. -/

namespace WalletToolbox
open Async PermissionsManager

def Checking (op : RequestsOp) : Prop :=
  match op with
  | .decide _ _ | .find _ | .finish _ _ _ => False
  | _ => True

structure OnlyChecks {α : Type} (program : FlowM α) : Prop where
  uses : program.Uses Checking

section
variable {α β : Type} {manager : PermissionsManager} {originator key : String} {request : PermissionRequest}

theorem OnlyChecks.done (value : α) : OnlyChecks (.done value) := ⟨trivial⟩

theorem OnlyChecks.bind {program : FlowM α} {next : α → FlowM β} (first : OnlyChecks program) (rest : ∀ value, OnlyChecks (next value)) :
    OnlyChecks (program >>= next) := ⟨first.uses.bind fun value => (rest value).uses⟩

theorem OnlyChecks.map {program : FlowM α} (first : OnlyChecks program) (result : α → β) :
    OnlyChecks (program >>= fun value => .done (result value)) := first.bind fun _ => .done _

theorem OnlyChecks.ite [Decidable condition] (left : OnlyChecks first) (right : OnlyChecks second) :
    OnlyChecks (if condition then first else second) := ⟨left.uses.ite right.uses⟩

theorem OnlyChecks.ofExcept (result : Except PermissionsError α) : OnlyChecks (.ofExcept result) := ⟨.ofExcept result⟩

theorem OnlyChecks.mapM (checks : ∀ value, OnlyChecks (each value)) (values : List α) :
    OnlyChecks (values.mapM each) := ⟨.mapM (fun value => (checks value).uses) values⟩

theorem OnlyChecks.await (op) (checking : Checking op) : OnlyChecks op.await := ⟨checking, fun _ => trivial⟩

theorem OnlyChecks.outside (op : FlowOp) : OnlyChecks op.await := .await (.outside op) trivial

theorem OnlyChecks.awaitAnswer (waiter : Nat) : OnlyChecks (awaitAnswer waiter) :=
  OnlyChecks.bind (.await (.answer waiter) trivial) fun answer => .ofExcept answer

theorem implementLookup_uses (op) : (implementLookup op).Uses Checking := by
  cases op with
  | requestPermissionFlow _ => trivial
  | _ => exact ⟨trivial, fun _ => trivial⟩

theorem has_checks (check : PermissionsM Bool) : OnlyChecks (has check) := by
  have looked : OnlyChecks (check.translate implementLookup fun _ => answered) := ⟨.translate implementLookup_uses check⟩
  exact ⟨Program.Uses.handle (looked.map fun _ => true).uses fun _ => trivial⟩

theorem hasRequested_checks (request) : OnlyChecks (manager.hasRequested request) := by
  unfold hasRequested
  cases request.permission <;> exact has_checks _

theorem satisfied_checks (request : PermissionRequest) : OnlyChecks (manager.satisfied request) := by
  unfold satisfied
  exact .bind (hasRequested_checks request) fun _ => .ite (.done _) (.done _)

theorem missing_checks {has : α → FlowM Bool} (checks : ∀ item, OnlyChecks (has item)) :
    OnlyChecks (missing items has) := by
  unfold missing
  exact .map (.mapM (fun item => .map (checks item) _) items) _

theorem filterAlreadyGrantedPermissions_checks (permissions : GroupedPermissions) :
    OnlyChecks (manager.filterAlreadyGrantedPermissions originator permissions) := by
  unfold filterAlreadyGrantedPermissions
  apply OnlyChecks.bind (missing_checks fun _ => has_checks _)
  intro spending
  apply OnlyChecks.bind (missing_checks fun _ => has_checks _)
  intro protocols
  apply OnlyChecks.bind (missing_checks fun _ => has_checks _)
  intro baskets
  exact .map (missing_checks fun _ => has_checks _) _

theorem joinAndWait_checks (event : RequestEvent) (key : String) (request : RequestData) (merges : Bool) :
    OnlyChecks (joinAndWait event key request merges) := by
  unfold joinAndWait
  apply OnlyChecks.bind (.await (.joinOrCreate key request merges) trivial)
  intro joined
  apply OnlyChecks.ite
  · exact .bind (.outside _) fun _ => .awaitAnswer _
  · exact .awaitAnswer _

theorem hasPactEstablished_checks (counterparty : String) : OnlyChecks (manager.hasPactEstablished originator counterparty) := by
  unfold hasPactEstablished
  apply OnlyChecks.ite (.done _)
  apply OnlyChecks.bind (.outside _)
  intro known
  apply OnlyChecks.ite (.done _)
  apply OnlyChecks.bind (.outside _)
  intro manifest
  split
  · exact .done _
  · apply OnlyChecks.bind (has_checks _)
    intro held
    exact .ite (.map (.outside _) _) (.done _)

theorem requestPact_checks (protocolID : WalletProtocol) (counterparty : String) (permissions : CounterpartyPermissions) :
    OnlyChecks (manager.requestPact request protocolID counterparty permissions) := by
  unfold requestPact
  apply OnlyChecks.bind (missing_checks fun _ => has_checks _)
  intro protocols
  apply OnlyChecks.ite
  · exact .map (.outside _) _
  · apply OnlyChecks.bind (joinAndWait_checks ..)
    intro answer
    apply OnlyChecks.bind (.outside _)
    intro marked
    exact .bind (has_checks _) fun _ => .ite (.done _) (.done _)

theorem maybeRequestPact_checks : OnlyChecks (manager.maybeRequestPact request) := by
  unfold maybeRequestPact
  apply OnlyChecks.ite (.done _)
  apply OnlyChecks.bind (.outside _)
  intro handled
  apply OnlyChecks.ite (.done _)
  split
  · apply OnlyChecks.ite (.done _)
    apply OnlyChecks.bind (.outside _)
    intro manifest
    split
    · exact .done _
    · apply OnlyChecks.ite (.done _)
      apply OnlyChecks.bind (hasPactEstablished_checks _)
      intro established
      exact .ite (.done _) (requestPact_checks ..)
  · exact .done _

theorem maybeRequestPeer_checks : OnlyChecks (manager.maybeRequestPeerGroupedLevel2ProtocolPermissions request) := by
  unfold maybeRequestPeerGroupedLevel2ProtocolPermissions
  apply OnlyChecks.ite (.done _)
  apply OnlyChecks.bind (.outside _)
  intro handled
  apply OnlyChecks.ite (.done _)
  split
  · apply OnlyChecks.ite (.done _)
    apply OnlyChecks.bind (.outside _)
    intro manifest
    split
    · exact .done _
    · apply OnlyChecks.ite (.done _)
      apply OnlyChecks.bind (missing_checks fun _ => has_checks _)
      intro protocols
      apply OnlyChecks.ite (.done _)
      exact .bind (joinAndWait_checks ..) fun _ => satisfied_checks _
  · exact .done _

theorem maybeRequestGroupedPermissions_checks : OnlyChecks (manager.maybeRequestGroupedPermissions request) := by
  unfold maybeRequestGroupedPermissions
  apply OnlyChecks.ite (.done _)
  apply OnlyChecks.bind (.outside _)
  intro manifest
  split
  · exact .done _
  · apply OnlyChecks.ite (.done _)
    apply OnlyChecks.bind (filterAlreadyGrantedPermissions_checks _)
    intro permissions
    apply OnlyChecks.ite (.done _)
    exact .bind (joinAndWait_checks ..) fun _ => satisfied_checks _

theorem withGroupedPermissionFlowLock_checks {flow : FlowM α} (checks : OnlyChecks flow) :
    OnlyChecks (withGroupedPermissionFlowLock originator flow) := by
  unfold withGroupedPermissionFlowLock
  apply OnlyChecks.bind (.await (.enterFlow originator) trivial)
  intro turn
  apply OnlyChecks.bind (.await (.flowTurn originator turn.ticket) trivial)
  intro here
  have left : OnlyChecks (RequestsOp.leaveFlow originator turn.ticket).await := .await _ trivial
  exact .map ⟨checks.uses.ensuring left.uses⟩ _

theorem resolveGroupedFlow_checks : OnlyChecks (manager.resolveGroupedFlow request) := by
  unfold resolveGroupedFlow
  apply OnlyChecks.ite maybeRequestGroupedPermissions_checks
  apply OnlyChecks.bind (withGroupedPermissionFlowLock_checks maybeRequestGroupedPermissions_checks)
  intro result
  split
  · exact .done _
  · exact .ite (satisfied_checks _) (.done _)

theorem enqueueAndFireEvent_checks : OnlyChecks (enqueueAndFireEvent request key) := by
  unfold enqueueAndFireEvent
  apply OnlyChecks.bind (.await (.enqueue key (.single request)) trivial)
  intro joined
  apply OnlyChecks.ite
  · exact .bind (.outside _) fun _ => .awaitAnswer _
  · exact .awaitAnswer _

theorem requestPermissionFlow_checks (request : PermissionRequest) : OnlyChecks (manager.requestPermissionFlow request) := by
  unfold requestPermissionFlow
  apply OnlyChecks.bind (.await (.piggyback _) trivial)
  intro joined
  split
  · exact .awaitAnswer _
  · apply OnlyChecks.bind maybeRequestPact_checks
    intro pact
    split
    · exact .done _
    · apply OnlyChecks.bind maybeRequestPeer_checks
      intro peer
      split
      · exact .done _
      · apply OnlyChecks.bind resolveGroupedFlow_checks
        intro grouped
        split
        · exact .done _
        · exact enqueueAndFireEvent_checks

theorem checked_checks (program : PermissionsM α) : OnlyChecks (manager.checked program) := by
  have implemented : ∀ op, (manager.implementCheck op).Uses Checking := by
    intro op
    cases op with
    | requestPermissionFlow request => exact (requestPermissionFlow_checks request).uses.settle
    | _ => exact ⟨trivial, fun _ => trivial⟩
  exact .map ⟨.translate implemented program⟩ _

theorem waitForAuthentication_checks (originator : String) : OnlyChecks (manager.waitForAuthentication originator) := by
  have authenticates : OnlyChecks (do .ofExcept (← FlowOp.waitForAuthentication.await) : FlowM Unit) :=
    .bind (.outside _) fun answer => .ofExcept answer
  unfold waitForAuthentication
  apply OnlyChecks.ite
  · apply OnlyChecks.bind (.ofExcept _)
    intro prepared
    refine OnlyChecks.bind (withGroupedPermissionFlowLock_checks ?_) fun _ => authenticates
    apply OnlyChecks.bind (.outside _)
    intro manifest
    split
    · exact .done _
    · apply OnlyChecks.bind (filterAlreadyGrantedPermissions_checks _)
      intro permissions
      exact .ite (.done _) (.map (joinAndWait_checks ..) _)
  · exact authenticates

theorem markRecentGrant_checks (request) : OnlyChecks (manager.markRecentGrant request) := by
  unfold markRecentGrant
  split
  · exact .done _
  all_goals exact .outside _

theorem findGrantItems_checks (lookupValues : List String) (expiry : Nat) (requests) :
    OnlyChecks (findGrantItems lookupValues expiry requests) := by
  unfold findGrantItems
  refine OnlyChecks.map (.mapM (fun request => ?_) requests) _
  apply OnlyChecks.bind (.outside _)
  intro token
  exact .map (.ofExcept token) _

theorem makeTokens_checks (items : GrantItems) : OnlyChecks (manager.makeTokens items) := by
  unfold makeTokens
  apply OnlyChecks.bind (.outside _)
  intro created
  apply OnlyChecks.bind (.outside _)
  intro renewed
  exact ⟨.forM (fun request => (markRecentGrant_checks request).uses) _⟩

theorem grantGrouped_checks (params : GroupedGrantParams) (request) : OnlyChecks (manager.grantGrouped params request) := by
  unfold grantGrouped
  apply OnlyChecks.bind (.ofExcept _)
  intro valid
  exact .bind (findGrantItems_checks ..) fun _ => makeTokens_checks _

end
end WalletToolbox
