import WalletToolbox.Authentication.WalletProxies
import WalletToolbox.Proofs.PermissionChecks

/-! No application speaks as the administrator. A wallet manager turns down the originator
that is spelled as the admin originator; the permissions manager below it takes every
originator that normalizes to it for the administrator. -/

namespace Async.Program
open Effects
variable {J : Interface} {ε φ ω α β : Type}

/-- In these fields the method throws, and nothing it awaits has been started. -/
def Rejected (program : Program (sections ε φ J) ε α) (fields : φ) : Prop :=
  ∀ (ω : Type) (world : Machine J ω) (outer : ω),
    ∃ error, program.run world.withFields (fields, outer) = (.error error, (fields, outer))

theorem Rejected.bind {program : Program (sections ε φ J) ε α} {next : α → Program (sections ε φ J) ε β} {fields}
    (rejected : program.Rejected fields) : (program >>= next).Rejected fields := by
  intro ω world outer
  obtain ⟨error, ran⟩ := rejected ω world outer
  exact ⟨error, by rw [run_bind, ran]⟩

theorem Rejected.enter (throws : body fields = (.error error, fields)) :
    (enter body : Program (sections ε φ J) ε φ).Rejected fields := by
  intro ω world outer
  exact ⟨error, by rw [run_enter, throws]; rfl⟩

theorem Rejected.not_ok {program : Program (sections ε φ J) ε α} (rejected : program.Rejected fields)
    {world : Machine J ω} : (program.run world.withFields (fields, outer)).1 ≠ .ok value := by
  obtain ⟨error, ran⟩ := rejected ω world outer
  rw [ran]
  exact nofun

end Async.Program

namespace WalletToolbox
open Async Effects Program PermissionsManager

variable {values : WalletValues} {Wallet φ : Type}

def answering : Machine (outsideProxy values Wallet) Unit
  | .underlying _ _ _ _, _ => (.ok values.authenticated, ())
  | .sleep, _ => ((), ())

def Answered {α : Type} (program : ProxyM values Wallet φ α) (fields : φ) : Prop :=
  ∃ value, program.run answering.withFields (fields, ()) = (.ok value, (fields, ()))

theorem Answered.not_rejected {program : ProxyM values Wallet φ α} (answered : Answered program fields) :
    ¬ program.Rejected fields := by
  intro rejected
  obtain ⟨value, ran⟩ := answered
  exact rejected.not_ok (congrArg Prod.fst ran)

theorem Answered.bind {α β : Type} {program : ProxyM values Wallet φ α} {next : α → ProxyM values Wallet φ β} {fields value} (first : program.run answering.withFields (fields, ()) = (.ok value, (fields, ())))
    (rest : Answered (next value) fields) : Answered (program >>= next) fields := by
  obtain ⟨last, ran⟩ := rest
  exact ⟨last, by rw [run_bind, first]; exact ran⟩

theorem rejected_some_iff {program : ProxyM values Wallet φ α} :
    (some <$> program).Rejected fields ↔ program.Rejected fields := by
  rw [map_eq_pure_bind]
  constructor
  · intro rejected ω world outer
    obtain ⟨error, ran⟩ := rejected ω world outer
    rw [run_bind] at ran
    cases ended : program.run world.withFields (fields, outer) with
    | mk outcome after =>
      rw [ended] at ran
      cases outcome with
      | ok value =>
        have stuck := (Prod.mk.inj ran).1
        cases stuck
      | error thrown =>
        obtain ⟨-, rfl⟩ := Prod.mk.inj ran
        exact ⟨thrown, rfl⟩
  · exact Rejected.bind

namespace ProxyM
variable {check : Fallible WalletManagerError φ Unit} {underlying : φ → Option Wallet} {fields : φ}

theorem enter_answered (passes : check fields = (.ok (), fields)) :
    (enter check : ProxyM values Wallet φ φ).run answering.withFields (fields, ()) = (.ok fields, (fields, ())) := by
  rw [run_enter, passes]
  rfl

theorem enter_rejected_iff
    (passes : passing → check fields = (.ok (), fields)) (throws : ¬ passing → ∃ error, check fields = (.error error, fields))
    (rest : passing → Answered (next fields) fields) : (enter check >>= next).Rejected fields ↔ ¬ passing := by
  constructor
  · intro rejected holds
    exact (Answered.bind (enter_answered (passes holds)) (rest holds)).not_rejected rejected
  · intro fails
    obtain ⟨error, thrown⟩ := throws fails
    exact (Rejected.enter thrown).bind

theorem forward_missing (passes : check fields = (.ok (), fields)) (missing : underlying fields = none) (method)
    (args : values.Args) (originator) : (forward check underlying method args originator).Rejected fields := by
  intro ω world outer
  refine ⟨.error "Cannot read properties of undefined", ?_⟩
  rw [forward, run_bind, run_enter, passes]
  simp only [Except.map]
  rw [missing]
  rfl

theorem forward_rejected_iff (passes : passing → check fields = (.ok (), fields))
    (throws : ¬ passing → ∃ error, check fields = (.error error, fields)) (method : WalletMethod) (args : values.Args)
    (originator) :
    (forward check underlying method args originator).Rejected fields ↔ ¬ (passing ∧ underlying fields ≠ none) := by
  cases found : underlying fields with
  | none =>
    constructor
    · intro _ taken
      exact taken.2 rfl
    · intro _
      by_cases holds : passing
      · exact forward_missing (passes holds) found method args originator
      · obtain ⟨error, thrown⟩ := throws holds
        exact (Rejected.enter thrown).bind
  | some wallet =>
    have answers : Answered (do
        let wallet ← .ofExcept (CWIStyleWalletManager.present (underlying fields))
        callWallet wallet method args originator) fields := by
      rw [found]
      exact ⟨values.authenticated, rfl⟩
    rw [forward, enter_rejected_iff passes throws fun _ => answers]
    simp

theorem poll_run (found : φ → Option α) (polls : Nat) :
    ∃ ready, (poll found polls : ProxyM values Wallet φ _).run answering.withFields (fields, ()) = (.ok ready, (fields, ())) := by
  induction polls with
  | zero => exact ⟨none, rfl⟩
  | succ polls ih =>
    apply Answered.bind (enter_answered rfl)
    cases found fields with
    | some value => exact ⟨some value, rfl⟩
    | none => exact @Answered.bind _ _ _ _ _ _ _ _ () rfl ih

end ProxyM

namespace CWIStyleWalletManager
variable {adminOriginator : String} {originator : Option String} {fields : CWIStyleWalletManager}

/-- Whether a method goes on with a caller that is no administrator. -/
def Takes (fields : CWIStyleWalletManager) : WalletMethod → Prop
  | .waitForAuthentication => True
  | .isAuthenticated => fields.authenticated = true
  | _ => fields.authenticated = true ∧ fields.underlying ≠ none

theorem refuseAdmin_error (same : ¬ originator ≠ some adminOriginator) :
    ∃ error, refuseAdmin adminOriginator originator fields = (.error error, fields) := by
  refine ⟨.error "External applications are not allowed to use the admin originator.", ?_⟩
  rw [refuseAdmin, Fallible.require, if_neg same]
  rfl

theorem refuseAdmin_ok (other : originator ≠ some adminOriginator) :
    refuseAdmin adminOriginator originator fields = (.ok (), fields) := by
  rw [refuseAdmin, Fallible.require, if_pos other]
  rfl

theorem checkAuthAndUnderlying_error
    (refused : ¬ (originator ≠ some adminOriginator ∧ fields.authenticated = true ∧ fields.underlying ≠ none)) :
    ∃ error, checkAuthAndUnderlying adminOriginator originator fields = (.error error, fields) := by
  unfold checkAuthAndUnderlying Fallible.require
  rw [Fallible.current_bind_apply]
  by_cases authenticated : fields.authenticated = true
  · by_cases built : fields.underlying ≠ none
    · rw [if_pos authenticated, if_pos built]
      exact refuseAdmin_error fun other => refused ⟨other, authenticated, built⟩
    · rw [if_pos authenticated, if_neg built]
      exact ⟨_, rfl⟩
  · rw [if_neg authenticated]
    exact ⟨_, rfl⟩

theorem checkAuthAndUnderlying_ok
    (taken : originator ≠ some adminOriginator ∧ fields.authenticated = true ∧ fields.underlying ≠ none) :
    checkAuthAndUnderlying adminOriginator originator fields = (.ok (), fields) := by
  obtain ⟨other, authenticated, built⟩ := taken
  unfold checkAuthAndUnderlying Fallible.require
  rw [Fallible.current_bind_apply, if_pos authenticated, if_pos built]
  exact refuseAdmin_ok other

theorem proxy_rejected_iff (method : WalletMethod) (args : values.Args) :
    (proxy adminOriginator method args originator).Rejected fields ↔
      originator = some adminOriginator ∨ ¬ (fields.authenticated = true ∧ fields.underlying ≠ none) := by
  rw [proxy, ProxyM.forward_rejected_iff checkAuthAndUnderlying_ok checkAuthAndUnderlying_error]
  tauto

theorem isAuthenticated_rejected_iff :
    (isAuthenticated adminOriginator originator : ProxyM values _ _ _).Rejected fields ↔
      originator = some adminOriginator ∨ ¬ fields.authenticated = true := by
  have decides : (isAuthenticated adminOriginator originator : ProxyM values _ _ _).Rejected fields ↔
      ¬ (originator ≠ some adminOriginator ∧ fields.authenticated = true) := by
    refine ProxyM.enter_rejected_iff (fun taken => ?_) (fun refused => ?_) fun _ => ⟨values.authenticated, rfl⟩
    · rw [Fallible.current_bind_apply, Fallible.require, if_pos taken.2]
      exact refuseAdmin_ok taken.1
    · rw [Fallible.current_bind_apply, Fallible.require]
      split
      next authenticated => exact refuseAdmin_error fun other => refused ⟨other, authenticated⟩
      next => exact ⟨_, rfl⟩
  rw [decides]
  tauto

theorem waitForAuthentication_rejected_iff (polls : Nat) :
    (waitForAuthentication adminOriginator originator polls : ProxyM values _ _ _).Rejected fields ↔
      originator = some adminOriginator := by
  rw [waitForAuthentication, ProxyM.enter_rejected_iff refuseAdmin_ok refuseAdmin_error, not_not]
  intro _
  have polls_run : ∃ ready, (ProxyM.poll readyWallet polls : ProxyM values ProfileWallet _ _).run answering.withFields (fields, ()) = (.ok ready, (fields, ())) :=
    ProxyM.poll_run readyWallet polls
  obtain ⟨ready, polled⟩ := polls_run
  apply Answered.bind polled
  cases ready with
  | none => exact ⟨none, rfl⟩
  | some wallet => exact ⟨some values.authenticated, rfl⟩

theorem call_rejected_iff (method) (args : values.Args) (polls : Nat) :
    (call adminOriginator method args originator polls).Rejected fields ↔
      originator = some adminOriginator ∨ ¬ fields.Takes method := by
  cases method with
  | isAuthenticated => exact rejected_some_iff.trans isAuthenticated_rejected_iff
  | waitForAuthentication =>
    rw [Takes, not_true, or_false]
    exact waitForAuthentication_rejected_iff polls
  | getHeight | getNetwork | getVersion => exact rejected_some_iff.trans (proxy_rejected_iff _ _)
  | _ => exact rejected_some_iff.trans (proxy_rejected_iff _ _)

end CWIStyleWalletManager

namespace SimpleWalletManager
variable {adminOriginator : String} {originator : Option String} {fields : SimpleWalletManager Wallet}

/-- Whether a method goes on with a caller that is no administrator. -/
def Takes (fields : SimpleWalletManager Wallet) : WalletMethod → Prop
  | .waitForAuthentication => True
  | .isAuthenticated => fields.authenticated = true
  | _ => fields.authenticated = true ∧ fields.underlying ≠ none

theorem refuseAdmin_error (same : ¬ originator ≠ some adminOriginator) :
    ∃ error, refuseAdmin adminOriginator originator fields = (.error error, fields) := by
  refine ⟨.error "External applications cannot use the admin originator.", ?_⟩
  rw [refuseAdmin, Fallible.require, if_neg same]
  rfl

theorem refuseAdmin_ok (other : originator ≠ some adminOriginator) :
    refuseAdmin adminOriginator originator fields = (.ok (), fields) := by
  rw [refuseAdmin, Fallible.require, if_pos other]
  rfl

theorem ensureCanCall_error (refused : ¬ (originator ≠ some adminOriginator ∧ fields.authenticated = true)) :
    ∃ error, ensureCanCall adminOriginator originator fields = (.error error, fields) := by
  by_cases other : originator ≠ some adminOriginator
  · have unauthenticated : ¬ fields.authenticated = true := fun authenticated => refused ⟨other, authenticated⟩
    rw [ensureCanCall, Fallible.bind_of_ok (refuseAdmin_ok other), Fallible.current_bind_apply, Fallible.require, if_neg unauthenticated]
    exact ⟨_, rfl⟩
  · obtain ⟨error, throws⟩ := @refuseAdmin_error _ _ _ fields other
    exact ⟨error, Fallible.bind_of_error throws⟩

theorem ensureCanCall_ok (taken : originator ≠ some adminOriginator ∧ fields.authenticated = true) :
    ensureCanCall adminOriginator originator fields = (.ok (), fields) := by
  rw [ensureCanCall, Fallible.bind_of_ok (refuseAdmin_ok taken.1), Fallible.current_bind_apply, Fallible.require, if_pos taken.2]
  rfl

theorem proxy_rejected_iff (method) (args : values.Args) :
    (proxy adminOriginator method args originator).Rejected fields ↔
      originator = some adminOriginator ∨ ¬ (fields.authenticated = true ∧ fields.underlying ≠ none) := by
  rw [proxy, ProxyM.forward_rejected_iff ensureCanCall_ok ensureCanCall_error]
  tauto

theorem isAuthenticated_rejected_iff :
    (isAuthenticated adminOriginator originator : ProxyM values Wallet _ _).Rejected fields ↔
      originator = some adminOriginator ∨ ¬ fields.authenticated = true := by
  rw [isAuthenticated, ProxyM.enter_rejected_iff ensureCanCall_ok ensureCanCall_error fun _ => ⟨values.authenticated, rfl⟩]
  tauto

theorem waitForAuthentication_rejected_iff (polls : Nat) :
    (waitForAuthentication adminOriginator originator polls : ProxyM values Wallet _ _).Rejected fields ↔
      originator = some adminOriginator := by
  rw [waitForAuthentication, ProxyM.enter_rejected_iff refuseAdmin_ok refuseAdmin_error, not_not]
  exact fun _ => ProxyM.poll_run _ polls

theorem call_rejected_iff (method) (args : values.Args) (polls : Nat) :
    (call adminOriginator method args originator polls).Rejected fields ↔
      originator = some adminOriginator ∨ ¬ fields.Takes method := by
  cases method with
  | isAuthenticated => exact rejected_some_iff.trans isAuthenticated_rejected_iff
  | waitForAuthentication =>
    rw [Takes, not_true, or_false]
    exact waitForAuthentication_rejected_iff polls
  | getHeight | getNetwork | getVersion => exact rejected_some_iff.trans (proxy_rejected_iff _ _)
  | _ => exact rejected_some_iff.trans (proxy_rejected_iff _ _)

end SimpleWalletManager

end WalletToolbox
