import WalletToolbox.Authentication.CWIStyleWalletManager

/-! The methods of the wallet interface that the wallet managers offer to applications.
Each checks its caller and hands the call to the underlying wallet. -/

namespace WalletToolbox
open Async Effects

inductive WalletMethod where
  | getPublicKey | revealCounterpartyKeyLinkage | revealSpecificKeyLinkage
  | encrypt | decrypt | createHmac | verifyHmac | createSignature | verifySignature
  | createAction | signAction | abortAction | listActions | internalizeAction
  | listOutputs | relinquishOutput
  | acquireCertificate | listCertificates | proveCertificate | relinquishCertificate
  | discoverByIdentityKey | discoverByAttributes
  | isAuthenticated | waitForAuthentication
  | getHeight | getHeaderForHeight | getNetwork | getVersion
deriving DecidableEq, Repr

structure WalletValues where
  Args : Type
  Result : Type
  noArgs : Args
  authenticated : Result

inductive ProxyOp (values : WalletValues) (Wallet : Type) where
  | underlying (wallet : Wallet) (method : WalletMethod) (args : values.Args) (originator : Option String)
  | sleep

variable {values : WalletValues} {Wallet φ : Type}

@[reducible] def ProxyOp.Reply : ProxyOp values Wallet → Type
  | .underlying _ _ _ _ => Except WalletManagerError values.Result
  | .sleep => Unit

abbrev outsideProxy (values : WalletValues) (Wallet : Type) : Interface := ⟨ProxyOp values Wallet, ProxyOp.Reply⟩

abbrev ProxyM (values : WalletValues) (Wallet φ : Type) :=
  Program (sections WalletManagerError φ (outsideProxy values Wallet)) WalletManagerError

namespace ProxyM

def callWallet (wallet : Wallet) (method : WalletMethod) (args : values.Args) (originator : Option String) :
    ProxyM values Wallet φ values.Result :=
  .await (.outside (.underlying wallet method args originator)) .ofExcept

def sleep : ProxyM values Wallet φ Unit := .await (.outside .sleep) .done

def forward (check : Fallible WalletManagerError φ Unit) (underlying : φ → Option Wallet) (method : WalletMethod)
    (args : values.Args) (originator : Option String) : ProxyM values Wallet φ values.Result := do
  let fields ← Program.enter check
  let wallet ← .ofExcept (CWIStyleWalletManager.present (underlying fields))
  callWallet wallet method args originator

/-- Ask again until something is found, at most `polls` times. -/
def poll {α : Type} (found : φ → Option α) : Nat → ProxyM values Wallet φ (Option α)
  | 0 => return none
  | polls + 1 => do
    match found (← Program.enter (pure ())) with
    | some value => return some value
    | none =>
      sleep
      poll found polls

end ProxyM

namespace CWIStyleWalletManager
variable (adminOriginator : String)

def refuseAdmin (originator : Option String) : SectionM Unit :=
  Fallible.require (originator ≠ some adminOriginator)
    (.error "External applications are not allowed to use the admin originator.")

def checkAuthAndUnderlying (originator : Option String) : SectionM Unit := do
  let fields ← Fallible.current
  Fallible.require (fields.authenticated = true) (.error "User is not authenticated.")
  Fallible.require (fields.underlying ≠ none) (.error "Underlying wallet for the active profile is not initialized.")
  refuseAdmin adminOriginator originator

def proxy (method : WalletMethod) (args : values.Args) (originator : Option String) :
    ProxyM values ProfileWallet CWIStyleWalletManager values.Result :=
  ProxyM.forward (checkAuthAndUnderlying adminOriginator originator) CWIStyleWalletManager.underlying method args originator

def isAuthenticated (originator : Option String) : ProxyM values ProfileWallet CWIStyleWalletManager values.Result := do
  let _ ← Program.enter do
    let fields ← Fallible.current
    Fallible.require (fields.authenticated = true) (.error "User is not authenticated.")
    refuseAdmin adminOriginator originator
  return values.authenticated

def readyWallet (fields : CWIStyleWalletManager) : Option ProfileWallet := if fields.authenticated then fields.underlying else none

def waitForAuthentication (originator : Option String) (polls : Nat) :
    ProxyM values ProfileWallet CWIStyleWalletManager (Option values.Result) := do
  let _ ← Program.enter (refuseAdmin adminOriginator originator)
  match ← ProxyM.poll readyWallet polls with
  | none => return none
  | some wallet => return some (← ProxyM.callWallet wallet .waitForAuthentication values.noArgs originator)

/-- A call of an application. It has no result while it is waiting for the user to be
authenticated, for as long as `polls` rounds. -/
def call (method : WalletMethod) (args : values.Args) (originator : Option String) (polls : Nat) :
    ProxyM values ProfileWallet CWIStyleWalletManager (Option values.Result) :=
  match method with
  | .isAuthenticated => some <$> isAuthenticated adminOriginator originator
  | .waitForAuthentication => waitForAuthentication adminOriginator originator polls
  | .getHeight | .getNetwork | .getVersion => some <$> proxy adminOriginator method values.noArgs originator
  | _ => some <$> proxy adminOriginator method args originator

end CWIStyleWalletManager

structure SimpleWalletManager (Wallet : Type) where
  authenticated : Bool := false
  underlying : Option Wallet := none

namespace SimpleWalletManager
variable (adminOriginator : String)

def refuseAdmin (originator : Option String) : Fallible WalletManagerError (SimpleWalletManager Wallet) Unit :=
  Fallible.require (originator ≠ some adminOriginator) (.error "External applications cannot use the admin originator.")

def ensureCanCall (originator : Option String) : Fallible WalletManagerError (SimpleWalletManager Wallet) Unit := do
  refuseAdmin adminOriginator originator
  let fields ← Fallible.current
  Fallible.require (fields.authenticated = true) (.error "User is not authenticated.")

def proxy (method : WalletMethod) (args : values.Args) (originator : Option String) :
    ProxyM values Wallet (SimpleWalletManager Wallet) values.Result :=
  ProxyM.forward (ensureCanCall adminOriginator originator) SimpleWalletManager.underlying method args originator

def isAuthenticated (originator : Option String) : ProxyM values Wallet (SimpleWalletManager Wallet) values.Result := do
  let _ ← Program.enter (ensureCanCall adminOriginator originator)
  return values.authenticated

def waitForAuthentication (originator : Option String) (polls : Nat) :
    ProxyM values Wallet (SimpleWalletManager Wallet) (Option values.Result) := do
  let _ ← Program.enter (refuseAdmin adminOriginator originator)
  ProxyM.poll (fun fields => if fields.authenticated then some values.authenticated else none) polls

def call (method : WalletMethod) (args : values.Args) (originator : Option String) (polls : Nat) :
    ProxyM values Wallet (SimpleWalletManager Wallet) (Option values.Result) :=
  match method with
  | .isAuthenticated => some <$> isAuthenticated adminOriginator originator
  | .waitForAuthentication => waitForAuthentication adminOriginator originator polls
  | .getHeight | .getNetwork | .getVersion => some <$> proxy adminOriginator method values.noArgs originator
  | _ => some <$> proxy adminOriginator method args originator

end SimpleWalletManager
end WalletToolbox
