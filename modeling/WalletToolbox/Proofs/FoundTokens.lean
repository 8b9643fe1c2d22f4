import WalletToolbox.Permissions.TokenSearch
import WalletToolbox.Proofs.PermissionChecks

/-! What a search for a permission token finds. It stops at the first token that matches,
expired or not, among the outputs of one page for each originator it looks up; so it is
complete exactly when that token serves whenever any does. -/

namespace WalletToolbox
open Async PermissionsManager List

inductive TokenCheck where
  | protocol (check : PermissionsManager.ProtocolCheck)
  | basket (check : PermissionsManager.BasketCheck)
  | certificate (check : PermissionsManager.CertificateCheck)

inductive TokenQuestion where
  | allowed
  | refused
  | asks (originator : String) (permission : Permission) (lookupValues : List String)
deriving DecidableEq

namespace TokenCheck

def seekPermission : TokenCheck → Bool
  | .protocol check => check.seekPermission
  | .basket check => check.seekPermission
  | .certificate check => check.seekPermission

def originator : TokenCheck → Option String
  | .protocol check => check.originator
  | .basket check => check.originator
  | .certificate check => check.originator

variable (manager : PermissionsManager)

def ensure : TokenCheck → PermissionsM Bool
  | .protocol check => manager.ensureProtocolPermission check
  | .basket check => manager.ensureBasketAccess check
  | .certificate check => manager.ensureCertificateAccess check

def isExempt : TokenCheck → Bool
  | .protocol check =>
    manager.isProtocolUsageTypeExempted check.usageType ||
      (!(check.privileged && manager.config.differentiatePrivilegedOperations) &&
        manager.isWhitelistedCounterpartyProtocol (if check.protocolID.level = 1 then "" else check.counterparty) check.protocolID)
  | .basket check => !manager.isBasketUsageRequired check.usageType
  | .certificate _ => !manager.config.seekCertificateDisclosurePermissions

def isOpen : TokenCheck → Bool
  | .protocol check => check.protocolID.level = 0
  | .basket _ | .certificate _ => false

def isAdminOnly : TokenCheck → Bool
  | .protocol check => isAdminProtocol check.protocolID
  | .basket check => isAdminBasket check.basket
  | .certificate _ => false

def permission : TokenCheck → Permission
  | .protocol check =>
    .protocol (check.privileged && manager.config.differentiatePrivilegedOperations) check.protocolID
      (if check.protocolID.level = 1 then "" else check.counterparty)
  | .basket check => .basket check.basket
  | .certificate check =>
    .certificate (check.privileged && manager.config.differentiatePrivilegedOperations) check.verifier check.certType check.fields

def question (check : TokenCheck) : TokenQuestion :=
  match prepareOriginator manager.platform check.originator with
  | .error _ => .refused
  | .ok prepared =>
    if manager.isAdminOriginator (some prepared.normalized) then .allowed
    else if check.isOpen then .allowed
    else if check.isAdminOnly then .refused
    else if check.isExempt manager then .allowed
    else .asks prepared.normalized (check.permission manager) prepared.lookupValues

end TokenCheck

section
variable {manager : PermissionsManager} {held : List HeldToken} {now : Nat} {others : Machine permissionsManager PermissionCaches}

def CheckSucceeds (manager : PermissionsManager) (held : List HeldToken) (now : Nat) (others : Machine permissionsManager PermissionCaches)
    (program : PermissionsM Bool) : Prop := (program.run (tokenWorld manager.platform held now others) {}).1 = .ok true

def HoldsToken (platform : Platform) (held : List HeldToken) (now : Nat) (originator : String) (permission : Permission) : Prop :=
  ∃ token ∈ held, tokenMatches platform originator permission token = true ∧ isTokenExpired now token.expiry = false

def FirstServes (platform : Platform) (now : Nat) (originator : String) (permission : Permission) (outputs : List HeldToken) : Prop :=
  ∃ before token after, outputs = before ++ token :: after ∧ (∀ earlier ∈ before, tokenMatches platform originator permission earlier = false) ∧
    tokenMatches platform originator permission token = true ∧ isTokenExpired now token.expiry = false

theorem foundToken_expiry (originator : String) (token) : (foundToken originator token).expiry = token.expiry := by
  unfold foundToken
  split <;> rfl

theorem firstServes_iff :
    FirstServes manager.platform now originator permission (tokenPages held originator permission lookupValues) ↔
      ∃ found, findToken manager.platform held originator permission lookupValues = some found ∧ isTokenExpired now found.expiry = false := by
  unfold findToken FirstServes
  constructor
  · rintro ⟨before, token, after, pages, unmatched, accepted, unexpired⟩
    have none : before.find? (tokenMatches manager.platform originator permission) = none := by
      rw [find?_eq_none]
      intro earlier member
      simp [unmatched earlier member]
    refine ⟨foundToken originator token, ?_, by rw [foundToken_expiry, unexpired]⟩
    rw [pages, find?_append, none, Option.none_or, find?_cons_of_pos accepted]
    rfl
  · rintro ⟨found, searched, unexpired⟩
    obtain ⟨token, first, rfl⟩ := Option.map_eq_some_iff.mp searched
    obtain ⟨accepted, before, after, pages, unmatched⟩ := find?_eq_some_iff_append.mp first
    rw [foundToken_expiry] at unexpired
    exact ⟨before, token, after, pages, fun earlier member => by simpa using unmatched earlier member, accepted, unexpired⟩

theorem mem_tokenPages
    (read : token ∈ tokenPages held originator permission lookupValues) : token ∈ held := by
  unfold tokenPages at read
  obtain ⟨_, _, listed⟩ := mem_flatMap.mp read
  exact (mem_filter.mp (mem_of_mem_take listed)).1

theorem FirstServes.holds
    (serves : FirstServes manager.platform now originator permission (tokenPages held originator permission lookupValues)) :
    HoldsToken manager.platform held now originator permission := by
  obtain ⟨before, token, after, pages, _, accepted, unexpired⟩ := serves
  exact ⟨token, mem_tokenPages (pages ▸ mem_append_right before (.head _)), accepted, unexpired⟩

theorem ensureToken_succeeds (request) (kind : ∀ satoshis lineItems, request.permission ≠ .spending satoshis lineItems)
    (lookupValues) (missing expired : String) :
    CheckSucceeds manager held now others (manager.ensureToken request lookupValues false missing expired) ↔
      FirstServes manager.platform now request.originator request.permission (tokenPages held request.originator request.permission lookupValues) := by
  have searched : tokenWorld manager.platform held now others (.findToken request.originator request.permission lookupValues) {} =
      (.ok (findToken manager.platform held request.originator request.permission lookupValues), {}) := by
    cases is : request.permission with
    | spending satoshis lineItems => exact (kind satoshis lineItems is).elim
    | _ => rfl
  have asked : (PermissionsOp.findToken request.originator request.permission lookupValues).await.run (tokenWorld manager.platform held now others) {} =
      (.ok (.ok (findToken manager.platform held request.originator request.permission lookupValues)), {}) := by
    show (Except.ok (tokenWorld manager.platform held now others (.findToken request.originator request.permission lookupValues) {}).1, _) = _
    rw [searched]
  have uncached : (PermissionsOp.isPermissionCached (manager.buildRequestKey request)).await.run (tokenWorld manager.platform held now others) {} =
      (.ok false, {}) := rfl
  have ungranted : (PermissionsOp.isRecentlyGranted (manager.buildRequestKey request)).await.run (tokenWorld manager.platform held now others) {} =
      (.ok false, {}) := rfl
  rw [firstServes_iff]
  unfold CheckSucceeds ensureToken
  simp only [Program.run_bind_of_ok uncached, Program.run_bind_of_ok ungranted, Program.run_bind_of_ok asked, Bool.false_eq_true, if_false, Bool.not_false, if_true]
  cases found : findToken manager.platform held request.originator request.permission lookupValues with
  | none =>
    constructor
    · intro succeeds
      cases succeeds
    · rintro ⟨found, is, _⟩
      cases is
  | some token =>
    have clock : (PermissionsOp.isTokenExpired token.expiry).await.run (tokenWorld manager.platform held now others) {} =
        (.ok (isTokenExpired now token.expiry), {}) := rfl
    have answered : ∀ next : Option PermissionToken → PermissionsM Bool,
        (Program.ofExcept (Except.ok (some token) : Except PermissionsError (Option PermissionToken)) >>= next) = next (some token) := fun _ => rfl
    rw [answered]
    simp only [Program.run_bind_of_ok clock]
    cases expired : isTokenExpired now token.expiry with
    | true =>
      constructor
      · intro succeeds
        cases succeeds
      · rintro ⟨found, is, serves⟩
        cases is
        rw [expired] at serves
        cases serves
    | false => exact ⟨fun _ => ⟨token, rfl, expired⟩, fun _ => rfl⟩

/-- What the search leaves of a question. -/
def TokenQuestion.Served (manager : PermissionsManager) (held : List HeldToken) (now : Nat) : TokenQuestion → Prop
  | .allowed => True
  | .refused => False
  | .asks originator permission lookupValues =>
    FirstServes manager.platform now originator permission (tokenPages held originator permission lookupValues)

def Answers (manager : PermissionsManager) (held : List HeldToken) (now : Nat) (others : Machine permissionsManager PermissionCaches)
    (program : PermissionsM Bool) (question : TokenQuestion) : Prop := CheckSucceeds manager held now others program ↔ question.Served manager held now

theorem Answers.refused (error) : Answers manager held now others (.fail error) .refused :=
  ⟨fun succeeds => (by cases succeeds), False.elim⟩

theorem Answers.allowed : Answers manager held now others (.done true) .allowed := ⟨fun _ => trivial, fun _ => rfl⟩

theorem Answers.ite [Decidable c]
    (met : c → Answers manager held now others first question) (unmet : ¬ c → Answers manager held now others second other) :
    Answers manager held now others (if c then first else second) (if c then question else other) := by
  by_cases holds : c
  · rw [if_pos holds, if_pos holds]
    exact met holds
  · rw [if_neg holds, if_neg holds]
    exact unmet holds

/-- Each check asks its question. -/
theorem ensure_answers (check : TokenCheck) (alone : check.seekPermission = false) :
    Answers manager held now others (check.ensure manager) (check.question manager) := by
  unfold TokenCheck.question TokenCheck.ensure
  cases check with
  | protocol check =>
    have alone : check.seekPermission = false := alone
    simp only [TokenCheck.isOpen, TokenCheck.isAdminOnly, TokenCheck.isExempt, TokenCheck.permission, TokenCheck.originator, decide_eq_true_eq]
    unfold ensureProtocolPermission
    cases prepareOriginator manager.platform check.originator with
    | error error => exact Answers.refused error
    | ok prepared =>
      apply Answers.ite fun _ => .allowed
      intro _
      apply Answers.ite fun _ => .allowed
      intro _
      apply Answers.ite fun _ => .refused _
      intro _
      by_cases exempted : manager.isProtocolUsageTypeExempted check.usageType = true
      · simp only [exempted, Bool.true_or, if_true]
        exact .allowed
      simp only [exempted, Bool.false_or, Bool.false_eq_true, if_false]
      apply Answers.ite fun _ => .allowed
      intro _
      rw [alone]
      exact ensureToken_succeeds _ (fun _ _ => by simp) _ _ _
  | basket check =>
    have alone : check.seekPermission = false := alone
    simp only [TokenCheck.isOpen, TokenCheck.isAdminOnly, TokenCheck.isExempt, TokenCheck.permission, TokenCheck.originator]
    unfold ensureBasketAccess
    cases prepareOriginator manager.platform check.originator with
    | error error => exact Answers.refused error
    | ok prepared =>
      apply Answers.ite fun _ => .allowed
      intro _
      apply Answers.ite fun _ => .refused _
      intro _
      apply Answers.ite fun _ => .allowed
      intro _
      rw [alone]
      exact ensureToken_succeeds _ (fun _ _ => by simp) _ _ _
  | certificate check =>
    have alone : check.seekPermission = false := alone
    simp only [TokenCheck.isOpen, TokenCheck.isAdminOnly, TokenCheck.isExempt, TokenCheck.permission, TokenCheck.originator]
    unfold ensureCertificateAccess
    cases prepareOriginator manager.platform check.originator with
    | error error => exact Answers.refused error
    | ok prepared =>
      apply Answers.ite fun _ => .allowed
      intro _
      apply Answers.ite fun _ => .allowed
      intro _
      rw [alone]
      exact ensureToken_succeeds _ (fun _ _ => by simp) _ _ _

/-- What the caller may do: what every caller may, or what a held token grants. -/
def Entitled (manager : PermissionsManager) (held : List HeldToken) (now : Nat) (check : TokenCheck) : Prop :=
  match check.question manager with
  | .allowed => True
  | .refused => False
  | .asks originator permission _ => HoldsToken manager.platform held now originator permission

def SearchServes (manager : PermissionsManager) (held : List HeldToken) (now : Nat) (check : TokenCheck) : Prop :=
  ∀ originator permission lookupValues, check.question manager = .asks originator permission lookupValues →
    HoldsToken manager.platform held now originator permission →
      FirstServes manager.platform now originator permission (tokenPages held originator permission lookupValues)

def ordersToken (txid : String) (expiry : Nat) : HeldToken :=
  { txid, outputIndex := 0, originator := "app.com", permission := .basket "orders", expiry }

def listOrders : TokenCheck :=
  .basket { originator := some "app.com", basket := "orders", reason := none, seekPermission := false, usageType := .listing }

/-- Nothing but lookups is made. -/
def noOthers : Machine permissionsManager PermissionCaches := fun op caches => ((allowing op ()).1, caches)

theorem listOrders_asks : listOrders.question sampleManager = .asks "app.com" (.basket "orders") ["app.com"] := by decide +kernel

end
end WalletToolbox
