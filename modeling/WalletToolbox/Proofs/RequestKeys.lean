import Mathlib
import WalletToolbox.Language.Separators
import WalletToolbox.Permissions.TokenSearch

/-! The keys of permission requests. A key joins what a request holds with separators that the
fields may hold themselves, so two requests have the same key when one field runs on into
the next; and then a decision about one answers the other. -/

namespace WalletToolbox
open Text

theorem toString_bool_plain (flag : Bool) : ':' ∉ (toString flag).toList := by cases flag <;> decide

theorem toString_level_plain (level : SecurityLevel) : ',' ∉ (toString level.val).toList := by
  match level with
  | 0 | 1 | 2 => decide

theorem toString_level_inj {first second : SecurityLevel} : toString first.val = toString second.val ↔ first = second :=
  ⟨fun same => Fin.ext (Nat.repr_inj.mp same), fun same => by rw [same]⟩

theorem repr_nat_plain (n : Nat) : ':' ∉ (Nat.repr n).toList := by
  intro colon
  rw [Nat.repr, String.toList_ofList] at colon
  exact absurd (Nat.isDigit_of_mem_toDigits (by decide) (by decide) colon) (by decide)

theorem toString_int_plain (n : Int) : ':' ∉ (toString n).toList := by
  cases n with
  | ofNat n => exact repr_nat_plain n
  | negSucc n =>
    show ':' ∉ ("-" ++ Nat.repr (n + 1)).toList
    rw [String.toList_append, List.mem_append]
    rintro (minus | digit)
    · exact absurd minus (by decide)
    · exact repr_nat_plain (n + 1) digit

/-- The two permissions are the same one; the fields of a certificate are compared as sets. -/
def Permission.Same : Permission → Permission → Prop
  | .protocol privileged protocolID counterparty, .protocol privileged' protocolID' counterparty' =>
    privileged = privileged' ∧ protocolID = protocolID' ∧ counterparty = counterparty'
  | .basket name, .basket name' => name = name'
  | .certificate privileged verifier certType fields, .certificate privileged' verifier' certType' fields' =>
    privileged = privileged' ∧ verifier = verifier' ∧ certType = certType' ∧ ∀ field, field ∈ fields ↔ field ∈ fields'
  | .spending satoshis _, .spending satoshis' _ => satoshis = satoshis'
  | _, _ => False

def RunOn (first rest second after : String) : Prop := RunsOn ":" first rest second after ∨ RunsOn ":" second after first rest

theorem cut_colon : a ++ ":" ++ s = b ++ ":" ++ t ↔ (a = b ∧ s = t) ∨ RunOn a s b t := cut rfl

theorem RunOn.ne (onward : RunOn a s b t) : a ≠ b :=
  onward.elim (fun first => first.ne (by decide)) fun second => (second.ne (by decide)).symm

namespace PermissionsManager
variable (manager : PermissionsManager)

def SamePermission (first second : PermissionRequest) : Prop :=
  normalizeOriginator manager.platform (some first.originator) = normalizeOriginator manager.platform (some second.originator) ∧
    first.permission.Same second.permission

def keyOf (active : Bool) (request : PermissionRequest) : String :=
  if active then manager.buildActiveRequestKey request else manager.buildRequestKey request

def keyEnd (active : Bool) (request : PermissionRequest) : String := if active then ":" ++ request.usageType else ""

def protocolRest (active : Bool) (request : PermissionRequest) (privileged : Bool) (protocolID : WalletProtocol) (counterparty : String) : String :=
  toString privileged ++ ":" ++ (toString protocolID.level.val ++ "," ++ (protocolID.name ++ ":" ++ (counterparty ++ keyEnd active request)))

def certificateRest (active : Bool) (request : PermissionRequest) (privileged : Bool) (verifier certType : String) (fields : List String) : String :=
  toString privileged ++ ":" ++ (verifier ++ ":" ++ (certType ++ ":" ++ ("|".intercalate fields ++ keyEnd active request)))

/-- The requests are for permissions of one kind, and a field of one runs on into what the
other has in its next fields; or the last fields read the same and are not. -/
def Confusable (active : Bool) (first second : PermissionRequest) : Prop :=
  let origin := normalizeOriginator manager.platform (some first.originator)
  let origin' := normalizeOriginator manager.platform (some second.originator)
  match first.permission, second.permission with
  | .protocol privileged protocolID counterparty, .protocol privileged' protocolID' counterparty' =>
    RunOn origin (protocolRest active first privileged protocolID counterparty) origin' (protocolRest active second privileged' protocolID' counterparty') ∨
    (origin = origin' ∧ privileged = privileged' ∧ protocolID.level = protocolID'.level ∧
      (RunOn protocolID.name (counterparty ++ keyEnd active first) protocolID'.name (counterparty' ++ keyEnd active second) ∨
        (protocolID.name = protocolID'.name ∧ counterparty ≠ counterparty' ∧ counterparty ++ keyEnd active first = counterparty' ++ keyEnd active second)))
  | .basket basket, .basket basket' =>
    RunOn origin (basket ++ keyEnd active first) origin' (basket' ++ keyEnd active second) ∨
    (origin = origin' ∧ basket ≠ basket' ∧ basket ++ keyEnd active first = basket' ++ keyEnd active second)
  | .certificate privileged verifier certType fields, .certificate privileged' verifier' certType' fields' =>
    RunOn origin (certificateRest active first privileged verifier certType fields) origin' (certificateRest active second privileged' verifier' certType' fields') ∨
    (origin = origin' ∧ privileged = privileged' ∧
      (RunOn verifier (certType ++ ":" ++ ("|".intercalate fields ++ keyEnd active first)) verifier' (certType' ++ ":" ++ ("|".intercalate fields' ++ keyEnd active second)) ∨
        (verifier = verifier' ∧
          (RunOn certType ("|".intercalate fields ++ keyEnd active first) certType' ("|".intercalate fields' ++ keyEnd active second) ∨
            (certType = certType' ∧ "|".intercalate fields ++ keyEnd active first = "|".intercalate fields' ++ keyEnd active second ∧
              ¬ ∀ field, field ∈ fields ↔ field ∈ fields')))))
  | _, _ => False

section
variable {manager} {active : Bool} {first second : PermissionRequest}

theorem keyOf_protocol
    (is : request.permission = .protocol privileged protocolID counterparty) : manager.keyOf active request =
      "proto:" ++ (normalizeOriginator manager.platform (some request.originator) ++ ":" ++ protocolRest active request privileged protocolID counterparty) := by
  cases active <;> simp [keyOf, buildActiveRequestKey, buildRequestKey, is, protocolRest, keyEnd, String.append_assoc]

theorem keyOf_basket (is : request.permission = .basket basket) : manager.keyOf active request =
    "basket:" ++ (normalizeOriginator manager.platform (some request.originator) ++ ":" ++ (basket ++ keyEnd active request)) := by
  cases active <;> simp [keyOf, buildActiveRequestKey, buildRequestKey, is, keyEnd, String.append_assoc]

theorem keyOf_certificate
    (is : request.permission = .certificate privileged verifier certType fields) : manager.keyOf active request =
      "cert:" ++ (normalizeOriginator manager.platform (some request.originator) ++ ":" ++ certificateRest active request privileged verifier certType fields) := by
  cases active <;> simp [keyOf, buildActiveRequestKey, buildRequestKey, is, certificateRest, keyEnd, String.append_assoc]

theorem keyOf_spending
    (is : request.permission = .spending satoshis lineItems) : manager.keyOf active request =
      "spend:" ++ (normalizeOriginator manager.platform (some request.originator) ++ ":" ++ toString satoshis) := by
  cases active <;> simp [keyOf, buildActiveRequestKey, buildRequestKey, is, String.append_assoc]

theorem prefix_cancel {start a b : String} : start ++ a = start ++ b ↔ a = b := String.append_right_inj start

theorem protocolRest_eq {protocolID protocolID' counterparty counterparty'} :
    protocolRest active first privileged protocolID counterparty = protocolRest active second privileged' protocolID' counterparty' ↔
      privileged = privileged' ∧ protocolID.level = protocolID'.level ∧
        ((protocolID.name = protocolID'.name ∧ counterparty ++ keyEnd active first = counterparty' ++ keyEnd active second) ∨
          RunOn protocolID.name (counterparty ++ keyEnd active first) protocolID'.name (counterparty' ++ keyEnd active second)) := by
  have flags : toString privileged = toString privileged' ↔ privileged = privileged' := by cases privileged <;> cases privileged' <;> decide
  unfold protocolRest
  rw [cut_plain rfl (toString_bool_plain _) (toString_bool_plain _), cut_plain rfl (toString_level_plain _) (toString_level_plain _), cut_colon,
    flags, toString_level_inj]

theorem certificateRest_eq :
    certificateRest active first privileged verifier certType fields = certificateRest active second privileged' verifier' certType' fields' ↔
      privileged = privileged' ∧
        ((verifier = verifier' ∧
          ((certType = certType' ∧ "|".intercalate fields ++ keyEnd active first = "|".intercalate fields' ++ keyEnd active second) ∨
            RunOn certType ("|".intercalate fields ++ keyEnd active first) certType' ("|".intercalate fields' ++ keyEnd active second))) ∨
          RunOn verifier (certType ++ ":" ++ ("|".intercalate fields ++ keyEnd active first)) verifier'
            (certType' ++ ":" ++ ("|".intercalate fields' ++ keyEnd active second))) := by
  have flags : toString privileged = toString privileged' ↔ privileged = privileged' := by cases privileged <;> cases privileged' <;> decide
  unfold certificateRest
  rw [cut_plain rfl (toString_bool_plain _) (toString_bool_plain _), cut_colon, cut_colon, flags]

def kindLetter : Permission → Char
  | .protocol _ _ _ => 'p'
  | .basket _ => 'b'
  | .certificate _ _ _ _ => 'c'
  | .spending _ _ => 's'

theorem keyOf_head (request : PermissionRequest) : (manager.keyOf active request).toList.head? = some (kindLetter request.permission) := by
  cases is : request.permission with
  | protocol _ _ _ => rw [keyOf_protocol is, String.toList_append]; rfl
  | basket _ => rw [keyOf_basket is, String.toList_append]; rfl
  | certificate _ _ _ _ => rw [keyOf_certificate is, String.toList_append]; rfl
  | spending _ _ => rw [keyOf_spending is, String.toList_append]; rfl

theorem kind_eq (same : manager.keyOf active first = manager.keyOf active second) : kindLetter first.permission = kindLetter second.permission := by
  have heads := congrArg (fun key : String => key.toList.head?) same
  simp only [keyOf_head] at heads
  exact Option.some.inj heads

theorem confusable_kind (confusable : manager.Confusable active first second) : kindLetter first.permission = kindLetter second.permission := by
  unfold Confusable at confusable
  split at confusable
  · next is is' => rw [is, is']; rfl
  · next is is' => rw [is, is']; rfl
  · next is is' => rw [is, is']; rfl
  · exact confusable.elim

theorem shifted (apart : runs → ¬ same) : (same ∧ rest ∨ runs) ∧ ¬ (same ∧ more) ↔ runs ∨ (same ∧ rest ∧ ¬ more) := by
  tauto

theorem under : (same ∧ rest) ∧ ¬ (same ∧ more) ↔ same ∧ rest ∧ ¬ more := by tauto

theorem confusable_iff : manager.Confusable active first second ↔
    manager.keyOf active first = manager.keyOf active second ∧ ¬ manager.SamePermission first second := by
  by_cases kind : kindLetter first.permission = kindLetter second.permission
  swap
  · exact ⟨fun confusable => (kind (confusable_kind confusable)).elim, fun same => (kind (kind_eq same.1)).elim⟩
  cases is : first.permission with
  | protocol privileged protocolID counterparty =>
    cases is' : second.permission with
    | protocol privileged' protocolID' counterparty' =>
      obtain ⟨level, name⟩ := protocolID
      obtain ⟨level', name'⟩ := protocolID'
      rw [keyOf_protocol is, keyOf_protocol is', prefix_cancel, cut_colon, protocolRest_eq]
      simp only [Confusable, is, is', SamePermission, Permission.Same, WalletProtocol.mk.injEq]
      rw [shifted RunOn.ne, under, @and_assoc (level = level') (name = name'), under, shifted RunOn.ne, @and_comm (counterparty ≠ counterparty')]
    | _ => rw [is, is'] at kind; cases kind
  | basket basket =>
    cases is' : second.permission with
    | basket basket' =>
      rw [keyOf_basket is, keyOf_basket is', prefix_cancel, cut_colon]
      simp only [Confusable, is, is', SamePermission, Permission.Same]
      rw [shifted RunOn.ne, @and_comm (basket ≠ basket')]
    | _ => rw [is, is'] at kind; cases kind
  | certificate privileged verifier certType fields =>
    cases is' : second.permission with
    | certificate privileged' verifier' certType' fields' =>
      rw [keyOf_certificate is, keyOf_certificate is', prefix_cancel, cut_colon, certificateRest_eq]
      simp only [Confusable, is, is', SamePermission, Permission.Same]
      rw [shifted RunOn.ne, under, shifted RunOn.ne, shifted RunOn.ne]
    | _ => rw [is, is'] at kind; cases kind
  | spending satoshis lineItems =>
    cases is' : second.permission with
    | spending satoshis' lineItems' =>
      have amounts : toString satoshis = toString satoshis' ↔ satoshis = satoshis' := Int.repr_inj
      have origins : ¬ RunOn (normalizeOriginator manager.platform (some first.originator)) (toString satoshis)
          (normalizeOriginator manager.platform (some second.originator)) (toString satoshis') := by
        rintro (⟨more, _, rest⟩ | ⟨more, _, rest⟩)
        · exact toString_int_plain satoshis (by rw [rest]; simp [String.toList_append])
        · exact toString_int_plain satoshis' (by rw [rest]; simp [String.toList_append])
      rw [keyOf_spending is, keyOf_spending is', prefix_cancel, cut_colon, amounts]
      simp only [Confusable, is, is', SamePermission, Permission.Same]
      tauto
    | _ => rw [is, is'] at kind; cases kind

theorem cached_key
    (cached : ((({} : PermissionCaches).cachePermission now key expiry).isPermissionCached later other).1 = true) : key = other := by
  by_contra different
  have absent : (({} : PermissionCaches).cachePermission now key expiry).permissionCache other = none :=
    Function.update_of_ne (Ne.symm different) _ _
  unfold PermissionCaches.isPermissionCached at cached
  rw [absent] at cached
  cases cached

theorem granted_key
    (granted : ((({} : PermissionCaches).markRecentGrant now key).isRecentlyGranted later other).1 = true) : key = other := by
  by_contra different
  have absent : (({} : PermissionCaches).markRecentGrant now key).recentGrants other = none :=
    Function.update_of_ne (Ne.symm different) _ _
  unfold PermissionCaches.isRecentlyGranted at granted
  rw [absent] at granted
  cases granted

variable (manager first second) in
/-- The keys tell the two requests apart unless they ask for the same permission, and so does
what is cached or was granted for the first of them. -/
structure KeysSeparate : Prop where
  request : manager.buildRequestKey first = manager.buildRequestKey second → manager.SamePermission first second
  active : manager.buildActiveRequestKey first = manager.buildActiveRequestKey second → manager.SamePermission first second
  cached : ∀ now later expiry, ((({} : PermissionCaches).cachePermission now (manager.buildRequestKey first) expiry).isPermissionCached later
    (manager.buildRequestKey second)).1 = true → manager.SamePermission first second
  granted : ∀ now later, ((({} : PermissionCaches).markRecentGrant now (manager.buildRequestKey first)).isRecentlyGranted later
    (manager.buildRequestKey second)).1 = true → manager.SamePermission first second

end

/-- The keys of two requests separate them exactly when the requests are not confusable. -/
theorem keysSeparate_iff (first second : PermissionRequest) :
    manager.KeysSeparate first second ↔ ¬ manager.Confusable false first second ∧ ¬ manager.Confusable true first second := by
  rw [confusable_iff, confusable_iff, not_and_not_right, not_and_not_right]
  constructor
  · intro separate
    exact ⟨separate.request, separate.active⟩
  · intro ⟨request, active⟩
    exact ⟨request, active, fun now later expiry cached => request (cached_key cached), fun now later granted => request (granted_key granted)⟩

def hostPlatform : Platform where
  parseUrl url :=
    let host := url.toList.drop 8
    some ⟨String.ofList (host.takeWhile (· ≠ ':')), String.ofList ((host.dropWhile (· ≠ ':')).drop 1), "https:"⟩
  toLowerCase text := String.ofList (text.toList.map Char.toLower)
  toUpperCase text := String.ofList (text.toList.map Char.toUpper)

def portManager : PermissionsManager := .new hostPlatform "admin.com" {}

def basketRequest (originator basket : String) : PermissionRequest :=
  { originator, usageType := "listing", permission := .basket basket, reason := none }

/-- A basket of one site and a basket of the same host on another port have one key. -/
theorem port_and_basket : ¬ portManager.KeysSeparate (basketRequest "shop.com" "8080:orders") (basketRequest "shop.com:8080" "orders") := by
  intro separate
  obtain ⟨_, same⟩ := separate.request (by decide +kernel)
  have one : "8080:orders" = "orders" := same
  exact absurd one (by decide)

end PermissionsManager
end WalletToolbox
