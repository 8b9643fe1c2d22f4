import WalletToolbox.Permissions.Originators
import WalletToolbox.Proofs.FoundTokens
import Mathlib

/-! How often an originator is normalized does not matter where it is read back as the host
and port that it was written as. Then a token created for one spelling is found for every
other one of the same form; what another spelling spends is only counted where its label
is that form. -/

namespace WalletToolbox
open Text List
open String (ofList ofList_toList toList_append toList_injective toList_ofList)

variable {platform : Platform} {hostParser : String → Option String}

theorem trim_eq (plain : ∀ c ∈ text.toList, isSpace c = false) : Text.trim text = text := by
  have none : ∀ chars : List Char, (∀ c ∈ chars, isSpace c = false) → chars.dropWhile isSpace = chars := by
    intro chars all
    cases chars with
    | nil => rfl
    | cons first rest =>
      apply dropWhile_cons_of_neg
      rw [all first (.head _)]
      exact Bool.false_ne_true
  have reversed : ∀ c ∈ text.toList.reverse, isSpace c = false := fun c member => plain c (mem_reverse.mp member)
  rw [Text.trim, none _ plain, none _ reversed, reverse_reverse, ofList_toList]

theorem trim_trim (text : String) : Text.trim (Text.trim text) = Text.trim text := by
  have inner : ∀ chars : List Char, (chars.dropWhile isSpace).rdropWhile isSpace = ((chars.dropWhile isSpace).rdropWhile isSpace).dropWhile isSpace := by
    intro chars
    symm
    apply dropWhile_eq_self_iff.mpr
    intro nonempty
    have isPrefix := rdropWhile_prefix isSpace (chars.dropWhile isSpace)
    have first := isPrefix.getElem nonempty
    rw [first]
    exact dropWhile_get_zero_not isSpace chars (Nat.lt_of_lt_of_le nonempty isPrefix.length_le)
  have list : ∀ other, (Text.trim other).toList = (other.toList.dropWhile isSpace).rdropWhile isSpace := by
    intro other
    rw [Text.trim, toList_ofList]
    rfl
  apply toList_injective
  rw [list, list, ← inner, rdropWhile_idempotent]

theorem hasScheme_false (plain : '/' ∉ text.toList) : hasScheme text = false := by
  unfold hasScheme
  split
  · rfl
  · next first rest is =>
    rw [is] at plain
    have slash : "://".toList.isPrefixOf (rest.dropWhile isSchemeChar) = false := by
      apply Bool.eq_false_iff.mpr
      intro starts
      obtain ⟨after, same⟩ := isPrefixOf_iff_prefix.mp starts
      apply plain
      apply mem_cons_of_mem
      apply (dropWhile_sublist isSchemeChar).mem
      rw [← same]
      exact mem_append_left _ (.tail _ (.head _))
    rw [slash, Bool.and_false]

def isFormChar (c : Char) : Bool := isHostChar c || c = ':' || c = '[' || c = ']'

theorem isFormChar_ascii (form : isFormChar c = true) : c.toNat < 0x80 := by
  simp only [isFormChar, isHostChar, Bool.or_eq_true, Bool.and_eq_true, decide_eq_true_eq] at form
  rcases form with ((⟨⟨-, less⟩, -⟩ | rfl) | rfl) | rfl
  · omega
  · decide
  · decide
  · decide

theorem formChars :
    ∀ code < 0x80, isFormChar (Char.ofNat code) = true → isSpace (Char.ofNat code) = false ∧ Char.ofNat code ≠ '/' ∧
      (isHostChar (Char.ofNat code) = true → isHostChar (Char.ofNat code).toLower = true) ∧ isFormChar (Char.ofNat code).toLower = true ∧
      (Char.ofNat code).toLower.toLower = (Char.ofNat code).toLower := by
  decide +kernel

theorem isFormChar_spec (form : isFormChar c = true) :
    isSpace c = false ∧ c ≠ '/' ∧ (isHostChar c = true → isHostChar c.toLower = true) ∧ isFormChar c.toLower = true ∧
      c.toLower.toLower = c.toLower := by
  have spec := formChars c.toNat (isFormChar_ascii form)
  rw [Char.ofNat_toNat] at spec
  exact spec form

theorem isFormChar_of_host (host : isHostChar c = true) : isFormChar c = true := by
  simp only [isFormChar, host, Bool.true_or]

theorem digitChars : ∀ code < 0x80, (Char.ofNat code).isDigit = true → isFormChar (Char.ofNat code) = true ∧ (Char.ofNat code).toLower = Char.ofNat code := by
  decide +kernel

theorem isFormChar_of_digit (digit : c.isDigit = true) : isFormChar c = true ∧ c.toLower = c := by
  have small : c.toNat < 0x80 := by
    simp only [Char.isDigit, Bool.and_eq_true, decide_eq_true_eq] at digit
    have upper : c.val.toNat ≤ 57 := UInt32.le_iff_toNat_le.mp digit.2
    exact Nat.lt_of_le_of_lt upper (by omega)
  have spec := digitChars c.toNat small
  rw [Char.ofNat_toNat] at spec
  exact spec digit

theorem host_ne_colon (host : isHostChar c = true) : c ≠ ':' := by
  rintro rfl
  exact absurd host (by decide)

def FormText (text : String) : Prop := ∀ c ∈ text.toList, isFormChar c = true

theorem FormText.append {first second} (left : FormText first) (right : FormText second) : FormText (first ++ second) := by
  intro c member
  rw [toList_append, mem_append] at member
  exact member.elim (left c) (right c)

theorem FormText.trim (form : FormText text) : Text.trim text = text :=
  trim_eq fun c member => (isFormChar_spec (form c member)).1

theorem FormText.no_scheme (form : FormText text) : hasScheme text = false :=
  hasScheme_false fun slash => (isFormChar_spec (form _ slash)).2.1 rfl

theorem formText_port (serialized : SerializedPort port) : FormText port := by
  rcases serialized with rfl | ⟨number, -, rfl⟩
  · intro c member
    cases member
  · intro c member
    rw [Nat.toList_repr] at member
    exact (isFormChar_of_digit (Nat.isDigit_of_mem_toDigits (by omega) (by omega) member)).1

theorem PlainHost.form (plain : PlainHost host) : FormText host := fun c member => isFormChar_of_host (plain.2 c member)

theorem formText_withPort (form : FormText host) (serialized : SerializedPort port) : FormText (withPort host port) := by
  unfold withPort
  split
  · exact form
  · have colon : FormText ":" := forall_mem_singleton.mpr rfl
    exact (form.append colon).append (formText_port serialized)

theorem normalizeOriginator_eq (originator : String) :
    normalizeOriginator platform (some originator) = if Text.trim originator = "" then "" else hostForm platform (Text.trim originator) := rfl

def effectivePort (url : Url) : String := if defaultPort url.protocol = some url.port then "" else url.port

theorem urlHost_eq (url : Url) : urlHost platform url =
    withPort (if ':' ∈ (platform.toLowerCase url.hostname).toList then "[" ++ platform.toLowerCase url.hostname ++ "]"
      else platform.toLowerCase url.hostname) (effectivePort url) := by
  unfold urlHost effectivePort withPort
  dsimp only
  by_cases default : defaultPort url.protocol = some url.port
  · rw [if_pos (.inr default), if_pos default, if_pos rfl]
  · rw [if_neg default]
    by_cases none : url.port = ""
    · rw [if_pos (.inl none), if_pos none]
    · rw [if_neg (not_or.mpr ⟨none, default⟩), if_neg none]

theorem serialized_effectivePort (serialized : SerializedPort url.port) : SerializedPort (effectivePort url) := by
  unfold effectivePort
  split
  · exact .inl rfl
  · exact serialized

theorem defaultPort_https : defaultPort protocol = some "443" ↔ protocol = "https:" := by
  unfold defaultPort
  split
  next http =>
    rw [http]
    decide
  next => split <;> simp_all

theorem effectivePort_443 : effectivePort url = "443" ↔ url.port = "443" ∧ url.protocol ≠ "https:" := by
  unfold effectivePort
  split
  next default =>
    refine ⟨fun none => absurd none (by decide), fun ⟨port, other⟩ => ?_⟩
    rw [port] at default
    exact absurd (defaultPort_https.mp default) other
  next other =>
    refine ⟨fun port => ⟨port, fun https => other ?_⟩, And.left⟩
    rw [port]
    exact defaultPort_https.mpr https

def LowerForm (text : String) : Prop := ∀ c ∈ text.toList, isFormChar c = true ∧ c.toLower = c

theorem LowerForm.form (lower : LowerForm text) : FormText text := fun c member => (lower c member).1

theorem LowerForm.append {first second} (left : LowerForm first) (right : LowerForm second) : LowerForm (first ++ second) := by
  intro c member
  rw [toList_append, mem_append] at member
  exact member.elim (left c) (right c)

theorem lowerForm_port (serialized : SerializedPort port) : LowerForm port := by
  rcases serialized with rfl | ⟨number, -, rfl⟩
  · intro c member
    cases member
  · intro c member
    rw [Nat.toList_repr] at member
    exact isFormChar_of_digit (Nat.isDigit_of_mem_toDigits (by omega) (by omega) member)

theorem lowerForm_mark (one : mark ∈ [":", "[", "]"]) : LowerForm mark := by
  simp only [mem_cons, not_mem_nil, or_false] at one
  rcases one with rfl | rfl | rfl <;> exact forall_mem_singleton.mpr ⟨rfl, rfl⟩

theorem LowerForm.withPort (lower : LowerForm host) (serialized : SerializedPort port) : LowerForm (withPort host port) := by
  unfold WalletToolbox.withPort
  split
  · exact lower
  · exact (lower.append (lowerForm_mark (by decide))).append (lowerForm_port serialized)

theorem BracketedHost.form (bracketed : BracketedHost host) : FormText host := by
  obtain ⟨address, rfl, -, chars⟩ := bracketed
  have inside : FormText address := by
    intro c member
    rcases chars c member with host | rfl
    · exact isFormChar_of_host host
    · rfl
  exact ((lowerForm_mark (by decide)).form.append inside).append (lowerForm_mark (by decide)).form

section
variable (standards : platform.FollowsStandards hostParser)
include standards

theorem toLowerCase_eq (form : FormText text) : (platform.toLowerCase text).toList = text.toList.map Char.toLower := by
  rw [standards.lower_ascii text fun c member => isFormChar_ascii (form c member), String.toList_map]

theorem toLowerCase_lowered (form : FormText text) : LowerForm (platform.toLowerCase text) := by
  intro c member
  rw [toLowerCase_eq standards form] at member
  obtain ⟨upper, inside, rfl⟩ := mem_map.mp member
  exact (isFormChar_spec (form upper inside)).2.2.2

theorem LowerForm.same {text} (lower : LowerForm text) : platform.toLowerCase text = text := by
  apply toList_injective
  rw [toLowerCase_eq standards lower.form]
  exact (map_congr_left fun c member => (lower c member).2).trans (map_id _)

theorem PlainHost.lowered (plain : PlainHost host) : PlainHost (platform.toLowerCase host) := by
  refine ⟨fun empty => plain.1 (standards.lower_empty host empty), fun c member => ?_⟩
  rw [toLowerCase_eq standards plain.form] at member
  obtain ⟨upper, inside, rfl⟩ := mem_map.mp member
  exact (isFormChar_spec (plain.form upper inside)).2.2.1 (plain.2 upper inside)

theorem BracketedHost.lowered (bracketed : BracketedHost host) :
    BracketedHost (platform.toLowerCase host) ∧ ':' ∈ (platform.toLowerCase host).toList := by
  have chars := toLowerCase_eq standards bracketed.form
  obtain ⟨address, rfl, colon, inside⟩ := bracketed
  rw [toList_append, toList_append, map_append, map_append] at chars
  have lowered : platform.toLowerCase ("[" ++ address ++ "]") = "[" ++ ofList (address.toList.map Char.toLower) ++ "]" := by
    apply toList_injective
    simp only [chars, toList_append, toList_ofList]
    rfl
  have still : ':' ∈ address.toList.map Char.toLower := mem_map.mpr ⟨':', colon, rfl⟩
  constructor
  · refine ⟨_, lowered, by rw [toList_ofList]; exact still, fun c member => ?_⟩
    rw [toList_ofList] at member
    obtain ⟨upper, was, rfl⟩ := mem_map.mp member
    rcases inside upper was with host | rfl
    · exact .inl ((isFormChar_spec (isFormChar_of_host host)).2.2.1 host)
    · exact .inr rfl
  · rw [chars]
    exact mem_append_left _ (mem_append_right _ still)

def KeepsHost (platform : Platform) (hostParser : String → Option String) (url : Url) : Prop :=
  BracketedHost url.hostname ∨ hostParser (platform.toLowerCase url.hostname) = none ∨
    ∃ host, hostParser (platform.toLowerCase url.hostname) = some host ∧ platform.toLowerCase host = platform.toLowerCase url.hostname ∧
      ¬(url.port = "443" ∧ url.protocol ≠ "https:")

omit standards in
theorem PlainHost.no_colon (plain : PlainHost host) : ':' ∉ host.toList := fun colon => host_ne_colon (plain.2 _ colon) rfl

omit standards in
theorem withPort_inj : withPort first port = withPort second port ↔ first = second := by
  unfold withPort
  split
  · rfl
  · rw [String.append_left_inj, String.append_left_inj]

omit standards in
theorem withPort_ne (plain : ':' ∉ host.toList) (ported : port ≠ "") : host ≠ withPort other port := by
  rw [withPort, if_neg ported]
  rintro rfl
  apply plain
  rw [toList_append, toList_append]
  exact mem_append_left _ (mem_append_right _ (.head _))

theorem hostForm_bracketed (bracketed : BracketedHost host) (lower : LowerForm host) (serialized : SerializedPort port) :
    hostForm platform (withPort ("[" ++ host ++ "]") port) = withPort ("[" ++ host ++ "]") port := by
  have form : LowerForm (withPort ("[" ++ host ++ "]") port) :=
    LowerForm.withPort (((lowerForm_mark (by decide)).append lower).append (lowerForm_mark (by decide))) serialized
  rw [hostForm, originatorUrl, form.form.no_scheme, if_neg Bool.false_ne_true, standards.brackets host port bracketed serialized]
  exact form.same standards

theorem hostForm_plain (plain : PlainHost host) (lower : LowerForm host) (serialized : SerializedPort port) :
    hostForm platform (withPort host port) = withPort host port ↔
      hostParser host = none ∨ ∃ kept, hostParser host = some kept ∧ platform.toLowerCase kept = host ∧ port ≠ "443" := by
  have form : LowerForm (withPort host port) := lower.withPort serialized
  rw [hostForm, originatorUrl, form.form.no_scheme, if_neg Bool.false_ne_true, standards.authority host port plain serialized]
  cases parsed : hostParser host with
  | none => simp only [Option.map_none, form.same standards, true_or]
  | some kept =>
    have keptPlain := standards.host host kept plain parsed
    have noColon := (keptPlain.lowered standards).no_colon
    simp only [Option.map_some, if_neg keptPlain.1, urlHost_eq, if_neg noColon, reduceCtorEq, false_or, Option.some.injEq, exists_eq_left']
    by_cases https : port = "443"
    · subst https
      rw [if_pos rfl, show effectivePort ⟨kept, "", "https:"⟩ = "" from rfl]
      constructor
      · intro same
        exact absurd same (withPort_ne noColon (by decide))
      · rintro ⟨-, other⟩
        exact absurd rfl other
    · have unchanged : effectivePort ⟨kept, port, "https:"⟩ = port := if_neg fun default => https (Option.some.inj default).symm
      rw [if_neg https, unchanged, withPort_inj]
      exact ⟨fun same => ⟨same, https⟩, And.left⟩

theorem hostForm_urlHost (parsed : platform.parseUrl text = some url) (hosted : url.hostname ≠ "") :
    hostForm platform (urlHost platform url) = urlHost platform url ↔ KeepsHost platform hostParser url := by
  have serialized := serialized_effectivePort (standards.port text url parsed)
  rw [urlHost_eq]
  rcases (standards.hostname text url parsed).resolve_left hosted with plain | bracketed
  · have lowered := plain.lowered standards
    rw [if_neg lowered.no_colon, hostForm_plain standards lowered (toLowerCase_lowered standards plain.form) serialized]
    have unbracketed : ¬BracketedHost url.hostname := by
      rintro ⟨address, same, colon, -⟩
      apply plain.no_colon
      rw [same, toList_append, toList_append]
      exact mem_append_left _ (mem_append_right _ colon)
    rw [KeepsHost, or_iff_right unbracketed]
    simp only [ne_eq, effectivePort_443]
  · obtain ⟨lowered, colon⟩ := bracketed.lowered standards
    rw [if_pos colon]
    have kept := hostForm_bracketed standards lowered (toLowerCase_lowered standards bracketed.form) serialized
    exact ⟨fun _ => .inl bracketed, fun _ => kept⟩

def StaysText (platform : Platform) (text : String) : Prop :=
  match originatorUrl platform text with
  | none => True
  | some url => url.hostname = "" ∨ urlHost platform url = text

def ReadBack (platform : Platform) (hostParser : String → Option String) (trimmed : String) : Prop :=
  match originatorUrl platform trimmed with
  | none => StaysText platform (platform.toLowerCase trimmed)
  | some url => if url.hostname = "" then StaysText platform (platform.toLowerCase trimmed) else KeepsHost platform hostParser url

theorem hostForm_lower (text : String) :
    hostForm platform (platform.toLowerCase text) = platform.toLowerCase text ↔ StaysText platform (platform.toLowerCase text) := by
  unfold hostForm StaysText
  cases originatorUrl platform (platform.toLowerCase text) with
  | none => exact ⟨fun _ => trivial, fun _ => standards.lower_lower text⟩
  | some url =>
    dsimp only
    split
    next empty => exact ⟨fun _ => .inl empty, fun _ => standards.lower_lower text⟩
    next hosted => exact (or_iff_right hosted).symm

theorem hostForm_trim (trimmed : Text.trim text = text) : Text.trim (hostForm platform text) = hostForm platform text := by
  have lower := standards.lower_trim text trimmed
  unfold hostForm
  split
  · exact lower
  · next url parsed =>
    split
    · exact lower
    next hosted =>
      have serialized := serialized_effectivePort (standards.port _ url parsed)
      rw [urlHost_eq]
      rcases (standards.hostname _ url parsed).resolve_left hosted with plain | bracketed
      · have form := toLowerCase_lowered standards plain.form
        rw [if_neg (plain.lowered standards).no_colon]
        exact (form.withPort serialized).form.trim
      · have form := toLowerCase_lowered standards bracketed.form
        rw [if_pos (bracketed.lowered standards).2]
        exact (LowerForm.withPort (((lowerForm_mark (by decide)).append form).append (lowerForm_mark (by decide))) serialized).form.trim

theorem hostForm_ne (nonempty : text ≠ "") : hostForm platform text ≠ "" := by
  have lower : platform.toLowerCase text ≠ "" := fun empty => nonempty (standards.lower_empty text empty)
  unfold hostForm
  split
  · exact lower
  · next url parsed =>
    split
    · exact lower
    next hosted =>
      have host : platform.toLowerCase url.hostname ≠ "" := fun empty => hosted (standards.lower_empty _ empty)
      rw [urlHost_eq, withPort]
      split
      · split
        · simp
        · exact host
      · simp

theorem hostForm_again (trimmed : String) :
    hostForm platform (hostForm platform trimmed) = hostForm platform trimmed ↔ ReadBack platform hostParser trimmed := by
  unfold ReadBack
  cases parsed : originatorUrl platform trimmed with
  | none =>
    have form : hostForm platform trimmed = platform.toLowerCase trimmed := by
      rw [hostForm, parsed]
    rw [form]
    exact hostForm_lower standards trimmed
  | some url =>
    dsimp only
    split
    next empty =>
      have form : hostForm platform trimmed = platform.toLowerCase trimmed := by
        rw [hostForm, parsed]
        exact if_pos empty
      rw [form]
      exact hostForm_lower standards trimmed
    next hosted =>
      have form : hostForm platform trimmed = urlHost platform url := by
        rw [hostForm, parsed]
        exact if_neg hosted
      rw [form]
      exact hostForm_urlHost standards parsed hosted

theorem normalizeOriginator_again (originator : String) :
    normalizeOriginator platform (some (normalizeOriginator platform (some originator))) = normalizeOriginator platform (some originator) ↔
      (Text.trim originator ≠ "" → ReadBack platform hostParser (Text.trim originator)) := by
  rw [normalizeOriginator_eq, normalizeOriginator_eq]
  by_cases blank : Text.trim originator = ""
  · simp only [blank, ne_eq, not_true_eq_false, false_implies, iff_true, if_true]
    rfl
  · have trimmed := hostForm_trim standards (trim_trim originator)
    rw [if_neg blank, trimmed, if_neg (hostForm_ne standards blank), hostForm_again standards]
    exact ⟨fun read _ => read, fun read => read blank⟩

end

open PermissionsManager

def OnPage (held : List HeldToken) (token : HeldToken) (permission : Permission) : Prop :=
  token ∈ listOutputs held (basketOf permission) (buildTagsForRequest token.originator permission)

def FindsToken (platform : Platform) (held : List HeldToken) (prepared : PreparedOriginator) (permission : Permission) : Prop :=
  match permission with
  | .spending _ _ => (findSpendingToken platform held prepared.normalized prepared.lookupValues).isSome = true
  | permission => (findToken platform held prepared.normalized permission prepared.lookupValues).isSome = true

/-- What is granted to the first spelling of an originator is found for the second, whose spending counts for it. -/
structure Shares (manager : PermissionsManager) (labelForm : String → String) (first second : String) : Prop where
  canonical : normalizeOriginator manager.platform (some (normalizeOriginator manager.platform (some first))) =
    normalizeOriginator manager.platform (some first)
  admin : manager.isAdminOriginator (some first) = manager.isAdminOriginator (some second)
  keys : ∀ one other, prepareOriginator manager.platform (some first) = .ok one → prepareOriginator manager.platform (some second) = .ok other →
    ∀ request : PermissionRequest,
      manager.buildRequestKey { request with originator := one.normalized } = manager.buildRequestKey { request with originator := other.normalized } ∧
      manager.buildActiveRequestKey (manager.prepareRequest { request with originator := one.normalized }) =
        manager.buildActiveRequestKey (manager.prepareRequest { request with originator := other.normalized })
  tokens : ∀ one other, prepareOriginator manager.platform (some first) = .ok one → prepareOriginator manager.platform (some second) = .ok other →
    ∀ (request : PermissionRequest) (expiry : Nat) (txid : String) (outputIndex : Nat) (held : List HeldToken),
      OnPage held (manager.createdToken { request with originator := one.normalized } expiry txid outputIndex) request.permission →
      FindsToken manager.platform held other request.permission
  labels : ∀ one other, prepareOriginator manager.platform (some first) = .ok one → prepareOriginator manager.platform (some second) = .ok other →
    ∀ (request : PermissionRequest) (expiry : Nat) (txid : String) (outputIndex : Nat) (found : PermissionToken),
      findSpendingToken manager.platform [manager.createdToken { request with originator := one.normalized } expiry txid outputIndex]
        other.normalized other.lookupValues = some found →
      ∃ origin ∈ labelOrigins found, labelForm (spendingLabel second) = labelForm (spendingLabel origin)

section
variable {manager : PermissionsManager} {labelForm : String → String} {first second : String}

theorem prepareOriginator_spec (standards : platform.FollowsStandards hostParser)
    (prepares : prepareOriginator platform (some originator) = .ok prepared) :
    Text.trim originator ≠ "" ∧ prepared.normalized = hostForm platform (Text.trim originator) ∧
      normalizeOriginator platform (some originator) = prepared.normalized ∧ prepared.normalized ∈ prepared.lookupValues := by
  unfold prepareOriginator at prepares
  dsimp only at prepares
  split at prepares
  · cases prepares
  · next some =>
    replace some : Text.trim originator ≠ "" := some
    have nonempty := hostForm_ne standards some
    have again : normalizeOriginator platform (.some (Text.trim originator)) = hostForm platform (Text.trim originator) := by
      rw [normalizeOriginator_eq, trim_trim, if_neg some]
    rw [show (Option.some originator).getD "" = originator from rfl, again, orElseText, if_neg nonempty] at prepares
    cases prepares
    refine ⟨some, rfl, ?_, ?_⟩
    · rw [normalizeOriginator_eq, if_neg some]
    · rw [mem_filter, mem_eraseDups]
      exact ⟨.tail _ (.head _), by simpa using nonempty⟩

theorem prepareOriginator_ok {originator} (some : Text.trim originator ≠ "") :
    ∃ prepared, prepareOriginator platform (.some originator) = .ok prepared := ⟨_, if_neg some⟩

theorem createdToken_originator
    (again : normalizeOriginator manager.platform (some normalized) = normalized) (request : PermissionRequest) (expiry : Nat) (txid : String)
    (outputIndex : Nat) : (manager.createdToken { request with originator := normalized } expiry txid outputIndex).originator = normalized := by
  have kept : orElseText (normalizeOriginator manager.platform (some normalized)) normalized = normalized := by
    rw [again, orElseText]
    split <;> rfl
  rw [createdToken, prepareRequest, tokenOriginator, kept, kept]

theorem grants_created (request) (kind : ∀ satoshis lineItems, request.permission ≠ .spending satoshis lineItems) :
    grants (manager.prepareRequest request).permission request.permission = true := by
  unfold prepareRequest
  cases is : request.permission with
  | spending satoshis lineItems => exact absurd is (kind satoshis lineItems)
  | protocol privileged protocolID counterparty =>
    by_cases level : protocolID.level = 1
    · simp [grants, level]
    · simp [grants, level]
  | basket basket => simp [grants]
  | certificate privileged verifier certType fields => simp [grants]

theorem findsToken_of_page {request : PermissionRequest}
    (page : OnPage held token request.permission) (looked : token.originator ∈ prepared.lookupValues)
    (own : normalizeOriginator platform (some token.originator) = prepared.normalized)
    (granted : (∀ satoshis lineItems, request.permission ≠ .spending satoshis lineItems) → grants token.permission request.permission = true) :
    FindsToken platform held prepared request.permission := by
  have nonempty := ne_nil_of_mem looked
  have read : token ∈ tokenPages held prepared.normalized request.permission prepared.lookupValues := by
    rw [tokenPages, if_neg nonempty]
    exact mem_flatMap.mpr ⟨token.originator, looked, page⟩
  have matched : ∀ (kind : ∀ satoshis lineItems, request.permission ≠ .spending satoshis lineItems),
      (findToken platform held prepared.normalized request.permission prepared.lookupValues).isSome = true := by
    intro kind
    rw [findToken, Option.isSome_map, find?_isSome]
    refine ⟨token, read, ?_⟩
    rw [tokenMatches, granted kind, own, decide_eq_true rfl, Bool.true_and]
  unfold FindsToken
  cases is : request.permission with
  | spending satoshis lineItems =>
    rw [is] at read
    dsimp only
    rw [findSpendingToken, Option.isSome_map, find?_isSome]
    exact ⟨token, read, decide_eq_true own⟩
  | protocol _ _ _ | basket _ | certificate _ _ _ _ =>
    rw [is] at matched
    exact matched fun _ _ other => by cases other

theorem onPage_singleton (token) : OnPage [token] token token.permission := by
  have listed : token ∈ [token].filter fun held => basketOf held.permission = basketOf token.permission ∧
      ∀ tag ∈ buildTagsForRequest token.originator token.permission, tag ∈ buildTagsForRequest held.originator held.permission := by
    rw [mem_filter]
    exact ⟨.head _, decide_eq_true ⟨rfl, fun _ inside => inside⟩⟩
  have short : ([token].filter fun held => basketOf held.permission = basketOf token.permission ∧
      ∀ tag ∈ buildTagsForRequest token.originator token.permission, tag ∈ buildTagsForRequest held.originator held.permission).length ≤ pageLimit :=
    (length_filter_le _ _).trans (Nat.le_of_ble_eq_true rfl)
  rw [OnPage, listOutputs, take_of_length_le short]
  exact listed

section
variable (standards : manager.platform.FollowsStandards hostParser)
  (same : normalizeOriginator manager.platform (some first) = normalizeOriginator manager.platform (some second))
  (canonical : normalizeOriginator manager.platform (some (normalizeOriginator manager.platform (some first))) =
    normalizeOriginator manager.platform (some first))
  {one other : PreparedOriginator} (left : prepareOriginator manager.platform (some first) = .ok one)
  (right : prepareOriginator manager.platform (some second) = .ok other)
include standards left

include canonical in
theorem created_alike (request : PermissionRequest) (expiry : Nat) (txid : String) (outputIndex : Nat) :
    (manager.createdToken { request with originator := one.normalized } expiry txid outputIndex).originator = one.normalized ∧
      normalizeOriginator manager.platform (some one.normalized) = one.normalized := by
  obtain ⟨-, -, form, -⟩ := prepareOriginator_spec standards left
  have again : normalizeOriginator manager.platform (some one.normalized) = one.normalized := by
    rw [← form, canonical]
  exact ⟨createdToken_originator again request expiry txid outputIndex, again⟩

include same right

theorem prepared_alike : one.normalized = other.normalized := by
  obtain ⟨-, -, leftForm, -⟩ := prepareOriginator_spec standards left
  obtain ⟨-, -, rightForm, -⟩ := prepareOriginator_spec standards right
  rw [← leftForm, ← rightForm, same]

include canonical

theorem created_found (request : PermissionRequest) (expiry : Nat) (txid : String)
    (outputIndex : Nat) {held : List HeldToken}
    (page : OnPage held (manager.createdToken { request with originator := one.normalized } expiry txid outputIndex) request.permission) :
    FindsToken manager.platform held other request.permission := by
  obtain ⟨origin, again⟩ := created_alike standards canonical left request expiry txid outputIndex
  have equal := prepared_alike standards same left right
  obtain ⟨-, -, -, looked⟩ := prepareOriginator_spec standards right
  apply findsToken_of_page page
  · rw [origin, equal]
    exact looked
  · rw [origin, again, equal]
  · exact @grants_created manager { request with originator := one.normalized }

/-- Its spending is looked for under the one text. -/
theorem found_labels {request : PermissionRequest}
    (is : findSpendingToken manager.platform [manager.createdToken { request with originator := one.normalized } expiry txid outputIndex]
      other.normalized other.lookupValues = some found) :
    labelOrigins found = [other.normalized] := by
  obtain ⟨origin, -⟩ := created_alike standards canonical left request expiry txid outputIndex
  have equal := prepared_alike standards same left right
  obtain ⟨present, normal, -, -⟩ := prepareOriginator_spec standards right
  obtain ⟨token, searched, rfl⟩ := Option.map_eq_some_iff.mp is
  have isToken := mem_singleton.mp (mem_tokenPages (mem_of_find?_eq_some searched))
  have trimmed : Text.trim other.normalized = other.normalized := by
    rw [normal]
    exact hostForm_trim standards (trim_trim second)
  have nonempty : other.normalized ≠ "" := by
    rw [normal]
    exact hostForm_ne standards present
  have raw : (foundToken other.normalized token).rawOriginator = .some other.normalized := by
    have kept : (foundToken other.normalized token).rawOriginator = .some token.originator := by
      unfold foundToken
      split <;> rfl
    rw [kept, isToken, origin, equal]
  have own : (foundToken other.normalized token).originator = other.normalized := by
    unfold foundToken
    split <;> rfl
  have listed : ([(foundToken other.normalized token).rawOriginator, some (foundToken other.normalized token).originator].map
      fun origin => Text.trim (origin.getD "")) = [other.normalized, other.normalized] := by
    simp only [raw, own, map_cons, map_nil, Option.getD_some, trimmed]
  have kept : [other.normalized, other.normalized].filter (· ≠ "") = [other.normalized, other.normalized] :=
    filter_eq_self.mpr fun text member => by
      obtain rfl : text = other.normalized := by simpa using member
      exact decide_eq_true nonempty
  rw [labelOrigins, buildOriginatorLookupValues]
  change ((([(foundToken other.normalized token).rawOriginator, some (foundToken other.normalized token).originator].map
      fun origin => Text.trim (origin.getD "")).filter (· ≠ "")).eraseDups) = _
  rw [listed, kept]
  simp [eraseDups_cons]

end

theorem spelled_of_shares (standards : manager.platform.FollowsStandards hostParser)
    (same : normalizeOriginator manager.platform (some first) = normalizeOriginator manager.platform (some second))
    (shares : Shares manager labelForm first second) (present : Text.trim second ≠ "") :
    labelForm (spendingLabel second) = labelForm (spendingLabel (hostForm manager.platform (Text.trim second))) := by
  have firstPresent : Text.trim first ≠ "" := by
    intro blank
    apply hostForm_ne standards present
    rw [normalizeOriginator_eq, normalizeOriginator_eq, if_pos blank, if_neg present] at same
    exact same.symm
  obtain ⟨one, left⟩ := @prepareOriginator_ok manager.platform first firstPresent
  obtain ⟨other, right⟩ := @prepareOriginator_ok manager.platform second present
  let request : PermissionRequest := { originator := one.normalized, usageType := "", permission := .spending 0 [], reason := none }
  have finds := shares.tokens one other left right request 0 "" 0 _ (onPage_singleton _)
  obtain ⟨found, is⟩ := Option.isSome_iff_exists.mp finds
  obtain ⟨origin, listed, counted⟩ := shares.labels one other left right request 0 "" 0 found is
  rw [found_labels standards same shares.canonical left right is, mem_singleton] at listed
  obtain ⟨-, normal, -, -⟩ := prepareOriginator_spec standards right
  rw [counted, listed, normal]

/-- The spellings of an originator share what they are to share exactly when its form is read
back as itself, and the other spelling has the label of that form. -/
theorem spellings_share (standards : manager.platform.FollowsStandards hostParser)
    (same : normalizeOriginator manager.platform (some first) = normalizeOriginator manager.platform (some second)) :
    Shares manager labelForm first second ↔
      (Text.trim first ≠ "" → ReadBack manager.platform hostParser (Text.trim first)) ∧
      (Text.trim second ≠ "" →
        labelForm (spendingLabel second) = labelForm (spendingLabel (hostForm manager.platform (Text.trim second)))) := by
  rw [← normalizeOriginator_again standards]
  constructor
  · intro shares
    exact ⟨shares.canonical, spelled_of_shares standards same shares⟩
  · rintro ⟨canonical, spelled⟩
    refine ⟨canonical, ?_, ?_, ?_, ?_⟩
    · rw [isAdminOriginator, isAdminOriginator, same]
    · intro one other left right request
      rw [prepared_alike standards same left right]
      exact ⟨rfl, rfl⟩
    · intro one other left right request expiry txid outputIndex held page
      exact created_found standards same canonical left right request expiry txid outputIndex page
    · intro one other left right request expiry txid outputIndex found is
      obtain ⟨present, normal, -, -⟩ := prepareOriginator_spec standards right
      refine ⟨other.normalized, ?_, ?_⟩
      · rw [found_labels standards same canonical left right is]
        exact .head _
      · rw [normal]
        exact spelled present

end
theorem toLower_spec (c : Char) : c.toLower = c ∨ c.toNat < 0x80 := by
  unfold Char.toLower
  split
  next upper =>
    have bound : c.val.toNat ≤ 90 := UInt32.le_iff_toNat_le.mp upper.2
    exact .inr (Nat.lt_of_le_of_lt bound (by omega))
  next => exact .inl rfl

theorem lowerChars : ∀ code < 0x80, (Char.ofNat code).toLower.toLower = (Char.ofNat code).toLower ∧
    isSpace (Char.ofNat code).toLower = isSpace (Char.ofNat code) := by
  decide +kernel

theorem toLower_keeps (c : Char) : c.toLower.toLower = c.toLower ∧ isSpace c.toLower = isSpace c := by
  rcases toLower_spec c with same | small
  · rw [same]
    exact ⟨same, rfl⟩
  · have spec := lowerChars c.toNat small
    rw [Char.ofNat_toNat] at spec
    exact spec

def lowerText (text : String) : String := ofList (text.toList.map Char.toLower)

theorem trim_lowerText (text : String) : Text.trim (lowerText text) = lowerText (Text.trim text) := by
  have same : isSpace ∘ Char.toLower = isSpace := funext fun c => (toLower_keeps c).2
  simp only [Text.trim, lowerText, toList_ofList, dropWhile_map, ← map_reverse, same]

theorem lowerText_empty (empty : lowerText text = "") : text = "" := by
  have nothing : text.toList.map Char.toLower = [] := by
    rw [← toList_ofList (l := text.toList.map Char.toLower)]
    exact congrArg String.toList empty
  exact toList_injective (map_eq_nil_iff.mp nothing)

def sampleHost (text : String) : Option String := if text ≠ "" ∧ text.toList.all isHostChar = true then some (lowerText text) else none

def samplePort (protocol : String) : List Char → Option String
  | [] => some ""
  | _ :: digits =>
    match (ofList digits).toNat? with
    | none => none
    | some number =>
      if number < 65536 ∧ Nat.repr number = ofList digits then
        some (if defaultPort protocol = some (ofList digits) then "" else ofList digits)
      else none

def sampleScheme (text : String) : List Char := text.toList.takeWhile (· ≠ ':')

def sampleAuthority (text : String) : List Char := (text.toList.drop ((sampleScheme text).length + 3)).takeWhile (· ≠ '/')

/-- A scheme, a domain and a port. -/
def sampleUrl (text : String) : Option Url :=
  let protocol := ofList (sampleScheme text ++ [':'])
  match sampleHost (ofList ((sampleAuthority text).takeWhile (· ≠ ':'))), samplePort protocol ((sampleAuthority text).dropWhile (· ≠ ':')) with
  | some hostname, some port => some ⟨hostname, port, protocol⟩
  | _, _ => none

def samplePlatform : Platform where
  parseUrl := sampleUrl
  toLowerCase := lowerText
  toUpperCase text := ofList (text.toList.map Char.toUpper)

theorem samplePlatform_parseUrl (text : String) : samplePlatform.parseUrl text = sampleUrl text := rfl

theorem sampleHost_plain (plain : PlainHost text) : sampleHost text = some (lowerText text) :=
  if_pos ⟨plain.1, all_eq_true.mpr plain.2⟩

theorem plainHost_lowerText (plain : PlainHost text) : PlainHost (lowerText text) := by
  constructor
  · exact fun empty => plain.1 (lowerText_empty empty)
  · intro c member
    rw [lowerText, toList_ofList] at member
    obtain ⟨upper, inside, rfl⟩ := mem_map.mp member
    exact (isFormChar_spec (plain.form upper inside)).2.2.1 (plain.2 upper inside)

theorem sampleHost_some (parsed : sampleHost text = some host) : PlainHost host := by
  unfold sampleHost at parsed
  split at parsed
  next plain =>
    cases parsed
    exact plainHost_lowerText ⟨plain.1, all_eq_true.mp plain.2⟩
  next => cases parsed

theorem samplePort_serialized (parsed : samplePort protocol rest = some port) : SerializedPort port := by
  unfold samplePort at parsed
  split at parsed
  · cases parsed
    exact .inl rfl
  · split at parsed
    · cases parsed
    next number _ =>
      split at parsed
      next valid =>
        cases parsed
        split
        · exact .inl rfl
        · exact .inr ⟨number, valid.1, valid.2.symm⟩
      next => cases parsed

theorem takeWhile_host (plain : ':' ∉ host) :
    (host ++ ':' :: rest).takeWhile (· ≠ ':') = host ∧ (host ++ ':' :: rest).dropWhile (· ≠ ':') = ':' :: rest := by
  have all : ∀ c ∈ host, decide (c ≠ ':') = true := by
    intro c member
    apply decide_eq_true
    rintro rfl
    exact plain member
  rw [takeWhile_append_of_pos all, dropWhile_append_of_pos all]
  exact ⟨append_nil host, rfl⟩

theorem toList_withPort (host port : String) :
    (withPort host port).toList = host.toList ++ if port = "" then [] else ':' :: port.toList := by
  unfold withPort
  split
  · exact (append_nil _).symm
  · rw [toList_append, toList_append, append_assoc]
    rfl

theorem sampleUrl_parts (schemed : ':' ∉ scheme)
    (is : text.toList = scheme ++ ':' :: '/' :: '/' :: rest) : sampleScheme text = scheme ∧ sampleAuthority text = rest.takeWhile (· ≠ '/') := by
  have first : sampleScheme text = scheme := by
    rw [sampleScheme, is, (takeWhile_host schemed).1]
  refine ⟨first, ?_⟩
  rw [sampleAuthority, first, is, ← drop_drop, drop_left]
  rfl

theorem sampleUrl_none (refused : sampleHost (ofList ((sampleAuthority text).takeWhile (· ≠ ':'))) = none) :
    sampleUrl text = none := by
  rw [sampleUrl, refused]

theorem sampleUrl_authority {scheme host port} (schemed : ':' ∉ scheme) (plain : PlainHost host)
    (serialized : SerializedPort port) :
    sampleUrl (ofList scheme ++ "://" ++ withPort host port) =
      some ⟨lowerText host, if defaultPort (ofList (scheme ++ [':'])) = some port then "" else port, ofList (scheme ++ [':'])⟩ := by
  have text : (ofList scheme ++ "://" ++ withPort host port).toList = scheme ++ ':' :: '/' :: '/' :: (withPort host port).toList := by
    rw [toList_append, toList_append, toList_ofList, append_assoc]
    rfl
  obtain ⟨isScheme, isAuthority⟩ := sampleUrl_parts schemed text
  have unslashed : ∀ c ∈ (withPort host port).toList, decide (c ≠ '/') = true := fun c member =>
    decide_eq_true (isFormChar_spec (formText_withPort plain.form serialized c member)).2.1
  rw [sampleUrl, isScheme, isAuthority, takeWhile_eq_self_iff.mpr unslashed, toList_withPort]
  by_cases unported : port = ""
  · subst unported
    have all : ∀ c ∈ host.toList, decide (c ≠ ':') = true := fun c member => decide_eq_true (host_ne_colon (plain.2 c member))
    rw [if_pos rfl, append_nil, takeWhile_eq_self_iff.mpr all, dropWhile_eq_nil_iff.mpr all, ofList_toList, sampleHost_plain plain]
    simp [samplePort]
  · rw [if_neg unported, (takeWhile_host plain.no_colon).1, (takeWhile_host plain.no_colon).2, ofList_toList, sampleHost_plain plain]
    obtain ⟨number, small, rfl⟩ := serialized.resolve_left unported
    have port : samplePort (ofList (scheme ++ [':'])) (':' :: (Nat.repr number).toList) =
        some (if defaultPort (ofList (scheme ++ [':'])) = some (Nat.repr number) then "" else Nat.repr number) := by
      rw [samplePort, ofList_toList, Nat.toNat?_repr]
      exact if_pos ⟨small, rfl⟩
    rw [port]

theorem sampleUrl_https {host port} (plain : PlainHost host) (serialized : SerializedPort port) :
    sampleUrl ("https://" ++ withPort host port) =
      (sampleHost host).map fun hostname => ⟨hostname, if port = "443" then "" else port, "https:"⟩ := by
  have read := @sampleUrl_authority ['h', 't', 't', 'p', 's'] host port (by decide) plain serialized
  have start : ofList ['h', 't', 't', 'p', 's'] ++ "://" = "https://" := by decide
  have protocol : ofList (['h', 't', 't', 'p', 's'] ++ [':']) = "https:" := by decide
  have known : defaultPort "https:" = some port ↔ port = "443" := by
    rw [show defaultPort "https:" = some "443" by decide, Option.some.injEq]
    exact eq_comm
  rw [start, protocol] at read
  rw [read, sampleHost_plain plain, Option.map_some]
  simp only [known]

theorem sampleUrl_brackets (host port : String) : sampleUrl ("https://" ++ withPort ("[" ++ host ++ "]") port) = none := by
  have text : ("https://" ++ withPort ("[" ++ host ++ "]") port).toList =
      ['h', 't', 't', 'p', 's'] ++ ':' :: '/' :: '/' :: '[' :: (withPort ("[" ++ host ++ "]") port).toList.tail := by
    rw [toList_append, toList_withPort, toList_append, toList_append]
    rfl
  obtain ⟨-, isAuthority⟩ := sampleUrl_parts (by decide) text
  apply sampleUrl_none
  rw [isAuthority, takeWhile_cons_of_pos (by decide), takeWhile_cons_of_pos (by decide)]
  apply if_neg
  rintro ⟨-, all⟩
  rw [toList_ofList, all_cons] at all
  exact absurd (Bool.and_eq_true_iff.mp all).1 (by decide)

theorem samplePlatform_parts (parsed : sampleUrl text = some url) :
    (∃ host, sampleHost host = some url.hostname) ∧ ∃ protocol rest, samplePort protocol rest = some url.port := by
  rw [sampleUrl] at parsed
  split at parsed
  next host port isHost isPort =>
    cases parsed
    exact ⟨⟨_, isHost⟩, _, _, isPort⟩
  next => cases parsed

theorem lowerText_lowerText (text : String) : lowerText (lowerText text) = lowerText text := by
  apply toList_injective
  simp only [lowerText, toList_ofList, map_map]
  exact map_congr_left fun c _ => (toLower_keeps c).1

theorem samplePlatform_standards : samplePlatform.FollowsStandards sampleHost where
  hostname text url parsed := by
    rw [samplePlatform_parseUrl] at parsed
    obtain ⟨⟨host, isHost⟩, -⟩ := samplePlatform_parts parsed
    exact .inr (.inl (sampleHost_some isHost))
  port text url parsed := by
    rw [samplePlatform_parseUrl] at parsed
    obtain ⟨-, protocol, rest, isPort⟩ := samplePlatform_parts parsed
    exact samplePort_serialized isPort
  host _ _ _ parsed := sampleHost_some parsed
  authority host port plain serialized := by
    rw [samplePlatform_parseUrl, sampleUrl_https plain serialized]
  brackets host port _ _ := by
    rw [samplePlatform_parseUrl, sampleUrl_brackets]
  lower_ascii text _ := String.map_eq_internal.symm
  lower_lower := lowerText_lowerText
  lower_trim text trimmed := by
    show Text.trim (lowerText text) = lowerText text
    rw [trim_lowerText, trimmed]
  lower_empty _ empty := lowerText_empty empty

def portManager : PermissionsManager := ⟨samplePlatform, "admin.com", {}⟩

theorem portManager_platform : portManager.platform = samplePlatform := rfl

theorem spellings_share_capital :
    Shares portManager id "https://Example.com" "https://Example.com" ↔
      (Text.trim "https://Example.com" ≠ "" → ReadBack samplePlatform sampleHost (Text.trim "https://Example.com")) ∧
      (Text.trim "https://Example.com" ≠ "" →
        spendingLabel "https://Example.com" = spendingLabel (hostForm samplePlatform (Text.trim "https://Example.com"))) :=
  @spellings_share _ portManager id _ _ samplePlatform_standards rfl

theorem examplePlain : PlainHost "example.com" := by
  have chars : "example.com".toList = ['e', 'x', 'a', 'm', 'p', 'l', 'e', '.', 'c', 'o', 'm'] := rfl
  have all : (['e', 'x', 'a', 'm', 'p', 'l', 'e', '.', 'c', 'o', 'm'].all isHostChar) = true := rfl
  exact ⟨by decide, by rw [chars]; exact all_eq_true.mp all⟩

/-- The texts of the example as the platform reads and writes them. -/
theorem exampleTexts :
    (hasScheme "example.com" = false ∧ hasScheme "https://example.com" = true ∧ hasScheme "http://example.com:443" = true) ∧
      (Text.trim "example.com" = "example.com" ∧ Text.trim "https://example.com" = "https://example.com" ∧
        Text.trim "http://example.com:443" = "http://example.com:443") ∧
      ("https://" ++ "example.com" = "https://example.com" ∧ "https://" ++ withPort "example.com" "" = "https://example.com" ∧
        ofList ['h', 't', 't', 'p'] ++ "://" ++ withPort "example.com" "443" = "http://example.com:443") ∧
      (ofList (['h', 't', 't', 'p'] ++ [':']) = "http:" ∧ Nat.repr 443 = "443" ∧
        (if defaultPort "http:" = some "443" then "" else "443") = "443") ∧
      lowerText "example.com" = "example.com" ∧ urlHost samplePlatform ⟨"example.com", "", "https:"⟩ = "example.com" ∧
      spendingLabel "https://example.com" ≠ spendingLabel "example.com" := by
  decide +kernel

theorem examplePort : originatorUrl samplePlatform "http://example.com:443" = some ⟨"example.com", "443", "http:"⟩ := by
  obtain ⟨⟨-, -, schemed⟩, -, ⟨-, -, text⟩, ⟨protocol, number, kept⟩, lower, -⟩ := exampleTexts
  have read := @sampleUrl_authority ['h', 't', 't', 'p'] _ "443" (by decide) examplePlain (.inr ⟨443, by omega, number.symm⟩)
  rw [text, protocol, lower, kept] at read
  rw [originatorUrl, if_pos schemed]
  exact read

theorem exampleUrl : sampleUrl "https://example.com" = some ⟨"example.com", "", "https:"⟩ := by
  obtain ⟨-, -, ⟨-, text, -⟩, -, lower, -⟩ := exampleTexts
  have read := @sampleUrl_https _ "" examplePlain (.inl rfl)
  rw [text, sampleHost_plain examplePlain, lower] at read
  exact read

theorem hostForm_example (read : originatorUrl samplePlatform text = some ⟨"example.com", "", "https:"⟩) :
    hostForm samplePlatform text = "example.com" := by
  obtain ⟨-, -, -, -, -, host, -⟩ := exampleTexts
  rw [hostForm, read]
  exact (if_neg (by decide)).trans host

theorem plain_example : Text.trim "example.com" = "example.com" ∧ hostForm samplePlatform "example.com" = "example.com" := by
  obtain ⟨⟨unschemed, -⟩, ⟨trimmed, -⟩, ⟨text, -⟩, -⟩ := exampleTexts
  refine ⟨trimmed, hostForm_example ?_⟩
  rw [originatorUrl, unschemed, if_neg Bool.false_ne_true, text]
  exact exampleUrl

theorem schemed_example : Text.trim "https://example.com" = "https://example.com" ∧ hostForm samplePlatform "https://example.com" = "example.com" := by
  obtain ⟨⟨-, schemed, -⟩, ⟨-, trimmed, -⟩, -⟩ := exampleTexts
  refine ⟨trimmed, hostForm_example ?_⟩
  rw [originatorUrl, if_pos schemed]
  exact exampleUrl

/-- The port of `http://example.com:443` is lost when it is normalized again, and `https://example.com` has a label of its own. -/
theorem spellings_do_not_share :
    ¬Shares portManager id "http://example.com:443" "http://example.com:443" ∧
      ¬Shares portManager id "example.com" "https://example.com" := by
  obtain ⟨-, ⟨-, -, trimmed⟩, -, -, -, -, labels⟩ := exampleTexts
  constructor
  · intro shares
    have canonical := shares.canonical
    rw [portManager_platform, normalizeOriginator_again samplePlatform_standards, trimmed] at canonical
    have read := canonical (by decide)
    rw [ReadBack, examplePort] at read
    have keeps : KeepsHost samplePlatform sampleHost ⟨"example.com", "443", "http:"⟩ := read
    rcases keeps with ⟨address, same, -⟩ | refused | ⟨host, -, -, stays⟩
    · have first := congrArg (fun text : String => text.toList.head?) same
      simp at first
    · have kept := sampleHost_plain (plainHost_lowerText examplePlain)
      exact absurd (refused.symm.trans kept) (Option.some_ne_none _).symm
    · exact stays ⟨rfl, by decide⟩
  · intro shares
    obtain ⟨first, plain⟩ := plain_example
    obtain ⟨second, schemed⟩ := schemed_example
    have same : normalizeOriginator samplePlatform (some "example.com") = normalizeOriginator samplePlatform (some "https://example.com") := by
      rw [normalizeOriginator_eq, normalizeOriginator_eq, first, second, plain, schemed, if_neg (by decide), if_neg (by decide)]
    have spelled := @spelled_of_shares _ portManager id _ _ samplePlatform_standards same shares (by rw [second]; decide)
    rw [second, portManager_platform, schemed] at spelled
    exact labels spelled

end WalletToolbox
