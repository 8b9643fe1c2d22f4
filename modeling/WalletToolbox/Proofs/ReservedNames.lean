import WalletToolbox.Effects.Fallible
import WalletToolbox.Proofs.PermissionChecks

/-! Names that are reserved for the admin. The manager compares a name as it is spelled,
and not before every other way out, while the underlying wallet trims names and puts them
in lower case; so a call is rejected for a reserved name exactly when some name it has
checked is reserved as it is spelled. -/

namespace WalletToolbox
open Effects Async PermissionsManager List

inductive NameUse where
  | protocol (protocolID : WalletProtocol)
  | basket (basket : String)
  | label (label : String)
deriving DecidableEq, Repr

namespace NameUse

def text : NameUse → String
  | .protocol protocolID => protocolID.name
  | .basket name | .label name => name

def Refused : NameUse → Prop
  | .protocol protocolID => ProtocolRefused protocolID
  | .basket name => isAdminBasket name = true
  | .label name => isAdminLabel name = true

def normalized (platform : Platform) (name : NameUse) : String := platform.toLowerCase (Text.trim name.text)

def Reserved (platform : Platform) (name : NameUse) : Prop :=
  isDelegated name.text = false ∧
    (Text.startsWith (name.normalized platform) "admin" = true ∨
      ∃ basket, name = .basket basket ∧ name.normalized platform = "default")

end NameUse

namespace WalletCall

/-- The names a call is given. -/
def names : WalletCall → List NameUse
  | .createAction args => (outputBaskets args.outputs).map .basket ++ args.labels.map .label
  | .listActions labels => labels.map .label
  | .internalizeAction args => (insertionBaskets args.outputs).map .basket ++ args.labels.map .label
  | .listOutputs basket | .relinquishOutput basket => [.basket basket]
  | .getPublicKey args => args.protocolID.toList.map .protocol
  | .revealSpecificKeyLinkage args => [.protocol args.protocolID]
  | .useKey _ args => [.protocol args.protocolID]

def NamesReserved (platform : Platform) (call : WalletCall) : Prop := ∃ name ∈ call.names, name.Reserved platform

def SignsAndProcesses : WalletCall → Prop
  | .createAction args => args.signAndProcess = some true
  | _ => False

end WalletCall

namespace PermissionsManager
variable (manager : PermissionsManager)

def checkedInAction (baskets labels : List String) : Except PermissionsError (List NameUse) := do
  let (nonPBaskets, modules) ← manager.collectNonPBaskets baskets []
  let (nonPLabels, _) ← manager.splitLabelsByPermissionModule labels modules
  return nonPBaskets.map .basket ++ nonPLabels.map .label

def checkedUnlessDelegated (name : String) (checked : List NameUse) : Except PermissionsError (List NameUse) :=
  if !isDelegated name then .ok checked
  else if Text.secondWord name ∉ manager.config.permissionModules then
    .error (.error ("Unsupported P-module scheme: p " ++ Text.secondWord name))
  else .ok []

def identityNames (args : GetPublicKeyArgs) : List NameUse :=
  if args.identityKey then [.protocol ⟨1, "identity key retrieval"⟩] else []

def checkedNames : WalletCall → Except PermissionsError (List NameUse)
  | .createAction args => manager.checkedInAction (outputBaskets args.outputs) args.labels
  | .listActions labels => do
    let remaining ← parseBrc114ActionTimeLabels labels
    let (nonPLabels, _) ← manager.splitLabelsByPermissionModule remaining []
    return nonPLabels.map .label
  | .internalizeAction args => manager.checkedInAction (insertionBaskets args.outputs) args.labels
  | .listOutputs basket | .relinquishOutput basket => manager.checkedUnlessDelegated basket [.basket basket]
  | .getPublicKey args =>
    match args.protocolID with
    | none => .ok (identityNames args)
    | some protocolID => manager.checkedUnlessDelegated protocolID.name (.protocol protocolID :: identityNames args)
  | .revealSpecificKeyLinkage args => .ok [.protocol (linkageProtocol args)]
  | .useKey _ args => manager.checkedUnlessDelegated args.protocolID.name [.protocol args.protocolID]

end PermissionsManager

def NamesRefused (originator : Option String) (checked : Except PermissionsError (List NameUse)) : Prop :=
  match checked with
  | .error _ => True
  | .ok names => ∃ name ∈ names, NoOriginator originator ∨ name.Refused

def Refuses (manager : PermissionsManager) (originator : Option String) (call : WalletCall) : Prop :=
  NamesRefused originator (manager.checkedNames call) ∨ call.SignsAndProcesses

section
variable {manager : PermissionsManager} {originator : Option String}

theorem NamesRefused.bind {α : Type} {result : Except PermissionsError α} {next value}
    (refused : NamesRefused originator (result >>= next)) (is : result = .ok value) : NamesRefused originator (next value) := by
  subst is
  exact refused

theorem not_namesRefused_bind {next}
    (allowed : ¬ NamesRefused originator (result >>= next)) : ∃ value, result = .ok value ∧ ¬ NamesRefused originator (next value) := by
  cases result with
  | error error => exact absurd trivial allowed
  | ok value => exact ⟨value, rfl, allowed⟩

theorem ensureBaskets_asks (reason : String) (baskets : List String) : OnlyAsks (manager.ensureBaskets originator reason baskets) := by
  unfold ensureBaskets
  exact .forM (fun _ => (ensureBasketAccess_asks _).bind fun _ => .pure _) baskets

theorem ensureBaskets_rejects (nonAdmin : NonAdmin manager originator)
    (member : basket ∈ baskets) (refused : NoOriginator originator ∨ isAdminBasket basket = true) :
    Rejects (manager.ensureBaskets originator reason baskets) := by
  unfold ensureBaskets
  refine .forM member (fun _ => (ensureBasketAccess_asks _).bind fun _ => .pure _) ?_
  exact Rejects.bind (ensureBasketAccess_rejects nonAdmin refused)

theorem ensureBaskets_passes
    (allowed : ∀ basket ∈ baskets, ¬ (NoOriginator originator ∨ isAdminBasket basket = true)) :
    Passes (manager.ensureBaskets originator reason baskets) := by
  unfold ensureBaskets
  refine .forM fun basket member => ?_
  obtain ⟨some, plain⟩ := not_or.mp (allowed basket member)
  exact Passes.bind (ensureBasketAccess_passes some plain) fun _ => .done _

theorem ensureLabels_asks (reason : String) (usageType : LabelUsage) (labels : List String) :
    OnlyAsks (manager.ensureLabels originator reason usageType labels) := by
  unfold ensureLabels
  exact .forM (fun _ => (ensureLabelAccess_asks _).bind fun _ => .pure _) labels

theorem ensureLabels_rejects (nonAdmin : NonAdmin manager originator)
    (member : label ∈ labels) (refused : NoOriginator originator ∨ isAdminLabel label = true) :
    Rejects (manager.ensureLabels originator reason usageType labels) := by
  unfold ensureLabels
  refine .forM member (fun _ => (ensureLabelAccess_asks _).bind fun _ => .pure _) ?_
  exact Rejects.bind (ensureLabelAccess_rejects nonAdmin refused)

theorem ensureLabels_passes
    (allowed : ∀ label ∈ labels, ¬ (NoOriginator originator ∨ isAdminLabel label = true)) :
    Passes (manager.ensureLabels originator reason usageType labels) := by
  unfold ensureLabels
  refine .forM fun label member => ?_
  obtain ⟨some, plain⟩ := not_or.mp (allowed label member)
  exact Passes.bind (ensureLabelAccess_passes some plain) fun _ => .done _

def plainResult : WalletResult := ⟨"", none⟩

theorem callUnderlying_passes (call : WalletCall) : PassesWith plainResult (callUnderlying call originator) := rfl

theorem onRequests_passes (modules : List String) (call : WalletCall) : PassesWith call (onRequests modules call originator) :=
  .foldlM fun _ => rfl

theorem onResponses_passes (modules : List String) (result : Option WalletResult) :
    PassesWith result (onResponses modules result originator) := .foldlM fun _ => rfl

theorem callWithPModules_passes (modules : List String) (call : WalletCall) :
    PassesWith (some plainResult) (callWithPModules modules call originator) :=
  (onRequests_passes modules call).bind ((callUnderlying_passes call).bind (onResponses_passes modules _))

theorem delegate_undelegated
    (plain : isDelegated name = false) :
    manager.delegateToPModuleIfNeeded name call originator underlyingCall = pure none := by
  rw [delegateToPModuleIfNeeded, plain]
  rfl

theorem delegate_rejects {next : Option WalletResult → PermissionsM α}
    (refused : NamesRefused originator (manager.checkedUnlessDelegated name names))
    (rejects : (∃ name ∈ names, NoOriginator originator ∨ name.Refused) → Rejects (next none)) :
    Rejects (manager.delegateToPModuleIfNeeded name call originator underlyingCall >>= next) := by
  unfold checkedUnlessDelegated at refused
  split at refused
  · next plain =>
    rw [delegate_undelegated (by simpa using plain)]
    exact rejects refused
  · next delegated =>
    split at refused
    · next unknown =>
      apply Rejects.bind
      unfold delegateToPModuleIfNeeded
      exact .negative delegated (.positive unknown (.throw _))
    · obtain ⟨name, member, -⟩ := refused
      cases member

theorem delegate_passes {next : Option WalletResult → PermissionsM α}
    (allowed : ¬ NamesRefused originator (manager.checkedUnlessDelegated name names))
    (underlying : PassesWith plainResult (underlyingCall call)) (delegates : Passes (next (some plainResult)))
    (passes : ¬ (∃ name ∈ names, NoOriginator originator ∨ name.Refused) → Passes (next none)) :
    Passes (manager.delegateToPModuleIfNeeded name call originator underlyingCall >>= next) := by
  unfold checkedUnlessDelegated at allowed
  split at allowed
  · next plain =>
    rw [delegate_undelegated (by simpa using plain)]
    exact passes allowed
  · next delegated =>
    split at allowed
    · exact absurd trivial allowed
    · next known =>
      refine PassesWith.then ?_ delegates
      unfold delegateToPModuleIfNeeded
      rw [if_neg delegated, if_neg known]
      have requests : PassesWith call (do Program.ofExcept (← (PermissionsOp.onRequest (Text.secondWord name) call originator).await)) := rfl
      exact requests.bind (underlying.bind rfl)

theorem only_refused {only : NameUse} : (∃ name ∈ [only], NoOriginator originator ∨ name.Refused) ↔ NoOriginator originator ∨ only.Refused := by
  constructor
  · intro refused
    obtain ⟨name, member, refuses⟩ := refused
    obtain rfl := mem_singleton.mp member
    exact refuses
  · exact fun refuses => ⟨only, mem_singleton_self _, refuses⟩

section
variable (nonAdmin : NonAdmin manager originator)
include nonAdmin

theorem listOutputs_rejects_iff (basket : String) :
    Rejects (manager.listOutputs basket originator) ↔
      NamesRefused originator (manager.checkedUnlessDelegated basket [.basket basket]) := by
  refine rejects_iff_of (fun refused => delegate_rejects refused ?_) fun allowed => delegate_passes allowed ?_ ?_ ?_
  · intro refused
    exact Rejects.bind (ensureBasketAccess_rejects nonAdmin (only_refused.mp refused))
  · exact (callUnderlying_passes _).bind rfl
  · exact .done _
  · intro allowed
    obtain ⟨named, plain⟩ := not_or.mp (only_refused.not.mp allowed)
    exact Passes.bind (ensureBasketAccess_passes named plain) fun _ => ⟨some plainResult, rfl⟩

theorem relinquishOutput_rejects_iff (basket : String) :
    Rejects (manager.relinquishOutput basket originator) ↔
      NamesRefused originator (manager.checkedUnlessDelegated basket [.basket basket]) := by
  refine rejects_iff_of (fun refused => delegate_rejects refused ?_) fun allowed => delegate_passes allowed ?_ ?_ ?_
  · intro refused
    exact Rejects.bind (ensureBasketAccess_rejects nonAdmin (only_refused.mp refused))
  · exact callUnderlying_passes _
  · exact .done _
  · intro allowed
    obtain ⟨named, plain⟩ := not_or.mp (only_refused.not.mp allowed)
    exact Passes.bind (ensureBasketAccess_passes named plain) fun _ => ⟨some plainResult, rfl⟩

theorem useKey_rejects_iff (method : KeyMethod) (usageType : ProtocolUsage) (args : KeyArgs) :
    Rejects (manager.useKey method usageType args originator) ↔
      NamesRefused originator (manager.checkedUnlessDelegated args.protocolID.name [.protocol args.protocolID]) := by
  refine rejects_iff_of (fun refused => delegate_rejects refused ?_) fun allowed => delegate_passes allowed ?_ ?_ ?_
  · intro refused
    exact Rejects.bind (ensureProtocolPermission_rejects nonAdmin (only_refused.mp refused))
  · exact callUnderlying_passes _
  · exact .done _
  · intro allowed
    obtain ⟨named, plain⟩ := not_or.mp (only_refused.not.mp allowed)
    exact Passes.bind (ensureProtocolPermission_passes named plain) fun _ => ⟨some plainResult, rfl⟩

theorem revealSpecificKeyLinkage_rejects_iff (args : RevealSpecificKeyLinkageArgs) :
    Rejects (manager.revealSpecificKeyLinkage args originator) ↔
      NamesRefused originator (.ok [.protocol (linkageProtocol args)]) := by
  unfold revealSpecificKeyLinkage
  refine rejects_iff_of (fun refused => Rejects.bind ?_) fun allowed => Passes.bind ?_ fun _ => ⟨some plainResult, rfl⟩
  · exact ensureProtocolPermission_rejects nonAdmin (only_refused.mp refused)
  · obtain ⟨named, plain⟩ := not_or.mp (only_refused.not.mp allowed)
    exact ensureProtocolPermission_passes named plain

omit nonAdmin in
theorem identityProtocol_allowed : ¬ ProtocolRefused ⟨1, "identity key retrieval"⟩ := fun refused => absurd refused.2 (by decide)

theorem checkIdentityKey_rejects
    (refused : ∃ name ∈ identityNames args, NoOriginator originator ∨ name.Refused) : Rejects (manager.checkIdentityKey args originator) := by
  obtain ⟨name, member, refuses⟩ := refused
  unfold identityNames at member
  unfold checkIdentityKey
  split at member
  · next asked =>
    obtain rfl := mem_singleton.mp member
    exact .positive asked (Rejects.bind (ensureProtocolPermission_rejects nonAdmin refuses))
  · cases member

omit nonAdmin in
theorem checkIdentityKey_passes
    (allowed : ¬ ∃ name ∈ identityNames args, NoOriginator originator ∨ name.Refused) : Passes (manager.checkIdentityKey args originator) := by
  unfold identityNames at allowed
  unfold checkIdentityKey
  refine .ite (fun asked => ?_) fun _ => .done _
  rw [if_pos asked] at allowed
  have named : ¬ NoOriginator originator := fun none => allowed ⟨_, mem_singleton_self _, .inl none⟩
  exact Passes.bind (ensureProtocolPermission_passes named identityProtocol_allowed) fun _ => .done _

theorem getPublicKey_rejects
    (refused : NamesRefused originator (manager.checkedNames (.getPublicKey args))) : Rejects (manager.getPublicKey args originator) := by
  cases given : args.protocolID with
  | none =>
    simp only [checkedNames, given] at refused
    simp only [getPublicKey, given, pure_bind]
    exact Rejects.bind (checkIdentityKey_rejects nonAdmin refused)
  | some protocolID =>
    simp only [checkedNames, given] at refused
    simp only [getPublicKey, given, checkKeyProtocol, bind_assoc]
    refine delegate_rejects refused fun refused => ?_
    simp only [Option.isSome_none, Bool.false_eq_true, if_false, bind_assoc, pure_bind]
    obtain ⟨name, member, refuses⟩ := refused
    rcases mem_cons.mp member with rfl | member
    · exact Rejects.bind (ensureProtocolPermission_rejects nonAdmin refuses)
    · refine .after (ensureProtocolPermission_asks _) fun _ => ?_
      exact Rejects.bind (checkIdentityKey_rejects nonAdmin ⟨name, member, refuses⟩)

end

theorem getPublicKey_passes
    (allowed : ¬ NamesRefused originator (manager.checkedNames (.getPublicKey args))) : Passes (manager.getPublicKey args originator) := by
  cases given : args.protocolID with
  | none =>
    simp only [checkedNames, given] at allowed
    simp only [getPublicKey, given, pure_bind]
    exact Passes.bind (checkIdentityKey_passes allowed) fun _ => ⟨some plainResult, rfl⟩
  | some protocolID =>
    simp only [checkedNames, given] at allowed
    simp only [getPublicKey, given, checkKeyProtocol, bind_assoc]
    refine delegate_passes allowed (callUnderlying_passes _) ⟨some plainResult, rfl⟩ fun allowed => ?_
    simp only [Option.isSome_none, Bool.false_eq_true, if_false, bind_assoc, pure_bind]
    obtain ⟨named, plain⟩ := not_or.mp fun refuses => allowed ⟨_, .head _, refuses⟩
    have identity : Passes (manager.checkIdentityKey args originator) :=
      checkIdentityKey_passes fun ⟨name, member, refuses⟩ => allowed ⟨name, .tail _ member, refuses⟩
    refine Passes.bind (ensureProtocolPermission_passes named plain) fun _ => ?_
    exact Passes.bind identity fun _ => ⟨some plainResult, rfl⟩

theorem actionNames_refused (baskets : List String) {labels : List String}
    (refused : ∃ name ∈ baskets.map NameUse.basket ++ labels.map NameUse.label, NoOriginator originator ∨ name.Refused) :
    (∃ basket ∈ baskets, NoOriginator originator ∨ isAdminBasket basket = true) ∨
      ∃ label ∈ labels, NoOriginator originator ∨ isAdminLabel label = true := by
  obtain ⟨name, member, refuses⟩ := refused
  rcases mem_append.mp member with member | member
  · obtain ⟨basket, given, rfl⟩ := mem_map.mp member
    exact .inl ⟨basket, given, refuses⟩
  · obtain ⟨label, given, rfl⟩ := mem_map.mp member
    exact .inr ⟨label, given, refuses⟩

theorem actionNames_allowed (baskets : List String) {labels : List String}
    (allowed : ¬ ∃ name ∈ baskets.map NameUse.basket ++ labels.map NameUse.label, NoOriginator originator ∨ name.Refused) :
    (∀ basket ∈ baskets, ¬ (NoOriginator originator ∨ isAdminBasket basket = true)) ∧
      ∀ label ∈ labels, ¬ (NoOriginator originator ∨ isAdminLabel label = true) := by
  constructor
  · intro basket member refuses
    exact allowed ⟨.basket basket, mem_append_left _ (mem_map_of_mem member), refuses⟩
  · intro label member refuses
    exact allowed ⟨.label label, mem_append_right _ (mem_map_of_mem member), refuses⟩

theorem listActions_rejects {labels : List String} (nonAdmin : NonAdmin manager originator)
    (refused : NamesRefused originator (manager.checkedNames (.listActions labels))) : Rejects (manager.listActions labels originator) := by
  refine .ofExcept_bind fun remaining parsed => .ofExcept_bind fun names split => ?_
  have refused := refused.bind parsed |>.bind split
  obtain ⟨basket, member, -⟩ | ⟨label, member, refuses⟩ := actionNames_refused [] refused
  · cases member
  · exact Rejects.bind (ensureLabels_rejects nonAdmin member refuses)

theorem listActions_passes {labels : List String}
    (allowed : ¬ NamesRefused originator (manager.checkedNames (.listActions labels))) : Passes (manager.listActions labels originator) := by
  obtain ⟨remaining, parsed, allowed⟩ := not_namesRefused_bind allowed
  obtain ⟨names, split, allowed⟩ := not_namesRefused_bind allowed
  have each := (actionNames_allowed [] allowed).2
  refine .ofExcept_bind parsed (.ofExcept_bind split ?_)
  exact Passes.bind (ensureLabels_passes each) fun _ => (callWithPModules_passes _ _).then ⟨some plainResult, rfl⟩

theorem createAction_rejects {args : CreateActionArgs} (nonAdmin : NonAdmin manager originator)
    (refused : Refuses manager originator (.createAction args)) : Rejects (manager.createAction args originator) := by
  refine .ofExcept_bind fun baskets collected => .ofExcept_bind fun labels split => ?_
  rcases refused with refused | signs
  · rcases actionNames_refused _ (refused.bind collected |>.bind split) with ⟨basket, member, refuses⟩ | ⟨label, member, refuses⟩
    · exact Rejects.bind (ensureBaskets_rejects nonAdmin member refuses)
    · exact .after (ensureBaskets_asks ..) fun _ => Rejects.bind (ensureLabels_rejects nonAdmin member refuses)
  · refine .after (ensureBaskets_asks ..) fun _ => .after (ensureLabels_asks ..) fun _ => .ofExcept_bind fun enforced enforces => ?_
    have signs : args.signAndProcess = some true := signs
    rw [enforceSignAndProcess, if_neg (not_not.mpr signs), nonAdmin.plain] at enforces
    cases enforces

theorem encryptText_passes (text : String) : Passes (encryptText text) := by
  unfold encryptText
  exact .ite (fun _ => .done _) fun _ => ⟨text, rfl⟩

theorem encryptOption_passes (text : Option String) : Passes (encryptOption text) := by
  cases text with
  | none => exact .done _
  | some text => exact Passes.bind (encryptText_passes text) fun _ => .done _

theorem encryptActionMetadata_passes (args : CreateActionArgs) : Passes (encryptActionMetadata args) := by
  have description : Passes (maybeEncryptMetadata args.description) := ⟨args.description, rfl⟩
  refine description.bind fun _ => Passes.bind (.mapM fun input _ => ?_) fun _ => Passes.bind (.mapM fun output _ => ?_) fun _ => .done _
  · exact Passes.bind (encryptText_passes _) fun _ => .done _
  · exact Passes.bind (encryptText_passes _) fun _ => Passes.bind (encryptOption_passes _) fun _ => .done _

theorem createAction_passes {args : CreateActionArgs} (allowed : ¬ Refuses manager originator (.createAction args)) :
    Passes (manager.createAction args originator) := by
  obtain ⟨allowed, unsigned⟩ := not_or.mp allowed
  obtain ⟨baskets, collected, allowed⟩ := not_namesRefused_bind allowed
  obtain ⟨labels, split, allowed⟩ := not_namesRefused_bind allowed
  obtain ⟨eachBasket, eachLabel⟩ := actionNames_allowed _ allowed
  have enforces : manager.enforceSignAndProcess args.signAndProcess originator = .ok false := if_pos unsigned
  refine .ofExcept_bind collected (.ofExcept_bind split ?_)
  refine Passes.bind (ensureBaskets_passes eachBasket) fun _ => Passes.bind (ensureLabels_passes eachLabel) fun _ => ?_
  refine .ofExcept_bind enforces (Passes.bind (encryptActionMetadata_passes args) fun encrypted => ?_)
  have month : PassesWith "2024-01" (PermissionsOp.getCurrentMonthYearUTC).await := rfl
  exact month.then ((callWithPModules_passes _ _).then ⟨some plainResult, rfl⟩)

theorem collectNonPBaskets_eq {checked}
    (collected : manager.collectNonPBaskets baskets modules = .ok (checked, known)) : checked = baskets.filter (!isDelegated ·) := by
  induction baskets generalizing modules checked known with
  | nil =>
    cases collected
    rfl
  | cons basket rest ih =>
    unfold collectNonPBaskets at collected
    split at collected
    · next delegated =>
      obtain ⟨more, -, collected⟩ := bind_eq_ok.mp collected
      rw [filter_cons_of_neg (by simpa using delegated)]
      exact ih collected
    · next plain =>
      obtain ⟨⟨others, more⟩, collected, same⟩ := bind_eq_ok.mp collected
      cases same
      rw [filter_cons_of_pos (by simpa using plain), ih collected]

theorem mem_insertionBaskets :
    basket ∈ insertionBaskets outputs ↔ ∃ customInstructions, InternalizeOutput.basketInsertion basket customInstructions ∈ outputs := by
  unfold insertionBaskets
  rw [mem_filterMap]
  constructor
  · intro given
    obtain ⟨output, member, is⟩ := given
    cases output with
    | walletPayment => cases is
    | basketInsertion name customInstructions =>
      cases is
      exact ⟨customInstructions, member⟩
  · intro given
    obtain ⟨customInstructions, member⟩ := given
    exact ⟨_, member, rfl⟩

theorem encryptInsertion_passes (output : InternalizeOutput) : Passes (encryptInsertion output) := by
  cases output with
  | walletPayment => exact .done _
  | basketInsertion basket customInstructions => exact Passes.bind (encryptOption_passes _) fun _ => .done _

theorem encryptText_asks (text : String) : OnlyAsks (encryptText text) := by
  unfold encryptText
  exact .ite (.pure _) (.ask id fun _ => .ofExcept _)

theorem encryptInsertion_asks (output : InternalizeOutput) : OnlyAsks (encryptInsertion output) := by
  cases output with
  | walletPayment => exact .pure _
  | basketInsertion basket customInstructions =>
    refine .bind ?_ fun _ => .pure _
    cases customInstructions with
    | none => exact .pure _
    | some text => exact .bind (encryptText_asks text) fun _ => .pure _

theorem ensureInsertion_asks (reason : String) (output : InternalizeOutput) : OnlyAsks (manager.ensureInsertion originator reason output) := by
  cases output with
  | walletPayment => exact .pure _
  | basketInsertion basket customInstructions =>
    exact .ite (.pure _) (.bind (ensureBasketAccess_asks _) fun _ => encryptInsertion_asks _)

theorem internalizeAction_rejects {args : InternalizeActionArgs} (nonAdmin : NonAdmin manager originator)
    (refused : NamesRefused originator (manager.checkedNames (.internalizeAction args))) :
    Rejects (manager.internalizeAction args originator) := by
  refine .ofExcept_bind fun baskets collected => .ofExcept_bind fun labels split => ?_
  rcases actionNames_refused _ (refused.bind collected |>.bind split) with ⟨basket, member, refuses⟩ | ⟨label, member, refuses⟩
  · rw [collectNonPBaskets_eq collected, mem_filter] at member
    obtain ⟨customInstructions, given⟩ := mem_insertionBaskets.mp member.1
    refine Rejects.bind (.mapM given (ensureInsertion_asks _) ?_)
    exact .negative (by simpa using member.2) (Rejects.bind (ensureBasketAccess_rejects nonAdmin refuses))
  · exact .after (.mapM (ensureInsertion_asks _) _) fun _ => Rejects.bind (ensureLabels_rejects nonAdmin member refuses)

theorem encryptInsertions_passes (call : WalletCall) : Passes (encryptInsertions call) := by
  cases call
  case internalizeAction args => exact Passes.bind (.mapM fun output _ => encryptInsertion_passes output) fun _ => .done _
  all_goals exact .done _

theorem internalizeAction_passes {args : InternalizeActionArgs}
    (allowed : ¬ NamesRefused originator (manager.checkedNames (.internalizeAction args))) :
    Passes (manager.internalizeAction args originator) := by
  obtain ⟨baskets, collected, allowed⟩ := not_namesRefused_bind allowed
  obtain ⟨labels, split, allowed⟩ := not_namesRefused_bind allowed
  obtain ⟨eachBasket, eachLabel⟩ := actionNames_allowed _ allowed
  refine .ofExcept_bind collected (.ofExcept_bind split ?_)
  refine Passes.bind (.mapM fun output member => ?_) fun outputs => Passes.bind (ensureLabels_passes eachLabel) fun _ => ?_
  · cases output with
    | walletPayment => exact .done _
    | basketInsertion basket customInstructions =>
      refine .ite (fun _ => .done _) fun plain => ?_
      have checked : basket ∈ baskets.1 := by
        rw [collectNonPBaskets_eq collected, mem_filter]
        exact ⟨mem_insertionBaskets.mpr ⟨_, member⟩, by simpa using plain⟩
      obtain ⟨named, unreserved⟩ := not_or.mp (eachBasket basket checked)
      exact Passes.bind (ensureBasketAccess_passes named unreserved) fun _ => encryptInsertion_passes _
  · refine .ite (fun _ => ⟨some plainResult, rfl⟩) fun _ => ?_
    refine (onRequests_passes _ _).then (Passes.bind (encryptInsertions_passes _) fun call => ?_)
    exact (callUnderlying_passes call).then (onResponses_passes _ _).passes

theorem perform_rejects_iff (nonAdmin : NonAdmin manager originator) (call : WalletCall) :
    Rejects (manager.perform originator call) ↔ Refuses manager originator call := by
  have signing : ∀ {checked : Except PermissionsError (List NameUse)}, NamesRefused originator checked ∨ False ↔ NamesRefused originator checked :=
    or_iff_left id
  cases call with
  | createAction args => exact rejects_iff_of (createAction_rejects nonAdmin) createAction_passes
  | listActions labels => exact (rejects_iff_of (listActions_rejects nonAdmin) listActions_passes).trans signing.symm
  | internalizeAction args => exact (rejects_iff_of (internalizeAction_rejects nonAdmin) internalizeAction_passes).trans signing.symm
  | listOutputs basket => exact (listOutputs_rejects_iff nonAdmin basket).trans signing.symm
  | relinquishOutput basket => exact (relinquishOutput_rejects_iff nonAdmin basket).trans signing.symm
  | getPublicKey args => exact (rejects_iff_of (getPublicKey_rejects nonAdmin) getPublicKey_passes).trans signing.symm
  | revealSpecificKeyLinkage args => exact (revealSpecificKeyLinkage_rejects_iff nonAdmin args).trans signing.symm
  | useKey method args => cases method <;> exact (useKey_rejects_iff nonAdmin _ _ args).trans signing.symm

end

theorem sampleOriginator_nonAdmin : NonAdmin sampleManager (some "app.com") := by
  refine ⟨by decide +kernel, fun prepared prepares => ?_⟩
  have is : prepareOriginator asciiPlatform (some "app.com") = .ok ⟨"app.com", ["app.com"]⟩ := by decide +kernel
  cases is.symm.trans prepares
  decide +kernel

end WalletToolbox
