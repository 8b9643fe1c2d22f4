import WalletToolbox.Permissions.WalletMethods
import Mathlib.Data.List.Basic
import WalletToolbox.Async.Pool

/-! What a permission check may come to. A program is rejected when it fails whatever it is
told, before the underlying wallet is reached; it passes when every permission is cached
and nothing fails. -/

namespace WalletToolbox
open Async PermissionsManager

def PermissionsOp.Forwards : PermissionsOp → Prop
  | .underlying _ _ | .signAction _ _ => True
  | _ => False

structure OnlyAsks {α : Type} (program : PermissionsM α) : Prop where
  uses : program.Uses fun op : PermissionsOp => ¬ op.Forwards

/-- Whatever it is told, the program fails before the underlying wallet is reached. -/
structure Rejects {α : Type} (program : PermissionsM α) : Prop where
  asks : OnlyAsks program
  fails : ∀ past, program.Settles (fun _ outcome => ∃ error, outcome = .error error) past

def allowing : Machine permissionsManager Unit
  | .isPermissionCached _, _ => (true, ())
  | .isRecentlyGranted _, _ => (true, ())
  | .isTokenExpired _, _ => (false, ())
  | .cachePermission _ _, _ => ((), ())
  | .findToken _ _ _, _ => (.ok none, ())
  | .querySpentSince _, _ => (.ok 0, ())
  | .requestPermissionFlow _, _ => (.ok true, ())
  | .getCurrentMonthYearUTC, _ => ("2024-01", ())
  | .maybeEncryptMetadata text, _ => (.ok text, ())
  | .decryptMetadata result, _ => (.ok result, ())
  | .isSignAction _, _ => (.ok false, ())
  | .onRequest _ call _, _ => (.ok call, ())
  | .onResponse _ result _, _ => (.ok result, ())
  | .underlying _ _, _ => (.ok ⟨"", none⟩, ())
  | .signAction _ _, _ => (.ok ⟨"", none⟩, ())
  | .abortAction _, _ => (.ok (), ())

def PassesWith {α : Type} (value : α) (program : PermissionsM α) : Prop := (program.run allowing ()).1 = .ok value

def Passes {α : Type} (program : PermissionsM α) : Prop := ∃ value, PassesWith value program

section
variable {α β : Type} {program : PermissionsM α} {next : α → PermissionsM β}

theorem Passes.not_rejects (passes : Passes program) : ¬ Rejects program := by
  intro rejects
  obtain ⟨value, passed⟩ := passes
  obtain ⟨error, failed⟩ := (rejects.fails []).run ()
  rw [passed] at failed
  cases failed

theorem OnlyAsks.ask {op : PermissionsOp} {next : op.Reply → PermissionsM α} (asks : ¬ op.Forwards) (rest : ∀ reply, OnlyAsks (next reply)) :
    OnlyAsks (op.await >>= next) := ⟨asks, fun reply => (rest reply).uses⟩

theorem OnlyAsks.bind (asks : OnlyAsks program) (rest : ∀ value, OnlyAsks (next value)) : OnlyAsks (program >>= next) :=
  ⟨asks.uses.bind fun value => (rest value).uses⟩

theorem OnlyAsks.pure (value : α) : OnlyAsks (pure value) := ⟨trivial⟩

theorem OnlyAsks.throw (error) : OnlyAsks (throw error : PermissionsM α) := ⟨trivial⟩

theorem OnlyAsks.ofExcept (result : Except PermissionsError α) : OnlyAsks (Program.ofExcept result) := ⟨.ofExcept result⟩

theorem OnlyAsks.ite [Decidable c] (left : OnlyAsks first) (right : OnlyAsks second) :
    OnlyAsks (if c then first else second) := by
  split
  · exact left
  · exact right

theorem rejects_iff_of (rejects : refused → Rejects program) (passes : ¬ refused → Passes program) :
    Rejects program ↔ refused := by
  constructor
  · intro rejected
    by_contra allowed
    exact (passes allowed).not_rejects rejected
  · exact rejects

theorem Rejects.positive [Decidable c] (holds : c) (rejects : Rejects first) :
    Rejects (if c then first else second) := by rwa [if_pos holds]

theorem Rejects.negative [Decidable c] (fails : ¬ c) (rejects : Rejects second) :
    Rejects (if c then first else second) := by rwa [if_neg fails]

theorem Rejects.throw (error) : Rejects (throw error : PermissionsM α) := ⟨.throw error, fun _ => ⟨error, rfl⟩⟩

theorem OnlyAsks.bind_failing (asks : OnlyAsks program)
    (fails : program.Settles (fun _ outcome => ∃ error, outcome = .error error) past) : OnlyAsks (program >>= next) := by
  induction program generalizing past with
  | done value =>
    obtain ⟨error, same⟩ := fails
    cases same
  | fail error => exact .throw error
  | await op rest ih => exact ⟨asks.uses.1, fun reply => (ih reply ⟨asks.uses.2 reply⟩ (fails reply)).uses⟩

theorem Rejects.bind (rejects : Rejects program) : Rejects (program >>= next) := by
  refine ⟨rejects.asks.bind_failing (rejects.fails []), fun past => .bind ((rejects.fails past).mono ?_)⟩
  intro more outcome _ failed
  obtain ⟨error, rfl⟩ := failed
  exact ⟨error, rfl⟩

theorem Rejects.after (asks : OnlyAsks program) (rejects : ∀ value, Rejects (next value)) : Rejects (program >>= next) :=
  ⟨.bind asks fun value => (rejects value).asks,
    fun _ => .seq (fun value more _ => (rejects value).fails more) fun error _ _ => ⟨error, rfl⟩⟩

theorem Passes.done (value : α) : Passes (.done value : PermissionsM α) := ⟨value, rfl⟩

theorem PassesWith.passes (passes : PassesWith value program) : Passes program := ⟨value, passes⟩

theorem PassesWith.bind {value result} (passes : PassesWith value program) (rest : PassesWith result (next value)) :
    PassesWith result (program >>= next) := by
  unfold PassesWith at passes ⊢
  rw [Program.run_bind]
  cases ran : program.run allowing () with
  | mk outcome after =>
    rw [ran] at passes
    have passes : outcome = .ok value := passes
    subst passes
    exact rest

theorem PassesWith.then (passes : PassesWith value program) (rest : Passes (next value)) : Passes (program >>= next) := by
  obtain ⟨result, more⟩ := rest
  exact ⟨result, passes.bind more⟩

theorem Passes.bind (passes : Passes program) (rest : ∀ value, Passes (next value)) : Passes (program >>= next) := by
  obtain ⟨value, passed⟩ := passes
  exact passed.then (rest value)

theorem Passes.ite [Decidable c] (left : c → Passes first) (right : ¬ c → Passes second) :
    Passes (if c then first else second) := by
  split
  · next holds => exact left holds
  · next fails => exact right fails

theorem Passes.mapM {each : α → PermissionsM β} {values : List α} (passes : ∀ value ∈ values, Passes (each value)) :
    Passes (values.mapM each) := by
  induction values with
  | nil => exact ⟨[], rfl⟩
  | cons first rest ih =>
    rw [List.mapM_cons]
    exact (passes first (.head _)).bind fun _ => (ih fun value member => passes value (.tail _ member)).bind fun _ => .done _

theorem Passes.forM {each : α → PermissionsM PUnit} {values : List α} (passes : ∀ value ∈ values, Passes (each value)) :
    Passes (values.forM each) := by
  induction values with
  | nil => exact ⟨_, rfl⟩
  | cons first rest ih =>
    exact (passes first (.head _)).bind fun _ => ih fun value member => passes value (.tail _ member)

theorem Rejects.ofExcept_bind (rejects : ∀ value, result = .ok value → Rejects (next value)) :
    Rejects (Program.ofExcept result >>= next) := by
  cases result with
  | error error => exact .throw error
  | ok value => exact rejects value rfl

theorem Passes.ofExcept_bind (is : result = .ok value) (passes : Passes (next value)) :
    Passes (Program.ofExcept result >>= next) := by
  subst is
  exact passes

theorem PassesWith.foldlM {values : List α}
    (passes : ∀ value, PassesWith first (each first value)) : PassesWith first (values.foldlM each first) := by
  induction values with
  | nil => rfl
  | cons value rest ih =>
    rw [List.foldlM_cons]
    exact (passes value).bind ih

theorem OnlyAsks.forM (asks : ∀ value, OnlyAsks (each value)) (values : List α) : OnlyAsks (values.forM each) := by
  induction values with
  | nil => exact .pure _
  | cons first rest ih => exact (asks first).bind fun _ => ih

theorem OnlyAsks.mapM (asks : ∀ value, OnlyAsks (each value)) (values : List α) : OnlyAsks (values.mapM each) := by
  induction values with
  | nil => exact .pure _
  | cons first rest ih =>
    rw [List.mapM_cons]
    exact (asks first).bind fun _ => ih.bind fun _ => .pure _

theorem Rejects.forM {values : List α} {value} (member : value ∈ values)
    (asks : ∀ value, OnlyAsks (each value)) (rejects : Rejects (each value)) : Rejects (values.forM each) := by
  induction values with
  | nil => cases member
  | cons first rest ih =>
    rcases List.mem_cons.mp member with rfl | later
    · exact rejects.bind
    · exact .after (asks first) fun _ => ih later

theorem Rejects.mapM {values : List α} {value} (member : value ∈ values)
    (asks : ∀ value, OnlyAsks (each value)) (rejects : Rejects (each value)) : Rejects (values.mapM each) := by
  induction values with
  | nil => cases member
  | cons first rest ih =>
    rw [List.mapM_cons]
    rcases List.mem_cons.mp member with rfl | later
    · exact rejects.bind
    · exact .after (asks first) fun _ => (ih later).bind

end

section
variable {manager : PermissionsManager} {originator : Option String}

structure NonAdmin (manager : PermissionsManager) (originator : Option String) : Prop where
  plain : manager.isAdminOriginator originator = false
  prepared : ∀ prepared, prepareOriginator manager.platform originator = .ok prepared →
    manager.isAdminOriginator (some prepared.normalized) = false

def NoOriginator (originator : Option String) : Prop := Text.trim (originator.getD "") = ""

theorem prepareOriginator_none {platform} (none : NoOriginator originator) :
    prepareOriginator platform originator = .error (.error "Originator is required for permission checks.") := if_pos none

theorem prepareOriginator_some {platform : Platform} (some : ¬ NoOriginator originator) :
    ∃ prepared, prepareOriginator platform originator = .ok prepared := ⟨_, if_neg some⟩

theorem ensureToken_asks (request : PermissionRequest) (lookupValues) (seekPermission : Bool) (missing expired : String) :
    OnlyAsks (manager.ensureToken request lookupValues seekPermission missing expired) := by
  have flow : ∀ request, OnlyAsks (do Program.ofExcept (← (PermissionsOp.requestPermissionFlow request).await)) :=
    fun request => .ask id fun granted => .ofExcept granted
  unfold ensureToken
  refine .ask id fun cached => .ite (.pure _) (.ask id fun recent => .ite (.pure _) (.ask id fun found => ?_))
  refine (OnlyAsks.ofExcept found).bind fun token => ?_
  cases token with
  | none => exact OnlyAsks.ite (.throw _) (flow _)
  | some token => exact OnlyAsks.ask id fun stale => .ite (.ite (.throw _) (flow _)) (.ask id fun _ => .pure _)

theorem ensureToken_passes (request) (lookupValues) (seekPermission : Bool) (missing expired : String) :
    Passes (manager.ensureToken request lookupValues seekPermission missing expired) := ⟨true, rfl⟩

theorem prepared_rejects (none : NoOriginator originator) :
    Rejects (Program.ofExcept (prepareOriginator manager.platform originator) >>= next) := by
  rw [prepareOriginator_none none]
  exact .throw _

theorem prepared_else (nonAdmin : NonAdmin manager originator)
    (rejects : ∀ prepared, manager.isAdminOriginator (some prepared.normalized) = false → Rejects (next prepared)) :
    Rejects (Program.ofExcept (prepareOriginator manager.platform originator) >>= next) := by
  cases prepares : prepareOriginator manager.platform originator with
  | error error => exact .throw error
  | ok prepared => exact rejects prepared (nonAdmin.prepared prepared prepares)

theorem prepared_passes (some : ¬ NoOriginator originator)
    (passes : ∀ prepared, Passes (next prepared)) :
    Passes (Program.ofExcept (prepareOriginator manager.platform originator) >>= next) := by
  obtain ⟨prepared, prepares⟩ := prepareOriginator_some some
  rw [prepares]
  exact passes prepared

theorem ensureProtocolPermission_asks (check : ProtocolCheck) : OnlyAsks (manager.ensureProtocolPermission check) := by
  unfold ensureProtocolPermission
  refine (OnlyAsks.ofExcept _).bind fun prepared => ?_
  dsimp only
  exact .ite (.pure _) (.ite (.pure _) (.ite (.throw _) (.ite (.pure _) (.ite (.pure _) (ensureToken_asks ..)))))

def ProtocolRefused (protocolID : WalletProtocol) : Prop := protocolID.level ≠ 0 ∧ isAdminProtocol protocolID = true

theorem ensureProtocolPermission_rejects {check : ProtocolCheck} (nonAdmin : NonAdmin manager check.originator)
    (refused : NoOriginator check.originator ∨ ProtocolRefused check.protocolID) : Rejects (manager.ensureProtocolPermission check) := by
  unfold ensureProtocolPermission
  rcases refused with none | ⟨level, reserved⟩
  · exact prepared_rejects none
  refine prepared_else nonAdmin fun prepared plain => ?_
  exact .negative (Bool.eq_false_iff.mp plain) (.negative level (.positive reserved (.throw _)))

theorem ensureProtocolPermission_passes {check : ProtocolCheck} (some : ¬ NoOriginator check.originator)
    (allowed : ¬ ProtocolRefused check.protocolID) : Passes (manager.ensureProtocolPermission check) := by
  unfold ensureProtocolPermission
  refine prepared_passes some fun prepared => ?_
  refine .ite (fun _ => .done _) fun _ => .ite (fun _ => .done _) fun level => ?_
  refine .ite (fun reserved => absurd ⟨level, reserved⟩ allowed) fun _ => ?_
  exact .ite (fun _ => .done _) fun _ => .ite (fun _ => .done _) fun _ => ensureToken_passes ..

theorem ensureBasketAccess_asks (check : BasketCheck) : OnlyAsks (manager.ensureBasketAccess check) := by
  unfold ensureBasketAccess
  refine (OnlyAsks.ofExcept _).bind fun prepared => ?_
  exact .ite (.pure _) (.ite (.throw _) (.ite (.pure _) (ensureToken_asks ..)))

theorem ensureBasketAccess_rejects {check : BasketCheck} (nonAdmin : NonAdmin manager check.originator)
    (refused : NoOriginator check.originator ∨ isAdminBasket check.basket = true) : Rejects (manager.ensureBasketAccess check) := by
  unfold ensureBasketAccess
  rcases refused with none | reserved
  · exact prepared_rejects none
  refine prepared_else nonAdmin fun prepared plain => ?_
  exact .negative (Bool.eq_false_iff.mp plain) (.positive reserved (.throw _))

theorem ensureBasketAccess_passes {check : BasketCheck} (some : ¬ NoOriginator check.originator)
    (allowed : ¬ isAdminBasket check.basket = true) : Passes (manager.ensureBasketAccess check) := by
  unfold ensureBasketAccess
  refine prepared_passes some fun prepared => ?_
  refine .ite (fun _ => .done _) fun _ => .ite (fun reserved => absurd reserved allowed) fun _ => ?_
  exact .ite (fun _ => .done _) fun _ => ensureToken_passes ..

theorem ensureLabelAccess_asks (check : LabelCheck) : OnlyAsks (manager.ensureLabelAccess check) := by
  unfold ensureLabelAccess
  refine (OnlyAsks.ofExcept _).bind fun prepared => ?_
  refine .ite (.pure _) (.ite (.throw _) (.ite (.pure _) (.ite (.pure _) (.ask id fun cached => ?_))))
  exact .ite (.pure _) (ensureProtocolPermission_asks _)

theorem ensureLabelAccess_rejects {check : LabelCheck} (nonAdmin : NonAdmin manager check.originator)
    (refused : NoOriginator check.originator ∨ isAdminLabel check.label = true) : Rejects (manager.ensureLabelAccess check) := by
  unfold ensureLabelAccess
  rcases refused with none | reserved
  · exact prepared_rejects none
  refine prepared_else nonAdmin fun prepared plain => ?_
  exact .negative (Bool.eq_false_iff.mp plain) (.positive reserved (.throw _))

theorem ensureLabelAccess_passes {check : LabelCheck} (some : ¬ NoOriginator check.originator)
    (allowed : ¬ isAdminLabel check.label = true) : Passes (manager.ensureLabelAccess check) := by
  unfold ensureLabelAccess
  refine prepared_passes some fun prepared => ?_
  refine .ite (fun _ => .done _) fun _ => .ite (fun reserved => absurd reserved allowed) fun _ => ?_
  exact .ite (fun _ => .done _) fun _ => .ite (fun _ => .done _) fun _ => ⟨true, rfl⟩

end

/-- Domains and names in ASCII. -/
def asciiPlatform : Platform where
  parseUrl url := some ⟨String.ofList (url.toList.drop 8), "", "https:"⟩
  toLowerCase text := String.ofList (text.toList.map Char.toLower)
  toUpperCase text := String.ofList (text.toList.map Char.toUpper)

def sampleManager : PermissionsManager := .new asciiPlatform "admin.com" {}

end WalletToolbox
