import WalletToolbox.Proofs.MergeChecks
import WalletToolbox.Proofs.BulkChains

/-! Carrying out a merge whose checks are passed: exactly when it succeeds, and what a failure leaves. -/

namespace WalletToolbox.Chaintracks.Bulk
open List

open Effects Fallible BulkFileDataManager

variable {world : World} {manager manager' after : BulkFileDataManager}

/-! What is asked for -/

@[simp] theorem point_clock (fileHash : String) (index) : (manager.point fileHash index).clock = manager.clock := rfl

@[simp] theorem put_clock (index : Nat) (bfd : BulkFileData) : (manager.put index bfd).clock = manager.clock := rfl

variable (world) in
def Untouched (manager after : BulkFileDataManager) : Prop := List.Forall₂ (Restocked world) manager.bfds after.bfds

/-! Writes to the storage -/

variable (world) in
def Written : Nat → List (Replies → Bool) → Prop
  | _, [] => True
  | clock, request :: requests => request (world.replies clock) = true ∧ Written (clock + 1) requests

theorem written_append (first second : List (Replies → Bool)) :
    ∀ clock, Written world clock (first ++ second) ↔ Written world clock first ∧ Written world (clock + first.length) second := by
  induction first with
  | nil => exact fun clock => by simp [Written]
  | cons request first ih =>
    intro clock
    rw [cons_append, Written, Written, ih, length_cons, and_assoc, Nat.add_right_comm, Nat.add_assoc]

def updateRequest (fileId : Option Nat) (info : BulkHeaderFileInfo) : List (Replies → Bool) :=
  (truthyId fileId).toList.map fun fileId replies => (replies.updateBulkFile fileId info).isOk

def insertRequest (info : BulkHeaderFileInfo) : List (Replies → Bool) := [fun replies => (replies.insertBulkFile info).isOk]

def deleteRequest (fileId : Option Nat) : List (Replies → Bool) :=
  (truthyId fileId).toList.map fun fileId replies => (replies.deleteBulkFile fileId).isOk

def cutRequest (cut : BulkFileData) (replaced : Option BulkFileData) : List (Replies → Bool) :=
  match replaced with
  | some _ => [fun replies => (replies.updateBulkFile (cut.fileId.getD 0) (bfdToInfo cut true)).isOk]
  | none => insertRequest { bfdToInfo cut true with fileId := none }

def planRequests (plan : UpdatePlan) (truncated : Option BulkFileData) : List (Replies → Bool) :=
  updateRequest plan.update.fileId (bfdToInfo plan.update true) ++ (truncated.toList.flatMap fun cut => cutRequest cut plan.replaced) ++
    deleteRequest (plan.drop.bind (·.fileId))

/-! The condition -/

variable (world) in
def Persists (manager : BulkFileDataManager) (requests : List (Replies → Bool)) : Prop :=
  manager.storage = true → Written world manager.clock requests

variable (world) in
/-- The last file can be cut once `update` has taken the place of `old`, and the requests that follow succeed. -/
def Shifts (loaded : BulkFileDataManager) (last : Nat) (update : BulkFileData) (index : Nat) (replaced : Option BulkFileData) : Prop :=
  ∃ old lbf data, loaded.bfds[index]? = some old ∧ loaded.bfds[last]? = some lbf ∧ lbf.data = some data ∧
    ((loaded.replaceBfdAtIndex index old update).fileHashToIndex lbf.fileHash = none ∨
      (loaded.replaceBfdAtIndex index old update).fileHashToIndex lbf.fileHash = some (index + 1) ∧ replaced.isSome = true) ∧
    Persists world loaded (planRequests ⟨update, index, some lbf, replaced, none⟩
      (some (cutFile world update lbf (update.count - (replaced.map (·.count)).getD 0) (if replaced.isSome then lbf.fileId else none) data)))

variable (world) in
/-- Nothing fails in what a merge does with a file once its checks are passed; where it
needs the data of the last file before it changes any file, the data may also be missing,
and a file may be written over by itself. -/
def Succeeds (start manager : BulkFileDataManager) : BulkWrite → Prop
  | .unchanged _ => True
  | .extend lbf vbf => ∃ loaded bfd data more,
      ensureDataAt world (manager.bfds.length - 1) (manager.lengthened lbf vbf) = (.ok (), loaded) ∧
      loaded.bfds[manager.bfds.length - 1]? = some bfd ∧ bfd.data = some data ∧ vbf.data = some more ∧
      (manager.storage = true → Written world loaded.clock (updateRequest bfd.fileId
        (bfdToInfo { bfd with data := some (data ++ more), fileHash := world.fileHash (data ++ more), mru := loaded.now world } true)))
  | .add vbf => Persists world manager (insertRequest
      ((((manager.push vbf).point vbf.fileHash (some manager.bfds.length)).ensureMaxRetained.bfds[manager.bfds.length]?.map (bfdToInfo · true)).getD (bfdToInfo vbf true)))
  | .replace update index drop => Persists world manager (planRequests ⟨update, index, none, none, drop⟩ none) ∨
      drop = none ∧ ∃ old, start.bfds[index]? = some old ∧ Restocked world old update
  | .shift update index replaced => match ensureDataAt world (manager.bfds.length - 1) manager with
    | (.error _, loaded) => Untouched world start loaded
    | (.ok _, loaded) => Shifts world loaded (manager.bfds.length - 1) update index replaced

variable (world) in
/-- The file is refused by the checks, or nothing fails after them. -/
def Careful (manager : BulkFileDataManager) (file : BulkHeaderFileInfo) : Prop :=
  match checkFile world file manager with
  | (.error _, _) => True
  | (.ok write, checked) => Succeeds world manager checked write

/-! Loading data -/

def Cached (file file' : BulkFileData) : Prop := file' = { file with data := file'.data, mru := file'.mru }

theorem cached_refl (files) : List.Forall₂ Cached files files := forall₂_same.mpr fun _ _ => rfl

theorem ensureMaxRetained_cached (manager : BulkFileDataManager) : List.Forall₂ Cached manager.bfds manager.ensureMaxRetained.bfds := by
  unfold ensureMaxRetained
  split
  · exact cached_refl _
  · apply forall₂_iff_get.mpr
    refine ⟨by simp, ?_⟩
    intro index inside inside'
    simp only [get_eq_getElem, getElem_mapIdx]
    split <;> rfl

theorem load_cached (manager) (bfd) : Cached bfd (load world manager bfd).bfd := by
  unfold load
  split
  · rfl
  · split
    · rfl
    · split <;> rfl

theorem set_cached (at' : files[index]? = some bfd) (cached : Cached bfd bfd') :
    List.Forall₂ Cached files (files.set index bfd') := by
  induction files generalizing index with
  | nil => simp at at'
  | cons file files ih =>
    cases index with
    | zero =>
      obtain rfl : file = bfd := by simpa using at'
      exact .cons cached (cached_refl _)
    | succ index => exact .cons rfl (ih (by simpa using at'))

theorem cached_trans (first : List.Forall₂ Cached ones others) (second : List.Forall₂ Cached others last) :
    List.Forall₂ Cached ones last := by
  induction first generalizing last with
  | nil => exact second
  | cons here _ ih =>
    cases second with
    | cons also rest => exact .cons (by unfold Cached at here also ⊢; rw [also, here]) (ih rest)

theorem ensureDataAt_cached (index : Nat) (manager : BulkFileDataManager) :
    List.Forall₂ Cached manager.bfds (ensureDataAt world index manager).2.bfds ∧ (ensureDataAt world index manager).2.storage = manager.storage ∧
      (ensureDataAt world index manager).2.fileHashToIndex = manager.fileHashToIndex := by
  unfold ensureDataAt
  cases at' : manager.bfds[index]? with
  | none => exact ⟨cached_refl _, rfl, rfl⟩
  | some bfd =>
    have set := set_cached at' (@load_cached world manager bfd)
    dsimp only
    split
    · exact ⟨set, rfl, rfl⟩
    · split
      · have released := ensureMaxRetained_cached
          { manager with bfds := manager.bfds.set index (load world manager bfd).bfd, clock := (load world manager bfd).clock }
        have same : ∀ manager : BulkFileDataManager, manager.ensureMaxRetained.storage = manager.storage := by
          intro manager
          unfold ensureMaxRetained
          split <;> rfl
        exact ⟨cached_trans set released, same _, (ensureMaxRetained_kept world _).index⟩
      · exact ⟨set, rfl, rfl⟩

theorem cached_at (cached : List.Forall₂ Cached files files') {index : Nat}
    (at' : files[index]? = some file) : ∃ file', files'[index]? = some file' ∧ Cached file file' := by
  obtain ⟨file', held, same⟩ := forall₂_getElem? cached.flip at'
  exact ⟨file', held, same⟩

/-! Files that were not touched -/

theorem Untouched.length (untouched : Untouched world manager after) : after.bfds.length = manager.bfds.length := untouched.length_eq.symm

theorem Untouched.at (untouched : Untouched world manager after) {index : Nat} {file} (at' : manager.bfds[index]? = some file) :
    ∃ file', after.bfds[index]? = some file' ∧ Restocked world file file' := by
  obtain ⟨file', held, same⟩ := forall₂_getElem? untouched.flip at'
  exact ⟨file', held, same⟩

theorem Untouched.count (untouched : Untouched world manager after) {index : Nat} (before : manager.bfds[index]? = some file)
    (at' : after.bfds[index]? = some file') : file'.count = file.count := by
  obtain ⟨_, stands, restocked⟩ := untouched.at before
  obtain rfl := Option.some.inj (at'.symm.trans stands)
  exact restocked.fields.2.1

theorem forall₂_set (related : List.Forall₂ R ones others) (at' : ones[index]? = some one) (also : R one other) : List.Forall₂ R ones (others.set index other) := by
  induction related generalizing index with
  | nil => simp at at'
  | cons here rest ih =>
    cases index with
    | zero =>
      obtain rfl := Option.some.inj at'
      exact .cons also rest
    | succ index => exact .cons here (ih at')

/-! Carrying a write out -/

theorem storage_bind_apply (request : Replies → Except BulkError α) (next : α → BulkM β) :
    (storage world request >>= next) manager =
      match request (world.replies manager.clock) with
      | .ok value => next value { manager with clock := manager.clock + 1 }
      | .error error => (.error error, { manager with clock := manager.clock + 1 }) := by
  rw [bind_apply]
  unfold storage
  cases request (world.replies manager.clock) with
  | ok value => rfl
  | error error => rfl

structure Decides {ε σ α : Type} (method : Fallible ε σ α) (state : σ) (condition : Prop) (post : α → σ → Prop) (failed : σ → Prop) : Prop where
  ok : condition → ∃ value after, method state = (.ok value, after) ∧ post value after
  error : ¬condition → ∃ error after, method state = (.error error, after) ∧ failed after

theorem Decides.bind {ε σ α β : Type} {method : Fallible ε σ α} {next : α → Fallible ε σ β} {state} {condition also : Prop}
    {middle post failed} (first : Decides method state condition middle failed)
    (then' : ∀ value after, middle value after → Decides (next value) after also post failed) :
    Decides (method >>= next) state (condition ∧ also) post failed := by
  by_cases met : condition
  · obtain ⟨value, after, run, holds⟩ := first.ok met
    have rest := then' value after holds
    constructor
    · intro both
      rw [bind_of_ok run]
      exact rest.ok both.2
    · intro fails
      rw [bind_of_ok run]
      exact rest.error fun also => fails ⟨met, also⟩
  · obtain ⟨error, after, run, holds⟩ := first.error met
    constructor
    · exact fun both => (met both.1).elim
    · exact fun _ => ⟨error, after, bind_of_error run, holds⟩

theorem Decides.mono
    (decides : Decides method state condition post failed) (ok : ∀ value after, post value after → also value after)
    (error : ∀ after, failed after → other after) : Decides method state condition also other := by
  constructor
  · intro met
    obtain ⟨value, after, run, holds⟩ := decides.ok met
    exact ⟨value, after, run, ok value after holds⟩
  · intro unmet
    obtain ⟨thrown, after, run, holds⟩ := decides.error unmet
    exact ⟨thrown, after, run, error after holds⟩

theorem Decides.current_bind {next : σ → Fallible ε σ α}
    (decides : Decides (next state) state condition post failed) : Decides (current >>= next) state condition post failed :=
  ⟨decides.ok, decides.error⟩

theorem Decides.change_bind {next : Unit → Fallible ε σ α} (decides : Decides (next ()) (f state) condition post failed) :
    Decides (change f >>= next) state condition post failed := ⟨decides.ok, decides.error⟩

theorem Decides.pure_bind {next : α → Fallible ε σ β} (decides : Decides (next value) state condition post failed) :
    Decides (pure value >>= next) state condition post failed := ⟨decides.ok, decides.error⟩

theorem Decides.of_ok {after}
    (run : method state = (.ok value, after)) (holds : post value after) : Decides method state True post failed :=
  ⟨fun _ => ⟨value, after, run, holds⟩, fun absurd => (absurd trivial).elim⟩

theorem Decides.congr
    (decides : Decides method state condition post failed) (same : other ↔ condition) : Decides method state other post failed := by
  rwa [propext same]

variable (world) in
def CarriedOut (start manager : BulkFileDataManager) (r : BulkFileDataManagerMergeResult) (write : BulkWrite) (failed : BulkFileDataManager → Prop) : Prop :=
  (Succeeds world start manager write → ∀ error after, carryOut world r write manager = (.error error, after) → Untouched world start after) ∧
  (¬Succeeds world start manager write → ∃ error after, carryOut world r write manager = (.error error, after) ∧ failed after)

theorem extend_carriedOut {start : BulkFileDataManager}
    (ends : manager.bfds[manager.bfds.length - 1]? = some lbf) :
    CarriedOut world start manager r (.extend lbf vbf) fun after =>
      ∃ file, after.bfds[manager.bfds.length - 1]? = some file ∧ file.count = lbf.count + vbf.count := by
  have inside := (List.getElem?_eq_some_iff.mp ends).1
  have lengthened : (manager.lengthened lbf vbf).bfds[manager.bfds.length - 1]? =
      some { lbf with count := lbf.count + vbf.count, lastHash := vbf.lastHash, lastChainWork := vbf.lastChainWork } := by
    simp [BulkFileDataManager.lengthened, put, inside]
  obtain ⟨cached, storage, _⟩ := @ensureDataAt_cached world (manager.bfds.length - 1) (manager.lengthened lbf vbf)
  obtain ⟨file, held, same⟩ := cached_at cached lengthened
  have count : file.count = lbf.count + vbf.count := by rw [same]
  simp only [CarriedOut, carryOut, current_bind_apply]
  unfold mergeIncremental
  rw [change_bind_apply]
  change (_ → ∀ error after, (ensureDataAt world _ >>= _) (manager.lengthened lbf vbf) = _ → _) ∧ (_ → ∃ error after, (ensureDataAt world _ >>= _) (manager.lengthened lbf vbf) = _ ∧ _)
  cases run : ensureDataAt world (manager.bfds.length - 1) (manager.lengthened lbf vbf) with
  | mk outcome loaded =>
    rw [run] at held storage
    have flag : loaded.storage = manager.storage := storage
    cases outcome with
    | error error =>
      rw [bind_of_error run]
      constructor
      · intro succeeds
        obtain ⟨_, _, _, _, loads, _⟩ := succeeds
        simp [run] at loads
      · exact fun _ => ⟨error, loaded, rfl, file, held, count⟩
    | ok _ =>
      rw [bind_of_ok run, current_bind_apply]
      simp only [held]
      -- What success asks for, of the state the load leaves.
      have asks : Succeeds world start manager (.extend lbf vbf) → ∃ data more, file.data = some data ∧ vbf.data = some more ∧
          (manager.storage = true → Written world loaded.clock (updateRequest file.fileId
            (bfdToInfo { file with data := some (data ++ more), fileHash := world.fileHash (data ++ more), mru := loaded.now world } true))) := by
        intro succeeds
        obtain ⟨_, bfd, data, more, loads, at', has, rest⟩ := succeeds
        rw [run] at loads
        obtain rfl := (Prod.mk.inj loads).2
        obtain rfl : file = bfd := Option.some.inj (held.symm.trans at')
        exact ⟨data, more, has, rest⟩
      cases stored : file.data with
      | none =>
        constructor
        · intro succeeds
          obtain ⟨data, _, has, _⟩ := asks succeeds
          rw [stored] at has
          contradiction
        · exact fun _ => ⟨.typeError, loaded, rfl, file, held, count⟩
      | some data =>
        cases given : vbf.data with
        | none =>
          constructor
          · intro succeeds
            obtain ⟨_, more, _, has, _⟩ := asks succeeds
            rw [given] at has
            contradiction
          · exact fun _ => ⟨.typeError, loaded, rfl, file, held, count⟩
        | some more =>
          have met : Succeeds world start manager (.extend lbf vbf) ↔ (manager.storage = true → Written world loaded.clock (updateRequest file.fileId
              (bfdToInfo { file with data := some (data ++ more), fileHash := world.fileHash (data ++ more), mru := loaded.now world } true))) := by
            constructor
            · intro succeeds
              obtain ⟨_, _, has, gives, written⟩ := asks succeeds
              obtain rfl := Option.some.inj (stored.symm.trans has)
              obtain rfl := Option.some.inj (given.symm.trans gives)
              exact written
            · exact fun written => ⟨loaded, file, data, more, run, held, stored, given, written⟩
          rw [met]
          dsimp only
          rw [change_bind_apply, flag]
          cases kept : manager.storage with
          | false => exact ⟨fun _ _ _ failed => by simp at failed, fun fails => (fails (by simp)).elim⟩
          | true =>
            cases id : truthyId file.fileId with
            | none => exact ⟨fun _ _ _ failed => by simp at failed, fun fails => (fails (by simp [updateRequest, id, Written])).elim⟩
            | some fileId =>
              have here := (List.getElem?_eq_some_iff.mp held).1
              simp only [updateRequest, id, Option.toList_some, List.map_cons, List.map_nil, Written, and_true, forall_const]
              simp only [storage_bind_apply, point_clock, put_clock]
              cases answer : (world.replies loaded.clock).updateBulkFile fileId
                (bfdToInfo { file with data := some (data ++ more), fileHash := world.fileHash (data ++ more), mru := loaded.now world } true) with
              | ok _ => exact ⟨fun _ _ _ failed => by simp at failed, fun fails => (fails rfl).elim⟩
              | error error =>
                refine ⟨fun written => ?_, fun _ => ⟨error, _, rfl,
                  { file with data := some (data ++ more), fileHash := world.fileHash (data ++ more), mru := loaded.now world }, ?_, count⟩⟩
                · contradiction
                · simp [point, put, here]

theorem add_carriedOut (valid : validateBfdForAdd manager vbf = .ok ()) :
    CarriedOut world start manager r (.add vbf) fun after => after.bfds.length = manager.bfds.length + 1 := by
  unfold CarriedOut carryOut
  simp only [Succeeds, Persists]
  unfold add
  rw [bind_assoc_apply, current_bind_apply, valid]
  dsimp only
  rw [bind_assoc_apply, change_bind_apply, bind_assoc_apply, current_bind_apply]
  have flag : ((manager.push vbf).point vbf.fileHash (some manager.bfds.length)).ensureMaxRetained.storage = manager.storage := by
    unfold ensureMaxRetained
    split <;> rfl
  have clock : ((manager.push vbf).point vbf.fileHash (some manager.bfds.length)).ensureMaxRetained.clock = manager.clock := by
    unfold ensureMaxRetained
    split <;> rfl
  rw [flag]
  cases kept : manager.storage with
  | false => exact ⟨fun _ _ _ failed => by simp at failed, fun fails => (fails (by simp)).elim⟩
  | true =>
    simp only [if_true, insertRequest, Written, and_true, forall_const]
    rw [bind_assoc_apply, storage_bind_apply, clock]
    cases answer : (world.replies manager.clock).insertBulkFile
      ((((manager.push vbf).point vbf.fileHash (some manager.bfds.length)).ensureMaxRetained.bfds[manager.bfds.length]?.map (bfdToInfo · true)).getD (bfdToInfo vbf true)) with
    | ok _ => exact ⟨fun _ _ _ failed => by simp [bind_apply] at failed, fun fails => (fails rfl).elim⟩
    | error error =>
      refine ⟨fun written => ?_, fun _ => ⟨error, _, rfl, ?_⟩⟩
      · contradiction
      · simp [ensureMaxRetained_length, point, push]

/-! Carrying an update out -/

/-- Of the files, at most the last one has changed, and only if there is a cut one to write. -/
structure Beside (manager after : BulkFileDataManager) (truncated : Option BulkFileData) : Prop where
  length : after.bfds.length = manager.bfds.length
  others : ∀ index, truncated = none ∨ index + 1 < manager.bfds.length → after.bfds[index]? = manager.bfds[index]?

theorem Beside.of_same (same : after.bfds = manager.bfds) : Beside manager after truncated := by
  constructor
  · rw [same]
  · intro _ _
    rw [same]

theorem Beside.trans (first : Beside manager manager' truncated) (second : Beside manager' after truncated) :
    Beside manager after truncated := by
  constructor
  · rw [second.length, first.length]
  · intro index other
    rw [second.others index (by rwa [first.length]), first.others index other]

theorem Beside.same (beside : Beside manager after none) : after.bfds = manager.bfds := ext_getElem? fun index => beside.others index (.inl rfl)

theorem storage_decides (request : Replies → Except BulkError α) (manager) :
    Decides (storage world request) manager ((request (world.replies manager.clock)).isOk = true)
      (fun _ after => after = { manager with clock := manager.clock + 1 }) (fun after => after = { manager with clock := manager.clock + 1 }) := by
  unfold storage
  cases answer : request (world.replies manager.clock) with
  | ok value =>
    constructor
    · intro _
      refine ⟨value, _, ?_, rfl⟩
      rw [answer]
    · exact fun refused => (refused rfl).elim
  | error error =>
    constructor
    · intro accepted
      contradiction
    · intro _
      refine ⟨error, _, ?_, rfl⟩
      rw [answer]

theorem storageOf_decides (fileId : Option Nat) (request : Nat → Replies → Except BulkError Unit) (manager) :
    Decides (storageOf world fileId request) manager
      (Written world manager.clock ((truthyId fileId).toList.map fun fileId replies => (request fileId replies).isOk))
      (fun _ after => after.bfds = manager.bfds ∧
        after.clock = manager.clock + ((truthyId fileId).toList.map fun fileId replies => (request fileId replies).isOk).length)
      (fun after => after.bfds = manager.bfds) := by
  unfold storageOf
  cases truthyId fileId with
  | none =>
    apply Decides.congr (Decides.of_ok rfl ⟨rfl, rfl⟩)
    simp [Written]
  | some fileId =>
    simp only [Option.toList_some, map_cons, map_nil, Written, and_true]
    apply (storage_decides (request fileId) manager).mono
    · intro _ _ same
      rw [same]
      exact ⟨rfl, rfl⟩
    · intro _ same
      rw [same]

theorem persistTruncated_decides (replaced truncated : Option BulkFileData) (manager) :
    Decides (persistTruncated world replaced truncated) manager
      (Written world manager.clock (truncated.toList.flatMap fun cut => cutRequest cut replaced))
      (fun _ after => Beside manager after truncated ∧
        after.clock = manager.clock + (truncated.toList.flatMap fun cut => cutRequest cut replaced).length)
      (fun after => Beside manager after truncated) := by
  cases truncated with
  | none =>
    unfold persistTruncated
    apply Decides.congr (Decides.of_ok rfl ⟨.of_same rfl, rfl⟩)
    simp [Written]
  | some cut =>
    simp only [Option.toList_some, flatMap_cons, flatMap_nil, append_nil]
    cases replaced with
    | some old =>
      unfold persistTruncated cutRequest
      apply Decides.congr _ Iff.rfl
      apply ((storage_decides (fun replies => replies.updateBulkFile (cut.fileId.getD 0) (bfdToInfo cut true)) manager).mono (fun _ _ => id) _).bind _
      · intro _ same
        rw [same]
        exact .of_same rfl
      · rintro _ _ rfl
        exact .of_ok rfl ⟨.of_same rfl, rfl⟩
    | none =>
      unfold persistTruncated cutRequest
      apply Decides.congr _ Iff.rfl
      apply ((storage_decides (fun replies => replies.insertBulkFile { bfdToInfo cut true with fileId := none }) manager).mono (fun _ _ => id) _).bind _
      · intro _ same
        rw [same]
        exact .of_same rfl
      · rintro fileId _ rfl
        refine .of_ok rfl ⟨⟨?_, ?_⟩, rfl⟩
        · simp [put]
        · intro index other
          have before := other.resolve_left (by simp)
          have apart : ¬manager.bfds.length - 1 = index := by omega
          simp [put, apart]

theorem persistUpdate_decides (plan : UpdatePlan) (truncated : Option BulkFileData) (manager : BulkFileDataManager) :
    Decides (persistUpdate world plan truncated) manager (Persists world manager (planRequests plan truncated))
      (fun _ after => Beside manager after truncated) (fun after => Beside manager after truncated) := by
  unfold persistUpdate Persists
  apply Decides.current_bind
  cases kept : manager.storage with
  | false =>
    apply Decides.congr (Decides.of_ok rfl (.of_same rfl))
    simp
  | true =>
    have asks : (true = true → Written world manager.clock (planRequests plan truncated)) ↔
        Written world manager.clock (updateRequest plan.update.fileId (bfdToInfo plan.update true)) ∧
          Written world (manager.clock + (updateRequest plan.update.fileId (bfdToInfo plan.update true)).length)
              (truncated.toList.flatMap fun cut => cutRequest cut plan.replaced) ∧
            Written world (manager.clock + (updateRequest plan.update.fileId (bfdToInfo plan.update true)).length +
              (truncated.toList.flatMap fun cut => cutRequest cut plan.replaced).length) (deleteRequest (plan.drop.bind (·.fileId))) ∧ True := by
      simp only [forall_const, planRequests, and_true]
      rw [written_append, written_append, and_assoc, length_append, Nat.add_assoc]
    apply Decides.congr _ asks
    apply ((storageOf_decides plan.update.fileId (fun fileId replies => replies.updateBulkFile fileId (bfdToInfo plan.update true)) manager).mono
      (fun _ _ => id) fun _ => Beside.of_same).bind
    intro _ first ⟨same, clock⟩
    change first.clock = manager.clock + (updateRequest plan.update.fileId (bfdToInfo plan.update true)).length at clock
    rw [← clock]
    have beside : Beside manager first truncated := .of_same same
    apply ((persistTruncated_decides plan.replaced truncated first).mono (fun _ _ => id) fun _ => beside.trans).bind
    intro cut second ⟨also, clock⟩
    rw [← clock]
    apply ((storageOf_decides (plan.drop.bind (·.fileId)) (fun fileId replies => replies.deleteBulkFile fileId) second).mono
      (fun _ _ => id) fun _ same => (beside.trans also).trans (.of_same same)).bind
    intro _ _ ⟨same, _⟩
    exact .of_ok rfl ((beside.trans also).trans (.of_same same))

def remainder (world : World) (update truncate : BulkFileData) (replaced : Option BulkFileData) : BulkFileData :=
  cutFile world update truncate (update.count - (replaced.map (·.count)).getD 0) (if replaced.isSome then truncate.fileId else none) (truncate.data.getD [])

theorem shiftWork_decides {update truncate : BulkFileData}
    (at' : manager.fileHashToIndex update.fileHash = some position) (marked : manager.bfds[index]? = some update)
    (before : replaced.isSome = true → index + 1 < manager.bfds.length) :
    Decides (shiftWork world update truncate replaced) manager
      (truncate.data.isSome = true ∧ (manager.fileHashToIndex truncate.fileHash = none ∨
        manager.fileHashToIndex truncate.fileHash = some (position + 1) ∧ replaced.isSome = true))
      (fun cut after => cut = remainder world update truncate replaced ∧ after.clock = manager.clock ∧ after.storage = manager.storage ∧
        after.bfds[index]? = some update ∧ index + 1 < after.bfds.length)
      (fun after => after.bfds[index]? = some update) := by
  obtain ⟨inside, found⟩ := List.getElem?_eq_some_iff.mp marked
  unfold shiftWork
  apply Decides.current_bind
  dsimp only
  rw [at']
  by_cases first : manager.fileHashToIndex truncate.fileHash = none ∨ manager.fileHashToIndex truncate.fileHash = (some position).map (· + 1)
  · by_cases second : manager.fileHashToIndex truncate.fileHash = none ∨ replaced.isSome = true
    · have hashes : manager.fileHashToIndex truncate.fileHash = none ∨
          manager.fileHashToIndex truncate.fileHash = some (position + 1) ∧ replaced.isSome = true := by
        rcases second with gone | given
        · exact .inl gone
        · exact first.imp id fun found => ⟨found, given⟩
      apply Decides.congr _ (and_iff_left hashes)
      constructor
      · intro some
        obtain ⟨data, held⟩ := Option.isSome_iff_exists.mp some
        rw [require_of first, require_of second, change_bind_apply, change_bind_apply]
        simp only [held, Option.map_some, change_bind_apply]
        refine ⟨_, _, rfl, ?_, ?_⟩
        · simp [remainder, cutFile, held]
        · cases replaced with
          | none => simp [put, push, point, inside, found, List.getElem?_append_left, List.getElem?_set]
          | some old =>
            have early := before rfl
            have apart : ¬manager.bfds.length - 1 = index := by omega
            simp [put, point, marked, apart, early]
      · intro missing
        have held : truncate.data = none := by simpa using missing
        rw [require_of first, require_of second, change_bind_apply, change_bind_apply]
        simp only [held, Option.map_none]
        refine ⟨_, _, rfl, ?_⟩
        cases replaced with
        | none => simp [push, point, inside, found, List.getElem?_append_left]
        | some old =>
          have early := before rfl
          have apart : ¬manager.bfds.length - 1 = index := by omega
          simp [put, point, marked, apart]
    · constructor
      · intro both
        exact (second (both.2.imp id And.right)).elim
      · intro _
        rw [require_of first, require_not second]
        exact ⟨_, _, rfl, marked⟩
  · constructor
    · intro both
      exact (first (both.2.imp id And.left)).elim
    · intro _
      rw [require_not first]
      exact ⟨_, _, rfl, marked⟩

variable {r : BulkFileDataManagerMergeResult} {update old lbf : BulkFileData} {index : Nat}

theorem finish_decides (plan : UpdatePlan) (truncated) (manager) :
    Decides (do
      let truncated ← persistUpdate world plan truncated
      change (·.ensureMaxRetained)
      pure (recordUpdateResults r plan truncated)) manager (Persists world manager (planRequests plan truncated))
      (fun _ _ => True) (fun after => Beside manager after truncated) := by
  apply Decides.congr _ (and_true _).symm.to_iff
  apply (persistUpdate_decides plan truncated manager).bind
  intro _ _ _
  exact .of_ok rfl trivial

theorem applyPlan_replace (drop : Option BulkFileData) (at' : manager.bfds[index]? = some old) :
    Decides (applyPlan world ⟨update, index, none, none, drop⟩ r) manager (Persists world manager (planRequests ⟨update, index, none, none, drop⟩ none))
      (fun _ _ => True) (fun after => after.bfds = if drop.isSome then (manager.bfds.set index update).dropLast else manager.bfds.set index update) := by
  unfold applyPlan
  apply Decides.current_bind
  simp only [at']
  apply Decides.change_bind
  apply Decides.pure_bind
  apply Decides.change_bind
  cases drop with
  | none => exact (finish_decides ⟨update, index, none, none, none⟩ none (manager.replaceBfdAtIndex index old update)).mono (fun _ _ => id) fun _ beside => beside.same
  | some gone =>
    exact (finish_decides ⟨update, index, none, none, some gone⟩ none ((manager.replaceBfdAtIndex index old update).dropLastBulkFile gone)).mono
      (fun _ _ => id) fun _ beside => beside.same

theorem applyPlan_cut {replaced : Option BulkFileData} (at' : manager.bfds[index]? = some old) (ends : manager.bfds[manager.bfds.length - 1]? = some lbf)
    (before : replaced.isSome = true → index + 1 < manager.bfds.length) :
    Decides (applyPlan world ⟨update, index, some lbf, replaced, none⟩ r) manager (Shifts world manager (manager.bfds.length - 1) update index replaced)
      (fun _ _ => True) (fun after => after.bfds[index]? = some update) := by
  have inside := (List.getElem?_eq_some_iff.mp at').1
  unfold applyPlan
  apply Decides.current_bind
  simp only [at']
  apply Decides.change_bind
  have pointed : (manager.replaceBfdAtIndex index old update).fileHashToIndex update.fileHash = some index := by
    simp [replaceBfdAtIndex, point]
  have marked : (manager.replaceBfdAtIndex index old update).bfds[index]? = some update := by
    simp [replaceBfdAtIndex, point, put, inside]
  have asks : Shifts world manager (manager.bfds.length - 1) update index replaced ↔
      (lbf.data.isSome = true ∧ ((manager.replaceBfdAtIndex index old update).fileHashToIndex lbf.fileHash = none ∨
        (manager.replaceBfdAtIndex index old update).fileHashToIndex lbf.fileHash = some (index + 1) ∧ replaced.isSome = true)) ∧
        Persists world manager (planRequests ⟨update, index, some lbf, replaced, none⟩ (some (remainder world update lbf replaced))) := by
    constructor
    · intro asked
      obtain ⟨_, _, data, holds, last, held, hashes, persists⟩ := asked
      obtain rfl := Option.some.inj (at'.symm.trans holds)
      obtain rfl := Option.some.inj (ends.symm.trans last)
      refine ⟨⟨by simp [held], hashes⟩, ?_⟩
      simpa only [remainder, held, Option.getD_some] using persists
    · intro asked
      obtain ⟨⟨given, hashes⟩, persists⟩ := asked
      obtain ⟨data, held⟩ := Option.isSome_iff_exists.mp given
      refine ⟨old, lbf, data, at', ends, held, hashes, ?_⟩
      simpa only [remainder, held, Option.getD_some] using persists
  apply Decides.congr _ asks
  apply (shiftWork_decides pointed marked _).bind
  · rintro _ after ⟨rfl, clock, storage, marked, early⟩
    apply Decides.pure_bind
    apply Decides.change_bind
    have same : Persists world manager (planRequests ⟨update, index, some lbf, replaced, none⟩ (some (remainder world update lbf replaced))) ↔
        Persists world after (planRequests ⟨update, index, some lbf, replaced, none⟩ (some (remainder world update lbf replaced))) := by
      unfold Persists
      rw [clock, storage]
      rfl
    apply Decides.congr _ same
    apply (finish_decides _ _ after).mono fun _ _ => id
    intro last beside
    rw [beside.others index (.inr early), marked]
  · intro given
    simpa [replaceBfdAtIndex, put, point] using before given

end WalletToolbox.Chaintracks.Bulk
