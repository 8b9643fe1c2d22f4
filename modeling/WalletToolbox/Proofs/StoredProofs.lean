import WalletToolbox.Proofs.ConcurrentRequests
import WalletToolbox.Proofs.RowWrites
import WalletToolbox.Proving.ProofPaths

/-! Which proofs are stored. The paths store what the services answer: the header that
comes with a merkle path, or the block that Arcade names. Only a new proof for a stored
one has its root confirmed, and then the header's is stored. -/

namespace WalletToolbox
open Async StorageRocksDb Chaintracks EntityProvenTxReq WalletStorageManager EntityProvenTx TaskCheckForProofs TaskArcadeSSE StorageProvider
open Program (ofExcept_ok_bind run_await run_bind run_ofExcept run_settle)

variable {W : Type}

/-- The services, which may answer anything and change with every answer. -/
structure ProofServices (W : Type) where
  getMerklePath : String → W → Except WalletError GetMerklePathResult × W
  findHeaderForHeight : Nat → W → Except WalletError (Option BlockHeader) × W
  getArcadeTx : String → W → Except WalletError (Option ArcadeTx) × W

def ProofServices.active (services : ProofServices W) (world : W) (height : Nat) : Option BlockHeader :=
  match (services.findHeaderForHeight height world).1 with
  | .ok header => header
  | .error _ => none

inductive ProofAnswer where
  | merklePath (txid : String) (reply : Except WalletError GetMerklePathResult)
  | header (height : Nat) (reply : Except WalletError (Option BlockHeader))
  | arcadeTx (txid : String) (reply : Except WalletError (Option ArcadeTx))
deriving DecidableEq

structure Moment (W : Type) where
  before : W
  answer : ProofAnswer
  after : W
deriving DecidableEq

/-- Where a call is: what it has been answered, and the proofs it has written, each with
the worlds it had passed until then. -/
structure ProofRun (W : Type) where
  database : Database
  world : W
  moments : List (Moment W) := []
  written : List (List W × TableProvenTx) := []

namespace ProofRun

def passed (run : ProofRun W) : List W := run.moments.map Moment.before ++ [run.world]

def rowsWritten : (call : StorageCall) → Except WalletError call.Result → Database → List TableProvenTx
  | .insert .provenTxs _, .ok row, _ => [row]
  | .update .provenTxs id _, _, after => ((after.records.row .provenTxs (.id id)).map Versioned.value).toList
  | _, _, _ => []

def stored (hash : ScriptHash) (call : StorageCall) (run : ProofRun W) : ProofRun W :=
  let (reply, database) := callAlone hash call run.database
  { run with database, written := run.written ++ (rowsWritten call reply database).map (run.passed, ·) }

def answered (answer : ProofAnswer) (after : W) (run : ProofRun W) : ProofRun W :=
  { run with world := after, moments := run.moments ++ [⟨run.world, answer, after⟩] }

def exec (hash : ScriptHash) (services : ProofServices W) : Machine proofs (ProofRun W)
  | .storage call, run => ((callAlone hash call run.database).1, run.stored hash call)
  | .getMerklePath txid, run =>
    let (reply, after) := services.getMerklePath txid run.world
    (reply, run.answered (.merklePath txid reply) after)
  | .findHeaderForHeight height, run =>
    let (reply, after) := services.findHeaderForHeight height run.world
    (reply, run.answered (.header height reply) after)
  | .getArcadeTx txid, run =>
    let (reply, after) := services.getArcadeTx txid run.world
    (reply, run.answered (.arcadeTx txid reply) after)

end ProofRun

variable (sdk : MerklePaths) (services : ProofServices W)

/-- A row holds a path that has its txid at its index, its height and its root, and the
block is the active one at that height, with that root. -/
structure ProofVerified (world : W) (row : TableProvenTx) : Prop where
  path : ∃ path leaf, row.merklePath = sdk.toBinary path ∧ path.leafOf row.txid = .ok (some leaf) ∧ leaf.offset = row.index ∧
    path.blockHeight = row.height ∧ sdk.computeRoot path row.txid = .ok row.merkleRoot
  active : ∃ header, services.active world row.height = some header ∧ header.merkleRoot = row.merkleRoot ∧ header.hash = row.blockHash

def WritesVerified (run : ProofRun W) : Prop :=
  ∀ entry ∈ run.written, ∃ world ∈ entry.1, ProofVerified sdk services world entry.2

structure RightProof (world : W) (txid : String) (path : MerklePath) (hash merkleRoot : String) : Prop where
  root : sdk.computeRoot path txid = .ok merkleRoot
  active : ∃ header, services.active world path.blockHeight = some header ∧ header.merkleRoot = merkleRoot ∧ header.hash = hash

def RightPath (maxAcceptableHeight : Nat) (moment : Moment W) : Prop :=
  ∀ txid result path header leaf, moment.answer = .merklePath txid (.ok result) → result.merklePath = some path →
    result.header = some header → header.height ≤ maxAcceptableHeight → path.leafOf txid = .ok (some leaf) →
    RightProof sdk services moment.after txid path header.hash header.merkleRoot

def RightArcadeTx (moment : Moment W) : Prop :=
  ∀ txid data text path root leaf, moment.answer = .arcadeTx txid (.ok (some data)) → truthyText data.merklePath = some text →
    sdk.fromHex text = .ok path → sdk.computeRoot path txid = .ok root → path.leafOf txid = .ok (some leaf) →
    (truthyId data.blockHeight).getD path.blockHeight = path.blockHeight ∧
      RightProof sdk services moment.after txid path (data.blockHash.getD "") root

def RightHeader (earlier later : Moment W) : Prop :=
  ∀ txid result path header leaf active, earlier.answer = .merklePath txid (.ok result) → result.merklePath = some path →
    result.header = some header → path.leafOf txid = .ok (some leaf) →
    later.answer = .header path.blockHeight (.ok (some active)) → sdk.computeRoot path txid = .ok active.merkleRoot →
    header.merkleRoot = active.merkleRoot ∧ header.hash = active.hash

inductive ProofCall where
  | checkProofs (options : ProofOptions) (select : List TableProvenTxReq → List TableProvenTxReq)
      (stored : ∀ reqs, select reqs ⊆ reqs)
  | fetchProofFromArcade (options : ProofOptions) (req : TableProvenTxReq)
  | reproveHeader (deactivatedHash : String)
  | reproveHeightMerkleRoot (height : Nat) (staleMerkleRoot : String)
  | reproveProven (provenTxId : Nat)

namespace ProofCall

def program : ProofCall → ProofM Unit
  | .checkProofs options select _ => do
    let _ ← TaskCheckForProofs.checkProofs sdk options select
  | .fetchProofFromArcade options req => TaskArcadeSSE.fetchProofFromArcade sdk options req
  | .reproveHeader deactivatedHash => WalletStorageManager.reproveHeader sdk deactivatedHash
  | .reproveHeightMerkleRoot height staleMerkleRoot => WalletStorageManager.reproveHeightMerkleRoot sdk height staleMerkleRoot
  | .reproveProven provenTxId => reproveStored sdk provenTxId

def Right : ProofCall → List (Moment W) → Prop
  | .checkProofs options _ _, moments => ∀ moment ∈ moments, RightPath sdk services options.maxAcceptableHeight moment
  | .fetchProofFromArcade _ _, moments => ∀ moment ∈ moments, RightArcadeTx sdk services moment
  | .reproveHeader _, moments | .reproveHeightMerkleRoot _ _, moments | .reproveProven _, moments =>
    moments.Pairwise (RightHeader sdk)

end ProofCall

/-- A call of a proof path, or whatever else goes on with the storage and outside. -/
inductive ProofStep (W : Type) where
  | call (call : ProofCall)
  | others (database : Database) (owned : RowsOwned database.records) (world : W)

def afterProofCall (hash : ScriptHash) (call : ProofCall) (state : Database × W) : ProofRun W :=
  ((call.program sdk).run (ProofRun.exec hash services) ⟨state.1, state.2, [], []⟩).2

def EachProofCall (hash : ScriptHash) (holds : ProofCall → ProofRun W → Prop) : List (ProofStep W) → Database × W → Prop
  | [], _ => True
  | .call call :: rest, state =>
    let after := afterProofCall sdk services hash call state
    holds call after ∧ EachProofCall hash holds rest (after.database, after.world)
  | .others database _ world :: rest, _ => EachProofCall hash holds rest (database, world)

def StoresProof (accepts : TableProvenTx → Prop) : StorageCall → Prop
  | .find _ _ | .update .transactions _ _ => True
  | .update .provenTxReqs _ changes => changes.provenTxReqId = none ∧ changes.txid = none
  | .insert .provenTxs row => ∀ id, accepts { row with provenTxId := id }
  | _ => False

structure StoredOnly (accepts : TableProvenTx → Prop) (run after : ProofRun W) : Prop where
  world : after.world = run.world
  moments : after.moments = run.moments
  owned : RowsOwned after.database.records
  txids : KeepsTxids .provenTxReqs run.database.records after.database.records
  written : ∃ rows, after.written = run.written ++ rows ∧ ∀ entry ∈ rows, entry.1 = run.passed ∧ accepts entry.2

section
variable {accepts : TableProvenTx → Prop} {hash : ScriptHash} {run after last : ProofRun W}

theorem StoredOnly.refl (owned : RowsOwned run.database.records) : StoredOnly accepts run run :=
  ⟨rfl, rfl, owned, fun _ row stored => ⟨row, stored, rfl⟩, [], (List.append_nil _).symm, nofun⟩

theorem StoredOnly.passed (only : StoredOnly accepts run after) : after.passed = run.passed := by
  unfold ProofRun.passed
  rw [only.world, only.moments]

theorem StoredOnly.trans (first : StoredOnly accepts run after) (rest : StoredOnly accepts after last) : StoredOnly accepts run last := by
  obtain ⟨early, wrote, accepted⟩ := first.written
  obtain ⟨late, more, also⟩ := rest.written
  refine ⟨rest.world.trans first.world, rest.moments.trans first.moments, rest.owned, first.txids.trans rest.txids, early ++ late, ?_, ?_⟩
  · rw [more, wrote, List.append_assoc]
  · intro entry member
    rcases List.mem_append.mp member with member | member
    · exact accepted entry member
    · exact ⟨(also entry member).1.trans first.passed, (also entry member).2⟩

theorem stored_silent (rows : Records) (none : ∀ reply after, ProofRun.rowsWritten call reply after = [])
    (same : SameRows rows (callAlone hash call run.database).2.records) (owned : RowsOwned rows)
    (txids : KeepsTxids .provenTxReqs run.database.records rows) : StoredOnly accepts run (run.stored hash call) := by
  refine ⟨rfl, rfl, same.owned owned, txids.trans same.keepsTxids, [], ?_, nofun⟩
  rw [ProofRun.stored]
  simp only [none, List.map_nil]

theorem stored_only (allowed : StoresProof accepts call) (owned : RowsOwned run.database.records) :
    StoredOnly accepts run (run.stored hash call) := by
  have unchanged : KeepsTxids .provenTxReqs run.database.records run.database.records := fun _ row stored => ⟨row, stored, rfl⟩
  cases call with
  | allocateChangeInput => exact allowed.elim
  | find table args =>
    refine stored_silent run.database.records (fun _ _ => rfl) ?_ owned unchanged
    rw [callAlone_find]
    exact fun _ _ => rfl
  | insert table row =>
    cases table with
    | provenTxs =>
      obtain ⟨inserted, ran, same, is⟩ := @insertEntity_rows hash run.database .provenTxs row
      have called : callAlone hash (.insert .provenTxs row) run.database = (.ok inserted,
          { (prepared .provenTxs row run.database).2 with records := withRow .provenTxs inserted (prepared .provenTxs row run.database).2.records }) := ran
      have accepted : accepts inserted := by
        rcases is with rfl | ⟨id, rfl⟩
        · exact allowed inserted.provenTxId
        · exact allowed id
      have kept : (run.stored hash (.insert .provenTxs row)).database.records =
          withRow .provenTxs inserted (prepared .provenTxs row run.database).2.records := by
        rw [ProofRun.stored, called]
      refine ⟨rfl, rfl, ?_, ?_, [(run.passed, inserted)], ?_, ?_⟩
      · rw [kept]
        exact withRow_owned .provenTxs inserted (same.owned owned)
      · rw [kept]
        exact same.keepsTxids.trans (withRow_keepsTxids_other .provenTxs inserted _ (by simp))
      · rw [ProofRun.stored, called]
        rfl
      · intro entry member
        cases List.mem_singleton.mp member
        exact ⟨rfl, accepted⟩
    | _ => exact allowed.elim
  | update table key changes =>
    rcases @callAlone_update hash run.database table key changes with ⟨_, same⟩ | ⟨existing, found, same⟩
    · have silent : SameRows run.database.records (callAlone hash (.update table key changes) run.database).2.records :=
        fun another other => congrArg (fun database : Database => database.records.row another other) same
      cases table with
      | transactions => exact stored_silent _ (fun _ _ => rfl) silent owned unchanged
      | provenTxReqs => exact stored_silent _ (fun _ _ => rfl) silent owned unchanged
      | _ => exact allowed.elim
    · cases table with
      | transactions =>
        refine stored_silent _ (fun _ _ => rfl) same ?_ ?_
        · exact withRow_owned .transactions _ owned
        · exact withRow_keepsTxids_other .transactions _ _ (by simp)
      | provenTxReqs =>
        obtain ⟨sameId, sameTxid⟩ := allowed
        refine stored_silent _ (fun _ _ => rfl) same (withRow_owned _ _ owned) ?_
        have found : run.database.records.row .provenTxReqs (.id key) = some existing := found
        have own : rowKey .provenTxReqs (changes.spread existing.value) = .id key := by
          rw [← owned .provenTxReqs _ existing found]
          simp [rowKey, ProvenTxReqUpdate.spread, sameId]
        have kept : rowTxid .provenTxReqs (changes.spread existing.value) = rowTxid .provenTxReqs existing.value := by
          simp [rowTxid, ProvenTxReqUpdate.spread, sameTxid]
        exact withRow_keepsTxids (own ▸ found) kept
      | _ => exact allowed.elim

def storageOnly (hash : ScriptHash) : Machine storage (ProofRun W) := fun call run => ((callAlone hash call run.database).1, run.stored hash call)

variable {services : ProofServices W}

theorem onStorage_run (method : StorageM α) (run : ProofRun W) :
    (ProofM.onStorage method).run (ProofRun.exec hash services) run = method.run (storageOnly hash) run := by
  rw [ProofM.onStorage, Program.run_translate]
  congr 1
  funext call before
  rw [run_await, run_ofExcept]
  rfl

theorem onStorage_only {α : Type} {method : StorageM α} (uses : method.Uses (StoresProof accepts)) (owned : RowsOwned run.database.records) :
    StoredOnly accepts run ((ProofM.onStorage method).run (ProofRun.exec hash services) run).2 := by
  rw [onStorage_run]
  have step : ∀ call (store : ProofRun W), StoresProof accepts call → StoredOnly accepts run store →
      StoredOnly accepts run (storageOnly hash call store).2 :=
    fun call store allowed only => only.trans (stored_only allowed only.owned)
  exact Program.run_preserves (storageOnly hash) step uses (.refl owned)

end

section
variable {accepts : TableProvenTx → Prop}

theorem updateDynamics_uses (req : TableProvenTxReq) :
    (updateStorageDynamicProperties req).Uses (StoresProof accepts) := await_uses ⟨rfl, rfl⟩

theorem refreshFromStorage_uses (req : TableProvenTxReq) : (refreshFromStorage req).Uses (StoresProof accepts) :=
  Program.Uses.bind (await_uses trivial) fun found => (verifyOne_uses found).bind fun _ => trivial

theorem fromStorageId_uses (id : Nat) : (fromStorageId id).Uses (StoresProof accepts) := by
  refine Program.Uses.bind (await_uses trivial) fun found => (verifyOneOrNone_uses found).bind fun req => ?_
  cases req <;> trivial

theorem settle_await_uses (may : allowed call) :
    (call.await.settle : StorageM _).Uses allowed := (await_uses may).settle

theorem notifyEachOfProof_uses (now : Clock) (provenTxId : Nat) (ids : List Nat) (req : TableProvenTxReq) :
    (notifyEachOfProof now provenTxId ids req).Uses (StoresProof accepts) := by
  induction ids generalizing req with
  | nil => trivial
  | cons id rest ih => exact Program.Uses.bind (settle_await_uses trivial) fun outcome => ih _

theorem notifyTransactionsOfProof_uses (now : Clock) (ids : List Nat) (provenTxId : Nat) (req : TableProvenTxReq) :
    (notifyTransactionsOfProof now ids provenTxId req).Uses (StoresProof accepts) := by
  apply Program.Uses.ite
  · trivial
  · refine (notifyEachOfProof_uses now provenTxId ids req).bind fun noted => ?_
    exact (updateDynamics_uses noted).bind fun _ => trivial

def RowsOf (accepts : TableProvenTx → Prop) (args : StorageProvider.UpdateProvenTxReqWithNewProvenTxArgs) : Prop :=
  ∀ provenTxId rawTx, accepts ⟨provenTxId, args.txid, args.height, args.index, args.merklePath, rawTx, args.blockHash, args.merkleRoot⟩

theorem updateProvenTxReqWithNewProvenTx_uses {now args}
    (accepted : RowsOf accepts args) :
    (updateProvenTxReqWithNewProvenTx now args).Uses (StoresProof accepts) := by
  refine (fromStorageId_uses args.provenTxReqId).bind fun req => ?_
  have completes : (completeReqScope now args req).Uses (StoresProof accepts) := by
    refine (findOrInsertProvenTx_uses trivial fun id => accepted id req.rawTx).bind fun (proven, isNew) => ?_
    apply Program.Uses.ite
    · exact (updateDynamics_uses _).bind fun _ => trivial
    · trivial
  cases truthyId req.provenTxId with
  | some _ => exact Program.Uses.bind (await_uses trivial) fun found => (verifyOne_uses found).bind fun _ => trivial
  | none =>
    refine Program.Uses.bind completes fun (proven, isNew, completed) => ?_
    apply Program.Uses.ite
    · exact (notifyTransactionsOfProof_uses now _ _ _).bind fun _ => trivial
    · trivial

end

section
variable {sdk : MerklePaths} {services : ProofServices W} {hash : ScriptHash} {right : List (Moment W) → Prop} {run after : ProofRun W}

structure Checked (sdk : MerklePaths) (services : ProofServices W) (right : List (Moment W) → Prop) (run : ProofRun W) : Prop where
  owned : RowsOwned run.database.records
  sound : right run.moments → WritesVerified sdk services run

def PrefixClosed (right : List (Moment W) → Prop) : Prop := ∀ moments moment, right (moments ++ [moment]) → right moments

def VerifiedIf (sdk : MerklePaths) (services : ProofServices W) (right : List (Moment W) → Prop) (run : ProofRun W) (row : TableProvenTx) :
    Prop := right run.moments → ∃ world ∈ run.passed, ProofVerified sdk services world row

theorem Checked.stored (checked : Checked sdk services right run) (only : StoredOnly (VerifiedIf sdk services right run) run after) :
    Checked sdk services right after := by
  refine ⟨only.owned, fun holds entry member => ?_⟩
  rw [only.moments] at holds
  obtain ⟨rows, wrote, accepted⟩ := only.written
  rw [wrote] at member
  rcases List.mem_append.mp member with member | member
  · exact checked.sound holds entry member
  · obtain ⟨passed, verified⟩ := accepted entry member
    rw [passed]
    exact verified holds

theorem Checked.answered (checked : Checked sdk services right run) (closed : PrefixClosed right) (answer : ProofAnswer) (world : W) :
    Checked sdk services right (run.answered answer world) :=
  ⟨checked.owned, fun holds => checked.sound (closed _ _ holds)⟩

theorem Checked.onStorage {α : Type} (checked : Checked sdk services right run) {method : StorageM α}
    (uses : method.Uses (StoresProof (VerifiedIf sdk services right run))) :
    (ProofM.onStorage method).Ends (ProofRun.exec hash services) run fun _ after =>
      StoredOnly (VerifiedIf sdk services right run) run after ∧ Checked sdk services right after := by
  have only := @onStorage_only _ _ hash run services _ _ uses checked.owned
  exact ⟨only, checked.stored only⟩

theorem StoredOnly.verified (only : StoredOnly (VerifiedIf sdk services right run) run after)
    (verified : VerifiedIf sdk services right run row) : VerifiedIf sdk services right after row := by
  intro holds
  rw [only.moments] at holds
  rw [only.passed]
  exact verified holds

theorem getMerklePath_ends
    (replied : ∀ reply world, post reply (run.answered (.merklePath txid reply) world)) :
    (ProofM.getMerklePath txid).Ends (ProofRun.exec hash services) run post := by
  unfold Program.Ends ProofM.getMerklePath
  rw [run_await, run_ofExcept]
  exact replied _ _

end

section
variable {sdk : MerklePaths} {options : ProofOptions}

theorem noteResult_same (notes : List ReqHistoryNote) (req : TableProvenTxReq) :
    (noteResult options notes req).provenTxReqId = req.provenTxReqId ∧
      (noteResult options notes req).txid = req.txid := by
  unfold noteResult
  induction notes generalizing req with
  | nil => exact ⟨rfl, rfl⟩
  | cons first rest ih =>
    obtain ⟨id, txid⟩ := ih (addHistoryNote options.now first true req)
    exact ⟨id.trans (by simp), txid.trans (by simp)⟩

theorem countAttempt_same (counts : Bool) (req : TableProvenTxReq) :
    (countAttempt counts req).provenTxReqId = req.provenTxReqId ∧
      (countAttempt counts req).txid = req.txid := by
  unfold countAttempt
  split <;> exact ⟨rfl, rfl⟩

theorem applyProofTimeout_id (now : Clock) (limit : Nat) (req : TableProvenTxReq) :
    (applyProofTimeout now limit req).provenTxReqId = req.provenTxReqId := by
  unfold applyProofTimeout
  dsimp only
  split
  · exact setStatus_id ..
  · split
    · exact setStatus_id ..
    · exact setStatus_id ..

theorem giveUp_id (req : TableProvenTxReq) : (giveUp options req).provenTxReqId = req.provenTxReqId := by
  unfold giveUp
  dsimp only
  split
  · exact (applyProofTimeout_id ..).trans (addHistoryNote_id ..)
  · rfl

theorem fromPath_spec (req : TableProvenTxReq) (path : MerklePath) (header : Option BlockHeader) :
    (fromPath sdk options req path header).2.provenTxReqId = req.provenTxReqId ∧
      ∀ proven, (fromPath sdk options req path header).1 = some proven → ∃ leaf given,
        path.leafOf req.txid = .ok (some leaf) ∧ header = some given ∧ proven = newProven sdk req path leaf given := by
  unfold fromPath
  split
  next => exact ⟨addHistoryNote_id .., nofun⟩
  next => exact ⟨(addHistoryNote_id ..).trans (addHistoryNote_id ..), nofun⟩
  next => exact ⟨addHistoryNote_id .., nofun⟩
  next leaf given found =>
    refine ⟨rfl, fun proven made => ?_⟩
    cases made
    exact ⟨leaf, given, found, rfl, rfl⟩

theorem fromReq_ok
    (made : fromReq sdk options req result counts = .ok (proven, tried)) :
    tried.provenTxReqId = req.provenTxReqId ∧ ∀ row, proven = some row → ∃ path leaf header, result.merklePath = some path ∧
      result.header = some header ∧ path.leafOf req.txid = .ok (some leaf) ∧ row.height = path.blockHeight ∧ row.index = leaf.offset ∧
      row.merklePath = sdk.toBinary path ∧ row.blockHash = header.hash ∧ row.merkleRoot = header.merkleRoot := by
  unfold fromReq at made
  split at made
  next => cases made
  next =>
    obtain ⟨id, txid⟩ := @noteResult_same options result.notes req
    split at made
    next =>
      split at made
      next =>
        cases made
        exact ⟨id, nofun⟩
      next =>
        cases made
        exact ⟨(giveUp_id _).trans id, nofun⟩
    next path found =>
      obtain ⟨countedId, countedTxid⟩ := countAttempt_same counts (noteResult options result.notes req)
      have spec := @fromPath_spec sdk options
        (countAttempt counts (noteResult options result.notes req)) path result.header
      rw [Except.ok.inj made, countedTxid, txid, countedId, id] at spec
      refine ⟨spec.1, fun row is => ?_⟩
      obtain ⟨leaf, header, holds, given, rfl⟩ := spec.2 row is
      exact ⟨path, leaf, header, found, given, holds, rfl, rfl, rfl, rfl, rfl⟩

end

section
variable {sdk : MerklePaths} {services : ProofServices W} {hash : ScriptHash} {right : List (Moment W) → Prop} {run : ProofRun W}
  {options : ProofOptions}

/-- The state of a call later on: what is written is verified, and the requests have their txids. -/
structure Onward (sdk : MerklePaths) (services : ProofServices W) (right : List (Moment W) → Prop) (run after : ProofRun W) : Prop where
  checked : Checked sdk services right after
  txids : KeepsTxids .provenTxReqs run.database.records after.database.records

theorem Onward.trans (first : Onward sdk services right run middle) (rest : Onward sdk services right middle after) :
    Onward sdk services right run after := ⟨rest.checked, first.txids.trans rest.txids⟩

def KnownTxid (records : Records) (id : Nat) (txid : String) : Prop :=
  ∀ row, records.row .provenTxReqs (.id id) = some row → row.value.txid = txid

theorem KnownTxid.later {before after id txid} (known : KnownTxid before id txid)
    (txids : KeepsTxids .provenTxReqs before after) : KnownTxid after id txid := by
  intro row stored
  obtain ⟨old, here, same⟩ := txids (.id id) row stored
  exact same.trans (known old here)

theorem await_run (call : StorageCall) (run : ProofRun W) :
    call.await.run (storageOnly hash) run = ((callAlone hash call run.database).1, run.stored hash call) := by
  rw [StorageCall.await, run_await, run_ofExcept]
  rfl

theorem refresh_txid {req read after}
    (ran : (ProofM.onStorage (refreshFromStorage req)).run (ProofRun.exec hash services) run = (.ok read, after))
    (known : KnownTxid run.database.records req.provenTxReqId txid) : read.txid = txid := by
  rw [onStorage_run, refreshFromStorage, run_bind, await_run] at ran
  cases found : (callAlone hash (.find .provenTxReqs { provenTxReqId := req.provenTxReqId }) run.database).1 with
  | error error =>
    rw [found] at ran
    cases ran
  | ok rows =>
    rw [found] at ran
    match rows with
    | [] => cases ran
    | _ :: _ :: _ => cases ran
    | [row] =>
      cases ran
      obtain ⟨stored, here, same⟩ := findEntities_byId found row (.head _)
      exact same ▸ known stored here

theorem Checked.onStorage_onward {α : Type} (checked : Checked sdk services right run) {method : StorageM α}
    (uses : method.Uses (StoresProof (VerifiedIf sdk services right run))) :
    (ProofM.onStorage method).Ends (ProofRun.exec hash services) run fun _ after => Onward sdk services right run after :=
  (checked.onStorage uses).mono fun _ _ ⟨only, after⟩ => ⟨after, only.txids⟩

theorem Onward.refl (checked : Checked sdk services right run) : Onward sdk services right run run :=
  ⟨checked, fun _ row stored => ⟨row, stored, rfl⟩⟩

theorem Onward.bind {α β : Type} {program : ProofM α} {next : α → ProofM β}
    (first : program.Ends (ProofRun.exec hash services) run fun _ after => Onward sdk services right run after)
    (rest : ∀ value after, program.run (ProofRun.exec hash services) run = (.ok value, after) → Onward sdk services right run after →
      (next value).Ends (ProofRun.exec hash services) after fun _ last => Onward sdk services right after last) :
    (program >>= next).Ends (ProofRun.exec hash services) run fun _ last => Onward sdk services right run last := by
  apply Program.Ends.bind
  unfold Program.Ends at first ⊢
  cases ran : program.run (ProofRun.exec hash services) run with
  | mk outcome after =>
    rw [ran] at first
    cases outcome with
    | error _ => exact first
    | ok value => exact first.trans (rest value after ran first)

theorem storeProof_ends (checked : Checked sdk services right run)
    (known : KnownTxid run.database.records req.provenTxReqId txid)
    (verified : ∀ provenTxId rawTx, VerifiedIf sdk services right run
      ⟨provenTxId, txid, proven.height, proven.index, proven.merklePath, rawTx, proven.blockHash, proven.merkleRoot⟩) :
    (storeProof options req proven).Ends (ProofRun.exec hash services) run fun _ after => Onward sdk services right run after := by
  apply Program.Ends.bind
  refine (checked.onStorage (updateDynamics_uses req)).mono fun outcome first ⟨only, checked⟩ => ?_
  cases outcome with
  | error _ => exact ⟨checked, only.txids⟩
  | ok _ =>
    apply Program.Ends.bind
    have known := known.later only.txids
    unfold Program.Ends
    have refreshed := @Checked.onStorage _ _ _ hash _ _ _ checked _ (refreshFromStorage_uses req)
    unfold Program.Ends at refreshed
    cases ran : (ProofM.onStorage (refreshFromStorage req)).run (ProofRun.exec hash services) first with
    | mk outcome second =>
      rw [ran] at refreshed
      obtain ⟨also, checked⟩ := refreshed
      have txids := only.txids.trans also.txids
      cases outcome with
      | error _ => exact ⟨checked, txids⟩
      | ok read =>
        have stays := refresh_txid ran known
        have accepted : RowsOf (VerifiedIf sdk services right second) {
            provenTxReqId := read.provenTxReqId, txid := read.txid, height := proven.height, index := proven.index,
            blockHash := proven.blockHash, merkleRoot := proven.merkleRoot, merklePath := proven.merklePath } := by
          intro provenTxId rawTx
          rw [stays]
          exact also.verified (only.verified (verified provenTxId rawTx))
        refine Program.Ends.returns ?_ _
        exact (checked.onStorage (updateProvenTxReqWithNewProvenTx_uses accepted)).mono fun _ _ ⟨last, checked⟩ =>
          ⟨checked, txids.trans last.txids⟩

def RightPaths (sdk : MerklePaths) (services : ProofServices W) (options : ProofOptions) (moments : List (Moment W)) : Prop :=
  ∀ moment ∈ moments, RightPath sdk services options.maxAcceptableHeight moment

theorem RightPaths.closed : PrefixClosed (RightPaths sdk services options) :=
  fun _ _ holds moment member => holds moment (List.mem_append_left _ member)

theorem requestProof_ends (checked : Checked sdk services (RightPaths sdk services options) run)
    (known : KnownTxid run.database.records req.provenTxReqId req.txid) :
    (requestProof sdk options req).Ends (ProofRun.exec hash services) run
      fun _ after => Onward sdk services (RightPaths sdk services options) run after := by
  apply Program.Ends.bind
  apply getMerklePath_ends
  intro reply world
  have answered := checked.answered RightPaths.closed (.merklePath req.txid reply) world
  have onward : Onward sdk services (RightPaths sdk services options) run (run.answered (.merklePath req.txid reply) world) :=
    ⟨answered, fun _ row stored => ⟨row, stored, rfl⟩⟩
  cases reply with
  | error _ => exact onward
  | ok result =>
    refine Program.Ends.mono ?_ fun _ _ rest => onward.trans rest
    dsimp only
    split
    next => exact .refl answered
    next acceptable =>
      cases made : fromReq sdk options req result (options.countsAsAttempt && req.status ≠ .nosend) with
      | error _ => exact .refl answered
      | ok both =>
        obtain ⟨proven, tried⟩ := both
        obtain ⟨id, proves⟩ := fromReq_ok made
        have settles : (settleProof options tried proven).Ends (ProofRun.exec hash services)
            (run.answered (.merklePath req.txid (.ok result)) world)
            fun _ after => Onward sdk services (RightPaths sdk services options) (run.answered (.merklePath req.txid (.ok result)) world) after := by
          cases proven with
          | none => exact .refl answered
          | some row =>
            refine storeProof_ends answered (id ▸ known) fun provenTxId rawTx holds => ?_
            obtain ⟨path, leaf, header, found, given, leads, height, index, bytes, blockHash, root⟩ := proves row rfl
            -- the answer that has just been given is right
            have low : header.height ≤ options.maxAcceptableHeight := by
              rw [given] at acceptable
              simpa using acceptable
            have proof := holds _ (List.mem_append_right _ (.head _)) _ result path header leaf rfl found given low leads
            refine ⟨world, List.mem_append_right _ (.head _), ?_, ?_⟩
            · exact ⟨path, leaf, bytes, leads, index.symm, height.symm, root ▸ proof.root⟩
            · obtain ⟨active, here, sameRoot, sameHash⟩ := proof.active
              exact ⟨active, height ▸ here, sameRoot.trans root.symm, sameHash.trans blockHash.symm⟩
        rw [ofExcept_ok_bind]
        refine Onward.bind settles fun settled after _ onward => ?_
        refine Onward.bind (onward.checked.onStorage_onward (updateDynamics_uses settled)) fun _ after _ onward => ?_
        exact Onward.bind (onward.checked.onStorage_onward (refreshFromStorage_uses settled)) fun _ after _ onward => .refl onward.checked

theorem finish_ends (checked : Checked sdk services right run) (req reqApi : TableProvenTxReq)
    (verdict : TableProvenTxReq → TaskCheckForProofs.Verdict) :
    (finish req reqApi verdict).Ends (ProofRun.exec hash services) run fun _ after => Onward sdk services right run after :=
  Onward.bind (checked.onStorage_onward (updateDynamics_uses req)) fun _ _ _ onward => .refl onward.checked

theorem getProof_ends (checked : Checked sdk services (RightPaths sdk services options) run)
    (known : KnownTxid run.database.records reqApi.provenTxReqId reqApi.txid) :
    (getProof sdk options reqApi).Ends (ProofRun.exec hash services) run
      fun _ after => Onward sdk services (RightPaths sdk services options) run after := by
  unfold getProof
  dsimp only
  split
  next => exact .refl checked
  next =>
    split
    next => exact finish_ends checked _ _ _
    next =>
      split
      next => exact finish_ends checked _ _ _
      next =>
        split
        next => exact finish_ends checked _ _ _
        next => exact requestProof_ends checked known

theorem getProofs_ends (reqs : List TableProvenTxReq) (checked : Checked sdk services (RightPaths sdk services options) run)
    (known : ∀ req ∈ reqs, KnownTxid run.database.records req.provenTxReqId req.txid) :
    (getProofs sdk options reqs).Ends (ProofRun.exec hash services) run
      fun _ after => Onward sdk services (RightPaths sdk services options) run after := by
  induction reqs generalizing run with
  | nil => exact .refl checked
  | cons req rest ih =>
    refine Onward.bind (getProof_ends checked (known req (.head _))) fun verdict after _ onward => ?_
    have others := ih onward.checked fun other member => (known other (.tail _ member)).later onward.txids
    exact Onward.bind others fun _ _ _ onward => .refl onward.checked

theorem checkProofs_ends (checked : Checked sdk services (RightPaths sdk services options) run)
    {select : List TableProvenTxReq → List TableProvenTxReq} (stored : ∀ reqs, select reqs ⊆ reqs) :
    (TaskCheckForProofs.checkProofs sdk options select).Ends (ProofRun.exec hash services) run
      fun _ after => Onward sdk services (RightPaths sdk services options) run after := by
  refine Onward.bind (checked.onStorage_onward (await_uses trivial)) fun reqs after ran onward => ?_
  refine getProofs_ends (select reqs) onward.checked fun req member => ?_
  rw [onStorage_run, await_run] at ran
  obtain ⟨found, rfl⟩ := Prod.mk.inj ran
  have kept : (run.stored hash (.find .provenTxReqs {})).database = run.database := @callAlone_find hash run.database .provenTxReqs {}
  obtain ⟨row, here, same⟩ := findEntities_stored checked.owned none _ found req (stored reqs member)
  intro other there
  rw [kept] at there
  cases here.symm.trans there
  rw [same]

def RightArcadeTxs (sdk : MerklePaths) (services : ProofServices W) (moments : List (Moment W)) : Prop :=
  ∀ moment ∈ moments, RightArcadeTx sdk services moment

theorem RightArcadeTxs.closed : PrefixClosed (RightArcadeTxs sdk services) :=
  fun _ _ holds moment member => holds moment (List.mem_append_left _ member)

theorem arcadeProof_ok
    (made : arcadeProof sdk txid data = .ok (some proof)) : ∃ text path root leaf,
      truthyText data.merklePath = some text ∧ sdk.fromHex text = .ok path ∧ sdk.computeRoot path txid = .ok root ∧
      path.leafOf txid = .ok (some leaf) ∧
      proof = ⟨leaf.offset, (truthyId data.blockHeight).getD path.blockHeight, data.blockHash.getD "", root, sdk.toBinary path⟩ := by
  unfold arcadeProof at made
  split at made
  next => cases made
  next text given =>
    obtain ⟨path, parsed, made⟩ := Effects.bind_eq_ok.mp made
    obtain ⟨root, computed, made⟩ := Effects.bind_eq_ok.mp made
    obtain ⟨found, leads, made⟩ := Effects.bind_eq_ok.mp made
    cases found with
    | none => cases made
    | some leaf =>
      cases made
      exact ⟨text, path, root, leaf, given, parsed, computed, leads, rfl⟩

theorem readArcadeProof_run (txid : String) (run : ProofRun W) : ∃ reply world outcome,
    (readArcadeProof sdk txid).run (ProofRun.exec hash services) run = (outcome, run.answered (.arcadeTx txid reply) world) ∧
      ∀ proof, outcome = .ok (some proof) → ∃ data, reply = .ok (some data) ∧ arcadeProof sdk txid data = .ok (some proof) := by
  refine ⟨(services.getArcadeTx txid run.world).1, (services.getArcadeTx txid run.world).2, ?_⟩
  rw [readArcadeProof, run_await]
  show ∃ outcome, Program.run _ _ (run.answered (.arcadeTx txid (services.getArcadeTx txid run.world).1) _) = _ ∧ _
  have replied : (ProofRun.exec hash services (.getArcadeTx txid) run).1 = (services.getArcadeTx txid run.world).1 := rfl
  rw [replied]
  cases (services.getArcadeTx txid run.world).1 with
  | error error => exact ⟨.error error, rfl, nofun⟩
  | ok answer =>
    cases answer with
    | none => exact ⟨.ok none, rfl, nofun⟩
    | some data =>
      refine ⟨arcadeProof sdk txid data, ?_, fun proof made => ⟨data, rfl, made⟩⟩
      rw [ofExcept_ok_bind, run_ofExcept]

theorem noteError_ends (checked : Checked sdk services right run) (req : TableProvenTxReq) (error : WalletError) :
    (noteError options req error).Ends (ProofRun.exec hash services) run fun _ after => Onward sdk services right run after :=
  Onward.bind (checked.onStorage_onward (updateDynamics_uses _)) fun _ _ _ onward => .refl onward.checked

theorem settle_ends {program : ProofM α} {post}
    (ends : program.Ends (ProofRun.exec hash services) run post) :
    (program.settle : ProofM _).Ends (ProofRun.exec hash services) run fun outcome after => ∃ settled, outcome = .ok settled ∧ post settled after := by
  unfold Program.Ends at ends ⊢
  rw [run_settle]
  exact ⟨_, rfl, ends⟩

theorem storeArcadeProof_ends (checked : Checked sdk services right run) {txid : String} {proof}
    (verified : ∀ provenTxId rawTx, VerifiedIf sdk services right run
      ⟨provenTxId, txid, proof.height, proof.index, proof.merklePath, rawTx, proof.blockHash, proof.merkleRoot⟩) (read : TableProvenTxReq) :
    (storeArcadeProof options txid proof read).Ends (ProofRun.exec hash services) run
      fun _ after => Onward sdk services right run after := by
  have stores := @Checked.onStorage_onward _ _ services hash _ _ _ checked _ (@updateProvenTxReqWithNewProvenTx_uses _ options.now {
    provenTxReqId := read.provenTxReqId, txid, height := proof.height, index := proof.index, blockHash := proof.blockHash,
    merkleRoot := proof.merkleRoot, merklePath := proof.merklePath } verified)
  apply Program.Ends.bind
  refine (settle_ends stores).mono fun outcome after ⟨settled, same, onward⟩ => ?_
  cases same
  cases settled with
  | ok _ => exact onward
  | error error => exact (noteError_ends onward.checked read error).mono fun _ _ rest => onward.trans rest

theorem fetchProofFromArcade_ends (checked : Checked sdk services (RightArcadeTxs sdk services) run) (req : TableProvenTxReq) :
    (TaskArcadeSSE.fetchProofFromArcade sdk options req).Ends (ProofRun.exec hash services) run
      fun _ after => Onward sdk services (RightArcadeTxs sdk services) run after := by
  obtain ⟨reply, world, outcome, ran, reads⟩ := @readArcadeProof_run _ sdk services hash req.txid run
  have answered := checked.answered RightArcadeTxs.closed (.arcadeTx req.txid reply) world
  have onward : Onward sdk services (RightArcadeTxs sdk services) run (run.answered (.arcadeTx req.txid reply) world) :=
    ⟨answered, fun _ row stored => ⟨row, stored, rfl⟩⟩
  have settled : ((readArcadeProof sdk req.txid).settle : ProofM _).run (ProofRun.exec hash services) run =
      (.ok outcome, run.answered (.arcadeTx req.txid reply) world) := by
    rw [run_settle, ran]
  unfold Program.Ends TaskArcadeSSE.fetchProofFromArcade
  rw [Program.run_bind_of_ok settled]
  refine onward.trans ?_
  match outcome, reads with
  | .error error, _ => exact noteError_ends answered req error
  | .ok none, _ => exact .refl answered
  | .ok (some proof), reads =>
    obtain ⟨data, rfl, made⟩ := reads proof rfl
    obtain ⟨text, path, root, leaf, given, parsed, computed, leads, rfl⟩ := arcadeProof_ok made
    have again := checked.answered RightArcadeTxs.closed (.arcadeTx req.txid (.ok (some data))) world
    have refreshes := @Checked.onStorage _ _ _ hash _ _ _ again _ (refreshFromStorage_uses req)
    have rest := settle_ends refreshes
    show Program.Ends (ProofRun.exec hash services) (_ >>= _) _ fun _ after => Onward sdk services (RightArcadeTxs sdk services) _ after
    apply Program.Ends.bind
    refine rest.mono fun outcome after ⟨settled, same, only, checked⟩ => ?_
    cases same
    have onward : Onward sdk services (RightArcadeTxs sdk services) (run.answered (.arcadeTx req.txid (.ok (some data))) world) after :=
      ⟨checked, only.txids⟩
    cases settled with
    | error error => exact (noteError_ends checked req error).mono fun _ _ rest => onward.trans rest
    | ok read =>
      refine (storeArcadeProof_ends checked (fun provenTxId rawTx => only.verified fun holds => ?_) read).mono fun _ _ rest => onward.trans rest
      obtain ⟨height, proof⟩ := holds _ (List.mem_append_right _ (.head _)) _ data text path root leaf rfl given parsed computed leads
      refine ⟨world, List.mem_append_right _ (.head _), ⟨path, leaf, rfl, leads, rfl, height.symm, computed⟩, ?_⟩
      obtain ⟨active, here, sameRoot, sameHash⟩ := proof.active
      exact ⟨active, height.symm ▸ here, sameRoot, sameHash⟩

end

structure OnlyAsked (run after : ProofRun W) : Prop where
  database : after.database = run.database
  written : after.written = run.written
  moments : run.moments <+: after.moments
  passed : run.passed <+: after.passed

theorem OnlyAsked.refl (run : ProofRun W) : OnlyAsked run run := ⟨rfl, rfl, List.prefix_rfl, List.prefix_rfl⟩

theorem OnlyAsked.trans (first : OnlyAsked run middle) (rest : OnlyAsked middle after) : OnlyAsked run after :=
  ⟨rest.database.trans first.database, rest.written.trans first.written, first.moments.trans rest.moments, first.passed.trans rest.passed⟩

theorem OnlyAsked.answered (run : ProofRun W) (answer : ProofAnswer) (world : W) : OnlyAsked run (run.answered answer world) := by
  refine ⟨rfl, rfl, List.prefix_append _ _, ?_⟩
  unfold ProofRun.passed ProofRun.answered
  rw [List.map_append]
  exact List.prefix_append _ _

section
variable {sdk : MerklePaths} {services : ProofServices W} {hash : ScriptHash} {run after : ProofRun W}

theorem isValidRootForHeight_ends (root : String) (height tries : Nat) (run : ProofRun W) :
    (ProofM.isValidRootForHeight root height tries).Ends (ProofRun.exec hash services) run fun outcome after =>
      OnlyAsked run after ∧ (outcome = .ok true → ∃ more moment active, after.moments = run.moments ++ more ∧ moment ∈ more ∧
        moment.answer = .header height (.ok (some active)) ∧ active.merkleRoot = root ∧ services.active moment.before height = some active) := by
  induction tries generalizing run with
  | zero => exact ⟨.refl run, nofun⟩
  | succ tries ih =>
    have asked := OnlyAsked.answered run (.header height (services.findHeaderForHeight height run.world).1)
      (services.findHeaderForHeight height run.world).2
    unfold Program.Ends ProofM.isValidRootForHeight
    rw [run_await]
    cases replied : (services.findHeaderForHeight height run.world).1 with
    | error error =>
      have reply : (ProofRun.exec hash services (.findHeaderForHeight height) run).1 = .error error := replied
      rw [reply]
      obtain ⟨again, valid⟩ := ih (run.answered (.header height (services.findHeaderForHeight height run.world).1)
        (services.findHeaderForHeight height run.world).2)
      refine ⟨asked.trans again, fun accepted => ?_⟩
      obtain ⟨more, moment, active, moments, member, rest⟩ := valid accepted
      exact ⟨⟨run.world, .header height (services.findHeaderForHeight height run.world).1, (services.findHeaderForHeight height run.world).2⟩ :: more,
        moment, active, moments.trans (List.append_assoc ..), .tail _ member, rest⟩
    | ok header =>
      have reply : (ProofRun.exec hash services (.findHeaderForHeight height) run).1 = .ok header := replied
      rw [reply]
      cases header with
      | none => exact ⟨asked, nofun⟩
      | some active =>
        refine ⟨asked, fun accepted => ?_⟩
        have same := of_decide_eq_true (Except.ok.inj accepted)
        refine ⟨[_], _, active, rfl, .head _, congrArg (ProofAnswer.header height) replied, same, ?_⟩
        rw [ProofServices.active, replied]

def UpdateVerified (sdk : MerklePaths) (services : ProofServices W) (after : ProofRun W) (txid : String)
    (update : WalletStorageManager.ProofUpdate) : Prop :=
  after.moments.Pairwise (RightHeader sdk) → ∃ world ∈ after.passed, ∀ row : TableProvenTx, row.txid = txid →
    ProofVerified sdk services world (update.spread row)

theorem UpdateVerified.later (verified : UpdateVerified sdk services run txid update)
    (moments : run.moments <+: after.moments) (passed : run.passed <+: after.passed) : UpdateVerified sdk services after txid update := by
  intro holds
  obtain ⟨world, member, rows⟩ := verified (holds.sublist moments.sublist)
  exact ⟨world, passed.subset member, rows⟩

theorem evaluateNewMerkleLeaf_ends (found : result.merklePath = some path) (given : result.header = some header)
    (leads : path.leafOf ptx.txid = .ok (some leaf)) :
    (evaluateNewMerkleLeaf sdk ptx path header.hash (newProofUpdate sdk path leaf header)).Ends
      (ProofRun.exec hash services) (run.answered (.merklePath ptx.txid (.ok result)) world) fun outcome after =>
        OnlyAsked (run.answered (.merklePath ptx.txid (.ok result)) world) after ∧
          ∀ update, outcome = .ok (.updated update) → UpdateVerified sdk services after ptx.txid update := by
  unfold evaluateNewMerkleLeaf
  split
  next => exact ⟨.refl _, nofun⟩
  next =>
    cases computed : sdk.computeRoot path ptx.txid with
    | error _ => exact ⟨.refl _, nofun⟩
    | ok root =>
      rw [ofExcept_ok_bind]
      apply Program.Ends.bind
      refine (isValidRootForHeight_ends root path.blockHeight 3 _).mono fun outcome after ⟨asked, valid⟩ => ?_
      cases outcome with
      | error _ => exact ⟨asked, nofun⟩
      | ok accepted =>
        cases accepted with
        | false => exact ⟨asked, nofun⟩
        | true =>
          refine ⟨asked, fun update is holds => ?_⟩
          cases is
          obtain ⟨more, moment, active, moments, member, answer, sameRoot, here⟩ := valid rfl
          have holds : after.moments.Pairwise (RightHeader sdk) := holds
          rw [moments] at holds
          have pair := (List.pairwise_append.mp holds).2.2 _ (List.mem_append_right _ (.head _)) moment member
          obtain ⟨root', hash'⟩ := pair _ result path header leaf active rfl found given leads answer (sameRoot ▸ computed)
          have inside : moment.before ∈ after.passed := by
            unfold ProofRun.passed
            rw [moments]
            exact List.mem_append_left _ (List.mem_map_of_mem (List.mem_append_right _ member))
          refine ⟨moment.before, inside, fun row same => ⟨⟨path, leaf, rfl, ?_, rfl, rfl, ?_⟩, active, here, root'.symm, hash'.symm⟩⟩
          · show path.leafOf row.txid = _
            rw [same, leads]
          · show sdk.computeRoot path row.txid = .ok header.merkleRoot
            rw [same, computed, root', sameRoot]

theorem reproveProven_ends (ptx : TableProvenTx) (run : ProofRun W) :
    (WalletStorageManager.reproveProven sdk ptx).Ends (ProofRun.exec hash services) run fun outcome after =>
      OnlyAsked run after ∧ ∀ update, outcome = .ok (.updated update) → UpdateVerified sdk services after ptx.txid update := by
  apply Program.Ends.bind
  apply getMerklePath_ends
  intro reply world
  have asked := OnlyAsked.answered run (.merklePath ptx.txid reply) world
  cases reply with
  | error _ => exact ⟨asked, nofun⟩
  | ok result =>
    unfold evaluateProof
    dsimp only
    split
    next path header found given =>
      cases leads : path.leafOf ptx.txid with
      | error _ => exact ⟨asked, nofun⟩
      | ok leaf =>
        rw [ofExcept_ok_bind]
        cases leaf with
        | none => exact ⟨asked, nofun⟩
        | some leaf => exact (evaluateNewMerkleLeaf_ends found given leads).mono fun _ _ ⟨also, verified⟩ => ⟨asked.trans also, verified⟩
    next => exact ⟨asked, nofun⟩

theorem reproveEach_ends (ptxs : List TableProvenTx) (run : ProofRun W) :
    (reproveEach sdk ptxs).Ends (ProofRun.exec hash services) run fun outcome after =>
      OnlyAsked run after ∧ ∀ updated, outcome = .ok updated → ∀ pair ∈ updated, pair.1 ∈ ptxs ∧
        UpdateVerified sdk services after pair.1.txid pair.2 := by
  induction ptxs generalizing run with
  | nil =>
    refine ⟨.refl run, fun updated is => ?_⟩
    cases is
    exact nofun
  | cons ptx rest ih =>
    apply Program.Ends.bind
    refine (reproveProven_ends ptx run).mono fun outcome middle ⟨asked, verified⟩ => ?_
    cases outcome with
    | error _ => exact ⟨asked, nofun⟩
    | ok reproven =>
      apply Program.Ends.bind
      refine (ih middle).mono fun outcome after ⟨also, others⟩ => ?_
      have whole := asked.trans also
      cases outcome with
      | error _ => exact ⟨whole, nofun⟩
      | ok updated =>
        have later : ∀ pair ∈ updated, pair.1 ∈ ptx :: rest ∧ UpdateVerified sdk services after pair.1.txid pair.2 := by
          intro pair member
          obtain ⟨among, sound⟩ := others updated rfl pair member
          exact ⟨.tail _ among, sound⟩
        cases reproven with
        | unchanged | unavailable =>
          refine ⟨whole, fun all is => ?_⟩
          cases is
          exact later
        | updated update =>
          refine ⟨whole, fun all is => ?_⟩
          cases is
          intro pair member
          rcases List.mem_cons.mp member with rfl | member
          · exact ⟨.head _, (verified update rfl).later also.moments also.passed⟩
          · exact later pair member

theorem updateProvenTx_stored (owned : RowsOwned run.database.records) (id : Nat) (update : WalletStorageManager.ProofUpdate) :
    RowsOwned (run.stored hash (.update .provenTxs id update.spread)).database.records ∧
      KeepsTxids .provenTxs run.database.records (run.stored hash (.update .provenTxs id update.spread)).database.records ∧
      ∃ rows, (run.stored hash (.update .provenTxs id update.spread)).written = run.written ++ rows ∧
        ∀ entry ∈ rows, entry.1 = run.passed ∧ ∃ existing, run.database.records.row .provenTxs (.id id) = some existing ∧
          entry.2 = update.spread existing.value := by
  have writes : (run.stored hash (.update .provenTxs id update.spread)).written = run.written ++
      (((run.stored hash (.update .provenTxs id update.spread)).database.records.row .provenTxs (.id id)).map Versioned.value).toList.map
        (run.passed, ·) := rfl
  rcases @updateByKey_rows hash run.database .provenTxs (.id id) update.spread with ⟨absent, same⟩ | ⟨existing, found, same⟩
  · have kept : (run.stored hash (.update .provenTxs id update.spread)).database = run.database := same
    rw [writes, kept, absent]
    exact ⟨owned, fun _ row stored => ⟨row, stored, rfl⟩, [], rfl, nofun⟩
  · have put : (run.stored hash (.update .provenTxs id update.spread)).database.records =
        withRow .provenTxs (update.spread existing.value) run.database.records := congrArg Database.records same
    have own : rowKey .provenTxs (update.spread existing.value) = .id id := owned .provenTxs _ existing found
    have now : (withRow .provenTxs (update.spread existing.value) run.database.records).row .provenTxs (.id id) =
        some (encode (update.spread existing.value) (run.database.records.row .provenTxs (.id id))) := by
      have put := @withRow_same .provenTxs (update.spread existing.value) run.database.records
      rwa [own] at put
    rw [writes, put, now]
    refine ⟨withRow_owned .provenTxs _ owned, withRow_keepsTxids (own ▸ found) rfl, _, rfl, fun entry member => ?_⟩
    cases List.mem_singleton.mp member
    exact ⟨rfl, existing, found, rfl⟩

theorem updateEach_ends (updated : List (TableProvenTx × WalletStorageManager.ProofUpdate)) (run : ProofRun W)
    (checked : Checked sdk services (List.Pairwise (RightHeader sdk)) run)
    (stored : ∀ pair ∈ updated, ∀ row, run.database.records.row .provenTxs (.id pair.1.provenTxId) = some row → row.value.txid = pair.1.txid)
    (verified : ∀ pair ∈ updated, UpdateVerified sdk services run pair.1.txid pair.2) :
    (updateEach updated).Ends (ProofRun.exec hash services) run
      fun _ after => Checked sdk services (List.Pairwise (RightHeader sdk)) after := by
  induction updated generalizing run with
  | nil => exact checked
  | cons pair rest ih =>
    obtain ⟨was, update⟩ := pair
    obtain ⟨owned, txids, rows, wrote, each⟩ := @updateProvenTx_stored _ hash run checked.owned was.provenTxId update
    have after : Checked sdk services (List.Pairwise (RightHeader sdk)) (run.stored hash (.update .provenTxs was.provenTxId update.spread)) := by
      refine ⟨owned, fun holds entry member => ?_⟩
      rw [wrote] at member
      rcases List.mem_append.mp member with member | member
      · exact checked.sound holds entry member
      · obtain ⟨passed, existing, found, made⟩ := each entry member
        obtain ⟨world, inside, sound⟩ := verified (was, update) (.head _) holds
        rw [passed, made]
        exact ⟨world, inside, sound existing.value (stored (was, update) (.head _) existing found)⟩
    have ran : (updateProvenTx was update).run (ProofRun.exec hash services) run =
        ((callAlone hash (.update .provenTxs was.provenTxId update.spread) run.database).1.map fun _ => (),
          run.stored hash (.update .provenTxs was.provenTxId update.spread)) := by
      rw [updateProvenTx, run_bind, onStorage_run, await_run]
      cases (callAlone hash (.update .provenTxs was.provenTxId update.spread) run.database).1 <;> rfl
    unfold Program.Ends updateEach
    rw [run_bind, ran]
    cases (callAlone hash (.update .provenTxs was.provenTxId update.spread) run.database).1 with
    | error _ => exact after
    | ok _ =>
      refine ih _ after (fun pair member row there => ?_) fun pair member => verified pair (.tail _ member)
      obtain ⟨old, here, same⟩ := txids _ row there
      exact same.trans (stored pair (.tail _ member) old here)

theorem reproveFound_ends (checked : Checked sdk services (List.Pairwise (RightHeader sdk)) run) (wanted : ProvenTxPartial) :
    (reproveFound sdk wanted).Ends (ProofRun.exec hash services) run
      fun _ after => Checked sdk services (List.Pairwise (RightHeader sdk)) after := by
  unfold Program.Ends reproveFound
  rw [run_bind, onStorage_run, await_run]
  have only : StoredOnly (VerifiedIf sdk services (List.Pairwise (RightHeader sdk)) run) run (run.stored hash (.find .provenTxs wanted)) :=
    stored_only trivial checked.owned
  have kept : (run.stored hash (.find .provenTxs wanted)).database = run.database := @callAlone_find hash run.database .provenTxs wanted
  cases found : (callAlone hash (.find .provenTxs wanted) run.database).1 with
  | error _ => exact checked.stored only
  | ok ptxs =>
    have known : ∀ ptx ∈ ptxs, ∀ row, run.database.records.row .provenTxs (.id ptx.provenTxId) = some row → row.value.txid = ptx.txid := by
      intro ptx member row there
      obtain ⟨stored, here, same⟩ := findEntities_stored checked.owned wanted.provenTxId _ found ptx member
      cases here.symm.trans there
      rw [same]
    have before := checked.stored only
    suffices rest : (reproveEach sdk ptxs >>= updateEach).Ends (ProofRun.exec hash services)
        (run.stored hash (.find .provenTxs wanted)) fun _ after => Checked sdk services (List.Pairwise (RightHeader sdk)) after from rest
    apply Program.Ends.bind
    refine (reproveEach_ends ptxs _).mono fun outcome after ⟨asked, pairs⟩ => ?_
    have still : Checked sdk services (List.Pairwise (RightHeader sdk)) after := by
      refine ⟨asked.database ▸ before.owned, fun holds => ?_⟩
      have sound := before.sound (holds.sublist asked.moments.sublist)
      unfold WritesVerified
      rwa [asked.written]
    cases outcome with
    | error _ => exact still
    | ok updated =>
      refine updateEach_ends updated after still (fun pair member row there => ?_) fun pair member => (pairs updated rfl pair member).2
      rw [asked.database, kept] at there
      exact known pair.1 (pairs updated rfl pair member).1 row there

end

section
variable {sdk : MerklePaths} {services : ProofServices W} {hash : ScriptHash}

theorem afterProofCall_checked (call : ProofCall) (state : Database × W) (owned : RowsOwned state.1.records) :
    Checked sdk services (call.Right sdk services) (afterProofCall sdk services hash call state) := by
  have start : ∀ right, Checked sdk services right ⟨state.1, state.2, [], []⟩ := fun _ => ⟨owned, fun _ => nofun⟩
  cases call with
  | checkProofs options select stored =>
    have checks := @checkProofs_ends _ sdk services hash _ options (start _) select stored
    have ends : (ProofCall.program sdk (.checkProofs options select stored)).Ends (ProofRun.exec hash services) ⟨state.1, state.2, [], []⟩
        fun _ after => Onward sdk services (RightPaths sdk services options) ⟨state.1, state.2, [], []⟩ after :=
      Onward.bind checks fun _ _ _ onward => .refl onward.checked
    exact ends.checked
  | fetchProofFromArcade options req => exact (@fetchProofFromArcade_ends _ sdk services hash _ options (start _) req).checked
  | reproveHeader => exact reproveFound_ends (start _) _
  | reproveHeightMerkleRoot => exact reproveFound_ends (start _) _
  | reproveProven => exact reproveFound_ends (start _) _

/-- When every call is answered rightly, every proof that is inserted or updated is verified. -/
theorem storedProofs_verified (sdk : MerklePaths) (services : ProofServices W) (hash : ScriptHash) (steps : List (ProofStep W))
    (state : Database × W) (owned : RowsOwned state.1.records)
    (right : EachProofCall sdk services hash (fun call after => call.Right sdk services after.moments) steps state) :
    EachProofCall sdk services hash (fun _ after => WritesVerified sdk services after) steps state := by
  induction steps generalizing state with
  | nil => trivial
  | cons step rest ih =>
    cases step with
    | call call =>
      have checked := @afterProofCall_checked _ sdk services hash call state owned
      obtain ⟨answers, later⟩ := right
      exact ⟨checked.sound answers, ih _ checked.owned later⟩
    | others database owned world => exact ih (database, world) owned right

end

def samplePaths : MerklePaths where
  computeRoot _ _ := .ok "r"
  toBinary _ := []
  fromHex _ := .error (.internal "")
  txidOf _ := "t"

def samplePath : MerklePath := ⟨10, [[⟨0, some "t", true⟩, ⟨1, some "u", false⟩]]⟩

def sampleHeader : BlockHeader := { version := 1, previousHash := "a", merkleRoot := "r", time := 0, bits := 0, nonce := 0, height := 10, hash := "b" }

def sampleProofServices (given : BlockHeader) (active : Option BlockHeader) : ProofServices Unit where
  getMerklePath _ world := (.ok { merklePath := samplePath, header := given }, world)
  findHeaderForHeight height world := (.ok (active.filter (·.height = height)), world)
  getArcadeTx _ world := (.ok none, world)

def sampleProofOptions : ProofOptions where
  now _ := "2024-01-01T12:00:00.000Z"
  ageInMinutes _ := 0
  maxAcceptableHeight := 20
  countsAsAttempt := true
  ignoreStatus := false
  unprovenAttemptsLimit := 10
  maxRebroadcastAttempts := 0

def sampleCheck : ProofCall := .checkProofs sampleProofOptions id fun _ => List.Subset.refl _

theorem storedReq_owned : RowsOwned storedReq.records := by
  apply withRow_owned .provenTxReqs (sampleReq 1 [1])
  intro table key row stored
  cases stored

theorem storedProofs_verified_sample :
    (afterProofCall samplePaths (sampleProofServices sampleHeader (some sampleHeader)) noHash sampleCheck (storedReq, ())).written.length = 1 ∧
      EachProofCall samplePaths (sampleProofServices sampleHeader (some sampleHeader)) noHash
        (fun _ after => WritesVerified samplePaths (sampleProofServices sampleHeader (some sampleHeader)) after)
        [.call sampleCheck] (storedReq, ()) := by
  refine ⟨by decide +kernel, storedProofs_verified _ _ _ _ _ storedReq_owned ⟨?_, trivial⟩⟩
  have answered : (afterProofCall samplePaths (sampleProofServices sampleHeader (some sampleHeader)) noHash sampleCheck (storedReq, ())).moments =
      [⟨(), .merklePath "t" (.ok { merklePath := samplePath, header := sampleHeader }), ()⟩] := by decide +kernel
  show ∀ moment ∈ (afterProofCall _ _ _ _ _).moments, _
  rw [answered]
  intro moment member txid result path header leaf is found given low leads
  cases List.mem_singleton.mp member
  cases is
  cases found
  cases given
  exact ⟨rfl, sampleHeader, rfl, rfl, rfl⟩

/-- A proof is stored with the header that came with it, though chaintracks has none at that height. -/
theorem unknown_header_stored : ¬ ∀ (W : Type) (sdk : MerklePaths) (services : ProofServices W) (hash : ScriptHash) (steps : List (ProofStep W))
    (state : Database × W), RowsOwned state.1.records →
    EachProofCall sdk services hash (fun _ after => WritesVerified sdk services after) steps state := by
  intro verified
  have holds := (verified Unit samplePaths (sampleProofServices sampleHeader none) noHash [.call sampleCheck] (storedReq, ()) storedReq_owned).1
  have wrote : (afterProofCall samplePaths (sampleProofServices sampleHeader none) noHash sampleCheck (storedReq, ())).written ≠ [] := by
    decide +kernel
  obtain ⟨entry, member⟩ := List.exists_mem_of_ne_nil _ wrote
  obtain ⟨world, _, stored⟩ := holds entry member
  obtain ⟨header, active, _⟩ := stored.active
  cases active

end WalletToolbox
