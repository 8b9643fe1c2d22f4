import WalletToolbox.Authentication.PrivilegedKeyManager
import WalletToolbox.Proofs.AccountCalls
import Mathlib.Data.Nat.Digits.Lemmas

/-! The privileged keys of an account. A manager gives back the key it was given, from its
chunks as from its key getter, whatever else happens to the managers. The manager of a
profile has the key of the profile only where the root key takes all of its 32 bytes. -/

namespace WalletToolbox
open Async Effects PrivilegedKeyManager CWIStyleWalletManager List

namespace PrivateKey
variable {key : PrivateKey} {bytes : Octets}

theorem toNat_ofNat_digits (number : Nat) : ((Nat.digits 256 number).map UInt8.ofNat).map UInt8.toNat = Nat.digits 256 number := by
  rw [map_map]
  apply (map_congr_left fun digit member => ?_).trans (map_id _)
  have small := Nat.digits_lt_base (by omega) member
  exact UInt8.toNat_ofNat_of_lt' small

theorem spelled_toArray (key : PrivateKey) : spelled key.toArray = key.number := by
  unfold toArray
  split
  · next zero =>
    rw [zero]
    rfl
  · rw [spelled, reverse_reverse, toNat_ofNat_digits, Nat.ofDigits_digits]

theorem spelled_padded (count : Nat) (bytes) : spelled (replicate count 0 ++ bytes) = spelled bytes := by
  rw [spelled, reverse_append, reverse_replicate, map_append, map_replicate]
  exact Nat.ofDigits_append_replicate_zero _

theorem ofBytes_toArray (key : PrivateKey) : ofBytes key.toArray = key := by
  obtain ⟨number, inField⟩ := key
  simp only [ofBytes, spelled_toArray, Nat.mod_eq_of_lt inField]

theorem ofBytes_padded (count : Nat) (bytes) : ofBytes (replicate count 0 ++ bytes) = ofBytes bytes := by
  simp only [ofBytes, spelled_padded]

theorem length_toArray_le (key : PrivateKey) : key.toArray.length ≤ 32 := by
  unfold toArray
  split
  · exact Nat.le_of_ble_eq_true rfl
  · rw [length_reverse, length_map, Nat.digits_length_le_iff (by omega)]
    exact key.inField.trans (by decide)

theorem length_toArray (key : PrivateKey) : key.toArray.length = 32 ↔ 256 ^ 31 ≤ key.number := by
  have long := Nat.digits_length_le_iff (b := 256) (k := 31) (by omega) key.number
  have short := key.length_toArray_le
  unfold toArray at short ⊢
  split
  · next zero =>
    rw [zero]
    decide
  · next positive =>
    rw [if_neg positive] at short
    rw [length_reverse, length_map] at short ⊢
    omega

end PrivateKey

namespace PrivilegedKeyManager
variable {source : PropRandomness} {manager : PrivilegedKeyManager}

theorem xorChunk_xorChunk (chunk pad) : xorChunk (xorChunk chunk pad) pad = chunk := by
  apply ext_getElem
  · simp only [xorChunk, length_mapIdx]
  · intro index first second
    simp only [xorChunk, getElem_mapIdx, UInt8.xor_assoc, UInt8.xor_self, UInt8.xor_zero]

theorem length_xorChunk (chunk pad) : (xorChunk chunk pad).length = chunk.length := length_mapIdx

theorem chunksFrom_spec (chunkSize count : Nat) (bytes) :
    (chunksFrom chunkSize (count + 1) bytes).flatten = bytes ∧ (chunksFrom chunkSize (count + 1) bytes).length = count + 1 := by
  induction count generalizing bytes with
  | zero => exact ⟨append_nil bytes, rfl⟩
  | succ count ih =>
    obtain ⟨joined, counted⟩ := ih (bytes.drop chunkSize)
    rw [chunksFrom, flatten_cons, joined, length_cons, counted]
    · exact ⟨take_append_drop chunkSize bytes, rfl⟩
    · intro none
      cases none

structure Stored (source : PropRandomness) (base drawn : Nat) (chunks : List Octets) (manager : PrivilegedKeyManager) : Prop where
  draws : manager.draws = base + drawn
  names : ∀ name ∈ manager.chunkPropNames ++ manager.chunkPadPropNames, ∃ earlier < drawn, name = source.propName (base + earlier)
  counted : manager.chunkPropNames.length = chunks.length
  pads : manager.chunkPropNames.length = manager.chunkPadPropNames.length
  chunks : (manager.chunkPropNames.zip manager.chunkPadPropNames).mapM (rawChunk manager.props) = some chunks

theorem stored_destroyKey : manager.destroyKey.Stored source manager.draws 0 [] where
  draws := rfl
  names _ member := absurd member not_mem_nil
  counted := rfl
  pads := rfl
  chunks := rfl

theorem Stored.apart {base drawn chunks} (stored : manager.Stored source base drawn chunks) (later : Nat)
    (room : drawn + later < 10) :
    ∀ name ∈ manager.chunkPropNames ++ manager.chunkPadPropNames, name ≠ source.propName (base + (drawn + later)) := by
  intro name member
  obtain ⟨earlier, before, rfl⟩ := stored.names name member
  exact source.apart base earlier _ (by omega) room

theorem rawChunk_update {props : String → Option Octets} {names : List (String × String)}
    (apart : ∀ pair ∈ names, pair.1 ≠ name ∧ pair.2 ≠ name) :
    names.mapM (rawChunk (Function.update props name bytes)) = names.mapM (rawChunk props) := by
  induction names with
  | nil => rfl
  | cons pair rest ih =>
    obtain ⟨here, later⟩ := forall_mem_cons.mp apart
    have same : rawChunk (Function.update props name bytes) pair = rawChunk props pair := by
      simp only [rawChunk, Function.update_of_ne here.1, Function.update_of_ne here.2]
    rw [mapM_cons, mapM_cons, same, ih later]

theorem Stored.unchanged {chunks : List Octets} (stored : manager.Stored source base drawn chunks)
    (apart : ∀ other ∈ manager.chunkPropNames ++ manager.chunkPadPropNames, other ≠ name) (bytes) :
    (manager.chunkPropNames.zip manager.chunkPadPropNames).mapM (rawChunk (Function.update manager.props name bytes)) = some chunks := by
  apply Eq.trans (rawChunk_update fun pair member => ?_) stored.chunks
  have both := of_mem_zip member
  exact ⟨apart _ (mem_append_left _ both.1), apart _ (mem_append_right _ both.2)⟩

theorem stored_chunk {base drawn : Nat} {chunks : List Octets} (stored : manager.Stored source base drawn chunks) (room : drawn + 1 < 10)
    (chunk) : (manager.storeChunk source chunk).Stored source base (drawn + 2) (chunks ++ [chunk]) := by
  have first : ∀ name ∈ manager.chunkPropNames ++ manager.chunkPadPropNames, name ≠ source.propName manager.draws := by
    rw [stored.draws]
    exact stored.apart 0 (by omega)
  have second : ∀ name ∈ manager.chunkPropNames ++ manager.chunkPadPropNames, name ≠ source.propName (manager.draws + 1) := by
    rw [stored.draws]
    exact stored.apart 1 room
  have different : source.propName manager.draws ≠ source.propName (manager.draws + 1) := by
    rw [stored.draws]
    exact source.apart base drawn (drawn + 1) (by omega) room
  constructor
  case draws => exact congrArg (· + 2) stored.draws
  case counted =>
    simp only [storeChunk, setProp, length_append, length_singleton, stored.counted]
  case pads =>
    simp only [storeChunk, setProp, length_append, length_singleton, stored.pads]
  case names =>
    intro name member
    simp only [storeChunk, setProp, mem_append, mem_singleton] at member
    rcases member with (named | rfl) | (named | rfl)
    · obtain ⟨earlier, before, same⟩ := stored.names name (mem_append_left _ named)
      exact ⟨earlier, by omega, same⟩
    · exact ⟨drawn, by omega, by rw [stored.draws]⟩
    · obtain ⟨earlier, before, same⟩ := stored.names name (mem_append_right _ named)
      exact ⟨earlier, by omega, same⟩
    · exact ⟨drawn + 1, by omega, by rw [stored.draws, Nat.add_assoc]⟩
  case chunks =>
    let pad := source.random manager.draws chunk.length
    have here : rawChunk (manager.storeChunk source chunk).props (source.propName manager.draws, source.propName (manager.draws + 1)) = some chunk := by
      have padded : (xorChunk chunk pad).length = pad.length := by
        rw [length_xorChunk, source.random_length]
      simp only [storeChunk, setProp, rawChunk, Function.update_self, Function.update_of_ne different]
      exact (if_neg (not_not.mpr padded)).trans (congrArg some (xorChunk_xorChunk chunk pad))
    have earlier : (manager.chunkPropNames.zip manager.chunkPadPropNames).mapM (rawChunk (manager.storeChunk source chunk).props) = some chunks := by
      apply Eq.trans (rawChunk_update fun pair member => ?_) (stored.unchanged first _)
      have both := of_mem_zip member
      exact ⟨second _ (mem_append_left _ both.1), second _ (mem_append_right _ both.2)⟩
    have zipped : (manager.storeChunk source chunk).chunkPropNames.zip (manager.storeChunk source chunk).chunkPadPropNames =
        manager.chunkPropNames.zip manager.chunkPadPropNames ++ [(source.propName manager.draws, source.propName (manager.draws + 1))] :=
      zip_append stored.pads
    rw [zipped, mapM_append, earlier, mapM_cons, here]
    rfl

theorem stored_chunks {chunks rest : List Octets} (stored : manager.Stored source base drawn chunks)
    (room : drawn + 2 * rest.length ≤ 10) :
    (rest.foldl (storeChunk source) manager).Stored source base (drawn + 2 * rest.length) (chunks ++ rest) := by
  induction rest generalizing manager drawn chunks with
  | nil =>
    rw [append_nil]
    exact stored
  | cons chunk rest ih =>
    rw [length_cons] at room
    have later := ih (stored_chunk stored (by omega) chunk) (by omega)
    rw [append_assoc] at later
    rw [length_cons, Nat.mul_succ, ← Nat.add_assoc, Nat.add_right_comm]
    exact later

theorem stored_decoy (stored : manager.Stored source base drawn chunks) (room : drawn < 10) :
    (manager.storeDecoy source).Stored source base (drawn + 1) chunks := by
  have apart : ∀ name ∈ manager.chunkPropNames ++ manager.chunkPadPropNames, name ≠ source.propName manager.draws := by
    rw [stored.draws]
    exact stored.apart 0 room
  constructor
  case draws => exact congrArg (· + 1) stored.draws
  case counted => exact stored.counted
  case pads => exact stored.pads
  case names =>
    intro name member
    obtain ⟨earlier, before, same⟩ := stored.names name member
    exact ⟨earlier, by omega, same⟩
  case chunks => exact stored.unchanged apart _

theorem retainedKey_storeKey (source) (manager : PrivilegedKeyManager) (long : keyBytes.length = 32) :
    (manager.storeKey source keyBytes).retainedKey = some (PrivateKey.ofBytes keyBytes) := by
  obtain ⟨joined, counted⟩ : (splitKeyIntoChunks keyBytes).flatten = keyBytes ∧ (splitKeyIntoChunks keyBytes).length = 4 :=
    chunksFrom_spec (keyBytes.length / CHUNK_COUNT) 3 keyBytes
  have empty : manager.destroyKey.Stored source manager.draws 0 [] := stored_destroyKey
  have chunked : ((splitKeyIntoChunks keyBytes).foldl (storeChunk source) manager.destroyKey).Stored source manager.draws
      (0 + 2 * (splitKeyIntoChunks keyBytes).length) ([] ++ splitKeyIntoChunks keyBytes) := stored_chunks empty (by omega)
  have stored : (manager.storeKey source keyBytes).Stored source _ _ _ := stored_decoy (stored_decoy chunked (by omega)) (by omega)
  rw [nil_append] at stored
  have total : ((splitKeyIntoChunks keyBytes).map length).sum = 32 := by
    rw [← length_flatten, joined, long]
  have reassembled : (manager.storeKey source keyBytes).reassembleKeyFromChunks = some keyBytes := by
    rw [reassembleKeyFromChunks, if_neg (by have := stored.pads; omega), stored.chunks]
    exact (if_neg (not_not.mpr total)).trans (congrArg some joined)
  have named : 0 < (manager.storeKey source keyBytes).chunkPropNames.length := by
    rw [stored.counted, counted]
    omega
  rw [retainedKey, if_pos ⟨named, stored.pads ▸ named⟩, reassembled]
  rfl

end PrivilegedKeyManager

def PrivateKey.bytes32 (key : PrivateKey) : Octets := List.replicate (32 - key.toArray.length) 0 ++ key.toArray

theorem PrivateKey.length_bytes32 (key : PrivateKey) : key.bytes32.length = 32 := by
  have short := key.length_toArray_le
  rw [bytes32, length_append, length_replicate]
  omega

theorem PrivateKey.ofBytes_bytes32 (key) : ofBytes key.bytes32 = key := (ofBytes_padded _ _).trans key.ofBytes_toArray

theorem PrivateKey.get32ByteRepresentation_eq (key : PrivateKey) : get32ByteRepresentation key = .ok key.bytes32 :=
  if_neg (Nat.not_lt.mpr key.length_toArray_le)

theorem PrivilegedKeyManager.retainedKey_stored (source) (manager : PrivilegedKeyManager) (key : PrivateKey) :
    (manager.storeKey source key.bytes32).retainedKey = some key := by
  rw [retainedKey_storeKey source manager key.length_bytes32, key.ofBytes_bytes32]

namespace AccountKeyManagers
variable {κ ω : Type} [DecidableEq κ] {source : PropRandomness} {world : Machine rootKeyFetches ω} {root : PrivateKey}

def padKey (root : PrivateKey) : Option Octets → Except WalletManagerError PrivateKey
  | none => .ok root
  | some pad => (xorBytes root.toArray pad).map .ofBytes

def keyOf (root : PrivateKey) (built : κ → ProfileWallet) : Option κ → Except WalletManagerError PrivateKey
  | none => .ok root
  | some wallet => padKey root (built wallet).profilePrivilegedPad

def Holding (root : PrivateKey) (built : κ → ProfileWallet) (store : AccountKeyManagers κ × ω) : Prop :=
  ∀ manager key, (store.1 manager).retainedKey = some key → keyOf root built manager = .ok key

def Given (world : Machine rootKeyFetches ω) (made : Except WalletManagerError PrivateKey) : Except PrivilegedKeyError PrivateKey → Prop
  | .ok key => made = .ok key
  | .error (.thrown error) => made = .error error
  | .error (.keyGetter message) => ∃ fetch outer, (world fetch outer).1 = .error message

variable {built : κ → ProfileWallet} {made : Except WalletManagerError PrivateKey}

theorem Holding.update {managers : AccountKeyManagers κ} {outer : ω} (holding : Holding root built (managers, outer)) (right : ∀ key, replaced.retainedKey = some key → keyOf root built manager = .ok key) :
    Holding root built (Function.update managers manager replaced, outer) := by
  intro other key retained
  by_cases same : other = manager
  · subst same
    simp only [Function.update_self] at retained
    exact right key retained
  · simp only [Function.update_of_ne same] at retained
    exact holding other key retained

theorem modify_keeps
    (right : ∀ before key, (change before).retainedKey = some key → keyOf root built manager = .ok key) (ends : post (.ok ())) :
    (modify manager change).Keeps world.withFields (Holding root built) post :=
  fun _ holding => ⟨holding.update (right _), ends⟩

theorem fetchUnlessRetained_keeps (manager : Option κ) {keyGetter}
    (gets : keyGetter.Keeps world.withFields (Holding root built) (Given world (keyOf root built manager)))
    (retainedKey : Option PrivateKey) : (∀ key, retainedKey = some key → keyOf root built manager = .ok key) →
    (match retainedKey with
      | some key => return key
      | none => do
        let fetchedKey ← keyGetter
        let keyBytes ← throwing (PrivilegedKeyManager.get32ByteRepresentation fetchedKey)
        modify manager (PrivilegedKeyManager.storeKey source keyBytes)
        return fetchedKey : KeyM κ PrivateKey).Keeps world.withFields (Holding root built) (Given world (keyOf root built manager)) := by
  intro retains
  cases retainedKey with
  | some key => exact retains key rfl
  | none =>
    apply Program.Keeps.bind
    refine gets.weaken fun outcome given => ?_
    cases outcome with
    | error error => exact given
    | ok fetchedKey =>
      dsimp only
      rw [fetchedKey.get32ByteRepresentation_eq]
      change Program.Keeps world.withFields _ _ (modify manager (storeKey source fetchedKey.bytes32) >>= _)
      apply Program.Keeps.bind
      apply modify_keeps
      · intro before key retained
        rw [retainedKey_stored] at retained
        exact given.trans (congrArg _ (Option.some.inj retained))
      · exact given

theorem getPrivilegedKey_keeps (manager : Option κ) {keyGetter}
    (gets : keyGetter.Keeps world.withFields (Holding root built) (Given world (keyOf root built manager))) :
    (getPrivilegedKey source manager keyGetter).Keeps world.withFields (Holding root built) (Given world (keyOf root built manager)) := by
  intro state holding
  exact ⟨holding, fetchUnlessRetained_keeps manager gets _ fun key retained => holding manager key retained⟩

omit [DecidableEq κ] in
theorem fetchRootKey_keeps (honest : ∀ fetch outer key, (world fetch outer).1 = .ok key → key = root) (reason : String) :
    (fetchRootKey reason : KeyM κ PrivateKey).Keeps world.withFields (Holding root built) (Given world (.ok root)) := by
  intro (managers, outer) holding
  refine ⟨holding, ?_⟩
  change Program.Keeps world.withFields _ _ (.ofExcept ((world (FetchRootKey.mk reason) outer).1.mapError PrivilegedKeyError.keyGetter))
  cases fetched : (world (FetchRootKey.mk reason) outer).1 with
  | ok key => exact congrArg _ (honest _ _ key fetched).symm
  | error message => exact ⟨_, outer, fetched⟩

theorem getRootPrivilegedKey_keeps (honest : ∀ fetch outer key, (world fetch outer).1 = .ok key → key = root) (reason : String) :
    (getRootPrivilegedKey source reason : KeyM κ PrivateKey).Keeps world.withFields (Holding root built) (Given world (.ok root)) :=
  getPrivilegedKey_keeps none (fetchRootKey_keeps honest reason)

theorem profileKeyGetter_keeps (honest : ∀ fetch outer key, (world fetch outer).1 = .ok key → key = root) (pad) (reason : String) :
    (profileKeyGetter source pad reason : KeyM κ PrivateKey).Keeps world.withFields (Holding root built) (Given world (padKey root pad)) := by
  apply Program.Keeps.bind
  refine (getRootPrivilegedKey_keeps honest reason).weaken fun outcome given => ?_
  match outcome with
  | .error (.keyGetter message) => exact given
  | .error (.thrown error) => cases given
  | .ok key =>
    obtain rfl : root = key := Except.ok.inj given
    cases pad with
    | none => exact congrArg _ root.ofBytes_toArray.symm
    | some pad =>
      change Program.Keeps world.withFields _ _ (throwing (xorBytes root.toArray pad) >>= _)
      unfold padKey
      dsimp only
      cases xorBytes root.toArray pad with
      | ok bytes => exact rfl
      | error error => exact rfl

def KeyCall.Ends (world : Machine rootKeyFetches ω) (root : PrivateKey) (built : κ → ProfileWallet) (call : KeyCall κ)
    (outcome : Except PrivilegedKeyError (Option PrivateKey)) : Prop :=
  match call with
  | .getPrivilegedKey manager _ => ∃ given, outcome = given.map some ∧ Given world (keyOf root built manager) given
  | .destroyKey _ => outcome = .ok none

omit [DecidableEq κ] in
theorem some_keeps {program : KeyM κ PrivateKey} (keeps : program.Keeps world.withFields (Holding root built) (Given world made)) :
    (some <$> program).Keeps world.withFields (Holding root built) fun outcome => ∃ given, outcome = given.map some ∧ Given world made given := by
  apply Program.Keeps.bind
  refine keeps.weaken fun outcome given => ?_
  cases outcome with
  | ok key => exact ⟨.ok key, rfl, given⟩
  | error error => exact ⟨.error error, rfl, given⟩

theorem KeyCall.program_keeps (honest : ∀ fetch outer key, (world fetch outer).1 = .ok key → key = root) (call : KeyCall κ) :
    (call.program source built).Keeps world.withFields (Holding root built) (call.Ends world root built) := by
  match call with
  | .getPrivilegedKey none reason => exact some_keeps (getRootPrivilegedKey_keeps honest reason)
  | .getPrivilegedKey (some wallet) reason =>
    exact some_keeps (getPrivilegedKey_keeps (some wallet) (profileKeyGetter_keeps honest _ reason))
  | .destroyKey manager =>
    apply Program.Keeps.bind
    apply modify_keeps
    · intro before key retained
      cases retained
    · rfl

def profileKey (root : PrivateKey) : Option Octets → Except WalletManagerError PrivateKey
  | none => .ok root
  | some pad => (xorBytes root.bytes32 pad).map .ofBytes

/-- However the calls interleave, one that asks the manager for its key gets this one, unless the root key could not be fetched. -/
def Yields (root : PrivateKey) (built : κ → ProfileWallet) (manager : Option κ) (key : PrivateKey) : Prop :=
  ∀ (ω : Type) (world : Machine rootKeyFetches ω) (source : PropRandomness) (outer : ω) (ι : Type) [DecidableEq ι] (calls : ι → KeyCall κ)
    (pool : Pool (keyManagers κ) PrivilegedKeyError (Option PrivateKey) (AccountKeyManagers κ × ω) ι),
    (∀ fetch outer key, (world fetch outer).1 = .ok key → key = root) →
    Pool.Reaches world.withFields Pool.anyStep
      (Pool.start (fun _ => .construct source, outer) fun caller => (calls caller).program source built) pool →
    ∀ caller reason, calls caller = .getPrivilegedKey manager reason → ∀ outcome, (pool.task caller).program.outcome = some outcome →
      outcome = .ok (some key) ∨ ∃ fetch outer message, (world fetch outer).1 = .error message ∧ outcome = .error (.keyGetter message)

/-- An update of the account wraps the bytes of the root key, and they are what the next login reads. -/
def Wrapped (root : PrivateKey) : Prop :=
  ∀ (W : Type) (config : WalletManagerConfig) (crypto : Cryptography) (world : Machine outsideManager W) (state : ManagerState W)
    (old factors : AuthFactors), crypto.Sound → config.crypto = crypto.withPrivateKeys → state.1.OpenTo config.crypto old →
    factors.rootPrimaryKey = old.rootPrimaryKey → PrivateKey.ofBytes old.rootPrivilegedKey = root → factors.rootPrivilegedKey = root.toArray →
    (updateAuthFactors config factors).Resolves (recording world).withFields state fun _ after =>
      ∃ token, after.1.currentUMPToken = some token ∧ after.2.published = state.2.published ++ [token] ∧
        ∀ password, config.crypto.derivePasswordKey token.passwordSalt token.passwordKdf password = .ok factors.passwordKey →
          token.Opens config.crypto
            ⟨password, factors.presentationKey, factors.recoveryKey, factors.rootPrimaryKey, root.number, factors.profiles⟩

structure PrivilegedKeySurvives (root : PrivateKey) (built : κ → ProfileWallet) (wallet : κ) : Prop where
  rootManager : Yields root built none root
  profileManager : ∃ key, profileKey root (built wallet).profilePrivilegedPad = .ok key ∧ Yields root built (some wallet) key
  chunks : ∀ source manager, ∃ keyBytes, get32ByteRepresentation root = .ok keyBytes ∧
    (storeKey source keyBytes manager).retainedKey = some root
  wrapped : Wrapped root

theorem ends_of_settled [DecidableEq ι] (calls : ι → KeyCall κ)
    (honest : ∀ fetch outer key, (world fetch outer).1 = .ok key → key = root)
    (reached : Pool.Reaches world.withFields Pool.anyStep
      (Pool.start (fun _ => .construct source, outer) fun caller => (calls caller).program source built) pool) (settled : (pool.task caller).program.outcome = some outcome) :
    (calls caller).Ends world root built outcome := by
  have fresh : Holding root built ((fun _ => .construct source, outer) : AccountKeyManagers κ × ω) := by
    intro manager key retained
    cases retained
  have ends := (Pool.Reaches.keeps fresh (fun caller => (calls caller).program_keeps honest) reached).2 caller
  generalize (pool.task caller).program = program at settled ends
  cases program with
  | done value => exact Option.some.inj settled ▸ ends
  | fail error => exact Option.some.inj settled ▸ ends
  | await op next => cases settled

theorem yields_of_keyOf (made : keyOf root built manager = .ok key) : Yields root built manager key := by
  intro ω world source outer ι _ calls pool honest reached caller reason asks outcome settled
  have ended := ends_of_settled calls honest reached settled
  rw [asks] at ended
  obtain ⟨given, rfl, is⟩ := ended
  match given with
  | .ok other =>
    cases made.symm.trans is
    exact .inl rfl
  | .error (.thrown error) => cases made.symm.trans is
  | .error (.keyGetter message) =>
    obtain ⟨fetch, outer, refused⟩ := is
    exact .inr ⟨fetch, outer, message, refused, rfl⟩

def growingNames : PropRandomness where
  propName draw := String.ofList (List.replicate draw 'x')
  random _ length := List.replicate length 0
  random_length _ _ := List.length_replicate
  apart draw first second before _ same := by
    have lengths := congrArg List.length (String.ofList_injective same)
    simp only [List.length_replicate] at lengths
    omega

theorem not_yields (unmade : keyOf root built (some wallet) = .error error) :
    ¬Yields root built (some wallet) key := by
  intro yields
  let world : Machine rootKeyFetches Unit := fun _ _ => (.ok root, ())
  let call : KeyCall κ := .getPrivilegedKey (some wallet) ""
  have honest : ∀ fetch outer key, (world fetch outer).1 = .ok key → key = root := fun _ _ _ same => (Except.ok.inj same).symm
  obtain ⟨pool, reached, settled, -⟩ :=
    Pool.reaches_run world.withFields (call.program growingNames built) (fun _ => .construct growingNames, ())
  obtain ⟨given, same, is⟩ := ends_of_settled (fun _ => call) honest reached settled
  rcases yields Unit world growingNames () Unit (fun _ => call) pool honest reached () "" rfl _ settled with yielded | ⟨_, _, _, refused, -⟩
  · match given with
    | .ok other => cases unmade.symm.trans is
    | .error _ => cases same.symm.trans yielded
  · cases refused

theorem withPrivateKeys_sound {crypto : Cryptography} (sound : crypto.Sound) : crypto.withPrivateKeys.Sound where
  decrypt_encrypt := sound.decrypt_encrypt
  authentic := sound.authentic
  encrypt_ne_nil := sound.encrypt_ne_nil
  unwrap_wrap := sound.unwrap_wrap
  key_of_bytes bytes := by
    have inField := (PrivateKey.ofBytes bytes).inField
    simp only [Cryptography.withPrivateKeys, Nat.mod_eq_of_lt inField, PrivateKey.ofBytes_toArray]
  parse_stringify := sound.parse_stringify
  random_length := sound.random_length

theorem wrapped (root : PrivateKey) : Wrapped root := by
  intro W config crypto world state old factors sound is opened primary same bytes
  have sealedSound := is ▸ withPrivateKeys_sound sound
  have number : ∀ octets, config.crypto.privateKey octets = (PrivateKey.ofBytes octets).number := by
    intro octets
    rw [is]
    rfl
  have privileged : config.crypto.privateKey factors.rootPrivilegedKey = root.number := by
    rw [number, bytes, root.ofBytes_toArray]
  refine (updateAuthFactors_updates sealedSound opened primary ?_).mono fun _ after updated => ?_
  · rw [privileged, number, same]
  · obtain ⟨token, current, published, -⟩ := updated.published
    refine ⟨token, current, published, fun password derives => ?_⟩
    obtain ⟨other, isToken, seals⟩ := updated.opened.token
    cases current.symm.trans isToken
    have has : Account.HasFactors config.crypto
        ⟨password, factors.presentationKey, factors.recoveryKey, factors.rootPrimaryKey, root.number, factors.profiles⟩ token factors :=
      ⟨updated.opened.long, seals, derives, rfl, rfl, rfl, privileged, rfl⟩
    exact has.opens sealedSound

theorem survives_iff {wallet} (pads : ∀ pad, (built wallet).profilePrivilegedPad = some pad → pad.length = 32) :
    PrivilegedKeySurvives root built wallet ↔ (built wallet).profilePrivilegedPad = none ∨ 256 ^ 31 ≤ root.number := by
  constructor
  · intro survives
    by_contra short
    obtain ⟨padded, less⟩ := not_or.mp short
    obtain ⟨pad, isPad⟩ := Option.ne_none_iff_exists'.mp padded
    obtain ⟨key, -, yields⟩ := survives.profileManager
    have lengths : root.toArray.length ≠ pad.length := by
      rw [pads pad isPad]
      exact fun full => less (root.length_toArray.mp full)
    apply not_yields _ yields
    · exact .error ("XOR length mismatch: " ++ toString root.toArray.length ++ " vs " ++ toString pad.length)
    · rw [keyOf, isPad, padKey, xorBytes, if_neg lengths]
      rfl
  · intro full
    have made : ∃ key, profileKey root (built wallet).profilePrivilegedPad = .ok key ∧ keyOf root built (some wallet) = .ok key := by
      rw [keyOf]
      cases isPad : (built wallet).profilePrivilegedPad with
      | none => exact ⟨root, rfl, rfl⟩
      | some pad =>
        have long := root.length_toArray.mpr (full.resolve_left (by rw [isPad]; exact Option.some_ne_none pad))
        have bytes : root.bytes32 = root.toArray := by
          rw [PrivateKey.bytes32, long]
          rfl
        rw [profileKey, padKey, bytes, xorBytes_eq (long.trans (pads pad isPad).symm)]
        exact ⟨_, rfl, rfl⟩
    obtain ⟨key, right, given⟩ := made
    exact ⟨yields_of_keyOf rfl, ⟨key, right, yields_of_keyOf given⟩,
      fun source manager => ⟨_, root.get32ByteRepresentation_eq, retainedKey_stored source manager root⟩, wrapped root⟩

theorem profileWallet_pad {fields : CWIStyleWalletManager} {rootPrimaryKey profileId wallet}
    (switched : fields.profileWallet rootPrimaryKey profileId = .ok wallet) :
    if isDefaultId profileId then wallet.profilePrivilegedPad = none
    else ∃ profile ∈ fields.profiles, wallet.profilePrivilegedPad = some profile.privilegedPad := by
  unfold profileWallet at switched
  split at switched
  · next default =>
    rw [if_pos default]
    cases switched
    rfl
  · next other =>
    rw [if_neg other]
    split at switched
    · cases switched
    · next profile found =>
      obtain ⟨_, -, same⟩ := bind_eq_ok.mp switched
      cases same
      exact ⟨profile, mem_of_find?_eq_some found, rfl⟩

/-- The key manager of a wallet has the right key exactly when the profile is the default one or the root key fills its 32 bytes. -/
theorem privileged_keys_survive_iff {fields : CWIStyleWalletManager} {rootPrimaryKey profileId : Octets} {wallet : κ}
    (switched : fields.profileWallet rootPrimaryKey profileId = .ok (built wallet))
    (pads : ∀ profile ∈ fields.profiles, profile.privilegedPad.length = 32) (root : PrivateKey) :
    PrivilegedKeySurvives root built wallet ↔ isDefaultId profileId = true ∨ 256 ^ 31 ≤ root.number := by
  have padded := profileWallet_pad switched
  split at padded
  · next default =>
    rw [survives_iff fun pad same => absurd (padded.symm.trans same) (Option.some_ne_none pad).symm]
    exact ⟨fun _ => .inl default, fun _ => .inl padded⟩
  · next other =>
    obtain ⟨profile, listed, isPad⟩ := padded
    rw [survives_iff fun pad same => Option.some.inj (isPad.symm.trans same) ▸ pads profile listed]
    have both : ¬(built wallet).profilePrivilegedPad = none := by
      rw [isPad]
      exact Option.some_ne_none _
    exact ⟨fun holds => .inr (holds.resolve_left both), fun holds => .inr (holds.resolve_left other)⟩

def travelProfile : Profile := ⟨"travel", List.replicate 16 1, List.replicate 32 2, List.replicate 32 3, 0⟩

def travelAccount : CWIStyleWalletManager := { profiles := [travelProfile] }

def travelWallet : ProfileWallet := ⟨List.replicate 32 2, some travelProfile.privilegedPad, travelProfile.id⟩

theorem travelAccount_switches : travelAccount.profileWallet (replicate 32 0) travelProfile.id = .ok travelWallet := by decide

theorem privileged_keys_survive_travel :
    PrivilegedKeySurvives ⟨256 ^ 31, by decide⟩ (fun _ : Unit => travelWallet) () ↔
      isDefaultId travelProfile.id = true ∨ 256 ^ 31 ≤ 256 ^ 31 :=
  @privileged_keys_survive_iff Unit _ (fun _ => travelWallet) _ _ _ () travelAccount_switches
    (fun _ member => List.mem_singleton.mp member ▸ List.length_replicate) ⟨256 ^ 31, by decide⟩

/-- A root key of one byte has no key for the profile. -/
theorem short_key_does_not_survive :
    travelAccount.profileWallet (List.replicate 32 0) travelProfile.id = .ok travelWallet ∧
      ¬PrivilegedKeySurvives ⟨1, by decide⟩ (fun _ : Unit => travelWallet) () := by
  refine ⟨travelAccount_switches, fun survives => ?_⟩
  have pads : ∀ pad, travelWallet.profilePrivilegedPad = some pad → pad.length = 32 := fun pad same => Option.some.inj same ▸ length_replicate
  have full := (@survives_iff Unit _ _ (fun _ => travelWallet) () pads).mp survives
  exact full.elim (Option.some_ne_none _) (by decide)

end AccountKeyManagers
end WalletToolbox
