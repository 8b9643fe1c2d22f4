import WalletToolbox.Proofs.BulkReplacements

/-! The invariant of the bulk files over every sequence of merges. -/

namespace WalletToolbox.Chaintracks.Bulk

open Effects Fallible BulkFileDataManager

variable {world : World} {manager manager' : BulkFileDataManager} {contents : List (List Bytes)} {tip : Tip}

/-! One file of a merge -/

theorem kept_bfdForHeight (kept : Kept world manager manager') (height : Nat) : manager'.bfdForHeight height = manager.bfdForHeight height := by
  have files := kept.files
  unfold bfdForHeight
  generalize manager.bfds = ones at files
  generalize manager'.bfds = others at files
  induction files with
  | nil => rfl
  | cons here _ ih =>
    obtain ⟨firstHeight, count, -⟩ := here.fields
    rw [List.findIdx?_cons, List.findIdx?_cons, ih, firstHeight, count]

theorem kept_getBfdForHeight (kept : Kept world manager manager') :
    (manager.getBfdForHeight height = none → manager'.getBfdForHeight height = none) ∧
      ∀ hbf, manager.getBfdForHeight height = some hbf → ∃ file ∈ manager'.bfds, ReadFrom file hbf := by
  have index := kept_bfdForHeight kept height
  have long := kept.files.length_eq
  constructor
  · intro none
    unfold getBfdForHeight at none ⊢
    rw [index]
    cases found : manager.bfdForHeight height with
    | none => rfl
    | some position =>
      rw [found, Option.bind_some, List.getElem?_eq_none_iff, long] at none
      rw [Option.bind_some]
      exact List.getElem?_eq_none none
  · intro hbf found
    have member : hbf ∈ manager.bfds := by
      unfold getBfdForHeight at found
      obtain ⟨_, -, at'⟩ := Option.bind_eq_some_iff.mp found
      exact List.mem_of_getElem? at'
    obtain ⟨file, held, restocked⟩ := forall₂_mem kept.files.flip member
    obtain ⟨firstHeight, -, -, -, prevHash, prevChainWork⟩ := restocked.fields
    exact ⟨file, held, firstHeight, prevHash, prevChainWork⟩

theorem takeFileId_kept (file) : Kept world manager (manager.takeFileId file) := by
  unfold takeFileId
  split
  next index _ _ _ =>
    refine ⟨?_, rfl⟩
    by_cases inside : index < manager.bfds.length
    · have held := List.getElem?_eq_getElem inside
      rw [List.modify_eq_set_getElem?, held]
      exact set_restocked held ⟨rfl, fun _ => .inl⟩
    · rw [List.modify_eq_self (by omega)]
      exact restocked_refl _
  · exact .of_same rfl rfl

variable (world) in
def FileMeets (manager : BulkFileDataManager) (file : BulkHeaderFileInfo) : Prop :=
  (∀ hbf, (manager.takeFileId file).getBfdForHeight file.firstHeight = some hbf → unchanged hbf file = false) →
    ∀ vbf after, validateFileInfo world file (manager.takeFileId file) = (.ok vbf, after) → Meets world after file vbf

section Steps
variable (laws : HashLaws world) (known : KnownFiles world)
include laws known

theorem mergeFile_sound (sound : Sound world manager)
    (meets : FileMeets world manager file) : Ensures (mergeFile world file r) manager (fun _ => Sound world) (Sound world) := by
  have taken := sound.kept laws (takeFileId_kept file)
  unfold FileMeets at meets
  unfold mergeFile
  apply Ensures.bind
  apply ensures_change.mpr
  generalize manager.takeFileId file = manager at taken meets ⊢
  apply Ensures.bind
  apply ensures_current.mpr
  split
  next hbf found =>
    split
    · exact taken
    next differs =>
      apply Ensures.bind
      apply ensures_of_run
      · intro vbf after run
        have met := meets (fun other same => by
          rw [found, Option.some.injEq] at same
          rw [← same]
          simpa using differs) vbf after run
        obtain ⟨kept, -⟩ := validateFileInfo_ok run
        obtain ⟨contents, tip, files⟩ := taken.kept laws kept
        obtain ⟨stored, member, read⟩ := (kept_getBfdForHeight kept).2 hbf found
        apply update_sound laws files member read _ met.overlapping
        intro front back before middle same chain continues
        exact validated_follows laws known run met.honest continues.height (prevAt_eq same chain) chain.root fun _ => continues.named
      · intro _ after run
        exact taken.kept laws (validateFileInfo_error run)
  next found =>
    apply Ensures.bind
    apply ensures_of_run
    · intro vbf after run
      have met := meets (fun other same => by simp [found] at same) vbf after run
      obtain ⟨kept, ⟨_, _, -, described⟩, -⟩ := validateFileInfo_ok run
      obtain ⟨contents, tip, files⟩ := taken.kept laws kept
      have past : after.getBfdForHeight vbf.firstHeight = none := by
        have height : vbf.firstHeight = file.firstHeight := described.firstHeight
        rw [height]
        exact (kept_getBfdForHeight kept).1 found
      -- Whatever follows the tip as it says follows it.
      have whole : after.bfds = after.bfds ++ [] := by simp
      have tipped (height : vbf.firstHeight = tip.height)
          (named : isKnownValidBulkHeaderFile world vbf = true → tip.height ≠ 0 → vbf.prevHash = tip.hash ∧ vbf.prevChainWork = some tip.work) :
          ∃ headers, Follows world tip vbf headers :=
        validated_follows laws known run met.honest height (prevAt_eq whole files.chain) files.chain.root named
      apply Ensures.bind
      apply ensures_current.mpr
      split
      next lbf last =>
        obtain ⟨front, same⟩ := getLast_split last
        split
        next both =>
          rw [Bool.and_eq_true] at both
          have extends' := met.extending lbf past last both.2
          obtain ⟨height, -⟩ := files.last_end last
          obtain ⟨headers, follows⟩ := tipped ((extends'.adjacent both.1).trans height.symm) fun valid =>
            (validateBfdForAdd_ok files (extends'.named both.1 valid)).named
          exact mergeIncremental_sound laws files same follows (extends'.data both.1) (extends'.loads both.1)
        next differ =>
          apply Ensures.bind
          refine Ensures.mono (add_sound laws files ?_ fun continues => tipped continues.height fun _ => continues.named)
            (fun _ _ left => left) fun _ => id
          intro valid stored member
          rw [same] at member
          rcases List.mem_append.mp member with early | late
          · exact files.cdn_front same (by simp) stored early
          · cases List.mem_singleton.mp late
            by_contra incremental
            rw [Bool.not_eq_false] at incremental
            have extends' := met.extending lbf past last incremental
            apply extends'.cdn _ valid
            simpa [isBdfCdn, incremental] using differ
      next none =>
        apply Ensures.bind
        refine Ensures.mono (add_sound laws files ?_ fun continues => tipped continues.height fun _ => continues.named)
          (fun _ _ left => left) fun _ => id
        intro _ stored member
        rw [List.getLast?_eq_none_iff.mp none] at member
        simp at member
    · intro _ after run
      exact taken.kept laws (validateFileInfo_error run)

omit laws known in
variable (world) in
def FilesMeet : List BulkHeaderFileInfo → BulkFileDataManager → Prop
  | [], _ => True
  | file :: files, manager => FileMeets world manager file ∧
      ∀ r r' after, mergeFile world file r manager = (.ok r', after) → FilesMeet files after

theorem mergeFiles_sound (sound : Sound world manager)
    (meets : FilesMeet world files manager) : Ensures (mergeFiles world files r) manager (fun _ => Sound world) (Sound world) := by
  induction files generalizing manager r with
  | nil => exact sound
  | cons file files ih =>
    apply Ensures.bind
    apply ensures_of_run
    · intro r' after run
      exact ih ((mergeFile_sound laws known sound meets.1).ok run) (meets.2 r r' after run)
    · intro _ after run
      have left := mergeFile_sound laws known (r := r) sound meets.1
      unfold Ensures at left
      rwa [run] at left

omit laws known in
variable (world) in
def HeadersMeet (manager : BulkFileDataManager) (newBulkHeaders : List BlockHeader) (incrementalChainWork : Option Int) : Prop :=
  ∀ lbf bf, manager.getLastBfd = some lbf →
    let trimmed := trimAlreadyStoredHeaders newBulkHeaders (lbf.firstHeight + lbf.count) incrementalChainWork
    incrementalFile world manager.chain trimmed.1 trimmed.2 lbf = .ok bf → FilesMeet world [bf] manager

theorem mergeIncrementalBlockHeaders_sound
    (sound : Sound world manager) (meets : HeadersMeet world manager newBulkHeaders incrementalChainWork) :
    Ensures (mergeIncrementalBlockHeaders world newBulkHeaders incrementalChainWork) manager (fun _ => Sound world) (Sound world) := by
  unfold mergeIncrementalBlockHeaders
  apply Ensures.bind
  apply ensures_current.mpr
  dsimp only
  split
  · exact sound
  · exact sound
  next first lbf _ last =>
    apply Ensures.bind
    apply ensures_require _ fun _ => sound
    intro _
    split
    · exact sound
    next bf made =>
      apply Ensures.bind
      rw [last] at made
      exact mergeFiles_sound laws known sound (meets lbf bf last made)

/-! A new manager -/

omit laws known in
theorem mem_selectBulkHeaderFiles {files chain maxPerFile fuel height file}
    (member : file ∈ selectBulkHeaderFiles files chain maxPerFile fuel height) : file ∈ files := by
  induction fuel generalizing height with
  | zero => simp [selectBulkHeaderFiles] at member
  | succ fuel ih =>
    simp only [selectBulkHeaderFiles] at member
    split at member
    · simp at member
    next first others choices =>
      rcases List.mem_cons.mp member with rfl | later
      · have chosen : ∀ (rest : List BulkHeaderFileInfo) (best : BulkHeaderFileInfo), best ∈ files → (∀ other ∈ rest, other ∈ files) →
            rest.foldl (fun a b => if a.count > b.count then a else b) best ∈ files := by
          intro rest
          induction rest with
          | nil => exact fun _ held _ => held
          | cons other rest ih =>
            intro best held all
            apply ih
            · dsimp only
              split
              · exact held
              · exact all other (by simp)
            · exact fun one among => all one (by simp [among])
        have among : ∀ other ∈ first :: others, other ∈ files := fun other held =>
          List.mem_of_mem_filter (choices ▸ held)
        exact chosen others first (among first (by simp)) fun other held => among other (by simp [held])
      · exact ih later

omit laws known in
theorem add_unstored (unstored : manager.storage = false) :
    (add world bfd manager).2 = if validateBfdForAdd manager bfd = .ok () then
      ((manager.push bfd).point bfd.fileHash (some manager.bfds.length)).ensureMaxRetained else manager := by
  unfold add
  rw [current_bind_apply]
  cases valid : validateBfdForAdd manager bfd with
  | error => simp
  | ok =>
    have still : ((manager.push bfd).point bfd.fileHash (some manager.bfds.length)).ensureMaxRetained.storage = false := by
      unfold ensureMaxRetained
      split <;> exact unstored
    simp [bind_apply, still]

theorem add_known (member : file ∈ world.validBulkHeaderFiles) (sourceUrl : (truthyText file.sourceUrl).isSome)
    (mru : Nat) (sound : Sound world manager) (cdn : ∀ bfd ∈ manager.bfds, isBdfIncremental bfd.toBulkFileFields = false)
    (unstored : manager.storage = false) :
    let after := (add world { file.toBulkFileFields with fileHash := file.fileHash.getD "null", mru } manager).2
    Sound world after ∧ (∀ bfd ∈ after.bfds, isBdfIncremental bfd.toBulkFileFields = false) ∧ after.storage = false := by
  obtain ⟨contents, tip, files⟩ := sound
  obtain ⟨hash, headers, work, named, none, before, follows, first⟩ := known file member
  have incremental : isBdfIncremental file.toBulkFileFields = false := by
    have url : (truthyText file.sourceUrl).isNone = false := by simpa using sourceUrl
    simp [isBdfIncremental, url]
  intro after
  have run : after = _ := add_unstored unstored
  rw [named, Option.getD_some] at run
  split at run
  next valid =>
    have continues := validateBfdForAdd_ok files valid
    have same : Follows world tip { file.toBulkFileFields with fileHash := hash, mru } headers := by
      have stocked : Restocked world (file.record hash 0) { file.toBulkFileFields with fileHash := hash, mru } := ⟨rfl, fun _ => .inl⟩
      apply (stocked.follows laws follows).of_same
      · by_cases start : tip.height = 0
        · exact (first (continues.height.trans start)).1.trans (files.chain.root start).1.symm
        · exact (continues.named start).1
      · by_cases start : tip.height = 0
        · exact (first (continues.height.trans start)).2.trans (files.chain.root start).2.symm
        · exact Option.some.inj (before.symm.trans (continues.named start).2)
    have pushed := files.push laws cdn continues same
    have kept := ensureMaxRetained_kept world
      ((manager.push { file.toBulkFileFields with fileHash := hash, mru }).point hash (some manager.bfds.length))
    rw [run]
    refine ⟨⟨_, _, pushed.kept laws kept⟩, ?_, ?_⟩
    · intro bfd held
      obtain ⟨old, among, restocked⟩ := forall₂_mem kept.files held
      rw [restocked.incremental]
      rcases List.mem_append.mp among with early | late
      · exact cdn old early
      · cases List.mem_singleton.mp late
        exact incremental
    · unfold ensureMaxRetained
      split <;> exact unstored
  next =>
    rw [run]
    exact ⟨⟨contents, tip, files⟩, cdn, unstored⟩

theorem create_sound (chain : Chain) (maxPerFile : Nat) (maxRetained) (fetch : Bool) (fromKnownSourceUrl) :
    Sound world (create world chain maxPerFile maxRetained fetch fromKnownSourceUrl) := by
  have empty : BulkFiles world ⟨chain, maxPerFile, maxRetained, fetch, false, [], fun _ => none, 0⟩ [] origin :=
    ⟨.nil _, by simp, by simp⟩
  unfold create
  dsimp only
  split
  · exact ⟨_, _, empty⟩
  next url given =>
    have listed : ∀ file ∈ selectBulkHeaderFiles (world.validBulkHeaderFiles.filter fun f => f.sourceUrl == some url) chain maxPerFile
        ((world.validBulkHeaderFiles.filter fun f => f.sourceUrl == some url).length + 1) 0,
        file ∈ world.validBulkHeaderFiles ∧ (truthyText file.sourceUrl).isSome := by
      intro file member
      have among := mem_selectBulkHeaderFiles member
      rw [List.mem_filter, beq_iff_eq] at among
      refine ⟨among.1, ?_⟩
      have named := truthyText_some given ▸ given
      rw [among.2, named]
      rfl
    generalize selectBulkHeaderFiles _ chain maxPerFile _ 0 = files at listed
    suffices all : ∀ (manager : BulkFileDataManager), Sound world manager →
        (∀ bfd ∈ manager.bfds, isBdfIncremental bfd.toBulkFileFields = false) → manager.storage = false →
        Sound world (files.foldl (fun manager file =>
          (add world { file.toBulkFileFields with fileHash := file.fileHash.getD "null", mru := manager.now world } manager).2) manager) from
      all _ ⟨_, _, empty⟩ (by simp) rfl
    induction files with
    | nil => exact fun _ sound _ _ => sound
    | cons file files ih =>
      intro manager sound cdn unstored
      obtain ⟨member, url⟩ := listed file (by simp)
      obtain ⟨sound', cdn', unstored'⟩ := add_known laws known member url (manager.now world) sound cdn unstored
      exact ih (fun other held => listed other (by simp [held])) _ sound' cdn' unstored'

end Steps

/-! Runs -/

def BulkFileDataManager.stored (manager : BulkFileDataManager) (storage : Bool) (fileIds : Nat → Option Nat) : BulkFileDataManager :=
  { manager with storage, bfds := manager.bfds.mapIdx fun index bfd => { bfd with fileId := fileIds index } }

variable (world) in
/-- The managers that calls of `merge` and `mergeIncrementalBlockHeaders` lead to, each call with files that meet what is
asked of them, whether or not it succeeds. -/
inductive Reaches : BulkFileDataManager → Prop
  | created (chain : Chain) (maxPerFile : Nat) (maxRetained : Option Nat) (fetch : Bool) (fromKnownSourceUrl : Option String)
      (storage : Bool) (fileIds : Nat → Option Nat) :
      Reaches ((create world chain maxPerFile maxRetained fetch fromKnownSourceUrl).stored storage fileIds)
  | merged {manager after : BulkFileDataManager} {outcome : Except BulkError BulkFileDataManagerMergeResult}
      (reached : Reaches manager) (files : List BulkHeaderFileInfo) (meets : FilesMeet world files manager)
      (run : merge world files manager = (outcome, after)) : Reaches after
  | extended {manager after : BulkFileDataManager} {outcome : Except BulkError Unit} (reached : Reaches manager)
      (newBulkHeaders : List BlockHeader) (incrementalChainWork : Option Int)
      (meets : HeadersMeet world manager newBulkHeaders incrementalChainWork)
      (run : mergeIncrementalBlockHeaders world newBulkHeaders incrementalChainWork manager = (outcome, after)) : Reaches after

theorem Ensures.left
    (ensures : Fallible.Ensures method state (fun _ => holds) holds) (run : method state = (outcome, after)) : holds after := by
  unfold Fallible.Ensures at ensures
  rw [run] at ensures
  cases outcome <;> exact ensures

theorem Reaches.sound (laws : HashLaws world) (known : KnownFiles world) (reached : Reaches world manager) : Sound world manager := by
  induction reached with
  | created chain maxPerFile maxRetained fetch fromKnownSourceUrl storage fileIds =>
    apply (create_sound laws known chain maxPerFile maxRetained fetch fromKnownSourceUrl).kept laws
    refine ⟨?_, rfl⟩
    apply List.forall₂_iff_get.mpr
    refine ⟨by simp [stored], ?_⟩
    intro index inside inside'
    simp only [stored, List.get_eq_getElem, List.getElem_mapIdx]
    exact ⟨rfl, fun _ => .inl⟩
  | merged _ files meets run ih => exact Ensures.left (mergeFiles_sound laws known ih meets) run
  | extended _ newBulkHeaders incrementalChainWork meets run ih =>
    exact Ensures.left (mergeIncrementalBlockHeaders_sound laws known ih meets) run

/-! The invariant -/

variable (world) in
structure BulkContents (manager : BulkFileDataManager) (contents : List (List Bytes)) : Prop where
  held : List.Forall₂ (Holds world) manager.bfds contents
  heights : ∀ (index : Nat) (file : BulkFileData), manager.bfds[index]? = some file →
    file.firstHeight = ((manager.bfds.take index).map (·.count)).sum
  previous : ∀ (index : Nat) (file next : BulkFileData), manager.bfds[index]? = some file → manager.bfds[index + 1]? = some next →
    some next.prevHash = file.lastHash ∧ next.prevChainWork = file.lastChainWork
  incremental : ∀ (index : Nat) (file : BulkFileData), manager.bfds[index]? = some file → isBdfIncremental file.toBulkFileFields = true →
    index + 1 = manager.bfds.length
  unbroken : ∀ (height : Nat) (header next : Bytes), contents.flatten[height]? = some header → contents.flatten[height + 1]? = some next →
    (deserializeBaseBlockHeader next).previousHash = world.blockHash header
  work : ∀ (index : Nat) (file : BulkFileData), manager.bfds[index]? = some file →
    file.lastChainWork = some (totalWork (contents.take (index + 1)).flatten)

variable (world) in
def BulkInvariant (manager : BulkFileDataManager) : Prop := ∃ contents, BulkContents world manager contents

theorem FileChain.held (chain : FileChain world tip files contents last) :
    List.Forall₂ (Holds world) files contents := by
  induction chain with
  | nil => exact .nil
  | cons _ follows _ ih => exact .cons follows.toHolds ih

theorem FileChain.counts (chain : FileChain world tip files contents last) :
    last.height = tip.height + (files.map (·.count)).sum := by
  induction chain with
  | nil => rfl
  | cons _ _ _ ih =>
    rw [ih, List.map_cons, List.sum_cons]
    simp only [Tip.after]
    omega

theorem FileChain.at {files last} (chain : FileChain world tip files contents last) {index file} (here : files[index]? = some file) : ∃ headers middle, contents.take (index + 1) = contents.take index ++ [headers] ∧
      FileChain world tip (files.take index) (contents.take index) middle ∧ Continues middle file ∧ Follows world middle file headers := by
  induction chain generalizing index with
  | nil => simp at here
  | cons continues follows _ ih =>
    cases index with
    | zero =>
      simp only [List.getElem?_cons_zero, Option.some.injEq] at here
      subst here
      exact ⟨_, _, rfl, .nil _, continues, follows⟩
    | succ index =>
      obtain ⟨headers, middle, split, before, continues', follows'⟩ := ih (by simpa using here)
      exact ⟨headers, middle, by rw [List.take_succ_cons, split]; rfl, .cons continues follows before, continues', follows'⟩

theorem BulkFiles.invariant (files : BulkFiles world manager contents tip) : BulkContents world manager contents where
  held := files.chain.held
  heights := by
    intro index file here
    obtain ⟨_, middle, -, before, continues, -⟩ := files.chain.at here
    rw [continues.height, before.counts]
    simp [origin]
  previous := by
    intro index file next here after
    obtain ⟨_, middle, -, before, continues, -⟩ := files.chain.at after
    have taken : manager.bfds.take (index + 1) = manager.bfds.take index ++ [file] := by
      rw [List.take_add_one, here]
      rfl
    rw [taken] at before
    obtain ⟨_, headers, start, -, -, _, follows, rfl⟩ := before.concat_inv
    have positive := follows.count_pos
    have above : (start.after file).height ≠ 0 := by
      simp only [Tip.after]
      omega
    obtain ⟨prevHash, prevChainWork⟩ := continues.named above
    exact ⟨by rw [prevHash, follows.lastHash], by rw [prevChainWork, follows.lastChainWork]⟩
  incremental := by
    intro index file here incremental
    have inside := (List.getElem?_eq_some_iff.mp here).1
    by_contra early
    have member : file ∈ manager.bfds.dropLast := by
      apply List.mem_of_getElem? (i := index)
      rw [List.dropLast_eq_take, List.getElem?_take_of_lt (by omega), here]
    have cdn := files.cdn file member
    rw [incremental] at cdn
    simp at cdn
  unbroken := fun _ _ _ here after => files.chain.linked.neighbours here after
  work := by
    intro index file here
    obtain ⟨headers, middle, split, before, _, follows⟩ := files.chain.at here
    rw [follows.work, before.work, split, List.flatten_append, totalWork_append]
    simp [origin]

/-- After every sequence of merges whose files meet the conditions, the bulk files are one unbroken chain. -/
theorem bulk_files_unbroken (laws : HashLaws world) (known : KnownFiles world) (reached : Reaches world manager) : BulkInvariant world manager := by
  obtain ⟨contents, tip, files⟩ := reached.sound laws known
  exact ⟨contents, files.invariant⟩

/-! A chain and a fork of it -/

def plainText (bytes : Bytes) : String := String.ofList (bytes.map fun byte => Char.ofNat (byte.toNat + 256))

def tabled (table : List (Bytes × String)) (bytes : Bytes) : String := (table.lookup bytes).getD (plainText bytes)

theorem plainText_injective (one other) (same : plainText one = plainText other) : one = other := by
  have back : ∀ byte : UInt8, (Char.ofNat (byte.toNat + 256)).toNat = byte.toNat + 256 := by
    intro byte
    have all : ∀ code < 256, (Char.ofNat (code + 256)).toNat = code + 256 := by decide +kernel
    exact all _ byte.toNat_lt
  apply List.map_injective_iff.mpr _ (String.ofList_injective same)
  intro byte byte' equal
  have codes := congrArg Char.toNat equal
  simp only [back] at codes
  exact UInt8.toNat_inj.mp (by omega)

def startsPlain (text : String) : Bool := text.toList.head?.any fun first => decide (first.toNat < 256)

theorem plainText_ne (plain : startsPlain text = true) : plainText bytes ≠ text := by
  intro same
  have all : ∀ code < 256, (Char.ofNat (code + 256)).toNat = code + 256 := by decide +kernel
  unfold startsPlain at plain
  rw [← same, plainText, String.toList_ofList] at plain
  cases bytes with
  | nil => simp at plain
  | cons byte bytes =>
    simp only [List.map_cons, List.head?_cons, Option.any_some, decide_eq_true_eq, all _ byte.toNat_lt] at plain
    omega

theorem mem_of_lookup {table : List (Bytes × String)} (found : table.lookup bytes = some text) :
    (bytes, text) ∈ table := by
  obtain ⟨front, back, rfl, -⟩ := List.lookup_eq_some_iff.mp found
  simp

theorem tabled_injective (apart : (table.map Prod.snd).Nodup)
    (plain : ∀ entry ∈ table, startsPlain entry.2 = true) (one other)
    (same : tabled table one = tabled table other) : one = other := by
  unfold tabled at same
  cases found : table.lookup one with
  | none =>
    cases found' : table.lookup other with
    | none =>
      rw [found, found'] at same
      exact plainText_injective one other same
    | some text =>
      rw [found, found'] at same
      exact absurd same (plainText_ne (plain _ (mem_of_lookup found')))
  | some text =>
    cases found' : table.lookup other with
    | none =>
      rw [found, found'] at same
      exact absurd same.symm (plainText_ne (plain _ (mem_of_lookup found)))
    | some text' =>
      rw [found, found'] at same
      have equal := List.inj_on_of_nodup_map apart (mem_of_lookup found) (mem_of_lookup found') same
      exact congrArg Prod.fst equal

theorem tabled_ne (absent : ∀ entry ∈ table, entry.2 ≠ text)
    (plain : startsPlain text = true) (bytes) : tabled table bytes ≠ text := by
  unfold tabled
  cases found : table.lookup bytes with
  | none => exact plainText_ne plain
  | some other => exact absent _ (mem_of_lookup found)

def firstHeader : Bytes :=
  [1, 0, 0, 0, 0, 0, 0, 0, 0, 0, 0, 0, 0, 0, 0, 0, 0, 0, 0, 0, 0, 0, 0, 0, 0, 0, 0, 0, 0, 0, 0, 0, 0, 0, 0, 0, 59, 163,
   237, 253, 122, 123, 18, 178, 122, 199, 44, 62, 103, 118, 143, 97, 127, 200, 27, 195, 136, 138, 81, 50, 58, 159, 184,
   170, 75, 30, 94, 74, 41, 171, 95, 73, 255, 255, 0, 29, 29, 172, 43, 124]

def secondHeader : Bytes :=
  [1, 0, 0, 0, 111, 226, 140, 10, 182, 241, 179, 114, 193, 166, 162, 70, 174, 99, 247, 79, 147, 30, 131, 101, 225, 90, 8,
   156, 104, 214, 25, 0, 0, 0, 0, 0, 152, 32, 81, 253, 30, 75, 167, 68, 187, 190, 104, 14, 31, 238, 20, 103, 123, 161,
   163, 195, 84, 11, 247, 177, 205, 182, 6, 232, 87, 35, 62, 14, 97, 188, 102, 73, 255, 255, 0, 29, 1, 227, 98, 153]

def forkedHeader : Bytes :=
  [1, 0, 0, 0, 111, 226, 140, 10, 182, 241, 179, 114, 193, 166, 162, 70, 174, 99, 247, 79, 147, 30, 131, 101, 225, 90, 8,
   156, 104, 214, 25, 0, 0, 0, 0, 0, 152, 32, 81, 253, 30, 75, 167, 68, 187, 190, 104, 14, 31, 238, 20, 103, 123, 161,
   163, 195, 84, 11, 247, 177, 205, 182, 6, 232, 87, 35, 62, 14, 97, 188, 102, 73, 255, 255, 0, 29, 0, 0, 0, 0]

def thirdHeader : Bytes :=
  [1, 0, 0, 0, 72, 96, 235, 24, 191, 27, 22, 32, 227, 126, 148, 144, 252, 138, 66, 117, 20, 65, 111, 215, 81, 89, 171,
   134, 104, 142, 154, 131, 0, 0, 0, 0, 152, 32, 81, 253, 30, 75, 167, 68, 187, 190, 104, 14, 31, 238, 20, 103, 123, 161,
   163, 195, 84, 11, 247, 177, 205, 182, 6, 232, 87, 35, 62, 14, 176, 188, 102, 73, 255, 255, 0, 29, 0, 0, 0, 0]

def firstHash : String := "000000000019d6689c085ae165831e934ff763ae46a2a6c172b3f1b60a8ce26f"

def secondHash : String := "00000000839a8e6886ab5951d76f411475428afc90947ee320161bbf18eb6048"

def forkedHash : String := "1bf57b5ab9dae8a580144e1be32dc767c4aa2b8ab752e6a04f5044dc9310cd9d"

def thirdHash : String := "916a1bc6f6ca4f6e55f40430045ce5cec056e7e4af02361b4ccdc117546b6c1d"

/-- Nothing is stored or downloaded here. -/
def sampleWorld : World where
  fileHash := tabled
    [(firstHeader, "r0IDHoBf9JOgc0Hi90/1gUnSKrm6GfYTQ+LIbHHF1m0="),
     (secondHeader, "p23XN5De97V3dvIvohHRnPQxIacJo36u2hcjDqrCWPU="),
     (secondHeader ++ thirdHeader, "vLw1gYb39UhzoJWYBesKUQZ/ls2LD9yzWG04nwKt1KE="),
     (firstHeader ++ forkedHeader, "+6s8q5kcoN/rzRKBn9OTbbY+i36aQI0te5MjBCDYTN4="),
     (thirdHeader, "okGXBjscZD1PTAASswNU4p3e5nUuFC0R3wU/C/8hP8k=")]
  blockHash := tabled [(firstHeader, firstHash), (secondHeader, secondHash), (forkedHeader, forkedHash), (thirdHeader, thirdHash)]
  validBulkHeaderFiles := []
  pathJoin := fun path file => path ++ "/" ++ file
  replies := fun clock => ⟨clock, fun _ => .error .rejected, fun _ => .error .rejected, fun _ _ => .error .rejected, fun _ => .error .rejected,
    fun _ => .error .rejected⟩

def sampleInfo (fileName : String) (firstHeight count : Nat) (prevHash lastHash fileHash : String) (data : Bytes) : BulkHeaderFileInfo :=
  { fileName, firstHeight, count, prevChainWork := some (firstHeight * 4295032833), lastChainWork := some ((firstHeight + count) * 4295032833)
    prevHash, lastHash := some lastHash, chain := some .main, data := some data, validated := false, fileId := none, sourceUrl := none
    fileHash := some fileHash }

def firstFile : BulkHeaderFileInfo :=
  sampleInfo "mainNet_0.headers" 0 1 zeros firstHash "r0IDHoBf9JOgc0Hi90/1gUnSKrm6GfYTQ+LIbHHF1m0=" firstHeader

/-- The next two headers. -/
def incrementalHeaders : BulkHeaderFileInfo :=
  sampleInfo "incremental" 1 2 firstHash thirdHash "vLw1gYb39UhzoJWYBesKUQZ/ls2LD9yzWG04nwKt1KE=" (secondHeader ++ thirdHeader)

def forkedFile : BulkHeaderFileInfo :=
  sampleInfo "mainNet_0.headers" 0 2 zeros forkedHash "+6s8q5kcoN/rzRKBn9OTbbY+i36aQI0te5MjBCDYTN4=" (firstHeader ++ forkedHeader)

def newManager : BulkFileDataManager := (create sampleWorld .main 100000 (some 2) true none).stored false fun _ => none

theorem sampleWorld_laws : HashLaws sampleWorld where
  file := tabled_injective (by decide +kernel) (by decide +kernel)
  block := tabled_injective (by decide +kernel) (by decide +kernel)
  unhashed := tabled_ne (by decide +kernel) (by decide +kernel)

theorem sampleWorld_known : KnownFiles sampleWorld := fun _ member => absurd member List.not_mem_nil

theorem fileMeets_cdn (cdn : ∀ bfd ∈ manager.bfds, isBdfIncremental bfd.toBulkFileFields = false)
    (unvalidated : file.validated = false) : FileMeets world manager file := by
  intro _ vbf after run
  obtain ⟨kept, -⟩ := validateFileInfo_ok run
  have still : ∀ bfd ∈ after.bfds, isBdfIncremental bfd.toBulkFileFields = false := by
    intro bfd member
    obtain ⟨before, held, restocked⟩ := forall₂_mem ((takeFileId_kept file).trans kept).files member
    rw [restocked.incremental]
    exact cdn before held
  refine ⟨fun flagged => ?_, fun last _ ends incremental => ?_, fun replaced lbf overlaps => ?_⟩
  · rw [unvalidated] at flagged
    simp at flagged
  · have cdn := still last (List.mem_of_getLast? ends)
    rw [incremental] at cdn
    simp at cdn
  · obtain ⟨front, same⟩ := overlaps.tail
    have cdn := still lbf (by simp [same])
    rw [overlaps.incremental] at cdn
    simp at cdn

theorem bulk_files_unbroken_extended :
    BulkInvariant sampleWorld (merge sampleWorld [incrementalHeaders] (merge sampleWorld [firstFile] newManager).2).2 := by
  apply bulk_files_unbroken sampleWorld_laws sampleWorld_known
  have first : Reaches sampleWorld (merge sampleWorld [firstFile] newManager).2 :=
    .merged (.created .main 100000 (some 2) true none false fun _ => none) [firstFile]
      ⟨fileMeets_cdn (by decide +kernel) rfl, fun _ _ _ _ => trivial⟩ rfl
  exact .merged first [incrementalHeaders] ⟨fileMeets_cdn (by decide +kernel) rfl, fun _ _ _ _ => trivial⟩ Prod.mk.eta.symm

/-- A longer first file from a fork is accepted, and the rest of the incremental file no longer follows it. -/
theorem bulk_files_break : HashLaws sampleWorld ∧ KnownFiles sampleWorld ∧
    (merge sampleWorld [firstFile, incrementalHeaders, forkedFile] newManager).1.isOk = true ∧
    ¬BulkInvariant sampleWorld (merge sampleWorld [firstFile, incrementalHeaders, forkedFile] newManager).2 := by
  refine ⟨sampleWorld_laws, sampleWorld_known, by decide +kernel, ?_⟩
  intro ⟨contents, bulk⟩
  have data : (merge sampleWorld [firstFile, incrementalHeaders, forkedFile] newManager).2.bfds.map (·.data) =
      [some [firstHeader, forkedHeader].flatten, some [thirdHeader].flatten] := by decide +kernel
  have held := bulk.held
  have unbroken := bulk.unbroken
  generalize (merge sampleWorld [firstFile, incrementalHeaders, forkedFile] newManager).2.bfds = files at data held
  obtain ⟨file, rest, rfl, first, data⟩ := List.map_eq_cons_iff.mp data
  obtain ⟨last, rest, rfl, second, data⟩ := List.map_eq_cons_iff.mp data
  cases List.map_eq_nil_iff.mp data
  cases held with
  | cons here held =>
    cases held with
    | cons next held =>
      cases held
      have one := flatten_sized (by decide) here.sized (here.data _ first)
      have other := flatten_sized (by decide) next.sized (next.data _ second)
      rw [← one, ← other] at unbroken
      have follows := unbroken 1 forkedHeader thirdHeader rfl rfl
      exact absurd follows (by decide +kernel)

end WalletToolbox.Chaintracks.Bulk
