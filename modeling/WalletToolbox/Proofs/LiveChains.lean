import WalletToolbox.Proofs.LivePruning
import WalletToolbox.Chaintracks.ChaintracksStorageBase

/-! The live chain of the in-memory and of the SQL engine, over runs of inserts and
prunes. -/

namespace WalletToolbox.Chaintracks
open List

def Grounded (lastFile : BulkFile) (deleted : LiveTable) (header : LiveBlockHeader) : Prop :=
  (∃ parent ∈ deleted, Continues header parent) ∨
  header.previousHash = lastFile.lastHash ∧ header.height = lastFile.firstHeight + lastFile.count ∧
    header.chainWork = addWork lastFile.lastChainWork (convertBitsToWork header.bits)

structure Grown (lastFile : BulkFile) (deleted rows : LiveTable) : Prop where
  tree : LiveTree rows
  grounded : ∀ header ∈ rows, header.previousHeaderId = none → Grounded lastFile deleted header
  chained : rows ≠ [] → ∃ tip older, ActiveChain rows tip older

/-- One active tip; the active headers, one for each height, linked from the lowest live
header to that tip; the work of each header on top of its parent's; no header with more
work than the tip. -/
structure LiveChain (lastFile : BulkFile) (deleted rows : LiveTable) (first tip : LiveBlockHeader) (chain : List LiveBlockHeader) : Prop where
  oneTip : (rows.filter fun header => header.isActive && header.isChainTip) = [tip]
  active : chain.Perm (rows.filter (·.isActive))
  heights : chain.map (·.height) = List.range' first.height chain.length
  linked : chain.IsChain fun parent header => header.previousHash = parent.hash
  starts : chain.head? = some first
  ends : chain.getLast? = some tip
  grounded : Grounded lastFile deleted first
  work : ∀ header ∈ rows, (∃ parent ∈ rows, Continues header parent) ∨ Grounded lastFile deleted header
  heaviest : ∀ header ∈ rows, ¬isMoreWork header.chainWork tip.chainWork

section
variable {lastFile : BulkFile} {deleted rows : LiveTable} {tip oneBack : LiveBlockHeader} {older : List LiveBlockHeader} {header : BlockHeader}

theorem heights_range (path) (linked : (first :: path).IsChain fun parent header => Continues header parent) :
    (first :: path).map (·.height) = range' first.height (path.length + 1) := by
  induction path generalizing first with
  | nil => rfl
  | cons next path ih =>
    have continues := (isChain_cons_cons.mp linked).1
    have rest := ih linked.tail
    rw [map_cons, rest, continues.2.1, length_cons]
    rfl

theorem Grown.liveChain (grown : Grown lastFile deleted rows) (some : rows ≠ []) : ∃ first tip chain, LiveChain lastFile deleted rows first tip chain := by
  obtain ⟨tip, older, chain⟩ := grown.chained some
  obtain ⟨root, last, top⟩ := chain.rooted
  have continues :=
    chain.linked.imp_of_mem_imp fun one other mine its follows => grown.tree.continues (chain.stored mine) (chain.stored its) follows
  have upward := isChain_reverse.mpr continues
  have stored := chain.stored (mem_of_getLast? last)
  have distinct := (falls chain.linked).imp fun below same => below.ne' (congrArg _ same)
  refine ⟨root, tip, (tip :: older).reverse, ?_, ?_, ?_, upward.imp fun _ _ step => step.1, ?_, ?_, grown.grounded root stored top, ?_, ?_⟩
  · have rowsOnce : rows.Nodup := List.Nodup.of_map _ grown.tree.distinct
    have once : (rows.filter fun header => header.isActive && header.isChainTip).Nodup := rowsOnce.filter _
    refine perm_singleton.mp ((perm_ext_iff_of_nodup once (nodup_singleton _)).mpr fun header => ?_)
    rw [mem_filter, mem_singleton]
    constructor
    · intro ⟨mine, flags⟩
      have both : header.isActive = true ∧ header.isChainTip = true := by simpa using flags
      exact chain.only_tip grown.tree mine both.1 both.2
    · intro same
      subst same
      exact ⟨chain.stored (by simp), by simp [chain.active (mem_cons_self ..), chain.chainTip]⟩
  · have rowsOnce := List.Nodup.of_map _ grown.tree.distinct
    refine (reverse_perm _).trans ((perm_ext_iff_of_nodup distinct (rowsOnce.filter _)).mpr fun header => ?_)
    rw [mem_filter]
    exact chain.members header
  · cases path : (tip :: older).reverse with
    | nil => simp at path
    | cons first others =>
      have head : (tip :: older).reverse.head? = Option.some root := by rw [head?_reverse, last]
      rw [path] at head upward
      obtain rfl : first = root := by simpa using head
      exact heights_range others upward
  · rw [head?_reverse, last]
  · rw [getLast?_reverse]
    rfl
  · intro header mine
    cases previous : header.previousHeaderId with
    | none => exact .inr (grown.grounded header mine previous)
    | some id =>
      obtain ⟨parent, its, _, _, continues⟩ := grown.tree.linked header mine id previous
      exact .inl ⟨parent, its, continues⟩
  · intro header mine
    rw [isMoreWork_iff]
    exact not_lt.mpr (chain.heaviest header mine)

theorem Grown.first (headerId : Nat) (follows : header.extends lastFile = true) : Grown lastFile deleted [header.first headerId lastFile] := by
  have both : header.previousHash = lastFile.lastHash ∧ header.height = lastFile.firstHeight + lastFile.count := by
    simpa [BlockHeader.extends] using follows
  refine ⟨⟨nodup_singleton _, nodup_singleton _, ?_, ?_⟩, ?_, fun _ => ⟨header.first headerId lastFile, [], isChain_singleton _, ?_, rfl, ⟨_, rfl, rfl⟩, ?_⟩⟩
  · intro row member id link
    rw [mem_singleton.mp member] at link
    contradiction
  · intro row member parent _ link
    rw [mem_singleton.mp member] at link
    contradiction
  · intro row member _
    rw [mem_singleton.mp member]
    exact .inr ⟨both.1, both.2, rfl⟩
  · intro row
    rw [mem_singleton]
    exact ⟨fun same => ⟨same, same ▸ rfl⟩, fun both => both.1⟩
  · intro row member
    rw [mem_singleton.mp member]

theorem following_continues (headerId : Nat) (hash : oneBack.hash = header.previousHash) (height : oneBack.height + 1 = header.height) :
    Continues (header.following headerId oneBack tip) oneBack := ⟨hash.symm, height.symm, rfl⟩

theorem following_isActive (headerId : Nat) :
    (header.following headerId oneBack tip).isActive = true ↔ tip.chainWork < (header.following headerId oneBack tip).chainWork := by
  simp [BlockHeader.following]

theorem following_behind (inactive : (header.following headerId oneBack tip).isActive = false) :
    (header.following headerId oneBack tip).chainWork ≤ tip.chainWork ∧ oneBack ≠ tip := by
  have light : (header.following headerId oneBack tip).chainWork ≤ tip.chainWork := by
    by_contra heavy
    rw [(following_isActive headerId).mpr (not_le.mp heavy)] at inactive
    contradiction
  refine ⟨light, fun same => ?_⟩
  have more := convertBitsToWork_pos header.bits
  rw [same] at light
  simp only [BlockHeader.following, addWork] at light
  omega

theorem Grown.insertedAfter (grown : Grown lastFile deleted rows) (chain : ActiveChain rows tip older) (mine : oneBack ∈ rows)
    (hash : oneBack.hash = header.previousHash) (height : oneBack.height + 1 = header.height) (unknown : ∀ row ∈ rows, row.hash ≠ header.hash) (fresh : ∀ row ∈ rows, row.headerId < headerId)
    (ended : InsertedAfter rows tip older oneBack (header.following headerId oneBack tip) outcome) :
    ∃ result, outcome.1 = .ok result ∧ Grown lastFile deleted outcome.2 ∧
      (outcome.2.map fun row => (row.hash, row.headerId)) = (rows.map fun row => (row.hash, row.headerId)) ++ if result.added then [(header.hash, headerId)] else [] := by
  have follows : Follows (header.following headerId oneBack tip) oneBack := ⟨rfl, fresh oneBack mine⟩
  have continues : Continues (header.following headerId oneBack tip) oneBack := following_continues headerId hash height
  have grounded : ∀ deactivated branch, ∀ row ∈ rows.map (flagged deactivated branch oneBack.headerId) ++ [header.following headerId oneBack tip],
      row.previousHeaderId = none → Grounded lastFile deleted row := by
    intro deactivated branch row member root
    cases mem_grown.mp member with
    | inl old =>
      obtain ⟨before, its, rfl⟩ := old
      exact grown.grounded before its root
    | inr new =>
      subst new
      contradiction
  cases ended with
  | behind result inactive added =>
    obtain ⟨light, other⟩ := following_behind inactive
    refine ⟨result, rfl, ⟨grown.tree.grow mine fresh unknown rfl continues [] [], grounded [] [],
      fun _ => ⟨_, _, chain.behind grown.tree inactive mine other light⟩⟩, ?_⟩
    simp [added, Function.comp_def, flagged, BlockHeader.following]
  | stray result active refused => exact ⟨result, rfl, grown, by simp [refused]⟩
  | ahead result branch ancestor deactivated rest active added walked head fork =>
    refine ⟨result, rfl, ⟨grown.tree.grow mine fresh unknown rfl continues _ _, grounded _ _,
      fun _ => ⟨_, _, chain.ahead grown.tree walked head fork active active follows ((following_isActive headerId).mp active)⟩⟩, ?_⟩
    simp [added, Function.comp_def, flagged, BlockHeader.following]

theorem Grown.above (grown : Grown lastFile deleted rows) {maxHeight : Int} (low : ∀ tip, rows.tip = some tip → maxHeight < tip.height) :
    Grown lastFile (deleted ++ rows.filter fun row => (row.height : Int) ≤ maxHeight) (rows.above maxHeight) where
  tree := grown.tree.above maxHeight
  grounded := by
    intro header member root
    obtain ⟨row, mine, high, rfl⟩ := mem_above.mp member
    have asBefore : ∀ parent, Continues row parent → Continues (unlinked maxHeight row) parent := by
      intro parent continues
      unfold unlinked
      split <;> exact continues
    cases previous : row.previousHeaderId with
    | none =>
      refine (grown.grounded row mine previous).imp ?_ ?_
      · intro ⟨parent, its, continues⟩
        exact ⟨parent, mem_append_left _ its, asBefore parent continues⟩
      · intro above
        unfold unlinked
        split <;> exact above
    | some id =>
      obtain ⟨parent, its, _, _, continues⟩ := grown.tree.linked row mine id previous
      have low : (row.height : Int) ≤ maxHeight + 1 := by
        by_contra above
        rw [unlinked_high maxHeight row (not_le.mp above), previous] at root
        contradiction
      refine .inl ⟨parent, mem_append_right _ (mem_filter.mpr ⟨its, ?_⟩), asBefore parent continues⟩
      have := continues.2.1
      simp only [decide_eq_true_eq]
      omega
  chained := by
    intro some
    have any : rows ≠ [] := by
      intro none
      apply some
      rw [none]
      rfl
    obtain ⟨tip, older, chain⟩ := grown.chained any
    obtain ⟨kept, above⟩ := chain.above grown.tree (low tip (chain.tip_eq grown.tree))
    exact ⟨_, kept, above⟩

end

structure Outweighs (rows : LiveTable) (header : BlockHeader) (oneBack tip : LiveBlockHeader) : Prop where
  unknown : rows.byHash header.hash = none
  follows : rows.byHash header.previousHash = some oneBack
  height : oneBack.height + 1 = header.height
  current : rows.tip = some tip
  heavier : isMoreWork (addWork oneBack.chainWork (convertBitsToWork header.bits)) tip.chainWork = true

def ExtendsTip (rows : LiveTable) (header : BlockHeader) : Prop :=
  ∀ oneBack tip, Outweighs rows header oneBack tip → oneBack.isActive = true → oneBack.isChainTip = true

def LeavesFormerTips (rows : LiveTable) (header : BlockHeader) : Prop :=
  ∀ oneBack tip, Outweighs rows header oneBack tip →
    ChaintracksStorageNoDb.engine.activeAncestor rows (walkLimit oneBack) oneBack ≠ .ok none → oneBack.isChainTip = true → oneBack.isActive = true

instance (rows : LiveTable) (header : BlockHeader) : Decidable (ExtendsTip rows header) :=
  decidable_of_iff (∀ oneBack ∈ rows.byHash header.previousHash, ∀ tip ∈ rows.tip, rows.byHash header.hash = none ∧ oneBack.height + 1 = header.height ∧
      isMoreWork (addWork oneBack.chainWork (convertBitsToWork header.bits)) tip.chainWork = true → oneBack.isActive = true → oneBack.isChainTip = true)
    ⟨fun all oneBack tip outweighs => all oneBack outweighs.follows tip outweighs.current ⟨outweighs.unknown, outweighs.height, outweighs.heavier⟩,
      fun all oneBack follows tip current rest => all oneBack tip ⟨rest.1, follows, rest.2.1, current, rest.2.2⟩⟩

instance (rows : LiveTable) (header : BlockHeader) : Decidable (LeavesFormerTips rows header) :=
  decidable_of_iff (∀ oneBack ∈ rows.byHash header.previousHash, ∀ tip ∈ rows.tip, rows.byHash header.hash = none ∧ oneBack.height + 1 = header.height ∧
      isMoreWork (addWork oneBack.chainWork (convertBitsToWork header.bits)) tip.chainWork = true →
        ChaintracksStorageNoDb.engine.activeAncestor rows (walkLimit oneBack) oneBack ≠ .ok none → oneBack.isChainTip = true → oneBack.isActive = true)
    ⟨fun all oneBack tip outweighs => all oneBack outweighs.follows tip outweighs.current ⟨outweighs.unknown, outweighs.height, outweighs.heavier⟩,
      fun all oneBack follows tip current rest => all oneBack tip ⟨rest.1, follows, rest.2.1, current, rest.2.2⟩⟩

theorem noDb_exact : ChaintracksStorageNoDb.engine.Exact where
  previous _ _ := rfl
  setActive distinct mine active := distinct.put mine (fun row => { row with isActive := active }) rfl
  clearChainTip distinct mine := distinct.put mine (fun row => { row with isChainTip := false }) rfl

theorem knex_exact : ChaintracksStorageKnex.engine.Exact where
  previous _ _ := rfl
  setActive _ _ _ := rfl
  clearChainTip _ _ := rfl

structure NoDbKept (data : ChaintracksNoDbData) : Prop where
  ids : ∀ row ∈ data.liveHeaders, row.headerId ≤ data.maxHeaderId
  index : ∀ hash, (data.hashToHeaderId hash).isSome = true ↔ ∃ row ∈ data.liveHeaders, row.hash = hash

theorem knows_header {table : LiveTable} {rows : LiveTable} {header : BlockHeader} {headerId : Nat}
    (keys : (table.map fun row => (row.hash, row.headerId)) =
      (rows.map fun row => (row.hash, row.headerId)) ++ if added then [(header.hash, headerId)] else []) (hash : String) (id : Nat) :
    (∃ row ∈ table, row.hash = hash ∧ row.headerId = id) ↔
      (∃ row ∈ rows, row.hash = hash ∧ row.headerId = id) ∨ added = true ∧ header.hash = hash ∧ headerId = id := by
  have listed : ∀ table : LiveTable, (∃ row ∈ table, row.hash = hash ∧ row.headerId = id) ↔ (hash, id) ∈ table.map fun row => (row.hash, row.headerId) := by
    intro table
    simp
  rw [listed table, listed rows, keys, mem_append]
  cases added with
  | true => simp [eq_comm]
  | false => simp

section
variable {lastFile : BulkFile} {deleted : LiveTable} {file : Option BulkFile} {header : BlockHeader}

theorem NoDbKept.store (kept : NoDbKept data) {added : Bool} (tipHeaderId : Nat)
    (keys : (table.map fun row => (row.hash, row.headerId)) =
      (data.liveHeaders.map fun row => (row.hash, row.headerId)) ++ if added then [(header.hash, data.maxHeaderId + 1)] else []) :
    NoDbKept
      { data with
        liveHeaders := table
        maxHeaderId := data.maxHeaderId + 1
        tipHeaderId
        hashToHeaderId := if added then Function.update data.hashToHeaderId header.hash (some (data.maxHeaderId + 1)) else data.hashToHeaderId } where
  ids := by
    intro row member
    cases (knows_header keys row.hash row.headerId).mp ⟨row, member, rfl, rfl⟩ with
    | inl old =>
      obtain ⟨before, its, _, same⟩ := old
      have := kept.ids before its
      simp only
      omega
    | inr new => exact new.2.2.ge
  index := by
    intro hash
    have hashes : (∃ row ∈ table, row.hash = hash) ↔ (∃ row ∈ data.liveHeaders, row.hash = hash) ∨ added = true ∧ header.hash = hash := by
      have any : ∀ table : LiveTable, (∃ row ∈ table, row.hash = hash) ↔ ∃ id, ∃ row ∈ table, row.hash = hash ∧ row.headerId = id := by simp
      rw [any table, any data.liveHeaders]
      constructor
      · intro ⟨id, known⟩
        exact ((knows_header keys hash id).mp known).imp (fun old => ⟨id, old⟩) fun new => ⟨new.1, new.2.1⟩
      · intro known
        cases known with
        | inl old =>
          obtain ⟨id, old⟩ := old
          exact ⟨id, (knows_header keys hash id).mpr (.inl old)⟩
        | inr new => exact ⟨_, (knows_header keys hash _).mpr (.inr ⟨new.1, new.2, rfl⟩)⟩
    rw [hashes, ← kept.index hash]
    cases added with
    | false => simp
    | true =>
      by_cases same : hash = header.hash
      · simp [same]
      · simp [Function.update_of_ne same, Ne.symm same]

theorem NoDbKept.unknown (kept : NoDbKept data) (dupe : ¬(data.hashToHeaderId header.hash).isSome = true) : ∀ row ∈ data.liveHeaders, row.hash ≠ header.hash :=
  fun row mine same => dupe ((kept.index header.hash).mpr ⟨row, mine, same⟩)

theorem NoDbKept.fresh (kept : NoDbKept data) : ∀ row ∈ data.liveHeaders, row.headerId < data.maxHeaderId + 1 :=
  fun row mine => Nat.lt_succ_of_le (kept.ids row mine)

theorem noDb_insert (grown : Grown lastFile deleted data.liveHeaders) (kept : NoDbKept data)
    (extendsTip : ExtendsTip data.liveHeaders header) (leaves : LeavesFormerTips data.liveHeaders header)
    (bulk : data.liveHeaders = [] → file = some lastFile) :
    (∃ result, (ChaintracksStorageNoDb.insertHeader file header data).1 = .ok result) ∧
      Grown lastFile deleted (ChaintracksStorageNoDb.insertHeader file header data).2.liveHeaders ∧
      NoDbKept (ChaintracksStorageNoDb.insertHeader file header data).2 := by
  unfold ChaintracksStorageNoDb.insertHeader
  by_cases dupe : (data.hashToHeaderId header.hash).isSome = true
  · simp only [dupe, ↓reduceIte]
    exact ⟨⟨_, rfl⟩, grown, kept⟩
  · have unknown := kept.unknown dupe
    have fresh := kept.fresh
    simp only [dupe, Bool.false_eq_true, ↓reduceIte]
    cases found : data.liveHeaders.byHash header.previousHash with
    | none =>
      cases size : data.liveHeaders with
      | cons row rest =>
        simp only [length_cons, Nat.add_one_ne_zero, ↓reduceIte]
        exact ⟨⟨_, rfl⟩, size ▸ grown, kept⟩
      | nil =>
        simp only [length_nil, ↓reduceIte, bulk size]
        cases follows : header.extends lastFile with
        | false =>
          simp only [Bool.false_eq_true, ↓reduceIte]
          exact ⟨⟨_, rfl⟩, size ▸ grown, kept⟩
        | true =>
          simp only [↓reduceIte, nil_append]
          have keys : ([header.first (data.maxHeaderId + 1) lastFile].map fun row => (row.hash, row.headerId)) =
              (data.liveHeaders.map fun row => (row.hash, row.headerId)) ++ if true then [(header.hash, data.maxHeaderId + 1)] else [] := by
            simp [size, BlockHeader.first]
          exact ⟨⟨_, rfl⟩, Grown.first _ follows, kept.store _ keys⟩
    | some oneBack =>
      obtain ⟨mine, hash⟩ := LiveTable.byHash_some found
      by_cases height : oneBack.height + 1 = header.height
      · obtain ⟨tip, older, chain⟩ := grown.chained (ne_nil_of_mem mine)
        have outweighs : (header.following (data.maxHeaderId + 1) oneBack tip).isActive = true → Outweighs data.liveHeaders header oneBack tip :=
          fun active => ⟨find?_eq_none.mpr fun row its => by simpa using unknown row its, found, height, chain.tip_eq grown.tree, active⟩
        have ended : InsertedAfter data.liveHeaders tip older oneBack (header.following (data.maxHeaderId + 1) oneBack tip)
            (ChaintracksStorageNoDb.engine.insertAfter oneBack tip (header.following (data.maxHeaderId + 1) oneBack tip) data.liveHeaders) := by
          refine (insertAfter_reports noDb_exact grown.tree chain mine ?_ ?_).inserted
          · intro active flag
            exact chain.only_tip grown.tree mine flag (extendsTip oneBack tip (outweighs active) flag)
          · intro active flag former walk
            have this := leaves oneBack tip (outweighs active) walk former
            rw [flag] at this
            contradiction
        obtain ⟨result, ok, after, keys⟩ := grown.insertedAfter chain mine hash height unknown fresh ended
        cases outcome : ChaintracksStorageNoDb.engine.insertAfter oneBack tip (header.following (data.maxHeaderId + 1) oneBack tip) data.liveHeaders with
        | mk reply table =>
          rw [outcome] at ok after keys
          obtain rfl : reply = .ok result := ok
          simp only [height, ne_eq, not_true_eq_false, ↓reduceIte, chain.priorTip_eq grown.tree mine, outcome]
          exact ⟨⟨_, rfl⟩, after, kept.store _ keys⟩
      · simp only [ne_eq, height, not_false_eq_true, ↓reduceIte]
        exact ⟨⟨_, rfl⟩, grown, kept⟩

theorem noDb_prune (tree : LiveTree data.liveHeaders) (kept : NoDbKept data) (maxHeight : Int) :
    NoDbKept (ChaintracksStorageNoDb.deleteOlderLiveBlockHeaders maxHeight data).2 where
  ids := by
    intro row member
    rw [noDb_deleteOlder data tree] at member
    obtain ⟨before, mine, _, rfl⟩ := mem_above.mp member
    rw [unlinked_headerId]
    exact kept.ids before mine
  index := by
    intro hash
    rw [noDb_deleteOlder data tree]
    have known := kept.index hash
    have same : (ChaintracksStorageNoDb.deleteOlderLiveBlockHeaders maxHeight data).2.hashToHeaderId hash =
        if (∃ row ∈ data.liveHeaders, (row.height : Int) ≤ maxHeight ∧ row.hash = hash) then none else data.hashToHeaderId hash := by
      unfold ChaintracksStorageNoDb.deleteOlderLiveBlockHeaders
      rw [clearPrevious_eq tree]
      refine if_congr ?_ rfl rfl
      simp only [any_eq_true, mem_filter, mem_map, decide_eq_true_eq]
      constructor
      · intro ⟨header, ⟨⟨row, mine, same⟩, low⟩, equal⟩
        subst same
        exact ⟨row, mine, by simpa using low, by simpa using equal⟩
      · intro ⟨row, mine, low, equal⟩
        exact ⟨_, ⟨⟨row, mine, rfl⟩, by simpa using low⟩, by simpa using equal⟩
    have above : (∃ row ∈ data.liveHeaders.above maxHeight, row.hash = hash) ↔ ∃ row ∈ data.liveHeaders, maxHeight < row.height ∧ row.hash = hash := by
      constructor
      · intro ⟨header, member, equal⟩
        obtain ⟨row, mine, high, rfl⟩ := mem_above.mp member
        exact ⟨row, mine, high, by simpa using equal⟩
      · intro ⟨row, mine, high, equal⟩
        exact ⟨_, mem_above.mpr ⟨row, mine, high, rfl⟩, by simpa using equal⟩
    rw [same, above]
    by_cases deleted : ∃ row ∈ data.liveHeaders, (row.height : Int) ≤ maxHeight ∧ row.hash = hash
    · rw [if_pos deleted]
      obtain ⟨row, mine, low, equal⟩ := deleted
      simp only [Option.isSome_none, Bool.false_eq_true, false_iff]
      intro ⟨other, its, high, same⟩
      obtain rfl := inj_on_of_nodup_map tree.hashes mine its (equal.trans same.symm)
      omega
    · rw [if_neg deleted, known]
      constructor
      · intro ⟨row, mine, equal⟩
        exact ⟨row, mine, not_le.mp fun low => deleted ⟨row, mine, low, equal⟩, equal⟩
      · intro ⟨row, mine, _, equal⟩
        exact ⟨row, mine, equal⟩

theorem unknown_hash {rows : LiveTable} {hash : String} (dupe : ¬¬(rows.filter fun row => row.hash = hash).length = 0) : ∀ row ∈ rows, row.hash ≠ hash := by
  have none := eq_nil_of_length_eq_zero (not_not.mp dupe)
  intro row mine same
  exact filter_eq_nil_iff.mp none row mine (by simp [same])

theorem knex_insert (grown : Grown lastFile deleted data.rows) (fresh : ∀ row ∈ data.rows, row.headerId < data.nextHeaderId)
    (extendsTip : ExtendsTip data.rows header) (bulk : data.rows = [] → file = some lastFile) :
    (∃ result, (ChaintracksStorageKnex.insertHeader file header data).1 = .ok result) ∧
      Grown lastFile deleted (ChaintracksStorageKnex.insertHeader file header data).2.rows ∧
      ∀ row ∈ (ChaintracksStorageKnex.insertHeader file header data).2.rows, row.headerId < (ChaintracksStorageKnex.insertHeader file header data).2.nextHeaderId := by
  unfold ChaintracksStorageKnex.insertHeader
  by_cases dupe : ¬(data.rows.filter fun row => row.hash = header.hash).length = 0
  · simp only [ne_eq, dupe, not_false_eq_true, ↓reduceIte]
    exact ⟨⟨_, rfl⟩, grown, fresh⟩
  · have unknown := unknown_hash dupe
    simp only [ne_eq, dupe, ↓reduceIte]
    cases found : data.rows.byHash header.previousHash with
    | none =>
      cases size : data.rows with
      | cons row rest =>
        simp only [length_cons, Nat.add_one_ne_zero, ↓reduceIte]
        exact ⟨⟨_, rfl⟩, size ▸ grown, fresh⟩
      | nil =>
        simp only [length_nil, ↓reduceIte, bulk size]
        cases follows : header.extends lastFile with
        | false =>
          simp only [Bool.false_eq_true, ↓reduceIte]
          exact ⟨⟨_, rfl⟩, size ▸ grown, fresh⟩
        | true =>
          simp only [↓reduceIte, nil_append]
          refine ⟨⟨_, rfl⟩, Grown.first _ follows, ?_⟩
          intro row member
          rw [mem_singleton.mp member]
          exact Nat.lt_succ_self _
    | some oneBack =>
      obtain ⟨mine, hash⟩ := LiveTable.byHash_some found
      by_cases height : oneBack.height + 1 = header.height
      · obtain ⟨tip, older, chain⟩ := grown.chained (ne_nil_of_mem mine)
        have ended : InsertedAfter data.rows tip older oneBack (header.following data.nextHeaderId oneBack tip)
            (ChaintracksStorageKnex.engine.insertAfter oneBack tip (header.following data.nextHeaderId oneBack tip) data.rows) := by
          refine (insertAfter_reports knex_exact grown.tree chain mine ?_ ?_).inserted
          · intro active flag
            refine chain.only_tip grown.tree mine flag (extendsTip oneBack tip ⟨?_, found, height, chain.tip_eq grown.tree, active⟩ flag)
            exact find?_eq_none.mpr fun row its => by simpa using unknown row its
          · intro _ _ _ _ _
            rfl
        obtain ⟨result, ok, after, keys⟩ := grown.insertedAfter chain mine hash height unknown fresh ended
        cases outcome : ChaintracksStorageKnex.engine.insertAfter oneBack tip (header.following data.nextHeaderId oneBack tip) data.rows with
        | mk reply table =>
          rw [outcome] at ok after keys
          obtain rfl : reply = .ok result := ok
          simp only [height, not_true_eq_false, ↓reduceIte, chain.priorTip_eq grown.tree mine, outcome]
          refine ⟨⟨_, rfl⟩, after, ?_⟩
          intro row member
          cases (knows_header keys row.hash row.headerId).mp ⟨row, member, rfl, rfl⟩ with
          | inl old =>
            obtain ⟨before, its, _, same⟩ := old
            have := fresh before its
            cases result.added <;> simp only [Bool.false_eq_true, ↓reduceIte] <;> omega
          | inr new =>
            rw [if_pos new.1]
            exact Nat.lt_succ_of_le new.2.2.ge
      · simp only [height, not_false_eq_true, ↓reduceIte]
        exact ⟨⟨_, rfl⟩, grown, fresh⟩

end

/-- The inserts after which the in-memory engine keeps its chain. -/
def NoDbMeets (data : ChaintracksNoDbData) (header : BlockHeader) : Prop := ExtendsTip data.liveHeaders header ∧ LeavesFormerTips data.liveHeaders header

/-- The inserts after which the SQL engine keeps its chain. -/
def KnexMeets (data : LiveHeaderRows) (header : BlockHeader) : Prop := ExtendsTip data.rows header

theorem Grown.start (lastFile : BulkFile) : Grown lastFile [] [] where
  tree := ⟨nodup_nil, nodup_nil, by simp, by simp⟩
  grounded := by simp
  chained := fun some => absurd rfl some

theorem noDb_reaches {data deleted}
    (reaches : chaintracksStorageNoDb.Reaches lastFile NoDbMeets data deleted) : Grown lastFile deleted data.liveHeaders ∧ NoDbKept data := by
  induction reaches with
  | start => exact ⟨Grown.start lastFile, by simp [chaintracksStorageNoDb, ChaintracksStorageNoDb.empty], by simp [chaintracksStorageNoDb, ChaintracksStorageNoDb.empty]⟩
  | insert _ meets bulk ih => exact (noDb_insert ih.1 ih.2 meets.1 meets.2 bulk).2
  | prune _ low ih =>
    refine ⟨?_, noDb_prune ih.1.tree ih.2 _⟩
    have this := Grown.above ih.1 low
    rw [← noDb_deleteOlder _ ih.1.tree] at this
    exact this

theorem knex_reaches {data deleted}
    (reaches : chaintracksStorageKnex.Reaches lastFile KnexMeets data deleted) :
    Grown lastFile deleted data.rows ∧ ∀ row ∈ data.rows, row.headerId < data.nextHeaderId := by
  induction reaches with
  | start => exact ⟨Grown.start lastFile, by simp [chaintracksStorageKnex, ChaintracksStorageKnex.empty]⟩
  | insert _ meets bulk ih => exact (knex_insert ih.1 ih.2 meets bulk).2
  | @prune data deleted maxHeight _ low ih =>
    have rows := knex_deleteOlder data ih.1.tree maxHeight
    constructor
    · have this := ih.1.above fun tip found => low tip found
      rw [← rows] at this
      exact this
    · intro row member
      have stored := rows ▸ member
      obtain ⟨before, mine, _, rfl⟩ := mem_above.mp stored
      rw [unlinked_headerId]
      exact ih.2 before mine

/-- In every run whose inserts meet the condition there is one live chain, ending at the
only active tip, and no insert fails. -/
theorem live_chain (lastFile : BulkFile) :
    (∀ data deleted, chaintracksStorageNoDb.Reaches lastFile NoDbMeets data deleted →
      (data.liveHeaders ≠ [] → ∃ first tip chain, LiveChain lastFile deleted data.liveHeaders first tip chain) ∧
      ∀ header file, NoDbMeets data header → (data.liveHeaders = [] → file = some lastFile) →
        ∃ result, (ChaintracksStorageNoDb.insertHeader file header data).1 = .ok result) ∧
    (∀ data deleted, chaintracksStorageKnex.Reaches lastFile KnexMeets data deleted →
      (data.rows ≠ [] → ∃ first tip chain, LiveChain lastFile deleted data.rows first tip chain) ∧
      ∀ header file, KnexMeets data header → (data.rows = [] → file = some lastFile) →
        ∃ result, (ChaintracksStorageKnex.insertHeader file header data).1 = .ok result) := by
  constructor
  · intro data deleted reaches
    obtain ⟨grown, kept⟩ := noDb_reaches reaches
    exact ⟨grown.liveChain, fun header file meets bulk => (noDb_insert grown kept meets.1 meets.2 bulk).1⟩
  · intro data deleted reaches
    obtain ⟨grown, fresh⟩ := knex_reaches reaches
    exact ⟨grown.liveChain, fun header file meets bulk => (knex_insert grown fresh meets bulk).1⟩

theorem reaches_inserted (storage : ChaintracksStorage Data) (lastFile) (headers) :
    storage.Reaches lastFile (fun _ _ => True) (storage.inserted lastFile headers) [] := by
  induction headers using reverseRecOn with
  | nil => exact .start
  | append_singleton headers header ih =>
    unfold ChaintracksStorage.inserted
    rw [foldl_concat]
    exact .insert ih trivial fun _ => rfl

def sampleFile : BulkFile := ⟨0, 1, "0", 2⟩

def sampleHeader (previousHash hash : String) (height bits : Nat) : BlockHeader := ⟨⟨1, previousHash, hash, 0, bits, 0⟩, height, hash⟩

/-- Two headers of the same work follow the first one, and a header follows the second of
them. -/
def reorganizing : List BlockHeader :=
  [sampleHeader "0" "1" 1 0x207fffff, sampleHeader "1" "2" 2 0x207fffff, sampleHeader "1" "2a" 2 0x207fffff, sampleHeader "2a" "3a" 3 0x207fffff]

/-- Two headers follow the first one, the second with more work. -/
def outweighing : List BlockHeader :=
  [sampleHeader "0" "1" 1 0x207fffff, sampleHeader "1" "2" 2 0x207fffff, sampleHeader "1" "2a" 2 0x1d00ffff]

/-- After a reorganization two headers follow the former tip. -/
def returning : List BlockHeader := reorganizing ++ [sampleHeader "2" "3" 3 0x1d00ffff]

theorem live_chain_reorganized : ∃ first tip chain,
    LiveChain sampleFile [] (chaintracksStorageNoDb.inserted sampleFile reorganizing).liveHeaders first tip chain := by
  refine (((live_chain sampleFile).1 _ _ ?_).1 (by decide +kernel))
  refine .insert (.insert (.insert (.insert .start ?_ fun _ => rfl) ?_ fun _ => rfl) ?_ fun _ => rfl) ?_ fun _ => rfl
  · exact ⟨by decide +kernel, by decide +kernel⟩
  · exact ⟨by decide +kernel, by decide +kernel⟩
  · exact ⟨by decide +kernel, by decide +kernel⟩
  · exact ⟨by decide +kernel, by decide +kernel⟩

/-- A heavier header on the active parent of the tip makes a second active tip, in either
engine; a header on a former tip leaves the in-memory engine with an active header whose
parent is not active. -/
theorem live_chain_breaks :
    (chaintracksStorageNoDb.Reaches sampleFile (fun _ _ => True) (chaintracksStorageNoDb.inserted sampleFile outweighing) [] ∧
      ¬∃ first tip chain, LiveChain sampleFile [] (chaintracksStorageNoDb.inserted sampleFile outweighing).liveHeaders first tip chain) ∧
    (chaintracksStorageKnex.Reaches sampleFile (fun _ _ => True) (chaintracksStorageKnex.inserted sampleFile outweighing) [] ∧
      ¬∃ first tip chain, LiveChain sampleFile [] (chaintracksStorageKnex.inserted sampleFile outweighing).rows first tip chain) ∧
    (chaintracksStorageNoDb.Reaches sampleFile (fun _ _ => True) (chaintracksStorageNoDb.inserted sampleFile returning) [] ∧
      ¬∃ first tip chain, LiveChain sampleFile [] (chaintracksStorageNoDb.inserted sampleFile returning).liveHeaders first tip chain) := by
  refine ⟨⟨reaches_inserted _ _ _, ?_⟩, ⟨reaches_inserted _ _ _, ?_⟩, reaches_inserted _ _ _, ?_⟩
  · intro ⟨first, tip, chain, live⟩
    have tips : ((chaintracksStorageNoDb.inserted sampleFile outweighing).liveHeaders.filter fun header => header.isActive && header.isChainTip).length = 1 := congrArg length live.oneTip
    exact absurd tips (by decide +kernel)
  · intro ⟨first, tip, chain, live⟩
    have tips : ((chaintracksStorageKnex.inserted sampleFile outweighing).rows.filter fun header => header.isActive && header.isChainTip).length = 1 := congrArg length live.oneTip
    exact absurd tips (by decide +kernel)
  · intro ⟨first, tip, chain, live⟩
    -- Heights 1 and 3 are active, and 2 is not.
    have stored : ((chaintracksStorageNoDb.inserted sampleFile returning).liveHeaders.filter (·.isActive)).map (·.height) = [1, 3] := by decide +kernel
    have heights := live.active.map (·.height)
    rw [stored, live.heights] at heights
    have two : chain.length = 2 := by simpa using heights.length_eq
    rw [two] at heights
    have low := heights.mem_iff.mpr (show 1 ∈ [1, 3] by simp)
    have high := heights.mem_iff.mpr (show 3 ∈ [1, 3] by simp)
    simp only [range'_succ, range'_zero, mem_cons, not_mem_nil, or_false] at low high
    omega

end WalletToolbox.Chaintracks
