import WalletToolbox.Proofs.LiveTables
import WalletToolbox.Chaintracks.ChaintracksStorageBase

/-! The three storage engines side by side: as long as every live header is active and
every deleted one was followed by one other, they hold the same rows and answer alike. -/

namespace WalletToolbox.Chaintracks
open List
open LiveTable (byHash byHash_none byHash_some update)

section
variable {α : Type} {le : α → α → Bool}

theorem filter_mergeSort (trans : ∀ a b c, le a b = true → le b c = true → le a c = true) (total : ∀ a b, (le a b || le b a) = true)
    (test : α → Bool) (items : List α) : (items.mergeSort le).filter test = (items.filter test).mergeSort le := by
  induction items with
  | nil => simp
  | cons item items ih =>
    obtain ⟨before, after, whole, rest, less⟩ := mergeSort_cons trans total item items
    cases passes : test item with
    | false =>
      rw [whole, filter_append, filter_cons_of_neg (by simp [passes]), ← filter_append, ← rest, ih,
        filter_cons_of_neg (by simp [passes])]
    | true =>
      obtain ⟨first, last, kept, keptRest, keptLess⟩ := mergeSort_cons trans total item (items.filter test)
      -- Both ways the item stands behind all that are not at most it, and before the others.
      have same : before.filter test ++ after.filter test = first ++ last := by rw [← filter_append, ← rest, ih, keptRest]
      have sorted := pairwise_mergeSort trans total (item :: items)
      have sortedKept := pairwise_mergeSort trans total (item :: items.filter test)
      rw [whole] at sorted
      rw [kept] at sortedKept
      have more := (pairwise_cons.mp (pairwise_append.mp sorted).2.1).1
      have keptMore := (pairwise_cons.mp (pairwise_append.mp sortedKept).2.1).1
      have front : before.filter test = first := by
        have cut := congrArg (filter fun other => !le item other) same
        rw [filter_append, filter_append] at cut
        have all : (before.filter test).filter (fun other => !le item other) = before.filter test :=
          filter_eq_self.mpr fun other member => less other (mem_filter.mp member).1
        have none : (after.filter test).filter (fun other => !le item other) = [] :=
          filter_eq_nil_iff.mpr fun other member => by simp [more other (mem_filter.mp member).1]
        have allKept : first.filter (fun other => !le item other) = first := filter_eq_self.mpr keptLess
        have noneKept : last.filter (fun other => !le item other) = [] :=
          filter_eq_nil_iff.mpr fun other member => by simp [keptMore other member]
        rw [all, none, allKept, noneKept, append_nil, append_nil] at cut
        exact cut
      rw [front] at same
      rw [filter_cons_of_pos passes, kept, whole, filter_append, filter_cons_of_pos passes, front,
        append_cancel_left same]

theorem find?_congr {items : List α} (same : ∀ item ∈ items, test item = other item) : items.find? test = items.find? other := by
  induction items with
  | nil => rfl
  | cons item items ih =>
    rw [find?_cons, find?_cons, same item (by simp), ih fun next member => same next (mem_cons_of_mem _ member)]

end

theorem byHeight_trans (a b c : LiveBlockHeader) (first : decide (a.height ≤ b.height) = true) (second : decide (b.height ≤ c.height) = true) :
    decide (a.height ≤ c.height) = true := by
  simp only [decide_eq_true_eq] at first second ⊢
  exact first.trans second

theorem byHeight_total (a b : LiveBlockHeader) : (decide (a.height ≤ b.height) || decide (b.height ≤ a.height)) = true := by
  simpa using Nat.le_total a.height b.height

structure Agreeing (noDb : ChaintracksNoDbData) (knex : LiveHeaderRows) (idb : LiveHeaderStore) : Prop where
  rows : knex = ⟨noDb.liveHeaders, noDb.maxHeaderId + 1⟩
  store : idb = ⟨noDb.liveHeaders, [], noDb.maxHeaderId + 1⟩
  index : ∀ hash, noDb.hashToHeaderId hash = (noDb.liveHeaders.byHash hash).map (·.headerId)
  distinct : noDb.liveHeaders.Distinct
  hashes : (noDb.liveHeaders.map (·.hash)).Nodup
  ids : ∀ row ∈ noDb.liveHeaders, row.headerId ≤ noDb.maxHeaderId
  active : ∀ row ∈ noDb.liveHeaders, row.isActive = true
  positive : ∀ row ∈ noDb.liveHeaders, 0 < row.height

/-- Equal answers to every query, for all arguments. -/
structure SameAnswers (noDb : ChaintracksNoDbData) (knex : LiveHeaderRows) (idb : LiveHeaderStore) : Prop where
  findChainTipHeaderOrUndefined : ChaintracksStorageNoDb.findChainTipHeaderOrUndefined noDb = ChaintracksStorageKnex.findChainTipHeaderOrUndefined knex ∧
    ChaintracksStorageNoDb.findChainTipHeaderOrUndefined noDb = ChaintracksStorageIdb.findChainTipHeaderOrUndefined idb
  findLiveHeaderForHeight : ∀ height, ChaintracksStorageNoDb.findLiveHeaderForHeight noDb height = ChaintracksStorageKnex.findLiveHeaderForHeight knex height ∧
    ChaintracksStorageNoDb.findLiveHeaderForHeight noDb height = ChaintracksStorageIdb.findLiveHeaderForHeight idb height
  findLiveHeaderForBlockHash : ∀ hash, ChaintracksStorageNoDb.findLiveHeaderForBlockHash noDb hash = ChaintracksStorageKnex.findLiveHeaderForBlockHash knex hash ∧
    ChaintracksStorageNoDb.findLiveHeaderForBlockHash noDb hash = ChaintracksStorageIdb.findLiveHeaderForBlockHash idb hash
  getLiveHeaders : ∀ range, ChaintracksStorageNoDb.getLiveHeaders noDb range = ChaintracksStorageKnex.getLiveHeaders knex range ∧
    ChaintracksStorageNoDb.getLiveHeaders noDb range = ChaintracksStorageIdb.getLiveHeaders idb range
  liveHeadersForBulk : ∀ count, ChaintracksStorageNoDb.liveHeadersForBulk noDb count = ChaintracksStorageKnex.liveHeadersForBulk knex count ∧
    ChaintracksStorageNoDb.liveHeadersForBulk noDb count = ChaintracksStorageIdb.liveHeadersForBulk idb count
  findLiveHeightRange : ChaintracksStorageNoDb.findLiveHeightRange noDb = ChaintracksStorageKnex.findLiveHeightRange knex ∧
    ChaintracksStorageNoDb.findLiveHeightRange noDb = ChaintracksStorageIdb.findLiveHeightRange idb
  onlyActive : (∀ height, ∀ header ∈ ChaintracksStorageIdb.findLiveHeaderForHeight idb height, header.isActive = true) ∧
    ∀ range, ∀ header ∈ ChaintracksStorageIdb.getLiveHeaders idb range, header.isActive = true

section
variable {noDb : ChaintracksNoDbData} {knex : LiveHeaderRows} {idb : LiveHeaderStore}

theorem height_mem {rows : List LiveBlockHeader} (member : row ∈ rows) : row.height ∈ rows.map (·.height) :=
  mem_map.mpr ⟨row, member, rfl⟩

theorem heights_least (row : LiveBlockHeader) (rows) :
    (∃ least ∈ row :: rows, least.height = (rows.map (·.height)).foldl min row.height) ∧ ∀ other ∈ row :: rows, (rows.map (·.height)).foldl min row.height ≤ other.height := by
  have least := min?_eq_some_iff.mp (min?_cons' : ((row :: rows).map (·.height)).min? = _)
  exact ⟨mem_map.mp least.1, fun other member => least.2 _ (height_mem member)⟩

theorem heights_greatest (row : LiveBlockHeader) (rows) :
    (∃ greatest ∈ row :: rows, greatest.height = (rows.map (·.height)).foldl max row.height) ∧ ∀ other ∈ row :: rows, other.height ≤ (rows.map (·.height)).foldl max row.height := by
  have greatest := max?_eq_some_iff.mp (max?_cons' : ((row :: rows).map (·.height)).max? = _)
  exact ⟨mem_map.mp greatest.1, fun other member => greatest.2 _ (height_mem member)⟩

theorem byHeight_ends (row : LiveBlockHeader) (rows) :
    ∃ first last, (ChaintracksStorageIdb.byHeight (row :: rows)).head? = some first ∧ (ChaintracksStorageIdb.byHeight (row :: rows)).getLast? = some last ∧
      first.height = (rows.map (·.height)).foldl min row.height ∧ last.height = (rows.map (·.height)).foldl max row.height := by
  have perm : (ChaintracksStorageIdb.byHeight (row :: rows)).Perm (row :: rows) := mergeSort_perm _ _
  have sorted : (ChaintracksStorageIdb.byHeight (row :: rows)).Pairwise fun a b => decide (a.height ≤ b.height) = true :=
    pairwise_mergeSort byHeight_trans byHeight_total _
  obtain ⟨⟨least, isStored, leastHeight⟩, below⟩ := heights_least row rows
  obtain ⟨⟨greatest, isKept, greatestHeight⟩, above⟩ := heights_greatest row rows
  cases shape : ChaintracksStorageIdb.byHeight (row :: rows) with
  | nil =>
    rw [shape] at perm
    exact absurd perm.length_eq (by simp)
  | cons first rest =>
    rw [shape] at perm sorted
    have nonempty : first :: rest ≠ [] := by simp
    refine ⟨first, (first :: rest).getLast nonempty, rfl, getLast?_eq_some_getLast nonempty, ?_, ?_⟩
    · have low := below first (perm.mem_iff.mp (by simp))
      have high : first.height ≤ least.height := by
        cases perm.mem_iff.mpr isStored with
        | head => exact le_rfl
        | tail _ member => simpa using (pairwise_cons.mp sorted).1 least member
      omega
    · have high := above _ (perm.mem_iff.mp (getLast_mem nonempty))
      have low : greatest.height ≤ ((first :: rest).getLast nonempty).height := by
        have member := perm.mem_iff.mpr isKept
        rw [← dropLast_append_getLast nonempty] at member sorted
        cases mem_append.mp member with
        | inl before => simpa using (pairwise_append.mp sorted).2.2 greatest before _ (mem_singleton_self _)
        | inr last => rw [mem_singleton.mp last]
      omega

theorem Agreeing.sameAnswers (agreeing : Agreeing noDb knex idb) : SameAnswers noDb knex idb := by
  obtain ⟨rows, store, index, distinct, hashes, ids, active, positive⟩ := agreeing
  subst rows store
  have allActive : noDb.liveHeaders.filter (·.isActive) = noDb.liveHeaders := filter_eq_self.mpr active
  refine ⟨⟨rfl, rfl⟩, fun height => ⟨rfl, ?_⟩, fun hash => ?_, fun range => ?_, fun count => ⟨rfl, ?_⟩, ?_, ?_, ?_⟩
  · exact find?_congr fun row mine => by simp [active row mine]
  · have found : ChaintracksStorageNoDb.findLiveHeaderForBlockHash noDb hash = noDb.liveHeaders.byHash hash := by
      unfold ChaintracksStorageNoDb.findLiveHeaderForBlockHash
      rw [index hash]
      cases known : noDb.liveHeaders.byHash hash with
      | none => rfl
      | some row => exact distinct.byId (byHash_some known).1
    exact ⟨found, found⟩
  · have filtered : (noDb.liveHeaders.filter fun header =>
        header.isActive && decide ((header.height : Int) ≥ range.minHeight) && decide ((header.height : Int) ≤ range.maxHeight)) =
        noDb.liveHeaders.filter fun header => range.contains header.height :=
      filter_congr fun row mine => by simp [active row mine, HeightRange.contains]
    have none : range.isEmpty = true → (noDb.liveHeaders.filter fun header => range.contains header.height) = [] := by
      intro empty
      refine filter_eq_nil_iff.mpr fun row _ => ?_
      simp only [HeightRange.isEmpty, HeightRange.contains, Bool.and_eq_true, decide_eq_true_eq] at empty ⊢
      omega
    unfold ChaintracksStorageNoDb.getLiveHeaders ChaintracksStorageKnex.getLiveHeaders ChaintracksStorageIdb.getLiveHeaders
    simp only [filtered]
    cases empty : range.isEmpty with
    | true => simp [none empty, ChaintracksStorageKnex.orderByHeight]
    | false =>
      exact ⟨rfl, (filter_mergeSort byHeight_trans byHeight_total _ _).symm⟩
  · exact congrArg (take count) (filter_mergeSort byHeight_trans byHeight_total (·.isActive) noDb.liveHeaders).symm
  · unfold ChaintracksStorageNoDb.findLiveHeightRange ChaintracksStorageKnex.findLiveHeightRange ChaintracksStorageIdb.findLiveHeightRange
      ChaintracksStorageNoDb.activeHeaders ChaintracksStorageKnex.activeRows
    simp only [allActive]
    cases table : noDb.liveHeaders with
    | nil => exact ⟨rfl, by simp [ChaintracksStorageIdb.byHeight]⟩
    | cons row rows =>
      obtain ⟨first, last, head, final, lowest, highest⟩ := byHeight_ends row rows
      simp only [map_cons, head, final, lowest, highest]
      have above := lt_of_lt_of_le (positive row (table ▸ mem_cons_self ..)) ((heights_greatest row rows).2 row (by simp))
      rw [if_neg (Nat.ne_of_gt above)]
      exact ⟨rfl, trivial⟩
  · intro height header found
    exact active header (mem_of_find?_eq_some found)
  · intro range header member
    unfold ChaintracksStorageIdb.getLiveHeaders at member
    split at member
    · exact (not_mem_nil member).elim
    · exact active header ((mergeSort_perm _ _).mem_iff.mp (mem_filter.mp member).1)

end

section
variable {options : ChaintracksStorageBaseOptions} {file : Option BulkFile} {header : BlockHeader} {rows : LiveTable}

/-- Every header the insert stores follows its parent at the next height, outweighs the
tip, and is not so high that the prune it starts would migrate headers. The last bulk file
is not empty. -/
structure InsertMeets (options : ChaintracksStorageBaseOptions) (file : Option BulkFile) (header : BlockHeader) (rows : LiveTable) : Prop where
  bulk : ∀ lbf, file = some lbf → 0 < lbf.firstHeight + lbf.count
  height : ∀ oneBack, rows.byHash header.hash = none → rows.byHash header.previousHash = some oneBack → oneBack.height + 1 = header.height
  leads : ∀ oneBack tip, rows.byHash header.hash = none → rows.byHash header.previousHash = some oneBack → rows.priorTip oneBack = some tip →
    isMoreWork (addWork oneBack.chainWork (convertBitsToWork header.bits)) tip.chainWork = true
  room : ∀ lowest ∈ header.height :: rows.map (·.height), options.migrates ⟨lowest, header.height⟩ header.height = false

structure DeleteMeets (maxHeight : Int) (rows : LiveTable) : Prop where
  followed : ∀ row ∈ rows, (row.height : Int) ≤ maxHeight → ∃ child ∈ rows, child.previousHeaderId = some row.headerId
  only : ∀ row ∈ rows, (row.height : Int) ≤ maxHeight → ∀ child ∈ rows, child.previousHeaderId = some row.headerId → maxHeight < child.height →
    rows.find? (fun other => other.previousHeaderId = some row.headerId) = some child

instance (rows : LiveTable) : Decidable (InsertMeets options file header rows) :=
  decidable_of_iff ((∀ lbf ∈ file, 0 < lbf.firstHeight + lbf.count) ∧
      (∀ oneBack ∈ rows.byHash header.previousHash, rows.byHash header.hash = none → oneBack.height + 1 = header.height) ∧
      (∀ oneBack ∈ rows.byHash header.previousHash, ∀ tip ∈ rows.priorTip oneBack, rows.byHash header.hash = none →
        isMoreWork (addWork oneBack.chainWork (convertBitsToWork header.bits)) tip.chainWork = true) ∧
      ∀ lowest ∈ header.height :: List.map (fun row : LiveBlockHeader => row.height) rows, options.migrates ⟨lowest, header.height⟩ header.height = false)
    ⟨fun all => ⟨all.1, fun oneBack unknown follows => all.2.1 oneBack follows unknown,
        fun oneBack tip unknown follows prior => all.2.2.1 oneBack follows tip prior unknown, all.2.2.2⟩,
      fun meets => ⟨meets.bulk, fun oneBack follows unknown => meets.height oneBack unknown follows,
        fun oneBack follows tip prior unknown => meets.leads oneBack tip unknown follows prior, meets.room⟩⟩

instance (maxHeight : Int) (rows : LiveTable) : Decidable (DeleteMeets maxHeight rows) :=
  decidable_of_iff ((∀ row ∈ rows, (row.height : Int) ≤ maxHeight → ∃ child ∈ rows, child.previousHeaderId = some row.headerId) ∧
      ∀ row ∈ rows, (row.height : Int) ≤ maxHeight → ∀ child ∈ rows, child.previousHeaderId = some row.headerId → maxHeight < child.height →
        rows.find? (fun other => other.previousHeaderId = some row.headerId) = some child)
    ⟨fun all => ⟨all.1, all.2⟩, fun meets => ⟨meets.followed, meets.only⟩⟩

theorem following_height (headerId : Nat) (oneBack priorTip) : (header.following headerId oneBack priorTip).height = header.height := rfl

theorem insertAfter_active (engine : LiveEngine) (priorTip) (active : oneBack.isActive = true)
    (leads : newHeader.isActive = true)
    (clears : engine.clearChainTip rows oneBack = rows.update oneBack.headerId fun row => { row with isChainTip := false }) :
    engine.insertAfter oneBack priorTip newHeader rows =
      (.ok { InsertHeaderResult.none with
          isActiveTip := true
          priorTip := some priorTip
          added := true
          reorgDepth := if oneBack.isChainTip then 0 else min (priorTip.height : Int) newHeader.height - oneBack.height },
        (if oneBack.isChainTip then rows.update oneBack.headerId fun row => { row with isChainTip := false } else rows) ++ [newHeader]) := by
  have found : engine.activeAncestor rows (walkLimit oneBack) oneBack = .ok (some oneBack) := by simp [LiveEngine.activeAncestor, walkLimit, active]
  have stay : engine.reorganize oneBack oneBack rows = (.ok [], rows) := by simp [LiveEngine.reorganize]
  unfold LiveEngine.insertAfter
  simp only [leads, ↓reduceIte, found, stay, active, Bool.true_and, clears]
  rfl

theorem Agreeing.add (agreeing : Agreeing noDb knex idb)
    (unknown : noDb.liveHeaders.byHash header.hash = none) (tipHeaderId : Nat)
    (keeps : ∀ row, (change row).headerId = row.headerId ∧ (change row).hash = row.hash ∧ (change row).isActive = row.isActive ∧ (change row).height = row.height)
    {newHeader} (id : newHeader.headerId = noDb.maxHeaderId + 1) (hash : newHeader.hash = header.hash)
    (active : newHeader.isActive = true) (positive : 0 < newHeader.height) :
    Agreeing
      { noDb with
        liveHeaders := noDb.liveHeaders.map change ++ [newHeader]
        maxHeaderId := noDb.maxHeaderId + 1
        tipHeaderId
        hashToHeaderId := Function.update noDb.hashToHeaderId header.hash (some (noDb.maxHeaderId + 1)) }
      ⟨noDb.liveHeaders.map change ++ [newHeader], noDb.maxHeaderId + 1 + 1⟩
      ⟨noDb.liveHeaders.map change ++ [newHeader], [], noDb.maxHeaderId + 1 + 1⟩ where
  rows := rfl
  store := rfl
  index := by
    intro other
    have mapped : byHash (noDb.liveHeaders.map change) other = (noDb.liveHeaders.byHash other).map change := by
      unfold byHash
      rw [find?_map]
      exact congrArg (Option.map change) (find?_congr fun row _ => by simp [(keeps row).2.1])
    have appended : byHash (noDb.liveHeaders.map change ++ [newHeader]) other =
        ((noDb.liveHeaders.byHash other).map change).or (if newHeader.hash = other then some newHeader else none) := by
      rw [← mapped]
      unfold byHash
      simp
    simp only [appended]
    by_cases same : other = header.hash
    · subst same
      simp [unknown, hash, id]
    · rw [Function.update_of_ne same, agreeing.index other]
      have apart : ¬newHeader.hash = other := fun equal => same (equal.symm.trans hash)
      cases noDb.liveHeaders.byHash other with
      | none => simp [apart]
      | some row => simp [(keeps row).1]
  distinct := by
    have ids : (noDb.liveHeaders.map change ++ [newHeader]).map (·.headerId) = noDb.liveHeaders.map (·.headerId) ++ [noDb.maxHeaderId + 1] := by
      simp [Function.comp_def, keeps, id]
    unfold LiveTable.Distinct
    rw [ids]
    refine agreeing.distinct.append (nodup_singleton _) (disjoint_singleton.mpr ?_)
    intro listed
    obtain ⟨row, mine, same⟩ := mem_map.mp listed
    have := agreeing.ids row mine
    omega
  hashes := by
    have listed : (noDb.liveHeaders.map change ++ [newHeader]).map (·.hash) = noDb.liveHeaders.map (·.hash) ++ [header.hash] := by
      simp [Function.comp_def, keeps, hash]
    rw [listed]
    refine agreeing.hashes.append (nodup_singleton _) (disjoint_singleton.mpr ?_)
    intro member
    obtain ⟨row, mine, same⟩ := mem_map.mp member
    exact byHash_none unknown mine same
  ids := by
    intro row member
    cases mem_append.mp member with
    | inl old =>
      obtain ⟨before, mine, rfl⟩ := mem_map.mp old
      have := agreeing.ids before mine
      simp only [(keeps before).1]
      omega
    | inr new =>
      rw [mem_singleton.mp new, id]
  active := by
    intro row member
    cases mem_append.mp member with
    | inl old =>
      obtain ⟨before, mine, rfl⟩ := mem_map.mp old
      rw [(keeps before).2.2.1]
      exact agreeing.active before mine
    | inr new =>
      rw [mem_singleton.mp new]
      exact active
  positive := by
    intro row member
    cases mem_append.mp member with
    | inl old =>
      obtain ⟨before, mine, rfl⟩ := mem_map.mp old
      rw [(keeps before).2.2.2]
      exact agreeing.positive before mine
    | inr new =>
      rw [mem_singleton.mp new]
      exact positive

/-- What every engine does with a header while all live headers are active: its reply, and
the new rows if the header is added. -/
def lockstep (file : Option BulkFile) (header : BlockHeader) (rows : LiveTable) (headerId : Nat) : Except ChaintracksError InsertHeaderResult × Option LiveTable :=
  let r := InsertHeaderResult.none
  if (rows.byHash header.hash).isSome then (.ok { r with dupe := true }, none)
  else
    match rows.byHash header.previousHash with
    | none =>
      if rows.length = 0 then
        match file with
        | none => (.error .bulkHeadersMustExist, none)
        | some lbf =>
          if header.extends lbf then (.ok { r with isActiveTip := true, added := true }, some (rows ++ [header.first headerId lbf]))
          else (.ok { r with noPrev := true }, none)
      else (.ok { r with noPrev := true }, none)
    | some oneBack =>
      match rows.priorTip oneBack with
      | none => (.ok { r with noTip := true }, none)
      | some priorTip =>
        (.ok { r with
            isActiveTip := true
            priorTip := some priorTip
            added := true
            reorgDepth := if oneBack.isChainTip then 0 else min (priorTip.height : Int) header.height - oneBack.height },
          some ((if oneBack.isChainTip then rows.update oneBack.headerId fun row => { row with isChainTip := false } else rows) ++
            [header.following headerId oneBack priorTip]))

theorem noDb_lockstep (index : ∀ hash, data.hashToHeaderId hash = (data.liveHeaders.byHash hash).map (·.headerId))
    (distinct : data.liveHeaders.Distinct) (active : ∀ row ∈ data.liveHeaders, row.isActive = true)
    (meets : InsertMeets options file header data.liveHeaders) :
    ChaintracksStorageNoDb.insertHeader file header data =
      ((lockstep file header data.liveHeaders (data.maxHeaderId + 1)).1,
        (lockstep file header data.liveHeaders (data.maxHeaderId + 1)).2.elim data fun rows =>
          ⟨rows, data.maxHeaderId + 1, data.maxHeaderId + 1, Function.update data.hashToHeaderId header.hash (some (data.maxHeaderId + 1))⟩) := by
  unfold ChaintracksStorageNoDb.insertHeader lockstep
  cases dupe : data.liveHeaders.byHash header.hash with
  | some row => simp [index, dupe]
  | none =>
    cases found : data.liveHeaders.byHash header.previousHash with
    | none =>
      cases size : data.liveHeaders with
      | cons row rest => simp [index, dupe]
      | nil =>
        cases file with
        | none => simp [index, dupe]
        | some lbf =>
          cases follows : header.extends lbf with
          | false => simp [index, dupe, follows]
          | true => simp [index, dupe, follows]
    | some oneBack =>
      have mine := (byHash_some found).1
      cases prior : data.liveHeaders.priorTip oneBack with
      | none => simp [index, dupe, prior, meets.height oneBack dupe found]
      | some priorTip =>
        have leads : (header.following (data.maxHeaderId + 1) oneBack priorTip).isActive = true := meets.leads oneBack priorTip dupe found prior
        have step := insertAfter_active ChaintracksStorageNoDb.engine priorTip (active oneBack mine) leads
          (distinct.put mine (fun row => { row with isChainTip := false }) rfl)
        simp [index, dupe, prior, meets.height oneBack dupe found, step, InsertHeaderResult.none, following_height]

theorem knex_lockstep (active : ∀ row ∈ rows, row.isActive = true) (meets : InsertMeets options file header rows) :
    ChaintracksStorageKnex.insertHeader file header ⟨rows, headerId⟩ =
      ((lockstep file header rows headerId).1, (lockstep file header rows headerId).2.elim ⟨rows, headerId⟩ fun rows => ⟨rows, headerId + 1⟩) := by
  have counted : (rows.filter fun row => row.hash = header.hash).length = 0 ↔ rows.byHash header.hash = none := by
    rw [length_eq_zero_iff, filter_eq_nil_iff]
    exact find?_eq_none.symm
  unfold ChaintracksStorageKnex.insertHeader lockstep
  simp only [ne_eq, counted]
  cases dupe : rows.byHash header.hash with
  | some row => simp
  | none =>
    cases found : rows.byHash header.previousHash with
    | none =>
      cases size : rows with
      | cons row rest => simp
      | nil =>
        cases file with
        | none => simp
        | some lbf =>
          cases follows : header.extends lbf with
          | false => simp [follows]
          | true => simp [follows]
    | some oneBack =>
      have mine := (byHash_some found).1
      cases prior : rows.priorTip oneBack with
      | none => simp [prior, meets.height oneBack dupe found]
      | some priorTip =>
        have leads : (header.following headerId oneBack priorTip).isActive = true := meets.leads oneBack priorTip dupe found prior
        have clears : ChaintracksStorageKnex.engine.clearChainTip rows oneBack = rows.update oneBack.headerId fun row => { row with isChainTip := false } := rfl
        have step := insertAfter_active ChaintracksStorageKnex.engine priorTip (active oneBack mine) leads clears
        simp [prior, meets.height oneBack dupe found, step, InsertHeaderResult.none, following_height]

theorem idb_lockstep (distinct : rows.Distinct) (active : ∀ row ∈ rows, row.isActive = true) (meets : InsertMeets options file header rows) :
    ChaintracksStorageIdb.insertHeader file header ⟨rows, [], headerId⟩ =
      ((lockstep file header rows headerId).1, (lockstep file header rows headerId).2.elim ⟨rows, [], headerId⟩ fun rows => ⟨rows, [], headerId + 1⟩) := by
  unfold ChaintracksStorageIdb.insertHeader lockstep
  cases dupe : rows.byHash header.hash with
  | some row => simp
  | none =>
    cases found : rows.byHash header.previousHash with
    | none =>
      cases size : rows with
      | cons row rest => simp
      | nil =>
        cases file with
        | none => simp
        | some lbf =>
          cases follows : header.extends lbf with
          | false => simp [follows]
          | true => simp [follows]
    | some oneBack =>
      have mine := (byHash_some found).1
      cases prior : rows.priorTip oneBack with
      | none => simp [prior]
      | some priorTip =>
        have leads : (header.following headerId oneBack priorTip).isActive = true := meets.leads oneBack priorTip dupe found prior
        have step := insertAfter_active ChaintracksStorageIdb.engine priorTip (active oneBack mine) leads
          (distinct.put mine (fun row => { row with isChainTip := false }) rfl)
        simp [prior, step, InsertHeaderResult.none, following_height]

theorem lockstep_refused (refuses : (lockstep file header rows headerId).2 = none)
    (ok : (lockstep file header rows headerId).1 = .ok result) : result.added = false := by
  unfold lockstep at refuses ok
  cases dupe : (rows.byHash header.hash).isSome with
  | true =>
    simp only [dupe, ↓reduceIte, Except.ok.injEq] at ok
    rw [← ok]
    rfl
  | false =>
    simp only [dupe, Bool.false_eq_true, ↓reduceIte] at refuses ok
    cases found : rows.byHash header.previousHash with
    | none =>
      simp only [found] at refuses ok
      by_cases size : rows.length = 0
      · simp only [size, ↓reduceIte] at refuses ok
        cases file with
        | none => contradiction
        | some lbf =>
          cases follows : header.extends lbf with
          | false =>
            simp only [follows, Bool.false_eq_true, ↓reduceIte, Except.ok.injEq] at ok
            rw [← ok]
            rfl
          | true => simp [follows] at refuses
      · simp only [size, ↓reduceIte, Except.ok.injEq] at ok
        rw [← ok]
        rfl
    | some oneBack =>
      simp only [found] at refuses ok
      cases prior : rows.priorTip oneBack with
      | none =>
        simp only [prior, Except.ok.injEq] at ok
        rw [← ok]
        rfl
      | some priorTip => simp [prior] at refuses

theorem lockstep_added (meets : InsertMeets options file header rows)
    (adds : (lockstep file header rows headerId).2 = some added) :
    rows.byHash header.hash = none ∧ ∃ (change : LiveBlockHeader → LiveBlockHeader) (newHeader : LiveBlockHeader), added = rows.map change ++ [newHeader] ∧
      (∀ row, (change row).headerId = row.headerId ∧ (change row).hash = row.hash ∧ (change row).isActive = row.isActive ∧ (change row).height = row.height) ∧
      newHeader.headerId = headerId ∧ newHeader.hash = header.hash ∧ newHeader.height = header.height ∧ newHeader.isActive = true ∧ 0 < newHeader.height := by
  unfold lockstep at adds
  cases dupe : rows.byHash header.hash with
  | some row => simp [dupe] at adds
  | none =>
    refine ⟨rfl, ?_⟩
    cases found : rows.byHash header.previousHash with
    | none =>
      simp only [dupe, found, Option.isSome_none, Bool.false_eq_true, ↓reduceIte] at adds
      cases size : rows with
      | cons row rest => simp [size] at adds
      | nil =>
        cases bulk : file with
        | none => simp [size, bulk] at adds
        | some lbf =>
          cases follows : header.extends lbf with
          | false => simp [size, bulk, follows] at adds
          | true =>
            have both : header.previousHash = lbf.lastHash ∧ header.height = lbf.firstHeight + lbf.count := by simpa [BlockHeader.extends] using follows
            have height := meets.bulk lbf bulk
            refine ⟨id, header.first headerId lbf, ?_, fun _ => ⟨rfl, rfl, rfl, rfl⟩, rfl, rfl, rfl, rfl, ?_⟩
            · simp only [size, bulk, follows, length_nil, ↓reduceIte, Option.some.injEq] at adds
              simp [← adds]
            · exact both.2 ▸ height
    | some oneBack =>
      cases prior : rows.priorTip oneBack with
      | none => simp [dupe, found, prior] at adds
      | some priorTip =>
        have height := meets.height oneBack dupe found
        refine ⟨fun row => if oneBack.isChainTip = true ∧ row.headerId = oneBack.headerId then { row with isChainTip := false } else row,
          header.following headerId oneBack priorTip, ?_, ?_, rfl, rfl, rfl, meets.leads oneBack priorTip dupe found prior, ?_⟩
        · have rowsAre : added = (if oneBack.isChainTip then rows.update oneBack.headerId fun row => { row with isChainTip := false } else rows) ++
              [header.following headerId oneBack priorTip] := by
            simp only [dupe, found, prior, Option.isSome_none, Bool.false_eq_true, ↓reduceIte, Option.some.injEq] at adds
            exact adds.symm
          rw [rowsAre]
          cases oneBack.isChainTip with
          | false => simp
          | true => simp [update]
        · intro row
          by_cases clears : oneBack.isChainTip = true ∧ row.headerId = oneBack.headerId
          · simp [clears]
          · simp [clears]
        · have above : 0 < header.height := by omega
          exact above

theorem Agreeing.insert {noDb knex idb} (agreeing : Agreeing noDb knex idb)
    (meets : InsertMeets options file header noDb.liveHeaders) :
    ((ChaintracksStorageNoDb.insertHeader file header noDb).1 = (ChaintracksStorageKnex.insertHeader file header knex).1 ∧
      (ChaintracksStorageNoDb.insertHeader file header noDb).1 = (ChaintracksStorageIdb.insertHeader file header idb).1) ∧
    Agreeing (ChaintracksStorageNoDb.insertHeader file header noDb).2 (ChaintracksStorageKnex.insertHeader file header knex).2
      (ChaintracksStorageIdb.insertHeader file header idb).2 := by
  have keep := agreeing
  obtain ⟨rows, store, index, distinct, _, _, active, positive⟩ := agreeing
  subst rows store
  rw [noDb_lockstep index distinct active meets, knex_lockstep active meets, idb_lockstep distinct active meets]
  refine ⟨⟨rfl, rfl⟩, ?_⟩
  cases adds : (lockstep file header noDb.liveHeaders (noDb.maxHeaderId + 1)).2 with
  | none => exact keep
  | some added =>
    obtain ⟨unknown, change, newHeader, rfl, keeps, id, hash, _, leads, above⟩ := lockstep_added meets adds
    exact keep.add unknown _ keeps id hash leads above

def LiveTable.follower (rows : LiveTable) (id : Nat) : Option LiveBlockHeader := rows.find? fun header => header.previousHeaderId = some id

def clearFollowers (rows : LiveTable) (ids : List Nat) (row : LiveBlockHeader) : LiveBlockHeader :=
  if ∃ id ∈ ids, rows.follower id = some row then { row with previousHeaderId := none } else row

theorem follower_some {id row} (found : rows.follower id = some row) : row ∈ rows ∧ row.previousHeaderId = some id := by
  have this := find?_some found
  exact ⟨mem_of_find?_eq_some found, by simpa using this⟩

theorem clearFollowers_headerId (ids) (row) : (clearFollowers rows ids row).headerId = row.headerId := by
  unfold clearFollowers
  split <;> rfl

theorem follower_cleared (ids) {id : Nat} (other : id ∉ ids) :
    LiveTable.follower (rows.map (clearFollowers rows ids)) id = rows.follower id := by
  have same : ∀ row, (clearFollowers rows ids row).previousHeaderId = some id ↔ row.previousHeaderId = some id := by
    intro row
    unfold clearFollowers
    split
    next cleared =>
      obtain ⟨one, member, found⟩ := cleared
      have link := (follower_some found).2
      have apart : one ≠ id := fun equal => other (equal ▸ member)
      simp [link, apart]
    next => rfl
  have searched : rows.find? ((fun row => decide (row.previousHeaderId = some id)) ∘ clearFollowers rows ids) =
      rows.find? fun row => decide (row.previousHeaderId = some id) := find?_congr fun row _ => by simp [same row]
  unfold LiveTable.follower
  rw [find?_map, searched]
  cases found : rows.find? fun row => row.previousHeaderId = some id with
  | none => rfl
  | some row =>
    have link : row.previousHeaderId = some id := (follower_some found).2
    have kept : clearFollowers rows ids row = row := by
      unfold clearFollowers
      rw [if_neg]
      intro ⟨one, member, its⟩
      have equal := (follower_some its).2.symm.trans link
      exact other (Option.some.inj equal ▸ member)
    rw [Option.map_some, kept]

theorem unlinkFollowing_all (distinct : rows.Distinct) (headerId : Nat) (ids) :
    ∀ done : List Nat, (done ++ ids).Nodup → (∀ id ∈ ids, (rows.follower id).isSome = true) →
      ids.foldl ChaintracksStorageIdb.unlinkFollowing ⟨rows.map (clearFollowers rows done), [], headerId⟩ =
        ⟨rows.map (clearFollowers rows (done ++ ids)), [], headerId⟩ := by
  induction ids with
  | nil =>
    intro done _ _
    simp
  | cons id ids ih =>
    intro done nodup followed
    have fresh : id ∉ done := fun member => (nodup_append.mp nodup).2.2 id member id (by simp) rfl
    obtain ⟨child, found⟩ := Option.isSome_iff_exists.mp (followed id (by simp))
    have cleared : LiveTable.follower (rows.map (clearFollowers rows done)) id = some child := (follower_cleared done fresh).trans found
    have kept : LiveTable.Distinct (rows.map (clearFollowers rows done)) := distinct.map (clearFollowers_headerId done)
    have mine : child ∈ rows.map (clearFollowers rows done) := (follower_some cleared).1
    have step : ChaintracksStorageIdb.unlinkFollowing ⟨rows.map (clearFollowers rows done), [], headerId⟩ id =
        ⟨rows.map (clearFollowers rows (done ++ [id])), [], headerId⟩ := by
      have put := kept.put mine (fun row => { row with previousHeaderId := none }) rfl
      have search : ((rows.map (clearFollowers rows done)).find? fun header => header.previousHeaderId = some id) = some child := cleared
      unfold ChaintracksStorageIdb.unlinkFollowing
      simp only [search, put, LiveHeaderStore.mk.injEq, and_true, update, map_map]
      refine map_congr_left fun row its => ?_
      simp only [Function.comp_apply, clearFollowers_headerId]
      by_cases same : row.headerId = child.headerId
      · obtain rfl := distinct.eq its (follower_some found).1 same
        have now : ∃ one ∈ done ++ [id], rows.follower one = some row := ⟨id, by simp, found⟩
        rw [if_pos rfl]
        unfold clearFollowers
        split <;> rfl
      · have apart : ¬rows.follower id = some row := by
          rw [found]
          intro equal
          exact same (congrArg (·.headerId) (Option.some.inj equal).symm)
        rw [if_neg same]
        refine if_congr ?_ rfl rfl
        simp [or_and_right, exists_or, apart]
    rw [foldl_cons, step, ih (done ++ [id]) (by simpa using nodup) fun other member => followed other (mem_cons_of_mem _ member)]
    simp

theorem unlinks_alike (distinct : rows.Distinct) (meets : DeleteMeets maxHeight rows) (mine : row ∈ rows)
    (stays : maxHeight < row.height) (deleted : ∀ id, id ∈ ids ↔ ∃ parent ∈ rows, parent.headerId = id ∧ (parent.height : Int) ≤ maxHeight) :
    ChaintracksStorageNoDb.clearPrevious maxHeight rows row = ChaintracksStorageKnex.clearPrevious ids row ∧
    ChaintracksStorageKnex.clearPrevious ids row = clearFollowers rows ids row := by
  unfold ChaintracksStorageNoDb.clearPrevious ChaintracksStorageKnex.clearPrevious
  constructor
  · cases previous : row.previousHeaderId with
    | none => rfl
    | some id =>
      cases found : rows.byId id with
      | none =>
        have unlisted : id ∉ ids := by
          intro member
          obtain ⟨parent, its, same, _⟩ := (deleted id).mp member
          have known := distinct.byId its
          rw [same, found] at known
          contradiction
        simp [found, unlisted]
      | some parent =>
        obtain ⟨its, same⟩ := LiveTable.byId_some found
        have listed : id ∈ ids ↔ (parent.height : Int) ≤ maxHeight := by
          rw [deleted]
          constructor
          · intro ⟨other, member, equal, low⟩
            rw [distinct.eq member its (equal.trans same.symm)] at low
            exact low
          · exact fun low => ⟨parent, its, same, low⟩
        by_cases low : (parent.height : Int) ≤ maxHeight
        · simp [found, low, listed.mpr low]
        · simp [found, low, mt listed.mp low]
  · unfold clearFollowers
    refine if_congr ?_ rfl rfl
    rw [Option.any_eq_true]
    constructor
    · intro ⟨id, link, member⟩
      have inIds : id ∈ ids := by simpa using member
      obtain ⟨parent, its, same, low⟩ := (deleted id).mp inIds
      refine ⟨id, inIds, ?_⟩
      rw [← same] at link ⊢
      exact meets.only parent its low row mine link stays
    · intro ⟨id, member, found⟩
      exact ⟨id, (follower_some found).2, by simpa using member⟩

theorem filter_changed (keeps : ∀ row, test (change row) = test row) :
    (rows.map change).filter test = (rows.filter test).map change := by
  rw [filter_map]
  exact congrArg (map change) (filter_congr fun row _ => keeps row)

theorem clearFollowers_keeps (ids) (row) :
    (clearFollowers rows ids row).headerId = row.headerId ∧ (clearFollowers rows ids row).hash = row.hash ∧
      (clearFollowers rows ids row).isActive = row.isActive ∧ (clearFollowers rows ids row).height = row.height := by
  unfold clearFollowers
  split <;> exact ⟨rfl, rfl, rfl, rfl⟩

theorem noDb_clearPrevious_height (maxHeight : Int) (row) :
    (ChaintracksStorageNoDb.clearPrevious maxHeight rows row).height = row.height := by
  unfold ChaintracksStorageNoDb.clearPrevious
  split
  · split <;> rfl
  · rfl

theorem noDb_clearPrevious_hash (maxHeight : Int) (row) :
    (ChaintracksStorageNoDb.clearPrevious maxHeight rows row).hash = row.hash := by
  unfold ChaintracksStorageNoDb.clearPrevious
  split
  · split <;> rfl
  · rfl

theorem knex_clearPrevious_height (ids) (row) : (ChaintracksStorageKnex.clearPrevious ids row).height = row.height := by
  unfold ChaintracksStorageKnex.clearPrevious
  split <;> rfl

theorem Agreeing.keep (agreeing : Agreeing noDb knex idb) (maxHeight : Int) (tipHeaderId : Nat)
    (keeps : ∀ row, (change row).headerId = row.headerId ∧ (change row).hash = row.hash ∧ (change row).isActive = row.isActive ∧ (change row).height = row.height)
    {hashToHeaderId} (index : ∀ hash, hashToHeaderId hash =
      if ∃ row ∈ noDb.liveHeaders, (row.height : Int) ≤ maxHeight ∧ row.hash = hash then none else noDb.hashToHeaderId hash) :
    Agreeing ⟨(noDb.liveHeaders.filter fun row => ¬(row.height : Int) ≤ maxHeight).map change, noDb.maxHeaderId, tipHeaderId, hashToHeaderId⟩
      ⟨(noDb.liveHeaders.filter fun row => ¬(row.height : Int) ≤ maxHeight).map change, noDb.maxHeaderId + 1⟩
      ⟨(noDb.liveHeaders.filter fun row => ¬(row.height : Int) ≤ maxHeight).map change, [], noDb.maxHeaderId + 1⟩ := by
  have mapped : ∀ row ∈ (noDb.liveHeaders.filter fun row => ¬(row.height : Int) ≤ maxHeight).map change,
      ∃ before ∈ noDb.liveHeaders, maxHeight < before.height ∧ change before = row := by
    intro row member
    obtain ⟨before, stays, same⟩ := mem_map.mp member
    obtain ⟨mine, high⟩ := mem_filter.mp stays
    exact ⟨before, mine, by simpa using high, same⟩
  refine ⟨rfl, rfl, ?_, ?_, ?_, ?_, ?_, ?_⟩
  · intro hash
    simp only [index hash]
    have searched : byHash ((noDb.liveHeaders.filter fun row => ¬(row.height : Int) ≤ maxHeight).map change) hash =
        (byHash (noDb.liveHeaders.filter fun row => ¬(row.height : Int) ≤ maxHeight) hash).map change := by
      unfold byHash
      rw [find?_map]
      exact congrArg (Option.map change) (find?_congr fun row _ => by simp [(keeps row).2.1])
    rw [searched]
    cases known : noDb.liveHeaders.byHash hash with
    | none =>
      have absent : byHash (noDb.liveHeaders.filter fun row => ¬(row.height : Int) ≤ maxHeight) hash = none :=
        find?_eq_none.mpr fun row member => by simpa using byHash_none known (mem_filter.mp member).1
      rw [absent, agreeing.index hash, known]
      simp
    | some row =>
      obtain ⟨mine, its⟩ := byHash_some known
      have only : ∀ other ∈ noDb.liveHeaders, other.hash = hash → other = row :=
        fun other member same => inj_on_of_nodup_map agreeing.hashes member mine (same.trans its.symm)
      by_cases low : (row.height : Int) ≤ maxHeight
      · have gone : byHash (noDb.liveHeaders.filter fun row => ¬(row.height : Int) ≤ maxHeight) hash = none := by
          refine find?_eq_none.mpr fun other member found => ?_
          obtain ⟨stored, high⟩ := mem_filter.mp member
          rw [only other stored (by simpa using found)] at high
          simp [low] at high
        rw [if_pos ⟨row, mine, low, its⟩, gone]
        rfl
      · have stays : byHash (noDb.liveHeaders.filter fun row => ¬(row.height : Int) ≤ maxHeight) hash = some row := by
          apply LiveTable.find_only (mem_filter.mpr ⟨mine, by simpa using low⟩)
          · simpa using its
          · exact fun other member found => only other (mem_filter.mp member).1 (by simpa using found)
        rw [if_neg fun ⟨other, stored, below, same⟩ => low (only other stored same ▸ below), stays, agreeing.index hash, known]
        simp [keeps]
  · have ids : ((noDb.liveHeaders.filter fun row => ¬(row.height : Int) ≤ maxHeight).map change).map (·.headerId) =
        (noDb.liveHeaders.filter fun row => ¬(row.height : Int) ≤ maxHeight).map (·.headerId) := by simp [Function.comp_def, keeps]
    unfold LiveTable.Distinct
    rw [ids]
    exact agreeing.distinct.sublist (filter_sublist.map _)
  · have hashes : ((noDb.liveHeaders.filter fun row => ¬(row.height : Int) ≤ maxHeight).map change).map (·.hash) =
        (noDb.liveHeaders.filter fun row => ¬(row.height : Int) ≤ maxHeight).map (·.hash) := by simp [Function.comp_def, keeps]
    rw [hashes]
    exact agreeing.hashes.sublist (filter_sublist.map _)
  · intro row member
    obtain ⟨before, mine, _, rfl⟩ := mapped row member
    rw [(keeps before).1]
    exact agreeing.ids before mine
  · intro row member
    obtain ⟨before, mine, _, rfl⟩ := mapped row member
    rw [(keeps before).2.2.1]
    exact agreeing.active before mine
  · intro row member
    obtain ⟨before, mine, _, rfl⟩ := mapped row member
    rw [(keeps before).2.2.2]
    exact agreeing.positive before mine

theorem Agreeing.delete (agreeing : Agreeing noDb knex idb) (meets : DeleteMeets maxHeight noDb.liveHeaders) :
    ((ChaintracksStorageNoDb.deleteOlderLiveBlockHeaders maxHeight noDb).1 = (ChaintracksStorageKnex.deleteOlderLiveBlockHeaders maxHeight knex).1 ∧
      (ChaintracksStorageNoDb.deleteOlderLiveBlockHeaders maxHeight noDb).1 = (ChaintracksStorageIdb.deleteOlderLiveBlockHeaders maxHeight idb).1) ∧
    Agreeing (ChaintracksStorageNoDb.deleteOlderLiveBlockHeaders maxHeight noDb).2 (ChaintracksStorageKnex.deleteOlderLiveBlockHeaders maxHeight knex).2
      (ChaintracksStorageIdb.deleteOlderLiveBlockHeaders maxHeight idb).2 := by
  have keep := agreeing
  obtain ⟨sameRows, sameStore, _, distinct, _, _, _, _⟩ := agreeing
  subst sameRows sameStore
  set rows := noDb.liveHeaders with table
  set ids := (ChaintracksStorageIdb.byHeight (rows.filter fun row => (row.height : Int) ≤ maxHeight)).map (·.headerId) with listed
  have sorted : (ChaintracksStorageIdb.byHeight (rows.filter fun row => (row.height : Int) ≤ maxHeight)).Perm
      (rows.filter fun row => (row.height : Int) ≤ maxHeight) := mergeSort_perm _ _
  have deleted : ∀ id, id ∈ ids ↔ ∃ parent ∈ rows, parent.headerId = id ∧ (parent.height : Int) ≤ maxHeight := by
    intro id
    rw [listed, (sorted.map _).mem_iff]
    simp only [mem_map, mem_filter, decide_eq_true_eq]
    exact ⟨fun ⟨row, ⟨mine, low⟩, same⟩ => ⟨row, mine, same, low⟩, fun ⟨row, mine, same, low⟩ => ⟨row, ⟨mine, low⟩, same⟩⟩
  have knexDeleted : ∀ id, id ∈ (rows.filter fun row => (row.height : Int) ≤ maxHeight).map (·.headerId) ↔
      ∃ parent ∈ rows, parent.headerId = id ∧ (parent.height : Int) ≤ maxHeight := by
    intro id
    rw [← deleted, listed, (sorted.map _).mem_iff]
  have alike := fun (row : LiveBlockHeader) (member : row ∈ rows.filter fun row => ¬(row.height : Int) ≤ maxHeight) =>
    unlinks_alike distinct meets (mem_filter.mp member).1 (by simpa using (mem_filter.mp member).2) deleted
  have noDbRows : (rows.map (ChaintracksStorageNoDb.clearPrevious maxHeight rows)).filter (fun row => ¬(row.height : Int) ≤ maxHeight) =
      (rows.filter fun row => ¬(row.height : Int) ≤ maxHeight).map (clearFollowers rows ids) := by
    rw [filter_changed fun row => by rw [noDb_clearPrevious_height]]
    exact map_congr_left fun row member => (alike row member).1.trans (alike row member).2
  have knexRows : (rows.map (ChaintracksStorageKnex.clearPrevious ((rows.filter fun row => (row.height : Int) ≤ maxHeight).map (·.headerId)))).filter
        (fun row => ¬(row.height : Int) ≤ maxHeight) =
      (rows.filter fun row => ¬(row.height : Int) ≤ maxHeight).map (clearFollowers rows ids) := by
    rw [filter_changed fun row => by rw [knex_clearPrevious_height]]
    refine map_congr_left fun row member => ?_
    have other := unlinks_alike distinct meets (mem_filter.mp member).1 (by simpa using (mem_filter.mp member).2) knexDeleted
    exact other.1.symm.trans ((alike row member).1.trans (alike row member).2)
  have nodup : ids.Nodup := (sorted.map _).nodup_iff.mpr (distinct.sublist (filter_sublist.map _))
  have followed : ∀ id ∈ ids, (rows.follower id).isSome = true := by
    intro id member
    obtain ⟨parent, its, same, low⟩ := (deleted id).mp member
    obtain ⟨child, mine, link⟩ := meets.followed parent its low
    exact find?_isSome.mpr ⟨child, mine, by simp [link, same]⟩
  have unlinked := unlinkFollowing_all distinct (noDb.maxHeaderId + 1) ids [] nodup followed
  have asBefore : rows.map (clearFollowers rows []) = rows :=
    (map_congr_left fun row _ => if_neg fun ⟨_, member, _⟩ => not_mem_nil member).trans (map_id _)
  rw [asBefore, nil_append] at unlinked
  have idbRows : (rows.map (clearFollowers rows ids)).filter (fun header => header.headerId ∉ ids) =
      (rows.filter fun row => ¬(row.height : Int) ≤ maxHeight).map (clearFollowers rows ids) := by
    rw [filter_changed fun row => by rw [clearFollowers_headerId]]
    refine congrArg (map _) (filter_congr fun row mine => ?_)
    have low : row.headerId ∈ ids ↔ (row.height : Int) ≤ maxHeight := by
      rw [deleted]
      exact ⟨fun ⟨other, its, same, low⟩ => distinct.eq its mine same ▸ low, fun low => ⟨row, mine, rfl, low⟩⟩
    simp only [low]
  unfold ChaintracksStorageNoDb.deleteOlderLiveBlockHeaders ChaintracksStorageKnex.deleteOlderLiveBlockHeaders ChaintracksStorageIdb.deleteOlderLiveBlockHeaders
  simp only [← table, ← listed, unlinked, noDbRows, knexRows, idbRows]
  refine ⟨⟨?_, ?_⟩, keep.keep maxHeight _ (clearFollowers_keeps ids) fun hash => ?_⟩
  · rw [filter_changed fun row => by rw [noDb_clearPrevious_height], filter_changed fun row => by rw [knex_clearPrevious_height],
      length_map, length_map]
  · rw [filter_changed fun row => by rw [noDb_clearPrevious_height], length_map, sorted.length_eq]
  · refine if_congr ?_ rfl rfl
    rw [filter_changed fun row => by rw [noDb_clearPrevious_height], any_eq_true]
    constructor
    · intro ⟨row, member, same⟩
      obtain ⟨before, gone, rfl⟩ := mem_map.mp member
      obtain ⟨mine, low⟩ := mem_filter.mp gone
      rw [noDb_clearPrevious_hash] at same
      exact ⟨before, mine, by simpa using low, by simpa using same⟩
    · intro ⟨row, mine, low, same⟩
      refine ⟨_, mem_map.mpr ⟨row, mem_filter.mpr ⟨mine, by simpa using low⟩, rfl⟩, ?_⟩
      rw [noDb_clearPrevious_hash]
      simpa using same

end

/-- The same calls to the three engines, from their start. -/
inductive EnginesReach (options : ChaintracksStorageBaseOptions) : ChaintracksNoDbData → LiveHeaderRows → LiveHeaderStore → Prop
  | start : EnginesReach options ChaintracksStorageNoDb.empty ChaintracksStorageKnex.empty ChaintracksStorageIdb.empty
  | insert {noDb knex idb file header} : EnginesReach options noDb knex idb → InsertMeets options file header noDb.liveHeaders →
      EnginesReach options (ChaintracksStorageNoDb.insertHeader file header noDb).2 (ChaintracksStorageKnex.insertHeader file header knex).2
        (ChaintracksStorageIdb.insertHeader file header idb).2
  | delete {noDb knex idb} {maxHeight : Int} : EnginesReach options noDb knex idb → DeleteMeets maxHeight noDb.liveHeaders →
      EnginesReach options (ChaintracksStorageNoDb.deleteOlderLiveBlockHeaders maxHeight noDb).2
        (ChaintracksStorageKnex.deleteOlderLiveBlockHeaders maxHeight knex).2 (ChaintracksStorageIdb.deleteOlderLiveBlockHeaders maxHeight idb).2

section
variable {options : ChaintracksStorageBaseOptions} {noDb : ChaintracksNoDbData} {knex : LiveHeaderRows} {idb : LiveHeaderStore}

theorem engines_agreeing (reach : EnginesReach options noDb knex idb) : Agreeing noDb knex idb := by
  induction reach with
  | start =>
    refine ⟨rfl, rfl, fun _ => rfl, nodup_nil, nodup_nil, ?_, ?_, ?_⟩
    · exact fun _ member => (not_mem_nil member).elim
    · exact fun _ member => (not_mem_nil member).elim
    · exact fun _ member => (not_mem_nil member).elim
  | insert _ meets ih => exact (ih.insert meets).2
  | delete _ meets ih => exact (ih.delete meets).2

theorem range_lowest (active : ∀ row ∈ data.liveHeaders, row.isActive = true) (some : data.liveHeaders ≠ []) :
    ∃ lowest ∈ data.liveHeaders, (ChaintracksStorageNoDb.findLiveHeightRange data).minHeight = lowest.height := by
  have allActive := filter_eq_self.mpr active
  unfold ChaintracksStorageNoDb.findLiveHeightRange ChaintracksStorageNoDb.activeHeaders
  rw [allActive]
  cases rows : data.liveHeaders with
  | nil => exact absurd rows some
  | cons row rest =>
    obtain ⟨⟨lowest, mine, same⟩, _⟩ := heights_least row rest
    exact ⟨lowest, mine, congrArg Nat.cast same.symm⟩

theorem migrates_congr (same : live.minHeight = other.minHeight) :
    options.migrates live activeTipHeight = options.migrates other activeTipHeight := by
  unfold ChaintracksStorageBaseOptions.migrates
  simp only [same]

theorem insert_prunes_nothing (agreeing : Agreeing noDb knex idb)
    (meets : InsertMeets options file header noDb.liveHeaders) {result}
    (ok : (ChaintracksStorageNoDb.insertHeader file header noDb).1 = .ok result) (added : result.added = true) :
    options.migrates (ChaintracksStorageNoDb.findLiveHeightRange (ChaintracksStorageNoDb.insertHeader file header noDb).2) header.height = false := by
  have after := (agreeing.insert meets).2
  rw [noDb_lockstep agreeing.index agreeing.distinct agreeing.active meets] at ok after ⊢
  cases adds : (lockstep file header noDb.liveHeaders (noDb.maxHeaderId + 1)).2 with
  | none => rw [lockstep_refused adds ok] at added; contradiction
  | some rows =>
    rw [adds] at after
    obtain ⟨_, change, newHeader, rfl, keeps, _, _, height, _⟩ := lockstep_added meets adds
    obtain ⟨lowest, member, same⟩ := range_lowest after.active (by simp)
    have listed : lowest.height ∈ header.height :: noDb.liveHeaders.map (·.height) := by
      cases mem_append.mp member with
      | inl old =>
        obtain ⟨before, mine, equal⟩ := mem_map.mp old
        rw [← equal, (keeps before).2.2.2]
        exact mem_cons_of_mem _ (height_mem mine)
      | inr new =>
        rw [mem_singleton.mp new, height]
        exact mem_cons_self ..
    exact (migrates_congr same).trans (meets.room lowest.height listed)

/-- In every run whose calls meet the conditions the three engines answer every query
alike, and the next call that meets them gives the same result and starts no migration. -/
theorem engines_agree (reach : EnginesReach options noDb knex idb) :
    SameAnswers noDb knex idb ∧
    (∀ file header, InsertMeets options file header noDb.liveHeaders →
      (ChaintracksStorageNoDb.insertHeader file header noDb).1 = (ChaintracksStorageKnex.insertHeader file header knex).1 ∧
      (ChaintracksStorageNoDb.insertHeader file header noDb).1 = (ChaintracksStorageIdb.insertHeader file header idb).1 ∧
      ∀ result, (ChaintracksStorageNoDb.insertHeader file header noDb).1 = .ok result → result.added = true →
        options.migrates (ChaintracksStorageNoDb.findLiveHeightRange (ChaintracksStorageNoDb.insertHeader file header noDb).2) header.height = false) ∧
    (∀ maxHeight, DeleteMeets maxHeight noDb.liveHeaders →
      (ChaintracksStorageNoDb.deleteOlderLiveBlockHeaders maxHeight noDb).1 = (ChaintracksStorageKnex.deleteOlderLiveBlockHeaders maxHeight knex).1 ∧
      (ChaintracksStorageNoDb.deleteOlderLiveBlockHeaders maxHeight noDb).1 = (ChaintracksStorageIdb.deleteOlderLiveBlockHeaders maxHeight idb).1) := by
  have agreeing := engines_agreeing reach
  refine ⟨agreeing.sameAnswers, fun file header meets => ?_, fun maxHeight meets => (agreeing.delete meets).1⟩
  have same := (agreeing.insert meets).1
  exact ⟨same.1, same.2, fun result ok added => insert_prunes_nothing agreeing meets ok added⟩

end

def agreementFile : BulkFile := ⟨0, 1, "0", 2⟩

def agreementHeader (previousHash hash : String) (height : Nat) : BlockHeader := ⟨⟨1, previousHash, hash, 0, 0x207fffff, 0⟩, height, hash⟩

/-- Two headers of the same work follow the first one, and a header follows the second of
them. -/
def forking : List BlockHeader := [agreementHeader "0" "1" 1, agreementHeader "1" "2" 2, agreementHeader "1" "2a" 2, agreementHeader "2a" "3a" 3]

/-- After a reorganization the IndexedDB engine gives the deactivated header for its
height, and before it the other two refuse by its height what it adds. -/
theorem engines_differ :
    (ChaintracksStorageNoDb.findLiveHeaderForHeight (chaintracksStorageNoDb.inserted agreementFile forking) 2).map (fun header => (header.hash, header.isActive)) = some ("2a", true) ∧
    (ChaintracksStorageKnex.findLiveHeaderForHeight (chaintracksStorageKnex.inserted agreementFile forking) 2).map (fun header => (header.hash, header.isActive)) = some ("2a", true) ∧
    (ChaintracksStorageIdb.findLiveHeaderForHeight (chaintracksStorageIdb.inserted agreementFile forking) 2).map (fun header => (header.hash, header.isActive)) = some ("2", false) := by
  refine ⟨?_, ?_, ?_⟩
  · decide +kernel
  · decide +kernel
  · decide +kernel

/-- Three headers in a row, the first of which is deleted. -/
theorem engines_agree_in_a_row :
    SameAnswers
      (ChaintracksStorageNoDb.deleteOlderLiveBlockHeaders 1 (chaintracksStorageNoDb.inserted agreementFile (forking.take 2))).2
      (ChaintracksStorageKnex.deleteOlderLiveBlockHeaders 1 (chaintracksStorageKnex.inserted agreementFile (forking.take 2))).2
      (ChaintracksStorageIdb.deleteOlderLiveBlockHeaders 1 (chaintracksStorageIdb.inserted agreementFile (forking.take 2))).2 := by
  refine (engines_agree (?_ : EnginesReach ⟨2000, 500⟩ _ _ _)).1
  apply EnginesReach.delete
  · apply EnginesReach.insert
    · apply EnginesReach.insert .start
      decide +kernel
    · decide +kernel
  · decide +kernel

end WalletToolbox.Chaintracks
