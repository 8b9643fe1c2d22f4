import WalletToolbox.Proofs.HeaderInserts
import WalletToolbox.Chaintracks.ChaintracksStorageNoDb
import WalletToolbox.Chaintracks.ChaintracksStorageKnex

/-! Deleting the older live headers: what stays is a tree whose lowest headers have lost
their links, with the upper part of the active chain. -/

namespace WalletToolbox.Chaintracks
open List

def unlinked (maxHeight : Int) (row : LiveBlockHeader) : LiveBlockHeader :=
  if (row.height : Int) ≤ maxHeight + 1 then { row with previousHeaderId := none } else row

def LiveTable.above (rows : LiveTable) (maxHeight : Int) : LiveTable :=
  (rows.map (unlinked maxHeight)).filter fun row => ¬(row.height : Int) ≤ maxHeight

section
variable (maxHeight : Int) (row : LiveBlockHeader)

@[simp] theorem unlinked_height : (unlinked maxHeight row).height = row.height := by
  unfold unlinked
  split <;> rfl

@[simp] theorem unlinked_headerId : (unlinked maxHeight row).headerId = row.headerId := by
  unfold unlinked
  split <;> rfl

@[simp] theorem unlinked_hash : (unlinked maxHeight row).hash = row.hash := by
  unfold unlinked
  split <;> rfl

@[simp] theorem unlinked_isActive : (unlinked maxHeight row).isActive = row.isActive := by
  unfold unlinked
  split <;> rfl

@[simp] theorem unlinked_isChainTip : (unlinked maxHeight row).isChainTip = row.isChainTip := by
  unfold unlinked
  split <;> rfl

@[simp] theorem unlinked_chainWork : (unlinked maxHeight row).chainWork = row.chainWork := by
  unfold unlinked
  split <;> rfl

theorem unlinked_continues : Continues (unlinked maxHeight header) (unlinked maxHeight parent) ↔ Continues header parent := by
  unfold unlinked
  split <;> split <;> rfl

theorem unlinked_previous {id} (link : (unlinked maxHeight row).previousHeaderId = some id) :
    row.previousHeaderId = some id ∧ maxHeight + 1 < row.height := by
  unfold unlinked at link
  split at link
  · contradiction
  next high => exact ⟨link, not_le.mp high⟩

theorem unlinked_low (low : (row.height : Int) ≤ maxHeight + 1) : (unlinked maxHeight row).previousHeaderId = none := by
  unfold unlinked
  rw [if_pos low]

theorem unlinked_high (high : maxHeight + 1 < row.height) : unlinked maxHeight row = row := if_neg (not_le.mpr high)

theorem unlinked_root (root : row.previousHeaderId = none) : (unlinked maxHeight row).previousHeaderId = none := by
  unfold unlinked
  split
  · rfl
  · exact root

end

section
variable {rows : LiveTable} {tip : LiveBlockHeader} {older : List LiveBlockHeader} {maxHeight : Int}

theorem mem_above :
    header ∈ rows.above maxHeight ↔ ∃ row ∈ rows, maxHeight < row.height ∧ unlinked maxHeight row = header := by
  unfold LiveTable.above
  rw [mem_filter, mem_map]
  constructor
  · intro ⟨⟨row, mine, same⟩, high⟩
    subst same
    exact ⟨row, mine, by simpa using high, rfl⟩
  · intro ⟨row, mine, high, same⟩
    subst same
    exact ⟨⟨row, mine, rfl⟩, by simpa using high⟩

theorem LiveTree.above (tree : LiveTree rows) (maxHeight : Int) : LiveTree (rows.above maxHeight) where
  distinct := by
    have mapped := tree.distinct.map fun row => unlinked_headerId maxHeight row
    exact mapped.sublist (filter_sublist.map _)
  hashes := by
    have same : (rows.map (unlinked maxHeight)).map (·.hash) = rows.map (·.hash) := by simp [Function.comp_def]
    have mapped := same ▸ tree.hashes
    exact mapped.sublist (filter_sublist.map _)
  linked := by
    intro header member id link
    obtain ⟨row, mine, _, rfl⟩ := mem_above.mp member
    obtain ⟨was, high⟩ := unlinked_previous maxHeight row link
    obtain ⟨parent, its, same, smaller, continues⟩ := tree.linked row mine id was
    refine ⟨unlinked maxHeight parent, mem_above.mpr ⟨parent, its, ?_, rfl⟩, ?_, ?_, (unlinked_continues maxHeight).mpr continues⟩
    · have := continues.2.1
      omega
    · rw [unlinked_headerId, same]
    · rw [unlinked_headerId, unlinked_headerId]
      exact smaller
  surpassed := by
    intro header member parent stored link
    obtain ⟨row, mine, _, rfl⟩ := mem_above.mp member
    obtain ⟨one, its, _, rfl⟩ := mem_above.mp stored
    rw [unlinked_headerId] at link
    rw [unlinked_isChainTip]
    exact tree.surpassed row mine one its (unlinked_previous maxHeight row link).1

theorem path_above (tree : LiveTree rows) (path) :
    ∀ header, (header :: path).IsChain Follows → (∀ other ∈ header :: path, other ∈ rows) → maxHeight < header.height →
      (∃ root, (header :: path).getLast? = some root ∧ root.previousHeaderId = none) →
      ∃ kept, ((header :: path).filter fun row => ¬(row.height : Int) ≤ maxHeight).map (unlinked maxHeight) = unlinked maxHeight header :: kept ∧
        (unlinked maxHeight header :: kept).IsChain Follows ∧
        ∃ root, (unlinked maxHeight header :: kept).getLast? = some root ∧ root.previousHeaderId = none := by
  induction path with
  | nil =>
    intro header _ _ high root
    obtain ⟨root, last, top⟩ := root
    obtain rfl : header = root := by simpa using last
    refine ⟨[], ?_, by simp, unlinked maxHeight header, rfl, unlinked_root maxHeight header top⟩
    simp [high]
  | cons next path ih =>
    intro header linked stored high root
    have follows := (isChain_cons_cons.mp linked).1
    have continues := tree.continues (stored header (by simp)) (stored next (by simp)) follows
    have height := continues.2.1
    have first : ((header :: next :: path).filter fun row => ¬(row.height : Int) ≤ maxHeight) =
        header :: (next :: path).filter fun row => ¬(row.height : Int) ≤ maxHeight := filter_cons_of_pos (by simpa using high)
    by_cases above : maxHeight < next.height
    · have below : ∃ root, (next :: path).getLast? = some root ∧ root.previousHeaderId = none := by
        simpa [getLast?_cons_cons] using root
      obtain ⟨kept, shape, chain, last⟩ := ih next linked.tail (fun other member => stored other (mem_cons_of_mem _ member)) above below
      refine ⟨unlinked maxHeight next :: kept, ?_, isChain_cons_cons.mpr ⟨?_, chain⟩, ?_⟩
      · rw [first, map_cons, shape]
      · have same := unlinked_high maxHeight header (by omega)
        unfold Follows
        rw [same, unlinked_headerId]
        exact follows
      · simpa [getLast?_cons_cons] using last
    · -- The next header and all before it are deleted.
      have lower : (next :: path).Pairwise fun a b => b.height < a.height := by
        have transitive : IsTrans LiveBlockHeader fun a b => b.height < a.height := ⟨fun _ _ _ first second => second.trans first⟩
        refine isChain_iff_pairwise.mp (linked.tail.imp_of_mem_imp fun one other mine its follows => ?_)
        have := (tree.continues (stored one (mem_cons_of_mem _ mine)) (stored other (mem_cons_of_mem _ its)) follows).2.1
        omega
      have gone : ((next :: path).filter fun row => ¬(row.height : Int) ≤ maxHeight) = [] := by
        apply filter_eq_nil_iff.mpr
        intro other member
        cases member with
        | head => simpa using above
        | tail _ rest =>
          have := (pairwise_cons.mp lower).1 other rest
          simp only [not_le, decide_eq_true_eq]
          omega
      refine ⟨[], ?_, by simp, unlinked maxHeight header, rfl, unlinked_low maxHeight header (by omega)⟩
      rw [first, gone]
      rfl

theorem ActiveChain.above (tree : LiveTree rows) (chain : ActiveChain rows tip older) (low : maxHeight < tip.height) :
    ∃ kept, ActiveChain (rows.above maxHeight) (unlinked maxHeight tip) kept := by
  obtain ⟨kept, shape, linked, rooted⟩ := path_above tree older tip chain.linked (fun _ => chain.stored) low chain.rooted
  refine ⟨kept, linked, ?_, ?_, rooted, ?_⟩
  · intro header
    rw [← shape, mem_map, mem_above]
    constructor
    · intro ⟨row, member, same⟩
      obtain ⟨onChain, high⟩ := mem_filter.mp member
      have both := (chain.members row).mp onChain
      refine ⟨⟨row, both.1, by simpa using high, same⟩, ?_⟩
      rw [← same, unlinked_isActive]
      exact both.2
    · intro ⟨⟨row, mine, high, same⟩, active⟩
      rw [← same, unlinked_isActive] at active
      exact ⟨row, mem_filter.mpr ⟨(chain.members row).mpr ⟨mine, active⟩, by simpa using high⟩, same⟩
  · rw [unlinked_isChainTip]
    exact chain.chainTip
  · intro header member
    obtain ⟨row, mine, _, rfl⟩ := mem_above.mp member
    rw [unlinked_chainWork, unlinked_chainWork]
    exact chain.heaviest row mine

theorem LiveTree.parent_low (tree : LiveTree rows) (maxHeight : Int) {header parent} (mine : header ∈ rows)
    (link : header.previousHeaderId.bind rows.byId = some parent) : (parent.height : Int) ≤ maxHeight ↔ (header.height : Int) ≤ maxHeight + 1 := by
  cases previous : header.previousHeaderId with
  | none => simp [previous] at link
  | some id =>
    obtain ⟨stored, found, _, _, continues⟩ := tree.parent mine previous
    rw [previous, Option.bind_some, found] at link
    obtain rfl := Option.some.inj link
    have := continues.2.1
    omega

theorem clearPrevious_eq (tree : LiveTree rows) (maxHeight : Int) :
    rows.map (ChaintracksStorageNoDb.clearPrevious maxHeight rows) = rows.map (unlinked maxHeight) := by
  refine map_congr_left fun row mine => ?_
  unfold ChaintracksStorageNoDb.clearPrevious
  cases link : row.previousHeaderId.bind rows.byId with
  | some parent =>
    have iff := tree.parent_low maxHeight mine link
    by_cases low : (row.height : Int) ≤ maxHeight + 1
    · simp [unlinked, low, iff.mpr low]
    · simp [unlinked, low, mt iff.mp low]
  | none =>
    have root : row.previousHeaderId = none := by
      cases previous : row.previousHeaderId with
      | none => rfl
      | some id =>
        obtain ⟨stored, found, _⟩ := tree.parent mine previous
        simp [previous, found] at link
    have same : { row with previousHeaderId := none } = row := by rw [← root]
    simp [unlinked, same]

theorem noDb_deleteOlder (data) (tree : LiveTree data.liveHeaders) (maxHeight : Int) :
    (ChaintracksStorageNoDb.deleteOlderLiveBlockHeaders maxHeight data).2.liveHeaders = data.liveHeaders.above maxHeight :=
  congrArg (filter _) (clearPrevious_eq tree maxHeight)

theorem knex_deleteOlder (data) (tree : LiveTree data.rows) (maxHeight : Int) :
    (ChaintracksStorageKnex.deleteOlderLiveBlockHeaders maxHeight data).2.rows = data.rows.above maxHeight := by
  unfold ChaintracksStorageKnex.deleteOlderLiveBlockHeaders LiveTable.above
  refine congrArg (filter _) (map_congr_left fun row mine => ?_)
  unfold ChaintracksStorageKnex.clearPrevious
  cases previous : row.previousHeaderId with
  | none =>
    have same : { row with previousHeaderId := none } = row := by rw [← previous]
    simp [unlinked, same]
  | some id =>
    obtain ⟨parent, found, its, follows, _⟩ := tree.parent mine previous
    have iff := tree.parent_low maxHeight mine (show row.previousHeaderId.bind data.rows.byId = some parent by simp [previous, found])
    have same := Option.some.inj (follows.1.symm.trans previous)
    have listed : id ∈ (data.rows.filter fun row => (row.height : Int) ≤ maxHeight).map (·.headerId) ↔ (parent.height : Int) ≤ maxHeight := by
      rw [mem_map]
      constructor
      · intro ⟨other, member, equal⟩
        obtain ⟨stored, low⟩ := mem_filter.mp member
        rw [tree.distinct.eq stored its (equal.trans same.symm)] at low
        simpa using low
      · intro low
        exact ⟨parent, mem_filter.mpr ⟨its, by simpa using low⟩, same⟩
    by_cases low : (row.height : Int) ≤ maxHeight + 1
    · rw [if_pos (by simpa using listed.mpr (iff.mpr low)), unlinked, if_pos low]
    · rw [if_neg (by simpa using mt listed.mp (mt iff.mp low)), unlinked, if_neg low]

end

end WalletToolbox.Chaintracks
