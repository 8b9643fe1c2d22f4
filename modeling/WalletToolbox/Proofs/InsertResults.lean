import WalletToolbox.Proofs.LiveChains

/-! What an insert reports is what it did. -/

namespace WalletToolbox.Chaintracks
open List

/-- The result of an insert agrees with the live headers before and after it. Of what it
says when no active ancestor is found, only that nothing was added counts. -/
structure Truthful (rows after : LiveTable) (header : BlockHeader) (result : InsertHeaderResult) : Prop where
  one : [result.added, result.dupe, result.noPrev, result.badPrev, result.noTip, result.noActiveAncestor].count true = 1
  unchanged : result.added = false → after = rows
  isActiveTip : result.noActiveAncestor = false →
    (result.isActiveTip = true ↔ result.added = true ∧ ∃ tip, after.tip = some tip ∧ tip.hash = header.hash)
  priorTip : result.added = true → result.priorTip = rows.tip
  deactivatedOnce : result.deactivatedHeaders.Nodup
  deactivated : ∀ row, row ∈ result.deactivatedHeaders ↔
    row ∈ rows ∧ row.isActive = true ∧ ∃ now ∈ after, now.headerId = row.headerId ∧ now.isActive = false
  reorgDepth : ∃ prior tip, rows.tip = some prior ∧ after.tip = some tip ∧
    (result.reorgDepth = 0 ↔ tip.headerId = prior.headerId ∨ tip.previousHeaderId = some prior.headerId)

section
variable {rows : LiveTable} {tip oneBack newHeader : LiveBlockHeader} {older : List LiveBlockHeader} {header : BlockHeader}

theorem lower (tree : LiveTree rows) {path : List LiveBlockHeader} (linked : path.IsChain Follows) (stored : ∀ other ∈ path, other ∈ rows) :
    path.Pairwise fun a b => b.height < a.height ∧ b.chainWork < a.chainWork := by
  have transitive : IsTrans LiveBlockHeader fun a b => b.height < a.height ∧ b.chainWork < a.chainWork :=
    ⟨fun _ _ _ first second => ⟨second.1.trans first.1, second.2.trans first.2⟩⟩
  apply isChain_iff_pairwise.mp
  induction path with
  | nil => exact isChain_nil
  | cons first path ih =>
    cases path with
    | nil => exact isChain_singleton _
    | cons next path =>
      obtain ⟨follows, rest⟩ := isChain_cons_cons.mp linked
      have continues := tree.continues (stored first (by simp)) (stored next (by simp)) follows
      have more := convertBitsToWork_pos first.bits
      have sum : first.chainWork = next.chainWork + convertBitsToWork first.bits := continues.2.2
      have height := continues.2.1
      exact isChain_cons_cons.mpr ⟨⟨by omega, by omega⟩, ih rest fun other member => stored other (mem_cons_of_mem _ member)⟩

theorem mem_deactivated (distinct : rows.Distinct) (fresh : ∀ row ∈ rows, row.headerId < newHeader.headerId) {deactivated branch : List LiveBlockHeader}
    (active : ∀ row ∈ deactivated, row ∈ rows ∧ row.isActive = true) (inactive : ∀ row ∈ branch, row ∈ rows ∧ row.isActive = false)
    (id : Nat) (row) :
    row ∈ deactivated ↔ row ∈ rows ∧ row.isActive = true ∧
      ∃ now ∈ rows.map (flagged (deactivated.map (·.headerId)) (branch.map (·.headerId)) id) ++ [newHeader],
        now.headerId = row.headerId ∧ now.isActive = false := by
  constructor
  · intro member
    obtain ⟨mine, flag⟩ := active row member
    have apart : row.headerId ∉ branch.map (·.headerId) := by
      intro listed
      obtain ⟨other, its, same⟩ := mem_map.mp listed
      have off := (inactive other its).2
      rw [distinct.eq (inactive other its).1 mine same, flag] at off
      contradiction
    have gone : row.headerId ∈ deactivated.map (·.headerId) := mem_map_of_mem member
    refine ⟨mine, flag, _, mem_grown.mpr (.inl ⟨row, mine, rfl⟩), rfl, ?_⟩
    simp only [flagged, gone, apart, not_true_eq_false, decide_false, Bool.and_false, Bool.or_false]
  · intro listed
    obtain ⟨mine, flag, now, stored, same, off⟩ := listed
    cases mem_grown.mp stored with
    | inr new =>
      have small := fresh row mine
      rw [new] at same
      omega
    | inl old =>
      obtain ⟨before, its, rfl⟩ := old
      obtain rfl : before = row := distinct.eq its mine same
      by_contra kept
      have apart : before.headerId ∉ deactivated.map (·.headerId) := by
        intro listed
        obtain ⟨other, onPath, equal⟩ := mem_map.mp listed
        exact kept (distinct.eq (active other onPath).1 mine equal ▸ onPath)
      simp only [flagged, flag, apart, not_false_eq_true, decide_true, Bool.and_self, Bool.true_or] at off
      contradiction

theorem none_deactivated (tree : LiveTree rows) (row) :
    row ∈ ([] : List LiveBlockHeader) ↔ row ∈ rows ∧ row.isActive = true ∧ ∃ now ∈ rows, now.headerId = row.headerId ∧ now.isActive = false := by
  constructor
  · intro none
    exact (not_mem_nil none).elim
  · intro ⟨mine, flag, now, its, same, off⟩
    rw [tree.distinct.eq its mine same, flag] at off
    contradiction

theorem Truthful.refused (tree : LiveTree rows) (chain : ActiveChain rows tip older)
    (one : [result.added, result.dupe, result.noPrev, result.badPrev, result.noTip, result.noActiveAncestor].count true = 1)
    (refused : result.added = false) (inactive : result.noActiveAncestor = false → result.isActiveTip = false)
    (none : result.deactivatedHeaders = []) (depth : result.reorgDepth = 0) : Truthful rows rows header result where
  one := one
  unchanged _ := rfl
  isActiveTip := by
    intro found
    simp [inactive found, refused]
  priorTip := by simp [refused]
  deactivatedOnce := by simp [none]
  deactivated := by
    intro row
    rw [none]
    exact none_deactivated tree row
  reorgDepth := ⟨tip, tip, chain.tip_eq tree, chain.tip_eq tree, by simp [depth]⟩

theorem forkDepth_eq_zero (tree : LiveTree rows) (chain : ActiveChain rows tip older)
    {ancestor} (walked : Branch rows branch ancestor) (head : (branch ++ [ancestor]).head? = some oneBack)
    (fork : tip :: older = deactivated ++ ancestor :: rest) (atTip : oneBack.isActive = true → oneBack = tip)
    (height : newHeader.height = oneBack.height + 1) : forkDepth tip oneBack newHeader ancestor = 0 ↔ oneBack.headerId = tip.headerId := by
  have tipStored : tip ∈ rows := chain.stored (by simp)
  have mine : oneBack ∈ rows := walked.stored _ (mem_of_head? head)
  constructor
  · intro zero
    by_contra other
    have off : oneBack.isActive = false := Bool.eq_false_iff.mpr fun active => other (by rw [atTip active])
    -- The branch has headers, so the ancestor is not the tip: nothing outweighs that.
    have below : ancestor.height < oneBack.height ∧ ancestor.chainWork < oneBack.chainWork := by
      cases branch with
      | nil =>
        obtain rfl : ancestor = oneBack := by simpa using head
        rw [walked.active] at off
        contradiction
      | cons first branch =>
        obtain rfl : first = oneBack := by simpa using head
        exact (pairwise_cons.mp (lower tree walked.linked walked.stored)).1 ancestor (by simp)
    have deeper : ancestor.height < tip.height := by
      cases deactivated with
      | nil =>
        have same : tip = ancestor := (cons.inj fork).1
        have light := chain.heaviest oneBack mine
        rw [same] at light
        omega
      | cons first deactivated =>
        have same : tip = first := (cons.inj fork).1
        have order := lower tree chain.linked fun _ => chain.stored
        rw [fork, cons_append] at order
        rw [same]
        exact ((pairwise_cons.mp order).1 ancestor (by simp)).1
    simp only [forkDepth, off, Bool.false_and, Bool.false_eq_true, ↓reduceIte, height] at zero
    omega
  · intro same
    obtain rfl : oneBack = tip := tree.distinct.eq mine tipStored same
    simp [forkDepth, chain.active (mem_cons_self ..), chain.chainTip]

theorem ReportedAfter.truthful (tree : LiveTree rows) (chain : ActiveChain rows tip older) (mine : oneBack ∈ rows)
    (hash : oneBack.hash = header.previousHash) (height : oneBack.height + 1 = header.height) (unknown : ∀ row ∈ rows, row.hash ≠ header.hash) (fresh : ∀ row ∈ rows, row.headerId < headerId)
    (atTip : (header.following headerId oneBack tip).isActive = true → oneBack.isActive = true → oneBack = tip)
    {outcome}
    (reported : ReportedAfter rows tip older oneBack (header.following headerId oneBack tip) outcome) :
    ∃ result, outcome.1 = .ok result ∧ Truthful rows outcome.2 header result := by
  have follows : Follows (header.following headerId oneBack tip) oneBack := ⟨rfl, fresh oneBack mine⟩
  have continues : Continues (header.following headerId oneBack tip) oneBack := following_continues headerId hash height
  have before := chain.tip_eq tree
  cases reported with
  | behind inactive =>
    obtain ⟨light, other⟩ := following_behind inactive
    have grown := tree.grow mine fresh unknown rfl continues [] []
    have after := (chain.behind tree inactive mine other light).tip_eq grown
    refine ⟨_, rfl, ?_⟩
    constructor
    · simp [comparedResult, InsertHeaderResult.none]
    · intro refused
      contradiction
    · intro _
      simp only [comparedResult, inactive, after, Bool.false_eq_true, Option.some.injEq, false_iff, true_and]
      intro moved
      obtain ⟨now, same, equal⟩ := moved
      exact unknown tip (chain.stored (by simp)) (by rw [← equal, ← same]; rfl)
    · exact fun _ => before.symm
    · exact nodup_nil
    · exact mem_deactivated tree.distinct fresh (forall_mem_nil _) (forall_mem_nil _) oneBack.headerId
    · exact ⟨tip, _, before, after, by simp [comparedResult, InsertHeaderResult.none, flagged]⟩
  | stray active =>
    refine ⟨_, rfl, .refused tree chain ?_ rfl ?_ rfl rfl⟩
    · simp [comparedResult, InsertHeaderResult.none]
    · intro found
      contradiction
  | ahead branch ancestor deactivated rest active walked head fork =>
    have grown := tree.grow mine fresh unknown rfl continues (deactivated.map (·.headerId)) (branch.map (·.headerId))
    have after := (chain.ahead tree walked head fork active active follows ((following_isActive headerId).mp active)).tip_eq grown
    have once : (tip :: older).Nodup := (falls chain.linked).imp fun {a b} smaller same => by
      rw [same] at smaller
      exact lt_irrefl _ smaller
    refine ⟨_, rfl, ?_⟩
    constructor
    · simp [comparedResult, InsertHeaderResult.none]
    · intro refused
      contradiction
    · intro _
      simp only [comparedResult, active, after, true_and, true_iff]
      exact ⟨_, rfl, rfl⟩
    · exact fun _ => before.symm
    · rw [fork] at once
      exact once.of_append_left
    · apply mem_deactivated tree.distinct fresh
      · intro row member
        exact (chain.members row).mp (fork ▸ mem_append_left _ member)
      · intro row member
        exact ⟨walked.stored row (by simp [member]), walked.inactive row member⟩
    · refine ⟨tip, _, before, after, ?_⟩
      have newId : (header.following headerId oneBack tip).headerId ≠ tip.headerId := (fresh tip (chain.stored (by simp))).ne'
      have zero : forkDepth tip oneBack (header.following headerId oneBack tip) ancestor = 0 ↔ oneBack.headerId = tip.headerId :=
        forkDepth_eq_zero tree chain walked head fork (atTip active) height.symm
      simp only [zero, newId, false_or]
      exact (Option.some_inj).symm

end

/-- A refused insert leaves the in-memory data as they are, but for the id that was meant
for the new header. -/
structure NoDbRefused (data after : ChaintracksNoDbData) (result : InsertHeaderResult) : Prop where
  hashToHeaderId : after.hashToHeaderId = data.hashToHeaderId
  tipHeaderId : after.tipHeaderId = data.tipHeaderId
  same : result.noActiveAncestor = false → after = data

section
variable {lastFile : BulkFile} {deleted : LiveTable} {file : Option BulkFile} {header : BlockHeader}

theorem noDb_truthful (grown : Grown lastFile deleted data.liveHeaders) (kept : NoDbKept data)
    (meets : NoDbMeets data header) (some : data.liveHeaders ≠ []) :
    ∃ result, (ChaintracksStorageNoDb.insertHeader file header data).1 = .ok result ∧
      Truthful data.liveHeaders (ChaintracksStorageNoDb.insertHeader file header data).2.liveHeaders header result ∧
      (result.added = false → NoDbRefused data (ChaintracksStorageNoDb.insertHeader file header data).2 result) := by
  obtain ⟨tip, older, chain⟩ := grown.chained some
  have refused : ∀ result : InsertHeaderResult, NoDbRefused data data result := fun _ => ⟨rfl, rfl, fun _ => rfl⟩
  unfold ChaintracksStorageNoDb.insertHeader
  by_cases dupe : (data.hashToHeaderId header.hash).isSome = true
  · simp only [dupe, ↓reduceIte]
    exact ⟨_, rfl, .refused grown.tree chain rfl rfl (fun _ => rfl) rfl rfl, fun _ => refused _⟩
  · have unknown := kept.unknown dupe
    have fresh := kept.fresh
    have many : ¬data.liveHeaders.length = 0 := fun empty => some (eq_nil_of_length_eq_zero empty)
    simp only [dupe, Bool.false_eq_true, ↓reduceIte]
    cases found : data.liveHeaders.byHash header.previousHash with
    | none =>
      simp only [many, ↓reduceIte]
      exact ⟨_, rfl, .refused grown.tree chain rfl rfl (fun _ => rfl) rfl rfl, fun _ => refused _⟩
    | some oneBack =>
      obtain ⟨mine, hash⟩ := LiveTable.byHash_some found
      by_cases height : oneBack.height + 1 = header.height
      · have outweighs : (header.following (data.maxHeaderId + 1) oneBack tip).isActive = true → Outweighs data.liveHeaders header oneBack tip := fun active =>
          ⟨find?_eq_none.mpr fun row its => by simpa using unknown row its, found, height, chain.tip_eq grown.tree, active⟩
        have atTip : (header.following (data.maxHeaderId + 1) oneBack tip).isActive = true → oneBack.isActive = true → oneBack = tip :=
          fun active flag => chain.only_tip grown.tree mine flag (meets.1 oneBack tip (outweighs active) flag)
        have reported : ReportedAfter data.liveHeaders tip older oneBack (header.following (data.maxHeaderId + 1) oneBack tip)
            (ChaintracksStorageNoDb.engine.insertAfter oneBack tip (header.following (data.maxHeaderId + 1) oneBack tip) data.liveHeaders) := by
          apply insertAfter_reports noDb_exact grown.tree chain mine atTip
          intro active flag former walk
          have this := meets.2 oneBack tip (outweighs active) walk former
          rw [flag] at this
          contradiction
        obtain ⟨result, ok, truthful⟩ := reported.truthful grown.tree chain mine hash height unknown fresh atTip
        cases outcome : ChaintracksStorageNoDb.engine.insertAfter oneBack tip (header.following (data.maxHeaderId + 1) oneBack tip) data.liveHeaders with
        | mk reply table =>
          rw [outcome] at ok truthful reported
          obtain rfl : reply = .ok result := ok
          simp only [height, ne_eq, not_true_eq_false, ↓reduceIte, chain.priorTip_eq grown.tree mine, outcome]
          refine ⟨_, rfl, truthful, ?_⟩
          intro none
          refine ⟨by simp [none], by simp [none], ?_⟩
          intro ancestor
          -- Past the checks, only a missing ancestor refuses a header.
          cases reported with
          | behind _ => contradiction
          | stray _ => contradiction
          | ahead _ _ _ _ _ _ _ _ => contradiction
      · simp only [ne_eq, height, not_false_eq_true, ↓reduceIte]
        exact ⟨_, rfl, .refused grown.tree chain rfl rfl (fun _ => rfl) rfl rfl, fun _ => refused _⟩

theorem knex_truthful (grown : Grown lastFile deleted data.rows) (fresh : ∀ row ∈ data.rows, row.headerId < data.nextHeaderId)
    (meets : KnexMeets data header) (some : data.rows ≠ []) :
    ∃ result, (ChaintracksStorageKnex.insertHeader file header data).1 = .ok result ∧
      Truthful data.rows (ChaintracksStorageKnex.insertHeader file header data).2.rows header result ∧
      (result.added = false → (ChaintracksStorageKnex.insertHeader file header data).2 = data) := by
  obtain ⟨tip, older, chain⟩ := grown.chained some
  unfold ChaintracksStorageKnex.insertHeader
  by_cases dupe : ¬(data.rows.filter fun row => row.hash = header.hash).length = 0
  · simp only [ne_eq, dupe, not_false_eq_true, ↓reduceIte]
    exact ⟨_, rfl, .refused grown.tree chain rfl rfl (fun _ => rfl) rfl rfl, fun _ => trivial⟩
  · have unknown := unknown_hash dupe
    have many : ¬data.rows.length = 0 := fun empty => some (eq_nil_of_length_eq_zero empty)
    simp only [ne_eq, dupe, ↓reduceIte]
    cases found : data.rows.byHash header.previousHash with
    | none =>
      simp only [many, ↓reduceIte]
      exact ⟨_, rfl, .refused grown.tree chain rfl rfl (fun _ => rfl) rfl rfl, fun _ => trivial⟩
    | some oneBack =>
      obtain ⟨mine, hash⟩ := LiveTable.byHash_some found
      by_cases height : oneBack.height + 1 = header.height
      · have atTip : (header.following data.nextHeaderId oneBack tip).isActive = true → oneBack.isActive = true → oneBack = tip := by
          intro active flag
          refine chain.only_tip grown.tree mine flag (meets oneBack tip ⟨?_, found, height, chain.tip_eq grown.tree, active⟩ flag)
          exact find?_eq_none.mpr fun row its => by simpa using unknown row its
        have reported : ReportedAfter data.rows tip older oneBack (header.following data.nextHeaderId oneBack tip)
            (ChaintracksStorageKnex.engine.insertAfter oneBack tip (header.following data.nextHeaderId oneBack tip) data.rows) := by
          apply insertAfter_reports knex_exact grown.tree chain mine atTip
          intro _ _ _ _ _
          rfl
        obtain ⟨result, ok, truthful⟩ := reported.truthful grown.tree chain mine hash height unknown fresh atTip
        cases outcome : ChaintracksStorageKnex.engine.insertAfter oneBack tip (header.following data.nextHeaderId oneBack tip) data.rows with
        | mk reply table =>
          rw [outcome] at ok truthful
          obtain rfl : reply = .ok result := ok
          simp only [height, not_true_eq_false, ↓reduceIte, chain.priorTip_eq grown.tree mine, outcome]
          refine ⟨_, rfl, truthful, ?_⟩
          intro refused
          have same : table = data.rows := truthful.unchanged refused
          simp [refused, same]
      · simp only [height, not_false_eq_true, ↓reduceIte]
        exact ⟨_, rfl, .refused grown.tree chain rfl rfl (fun _ => rfl) rfl rfl, fun _ => trivial⟩

end

/-- In every run whose inserts meet the condition, an insert above a first live header
reports what it does. -/
theorem insertHeader_truthful (lastFile : BulkFile) :
    (∀ data deleted, chaintracksStorageNoDb.Reaches lastFile NoDbMeets data deleted → data.liveHeaders ≠ [] → ∀ header file, NoDbMeets data header →
      ∃ result, (ChaintracksStorageNoDb.insertHeader file header data).1 = .ok result ∧
        Truthful data.liveHeaders (ChaintracksStorageNoDb.insertHeader file header data).2.liveHeaders header result ∧
        (result.added = false → NoDbRefused data (ChaintracksStorageNoDb.insertHeader file header data).2 result)) ∧
    (∀ data deleted, chaintracksStorageKnex.Reaches lastFile KnexMeets data deleted → data.rows ≠ [] → ∀ header file, KnexMeets data header →
      ∃ result, (ChaintracksStorageKnex.insertHeader file header data).1 = .ok result ∧
        Truthful data.rows (ChaintracksStorageKnex.insertHeader file header data).2.rows header result ∧
        (result.added = false → (ChaintracksStorageKnex.insertHeader file header data).2 = data)) := by
  constructor
  · intro data deleted reaches some header file meets
    obtain ⟨grown, kept⟩ := noDb_reaches reaches
    exact noDb_truthful grown kept meets some
  · intro data deleted reaches some header file meets
    obtain ⟨grown, fresh⟩ := knex_reaches reaches
    exact knex_truthful grown fresh meets some

/-- The insert of the fourth header reports the reorganization. -/
theorem insertHeader_truthful_reorganized : ∃ result,
    (ChaintracksStorageNoDb.insertHeader none (sampleHeader "2a" "3a" 3 0x207fffff) (chaintracksStorageNoDb.inserted sampleFile (reorganizing.take 3))).1 = .ok result ∧
      Truthful (chaintracksStorageNoDb.inserted sampleFile (reorganizing.take 3)).liveHeaders
        (ChaintracksStorageNoDb.insertHeader none (sampleHeader "2a" "3a" 3 0x207fffff) (chaintracksStorageNoDb.inserted sampleFile (reorganizing.take 3))).2.liveHeaders
        (sampleHeader "2a" "3a" 3 0x207fffff) result := by
  have reported := (insertHeader_truthful sampleFile).1 (chaintracksStorageNoDb.inserted sampleFile (reorganizing.take 3)) []
    ?_ (by decide +kernel) (sampleHeader "2a" "3a" 3 0x207fffff) none ⟨by decide +kernel, by decide +kernel⟩
  · obtain ⟨result, ok, truthful, _⟩ := reported
    exact ⟨result, ok, truthful⟩
  refine .insert (.insert (.insert .start ?_ fun _ => rfl) ?_ fun _ => rfl) ?_ fun _ => rfl
  · exact ⟨by decide +kernel, by decide +kernel⟩
  · exact ⟨by decide +kernel, by decide +kernel⟩
  · exact ⟨by decide +kernel, by decide +kernel⟩

/-- A duplicate of the active tip reports neither it nor that it is the tip. A heavier
header on the active parent of the tip reports itself as the tip, which it is not. -/
theorem insertHeader_misreports :
    ((ChaintracksStorageNoDb.insertHeader none (sampleHeader "0" "1" 1 0x207fffff) (chaintracksStorageNoDb.inserted sampleFile (reorganizing.take 1))).1 =
        .ok { InsertHeaderResult.none with dupe := true } ∧
      ((chaintracksStorageNoDb.inserted sampleFile (reorganizing.take 1)).liveHeaders.tip.map (·.hash)) = some "1") ∧
    ((ChaintracksStorageKnex.insertHeader none (sampleHeader "0" "1" 1 0x207fffff) (chaintracksStorageKnex.inserted sampleFile (reorganizing.take 1))).1 =
        .ok { InsertHeaderResult.none with dupe := true } ∧
      ((chaintracksStorageKnex.inserted sampleFile (reorganizing.take 1)).rows.tip.map (·.hash)) = some "1") ∧
    ((ChaintracksStorageNoDb.insertHeader none (sampleHeader "1" "2a" 2 0x1d00ffff) (chaintracksStorageNoDb.inserted sampleFile (outweighing.take 2))).1.map
        (·.isActiveTip)).toOption = some true ∧
      ((chaintracksStorageNoDb.inserted sampleFile outweighing).liveHeaders.tip.map (·.hash)) = some "2" := by
  refine ⟨⟨by decide +kernel, by decide +kernel⟩, ⟨by decide +kernel, by decide +kernel⟩, by decide +kernel, by decide +kernel⟩

end WalletToolbox.Chaintracks
