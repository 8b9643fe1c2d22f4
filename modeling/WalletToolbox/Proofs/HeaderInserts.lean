import WalletToolbox.Proofs.LiveTrees

/-! What an insert after a stored header leaves in the table, and that the tree and its
active chain are kept. -/

namespace WalletToolbox.Chaintracks
open List

def flagged (deactivated branch : List Nat) (oneBack : Nat) (row : LiveBlockHeader) : LiveBlockHeader :=
  { row with
    isActive := (row.isActive && decide (row.headerId ∉ deactivated)) || decide (row.headerId ∈ branch)
    isChainTip := row.isChainTip && decide (row.headerId ≠ oneBack) }

section
variable {rows : LiveTable} {oneBack : LiveBlockHeader} (deactivated branch : List Nat)

theorem LiveTable.mem_mark (mine : row ∈ rows) (apart : row.headerId ∉ ids) :
    row ∈ rows.mark ids active :=
  mem_map.mpr ⟨row, mine, if_neg apart⟩

theorem LiveTable.Distinct.mark (distinct : rows.Distinct) (ids) (active : Bool) : (rows.mark ids active).Distinct := by
  apply distinct.map
  intro row
  by_cases listed : row.headerId ∈ ids
  · simp [listed]
  · simp [listed]

theorem map_flagged (distinct : rows.Distinct) (mine : oneBack ∈ rows) :
    (if oneBack.isChainTip then ((rows.mark deactivated false).mark branch true).update oneBack.headerId fun row => { row with isChainTip := false }
      else (rows.mark deactivated false).mark branch true) = rows.map (flagged deactivated branch oneBack.headerId) := by
  have marked : (rows.mark deactivated false).mark branch true =
      rows.map fun row => { row with isActive := (row.isActive && decide (row.headerId ∉ deactivated)) || decide (row.headerId ∈ branch) } := by
    unfold LiveTable.mark
    rw [map_map]
    apply map_congr_left
    intro row _
    by_cases first : row.headerId ∈ deactivated
    · by_cases second : row.headerId ∈ branch
      · simp [first, second]
      · simp [first, second]
    · by_cases second : row.headerId ∈ branch
      · simp [first, second]
      · simp [first, second]
  rw [marked]
  cases flag : oneBack.isChainTip with
  | true =>
    rw [if_pos rfl]
    unfold LiveTable.update
    rw [map_map]
    apply map_congr_left
    intro row _
    by_cases same : row.headerId = oneBack.headerId
    · simp [flagged, same]
    · simp [flagged, same]
  | false =>
    rw [if_neg (by simp)]
    apply map_congr_left
    intro row its
    by_cases same : row.headerId = oneBack.headerId
    · obtain rfl := distinct.eq its mine same
      simp [flagged, flag]
    · simp [flagged, same]

end

inductive InsertedAfter (rows : LiveTable) (tip : LiveBlockHeader) (older : List LiveBlockHeader) (oneBack newHeader : LiveBlockHeader) :
    Except ChaintracksError InsertHeaderResult × LiveTable → Prop
  | behind (result) : newHeader.isActive = false → result.added = true →
      InsertedAfter rows tip older oneBack newHeader (.ok result, rows.map (flagged [] [] oneBack.headerId) ++ [newHeader])
  | stray (result) : newHeader.isActive = true → result.added = false → InsertedAfter rows tip older oneBack newHeader (.ok result, rows)
  /-- The new header becomes the tip, and its branch the active one. -/
  | ahead (result branch ancestor deactivated rest) : newHeader.isActive = true → result.added = true → Branch rows branch ancestor →
      (branch ++ [ancestor]).head? = some oneBack → tip :: older = deactivated ++ ancestor :: rest →
      InsertedAfter rows tip older oneBack newHeader
        (.ok result, rows.map (flagged (deactivated.map (·.headerId)) (branch.map (·.headerId)) oneBack.headerId) ++ [newHeader])

def comparedResult (tip newHeader : LiveBlockHeader) : InsertHeaderResult :=
  { InsertHeaderResult.none with isActiveTip := newHeader.isActive, priorTip := some tip }

def forkDepth (tip oneBack newHeader ancestor : LiveBlockHeader) : Int :=
  if oneBack.isActive && oneBack.isChainTip then 0 else min (tip.height : Int) newHeader.height - ancestor.height

inductive ReportedAfter (rows : LiveTable) (tip : LiveBlockHeader) (older : List LiveBlockHeader) (oneBack newHeader : LiveBlockHeader) :
    Except ChaintracksError InsertHeaderResult × LiveTable → Prop
  | behind : newHeader.isActive = false →
      ReportedAfter rows tip older oneBack newHeader
        (.ok { comparedResult tip newHeader with added := true }, rows.map (flagged [] [] oneBack.headerId) ++ [newHeader])
  | stray : newHeader.isActive = true →
      ReportedAfter rows tip older oneBack newHeader (.ok { comparedResult tip newHeader with noActiveAncestor := true }, rows)
  | ahead (branch ancestor deactivated rest) : newHeader.isActive = true → Branch rows branch ancestor →
      (branch ++ [ancestor]).head? = some oneBack → tip :: older = deactivated ++ ancestor :: rest →
      ReportedAfter rows tip older oneBack newHeader
        (.ok { comparedResult tip newHeader with
                 added := true, reorgDepth := forkDepth tip oneBack newHeader ancestor, deactivatedHeaders := deactivated },
          rows.map (flagged (deactivated.map (·.headerId)) (branch.map (·.headerId)) oneBack.headerId) ++ [newHeader])

theorem ReportedAfter.inserted (reported : ReportedAfter rows tip older oneBack newHeader outcome) :
    InsertedAfter rows tip older oneBack newHeader outcome := by
  cases reported with
  | behind inactive => exact .behind _ inactive rfl
  | stray active => exact .stray _ active rfl
  | ahead branch ancestor deactivated rest active walked head fork => exact .ahead _ branch ancestor deactivated rest active rfl walked head fork

section
variable {engine : LiveEngine} {rows : LiveTable} {tip oneBack newHeader : LiveBlockHeader} {older : List LiveBlockHeader}

theorem reorganize_eq (exact : engine.Exact) (tree : LiveTree rows) (chain : ActiveChain rows tip older) (walked : Branch rows branch ancestor) (head : (branch ++ [ancestor]).head? = some oneBack)
    (fork : tip :: older = deactivated ++ ancestor :: rest) (inactive : oneBack.isActive = false) :
    engine.reorganize oneBack ancestor rows =
      (.ok deactivated, (rows.mark (deactivated.map (·.headerId)) false).mark (branch.map (·.headerId)) true) := by
  have apart : ¬ancestor.headerId = oneBack.headerId := by
    intro same
    have mine : oneBack ∈ rows := walked.stored _ (mem_of_head? head)
    have its : ancestor ∈ rows := walked.stored _ (by simp)
    have active := walked.active
    rw [tree.distinct.eq its mine same, inactive] at active
    exact Bool.false_ne_true active
  have prefixed : tip :: older = (deactivated ++ [ancestor]) ++ rest := by simp [fork]
  have down : (deactivated ++ [ancestor]).IsChain Follows := by
    have this := chain.linked
    rw [prefixed] at this
    exact this.left_of_append
  have top : (deactivated ++ [ancestor]).head? = some tip := by
    cases deactivated with
    | nil => exact congrArg some (cons.inj fork).1.symm
    | cons _ _ => exact congrArg some (cons.inj fork).1.symm
  have older_stored : ∀ header ∈ deactivated ++ [ancestor], header ∈ rows := fun header member =>
    chain.stored (prefixed ▸ mem_append_left rest member)
  have walk := setActiveBackTo_path exact false engine.nothingToDeactivate ancestor deactivated rows tip (walkLimit tip) tree.distinct down
    older_stored top (Nat.lt_succ_self _)
  -- The branch is inactive, what was deactivated was active, and the ancestor is below that.
  have untouched : ∀ header ∈ branch ++ [ancestor], header.headerId ∉ deactivated.map (·.headerId) := by
    intro header member listed
    obtain ⟨other, its, same⟩ := mem_map.mp listed
    have equal := tree.distinct.eq (older_stored other (by simp [its])) (walked.stored header member) same
    cases mem_append.mp member with
    | inl onBranch =>
      have active : other.isActive = true := chain.active (prefixed ▸ by simp [its])
      rw [equal, walked.inactive header onBranch] at active
      exact Bool.false_ne_true active
    | inr last =>
      rw [mem_singleton.mp last] at equal
      have order : (deactivated ++ [ancestor]).Pairwise fun a b => b.headerId < a.headerId := by
        have this := falls chain.linked
        rw [prefixed] at this
        exact (pairwise_append.mp this).1
      have below := (pairwise_append.mp order).2.2 other its ancestor (by simp)
      rw [equal] at below
      exact lt_irrefl _ below
  have walkUp := setActiveBackTo_path exact true (.error .typeError) ancestor branch (rows.mark (deactivated.map (·.headerId)) false) oneBack
    (walkLimit oneBack) (tree.distinct.mark _ _) walked.linked
    (fun header member => LiveTable.mem_mark (walked.stored header member) (untouched header member)) head (Nat.lt_succ_self _)
  unfold LiveEngine.reorganize
  rw [if_neg apart, chain.tip_eq tree]
  simp only [Option.map_some, Option.getD_some, walk, walkUp]
  rfl

/-- An insert after a stored header: when it makes a new tip, `oneBack` is inactive or the
tip, and its chain tip flag can be cleared after the walks. -/
theorem insertAfter_reports (exact : engine.Exact) (tree : LiveTree rows) (chain : ActiveChain rows tip older) (mine : oneBack ∈ rows)
    (atTip : newHeader.isActive = true → oneBack.isActive = true → oneBack = tip)
    (clears : newHeader.isActive = true → oneBack.isActive = false → oneBack.isChainTip = true →
      engine.activeAncestor rows (walkLimit oneBack) oneBack ≠ .ok none →
      ∀ table, engine.clearChainTip table oneBack = table.update oneBack.headerId fun row => { row with isChainTip := false }) :
    ReportedAfter rows tip older oneBack newHeader (engine.insertAfter oneBack tip newHeader rows) := by
  have plain : (if oneBack.isChainTip then engine.clearChainTip rows oneBack else rows) = rows.map (flagged [] [] oneBack.headerId) := by
    rw [← map_flagged [] [] tree.distinct mine, exact.clearChainTip tree.distinct mine, LiveTable.mark_nil, LiveTable.mark_nil]
  unfold LiveEngine.insertAfter
  cases active : newHeader.isActive with
  | false =>
    simp only [Bool.false_eq_true, ↓reduceIte, plain]
    have behind : ReportedAfter rows tip older oneBack newHeader _ := .behind active
    simp only [comparedResult, active] at behind
    exact behind
  | true =>
    cases activeAncestor_cases exact tree (walkLimit oneBack) oneBack mine (Nat.lt_succ_self _) with
    | inl none =>
      simp only [↓reduceIte, none]
      have stray : ReportedAfter rows tip older oneBack newHeader _ := .stray active
      simp only [comparedResult, active] at stray
      exact stray
    | inr found =>
      obtain ⟨branch, ancestor, walked, head, result⟩ := found
      simp only [↓reduceIte, result]
      cases flag : oneBack.isActive with
      | true =>
        -- The walk stops at once, at the tip.
        have same : ancestor = oneBack := by
          have here : engine.activeAncestor rows (walkLimit oneBack) oneBack = .ok (some oneBack) := by simp [LiveEngine.activeAncestor, walkLimit, flag]
          rw [here] at result
          simpa using result.symm
        have empty : branch = [] := by
          cases branch with
          | nil => rfl
          | cons first rest =>
            obtain rfl : first = oneBack := by simpa using head
            have inactive := walked.inactive first (by simp)
            rw [flag] at inactive
            exact (Bool.true_eq_false_eq_False inactive).elim
        subst same empty
        have stay : engine.reorganize ancestor ancestor rows = (.ok [], rows) := by simp [LiveEngine.reorganize]
        simp only [stay, plain]
        have fork : tip :: older = [] ++ ancestor :: older := by rw [atTip active flag, nil_append]
        have ahead : ReportedAfter rows tip older ancestor newHeader _ := .ahead [] ancestor [] older active walked rfl fork
        simp only [comparedResult, forkDepth, active, flag, map_nil] at ahead
        exact ahead
      | false =>
        obtain ⟨deactivated, rest, fork⟩ :=
          append_of_mem ((chain.members ancestor).mpr ⟨walked.stored _ (by simp), walked.active⟩)
        have cleared : ∀ table, (if oneBack.isChainTip then engine.clearChainTip table oneBack else table) =
            if oneBack.isChainTip then table.update oneBack.headerId fun row => { row with isChainTip := false } else table := by
          intro table
          by_cases tipFlag : oneBack.isChainTip = true
          · rw [if_pos tipFlag, if_pos tipFlag, clears active flag tipFlag (by simp [result])]
          · rw [if_neg tipFlag, if_neg tipFlag]
        simp only [reorganize_eq exact tree chain walked head fork flag, cleared, map_flagged _ _ tree.distinct mine]
        have ahead : ReportedAfter rows tip older oneBack newHeader _ := .ahead branch ancestor deactivated rest active walked head fork
        simp only [comparedResult, forkDepth, active, flag] at ahead
        exact ahead

end

section
variable {rows : LiveTable} {tip oneBack newHeader : LiveBlockHeader} {older : List LiveBlockHeader}

theorem mem_grown :
    header ∈ rows.map flags ++ [newHeader] ↔ (∃ row ∈ rows, flags row = header) ∨ header = newHeader := by
  simp

/-- Links, hashes and work do not depend on flags. -/
theorem LiveTree.grow (tree : LiveTree rows) (mine : oneBack ∈ rows) (fresh : ∀ row ∈ rows, row.headerId < newHeader.headerId)
    (unknown : ∀ row ∈ rows, row.hash ≠ newHeader.hash) (previous : newHeader.previousHeaderId = some oneBack.headerId)
    (continues : Continues newHeader oneBack) (deactivated branch : List Nat) :
    LiveTree (rows.map (flagged deactivated branch oneBack.headerId) ++ [newHeader]) where
  distinct := by
    have apart : newHeader.headerId ∉ rows.map (·.headerId) := by
      intro listed
      obtain ⟨row, its, same⟩ := mem_map.mp listed
      exact (fresh row its).ne same
    have ids : (rows.map (flagged deactivated branch oneBack.headerId) ++ [newHeader]).map (·.headerId) = rows.map (·.headerId) ++ [newHeader.headerId] := by
      simp [Function.comp_def, flagged]
    unfold LiveTable.Distinct
    rw [ids]
    exact tree.distinct.append (nodup_singleton _) (disjoint_singleton.mpr apart)
  hashes := by
    have apart : newHeader.hash ∉ rows.map (·.hash) := by
      intro listed
      obtain ⟨row, its, same⟩ := mem_map.mp listed
      exact unknown row its same
    have hashes : (rows.map (flagged deactivated branch oneBack.headerId) ++ [newHeader]).map (·.hash) = rows.map (·.hash) ++ [newHeader.hash] := by
      simp [Function.comp_def, flagged]
    rw [hashes]
    exact tree.hashes.append (nodup_singleton _) (disjoint_singleton.mpr apart)
  linked := by
    intro header member id link
    cases mem_grown.mp member with
    | inl old =>
      obtain ⟨row, its, rfl⟩ := old
      obtain ⟨parent, stored, same, smaller, follows⟩ := tree.linked row its id link
      exact ⟨_, mem_grown.mpr (.inl ⟨parent, stored, rfl⟩), same, smaller, follows⟩
    | inr last =>
      subst last
      rw [previous] at link
      exact ⟨_, mem_grown.mpr (.inl ⟨oneBack, mine, rfl⟩), Option.some.inj link, fresh oneBack mine, continues⟩
  surpassed := by
    intro header member parent stored link
    cases mem_grown.mp member with
    | inl old =>
      obtain ⟨row, its, rfl⟩ := old
      cases mem_grown.mp stored with
      | inl before =>
        obtain ⟨one, its', rfl⟩ := before
        have this := tree.surpassed row its one its' link
        simp [flagged, this]
      | inr last =>
        subst last
        obtain ⟨one, its', same, _⟩ := tree.linked row its _ link
        exact absurd same (fresh one its').ne
    | inr last =>
      subst last
      rw [previous] at link
      cases mem_grown.mp stored with
      | inl before =>
        obtain ⟨one, _, rfl⟩ := before
        have same : one.headerId = oneBack.headerId := (Option.some.inj link).symm
        simp [flagged, same]
      | inr last =>
        subst last
        exact absurd (Option.some.inj link) (fresh oneBack mine).ne

theorem isChain_flagged {path : List LiveBlockHeader} (linked : path.IsChain Follows) (deactivated branch) (id : Nat) :
    (path.map (flagged deactivated branch id)).IsChain Follows :=
  (isChain_map _).mpr linked

theorem ActiveChain.behind (tree : LiveTree rows) (chain : ActiveChain rows tip older) (inactive : newHeader.isActive = false)
    (mine : oneBack ∈ rows) (other : oneBack ≠ tip) (light : newHeader.chainWork ≤ tip.chainWork) :
    ActiveChain (rows.map (flagged [] [] oneBack.headerId) ++ [newHeader]) (flagged [] [] oneBack.headerId tip)
      (older.map (flagged [] [] oneBack.headerId)) where
  linked := isChain_flagged chain.linked [] [] oneBack.headerId
  members := by
    intro header
    have mapped : header ∈ flagged [] [] oneBack.headerId tip :: older.map (flagged [] [] oneBack.headerId) ↔
        ∃ row ∈ tip :: older, flagged [] [] oneBack.headerId row = header := mem_map (l := tip :: older)
    rw [mapped, mem_grown]
    constructor
    · intro ⟨row, member, same⟩
      subst same
      have both := (chain.members row).mp member
      exact ⟨.inl ⟨row, both.1, rfl⟩, by simp [flagged, both.2]⟩
    · intro ⟨stored, active⟩
      cases stored with
      | inl old =>
        obtain ⟨row, its, rfl⟩ := old
        exact ⟨row, (chain.members row).mpr ⟨its, by simpa [flagged] using active⟩, rfl⟩
      | inr last =>
        subst last
        rw [inactive] at active
        contradiction
  chainTip := by
    have apart : tip.headerId ≠ oneBack.headerId := fun same => other (tree.distinct.eq mine (chain.stored (by simp)) same.symm)
    simp [flagged, chain.chainTip, apart]
  rooted := by
    obtain ⟨root, last, top⟩ := chain.rooted
    refine ⟨flagged [] [] oneBack.headerId root, ?_, top⟩
    have mapped : (flagged [] [] oneBack.headerId tip :: older.map (flagged [] [] oneBack.headerId)).getLast? =
        (tip :: older).getLast?.map (flagged [] [] oneBack.headerId) := getLast?_map (l := tip :: older)
    rw [mapped, last]
    rfl
  heaviest := by
    intro header member
    cases mem_grown.mp member with
    | inl old =>
      obtain ⟨row, its, rfl⟩ := old
      exact chain.heaviest row its
    | inr last =>
      subst last
      exact light

theorem ActiveChain.ahead (tree : LiveTree rows) (chain : ActiveChain rows tip older)
    {ancestor} (walked : Branch rows branch ancestor) (head : (branch ++ [ancestor]).head? = some oneBack)
    (fork : tip :: older = deactivated ++ ancestor :: rest) (active : newHeader.isActive = true) (isTip : newHeader.isChainTip = true)
    (follows : Follows newHeader oneBack) (heavy : tip.chainWork < newHeader.chainWork) :
    ActiveChain (rows.map (flagged (deactivated.map (·.headerId)) (branch.map (·.headerId)) oneBack.headerId) ++ [newHeader]) newHeader
      ((branch ++ ancestor :: rest).map (flagged (deactivated.map (·.headerId)) (branch.map (·.headerId)) oneBack.headerId)) := by
  have kept : ∀ header ∈ ancestor :: rest, header ∈ rows ∧ header.isActive = true := fun header member =>
    (chain.members header).mp (fork ▸ mem_append_right _ member)
  have shape : branch ++ ancestor :: rest = branch ++ [ancestor] ++ rest := by simp
  have below : (ancestor :: rest).IsChain Follows := by
    have this := chain.linked
    rw [fork] at this
    exact this.right_of_append
  -- What stays active is below what is deactivated.
  have order : ∀ header ∈ deactivated, ∀ other ∈ ancestor :: rest, other.headerId < header.headerId := by
    have this := falls chain.linked
    rw [fork] at this
    exact (pairwise_append.mp this).2.2
  have listed : ∀ {path : List LiveBlockHeader}, (∀ header ∈ path, header ∈ rows) → ∀ row ∈ rows, row.headerId ∈ path.map (·.headerId) → row ∈ path := by
    intro path stored row its member
    obtain ⟨other, onPath, same⟩ := mem_map.mp member
    exact tree.distinct.eq (stored other onPath) its same ▸ onPath
  constructor
  · have whole : (branch ++ ancestor :: rest).IsChain Follows := by
      rw [shape]
      exact walked.linked.append_overlap below (by simp)
    cases path : branch ++ ancestor :: rest with
    | nil => simp at path
    | cons first others =>
      have top : first = oneBack := by
        cases branch with
        | nil =>
          obtain rfl : ancestor = oneBack := by simpa using head
          exact (cons.inj path).1.symm
        | cons header branch =>
          obtain rfl : header = oneBack := by simpa using head
          exact (cons.inj path).1.symm
      rw [path] at whole
      subst top
      rw [map_cons]
      exact isChain_cons_cons.mpr ⟨follows, isChain_flagged whole _ _ _⟩
  · intro header
    rw [mem_grown, mem_cons, mem_map]
    constructor
    · intro member
      cases member with
      | inl new => exact ⟨.inr new, new ▸ active⟩
      | inr old =>
        obtain ⟨row, onPath, rfl⟩ := old
        cases mem_append.mp onPath with
        | inl raised =>
          refine ⟨.inl ⟨row, walked.stored row (by simp [raised]), rfl⟩, ?_⟩
          have this : row.headerId ∈ branch.map (·.headerId) := mem_map_of_mem raised
          simp only [flagged, decide_eq_true this, Bool.or_true]
        | inr stays =>
          refine ⟨.inl ⟨row, (kept row stays).1, rfl⟩, ?_⟩
          have apart : row.headerId ∉ deactivated.map (·.headerId) := by
            intro member
            obtain ⟨other, its, same⟩ := mem_map.mp member
            exact (order other its row stays).ne same.symm
          simp only [flagged, (kept row stays).2, decide_eq_true apart, Bool.and_self, Bool.true_or]
    · intro ⟨stored, raised⟩
      cases stored with
      | inr new => exact .inl new
      | inl old =>
        obtain ⟨row, its, rfl⟩ := old
        refine .inr ⟨row, ?_, rfl⟩
        simp only [flagged, Bool.or_eq_true, Bool.and_eq_true, decide_eq_true_eq] at raised
        cases raised with
        | inr onBranch => exact mem_append_left _ (listed (fun header member => walked.stored header (by simp [member])) row its onBranch)
        | inl stays =>
          have member := (chain.members row).mpr ⟨its, stays.1⟩
          rw [fork] at member
          cases mem_append.mp member with
          | inl gone => exact absurd (mem_map_of_mem gone) stays.2
          | inr below => exact mem_append_right _ below
  · exact isTip
  · obtain ⟨root, last, top⟩ := chain.rooted
    rw [fork, getLast?_append_cons] at last
    refine ⟨flagged (deactivated.map (·.headerId)) (branch.map (·.headerId)) oneBack.headerId root, ?_, top⟩
    have bottom : (newHeader :: (branch ++ ancestor :: rest).map (flagged (deactivated.map (·.headerId)) (branch.map (·.headerId)) oneBack.headerId)).getLast? =
        ((ancestor :: rest).map (flagged (deactivated.map (·.headerId)) (branch.map (·.headerId)) oneBack.headerId)).getLast? := by
      rw [map_append, map_cons, ← cons_append, getLast?_append_cons]
    rw [bottom, getLast?_map, last]
    rfl
  · intro header member
    cases mem_grown.mp member with
    | inl old =>
      obtain ⟨row, its, rfl⟩ := old
      exact (chain.heaviest row its).trans heavy.le
    | inr new => rw [new]

end

end WalletToolbox.Chaintracks
