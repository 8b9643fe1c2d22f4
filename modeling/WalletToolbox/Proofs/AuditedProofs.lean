import Mathlib.Data.List.Nodup
import WalletToolbox.Monitor.TaskReviewProvenTxs

/-! What the audit of stored proofs covers. Where no row lies below the first one, every header
is there and every new proof is another one, the stale rows of all heights are seen to. -/

namespace WalletToolbox
open Chaintracks WalletStorageManager Effects List

namespace AuditRun

def Covered (run : AuditRun) : Prop :=
  ∀ reviewedThroughHeight ∈ run.events, ∀ row ∈ run.owed, row.height ≤ reviewedThroughHeight → row ∈ run.reported

/-- No row lies below the height that a run starts from, the header of a height is there, and no
new proof is based on the block of the old one. -/
def Undisturbed (task : TaskReviewProvenTxs) (run : AuditRun) (event : AuditEvent) : Prop :=
  ∀ audit, run.audit = some audit →
    match audit.phase, event with
    | .first maxEligibleHeight, .foundFirst =>
      firstHeight run.table ≤ endHeight task (firstHeight run.table) maxEligibleHeight → ∀ row ∈ run.table.rows, firstHeight run.table ≤ row.height
    | .header, .foundHeader available => available = true ∧ run.chain[audit.height]? ≠ none
    | .proving _ _ _, .reproved reproven => reproven ≠ .unchanged
    | _, _ => True

structure Stored (table : ProvenTable) (rows : List TableProvenTx) : Prop where
  nodup : rows.Nodup
  stored : ∀ row ∈ rows, row ∈ table.rows

structure Base (run : AuditRun) : Prop where
  stale : ∀ row ∈ run.owed, isStale run.chain row = true
  stored : ∀ row ∈ run.owed, row ∈ run.reported ∨ row ∈ run.table.rows
  covered : run.Covered
  newest : ∀ first rest, run.events = first :: rest → ∀ through ∈ rest, through ≤ first

def Done (run : AuditRun) (audit : Audit) (row : TableProvenTx) : Prop :=
  row ∈ run.reported ∨ row ∈ audit.unavailable ∨ row ∈ audit.r.unavailable

structure Going (run : AuditRun) (audit : Audit) : Prop where
  inside : audit.height ≤ audit.maxHeight
  after : ∀ through ∈ run.events, through < audit.height
  below : ∀ row ∈ run.owed, row.height < audit.height → Done run audit row

def Owing (run : AuditRun) (audit : Audit) (pending : List TableProvenTx) (staleRoots : List String) : Prop :=
  ∀ row ∈ run.owed, row.height = audit.height → Done run audit row ∨ row ∈ run.table.rows ∧ row.merkleRoot ∈ staleRoots ∨ row ∈ pending

def Fresh (audit : Audit) : Prop := audit.r.updated = [] ∧ audit.r.unavailable = []

def Standing (run : AuditRun) (audit : Audit) : Prop :=
  match audit.phase with
  | .tip | .history _ => True
  | .first _ => run.events = []
  | .header => Going run audit ∧ Fresh audit
  | .stale merkleRoot => Going run audit ∧ Fresh audit ∧ run.chain[audit.height]? = some merkleRoot
  | .finding staleRoot staleRoots => Going run audit ∧ Fresh audit ∧ Owing run audit [] (staleRoot :: staleRoots)
  | .proving ptx left staleRoots =>
    Going run audit ∧ Owing run audit (audit.r.updated.map (·.1) ++ ptx :: left) staleRoots ∧
      Stored run.table (audit.r.updated.map (·.1) ++ ptx :: left)
  | .updating next left staleRoots =>
    Going run audit ∧ Owing run audit ((next :: left).map (·.1)) staleRoots ∧ Stored run.table ((next :: left).map (·.1))
  | .logging => (∀ through ∈ run.events, through < audit.maxHeight + 1) ∧ ∀ row ∈ run.owed, row.height ≤ audit.maxHeight →
      row ∈ run.reported ∨ row ∈ audit.unavailable

structure Kept (run : AuditRun) : Prop where
  base : Base run
  standing : ∀ audit, run.audit = some audit → Standing run audit

section
variable {task : TaskReviewProvenTxs} {run next : AuditRun} {audit : Audit} {pending : List TableProvenTx} {staleRoots : List String}

theorem Kept.idle (base : Base run) (none : run.audit = none) : Kept run :=
  ⟨base, fun audit is => by rw [none] at is; cases is⟩

theorem Kept.at' (base : Base run) (is : run.audit = some audit) (standing : Standing run audit) : Kept run :=
  ⟨base, fun other same => by cases is.symm.trans same; exact standing⟩

theorem Base.withAudit (base : Base run) (audit) : Base { run with audit } := ⟨base.stale, base.stored, base.covered, base.newest⟩

theorem Kept.nextHeight (base : Base run) (going : Going run audit) (fresh : Fresh audit) (owing : Owing run audit [] []) :
    Kept (run.nextHeight audit) := by
  have done : ∀ row ∈ run.owed, row.height ≤ audit.height → Done run audit row := by
    intro row member le
    rcases Nat.lt_or_eq_of_le le with low | same
    · exact going.below row member low
    · rcases owing row member same with done | ⟨-, none⟩ | none
      · exact done
      · cases none
      · cases none
  unfold AuditRun.nextHeight
  split
  next more =>
    refine .at' (base.withAudit _) rfl ⟨⟨more, ?_, ?_⟩, fresh⟩
    · intro through member
      exact Nat.lt_succ_of_lt (going.after through member)
    · intro row member low
      exact done row member (Nat.le_of_lt_succ low)
  next last =>
    have same := Nat.le_antisymm going.inside (Nat.le_of_not_lt last)
    refine .at' (base.withAudit _) rfl ⟨?_, ?_⟩
    · intro through member
      have before := going.after through member
      show through < audit.maxHeight + 1
      omega
    · intro row member le
      rcases done row member (same ▸ le) with reported | unavailable | here
      · exact .inl reported
      · exact .inr unavailable
      · rw [fresh.2] at here
        cases here

theorem Kept.nextRoot (base : Base run) (going : Going run audit) (fresh : Fresh audit) (owing : Owing run audit [] staleRoots) :
    Kept (run.nextRoot audit staleRoots) := by
  cases staleRoots with
  | nil => exact .nextHeight base going fresh owing
  | cons staleRoot rest => exact .at' (base.withAudit _) rfl ⟨⟨going.inside, going.after, going.below⟩, fresh, owing⟩

theorem Kept.goUpdating (base : Base run) (going : Going run audit)
    (owing : Owing run audit (left.map (·.1)) staleRoots) (stored : Stored run.table (left.map (·.1))) :
    Kept (run.goUpdating audit left staleRoots) := by
  cases left with
  | cons entry rest => exact .at' (base.withAudit _) rfl ⟨⟨going.inside, going.after, going.below⟩, owing, stored⟩
  | nil =>
    have done : ∀ {row : TableProvenTx}, Done run audit row →
        Done run { audit with unavailable := audit.unavailable ++ audit.r.unavailable, r := {} } row := by
      rintro row (reported | unavailable | here)
      · exact .inl reported
      · exact .inr (.inl (mem_append_left _ unavailable))
      · exact .inr (.inl (mem_append_right _ here))
    refine .nextRoot base ⟨going.inside, going.after, fun row member low => done (going.below row member low)⟩ ⟨rfl, rfl⟩ ?_
    intro row member same
    rcases owing row member same with here | root | none
    · exact .inl (done here)
    · exact .inr (.inl root)
    · cases none

theorem Kept.goProving (base : Base run) (going : Going run audit)
    (owing : Owing run audit (audit.r.updated.map (·.1) ++ left) staleRoots) (stored : Stored run.table (audit.r.updated.map (·.1) ++ left)) :
    Kept (run.goProving audit left staleRoots) := by
  cases left with
  | nil =>
    rw [append_nil] at owing stored
    exact .goUpdating base going owing stored
  | cons ptx rest => exact .at' (base.withAudit _) rfl ⟨⟨going.inside, going.after, going.below⟩, owing, stored⟩

theorem isStale_root {chain row merkleRoot} (stale : isStale chain row = true)
    (is : chain[row.height]? = some merkleRoot) : row.merkleRoot ≠ merkleRoot := by
  rw [isStale, is] at stale
  have ne := of_decide_eq_true stale
  exact fun same => ne same.symm

theorem Kept.begin (base : Base run)
    (after : ∀ through ∈ run.events, through < startHeight) (below : ∀ row ∈ run.owed, row.height < startHeight → startHeight ≤ endHeight task startHeight maxEligibleHeight → row ∈ run.reported) :
    Kept (run.begin task startHeight maxEligibleHeight) := by
  unfold AuditRun.begin
  split
  next => exact .idle (base.withAudit _) rfl
  next some =>
    refine .at' (base.withAudit _) rfl ⟨⟨?_, after, ?_⟩, rfl, rfl⟩
    · show startHeight ≤ (endHeight task startHeight maxEligibleHeight).toNat
      omega
    · intro row member low
      exact .inl (below row member low (by omega))

theorem Base.owe (base : Base run) {rows} (stale : ∀ row ∈ rows, isStale run.chain row = true)
    (stored : ∀ row ∈ rows, row ∈ run.table.rows) (after : ∀ row ∈ rows, ∀ through ∈ run.events, through < row.height) :
    Base { run with owed := run.owed ++ rows } := by
  refine ⟨?_, ?_, ?_, base.newest⟩
  · intro row member
    rcases mem_append.mp member with old | new
    · exact base.stale row old
    · exact stale row new
  · intro row member
    rcases mem_append.mp member with old | new
    · exact base.stored row old
    · exact .inr (stored row new)
  · intro through inside row member le
    rcases mem_append.mp member with old | new
    · exact base.covered through inside row old le
    · exact absurd le (Nat.not_le_of_lt (after row new through inside))

theorem mem_staleRows {table : ProvenTable} :
    row ∈ table.staleRows height merkleRoot ↔ row ∈ table.rows ∧ row.height = height ∧ row.merkleRoot ≠ merkleRoot := by
  rw [ProvenTable.staleRows, mem_filter, decide_eq_true_eq]

theorem Kept.foundStale (base : Base run) (going : Going run audit) (fresh : Fresh audit)
    (is : run.chain[audit.height]? = some merkleRoot) :
    Kept (AuditRun.nextRoot audit (run.table.findStaleMerkleRoots audit.height merkleRoot)
      { run with owed := run.owed ++ run.table.staleRows audit.height merkleRoot }) := by
  have owes := @Base.owe run base (run.table.staleRows audit.height merkleRoot) ?_ ?_ ?_
  · apply Kept.nextRoot owes ⟨going.inside, going.after, ?_⟩ fresh
    · intro row member same
      have there : row ∈ run.reported ∨ row ∈ run.table.staleRows audit.height merkleRoot := by
        rcases mem_append.mp member with old | new
        · rcases base.stored row old with reported | stored
          · exact .inl reported
          · exact .inr (mem_staleRows.mpr ⟨stored, same, isStale_root (base.stale row old) (same ▸ is)⟩)
        · exact .inr new
      rcases there with reported | stale
      · exact .inl (.inl reported)
      · refine .inr (.inl ⟨(mem_staleRows.mp stale).1, ?_⟩)
        rw [ProvenTable.findStaleMerkleRoots, mem_eraseDups]
        exact mem_map_of_mem stale
    · intro row member low
      rcases mem_append.mp member with old | new
      · exact going.below row old low
      · have same := (mem_staleRows.mp new).2.1
        omega
  · intro row member
    obtain ⟨-, same, ne⟩ := mem_staleRows.mp member
    rw [isStale, same, is]
    exact decide_eq_true ne.symm
  · exact fun row member => (mem_staleRows.mp member).1
  · intro row member through inside
    rw [(mem_staleRows.mp member).2.1]
    exact going.after through inside

theorem rows_nodup (table : ProvenTable) : table.rows.Nodup :=
  table.ordered.imp fun less same => by rw [same] at less; exact Nat.lt_irrefl _ less

theorem eq_of_id {table : ProvenTable} (inside : first ∈ table.rows) (there : second ∈ table.rows)
    (same : first.provenTxId = second.provenTxId) : first = second :=
  inj_on_of_nodup_map (pairwise_map.mpr (table.ordered.imp Nat.ne_of_lt)) inside there same

theorem Kept.foundRows (base : Base run) (going : Going run audit) (fresh : Fresh audit)
    (owing : Owing run audit [] (staleRoot :: staleRoots)) :
    Kept (run.goProving audit (run.table.rows.filter fun row => row.height = audit.height ∧ row.merkleRoot = staleRoot) staleRoots) := by
  refine .goProving base going ?_ ?_
  · rw [fresh.1]
    intro row member same
    rcases owing row member same with done | ⟨stored, root⟩ | none
    · exact .inl done
    · rcases mem_cons.mp root with here | later
      · exact .inr (.inr (mem_filter.mpr ⟨stored, decide_eq_true ⟨same, here⟩⟩))
      · exact .inr (.inl ⟨stored, later⟩)
    · cases none
  · rw [fresh.1]
    exact ⟨(rows_nodup run.table).filter _, fun row member => (mem_filter.mp member).1⟩

theorem Kept.reproved (base : Base run) (going : Going run audit)
    (owing : Owing run audit (audit.r.updated.map (·.1) ++ ptx :: left) staleRoots)
    (stored : Stored run.table (audit.r.updated.map (·.1) ++ ptx :: left)) (changed : reproven ≠ .unchanged) :
    Kept (run.goProving { audit with r := audit.r.add ptx reproven } left staleRoots) := by
  cases reproven with
  | unchanged => exact absurd rfl changed
  | updated update =>
    have same : (audit.r.add ptx (.updated update)).updated.map (·.1) ++ left = audit.r.updated.map (·.1) ++ ptx :: left := by
      simp [ReproveHeaderResult.add]
    refine .goProving base ⟨going.inside, going.after, going.below⟩ ?_ ?_
    · show Owing run _ ((audit.r.add ptx (.updated update)).updated.map (·.1) ++ left) staleRoots
      rw [same]
      exact owing
    · show Stored run.table ((audit.r.add ptx (.updated update)).updated.map (·.1) ++ left)
      rw [same]
      exact stored
  | unavailable =>
    have done : ∀ {row : TableProvenTx}, Done run audit row → Done run { audit with r := audit.r.add ptx .unavailable } row := by
      rintro row (reported | unavailable | here)
      · exact .inl reported
      · exact .inr (.inl unavailable)
      · exact .inr (.inr (mem_append_left _ here))
    refine .goProving base ⟨going.inside, going.after, fun row member low => done (going.below row member low)⟩ ?_ ?_
    · intro row member same
      rcases owing row member same with here | root | listed
      · exact .inl (done here)
      · exact .inr (.inl root)
      · rcases mem_append.mp listed with before | after
        · exact .inr (.inr (mem_append_left _ before))
        · rcases mem_cons.mp after with rfl | later
          · exact .inl (.inr (.inr (mem_append_right _ (.head _))))
          · exact .inr (.inr (mem_append_right _ later))
    · have fewer : (audit.r.updated.map (·.1) ++ left).Sublist (audit.r.updated.map (·.1) ++ ptx :: left) := (sublist_cons_self ..).append_left _
      exact ⟨stored.nodup.sublist fewer, fun row member => stored.stored row (fewer.subset member)⟩

theorem Kept.updated (base : Base run) (going : Going run audit)
    (owing : Owing run audit ((entry :: left).map (·.1)) staleRoots) (stored : Stored run.table ((entry :: left).map (·.1))) :
    Kept (AuditRun.goUpdating audit left staleRoots { run with table := run.table.updateProvenTx entry, reported := run.reported ++ [entry.1] }) := by
  have stays : ∀ {row : TableProvenTx}, row ∈ run.table.rows → row = entry.1 ∨ row ∈ (run.table.updateProvenTx entry).rows := by
    intro row there
    by_cases same : row.provenTxId = entry.1.provenTxId
    · exact .inl (eq_of_id there (stored.stored entry.1 (.head _)) same)
    · refine .inr (mem_map.mpr ⟨row, there, ?_⟩)
      rw [ProvenTable.updated, if_neg same]
  have done : ∀ {row : TableProvenTx}, Done run audit row →
      Done { run with table := run.table.updateProvenTx entry, reported := run.reported ++ [entry.1] } audit row := by
    rintro row (reported | later)
    · exact .inl (mem_append_left _ reported)
    · exact .inr later
  have settled : Base { run with table := run.table.updateProvenTx entry, reported := run.reported ++ [entry.1] } := by
    refine ⟨base.stale, ?_, ?_, base.newest⟩
    · intro row member
      rcases base.stored row member with reported | there
      · exact .inl (mem_append_left _ reported)
      · rcases stays there with rfl | still
        · exact .inl (mem_append_right _ (.head _))
        · exact .inr still
    · intro through inside row member le
      exact mem_append_left _ (base.covered through inside row member le)
  refine .goUpdating settled ⟨going.inside, going.after, fun row member low => done (going.below row member low)⟩ ?_ ?_
  · intro row member same
    rcases owing row member same with here | ⟨there, root⟩ | listed
    · exact .inl (done here)
    · rcases stays there with rfl | still
      · exact .inl (.inl (mem_append_right _ (.head _)))
      · exact .inr (.inl ⟨still, root⟩)
    · rcases mem_cons.mp listed with rfl | later
      · exact .inl (.inl (mem_append_right _ (.head _)))
      · exact .inr (.inr later)
  · obtain ⟨new, nodup⟩ := nodup_cons.mp stored.nodup
    refine ⟨nodup, fun row member => ?_⟩
    rcases stays (stored.stored row (.tail _ member)) with rfl | still
    · exact absurd member new
    · exact still

theorem isStale_grown {chain row} (merkleRoot : String) (stale : isStale chain row = true) :
    isStale (chain ++ [merkleRoot]) row = true := by
  unfold isStale at stale ⊢
  cases is : chain[row.height]? with
  | none =>
    rw [is] at stale
    cases stale
  | some root =>
    rw [List.getElem?_append_left (List.getElem?_eq_some_iff.mp is).1, is]
    rw [is] at stale
    exact stale

theorem Kept.grown (kept : run.Kept) (merkleRoot : String) : Kept { run with chain := run.chain ++ [merkleRoot] } := by
  refine ⟨⟨fun row member => isStale_grown merkleRoot (kept.base.stale row member), kept.base.stored, kept.base.covered, kept.base.newest⟩, ?_⟩
  intro audit is
  have standing := kept.standing audit is
  unfold Standing at standing ⊢
  split <;> rename_i phase <;> rw [phase] at standing
  · trivial
  · trivial
  · exact standing
  · exact ⟨⟨standing.1.inside, standing.1.after, standing.1.below⟩, standing.2⟩
  · obtain ⟨going, fresh, there⟩ := standing
    refine ⟨⟨going.inside, going.after, going.below⟩, fresh, ?_⟩
    rw [List.getElem?_append_left (List.getElem?_eq_some_iff.mp there).1]
    exact there
  · exact ⟨⟨standing.1.inside, standing.1.after, standing.1.below⟩, standing.2.1, standing.2.2⟩
  · exact ⟨⟨standing.1.inside, standing.1.after, standing.1.below⟩, standing.2.1, standing.2.2⟩
  · exact ⟨⟨standing.1.inside, standing.1.after, standing.1.below⟩, standing.2.1, standing.2.2⟩
  · exact standing

theorem Kept.inserted {row table} (kept : run.Kept) (inserted : run.table.insert row = some table) :
    Kept { run with table } := by
  have stays : ∀ {other : TableProvenTx}, other ∈ run.table.rows → other ∈ table.rows := by
    intro other there
    unfold ProvenTable.insert at inserted
    split at inserted
    · cases inserted
      exact mem_append_left _ there
    · cases inserted
  have owing : ∀ {audit : Audit} {pending : List TableProvenTx} {staleRoots : List String}, Owing run audit pending staleRoots →
      Owing { run with table } audit pending staleRoots := by
    intro audit pending staleRoots owing other member same
    rcases owing other member same with done | ⟨there, root⟩ | listed
    · exact .inl done
    · exact .inr (.inl ⟨stays there, root⟩)
    · exact .inr (.inr listed)
  refine ⟨⟨kept.base.stale, ?_, kept.base.covered, kept.base.newest⟩, ?_⟩
  · intro other member
    exact (kept.base.stored other member).imp_right stays
  · intro audit is
    have standing := kept.standing audit is
    unfold Standing at standing ⊢
    split <;> rename_i phase <;> rw [phase] at standing
    · trivial
    · trivial
    · exact standing
    · exact ⟨⟨standing.1.inside, standing.1.after, standing.1.below⟩, standing.2⟩
    · exact ⟨⟨standing.1.inside, standing.1.after, standing.1.below⟩, standing.2⟩
    · exact ⟨⟨standing.1.inside, standing.1.after, standing.1.below⟩, standing.2.1, owing standing.2.2⟩
    · obtain ⟨going, owes, stored⟩ := standing
      exact ⟨⟨going.inside, going.after, going.below⟩, owing owes, stored.nodup, fun other member => stays (stored.stored other member)⟩
    · obtain ⟨going, owes, stored⟩ := standing
      exact ⟨⟨going.inside, going.after, going.below⟩, owing owes, stored.nodup, fun other member => stays (stored.stored other member)⟩
    · exact standing

theorem Kept.foundFirst (base : Base run) (none : run.events = [])
    (low : firstHeight run.table ≤ endHeight task (firstHeight run.table) maxEligibleHeight → ∀ row ∈ run.table.rows, firstHeight run.table ≤ row.height) :
    Kept (AuditRun.begin task (firstHeight run.table) maxEligibleHeight { run with
      owed := run.owed ++ if firstHeight run.table > endHeight task (firstHeight run.table) maxEligibleHeight then []
        else run.table.rows.filter fun row => row.height < firstHeight run.table ∧ isStale run.chain row }) := by
  have nothing : (if firstHeight run.table > endHeight task (firstHeight run.table) maxEligibleHeight then []
      else run.table.rows.filter fun row => row.height < firstHeight run.table ∧ isStale run.chain row) = [] := by
    split
    · rfl
    next some =>
      apply filter_eq_nil_iff.mpr
      intro row member
      rw [decide_eq_true_eq]
      rintro ⟨below, -⟩
      have above := low (by omega) row member
      omega
  rw [nothing, append_nil]
  refine .begin base ?_ ?_
  · intro through member
    rw [none] at member
    cases member
  · intro row member below some
    rcases base.stored row member with reported | there
    · exact reported
    · have above := low some row there
      omega

theorem Kept.answer (kept : run.Kept) (is : run.audit = some audit) (calm : run.Undisturbed task event)
    (answered : run.answer task audit audit.phase event = some next) : next.Kept := by
  have standing := kept.standing audit is
  replace calm := calm audit is
  have base := kept.base
  unfold Standing at standing
  unfold AuditRun.answer at answered
  split at answered
  next phase =>
    cases answered
    exact .at' (base.withAudit _) rfl trivial
  next phase =>
    split at answered
    next through rest events =>
      cases answered
      refine .begin base ?_ ?_
      · intro other member
        rw [events] at member
        rcases mem_cons.mp member with rfl | old
        · exact Nat.lt_succ_self _
        · exact Nat.lt_succ_of_le (base.newest through rest events other old)
      · intro row member below _
        exact base.covered through (events ▸ .head _) row member (Nat.le_of_lt_succ below)
    next events =>
      cases answered
      exact .at' (base.withAudit _) rfl events
  next phase =>
    rw [phase] at standing calm
    cases answered
    exact .foundFirst base standing calm
  next available phase =>
    rw [phase] at standing calm
    obtain ⟨rfl, there⟩ := calm
    split at answered
    next merkleRoot found =>
      cases answered
      exact .at' (base.withAudit _) rfl ⟨⟨standing.1.inside, standing.1.after, standing.1.below⟩, standing.2, found⟩
    next missing => exact absurd missing there
  next merkleRoot phase =>
    rw [phase] at standing
    cases answered
    exact .foundStale base standing.1 standing.2.1 standing.2.2
  next staleRoot staleRoots phase =>
    rw [phase] at standing
    cases answered
    exact .foundRows base standing.1 standing.2.1 standing.2.2
  next ptx left staleRoots reproven phase =>
    rw [phase] at standing calm
    cases answered
    exact .reproved base standing.1 standing.2.1 standing.2.2 calm
  next entry left staleRoots phase =>
    rw [phase] at standing
    cases answered
    exact .updated base standing.1 standing.2.1 standing.2.2
  next phase =>
    rw [phase] at standing
    obtain ⟨after, done⟩ := standing
    cases answered
    refine .idle ⟨base.stale, ?_, ?_, ?_⟩ rfl
    · intro row member
      exact (base.stored row member).imp_left fun reported => mem_append_left _ reported
    · intro through inside row member le
      rcases mem_cons.mp inside with rfl | old
      · exact mem_append.mpr (done row member le)
      · exact mem_append_left _ (base.covered through old row member le)
    · intro first rest events through member
      cases events
      exact Nat.le_of_lt_succ (after through member)
  next phase =>
    cases answered
    exact .idle (base.withAudit _) rfl
  next => cases answered

theorem Kept.step {event} (kept : run.Kept) (calm : run.Undisturbed task event) (stepped : run.step task event = some next) :
    next.Kept := by
  unfold AuditRun.step at stepped
  split at stepped
  next row =>
    obtain ⟨table, inserted, rfl⟩ := Option.map_eq_some_iff.mp stepped
    exact kept.inserted inserted
  next merkleRoot =>
    cases stepped
    exact kept.grown merkleRoot
  next =>
    split at stepped
    · cases stepped
    · cases stepped
      exact .at' (kept.base.withAudit _) rfl trivial
  next =>
    split at stepped
    · cases stepped
      exact .idle (kept.base.withAudit _) rfl
    · cases stepped
  next =>
    split at stepped
    next audit is => exact kept.answer is calm stepped
    next => cases stepped

theorem Kept.new (table) (chain) : Kept { table, chain } := by
  refine .idle ⟨?_, ?_, ?_, ?_⟩ rfl
  · intro row member
    cases member
  · intro row member
    cases member
  · intro through member
    cases member
  · intro first rest events
    cases events

/-- Whatever a run's turn and end, no stale row is passed over. -/
theorem audit_covers_heights {table : ProvenTable} {chain : List String} {events : List AuditEvent} {last : AuditRun}
    (calm : EveryStep (AuditRun.step task) (Undisturbed task) { table, chain } events)
    (ran : runEvents (AuditRun.step task) { table, chain } events = some last) : last.Covered := by
  have kept : last.Kept := runEvents_keeps (fun _ _ _ kept condition stepped => kept.step condition stepped) (.new table chain) calm ran
  exact kept.base.covered

def auditedProof (provenTxId height : Nat) (merkleRoot : String) : TableProvenTx :=
  { provenTxId, txid := "ab", height, index := 0, merklePath := [], rawTx := [], blockHash := "block", merkleRoot }

def oneProof : ProvenTable where
  rows := [auditedProof 1 0 "old"]
  ordered := List.pairwise_singleton _ _

/-- The proof of a stale row is unavailable, and reported. -/
theorem audit_covers_heights_once :
    ((runEvents (AuditRun.step { maxHeightsPerRun := 1, minBlockAge := 0 }) { table := oneProof, chain := ["new"] }
      [.runTask, .currentHeight, .foundEvents, .foundFirst, .foundHeader true, .foundStale, .foundRows, .reproved .unavailable, .logged]).get
        (by decide +kernel)).Covered := by
  apply @audit_covers_heights { maxHeightsPerRun := 1, minBlockAge := 0 } oneProof ["new"]
    [.runTask, .currentHeight, .foundEvents, .foundFirst, .foundHeader true, .foundStale, .foundRows, .reproved .unavailable, .logged]
  · refine ⟨(fun _ is => nomatch is), fun _ stepped => ?_⟩
    cases stepped
    refine ⟨fun _ is => ?_, fun _ stepped => ?_⟩
    · cases is
      trivial
    cases stepped
    refine ⟨fun _ is => ?_, fun _ stepped => ?_⟩
    · cases is
      trivial
    cases stepped
    refine ⟨fun _ is => ?_, fun _ stepped => ?_⟩
    · cases is
      intro _ row _
      exact Nat.zero_le _
    cases stepped
    refine ⟨fun _ is => ?_, fun _ stepped => ?_⟩
    · cases is
      exact ⟨rfl, fun none => nomatch none⟩
    cases stepped
    refine ⟨fun _ is => ?_, fun _ stepped => ?_⟩
    · cases is
      trivial
    cases stepped
    refine ⟨fun _ is => ?_, fun _ stepped => ?_⟩
    · cases is
      trivial
    cases stepped
    refine ⟨fun _ is => ?_, fun _ stepped => ?_⟩
    · cases is
      exact fun same => nomatch same
    cases stepped
    refine ⟨fun _ is => ?_, fun _ _ => trivial⟩
    cases is
    trivial
  · exact (Option.some_get _).symm

/-- The first row that was inserted is not the lowest. -/
def lowerLater : ProvenTable where
  rows := [auditedProof 1 1 "new", auditedProof 2 0 "old"]
  ordered := by decide

/-- The row below the first one is passed over, and so is one whose header is not there. -/
theorem audit_passes_over :
    (¬((runEvents (AuditRun.step { maxHeightsPerRun := 1, minBlockAge := 0 }) { table := lowerLater, chain := ["root", "new"] }
      [.runTask, .currentHeight, .foundEvents, .foundFirst, .foundHeader true, .foundStale, .logged]).get (by decide +kernel)).Covered) ∧
      ¬((runEvents (AuditRun.step { maxHeightsPerRun := 1, minBlockAge := 0 }) { table := oneProof, chain := ["new"] }
        [.runTask, .currentHeight, .foundEvents, .foundFirst, .foundHeader false, .logged]).get (by decide +kernel)).Covered := by
  constructor
  · intro covered
    have reported := covered 1 (by decide +kernel) (auditedProof 2 0 "old") (by decide +kernel) (by decide)
    revert reported
    decide +kernel
  · intro covered
    have reported := covered 0 (by decide +kernel) (auditedProof 1 0 "old") (by decide +kernel) (by decide)
    revert reported
    decide +kernel

end
end AuditRun
end WalletToolbox
