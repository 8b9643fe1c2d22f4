import WalletToolbox.Monitor.TaskReorg

/-! The backup audit of stored proofs. A run goes up the heights from where the last one has
logged that it ended, and has the proofs replaced whose root is not that of the canonical
header. -/

namespace WalletToolbox
open Chaintracks WalletStorageManager

/-- The proofs as storage lists them, by their ids. -/
structure ProvenTable where
  rows : List TableProvenTx := []
  ordered : rows.Pairwise fun first second => first.provenTxId < second.provenTxId := by exact .nil

namespace ProvenTable

def insert (row : TableProvenTx) (table : ProvenTable) : Option ProvenTable :=
  if new : ∀ other ∈ table.rows, other.provenTxId < row.provenTxId then
    some {
      rows := table.rows ++ [row]
      ordered := List.pairwise_append.mpr ⟨table.ordered, List.pairwise_singleton _ _, fun other member _ last => by
        rw [List.mem_singleton.mp last]
        exact new other member⟩ }
  else none

def updated (entry : TableProvenTx × ProofUpdate) (row : TableProvenTx) : TableProvenTx :=
  if row.provenTxId = entry.1.provenTxId then entry.2.spread row else row

theorem updated_id (entry) (row) : (updated entry row).provenTxId = row.provenTxId := by
  unfold updated
  split
  · rfl
  · rfl

def updateProvenTx (entry : TableProvenTx × ProofUpdate) (table : ProvenTable) : ProvenTable where
  rows := table.rows.map (updated entry)
  ordered := List.pairwise_map.mpr (table.ordered.imp fun less => by rw [updated_id, updated_id]; exact less)

def staleRows (height : Nat) (merkleRoot : String) (table : ProvenTable) : List TableProvenTx :=
  table.rows.filter fun row => row.height = height ∧ row.merkleRoot ≠ merkleRoot

def findStaleMerkleRoots (height : Nat) (merkleRoot : String) (table : ProvenTable) : List String :=
  ((table.staleRows height merkleRoot).map (·.merkleRoot)).eraseDups

end ProvenTable

structure TaskReviewProvenTxs where
  maxHeightsPerRun : Nat := 100
  minBlockAge : Int := 100

/-- What a run awaits: the tip, the last events, the first proof, then for each height its
header, its stale roots, and for each of these the proofs, their new ones and the updates. -/
inductive AuditPhase where
  | tip
  | history (maxEligibleHeight : Int)
  | first (maxEligibleHeight : Int)
  | header
  | stale (merkleRoot : String)
  | finding (staleRoot : String) (staleRoots : List String)
  | proving (ptx : TableProvenTx) (left : List TableProvenTx) (staleRoots : List String)
  | updating (next : TableProvenTx × ProofUpdate) (left : List (TableProvenTx × ProofUpdate)) (staleRoots : List String)
  | logging

structure Audit where
  phase : AuditPhase := .tip
  height : Nat := 0
  maxHeight : Nat := 0
  r : ReproveHeaderResult := {}
  unavailable : List TableProvenTx := []

/-- The roots of the canonical chain by height, and what has been reviewed through, with the
newest event first. `owed` are the stale rows that were there when their height was passed,
and `reported` those that have been replaced or reported unavailable. -/
structure AuditRun where
  table : ProvenTable
  chain : List String
  events : List Nat := []
  audit : Option Audit := none
  owed : List TableProvenTx := []
  reported : List TableProvenTx := []

inductive AuditEvent where
  | runTask
  | currentHeight
  | foundEvents
  | foundFirst
  | foundHeader (available : Bool)
  | foundStale
  | foundRows
  | reproved (reproven : Reproven)
  | updated
  | logged
  | unlogged
  | failed
  | inserted (row : TableProvenTx)
  | grown (merkleRoot : String)

namespace AuditRun

def isStale (chain : List String) (row : TableProvenTx) : Bool :=
  match chain[row.height]? with
  | some merkleRoot => merkleRoot ≠ row.merkleRoot
  | none => false

def endHeight (task : TaskReviewProvenTxs) (startHeight : Nat) (maxEligibleHeight : Int) : Int :=
  min (startHeight + task.maxHeightsPerRun - 1) maxEligibleHeight

def begin (task : TaskReviewProvenTxs) (startHeight : Nat) (maxEligibleHeight : Int) (run : AuditRun) : AuditRun :=
  if startHeight > endHeight task startHeight maxEligibleHeight then { run with audit := none }
  else { run with audit := some { phase := .header, height := startHeight, maxHeight := (endHeight task startHeight maxEligibleHeight).toNat } }

def firstHeight (table : ProvenTable) : Nat :=
  match table.rows with
  | ptx :: _ => ptx.height
  | [] => 0

def nextHeight (audit : Audit) (run : AuditRun) : AuditRun :=
  if audit.height < audit.maxHeight then { run with audit := some { audit with phase := .header, height := audit.height + 1 } }
  else { run with audit := some { audit with phase := .logging } }

def nextRoot (audit : Audit) (staleRoots : List String) (run : AuditRun) : AuditRun :=
  match staleRoots with
  | staleRoot :: rest => { run with audit := some { audit with phase := .finding staleRoot rest } }
  | [] => nextHeight audit run

def goUpdating (audit : Audit) (left : List (TableProvenTx × ProofUpdate)) (staleRoots : List String) (run : AuditRun) : AuditRun :=
  match left with
  | next :: rest => { run with audit := some { audit with phase := .updating next rest staleRoots } }
  | [] => nextRoot { audit with unavailable := audit.unavailable ++ audit.r.unavailable, r := {} } staleRoots run

def goProving (audit : Audit) (left : List TableProvenTx) (staleRoots : List String) (run : AuditRun) : AuditRun :=
  match left with
  | ptx :: rest => { run with audit := some { audit with phase := .proving ptx rest staleRoots } }
  | [] => goUpdating audit audit.r.updated staleRoots run

def answer (task : TaskReviewProvenTxs) (run : AuditRun) (audit : Audit) : AuditPhase → AuditEvent → Option AuditRun
  | .tip, .currentHeight =>
    let tipHeight : Int := run.chain.length - 1
    some { run with audit := some { audit with phase := .history (tipHeight - task.minBlockAge) } }
  | .history maxEligibleHeight, .foundEvents =>
    match run.events with
    | reviewedThroughHeight :: _ => some (begin task (reviewedThroughHeight + 1) maxEligibleHeight run)
    | [] => some { run with audit := some { audit with phase := .first maxEligibleHeight } }
  | .first maxEligibleHeight, .foundFirst =>
    let startHeight := firstHeight run.table
    let below := if startHeight > endHeight task startHeight maxEligibleHeight then []
      else run.table.rows.filter fun row => row.height < startHeight ∧ isStale run.chain row
    some (begin task startHeight maxEligibleHeight { run with owed := run.owed ++ below })
  | .header, .foundHeader available =>
    match if available then run.chain[audit.height]? else none with
    | some merkleRoot => some { run with audit := some { audit with phase := .stale merkleRoot } }
    | none =>
      let skipped := run.table.rows.filter fun row => row.height = audit.height ∧ isStale run.chain row
      some (nextHeight audit { run with owed := run.owed ++ skipped })
  | .stale merkleRoot, .foundStale =>
    some (nextRoot audit (run.table.findStaleMerkleRoots audit.height merkleRoot)
      { run with owed := run.owed ++ run.table.staleRows audit.height merkleRoot })
  | .finding staleRoot staleRoots, .foundRows =>
    some (goProving audit (run.table.rows.filter fun row => row.height = audit.height ∧ row.merkleRoot = staleRoot) staleRoots run)
  | .proving ptx left staleRoots, .reproved reproven =>
    some (goProving { audit with r := audit.r.add ptx reproven } left staleRoots run)
  | .updating entry left staleRoots, .updated =>
    some (goUpdating audit left staleRoots
      { run with table := run.table.updateProvenTx entry, reported := run.reported ++ [entry.1] })
  | .logging, .logged =>
    some { run with audit := none, events := audit.maxHeight :: run.events, reported := run.reported ++ audit.unavailable }
  | .logging, .unlogged => some { run with audit := none }
  | _, _ => none

def step (task : TaskReviewProvenTxs) (run : AuditRun) : AuditEvent → Option AuditRun
  | .inserted row => (run.table.insert row).map fun table => { run with table }
  | .grown merkleRoot => some { run with chain := run.chain ++ [merkleRoot] }
  | .runTask => if run.audit.isSome then none else some { run with audit := some {} }
  | .failed => if run.audit.isSome then some { run with audit := none } else none
  | event =>
    match run.audit with
    | some audit => answer task run audit audit.phase event
    | none => none

end AuditRun
end WalletToolbox
