import WalletToolbox.Proofs.BesideRequests
import WalletToolbox.Proofs.NaturalCalls
import WalletToolbox.Proofs.RequestLists

/-! What a call has seen of a request, and what it may then write. The lists it writes
come from the request it read, was handed or wrote itself; an update reads the row
twice more before it is put, for the other columns and for the version, and that does
not count as seeing it. -/

namespace WalletToolbox
open Async

structure Origin where
  handed : List TableProvenTxReq := []
  byTxid : Bool := false

def requestAt (key : RowKey) (rows : List TableProvenTxReq) : Option TableProvenTxReq := rows.find? (rowKey .provenTxReqs · = key)

/-- What a call has seen last of the request under `key`. -/
def nextSeen (origin : Origin) (key : RowKey) (seen : Option TableProvenTxReq) (event : Event rocksDb) : Option TableProvenTxReq :=
  match event with
  | ⟨.get (.entity .provenTxReqs other), reply⟩ => if other = key then reply.map Versioned.value else seen
  | ⟨.put (.entity .provenTxReqs other) record, _⟩ => if other = key then some record.value else seen
  | ⟨.scan .provenTxReqs, rows⟩ => if origin.byTxid then requestAt key (rows.map Versioned.value) else seen
  | _ => seen

def lastSeen (origin : Origin) (past : List (Event rocksDb)) (key : RowKey) : Option TableProvenTxReq :=
  past.foldl (nextSeen origin key) (requestAt key origin.handed)

def ReadsRequest (key : RowKey) (event : Event rocksDb) : Prop := event.op = .get (.entity .provenTxReqs key)

def UpToDate (origin : Origin) (past : List (Event rocksDb)) (key : RowKey) (records : Records) : Prop :=
  ∀ stored, records.row .provenTxReqs key = some stored → ∃ earlier first second seen,
    past = earlier ++ [first, second] ∧ ReadsRequest key first ∧ ReadsRequest key second ∧
      lastSeen origin earlier key = some seen ∧ ListsWithin stored.value seen

/-- Every request is stored under its own id. -/
def RequestsKeyed (records : Records) : Prop :=
  ∀ key row, records.row .provenTxReqs key = some row → rowKey .provenTxReqs row.value = key

def RequestsGrow (before after : Records) : Prop :=
  ∀ key row, before.row .provenTxReqs key = some row → ∃ later, after.row .provenTxReqs key = some later ∧
    later.value.txid = row.value.txid ∧ ListsWithin row.value later.value

/-- A write of a request loses nothing. -/
def RequestOp (records : Records) : DbOp → Prop
  | .put (.entity .provenTxReqs key) record => rowKey .provenTxReqs record.value = key ∧
      ∀ old, records.row .provenTxReqs key = some old → record.value.txid = old.value.txid ∧ ListsWithin old.value record.value
  | .remove (.entity .provenTxReqs _) | .reserve _ => False
  | _ => True

def requestContract (origin : Origin) : Contract rocksDb Database where
  rely _ before after := RequestsKeyed after.records ∧ RequestsGrow before.records after.records
  permitted past op database := match op with
    | .put (.entity .provenTxReqs key) _ => UpToDate origin past key database.records
    | _ => True
  promises _ op database := RequestOp database.records op

section
variable {first second third : Records}

theorem RequestsGrow.refl (records : Records) : RequestsGrow records records := fun _ row stored => ⟨row, stored, rfl, .refl _⟩

theorem RequestsGrow.trans (earlier : RequestsGrow first second) (later : RequestsGrow second third) : RequestsGrow first third := by
  intro key row stored
  obtain ⟨middle, kept, same, within⟩ := earlier key row stored
  obtain ⟨last, left, still, further⟩ := later key middle kept
  exact ⟨last, left, still.trans same, within.trans further⟩

theorem RequestsGrow.of_rows (same : ∀ key, second.row .provenTxReqs key = first.row .provenTxReqs key) : RequestsGrow first second :=
  fun key row stored => ⟨row, (same key).trans stored, rfl, .refl _⟩

theorem RequestsKeyed.of_rows (keyed : RequestsKeyed first) (same : ∀ key, second.row .provenTxReqs key = first.row .provenTxReqs key) :
    RequestsKeyed second := by
  intro key row stored
  rw [same] at stored
  exact keyed key row stored

end

section
variable {hash : ScriptHash} {database : Database}

/-- What the operations of the calls preserve. -/
theorem RequestOp.keeps (hash : ScriptHash) {op} (does : RequestOp database.records op) (keyed : RequestsKeyed database.records) :
    RequestsKeyed (exec hash op database).2.records ∧ RequestsGrow database.records (exec hash op database).2.records := by
  have unchanged : Beside op → RequestsKeyed (exec hash op database).2.records ∧
      RequestsGrow database.records (exec hash op database).2.records := by
    intro beside
    exact ⟨keyed.of_rows (beside.row database), .of_rows (beside.row database)⟩
  cases op with
  | get key => exact ⟨keyed, .refl _⟩
  | scan | getRange | nextId => exact unchanged trivial
  | reserve => exact does.elim
  | remove key =>
    cases key with
    | entity table key => cases table <;> first | exact does.elim | exact unchanged trivial
    | counter | outputPrimary | index => exact unchanged trivial
  | put key record =>
    cases key with
    | counter | outputPrimary | index => exact unchanged trivial
    | entity table key =>
      cases table with
      | provenTxReqs =>
        obtain ⟨own, grows⟩ := does
        constructor
        · intro other row stored
          by_cases here : other = key
          · subst here
            have put := row_insert_same.symm.trans stored
            cases put
            exact own
          · exact keyed other row ((row_insert_other fun both => here both.2).symm.trans stored)
        · intro other row stored
          by_cases here : other = key
          · subst here
            obtain ⟨same, within⟩ := grows row stored
            exact ⟨record, row_insert_same, same, within⟩
          · exact ⟨row, (row_insert_other fun both => here both.2).trans stored, rfl, .refl _⟩
      | _ => exact unchanged trivial

theorem beside_does (beside : Beside op) : RequestOp database.records op := by
  cases op with
  | get | scan | getRange | nextId => trivial
  | reserve => exact beside.elim
  | put key | remove key =>
    cases key with
    | entity table key => cases table <;> first | exact beside.elim | trivial
    | counter | outputPrimary | index => trivial

end

section
variable {origin : Origin} {past : List (Event rocksDb)}

@[simp] theorem lastSeen_append (event : Event rocksDb) (key : RowKey) :
    lastSeen origin (past ++ [event]) key = nextSeen origin key (lastSeen origin past key) event := by
  simp [lastSeen]

theorem nextSeen_get (key other : RowKey) (seen : Option TableProvenTxReq) (reply : Option (Versioned TableProvenTxReq)) :
    nextSeen origin key seen ⟨.get (.entity .provenTxReqs other), reply⟩ = if other = key then reply.map Versioned.value else seen := rfl

theorem nextSeen_put (key other : RowKey) (seen : Option TableProvenTxReq) (record : Versioned TableProvenTxReq) :
    nextSeen origin key seen ⟨.put (.entity .provenTxReqs other) record, ()⟩ = if other = key then some record.value else seen := rfl

theorem nextSeen_beside (byId : origin.byTxid = false) (beside : Beside op) (reply : op.Reply) (key : RowKey)
    (seen : Option TableProvenTxReq) : nextSeen origin key seen ⟨op, reply⟩ = seen := by
  cases op with
  | nextId | getRange => rfl
  | reserve => exact beside.elim
  | scan table =>
    cases table with
    | provenTxReqs =>
      have skipped : (if origin.byTxid then requestAt key ((reply : List (Versioned TableProvenTxReq)).map Versioned.value) else seen) = seen := by
        rw [byId]
        rfl
      exact skipped
    | _ => rfl
  | get key | put key | remove key =>
    cases key with
    | entity table key => cases table <;> first | exact beside.elim | rfl
    | counter | outputPrimary | index => rfl

end

def Reflects (origin : Origin) (past : List (Event rocksDb)) (req : TableProvenTxReq) : Prop :=
  ∀ seen, lastSeen origin past (rowKey .provenTxReqs req) = some seen → ListsWithin seen req

theorem Reflects.within
    (reflects : Reflects origin past req) (same : changed.provenTxReqId = req.provenTxReqId) (within : ListsWithin req changed) :
    Reflects origin past changed := by
  intro seen last
  refine (reflects seen ?_).trans within
  rw [← last]
  exact congrArg (fun id => lastSeen origin past (.id id)) same.symm

end WalletToolbox
