import WalletToolbox.Proofs.NaturalKeys

/-! Each call keeps the contract of its natural key: it puts a row with the key only
while it knows that nothing has it, or over the row it has found. -/

namespace WalletToolbox
open Async StorageRocksDb

section
variable {first second third : Records}

theorem Persists.refl (records) : Persists records records := fun _ _ row stored => ⟨row, stored, rfl⟩

theorem Persists.trans (earlier : Persists first second) (later : Persists second third) : Persists first third := by
  intro table key row stored
  obtain ⟨middle, kept, same⟩ := earlier table key row stored
  obtain ⟨last, left, still⟩ := later table key middle kept
  exact ⟨last, left, still.trans same⟩

theorem Persists.of_rows (same : ∀ table key, second.row table key = first.row table key) : Persists first second := by
  intro table key row stored
  exact ⟨row, (same table key).trans stored, rfl⟩

theorem NaturalStore.of_rows (holds : NaturalStore first) (same : ∀ table key, second.row table key = first.row table key) :
    NaturalStore second where
  unique := by
    intro table key other row twin stored also
    rw [same] at stored also
    exact holds.unique table key other row twin stored also
  keyed := by
    intro table key row stored
    rw [same] at stored
    exact holds.keyed table key row stored

theorem NoneStored.of_rows (none : NoneStored search first)
    (same : ∀ table key, second.row table key = first.row table key) : NoneStored search second := by
  intro table key row stored
  rw [same] at stored
  exact none table key row stored

end

section
variable {records : Records} {table : EntityTable} {key : RowKey} {record : Versioned (Row table)}

theorem row_insert_same :
    Records.row (@AList.insert _ Record _ (.entity table key) record records) table key = some record := AList.lookup_insert _

theorem row_insert_other (different : ¬(other = table ∧ target = key)) :
    Records.row (@AList.insert _ Record _ (.entity table key) record records) other target = records.row other target := by
  apply AList.lookup_insert_ne
  intro same
  injection same with tables keys
  exact different ⟨tables, keys⟩

theorem NaturalStore.put (holds : NaturalStore records) (keyed : rowKey table record.value = key)
    (unique : ∀ other twin, records.row table other = some twin → (naturalKey table record.value).isSome = true →
      naturalKey table twin.value = naturalKey table record.value → other = key) :
    NaturalStore (@AList.insert _ Record _ (.entity table key) record records) where
  unique := by
    intro which target other row twin stored also has same
    by_cases here : which = table ∧ target = key
    · obtain ⟨rfl, rfl⟩ := here
      rw [row_insert_same] at stored
      cases stored
      by_cases there : other = target
      · exact there.symm
      · rw [row_insert_other (fun both => there both.2)] at also
        exact (unique other twin also has same.symm).symm
    · rw [row_insert_other here] at stored
      by_cases there : which = table ∧ other = key
      · obtain ⟨rfl, rfl⟩ := there
        rw [row_insert_same] at also
        cases also
        exact unique target row stored (same ▸ has) same
      · rw [row_insert_other there] at also
        exact holds.unique which target other row twin stored also has same
  keyed := by
    intro which target row stored has
    by_cases here : which = table ∧ target = key
    · obtain ⟨rfl, rfl⟩ := here
      rw [row_insert_same] at stored
      cases stored
      exact keyed
    · rw [row_insert_other here] at stored
      exact holds.keyed which target row stored has

theorem Persists.put (same : ∀ old, records.row table key = some old → rowKeys table old.value = rowKeys table record.value) :
    Persists records (@AList.insert _ Record _ (.entity table key) record records) := by
  intro which target row stored
  by_cases here : which = table ∧ target = key
  · obtain ⟨rfl, rfl⟩ := here
    exact ⟨record, row_insert_same, (same row stored).symm⟩
  · exact ⟨row, (row_insert_other here).trans stored, rfl⟩

theorem NoneStored.put {search} (none : NoneStored search records)
    (rejected : accepted search table record.value = false) :
    NoneStored search (@AList.insert _ Record _ (.entity table key) record records) := by
  intro which target row stored
  by_cases here : which = table ∧ target = key
  · obtain ⟨rfl, rfl⟩ := here
    rw [row_insert_same] at stored
    cases stored
    exact rejected
  · rw [row_insert_other here] at stored
    exact none which target row stored

end

theorem takeId_row (idTable table) (key) (database) :
    (takeId idTable database).2.records.row table key = database.records.row table key := by
  unfold takeId
  dsimp only
  split
  · split
    · rfl
    · exact AList.lookup_insert_ne (by simp)
  · exact AList.lookup_insert_ne (by simp)

variable {hash : ScriptHash} {search : Option SearchKey} {database : Database}

theorem NaturalOp.keeps {progress op} (does : NaturalOp search progress database.records op)
    (holds : NaturalStore database.records) :
    NaturalStore (exec hash op database).2.records ∧ Persists database.records (exec hash op database).2.records := by
  cases does with
  | read reads =>
    rw [reads.exec_eq]
    exact ⟨holds, .refl _⟩
  | nextId table =>
    have rows := fun which key => takeId_row table which key database
    exact ⟨holds.of_rows rows, .of_rows rows⟩
  | put table key record keyed same unique _ => exact ⟨holds.put keyed unique, .put same⟩

def Has (records : Records) (table : EntityTable) (row : Row table) : Prop :=
  ∃ stored, records.row table (rowKey table row) = some stored ∧ rowKeys table stored.value = rowKeys table row

def Found (search : Option SearchKey) (table : EntityTable) (rows : List (Row table)) (progress : Progress) (records : Records) : Prop :=
  match rows with
  | [] => progress.emptyHanded = true ∧ NoneStored search records
  | [row] => progress.obtained = some (rowKey table row) ∧ accepted search table row = true ∧ Has records table row
  | _ => True

section
variable {table : EntityTable} {rows : List (Row table)} {past : List (Event rocksDb)} {before after : Database}

theorem Has.persists (has : Has first table row) (kept : Persists first second) :
    Has second table row := by
  obtain ⟨stored, here, same⟩ := has
  obtain ⟨later, still, keys⟩ := kept _ _ _ here
  exact ⟨later, still, keys.trans same⟩

theorem Found.disturbed (found : Found search table rows (progress search past) before.records)
    (relied : (naturalContract search).rely past before after) : Found search table rows (progress search past) after.records := by
  obtain ⟨_, kept, spared⟩ := relied
  match rows with
  | [] => exact ⟨found.1, spared found.1 found.2⟩
  | [row] => exact ⟨found.1, found.2.1, found.2.2.persists kept⟩
  | _ :: _ :: _ => trivial

theorem Found.congr {progress records others} (found : Found search table rows progress records)
    (same : others.map (fun row => (rowKey table row, rowKeys table row)) = rows.map fun row => (rowKey table row, rowKeys table row)) :
    Found search table others progress records := by
  match rows, others with
  | [], [] => exact found
  | [row], [other] =>
    have both : rowKey table other = rowKey table row ∧ rowKeys table other = rowKeys table row := by simpa using same
    obtain ⟨key, keys⟩ := both
    obtain ⟨obtained, accepts, stored, here, kept⟩ := found
    refine ⟨key ▸ obtained, (accepted_congr keys).trans accepts, stored, key ▸ here, kept.trans keys.symm⟩
  | [], _ :: _ | [_], [] | [_], _ :: _ :: _ | _ :: _ :: _, [] | _ :: _ :: _, [_] => simp at same
  | _ :: _ :: _, _ :: _ :: _ => trivial

theorem Found.sorted {progress records} (order : Row table → Row table → Prop) [DecidableRel order]
    (found : Found search table rows progress records) : Found search table (rows.insertionSort order) progress records := by
  match rows with
  | [] => exact found
  | [row] => exact found
  | first :: second :: rest =>
    have length := List.length_insertionSort order (first :: second :: rest)
    match sorted : (first :: second :: rest).insertionSort order with
    | [] | [_] => rw [sorted] at length; simp at length
    | _ :: _ :: _ => trivial

theorem found_of_scan (holds : NaturalStore records) (of : search.map SearchKey.table = some table) (progress : Progress) :
    Found search table (((scanEntities table records).map Versioned.value).filter (accepted search table))
      (progress.next search ⟨.scan table, scanEntities table records⟩) records := by
  have next : progress.next search ⟨.scan table, scanEntities table records⟩ =
      ⟨((scanEntities table records).map Versioned.value).all fun row => !accepted search table row,
        foundRow search table ((scanEntities table records).map Versioned.value)⟩ := if_pos of
  rw [next]
  unfold foundRow
  rcases found : ((scanEntities table records).map Versioned.value).filter (accepted search table) with _ | ⟨row, _ | ⟨twin, rest⟩⟩
  · have rejected := List.filter_eq_nil_iff.mp found
    refine ⟨?_, fun other key stored here => ?_⟩
    · rw [List.all_eq_true]
      intro row member
      simpa using rejected row member
    · by_contra accepts
      rw [Bool.not_eq_false] at accepts
      obtain ⟨sought, rfl, takes⟩ := accepted_cases accepts
      have tables := (accepts_table takes).1
      rw [Option.map_some, Option.some.injEq] at of
      have same : table = other := of.symm.trans tables
      subst same
      exact rejected stored.value (List.mem_map_of_mem (mem_scanEntities.mpr ⟨key, here⟩)) accepts
  · have member : row ∈ ((scanEntities table records).map Versioned.value).filter (accepted search table) := found ▸ List.mem_singleton_self row
    obtain ⟨listed, accepts⟩ := List.mem_filter.mp member
    obtain ⟨stored, scanned, rfl⟩ := List.mem_map.mp listed
    obtain ⟨key, here⟩ := mem_scanEntities.mp scanned
    refine ⟨rfl, accepts, stored, ?_, rfl⟩
    obtain ⟨sought, -, takes⟩ := accepted_cases accepts
    rw [holds.keyed table key stored here (accepts_table takes).2]
    exact here
  · trivial

end

def Quiet (search : Option SearchKey) : DbOp → Prop
  | .scan table => search.map SearchKey.table ≠ some table
  | .get _ | .getRange _ => True
  | .put _ _ | .remove _ | .nextId _ | .reserve _ => False

theorem Quiet.reads (quiet : Quiet search op) : Reads op := by
  cases op with
  | get | scan | getRange => trivial
  | put | remove | nextId | reserve => exact quiet.elim

theorem Quiet.of_proven (op : DbOp) (proven : ReadsProven op) : Quiet (some (.transaction userId txid)) op := by
  cases op with
  | scan table => cases table <;> first | exact proven.elim | simp [Quiet, SearchKey.table]
  | get | put | remove | getRange | nextId | reserve => exact proven.elim

theorem Quiet.next (quiet : Quiet search op) (progress : Progress) (reply : op.Reply) :
    progress.next search ⟨op, reply⟩ = progress := by
  cases op with
  | scan table => exact if_neg quiet
  | get | getRange => rfl
  | put | remove | nextId | reserve => exact quiet.elim

section
variable {past more : List (Event rocksDb)} {first second third : Database}

theorem relied_refl (holds : NaturalStore first.records) : (naturalContract search).rely past first first :=
  ⟨holds, .refl _, fun _ none => none⟩

theorem relied_trans (earlier : (naturalContract search).rely past first second)
    (later : (naturalContract search).rely past second third) : (naturalContract search).rely past first third := by
  obtain ⟨_, kept, spared⟩ := earlier
  obtain ⟨holds, still, left⟩ := later
  exact ⟨holds, kept.trans still, fun empty none => left empty (spared empty none)⟩

theorem relied_congr (same : progress search more = progress search past) (relied : (naturalContract search).rely past first second) :
    (naturalContract search).rely more first second := by
  obtain ⟨holds, kept, spared⟩ := relied
  exact ⟨holds, kept, fun empty => spared (same ▸ empty)⟩

end

theorem quiet_guarded {program : RocksDbM α} {good past}
    (uses : program.Uses (Quiet search)) (settles : program.Settles (fun _ => good) past) (holds : NaturalStore database.records) :
    program.Guarded (exec hash) (naturalContract search) (fun more outcome after =>
      progress search more = progress search past ∧ (naturalContract search).rely past database after ∧ good outcome) past database := by
  induction program generalizing past database with
  | done _ | fail _ => exact ⟨rfl, relied_refl holds, settles⟩
  | await op next ih =>
    intro current relied _
    have quiet := uses.1
    refine ⟨.read quiet.reads, ?_⟩
    rw [quiet.reads.exec_eq]
    have still : progress search (past ++ [⟨op, (exec hash op current).1⟩]) = progress search past :=
      (progress_append _ _ _).trans (quiet.next _ _)
    refine (ih _ (uses.2 _) (settles _) relied.1).mono fun more outcome after ends => ?_
    obtain ⟨same, further, good⟩ := ends
    exact ⟨same.trans still, relied_trans relied (relied_congr still.symm further), good⟩

section
variable {table : EntityTable} {past : List (Event rocksDb)}

theorem findEntities_guarded (of : search.map SearchKey.table = some table)
    (same : ∀ row, accepts row = accepted search table row) :
    (findEntities table none accepts).Guarded (exec hash) (naturalContract search) (fun more outcome after =>
      NaturalStore after.records ∧ ∃ rows, outcome = .ok rows ∧ Found search table rows (progress search more) after.records)
      past database := by
  intro current relied _
  refine ⟨.read trivial, relied.1, _, rfl, ?_⟩
  rw [funext same, progress_append]
  exact (found_of_scan relied.1 of _).sorted _

theorem validateRawTransaction_settles (tx) :
    (validateRawTransaction tx).Settles (fun _ outcome => ∀ valid, outcome = .ok valid →
      rowKey .transactions valid = rowKey .transactions tx ∧ rowKeys .transactions valid = rowKeys .transactions tx) past := by
  unfold validateRawTransaction
  split
  · intro valid same
    cases same
    exact ⟨rfl, rfl⟩
  · refine Program.Settles.seq (fun rawTx more _ => ?_) (fun error more _ valid same => by cases same)
    cases rawTx with
    | none =>
      intro valid same
      cases same
      exact ⟨rfl, rfl⟩
    | some rawTx =>
      intro valid same
      cases same
      exact ⟨rfl, rfl⟩

theorem validated_settles (rows : List TableTransaction) :
    (rows.mapM validateRawTransaction).Settles (fun _ outcome => ∀ valid, outcome = .ok valid →
      valid.map (fun row => (rowKey .transactions row, rowKeys .transactions row)) =
        rows.map fun row => (rowKey .transactions row, rowKeys .transactions row)) past := by
  induction rows generalizing past with
  | nil =>
    intro valid same
    cases same
    rfl
  | cons first rest ih =>
    rw [List.mapM_cons]
    refine .bind ((validateRawTransaction_settles first).mono fun more outcome _ one => ?_)
    cases outcome with
    | error error =>
      intro valid same
      cases same
    | ok one' =>
      obtain ⟨key, keys⟩ := one one' rfl
      refine .bind (ih.mono fun more outcome _ others => ?_)
      cases outcome with
      | error error =>
        intro valid same
        cases same
      | ok others' =>
        intro valid same
        cases same
        rw [List.map_cons, List.map_cons, key, keys, others others' rfl]

end

/-- What the call asks the store for. -/
def SearchKey.wanted : (key : SearchKey) → FindArgs key.table
  | .user identityKey => { identityKey }
  | .outputBasket userId name => { name, userId }
  | .outputTag userId tag => { tag, userId }
  | .txLabel userId label => { label, userId }
  | .transaction userId txid => { wanted := { userId, txid } }

def Searched (key : SearchKey) (more : List (Event rocksDb)) (outcome : Except WalletError (List (Row key.table))) (after : Database) : Prop :=
  NaturalStore after.records ∧ ∀ rows, outcome = .ok rows → Found (some key) key.table rows (progress (some key) more) after.records

theorem findRows_guarded (key : SearchKey) (past) :
    (findRows key.table key.wanted).Guarded (exec hash) (naturalContract (some key)) (Searched key) past database := by
  have rows : ∀ {accepts : Row key.table → Bool}, (∀ row, accepts row = accepted (some key) key.table row) →
      (findEntities key.table none accepts).Guarded (exec hash) (naturalContract (some key)) (Searched key) past database := by
    intro accepts same
    refine (findEntities_guarded rfl same).mono fun more outcome after ends => ?_
    obtain ⟨holds, rows, rfl, found⟩ := ends
    refine ⟨holds, fun others ok => ?_⟩
    cases ok
    exact found
  cases key with
  | user identityKey =>
    apply rows
    intro (row : TableUser)
    show UserPartial.matches { identityKey } row = decide (row.identityKey = identityKey)
    simp [UserPartial.matches, eq, eq_comm]
  | outputBasket userId name =>
    apply rows
    intro (row : TableOutputBasket)
    show matchesOutputBasketPartial row { name, userId } = decide (row.userId = userId ∧ row.name = name)
    simp [matchesOutputBasketPartial, eq, eq_comm]
  | outputTag userId tag =>
    apply rows
    intro (row : TableOutputTag)
    show matchesOutputTagPartial row { tag, userId } = decide (row.userId = userId ∧ row.tag = tag)
    simp [matchesOutputTagPartial, eq, eq_comm]
  | txLabel userId label =>
    apply rows
    intro (row : TableTxLabel)
    show matchesTxLabelPartial row { label, userId } = decide (row.userId = userId ∧ row.label = label)
    simp [matchesTxLabelPartial, eq, eq_comm]
  | transaction userId txid =>
    have matching : ∀ row, matchesTransactionPartial row { userId, txid } = accepted (some (.transaction userId txid)) .transactions row := by
      intro (row : TableTransaction)
      show matchesTransactionPartial row { userId, txid } = decide (row.userId = userId ∧ row.txid = some txid)
      simp [matchesTransactionPartial, eq, eqOptional, eq_comm]
    refine Program.Guarded.bind ((rows matching).mono ?_)
    intro more outcome after searched
    obtain ⟨holds, found⟩ := searched
    cases outcome with
    | error error => exact ⟨holds, fun rows failed => by cases failed⟩
    | ok rows =>
      have quiet : ((rows.mapM validateRawTransaction : RocksDbM _)).Uses (Quiet (some (SearchKey.transaction userId txid))) :=
        Program.Uses.mapM (fun tx => (validateRawTransaction_uses tx).mono Quiet.of_proven) rows
      refine (quiet_guarded quiet (validated_settles rows) holds).mono fun last outcome after ends => ?_
      obtain ⟨same, relied, valid⟩ := ends
      refine ⟨relied.1, fun others ok => ?_⟩
      rw [same]
      exact ((found rows rfl).disturbed relied).congr (valid others ok)

def MayPut (search : Option SearchKey) (progress : Progress) (records : Records) (table : EntityTable) (row : Row table) : Prop :=
  accepted search table row = true →
    (progress.emptyHanded = true ∧ NoneStored search records) ∨ (progress.obtained = some (rowKey table row) ∧ Has records table row)

structure Put (search : Option SearchKey) (past more : List (Event rocksDb)) (table : EntityTable) (row : Row table) (after : Database) : Prop where
  has : Has after.records table row
  obtained : accepted search table row = true → (progress search more).obtained = some (rowKey table row)
  other : search.map SearchKey.table ≠ some table → progress search more = progress search past

section
variable {table : EntityTable} {past more : List (Event rocksDb)} {row : Row table}

theorem MayPut.disturbed (may : MayPut search (progress search past) before.records table row)
    (relied : (naturalContract search).rely past before after) : MayPut search (progress search past) after.records table row := by
  intro accepts
  obtain ⟨_, kept, spared⟩ := relied
  rcases may accepts with ⟨empty, none⟩ | ⟨obtained, has⟩
  · exact .inl ⟨empty, spared empty none⟩
  · exact .inr ⟨obtained, has.persists kept⟩

theorem MayPut.promised {records progress} (record : Versioned (Row table)) (holds : NaturalStore records)
    (may : MayPut search progress records table record.value)
    (clear : ClearPut search records table (rowKey table record.value) record.value) :
    NaturalOp search progress records (.put (.entity table (rowKey table record.value)) record) := by
  obtain ⟨same, unique⟩ := clear
  refine .put table _ record rfl same ?_ fun accepts => (may accepts).imp And.right And.left
  intro other twin stored has shares
  by_cases natural : ∃ sought ∈ search, sought.natural = true ∧ sought.accepts table record.value = true
  · obtain ⟨sought, is, natural, accepts⟩ := natural
    obtain rfl : search = some sought := is
    rcases may accepts with ⟨-, none⟩ | ⟨-, mine, here, keys⟩
    · have rejected := none table other twin stored
      have taken : accepted (some sought) table twin.value = true := accepts_natural natural accepts shares
      rw [taken] at rejected
      cases rejected
    · have natural := naturalKey_congr keys
      exact holds.unique table other _ twin mine stored here (shares ▸ has) (shares.trans natural.symm)
  · exact unique natural other twin stored has shares

theorem progress_put :
    ((progress search past).next search ⟨.put (.entity table key) record, reply⟩) =
      if search.map SearchKey.table = some table then ⟨false, if accepted search table record.value then some key else none⟩
      else progress search past := rfl

theorem progress_get (search) (past) (key) (reply) :
    progress search (past ++ [⟨.get key, reply⟩]) = progress search past := progress_append _ _ _

theorem putEntity_guarded (may : MayPut search (progress search past) database.records table row) :
    (putEntity table row).Guarded (exec hash) (naturalContract search)
      (fun more outcome after => outcome = .ok () ∧ Put search past more table row after) past database := by
  intro middle relied _
  refine ⟨.read trivial, fun current later clear => ?_⟩
  have still := progress_get search past _ (exec hash (.get (.entity table (rowKey table row))) middle).1
  have now := (may.disturbed relied).disturbed (relied_congr still.symm later)
  rw [← still] at now
  have does := now.promised (encode row _) later.1 clear
  refine ⟨does, rfl, ⟨_, row_insert_same, rfl⟩, fun accepts => ?_, fun other => ?_⟩
  · obtain ⟨sought, rfl, takes⟩ := accepted_cases accepts
    have mine : (some sought).map SearchKey.table = some table := congrArg some (accepts_table takes).1
    rw [progress_append, progress_put, if_pos mine]
    exact if_pos accepts
  · rw [progress_append, progress_put, if_neg other]
    exact still

theorem rowKeys_setRowId (id : Nat) : rowKeys table (setRowId table id row) = rowKeys table row := by
  cases table <;> rfl

/-- An insert of a row nobody has. -/
theorem insertEntity_guarded
    (fresh : accepted search table row = true → (progress search past).emptyHanded = true ∧ NoneStored search database.records) :
    (insertEntity table row).Guarded (exec hash) (naturalContract search) (fun more outcome after =>
      ∃ inserted, outcome = .ok inserted ∧ rowKeys table inserted = rowKeys table row ∧ Put search past more table inserted after)
      past database := by
  have puts : ∀ {before : List (Event rocksDb)} {current : Database} {prepared : Row table}, progress search before = progress search past →
      rowKeys table prepared = rowKeys table row →
      (accepted search table row = true → (progress search past).emptyHanded = true ∧ NoneStored search current.records) →
      (putEntity table prepared >>= fun _ => (.done prepared : RocksDbM _)).Guarded (exec hash) (naturalContract search)
        (fun more outcome after => ∃ inserted, outcome = .ok inserted ∧ rowKeys table inserted = rowKeys table row ∧
          Put search past more table inserted after) before current := by
    intro before current prepared still keys fresh
    have may : MayPut search (progress search before) current.records table prepared := by
      intro accepts
      rw [still]
      exact .inl (fresh ((accepted_congr keys.symm).trans accepts))
    refine Program.Guarded.bind ((putEntity_guarded may).mono fun more outcome after ends => ?_)
    obtain ⟨rfl, put⟩ := ends
    exact ⟨prepared, rfl, keys, put.has, put.obtained, fun other => (put.other other).trans still⟩
  have prepares : insertEntity table row = (prepareInsert table row >>= fun prepared =>
      putEntity table prepared >>= fun _ => .done prepared) := rfl
  rw [prepares]
  unfold prepareInsert
  split
  · intro current relied _
    refine ⟨.nextId table, ?_⟩
    have rows := fun which key => takeId_row table which key current
    refine puts ?_ (rowKeys_setRowId _) fun accepts => ?_
    · rw [progress_append]
      rfl
    · obtain ⟨empty, none⟩ := fresh accepts
      exact ⟨empty, (relied.2.2 empty none).of_rows rows⟩
  · exact puts rfl rfl fresh

theorem updateById_guarded {id spread}
    (obtained : (progress search past).obtained = some (rowKey table row)) (accepts : accepted search table row = true)
    (has : Has database.records table row) (named : rowKey table row = .id id)
    (key : ∀ old, rowKey table (spread old) = rowKey table old) (keys : ∀ old, rowKeys table (spread old) = rowKeys table old) :
    (updateById table id spread).Guarded (exec hash) (naturalContract search)
      (fun more _ _ => (progress search more).obtained = some (rowKey table row)) past database := by
  have steps : updateById table id spread = .await (.get (.entity table (.id id))) fun record =>
      match record.map Versioned.value with
      | none => .done 0
      | some existing => putEntity table (spread existing) >>= fun _ => .done 1 := by
    refine Program.await_congr fun record => ?_
    cases record <;> rfl
  rw [steps]
  intro current relied _
  refine ⟨.read trivial, ?_⟩
  obtain ⟨old, here, same⟩ := has.persists relied.2.1
  obtain ⟨sought, rfl, takes⟩ := accepted_cases accepts
  have natural := naturalKey_congr same ▸ (accepts_table takes).2
  have mine := (key _).trans (relied.1.keyed _ _ _ here natural)
  have alike := (keys _).trans same
  rw [named] at here
  have reads : exec hash (.get (.entity table (.id id))) current = (some old, current) := congrArg (·, current) here
  rw [reads]
  have may : MayPut (some sought) (progress (some sought) (past ++ [⟨.get (.entity table (.id id)), some old⟩])) current.records table (spread old.value) := by
    intro _
    refine .inr ⟨?_, old, ?_, (keys _).symm⟩
    · rw [progress_get, mine]
      exact obtained
    · rw [mine, named]
      exact here
  refine Program.Guarded.bind ((putEntity_guarded may).mono fun more outcome after ends => ?_)
  obtain ⟨rfl, put⟩ := ends
  exact (put.obtained ((accepted_congr alike).trans accepts)).trans (congrArg some mine)

end

open StorageReaderWriter

section
variable {past : List (Event rocksDb)} {α : Type}

theorem findOne_guarded (key) {next : Option (Row key.table) → StorageM α} {post}
    (absent : ∀ more after, (progress (some key) more).emptyHanded = true → NoneStored (some key) after.records →
      (perform hash (next none)).Guarded (exec hash) (naturalContract (some key)) post more after)
    (present : ∀ row more after, (progress (some key) more).obtained = some (rowKey key.table row) →
      accepted (some key) key.table row = true → Has after.records key.table row →
      (perform hash (next (some row))).Guarded (exec hash) (naturalContract (some key)) post more after)
    (failed : ∀ error more after, post more (.error error) after) :
    (perform hash (do
      let found ← verifyOneOrNone (← (StorageCall.find key.table key.wanted).await)
      next found)).Guarded (exec hash) (naturalContract (some key)) post past database := by
  rw [perform_bind, perform_await]
  refine Program.Guarded.bind ((findRows_guarded key past).mono fun more outcome after searched => ?_)
  obtain ⟨-, found⟩ := searched
  match outcome with
  | .error error => exact failed error more after
  | .ok [] =>
    obtain ⟨empty, none⟩ := found [] rfl
    exact absent more after empty none
  | .ok [row] =>
    obtain ⟨obtained, accepts, has⟩ := found [row] rfl
    exact present row more after obtained accepts has
  | .ok (_ :: _ :: _) => exact failed _ more after

theorem retryOnce_guarded
    (each : ∀ more after, (perform hash attempt).Guarded (exec hash) contract post more after) :
    (perform hash (retryOnce attempt)).Guarded (exec hash) contract post past database := by
  unfold retryOnce
  rw [perform_handle]
  refine Program.Guarded.handle ((each past database).mono fun more outcome after ends => ?_)
  cases outcome with
  | ok value => exact ends
  | error error => exact each more after

def GotHold (search : Option SearchKey) (table : EntityTable) (row : α → Row table) (more : List (Event rocksDb))
    (outcome : Except WalletError α) (_ : Database) : Prop :=
  ∀ value, outcome = .ok value → (progress search more).obtained = some (rowKey table (row value))

theorem perform_verifyId (id : Nat) : perform hash (verifyId id) = verifyId id := by
  unfold verifyId
  split <;> rfl

theorem restore_guarded {id : Nat} {spread : Row table → Row table} {update : Nat → StorageM Nat}
    (updates : ∀ id, perform hash (update id) = updateById table id spread)
    (obtained : (progress search past).obtained = some (rowKey table row)) (accepts : accepted search table row = true)
    (has : Has database.records table row) (named : rowKey table row = .id id)
    (key : ∀ old, rowKey table (spread old) = rowKey table old) (keys : ∀ old, rowKeys table (spread old) = rowKeys table old) :
    (perform hash (verifyId id >>= fun id => update id >>= fun _ => return ())).Guarded (exec hash)
      (naturalContract search) (fun more _ _ => (progress search more).obtained = some (rowKey table row)) past database := by
  rw [perform_bind, perform_verifyId]
  unfold verifyId
  split
  · exact obtained
  · rw [Program.pure_eq, Program.done_bind, perform_bind, updates]
    refine Program.Guarded.bind ((updateById_guarded obtained accepts has named key keys).mono fun more outcome after ends => ?_)
    cases outcome with
    | ok _ => exact ends
    | error _ => exact ends

theorem findOrInsertRestored_guarded (key : SearchKey) {fresh : Row key.table} {isDeleted : Row key.table → Bool}
    {restore : Row key.table → StorageM Unit} (accepts : accepted (some key) key.table fresh = true)
    (inserts : insertRow hash key.table fresh = insertEntity key.table fresh)
    (restores : ∀ row more after, (progress (some key) more).obtained = some (rowKey key.table row) →
      accepted (some key) key.table row = true → Has after.records key.table row →
      (perform hash (restore row)).Guarded (exec hash) (naturalContract (some key))
        (fun last _ _ => (progress (some key) last).obtained = some (rowKey key.table row)) more after) :
    (perform hash (findOrInsertRestored key.table key.wanted fresh isDeleted restore)).Guarded (exec hash)
      (naturalContract (some key)) (GotHold (some key) key.table id) past database := by
  have finishes : ∀ row more after, (progress (some key) more).obtained = some (rowKey key.table row) →
      accepted (some key) key.table row = true → Has after.records key.table row →
      (perform hash (if isDeleted row then restore row >>= fun _ => return row else return row)).Guarded (exec hash)
        (naturalContract (some key)) (GotHold (some key) key.table id) more after := by
    intro row more after obtained takes has
    split
    · rw [perform_bind]
      refine Program.Guarded.bind ((restores row more after obtained takes has).mono fun last outcome after ends => ?_)
      cases outcome with
      | ok _ =>
        intro value same
        cases same
        exact ends
      | error _ =>
        intro value failed
        cases failed
    · intro value same
      cases same
      exact obtained
  apply retryOnce_guarded
  intro more after
  refine findOne_guarded key (fun before current empty unstored => ?_) (fun row before current => finishes row before current)
    fun error before current value failed => by cases failed
  show (perform hash (foundOrInserted fresh none >>= _)).Guarded _ _ _ _ _
  rw [perform_bind]
  have program : perform hash (foundOrInserted fresh none) = insertEntity key.table fresh :=
    (perform_await hash (.insert key.table fresh)).trans inserts
  rw [program]
  refine Program.Guarded.bind ((insertEntity_guarded fun _ => ⟨empty, unstored⟩).mono fun last outcome stored ends => ?_)
  obtain ⟨row, rfl, keys, put⟩ := ends
  have takes := (accepted_congr keys).trans accepts
  exact finishes row last stored (put.obtained takes) takes put.has

theorem findOrInsertOutputBasket_guarded (userId : Nat) (name : String) :
    (perform hash (findOrInsertOutputBasket userId name)).Guarded (exec hash)
      (naturalContract (some (.outputBasket userId name))) (GotHold (some (.outputBasket userId name)) .outputBaskets id) past database :=
  findOrInsertRestored_guarded (.outputBasket userId name) (decide_eq_true ⟨rfl, rfl⟩) rfl fun _ _ _ obtained takes has =>
    restore_guarded (fun _ => perform_await _ _) obtained takes has rfl (fun _ => rfl) fun _ => rfl

theorem findOrInsertOutputTag_guarded (userId : Nat) (tag : String) :
    (perform hash (findOrInsertOutputTag userId tag)).Guarded (exec hash)
      (naturalContract (some (.outputTag userId tag))) (GotHold (some (.outputTag userId tag)) .outputTags id) past database :=
  findOrInsertRestored_guarded (.outputTag userId tag) (decide_eq_true ⟨rfl, rfl⟩) rfl fun _ _ _ obtained takes has =>
    restore_guarded (fun _ => perform_await _ _) obtained takes has rfl (fun _ => rfl) fun _ => rfl

theorem findOrInsertTxLabel_guarded (userId : Nat) (label : String) :
    (perform hash (findOrInsertTxLabel userId label)).Guarded (exec hash)
      (naturalContract (some (.txLabel userId label))) (GotHold (some (.txLabel userId label)) .txLabels id) past database :=
  findOrInsertRestored_guarded (.txLabel userId label) (decide_eq_true ⟨rfl, rfl⟩) rfl fun _ _ _ obtained takes has =>
    restore_guarded (fun _ => perform_await _ _) obtained takes has rfl (fun _ => rfl) fun _ => rfl

/-- A new user's default basket is searched for by nobody. -/
theorem findOrInsertUser_guarded (storageIdentityKey identityKey : String) :
    (perform hash (findOrInsertUser storageIdentityKey identityKey)).Guarded (exec hash)
      (naturalContract (some (.user identityKey))) (GotHold (some (.user identityKey)) .users Prod.fst) past database := by
  apply retryOnce_guarded
  intro more after
  refine findOne_guarded (.user identityKey) (fun before current empty unstored => ?_) (fun row before current obtained _ _ value same => ?_)
    fun error before current value failed => by cases failed
  · dsimp only
    rw [perform_bind, perform_await]
    have inserts : (insertEntity .users (newUser identityKey storageIdentityKey)).Guarded (exec hash)
        (naturalContract (some (.user identityKey))) _ before current := insertEntity_guarded fun _ => ⟨empty, unstored⟩
    refine Program.Guarded.bind (inserts.mono fun last outcome stored ends => ?_)
    obtain ⟨user, rfl, keys, put⟩ := ends
    have obtained := put.obtained ((accepted_congr keys).trans (decide_eq_true rfl))
    dsimp only
    rw [perform_bind, perform_await]
    have adds : (insertEntity .outputBaskets (defaultBasket user.userId)).Guarded (exec hash)
        (naturalContract (some (.user identityKey))) _ last stored := insertEntity_guarded fun taken => by cases taken
    refine Program.Guarded.bind (adds.mono fun final outcome _ ends => ?_)
    obtain ⟨basket, rfl, -, put⟩ := ends
    intro value same
    cases same
    rw [put.other (by simp [SearchKey.table])]
    exact obtained
  · cases same
    exact obtained

theorem findOrInsertTransaction_guarded (newTx) (txid : String) (has : newTx.txid = some txid) :
    (perform hash (findOrInsertTransaction newTx)).Guarded (exec hash)
      (naturalContract (some (.transaction newTx.userId txid)))
      (GotHold (some (.transaction newTx.userId txid)) .transactions Prod.fst) past database := by
  apply retryOnce_guarded
  intro more after
  rw [has]
  refine findOne_guarded (.transaction newTx.userId txid) (fun before current empty unstored => ?_)
    (fun row before current obtained _ _ value same => ?_) fun error before current value failed => by cases failed
  · dsimp only
    rw [perform_bind, perform_await]
    have inserts : (insertEntity .transactions newTx).Guarded (exec hash)
        (naturalContract (some (.transaction newTx.userId txid))) _ before current := insertEntity_guarded fun _ => ⟨empty, unstored⟩
    refine Program.Guarded.bind (inserts.mono fun last outcome stored ends => ?_)
    obtain ⟨tx, rfl, keys, put⟩ := ends
    intro value same
    cases same
    exact put.obtained ((accepted_congr keys).trans (decide_eq_true ⟨rfl, has⟩))
  · cases same
    exact obtained

end

end WalletToolbox
