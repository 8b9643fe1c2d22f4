import WalletToolbox.Proofs.LiveHeaderQueues
import WalletToolbox.Proofs.HeaderLinks
import WalletToolbox.Proofs.LiveChains

/-! The live header queue over the in-memory and the SQL engine, in every state that
inserts and prunes reach. -/

namespace WalletToolbox.Chaintracks
open List

structure Inserts {Data : Type} (insertHeader : BlockHeader → Data → Except ChaintracksError InsertHeaderResult × Data) (Sound : Data → Prop)
    (holds : Data → String → Bool) : Prop where
  keeps : ∀ {data} header, Sound data → Sound (insertHeader header data).2
  missing : ∀ {data header}, Sound data → Verdict.of (insertHeader header data).1 = .missing → holds data header.previousHash = false
  placed : ∀ {data header}, Sound data → Verdict.of (insertHeader header data).1 = .placed → holds (insertHeader header data).2 header.hash = true
  grows : ∀ {data} header {hash}, Sound data → holds data hash = true → holds (insertHeader header data).2 hash = true
  unchanged : ∀ {data header}, Sound data → Verdict.of (insertHeader header data).1 ≠ .placed →
    ∀ other, Verdict.of (insertHeader other (insertHeader header data).2).1 = Verdict.of (insertHeader other data).1

section
variable {Data : Type} {tracks : ChaintracksBase Data} {Sound : Data → Prop} {holds : Data → String → Bool}

theorem addLiveHeader_cases (header : BlockHeader) :
    (∀ storage, tracks.verdict storage header = .refused ∧ (tracks.addLiveHeader header storage).2 = storage) ∨
    ∀ storage, tracks.verdict storage header = Verdict.of (tracks.insertHeader header storage).1 ∧
      (tracks.addLiveHeader header storage).2 = (tracks.insertHeader header storage).2 := by
  unfold ChaintracksBase.verdict ChaintracksBase.addLiveHeader
  cases validateHeaderFormat tracks.doubleSha256BE header with
  | error text => exact .inl fun storage => ⟨rfl, rfl⟩
  | ok _ =>
    cases validateAgainstDirtyHashes header.hash with
    | error text => exact .inl fun storage => ⟨rfl, rfl⟩
    | ok _ =>
      refine .inr fun storage => ?_
      cases outcome : tracks.insertHeader header storage with
      | mk reply changed =>
        cases reply with
        | error err => exact ⟨rfl, rfl⟩
        | ok ihr => exact ⟨rfl, rfl⟩

theorem Inserts.places (inserts : Inserts tracks.insertHeader Sound holds) : tracks.Places Sound holds where
  keeps := by
    intro storage header sound
    cases @addLiveHeader_cases _ tracks header with
    | inl refused => rw [(refused storage).2]; exact sound
    | inr reaches => rw [(reaches storage).2]; exact inserts.keeps header sound
  missing := by
    intro storage header sound missing
    cases @addLiveHeader_cases _ tracks header with
    | inl refused => simp [(refused storage).1] at missing
    | inr reaches => exact inserts.missing sound ((reaches storage).1 ▸ missing)
  placed := by
    intro storage header sound placed
    cases @addLiveHeader_cases _ tracks header with
    | inl refused => simp [(refused storage).1] at placed
    | inr reaches => rw [(reaches storage).2]; exact inserts.placed sound ((reaches storage).1 ▸ placed)
  grows := by
    intro storage header hash sound held
    cases @addLiveHeader_cases _ tracks header with
    | inl refused => rw [(refused storage).2]; exact held
    | inr reaches => rw [(reaches storage).2]; exact inserts.grows header sound held
  unchanged := by
    intro storage header sound other
    cases @addLiveHeader_cases _ tracks header with
    | inl refused => rw [(refused storage).2]
    | inr reaches =>
      rw [(reaches storage).2]
      rw [(reaches storage).1] at other
      funext next
      cases @addLiveHeader_cases _ tracks next with
      | inl refused => rw [(refused _).1, (refused _).1]
      | inr reached => rw [(reached _).1, (reached _).1]; exact inserts.unchanged sound other next

end

structure SoundTable (rows : LiveTable) (nextHeaderId : Nat) : Prop where
  distinct : rows.Distinct
  hashes : (rows.map (·.hash)).Nodup
  falling : Falling rows.links
  fresh : ∀ row ∈ rows, row.headerId < nextHeaderId

def LiveTable.holds (rows : LiveTable) (hash : String) : Bool := rows.any fun row => row.hash = hash

theorem holds_iff {rows : LiveTable} {hash} : rows.holds hash = true ↔ ∃ row ∈ rows, row.hash = hash := by
  simp [LiveTable.holds]

inductive Inserted (rows : LiveTable) (nextHeaderId : Nat) (header : BlockHeader) : Verdict → LiveTable → Nat → Prop
  | added {row : LiveBlockHeader} {table : LiveTable} : row.hash = header.hash → row.headerId = nextHeaderId → (∀ id, row.previousHeaderId = some id → ∃ parent ∈ rows, parent.headerId = id) →
      (∀ other ∈ rows, other.hash ≠ header.hash) → table.links = rows.links ++ [row.link] → Inserted rows nextHeaderId header .placed table (nextHeaderId + 1)
  | dupe : (∃ row ∈ rows, row.hash = header.hash) → Inserted rows nextHeaderId header .placed rows nextHeaderId
  | missing : (∀ row ∈ rows, row.hash ≠ header.previousHash) → Inserted rows nextHeaderId header .missing rows nextHeaderId
  | refused {next} : nextHeaderId ≤ next → Inserted rows nextHeaderId header .refused rows next

section
variable {rows table : LiveTable} {next after : Nat} {header : BlockHeader} {verdict : Verdict}

theorem links_hash : rows.links.map (·.hash) = rows.map (·.hash) := by
  simp [LiveTable.links, LiveBlockHeader.link, Function.comp_def]

theorem links_headerId : rows.links.map (·.headerId) = rows.map (·.headerId) := by
  simp [LiveTable.links, LiveBlockHeader.link, Function.comp_def]

section
variable (inserted : Inserted rows next header verdict table after)
include inserted

theorem Inserted.sound (sound : SoundTable rows next) : SoundTable table after := by
  cases inserted with
  | dupe _ => exact sound
  | missing _ => exact sound
  | refused later => exact ⟨sound.distinct, sound.hashes, sound.falling, fun row mine => (sound.fresh row mine).trans_le later⟩
  | @added row _ hash id previous unknown links =>
    have ids : table.map (·.headerId) = rows.map (·.headerId) ++ [next] := by
      rw [← links_headerId, links, map_append, links_headerId, ← id]
      rfl
    have hashes : table.map (·.hash) = rows.map (·.hash) ++ [header.hash] := by
      rw [← links_hash, links, map_append, links_hash, ← hash]
      rfl
    have apart : next ∉ rows.map (·.headerId) := by
      intro listed
      obtain ⟨other, mine, same⟩ := mem_map.mp listed
      exact (sound.fresh other mine).ne same
    have new : header.hash ∉ rows.map (·.hash) := by
      intro listed
      obtain ⟨other, mine, same⟩ := mem_map.mp listed
      exact unknown other mine same
    constructor
    · unfold LiveTable.Distinct
      rw [ids]
      exact sound.distinct.append (nodup_singleton _) (disjoint_singleton.mpr apart)
    · rw [hashes]
      exact sound.hashes.append (nodup_singleton _) (disjoint_singleton.mpr new)
    · intro link listed id' follows
      rw [links, mem_append, mem_singleton] at listed
      rw [links]
      cases listed with
      | inl old =>
        obtain ⟨parent, its, same⟩ := sound.falling link old id' follows
        exact ⟨parent, mem_append_left _ its, same⟩
      | inr last =>
        subst last
        obtain ⟨parent, its, same⟩ := previous id' follows
        refine ⟨parent.link, mem_append_left _ (mem_links its), same, ?_⟩
        have smaller := sound.fresh parent its
        simp only [LiveBlockHeader.link, id]
        exact smaller
    · intro other mine
      have listed : other.headerId ∈ table.map (·.headerId) := mem_map_of_mem mine
      rw [ids, mem_append, mem_singleton] at listed
      cases listed with
      | inl old =>
        obtain ⟨before, its, same⟩ := mem_map.mp old
        have smaller := sound.fresh before its
        omega
      | inr last => omega

omit inserted in
theorem holds_map {rows : LiveTable} {hash} : rows.holds hash = true ↔ hash ∈ rows.map (·.hash) := by
  rw [holds_iff, mem_map]

theorem Inserted.hashes {hash : String} :
    table.holds hash = true ↔ rows.holds hash = true ∨ verdict = .placed ∧ hash = header.hash := by
  cases inserted with
  | dupe known =>
    obtain ⟨row, mine, same⟩ := known
    rw [holds_iff]
    constructor
    · exact .inl
    · intro either
      exact either.elim id fun last => ⟨row, mine, last.2 ▸ same⟩
  | missing _ => simp
  | refused _ => simp
  | added same _ _ _ links =>
    rw [holds_map, holds_map, ← links_hash, links, map_append, links_hash, mem_append]
    simp [LiveBlockHeader.link, same]

theorem Inserted.lacks (missing : verdict = .missing) : rows.holds header.previousHash = false := by
  cases inserted with
  | missing unknown =>
    rw [Bool.eq_false_iff]
    intro held
    obtain ⟨row, mine, same⟩ := holds_iff.mp held
    exact unknown row mine same
  | _ => contradiction

theorem Inserted.unplaced (other : verdict ≠ .placed) : table = rows := by
  cases inserted with
  | missing _ => rfl
  | refused _ => rfl
  | added _ _ _ _ _ => contradiction
  | dupe _ => contradiction

end

end

structure NoDbSound (data : ChaintracksNoDbData) : Prop where
  table : SoundTable data.liveHeaders (data.maxHeaderId + 1)
  index : ∀ hash, (data.hashToHeaderId hash).isSome = true ↔ ∃ row ∈ data.liveHeaders, row.hash = hash

section
variable {file : Option BulkFile} {header : BlockHeader}

theorem verdict_inserted (noPrev : result.noPrev = false) (badPrev : result.badPrev = false)
    (noTip : result.noTip = false) : Verdict.of (.ok result : Except Err InsertHeaderResult) = if result.noActiveAncestor then .refused else .placed := by
  cases stray : result.noActiveAncestor with
  | false => simp [Verdict.of, invalidInsertHeaderResult, noPrev, badPrev, noTip, stray]
  | true => simp [Verdict.of, invalidInsertHeaderResult, stray]

theorem noDb_inserted {data} (sound : NoDbSound data) :
    Inserted data.liveHeaders (data.maxHeaderId + 1) header (Verdict.of (ChaintracksStorageNoDb.insertHeader file header data).1)
        (ChaintracksStorageNoDb.insertHeader file header data).2.liveHeaders ((ChaintracksStorageNoDb.insertHeader file header data).2.maxHeaderId + 1) ∧
      ∀ hash, ((ChaintracksStorageNoDb.insertHeader file header data).2.hashToHeaderId hash).isSome = true ↔
        (data.hashToHeaderId hash).isSome = true ∨ Verdict.of (ChaintracksStorageNoDb.insertHeader file header data).1 = .placed ∧ hash = header.hash := by
  have indexed : ∀ id hash, (Function.update data.hashToHeaderId header.hash (some id) hash).isSome = true ↔
      (data.hashToHeaderId hash).isSome = true ∨ hash = header.hash := by
    intro id hash
    by_cases same : hash = header.hash
    · simp [same]
    · simp [same]
  unfold ChaintracksStorageNoDb.insertHeader
  by_cases dupe : (data.hashToHeaderId header.hash).isSome = true
  · simp only [dupe, ↓reduceIte]
    refine ⟨.dupe ((sound.index _).mp dupe), fun hash => ⟨.inl, fun either => either.elim id fun last => last.2 ▸ dupe⟩⟩
  · have unknown : ∀ row ∈ data.liveHeaders, row.hash ≠ header.hash := fun row mine same => dupe ((sound.index _).mpr ⟨row, mine, same⟩)
    simp only [dupe, Bool.false_eq_true, ↓reduceIte]
    cases found : data.liveHeaders.byHash header.previousHash with
    | none =>
      have orphan : ∀ row ∈ data.liveHeaders, row.hash ≠ header.previousHash := fun row mine => LiveTable.byHash_none found mine
      by_cases empty : data.liveHeaders.length = 0
      · cases file with
        | none =>
          simp only [empty, ↓reduceIte]
          exact ⟨.refused le_rfl, by simp [Verdict.of]⟩
        | some lbf =>
          simp only [empty, ↓reduceIte]
          by_cases follows : header.extends lbf = true
          · simp only [follows, ↓reduceIte]
            refine ⟨.added rfl rfl ?_ unknown map_append, ?_⟩
            · intro id previous
              contradiction
            · intro hash
              rw [indexed]
              simp [Verdict.of, invalidInsertHeaderResult, InsertHeaderResult.none]
          · simp only [follows, Bool.false_eq_true, ↓reduceIte]
            exact ⟨.missing orphan, by simp [Verdict.of, invalidInsertHeaderResult, InsertHeaderResult.none]⟩
      · simp only [empty, ↓reduceIte]
        exact ⟨.missing orphan, by simp [Verdict.of, invalidInsertHeaderResult, InsertHeaderResult.none]⟩
    | some oneBack =>
      obtain ⟨mine, _⟩ := LiveTable.byHash_some found
      by_cases height : oneBack.height + 1 = header.height
      · simp only [height, ne_eq, not_true_eq_false, ↓reduceIte]
        cases data.liveHeaders.priorTip oneBack with
        | none => exact ⟨.refused le_rfl, by simp [Verdict.of, invalidInsertHeaderResult]⟩
        | some tip =>
          obtain ⟨result, table, ok⟩ : ∃ result table, ChaintracksStorageNoDb.engine.insertAfter oneBack tip
              (header.following (data.maxHeaderId + 1) oneBack tip) data.liveHeaders = (.ok result, table) := by
            obtain ⟨result, table, ok, _⟩ := insertAfter_ok noDb_links rfl sound.table.distinct sound.table.falling mine
            exact ⟨result, table, ok⟩
          obtain ⟨noPrev, badPrev, noTip, ended⟩ := insertAfter_links noDb_links sound.table.distinct mine ok
          simp only [ok, verdict_inserted noPrev badPrev noTip]
          cases ended with
          | inl added =>
            obtain ⟨added, placed, links⟩ := added
            simp only [placed, added, Bool.false_eq_true, ↓reduceIte, true_and]
            refine ⟨.added rfl rfl ?_ unknown links, indexed _⟩
            intro id previous
            exact ⟨oneBack, mine, Option.some.inj previous⟩
          | inr stray =>
            obtain ⟨added, refused, rfl⟩ := stray
            simp only [refused, added, Bool.false_eq_true, ↓reduceIte, reduceCtorEq, false_and, or_false, implies_true, and_true]
            exact .refused (Nat.le_succ _)
      · simp only [ne_eq, height, not_false_eq_true, ↓reduceIte]
        exact ⟨.refused le_rfl, by simp [Verdict.of, invalidInsertHeaderResult]⟩

theorem noDb_verdict (sound : NoDbSound data) (sound' : NoDbSound other) (same : other.liveHeaders = data.liveHeaders) :
    Verdict.of (ChaintracksStorageNoDb.insertHeader file header other).1 = Verdict.of (ChaintracksStorageNoDb.insertHeader file header data).1 := by
  have known : (other.hashToHeaderId header.hash).isSome = (data.hashToHeaderId header.hash).isSome := by
    rw [Bool.eq_iff_iff, sound.index, sound'.index, same]
  unfold ChaintracksStorageNoDb.insertHeader
  rw [known, same]
  by_cases dupe : (data.hashToHeaderId header.hash).isSome = true
  · simp only [dupe, ↓reduceIte]
  · simp only [dupe, Bool.false_eq_true, ↓reduceIte]
    cases found : data.liveHeaders.byHash header.previousHash with
    | none =>
      by_cases empty : data.liveHeaders.length = 0
      · cases file with
        | none => simp only [empty, ↓reduceIte]
        | some lbf =>
          by_cases follows : header.extends lbf = true
          · simp only [empty, follows, ↓reduceIte]
          · simp only [empty, follows, Bool.false_eq_true, ↓reduceIte]
      · simp only [empty, ↓reduceIte]
    | some oneBack =>
      obtain ⟨mine, _⟩ := LiveTable.byHash_some found
      by_cases height : oneBack.height + 1 = header.height
      · simp only [height, ne_eq, not_true_eq_false, ↓reduceIte]
        cases data.liveHeaders.priorTip oneBack with
        | none => rfl
        | some tip =>
          have placed : ∀ id, ∃ result table, ChaintracksStorageNoDb.engine.insertAfter oneBack tip (header.following id oneBack tip) data.liveHeaders = (.ok result, table) ∧
              Verdict.of (.ok result : Except ChaintracksError InsertHeaderResult) =
                if (header.following 0 oneBack tip).isActive = true →
                  ChaintracksStorageNoDb.engine.activeAncestor data.liveHeaders (walkLimit oneBack) oneBack ≠ .ok none then .placed else .refused := by
            intro id
            -- Whether the new header is active does not depend on its id.
            obtain ⟨result, table, ok, iff⟩ : ∃ result table, ChaintracksStorageNoDb.engine.insertAfter oneBack tip (header.following id oneBack tip) data.liveHeaders =
                (.ok result, table) ∧ (result.added = true ↔ ((header.following 0 oneBack tip).isActive = true →
                  ChaintracksStorageNoDb.engine.activeAncestor data.liveHeaders (walkLimit oneBack) oneBack ≠ .ok none)) :=
              insertAfter_ok noDb_links rfl sound.table.distinct sound.table.falling mine
            obtain ⟨noPrev, badPrev, noTip, ended⟩ := insertAfter_links noDb_links sound.table.distinct mine ok
            refine ⟨result, table, ok, ?_⟩
            rw [verdict_inserted noPrev badPrev noTip]
            cases ended with
            | inl added => rw [added.2.1, if_neg (by simp), if_pos (iff.mp added.1)]
            | inr stray => rw [stray.2.1, if_pos rfl, if_neg fun needs => by simp [iff.mpr needs] at stray]
          obtain ⟨first, table, ok, verdict⟩ := placed (other.maxHeaderId + 1)
          obtain ⟨second, table', ok', verdict'⟩ := placed (data.maxHeaderId + 1)
          simp only [ok, ok', verdict, verdict']
      · simp only [ne_eq, height, not_false_eq_true, ↓reduceIte]

theorem noDb_inserts (file : Option BulkFile) :
    Inserts (ChaintracksStorageNoDb.insertHeader file) NoDbSound fun data hash => data.liveHeaders.holds hash := by
  have keeps : ∀ {data} header, NoDbSound data → NoDbSound (ChaintracksStorageNoDb.insertHeader file header data).2 := by
    intro data header sound
    obtain ⟨inserted, index⟩ := @noDb_inserted file header _ sound
    refine ⟨inserted.sound sound.table, fun hash => ?_⟩
    rw [index, sound.index, ← holds_iff, ← holds_iff, inserted.hashes]
  constructor
  · exact keeps
  · intro data header sound missing
    exact (noDb_inserted sound).1.lacks missing
  · intro data header sound placed
    exact (noDb_inserted sound).1.hashes.mpr (.inr ⟨placed, rfl⟩)
  · intro data header hash sound held
    exact (noDb_inserted sound).1.hashes.mpr (.inl held)
  · intro data header sound other next
    exact noDb_verdict sound (keeps header sound) ((noDb_inserted sound).1.unplaced other)

/-- An insert that fails is rolled back. -/
theorem knex_inserted (sound : SoundTable data.rows data.nextHeaderId) :
    Inserted data.rows data.nextHeaderId header (Verdict.of (ChaintracksStorageKnex.insertHeader file header data).1)
        (ChaintracksStorageKnex.insertHeader file header data).2.rows (ChaintracksStorageKnex.insertHeader file header data).2.nextHeaderId ∧
      (Verdict.of (ChaintracksStorageKnex.insertHeader file header data).1 ≠ .placed → (ChaintracksStorageKnex.insertHeader file header data).2 = data) := by
  unfold ChaintracksStorageKnex.insertHeader
  by_cases dupe : ¬(data.rows.filter fun row => row.hash = header.hash).length = 0
  · simp only [ne_eq, dupe, not_false_eq_true, ↓reduceIte]
    obtain ⟨row, listed⟩ := exists_mem_of_length_pos (Nat.pos_of_ne_zero dupe)
    have both := mem_filter.mp listed
    exact ⟨.dupe ⟨row, both.1, by simpa using both.2⟩, fun _ => trivial⟩
  · have unknown := unknown_hash dupe
    simp only [ne_eq, dupe, ↓reduceIte]
    cases found : data.rows.byHash header.previousHash with
    | none =>
      have orphan : ∀ row ∈ data.rows, row.hash ≠ header.previousHash := fun row mine => LiveTable.byHash_none found mine
      by_cases empty : data.rows.length = 0
      · cases file with
        | none =>
          simp only [empty, ↓reduceIte]
          exact ⟨.refused le_rfl, fun _ => trivial⟩
        | some lbf =>
          simp only [empty, ↓reduceIte]
          by_cases follows : header.extends lbf = true
          · simp only [follows, ↓reduceIte]
            refine ⟨.added rfl rfl ?_ unknown map_append, ?_⟩
            · intro id previous
              contradiction
            · intro other
              exact absurd rfl other
          · simp only [follows, Bool.false_eq_true, ↓reduceIte]
            exact ⟨.missing orphan, fun _ => trivial⟩
      · simp only [empty, ↓reduceIte]
        exact ⟨.missing orphan, fun _ => trivial⟩
    | some oneBack =>
      obtain ⟨mine, _⟩ := LiveTable.byHash_some found
      by_cases height : oneBack.height + 1 = header.height
      · simp only [height, not_true_eq_false, ↓reduceIte]
        cases data.rows.priorTip oneBack with
        | none => exact ⟨.refused le_rfl, fun _ => rfl⟩
        | some tip =>
          cases outcome : ChaintracksStorageKnex.engine.insertAfter oneBack tip (header.following data.nextHeaderId oneBack tip) data.rows with
          | mk reply table =>
            cases reply with
            | error err => simpa only [outcome] using ⟨Inserted.refused le_rfl, fun _ => trivial⟩
            | ok result =>
              obtain ⟨noPrev, badPrev, noTip, ended⟩ := insertAfter_links knex_links sound.distinct mine outcome
              simp only [outcome, verdict_inserted noPrev badPrev noTip]
              cases ended with
              | inl added =>
                obtain ⟨added, placed, links⟩ := added
                simp only [placed, added, Bool.false_eq_true, ↓reduceIte]
                refine ⟨.added rfl rfl ?_ unknown links, fun other => absurd trivial other⟩
                intro id previous
                exact ⟨oneBack, mine, Option.some.inj previous⟩
              | inr stray =>
                obtain ⟨added, refused, rfl⟩ := stray
                simp only [refused, added, Bool.false_eq_true, ↓reduceIte]
                exact ⟨.refused le_rfl, fun _ => trivial⟩
      · simp only [height, not_false_eq_true, ↓reduceIte]
        exact ⟨.refused le_rfl, fun _ => trivial⟩

theorem knex_inserts (file : Option BulkFile) :
    Inserts (ChaintracksStorageKnex.insertHeader file) (fun data => SoundTable data.rows data.nextHeaderId) fun data hash => data.rows.holds hash := by
  constructor
  · intro data header sound
    exact (knex_inserted sound).1.sound sound
  · intro data header sound missing
    exact (knex_inserted sound).1.lacks missing
  · intro data header sound placed
    exact (knex_inserted sound).1.hashes.mpr (.inr ⟨placed, rfl⟩)
  · intro data header hash sound held
    exact (knex_inserted sound).1.hashes.mpr (.inl held)
  · intro data header sound other next
    rw [(knex_inserted sound).2 other]

end

theorem SoundTable.pruned {next} (sound : SoundTable rows next) (same : ∀ row, (change row).hash = row.hash ∧ (change row).headerId = row.headerId)
    (links : ∀ row ∈ rows, ∀ id, (change row).previousHeaderId = some id → row.previousHeaderId = some id ∧
      ∀ parent ∈ rows, parent.headerId = id → kept (change parent) = true) :
    SoundTable ((rows.map change).filter kept) next where
  distinct := by
    have mapped := sound.distinct.map fun row => (same row).2
    exact mapped.sublist (filter_sublist.map _)
  hashes := by
    have equal : (rows.map change).map (·.hash) = rows.map (·.hash) := by simp [Function.comp_def, same]
    have mapped := equal ▸ sound.hashes
    exact mapped.sublist (filter_sublist.map _)
  falling := by
    intro link listed id follows
    obtain ⟨header, member, rfl⟩ := mem_map.mp listed
    obtain ⟨row, mine, rfl⟩ := mem_map.mp (mem_filter.mp member).1
    obtain ⟨was, stays⟩ := links row mine id follows
    obtain ⟨parent, its, parentId, smaller⟩ := sound.falling row.link (mem_links mine) id was
    obtain ⟨stored, present, rfl⟩ := mem_map.mp its
    refine ⟨(change stored).link, mem_links (mem_filter.mpr ⟨mem_map_of_mem present, stays stored present parentId⟩), ?_, ?_⟩
    · exact (same stored).2.trans parentId
    · simp only [LiveBlockHeader.link, (same stored).2, (same row).2]
      exact smaller
  fresh := by
    intro header member
    obtain ⟨row, mine, rfl⟩ := mem_map.mp (mem_filter.mp member).1
    rw [(same row).2]
    exact sound.fresh row mine

theorem noDb_clearPrevious (maxHeight : Int) (rows : LiveTable) (row : LiveBlockHeader) :
    (ChaintracksStorageNoDb.clearPrevious maxHeight rows row).link.hash = row.hash ∧
      (ChaintracksStorageNoDb.clearPrevious maxHeight rows row).headerId = row.headerId ∧
      (ChaintracksStorageNoDb.clearPrevious maxHeight rows row).height = row.height := by
  unfold ChaintracksStorageNoDb.clearPrevious
  split
  · split <;> exact ⟨rfl, rfl, rfl⟩
  · exact ⟨rfl, rfl, rfl⟩

theorem noDb_pruned (sound : NoDbSound data) (maxHeight : Int) :
    NoDbSound (ChaintracksStorageNoDb.deleteOlderLiveBlockHeaders maxHeight data).2 where
  table := by
    apply sound.table.pruned
    · exact fun row => ⟨(noDb_clearPrevious maxHeight _ row).1, (noDb_clearPrevious maxHeight _ row).2.1⟩
    · intro row mine id follows
      unfold ChaintracksStorageNoDb.clearPrevious at follows
      cases link : row.previousHeaderId with
      | none => simp [link] at follows
      | some previous =>
        obtain ⟨_, its, parentId, _⟩ := sound.table.falling row.link (mem_links mine) previous link
        obtain ⟨parent, stored, rfl⟩ := mem_map.mp its
        obtain rfl : parent.headerId = previous := parentId
        simp only [link, Option.bind_some, sound.table.distinct.byId stored] at follows
        by_cases low : (parent.height : Int) ≤ maxHeight
        · simp [low] at follows
        · obtain rfl : parent.headerId = id := by simpa [low, link] using follows
          refine ⟨rfl, fun other present same => ?_⟩
          rw [sound.table.distinct.eq present stored same, decide_eq_true_eq, (noDb_clearPrevious maxHeight _ parent).2.2]
          exact low
  index := by
    intro hash
    have deleted : ((data.liveHeaders.map (ChaintracksStorageNoDb.clearPrevious maxHeight data.liveHeaders)).filter fun header =>
          (header.height : Int) ≤ maxHeight).any (fun header => header.hash = hash) = true ↔
        ∃ row ∈ data.liveHeaders, (row.height : Int) ≤ maxHeight ∧ row.hash = hash := by
      simp only [any_eq_true, mem_filter, mem_map, decide_eq_true_eq]
      constructor
      · intro ⟨header, ⟨⟨row, mine, same⟩, low⟩, equal⟩
        obtain ⟨hashes, _, heights⟩ := noDb_clearPrevious maxHeight data.liveHeaders row
        subst same
        exact ⟨row, mine, heights ▸ low, hashes.symm.trans equal⟩
      · intro ⟨row, mine, low, equal⟩
        obtain ⟨hashes, _, heights⟩ := noDb_clearPrevious maxHeight data.liveHeaders row
        exact ⟨_, ⟨⟨row, mine, rfl⟩, heights.symm ▸ low⟩, hashes.trans equal⟩
    have kept : (∃ row ∈ (ChaintracksStorageNoDb.deleteOlderLiveBlockHeaders maxHeight data).2.liveHeaders, row.hash = hash) ↔
        ∃ row ∈ data.liveHeaders, ¬(row.height : Int) ≤ maxHeight ∧ row.hash = hash := by
      unfold ChaintracksStorageNoDb.deleteOlderLiveBlockHeaders
      simp only [mem_filter, mem_map, decide_eq_true_eq]
      constructor
      · intro ⟨header, ⟨⟨row, mine, same⟩, high⟩, equal⟩
        obtain ⟨hashes, _, heights⟩ := noDb_clearPrevious maxHeight data.liveHeaders row
        subst same
        exact ⟨row, mine, heights ▸ high, hashes.symm.trans equal⟩
      · intro ⟨row, mine, high, equal⟩
        obtain ⟨hashes, _, heights⟩ := noDb_clearPrevious maxHeight data.liveHeaders row
        exact ⟨_, ⟨⟨row, mine, rfl⟩, heights.symm ▸ high⟩, hashes.trans equal⟩
    rw [kept]
    have known := sound.index hash
    unfold ChaintracksStorageNoDb.deleteOlderLiveBlockHeaders
    simp only
    by_cases gone : ∃ row ∈ data.liveHeaders, (row.height : Int) ≤ maxHeight ∧ row.hash = hash
    · rw [if_pos (deleted.mpr gone)]
      obtain ⟨row, mine, low, equal⟩ := gone
      simp only [Option.isSome_none, Bool.false_eq_true, false_iff]
      intro ⟨other, its, high, same⟩
      obtain rfl := inj_on_of_nodup_map sound.table.hashes mine its (equal.trans same.symm)
      exact high low
    · rw [if_neg fun any => gone (deleted.mp any), known]
      constructor
      · intro ⟨row, mine, equal⟩
        exact ⟨row, mine, fun low => gone ⟨row, mine, low, equal⟩, equal⟩
      · intro ⟨row, mine, _, equal⟩
        exact ⟨row, mine, equal⟩

theorem knex_clearPrevious (ids : List Nat) (row : LiveBlockHeader) :
    (ChaintracksStorageKnex.clearPrevious ids row).hash = row.hash ∧ (ChaintracksStorageKnex.clearPrevious ids row).headerId = row.headerId ∧
      (ChaintracksStorageKnex.clearPrevious ids row).height = row.height := by
  unfold ChaintracksStorageKnex.clearPrevious
  split <;> exact ⟨rfl, rfl, rfl⟩

theorem knex_pruned (sound : SoundTable data.rows data.nextHeaderId) (maxHeight : Int) :
    SoundTable (ChaintracksStorageKnex.deleteOlderLiveBlockHeaders maxHeight data).2.rows data.nextHeaderId := by
  apply sound.pruned
  · exact fun row => ⟨(knex_clearPrevious _ row).1, (knex_clearPrevious _ row).2.1⟩
  · intro row mine id follows
    unfold ChaintracksStorageKnex.clearPrevious at follows
    by_cases cleared : row.previousHeaderId.any (fun id => id ∈ (data.rows.filter fun row => (row.height : Int) ≤ maxHeight).map (·.headerId)) = true
    · rw [if_pos cleared] at follows
      contradiction
    · rw [if_neg cleared] at follows
      refine ⟨follows, fun parent stored same => ?_⟩
      rw [decide_eq_true_eq, (knex_clearPrevious _ parent).2.2]
      intro low
      apply cleared
      rw [follows, Option.any_some, decide_eq_true_eq, ← same]
      exact mem_map_of_mem (mem_filter.mpr ⟨stored, by simpa using low⟩)

theorem noDb_sound
    (reaches : chaintracksStorageNoDb.Reaches lastFile Meets data deleted) : NoDbSound data := by
  induction reaches with
  | start => exact ⟨⟨nodup_nil, nodup_nil, by intro link listed; simp [LiveTable.links, chaintracksStorageNoDb, ChaintracksStorageNoDb.empty] at listed, by simp [chaintracksStorageNoDb, ChaintracksStorageNoDb.empty]⟩,
      by simp [chaintracksStorageNoDb, ChaintracksStorageNoDb.empty]⟩
  | insert _ _ _ ih => exact (noDb_inserts _).keeps _ ih
  | prune _ _ ih => exact noDb_pruned ih _

theorem knex_sound
    (reaches : chaintracksStorageKnex.Reaches lastFile Meets data deleted) : SoundTable data.rows data.nextHeaderId := by
  induction reaches with
  | start => exact ⟨nodup_nil, nodup_nil, by intro link listed; simp [LiveTable.links, chaintracksStorageKnex, ChaintracksStorageKnex.empty] at listed, by simp [chaintracksStorageKnex, ChaintracksStorageKnex.empty]⟩
  | insert _ _ _ ih => exact (knex_inserts _).keeps _ ih
  | prune _ _ ih => exact knex_pruned ih _

/-- Over either engine, from every state inserts and prunes reach, the queue drains
exactly when every call finds it clear. -/
theorem liveHeaders_drain (lastFile : BulkFile) (file : Option BulkFile) (liveIngestors : List LiveIngestor) (addLiveRecursionLimit : Nat)
    (doubleSha256BE : Bytes → Bytes) :
    (∀ data deleted, chaintracksStorageNoDb.Reaches lastFile (fun _ _ => True) data deleted → ∀ liveHeaders,
      let tracks : ChaintracksBase ChaintracksNoDbData := ⟨ChaintracksStorageNoDb.insertHeader file, liveIngestors, addLiveRecursionLimit, doubleSha256BE⟩
      tracks.Drains (fun data hash => data.liveHeaders.holds hash) ⟨data, liveHeaders⟩ ↔ ∀ calls, tracks.Clear (tracks.processed ⟨data, liveHeaders⟩ calls)) ∧
    (∀ data deleted, chaintracksStorageKnex.Reaches lastFile (fun _ _ => True) data deleted → ∀ liveHeaders,
      let tracks : ChaintracksBase LiveHeaderRows := ⟨ChaintracksStorageKnex.insertHeader file, liveIngestors, addLiveRecursionLimit, doubleSha256BE⟩
      tracks.Drains (fun data hash => data.rows.holds hash) ⟨data, liveHeaders⟩ ↔ ∀ calls, tracks.Clear (tracks.processed ⟨data, liveHeaders⟩ calls)) := by
  constructor
  · intro data deleted reaches liveHeaders tracks
    have inserts := noDb_inserts file
    exact ChaintracksBase.drains_iff inserts.places (noDb_sound reaches)
  · intro data deleted reaches liveHeaders tracks
    have inserts := knex_inserts file
    exact ChaintracksBase.drains_iff inserts.places (knex_sound reaches)

def genesisFile : BulkFile := ⟨0, 1, "000000000019d6689c085ae165831e934ff763ae46a2a6c172b3f1b60a8ce26f", 4295032833⟩

def header1 : BlockHeader :=
  { version := 1
    previousHash := "000000000019d6689c085ae165831e934ff763ae46a2a6c172b3f1b60a8ce26f"
    merkleRoot := "0e3e2357e806b6cdb1f70b54c3a3a17b6714ee1f0e68bebb44a74b1efd512098"
    time := 1231469665
    bits := 486604799
    nonce := 2573394689
    height := 1
    hash := "00000000839a8e6886ab5951d76f411475428afc90947ee320161bbf18eb6048" }

def header2 : BlockHeader :=
  { version := 1
    previousHash := "00000000839a8e6886ab5951d76f411475428afc90947ee320161bbf18eb6048"
    merkleRoot := "4a5e1e4baab89f3a32518a88c31bc87f618f76673e2cc77ab2127b7afdeda33b"
    time := 1231469744
    bits := 486604799
    nonce := 0
    height := 2
    hash := "01a3b477e319e24bdcb91fded3b9752b4d1d6b61ce9ec3c14cab9fb133089cf2" }

def header4 : BlockHeader :=
  { version := 1
    previousHash := "1e53445f44c3d6acc4d6c7e620f6031c24f1264814a42e304f35b77a66c4977e"
    merkleRoot := "4a5e1e4baab89f3a32518a88c31bc87f618f76673e2cc77ab2127b7afdeda33b"
    time := 1231470988
    bits := 486604799
    nonce := 0
    height := 4
    hash := "902ab439b4fa18591fbc5b4770b91031b33dace2710632d5f597dce959e417f3" }

def header5 : BlockHeader :=
  { version := 1
    previousHash := "902ab439b4fa18591fbc5b4770b91031b33dace2710632d5f597dce959e417f3"
    merkleRoot := "4a5e1e4baab89f3a32518a88c31bc87f618f76673e2cc77ab2127b7afdeda33b"
    time := 1231471428
    bits := 486604799
    nonce := 0
    height := 5
    hash := "237c5f4af8f44e040c91522c198dde7d6e94d9f2aa70e06193b72c7f368c3eb5" }

def sampleHash (bytes : Bytes) : Bytes :=
  (([header1, header2, header4, header5].find? fun header => serializeBaseBlockHeader header.toBaseBlockHeader = some bytes).bind fun header =>
    asArray header.hash).getD []

def sampleTracks : ChaintracksBase LiveHeaderRows :=
  ⟨ChaintracksStorageKnex.insertHeader none, [[header4]], 36, sampleHash⟩

def sampleRows : LiveHeaderRows := chaintracksStorageKnex.inserted genesisFile [header1]

theorem liveHeaders_drain_sample : sampleTracks.Drains (fun data hash => data.rows.holds hash) ⟨sampleRows, [header2]⟩ := by
  have placed : sampleTracks.verdict sampleRows header2 = .placed := by decide +kernel
  have empty : (sampleTracks.processNext ⟨sampleRows, [header2]⟩).liveHeaders = [] := by decide +kernel
  have clear : ∀ calls, sampleTracks.Clear (sampleTracks.processed ⟨sampleRows, [header2]⟩ calls) := by
    intro calls header first
    cases calls with
    | zero =>
      obtain rfl : header2 = header := Option.some.inj first
      exact .inr ⟨0, .placed placed, .inl (Nat.zero_le _)⟩
    | succ calls =>
      have later : sampleTracks.processed ⟨sampleRows, [header2]⟩ (calls + 1) = sampleTracks.processNext ⟨sampleRows, [header2]⟩ := by
        rw [Nat.add_comm, ← ChaintracksBase.processed_add]
        exact ChaintracksBase.processed_empty empty calls
      rw [later, empty] at first
      contradiction
  exact ((liveHeaders_drain genesisFile none [[header4]] 36 sampleHash).2 sampleRows [] (reaches_inserted _ _ _) [header2]).mpr clear

/-- The third header is not found, so the fourth is dropped and the fifth asks for it
again: no call changes anything, and the second, which follows the live one, waits. -/
theorem liveHeaders_stuck : (∀ calls, (sampleTracks.processed ⟨sampleRows, [header5, header2]⟩ calls).liveHeaders = [header5, header2]) ∧
    ¬sampleTracks.Drains (fun data hash => data.rows.holds hash) ⟨sampleRows, [header5, header2]⟩ := by
  have same : sampleTracks.processNext ⟨sampleRows, [header5, header2]⟩ = ⟨sampleRows, [header5, header2]⟩ := by decide +kernel
  have always : ∀ calls, sampleTracks.processed ⟨sampleRows, [header5, header2]⟩ calls = ⟨sampleRows, [header5, header2]⟩ := fun calls =>
    Function.iterate_fixed same calls
  constructor
  · intro calls
    rw [always]
  · intro drains
    obtain ⟨calls, done⟩ := drains.empties
    rw [always] at done
    contradiction

end WalletToolbox.Chaintracks
