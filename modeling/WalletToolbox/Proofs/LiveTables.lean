import WalletToolbox.Chaintracks.LiveHeaders
import Mathlib.Data.List.Chain
import Mathlib.Data.List.Nodup

/-! Tables of live headers with distinct ids, and the two walks of an insert over them. -/

namespace WalletToolbox
open List
namespace Chaintracks
namespace LiveTable

variable {table : LiveTable} {row : LiveBlockHeader}

def Distinct (table : LiveTable) : Prop := (table.map (·.headerId)).Nodup

theorem Distinct.eq (distinct : table.Distinct) (mine : row ∈ table) (its : other ∈ table)
    (same : row.headerId = other.headerId) : row = other :=
  inj_on_of_nodup_map distinct mine its same

theorem byId_some {id} (found : table.byId id = some row) : row ∈ table ∧ row.headerId = id := by
  have this := find?_some found
  exact ⟨mem_of_find?_eq_some found, by simpa using this⟩

theorem byHash_some {hash} (found : table.byHash hash = some row) : row ∈ table ∧ row.hash = hash := by
  have this := find?_some found
  exact ⟨mem_of_find?_eq_some found, by simpa using this⟩

theorem byHash_none {hash} (missing : table.byHash hash = none) (mine : row ∈ table) : row.hash ≠ hash := by
  have this := find?_eq_none.mp missing row mine
  simpa using this

theorem tip_some (found : table.tip = some row) : row ∈ table ∧ row.isActive = true ∧ row.isChainTip = true := by
  have this := find?_some found
  exact ⟨mem_of_find?_eq_some found, by simpa using this⟩

theorem find_only (mine : row ∈ table) (passes : test row = true)
    (only : ∀ other ∈ table, test other = true → other = row) : table.find? test = some row := by
  cases found : table.find? test with
  | none => exact absurd passes (find?_eq_none.mp found row mine)
  | some other => rw [only other (mem_of_find?_eq_some found) (find?_some found)]

theorem Distinct.byId (distinct : table.Distinct) (mine : row ∈ table) : table.byId row.headerId = some row :=
  find_only mine (by simp) fun _ its same => distinct.eq its mine (by simpa using same)

theorem mem_update {id change} :
    row ∈ table.update id change ↔ ∃ old ∈ table, (if old.headerId = id then change old else old) = row :=
  mem_map

theorem mem_update_other {id change} (mine : row ∈ table) (different : row.headerId ≠ id) :
    row ∈ table.update id change :=
  mem_update.mpr ⟨row, mine, if_neg different⟩

theorem Distinct.map (distinct : table.Distinct)
    (keeps : ∀ row, (change row).headerId = row.headerId) : Distinct (table.map change) := by
  have same : (table.map change).map (·.headerId) = table.map (·.headerId) := by
    rw [map_map]
    exact map_congr_left fun row _ => keeps row
  unfold Distinct
  rw [same]
  exact distinct

theorem Distinct.update (distinct : table.Distinct) {id change}
    (keeps : ∀ row, (change row).headerId = row.headerId) : (table.update id change).Distinct := by
  apply distinct.map
  intro row
  by_cases same : row.headerId = id
  · simp [same, keeps]
  · simp [same]

theorem Distinct.put (distinct : table.Distinct) (mine : row ∈ table) (change : LiveBlockHeader → LiveBlockHeader)
    (keeps : (change row).headerId = row.headerId) : table.put (change row) = table.update row.headerId change := by
  have stored : (table.byId (change row).headerId).isSome = true := by
    rw [keeps, distinct.byId mine]
    rfl
  unfold LiveTable.put
  rw [if_pos stored, keeps]
  apply map_congr_left
  intro other its
  by_cases same : other.headerId = row.headerId
  · rw [if_pos same, if_pos same, distinct.eq its mine same]
  · rw [if_neg same, if_neg same]

def mark (table : LiveTable) (ids : List Nat) (active : Bool) : LiveTable :=
  table.map fun row => if row.headerId ∈ ids then { row with isActive := active } else row

theorem mark_nil (active : Bool) : table.mark [] active = table := by simp [mark]

theorem update_mark (id : Nat) (ids) (active : Bool) :
    (table.update id fun row => { row with isActive := active }).mark ids active = table.mark (id :: ids) active := by
  unfold mark update
  rw [map_map]
  apply map_congr_left
  intro row _
  by_cases same : row.headerId = id
  · by_cases listed : row.headerId ∈ ids
    · simp [same]
    · simp [same]
  · by_cases listed : row.headerId ∈ ids
    · simp [same, listed]
    · simp [same, listed]

end LiveTable

def Follows (header parent : LiveBlockHeader) : Prop :=
  header.previousHeaderId = some parent.headerId ∧ parent.headerId < header.headerId

/-- An engine that follows links by id and whose writes of a flag touch that flag only. -/
structure LiveEngine.Exact (engine : LiveEngine) : Prop where
  previous : ∀ table header, engine.previous table header = .ok (header.previousHeaderId.bind table.byId)
  setActive : ∀ {table : LiveTable} {header}, table.Distinct → header ∈ table → ∀ active,
    engine.setActive table header active = table.update header.headerId fun row => { row with isActive := active }
  clearChainTip : ∀ {table : LiveTable} {header}, table.Distinct → header ∈ table →
    engine.clearChainTip table header = table.update header.headerId fun row => { row with isChainTip := false }

section
variable {engine : LiveEngine} (exact : engine.Exact)
include exact

theorem setActiveBackTo_path (active : Bool) (missing) (ancestor) (path) :
    ∀ (table : LiveTable) (first : LiveBlockHeader) (fuel : Nat), table.Distinct → (path ++ [ancestor]).IsChain Follows →
      (∀ header ∈ path ++ [ancestor], header ∈ table) → (path ++ [ancestor]).head? = some first → first.headerId < fuel →
      engine.setActiveBackTo active missing ancestor.headerId fuel (some first) table = (.ok path, table.mark (path.map (·.headerId)) active) := by
  induction path with
  | nil =>
    intro table first fuel _ _ _ head enough
    obtain rfl : ancestor = first := by simpa using head
    obtain ⟨fuel, rfl⟩ := Nat.exists_eq_succ_of_ne_zero (Nat.ne_zero_of_lt enough)
    simp [LiveEngine.setActiveBackTo, LiveTable.mark_nil]
  | cons header path ih =>
    intro table first fuel distinct linked stored head enough
    obtain rfl : header = first := by simpa using head
    obtain ⟨fuel, rfl⟩ := Nat.exists_eq_succ_of_ne_zero (Nat.ne_zero_of_lt enough)
    have chain : (header :: (path ++ [ancestor])).IsChain Follows := linked
    obtain ⟨next, rest, shape⟩ : ∃ next rest, path ++ [ancestor] = next :: rest := exists_cons_of_ne_nil (by simp)
    -- Ids fall along the path, so its other headers are other rows.
    have falls : ∀ other ∈ path ++ [ancestor], other.headerId < header.headerId := by
      have pairs := chain.imp fun _ _ follows => follows.2
      have transitive : IsTrans LiveBlockHeader fun a b => b.headerId < a.headerId := ⟨fun _ _ _ first second => second.trans first⟩
      exact (pairwise_cons.mp (isChain_iff_pairwise.mp pairs)).1
    have apart : header.headerId ≠ ancestor.headerId := (falls ancestor (by simp)).ne'
    have follows : Follows header next := by
      rw [shape] at chain
      exact (isChain_cons_cons.mp chain).1
    have mine : header ∈ table := stored header (by simp)
    have changed := exact.setActive distinct mine active
    have others : ∀ other ∈ path ++ [ancestor], other ∈ table.update header.headerId fun row => { row with isActive := active } :=
      fun other member => LiveTable.mem_update_other (stored other (mem_cons_of_mem _ member)) (falls other member).ne
    have kept : (table.update header.headerId fun row => { row with isActive := active }).Distinct := distinct.update fun _ => rfl
    have found := kept.byId (others next (by simp [shape]))
    have walk := ih _ next fuel kept chain.tail others (by simp [shape]) (by have := follows.2; omega)
    simp only [LiveEngine.setActiveBackTo, if_neg apart, changed, exact.previous, follows.1, Option.bind_some, found, walk, LiveTable.update_mark]
    rfl

end

end Chaintracks
end WalletToolbox
