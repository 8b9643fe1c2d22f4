import WalletToolbox.Proofs.LiveTrees
import WalletToolbox.Chaintracks.ChaintracksStorageBase

/-! The links of the live headers: what an insert leaves of them when its flags may be
wrong. -/

namespace WalletToolbox.Chaintracks

structure HeaderLink where
  hash : String
  headerId : Nat
  previousHeaderId : Option Nat
deriving DecidableEq

def LiveBlockHeader.link (row : LiveBlockHeader) : HeaderLink := ⟨row.hash, row.headerId, row.previousHeaderId⟩

def LiveTable.links (table : LiveTable) : List HeaderLink := table.map (·.link)

def Falling (links : List HeaderLink) : Prop :=
  ∀ link ∈ links, ∀ id, link.previousHeaderId = some id → ∃ parent ∈ links, parent.headerId = id ∧ parent.headerId < link.headerId

section
variable {table other : LiveTable} {header : LiveBlockHeader}

theorem mem_links (mine : header ∈ table) : header.link ∈ table.links := List.mem_map_of_mem mine

theorem LiveTable.Distinct.of_links (distinct : table.Distinct) (same : other.links = table.links) : other.Distinct := by
  have ids : ∀ rows : LiveTable, rows.links.map (·.headerId) = rows.map (·.headerId) := by
    intro rows
    simp [LiveTable.links, LiveBlockHeader.link, Function.comp_def]
  unfold LiveTable.Distinct
  rw [← ids, same, ids]
  exact distinct

theorem links_update (id : Nat) (keeps : ∀ row ∈ table, row.headerId = id → (change row).link = row.link) :
    (table.update id change).links = table.links := by
  unfold LiveTable.links LiveTable.update
  rw [List.map_map]
  apply List.map_congr_left
  intro row mine
  by_cases same : row.headerId = id
  · simp [same, keeps row mine same]
  · simp [same]

theorem links_put (distinct : table.Distinct) (listed : header.link ∈ table.links) : (table.put header).links = table.links := by
  obtain ⟨row, mine, same⟩ := List.mem_map.mp listed
  have id : row.headerId = header.headerId := congrArg HeaderLink.headerId same
  have stored : (table.byId header.headerId).isSome = true := by
    rw [← id, distinct.byId mine]
    rfl
  unfold LiveTable.put
  rw [if_pos stored]
  apply links_update
  intro before its equal
  rw [distinct.eq its mine (equal.trans id.symm), same]

theorem byId_link {id} (found : table.byId id = some header) : header.link ∈ table.links ∧ header.headerId = id :=
  ⟨mem_links (LiveTable.byId_some found).1, (LiveTable.byId_some found).2⟩

end

/-- An engine that follows links by id and whose writes of flags leave the links. -/
structure LiveEngine.Links (engine : LiveEngine) : Prop where
  previous : ∀ table header, engine.previous table header = .ok (header.previousHeaderId.bind table.byId)
  setActive : ∀ {table : LiveTable} {header : LiveBlockHeader}, table.Distinct → header.link ∈ table.links → ∀ active,
    (engine.setActive table header active).links = table.links
  clearChainTip : ∀ {table : LiveTable} {header : LiveBlockHeader}, table.Distinct → header.link ∈ table.links →
    (engine.clearChainTip table header).links = table.links

theorem noDb_links : ChaintracksStorageNoDb.engine.Links where
  previous _ _ := rfl
  setActive distinct listed _ := links_put distinct listed
  clearChainTip distinct listed := links_put distinct listed

theorem knex_links : ChaintracksStorageKnex.engine.Links where
  previous _ _ := rfl
  setActive _ _ _ := links_update _ fun _ _ _ => rfl
  clearChainTip _ _ := links_update _ fun _ _ _ => rfl

section
variable {engine : LiveEngine} (keeps : engine.Links) {rows : LiveTable} {tip oneBack newHeader : LiveBlockHeader}
include keeps

theorem setActiveBackTo_links (active : Bool) (missing) (ancestor fuel : Nat) :
    ∀ (start : Option LiveBlockHeader) (table : LiveTable), table.Distinct → (∀ header ∈ start, header.link ∈ table.links) →
      (engine.setActiveBackTo active missing ancestor fuel start table).2.links = table.links := by
  induction fuel with
  | zero =>
    intro start table _ _
    cases start with
    | none => simp [LiveEngine.setActiveBackTo]
    | some header => simp [LiveEngine.setActiveBackTo]
  | succ fuel ih =>
    intro start table distinct listed
    cases start with
    | none => simp [LiveEngine.setActiveBackTo]
    | some header =>
      rw [LiveEngine.setActiveBackTo]
      by_cases last : header.headerId = ancestor
      · rw [if_pos last]
      · rw [if_neg last]
        have same := keeps.setActive distinct (listed header rfl) active
        simp only [keeps.previous]
        rw [ih _ _ (distinct.of_links same)]
        · exact same
        · intro next found
          obtain ⟨id, _, found⟩ := Option.bind_eq_some_iff.mp found
          exact (byId_link found).1

theorem reorganize_links (distinct : rows.Distinct) (mine : oneBack ∈ rows) (ancestor) :
    (engine.reorganize oneBack ancestor rows).2.links = rows.links := by
  unfold LiveEngine.reorganize
  by_cases same : ancestor.headerId = oneBack.headerId
  · rw [if_pos same]
  · rw [if_neg same]
    have down := setActiveBackTo_links keeps false engine.nothingToDeactivate ancestor.headerId ((rows.tip.map walkLimit).getD 0) rows.tip rows distinct
      fun header found => mem_links (LiveTable.tip_some found).1
    cases outcome : engine.setActiveBackTo false engine.nothingToDeactivate ancestor.headerId ((rows.tip.map walkLimit).getD 0) rows.tip rows with
    | mk reply changed =>
      rw [outcome] at down
      have links : changed.links = rows.links := down
      simp only [outcome]
      cases reply with
      | error err => exact links
      | ok deactivated =>
        have up := setActiveBackTo_links keeps true (.error .typeError) ancestor.headerId (walkLimit oneBack) (some oneBack) changed (distinct.of_links links)
          fun header found => by
            rw [links, ← Option.some.inj found]
            exact mem_links mine
        exact up.trans links

theorem insertAfter_links (distinct : rows.Distinct) (mine : oneBack ∈ rows)
    (ok : engine.insertAfter oneBack tip newHeader rows = (.ok result, table)) :
    result.noPrev = false ∧ result.badPrev = false ∧ result.noTip = false ∧
      (result.added = true ∧ result.noActiveAncestor = false ∧ table.links = rows.links ++ [newHeader.link] ∨
        result.added = false ∧ result.noActiveAncestor = true ∧ table = rows) := by
  have inserted : ∀ changed : LiveTable, changed.links = rows.links →
      LiveTable.links ((if oneBack.isChainTip then engine.clearChainTip changed oneBack else changed) ++ [newHeader]) = rows.links ++ [newHeader.link] := by
    intro changed same
    have cleared : LiveTable.links (if oneBack.isChainTip then engine.clearChainTip changed oneBack else changed) = rows.links := by
      by_cases flag : oneBack.isChainTip = true
      · rw [if_pos flag, keeps.clearChainTip (distinct.of_links same) (same ▸ mem_links mine), same]
      · rw [if_neg flag, same]
    rw [← cleared]
    exact List.map_append
  unfold LiveEngine.insertAfter at ok
  cases active : newHeader.isActive with
  | false =>
    simp only [active, Bool.false_eq_true, ↓reduceIte, Prod.mk.injEq, Except.ok.injEq] at ok
    obtain ⟨rfl, rfl⟩ := ok
    exact ⟨rfl, rfl, rfl, .inl ⟨rfl, rfl, inserted rows rfl⟩⟩
  | true =>
    simp only [active, ↓reduceIte] at ok
    cases walk : engine.activeAncestor rows (walkLimit oneBack) oneBack with
    | error err => simp [walk] at ok
    | ok found =>
      cases found with
      | none =>
        simp only [walk, Prod.mk.injEq, Except.ok.injEq] at ok
        obtain ⟨rfl, rfl⟩ := ok
        exact ⟨rfl, rfl, rfl, .inr ⟨rfl, rfl, rfl⟩⟩
      | some ancestor =>
        have links := reorganize_links keeps distinct mine ancestor
        cases outcome : engine.reorganize oneBack ancestor rows with
        | mk reply changed =>
          rw [outcome] at links
          simp only [walk, outcome] at ok
          cases reply with
          | error err => simp at ok
          | ok deactivated =>
            simp only [Prod.mk.injEq, Except.ok.injEq] at ok
            obtain ⟨rfl, rfl⟩ := ok
            exact ⟨rfl, rfl, rfl, .inl ⟨rfl, rfl, inserted changed links⟩⟩

theorem deactivate_ok (ancestor fuel : Nat) :
    ∀ (start : Option LiveBlockHeader) (table : LiveTable), table.Distinct → Falling table.links →
      (∀ header ∈ start, header.link ∈ table.links ∧ header.headerId < fuel) →
      ∃ headers, (engine.setActiveBackTo false (.ok ()) ancestor fuel start table).1 = .ok headers := by
  induction fuel with
  | zero =>
    intro start table _ _ listed
    cases start with
    | none => exact ⟨[], rfl⟩
    | some header => exact absurd (listed header rfl).2 (Nat.not_lt_zero _)
  | succ fuel ih =>
    intro start table distinct falling listed
    cases start with
    | none => exact ⟨[], by simp [LiveEngine.setActiveBackTo, Except.map]⟩
    | some header =>
      obtain ⟨mine, enough⟩ := listed header rfl
      rw [LiveEngine.setActiveBackTo]
      by_cases last : header.headerId = ancestor
      · exact ⟨[], by rw [if_pos last]⟩
      · rw [if_neg last]
        have same := keeps.setActive distinct mine false
        simp only [keeps.previous]
        obtain ⟨headers, ok⟩ := ih (header.previousHeaderId.bind (engine.setActive table header false).byId) _ (distinct.of_links same) (same ▸ falling) fun next found => by
          obtain ⟨id, previous, found⟩ := Option.bind_eq_some_iff.mp found
          obtain ⟨its, equal⟩ := byId_link found
          obtain ⟨parent, _, parentId, smaller⟩ := falling header.link mine id previous
          have below : parent.headerId < header.headerId := smaller
          exact ⟨its, by omega⟩
        exact ⟨header :: headers, by rw [ok]; rfl⟩

theorem activate_ok (distinct : rows.Distinct) (ancestor) (fuel : Nat) :
    ∀ (header copy : LiveBlockHeader) (table : LiveTable), engine.activeAncestor rows fuel header = .ok (some ancestor) → header.link ∈ rows.links →
      table.links = rows.links → copy.link = header.link →
      ∃ headers, (engine.setActiveBackTo true (.error .typeError) ancestor.headerId fuel (some copy) table).1 = .ok headers := by
  induction fuel with
  | zero =>
    intro header copy table walk _ _ _
    simp [LiveEngine.activeAncestor] at walk
  | succ fuel ih =>
    intro header copy table walk mine same equal
    have sameId := congrArg HeaderLink.headerId equal
    have samePrevious : copy.previousHeaderId = header.previousHeaderId := congrArg HeaderLink.previousHeaderId equal
    rw [LiveEngine.setActiveBackTo]
    by_cases last : copy.headerId = ancestor.headerId
    · exact ⟨[], by rw [if_pos last]⟩
    · rw [if_neg last]
      rw [LiveEngine.activeAncestor] at walk
      by_cases active : header.isActive = true
      · rw [if_pos active] at walk
        have here : header = ancestor := by simpa using walk
        exact absurd (here ▸ sameId) last
      · rw [if_neg active] at walk
        simp only [keeps.previous] at walk
        cases previous : header.previousHeaderId with
        | none => simp [previous] at walk
        | some id =>
          cases found : rows.byId id with
          | none => simp [previous, found] at walk
          | some parent =>
            simp only [previous, Option.bind_some, found] at walk
            have links := keeps.setActive (distinct.of_links same) (by rw [same, equal]; exact mine : copy.link ∈ table.links) true
            obtain ⟨its, parentId⟩ := byId_link found
            obtain ⟨again, member, linked⟩ : ∃ again ∈ engine.setActive table copy true, again.link = parent.link := by
              rw [← same, ← links] at its
              exact List.mem_map.mp its
            have againId : again.headerId = id := (congrArg HeaderLink.headerId linked).trans parentId
            have read : (engine.setActive table copy true).byId id = some again := by
              rw [← againId]
              exact ((distinct.of_links same).of_links links).byId member
            simp only [keeps.previous, samePrevious, previous, Option.bind_some, read]
            obtain ⟨headers, ok⟩ := ih parent again _ walk (byId_link found).1 (links.trans same) linked
            exact ⟨copy :: headers, by rw [ok]; rfl⟩

theorem activeAncestor_ok (falling : Falling rows.links) (fuel : Nat) :
    ∀ header ∈ rows, header.headerId < fuel → ∃ found, engine.activeAncestor rows fuel header = .ok found := by
  induction fuel with
  | zero => exact fun header _ few => absurd few (Nat.not_lt_zero _)
  | succ fuel ih =>
    intro header mine enough
    rw [LiveEngine.activeAncestor]
    by_cases active : header.isActive = true
    · exact ⟨some header, if_pos active⟩
    · rw [if_neg active]
      simp only [keeps.previous]
      cases found : header.previousHeaderId.bind rows.byId with
      | none => exact ⟨none, rfl⟩
      | some parent =>
        obtain ⟨id, previous, found⟩ := Option.bind_eq_some_iff.mp found
        obtain ⟨its, same⟩ := LiveTable.byId_some found
        obtain ⟨older, _, olderId, smaller⟩ := falling header.link (mem_links mine) id previous
        have below : older.headerId < header.headerId := smaller
        exact ih parent its (by omega)

theorem insertAfter_ok (lets : engine.nothingToDeactivate = .ok ()) (distinct : rows.Distinct) (falling : Falling rows.links) (mine : oneBack ∈ rows) :
    ∃ result table, engine.insertAfter oneBack tip newHeader rows = (.ok result, table) ∧
      (result.added = true ↔ (newHeader.isActive = true → engine.activeAncestor rows (walkLimit oneBack) oneBack ≠ .ok none)) := by
  unfold LiveEngine.insertAfter
  cases active : newHeader.isActive with
  | false => exact ⟨_, _, rfl, by simp⟩
  | true =>
    simp only [↓reduceIte, forall_const]
    obtain ⟨found, walk⟩ := activeAncestor_ok keeps falling (walkLimit oneBack) oneBack mine (Nat.lt_succ_self _)
    rw [walk]
    cases found with
    | none => exact ⟨_, _, rfl, by simp [InsertHeaderResult.none]⟩
    | some ancestor =>
      obtain ⟨deactivated, changed, reorganized⟩ : ∃ deactivated changed, engine.reorganize oneBack ancestor rows = (.ok deactivated, changed) := by
        unfold LiveEngine.reorganize
        by_cases same : ancestor.headerId = oneBack.headerId
        · exact ⟨[], rows, if_pos same⟩
        · rw [if_neg same, lets]
          have listed : ∀ header ∈ rows.tip, header.link ∈ rows.links ∧ header.headerId < (rows.tip.map walkLimit).getD 0 := by
            intro header top
            refine ⟨mem_links (LiveTable.tip_some top).1, ?_⟩
            rw [show rows.tip = some header from top]
            exact Nat.lt_succ_self _
          obtain ⟨headers, down⟩ := deactivate_ok keeps ancestor.headerId ((rows.tip.map walkLimit).getD 0) rows.tip rows distinct falling listed
          have links := setActiveBackTo_links keeps false (.ok ()) ancestor.headerId ((rows.tip.map walkLimit).getD 0) rows.tip rows distinct fun header top =>
            (listed header top).1
          cases outcome : engine.setActiveBackTo false (.ok ()) ancestor.headerId ((rows.tip.map walkLimit).getD 0) rows.tip rows with
          | mk reply changed =>
            rw [outcome] at down links
            obtain rfl : reply = .ok headers := down
            obtain ⟨activated, up⟩ := activate_ok keeps distinct ancestor (walkLimit oneBack) oneBack oneBack changed walk (mem_links mine) links rfl
            exact ⟨headers, _, by simp only [outcome, up]; rfl⟩
      simp only [reorganized]
      exact ⟨_, _, rfl, by simp⟩

end

end WalletToolbox.Chaintracks
