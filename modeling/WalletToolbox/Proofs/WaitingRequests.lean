import Mathlib.Data.List.Sort
import WalletToolbox.Monitor.TaskSendWaiting

/-! What is sent of the waiting requests, and when. Requests are sent together when they are
of one batch; over rows that do not change in the middle of a run its three passes over the
batches find the same ones, and every item of work is one whole batch or one request. -/

namespace WalletToolbox
open Effects List

def Together (req row : DatedReq) : Prop := row = req ∨ ∃ batch, req.batch = some batch ∧ row.batch = some batch

/-- The items of work of a run: what is fetched and whose batch is old enough is sent, a
request with all that wait with it, and nothing is sent twice. -/
structure Sends (agedLimit : Int) (waiting reqs : List DatedReq) (items : List SendWaitingWorkItem) : Prop where
  complete : ∀ row ∈ reqs, (∀ member ∈ waiting, Together row member → member.updated_at < agedLimit) → ∃ item ∈ items, row ∈ item.reqs
  whole : ∀ item ∈ items, ∀ row ∈ item.reqs, ∀ member, member ∈ item.reqs ↔ member ∈ waiting ∧ Together row member
  aged : ∀ item ∈ items, ∀ row ∈ item.reqs, row.updated_at < agedLimit
  fetched : ∀ item ∈ items, ∃ row ∈ reqs, row ∈ item.reqs
  once : ((items.flatMap (·.reqs)).map (·.req.provenTxReqId)).Nodup

section
variable {first second third req row : DatedReq} {batch : String}

theorem batch_eq_some : row.batch = some batch ↔ row.req.batch = some batch ∧ batch ≠ "" := by
  unfold DatedReq.batch truthyText
  rw [Option.filter_eq_some_iff]
  exact and_congr_right fun _ => by rw [decide_eq_true_eq]

theorem Together.refl (row : DatedReq) : Together row row := .inl rfl

theorem Together.symm (together : Together first second) : Together second first := by
  rcases together with same | ⟨batch, one, other⟩
  · exact .inl same.symm
  · exact .inr ⟨batch, other, one⟩

theorem Together.trans (one : Together first second) (other : Together second third) : Together first third := by
  rcases one with rfl | ⟨batch, of, also⟩
  · exact other
  · rcases other with rfl | ⟨batch', of', also'⟩
    · exact .inr ⟨batch, of, also⟩
    · cases also.symm.trans of'
      exact .inr ⟨batch, of, also'⟩

theorem together_none (single : req.batch = none) : Together req row ↔ row = req := by
  constructor
  · rintro (same | ⟨batch, of, _⟩)
    · exact same
    · cases single.symm.trans of
  · exact .inl

theorem together_some (of : req.batch = some batch) : Together req row ↔ row.req.batch = some batch := by
  have named := (batch_eq_some.mp of).2
  constructor
  · rintro (rfl | ⟨other, of', also⟩)
    · exact (batch_eq_some.mp of).1
    · cases of.symm.trans of'
      exact (batch_eq_some.mp also).1
  · exact fun also => .inr ⟨batch, of, batch_eq_some.mpr ⟨also, named⟩⟩

end

theorem ReqTable.distinct (table : ReqTable) : (table.rows.map (·.req.provenTxReqId)).Nodup := by
  have ordered := table.ordered
  rw [List.Nodup, pairwise_map]
  exact ordered.imp fun less => Nat.ne_of_lt less

namespace TaskSendWaiting

section
variable {waiting reqs rest all : List DatedReq} {seenReqIds groupedReqIds reqApiIds : List Nat} {seenBatches : List String} {agedLimit : Int}
  {findBatch : String → List DatedReq} {first second row : DatedReq}

theorem same_row (distinct : (waiting.map (·.req.provenTxReqId)).Nodup) (one : first ∈ waiting) (other : second ∈ waiting)
    (same : first.req.provenTxReqId = second.req.provenTxReqId) : first = second :=
  inj_on_of_nodup_map distinct one other same

theorem unseenReqs_eq (distinct : (rest.map (·.req.provenTxReqId)).Nodup) :
    unseenReqs seenReqIds rest = rest.filter (·.req.provenTxReqId ∉ seenReqIds) := by
  induction rest generalizing seenReqIds with
  | nil => rfl
  | cons head rest ih =>
    obtain ⟨new, distinct⟩ := nodup_cons.mp distinct
    unfold unseenReqs
    split
    · next seen =>
      rw [filter_cons_of_neg (by simpa using seen)]
      exact ih distinct
    · next unseen =>
      rw [filter_cons_of_pos (by simpa using unseen), ih distinct]
      congr 1
      apply filter_congr
      intro row member
      have differs : row.req.provenTxReqId ≠ head.req.provenTxReqId := by
        intro same
        exact new (mem_map.mpr ⟨row, member, same⟩)
      simp [differs]

def Closed (waiting : List DatedReq) (ids : List Nat) : Prop :=
  ∀ row ∈ waiting, row.req.provenTxReqId ∈ ids → ∀ member ∈ waiting, Together row member → member.req.provenTxReqId ∈ ids

theorem mem_expandBatches (distinct : (waiting.map (·.req.provenTxReqId)).Nodup)
    (finds : ∀ batch, findBatch batch = waiting.filter (·.req.batch = some batch)) (within : reqs ⊆ waiting)
    (closed : Closed waiting seenReqIds)
    (batches : ∀ batch ∈ seenBatches, ∀ row ∈ waiting, row.batch = some batch → row.req.provenTxReqId ∈ seenReqIds) :
    (∀ row, row ∈ expandBatches findBatch seenReqIds seenBatches reqs ↔
        row ∈ waiting ∧ row.req.provenTxReqId ∉ seenReqIds ∧ ∃ req ∈ reqs, Together req row) ∧
      ((expandBatches findBatch seenReqIds seenBatches reqs).map (·.req.provenTxReqId)).Nodup := by
  induction reqs generalizing seenReqIds seenBatches with
  | nil =>
    refine ⟨fun row => ?_, nodup_nil⟩
    constructor
    · intro member
      cases member
    · rintro ⟨_, _, req, member, _⟩
      cases member
  | cons req rest ih =>
    obtain ⟨waits, within⟩ := cons_subset.mp within
    unfold expandBatches
    by_cases seen : req.req.provenTxReqId ∈ seenReqIds
    · rw [if_pos seen]
      obtain ⟨is, once⟩ := ih within closed batches
      refine ⟨fun row => (is row).trans ?_, once⟩
      -- What is together with a seen request is seen.
      constructor
      · rintro ⟨waiting, unseen, other, member, together⟩
        exact ⟨waiting, unseen, other, .tail _ member, together⟩
      · rintro ⟨waiting, unseen, other, member, together⟩
        rcases mem_cons.mp member with rfl | member
        · exact absurd (closed other waits seen row waiting together) unseen
        · exact ⟨waiting, unseen, other, member, together⟩
    · rw [if_neg seen]
      cases of : req.batch with
      | none =>
        dsimp only
        have closed' : Closed waiting (req.req.provenTxReqId :: seenReqIds) := by
          intro row member here other waits' together
          rcases mem_cons.mp here with same | old
          · cases same_row distinct member waits same
            rw [(together_none of).mp together]
            exact .head _
          · exact .tail _ (closed row member old other waits' together)
        obtain ⟨is, once⟩ := ih within closed' fun batch member row waits' of' => .tail _ (batches batch member row waits' of')
        constructor
        · intro row
          rw [mem_cons, is row]
          constructor
          · rintro (rfl | ⟨waiting, unseen, other, member, together⟩)
            · exact ⟨waits, seen, row, .head _, .refl row⟩
            · exact ⟨waiting, fun old => unseen (.tail _ old), other, .tail _ member, together⟩
          · rintro ⟨waiting, unseen, other, member, together⟩
            rcases mem_cons.mp member with rfl | member
            · exact .inl ((together_none of).mp together)
            · by_cases same : row.req.provenTxReqId = req.req.provenTxReqId
              · exact .inl (same_row distinct waiting waits same)
              · exact .inr ⟨waiting, fun here => (mem_cons.mp here).elim same unseen, other, member, together⟩
        · refine nodup_cons.mpr ⟨fun here => ?_, once⟩
          obtain ⟨row, member, same⟩ := mem_map.mp here
          exact ((is row).mp member).2.1 (same ▸ .head _)
      | some batch =>
        dsimp only
        rw [if_neg fun member => seen (batches batch member req waits of), finds, unseenReqs_eq (distinct.sublist (filter_sublist.map _))]
        obtain ⟨new, is⟩ : ∃ new, new = (waiting.filter (·.req.batch = some batch)).filter (·.req.provenTxReqId ∉ seenReqIds) := ⟨_, rfl⟩
        rw [← is]
        have mem_new (row : DatedReq) : row ∈ new ↔ row ∈ waiting ∧ row.req.provenTxReqId ∉ seenReqIds ∧ Together req row := by
          rw [is, mem_filter, mem_filter, decide_eq_true_eq, decide_eq_true_eq, together_some of, and_assoc]
          exact and_congr_right fun _ => and_comm
        -- The whole batch is seen now.
        have seen' (row : DatedReq) (waits : row ∈ waiting) (together : Together req row) :
            row.req.provenTxReqId ∈ new.map (·.req.provenTxReqId) ++ seenReqIds := by
          rw [mem_append]
          by_cases old : row.req.provenTxReqId ∈ seenReqIds
          · exact .inr old
          · exact .inl (mem_map_of_mem ((mem_new row).mpr ⟨waits, old, together⟩))
        have closed' : Closed waiting (new.map (·.req.provenTxReqId) ++ seenReqIds) := by
          intro row member here other waits' together
          rcases mem_append.mp here with added | old
          · obtain ⟨same, member', equal⟩ := mem_map.mp added
            obtain ⟨waits'', _, together'⟩ := (mem_new same).mp member'
            cases same_row distinct waits'' member equal
            exact seen' other waits' (together'.trans together)
          · exact mem_append_right _ (closed row member old other waits' together)
        have batches' : ∀ name ∈ batch :: seenBatches, ∀ row ∈ waiting, row.batch = some name →
            row.req.provenTxReqId ∈ new.map (·.req.provenTxReqId) ++ seenReqIds := by
          intro name member row waits' of'
          rcases mem_cons.mp member with rfl | old
          · exact seen' row waits' (.inr ⟨name, of, of'⟩)
          · exact mem_append_right _ (batches name old row waits' of')
        obtain ⟨later, once⟩ := ih within closed' batches'
        constructor
        · intro row
          rw [mem_append, mem_new, later row]
          constructor
          · rintro (⟨waiting, unseen, together⟩ | ⟨waiting, unseen, other, member, together⟩)
            · exact ⟨waiting, unseen, req, .head _, together⟩
            · exact ⟨waiting, fun old => unseen (mem_append_right _ old), other, .tail _ member, together⟩
          · rintro ⟨waiting, unseen, other, member, together⟩
            rcases mem_cons.mp member with rfl | member
            · exact .inl ⟨waiting, unseen, together⟩
            · by_cases added : row.req.provenTxReqId ∈ new.map (·.req.provenTxReqId)
              · obtain ⟨same, member', equal⟩ := mem_map.mp added
                obtain ⟨waits', _, together'⟩ := (mem_new same).mp member'
                cases same_row distinct waits' waiting equal
                exact .inl ⟨waiting, unseen, together'⟩
              · exact .inr ⟨waiting, fun here => (mem_append.mp here).elim added unseen, other, member, together⟩
        · rw [map_append, nodup_append]
          refine ⟨?_, once, ?_⟩
          · rw [is]
            exact distinct.sublist ((filter_sublist.trans filter_sublist).map _)
          · intro id here other there same
            obtain ⟨row, member, equal⟩ := mem_map.mp there
            apply ((later row).mp member).2.1
            rw [equal, ← same]
            exact mem_append_left _ here

theorem isAged_iff : isAged agedLimit rest = true ↔ ∀ row ∈ rest, row.updated_at < agedLimit := by
  unfold isAged
  cases youngest : (rest.map (·.updated_at)).max? with
  | none =>
    rw [max?_eq_none_iff, map_eq_nil_iff] at youngest
    subst youngest
    exact ⟨fun _ row member => (by cases member), fun _ => rfl⟩
  | some most =>
    obtain ⟨member, least⟩ := max?_eq_some_iff.mp youngest
    rw [Option.all_some, decide_eq_true_eq]
    constructor
    · intro old row member
      exact lt_of_le_of_lt (least _ (mem_map_of_mem member)) old
    · intro old
      obtain ⟨row, member, same⟩ := mem_map.mp member
      exact same ▸ old row member

def AllAged (all : List DatedReq) (agedLimit : Int) (req : DatedReq) : Prop :=
  ∀ member ∈ all, Together req member → member.updated_at < agedLimit

theorem AllAged.together (aged : AllAged all agedLimit first) (together : Together first second) : AllAged all agedLimit second :=
  fun member here also => aged member here (together.trans also)

theorem mem_filterAgedReqs (distinct : (all.map (·.req.provenTxReqId)).Nodup) (within : rest ⊆ all) (once : rest.Nodup) :
    (∀ row, row ∈ filterAgedReqs agedLimit all seenBatches rest ↔
        row ∈ all ∧ AllAged all agedLimit row ∧ ∃ req ∈ rest, Together req row ∧ ∀ batch ∈ seenBatches, req.batch ≠ some batch) ∧
      ((filterAgedReqs agedLimit all seenBatches rest).map (·.req.provenTxReqId)).Nodup := by
  induction rest generalizing seenBatches with
  | nil =>
    refine ⟨fun row => ?_, nodup_nil⟩
    constructor
    · intro member
      cases member
    · rintro ⟨_, _, req, member, _⟩
      cases member
  | cons req rest ih =>
    obtain ⟨here, within⟩ := cons_subset.mp within
    obtain ⟨first, once⟩ := nodup_cons.mp once
    unfold filterAgedReqs
    cases of : req.batch with
    | none =>
      dsimp only
      obtain ⟨is, distinct'⟩ := @ih seenBatches within once
      have aged : AllAged all agedLimit req ↔ req.updated_at < agedLimit := by
        constructor
        · exact fun aged => aged req here (.refl req)
        · intro old member _ together
          rw [(together_none of).mp together]
          exact old
      split
      · next old =>
        constructor
        · intro row
          rw [mem_cons, is row]
          constructor
          · rintro (rfl | ⟨member, all', other, there, rest'⟩)
            · exact ⟨here, aged.mpr old, row, .head _, .refl row, fun batch _ => by rw [of]; nofun⟩
            · exact ⟨member, all', other, .tail _ there, rest'⟩
          · rintro ⟨member, all', other, there, together, unseen⟩
            rcases mem_cons.mp there with rfl | there
            · exact .inl ((together_none of).mp together)
            · exact .inr ⟨member, all', other, there, together, unseen⟩
        · refine nodup_cons.mpr ⟨fun again => ?_, distinct'⟩
          obtain ⟨row, member, same⟩ := mem_map.mp again
          obtain ⟨inside, _, other, there, together, _⟩ := (is row).mp member
          cases same_row distinct inside here same
          rw [(together_none of).mp together.symm] at there
          exact first there
      · next young =>
        refine ⟨fun row => (is row).trans ?_, distinct'⟩
        constructor
        · rintro ⟨member, all', other, there, rest'⟩
          exact ⟨member, all', other, .tail _ there, rest'⟩
        · rintro ⟨member, all', other, there, together, unseen⟩
          rcases mem_cons.mp there with rfl | there
          · exact absurd (aged.mp (all'.together together.symm)) young
          · exact ⟨member, all', other, there, together, unseen⟩
    | some batch =>
      dsimp only
      have either (row : DatedReq) : (∃ other ∈ req :: rest, Together other row ∧ ∀ name ∈ seenBatches, other.batch ≠ some name) ↔
          (Together req row ∧ batch ∉ seenBatches) ∨
            ∃ other ∈ rest, Together other row ∧ ∀ name ∈ seenBatches, other.batch ≠ some name := by
        rw [exists_mem_cons_iff, of]
        refine or_congr (and_congr_right fun _ => ?_) Iff.rfl
        exact ⟨fun unseen member => unseen batch member rfl, fun unseen name member same => unseen (Option.some.inj same ▸ member)⟩
      split
      · next seen =>
        obtain ⟨is, distinct'⟩ := @ih seenBatches within once
        refine ⟨fun row => (is row).trans ?_, distinct'⟩
        rw [either row]
        simp [seen]
      · next unseen =>
        obtain ⟨is, distinct'⟩ := @ih (batch :: seenBatches) within once
        have mem_batch (row : DatedReq) : row ∈ all.filter (·.req.batch = some batch) ↔ row ∈ all ∧ Together req row := by
          rw [mem_filter, decide_eq_true_eq, together_some of]
        -- The requests after this one that are not of its batch.
        have later (row : DatedReq) : (∃ other ∈ rest, Together other row ∧ ∀ name ∈ batch :: seenBatches, other.batch ≠ some name) ↔
            ¬ Together req row ∧ ∃ other ∈ rest, Together other row ∧ ∀ name ∈ seenBatches, other.batch ≠ some name := by
          constructor
          · rintro ⟨other, there, together, unseen⟩
            refine ⟨fun same => ?_, other, there, together, fun name member => unseen name (.tail _ member)⟩
            rcases same.trans together.symm with rfl | ⟨name, of', also⟩
            · exact unseen batch (.head _) of
            · cases of.symm.trans of'
              exact unseen batch (.head _) also
          · rintro ⟨apart, other, there, together, unseen⟩
            refine ⟨other, there, together, fun name member => ?_⟩
            rcases mem_cons.mp member with rfl | member
            · intro of'
              exact apart (.trans (.inr ⟨name, of, of'⟩) together)
            · exact unseen name member
        have aged : isAged agedLimit (all.filter (·.req.batch = some batch)) = true ↔ AllAged all agedLimit req := by
          rw [isAged_iff]
          exact ⟨fun old row member together => old row ((mem_batch row).mpr ⟨member, together⟩),
            fun old row member => old row ((mem_batch row).mp member).1 ((mem_batch row).mp member).2⟩
        simp only [later] at is
        split
        · next old =>
          rw [aged] at old
          constructor
          · intro row
            rw [mem_append, mem_batch, is row, either row]
            constructor
            · rintro (⟨member, together⟩ | ⟨member, all', apart, there⟩)
              · exact ⟨member, old.together together, .inl ⟨together, unseen⟩⟩
              · exact ⟨member, all', .inr there⟩
            · rintro ⟨member, all', ⟨together, _⟩ | there⟩
              · exact .inl ⟨member, together⟩
              · by_cases together : Together req row
                · exact .inl ⟨member, together⟩
                · exact .inr ⟨member, all', together, there⟩
          · rw [map_append, nodup_append]
            refine ⟨distinct.sublist (filter_sublist.map _), distinct', ?_⟩
            intro id one other two same
            obtain ⟨row, member, rfl⟩ := mem_map.mp one
            obtain ⟨again, member', rfl⟩ := mem_map.mp two
            obtain ⟨inside, together⟩ := (mem_batch row).mp member
            obtain ⟨inside', _, apart, _⟩ := (is again).mp member'
            cases same_row distinct inside inside' same
            exact apart together
        · next young =>
          rw [aged] at young
          refine ⟨fun row => ?_, distinct'⟩
          rw [is row, either row]
          constructor
          · rintro ⟨member, all', _, there⟩
            exact ⟨member, all', .inr there⟩
          · rintro ⟨member, all', ⟨together, _⟩ | there⟩
            · exact absurd (all'.together together.symm) young
            · exact ⟨member, all', fun together => young (all'.together together.symm), there⟩

structure Groups (waiting : List DatedReq) (groupedReqIds : List Nat) (rest : List DatedReq) (items : List SendWaitingWorkItem) : Prop where
  each : ∀ item ∈ items, ∃ req ∈ rest, req.req.provenTxReqId ∉ groupedReqIds ∧ ∀ member, member ∈ item.reqs ↔ member ∈ waiting ∧ Together req member
  all : ∀ req ∈ rest, req.req.provenTxReqId ∉ groupedReqIds → ∃ item ∈ items, req ∈ item.reqs
  once : ((items.flatMap (·.reqs)).map (·.req.provenTxReqId)).Nodup

theorem workItems_groups (distinct : (waiting.map (·.req.provenTxReqId)).Nodup)
    (finds : ∀ batch, findBatch batch = waiting.filter (·.req.batch = some batch))
    (unsent : ∀ row ∈ waiting, row.req.status = .unsent ∨ row.req.status = .sending)
    (within : rest ⊆ waiting) (once : rest.Nodup)
    (known : ∀ req ∈ rest, ∀ member ∈ waiting, Together req member → member.req.provenTxReqId ∈ reqApiIds)
    (closed : Closed waiting groupedReqIds) : Groups waiting groupedReqIds rest (workItems findBatch reqApiIds groupedReqIds rest) := by
  induction rest generalizing groupedReqIds with
  | nil =>
    constructor
    · intro item member
      cases member
    · intro req member
      cases member
    · exact nodup_nil
  | cons req rest ih =>
    obtain ⟨waits, within⟩ := cons_subset.mp within
    obtain ⟨first, once⟩ := nodup_cons.mp once
    have known' : ∀ other ∈ rest, ∀ member ∈ waiting, Together other member → member.req.provenTxReqId ∈ reqApiIds :=
      fun other member => known other (.tail _ member)
    unfold workItems
    by_cases grouped : req.req.provenTxReqId ∈ groupedReqIds
    · rw [if_pos grouped]
      have groups := ih within once known' closed
      refine ⟨fun item member => ?_, fun other member new => ?_, groups.once⟩
      · obtain ⟨other, there, is⟩ := groups.each item member
        exact ⟨other, .tail _ there, is⟩
      · rcases mem_cons.mp member with rfl | member
        · exact absurd grouped new
        · exact groups.all other member new
    · have sent : ¬ (req.req.status ≠ .unsent ∧ req.req.status ≠ .sending) := by
        rintro ⟨notUnsent, notSending⟩
        exact (unsent req waits).elim notUnsent notSending
      rw [if_neg grouped, if_neg sent]
      cases of : req.batch with
      | none =>
        dsimp only
        have groups := ih within once known' closed
        refine ⟨fun item member => ?_, fun other member new => ?_, ?_⟩
        · rcases mem_cons.mp member with rfl | member
          · refine ⟨req, .head _, grouped, fun other => ?_⟩
            rw [together_none of, mem_singleton]
            exact ⟨fun same => ⟨same ▸ waits, same⟩, And.right⟩
          · obtain ⟨other, there, is⟩ := groups.each item member
            exact ⟨other, .tail _ there, is⟩
        · rcases mem_cons.mp member with rfl | member
          · exact ⟨_, .head _, mem_singleton_self other⟩
          · obtain ⟨item, there, is⟩ := groups.all other member new
            exact ⟨item, .tail _ there, is⟩
        · rw [flatMap_cons, map_append]
          refine nodup_cons.mpr ⟨fun again => ?_, groups.once⟩
          obtain ⟨row, member, same⟩ := mem_map.mp again
          obtain ⟨item, there, member⟩ := mem_flatMap.mp member
          obtain ⟨other, later, _, is⟩ := groups.each item there
          obtain ⟨waits', together⟩ := (is row).mp member
          cases same_row distinct waits' waits same
          rw [(together_none of).mp together.symm] at later
          exact first later
      | some batch =>
        dsimp only
        rw [finds]
        obtain ⟨ids, isIds⟩ : ∃ ids, ids = ((waiting.filter (·.req.batch = some batch)).map (·.req.provenTxReqId)).filter (· ∈ reqApiIds) ++ groupedReqIds := ⟨_, rfl⟩
        rw [← isIds]
        have mem_batch (row : DatedReq) : row ∈ waiting.filter (·.req.batch = some batch) ↔ row ∈ waiting ∧ Together req row := by
          rw [mem_filter, decide_eq_true_eq, together_some of]
        have mem_ids (row : DatedReq) (waits' : row ∈ waiting) : row.req.provenTxReqId ∈ ids ↔ Together req row ∨ row.req.provenTxReqId ∈ groupedReqIds := by
          rw [isIds, mem_append, mem_filter, decide_eq_true_eq]
          refine or_congr ?_ Iff.rfl
          constructor
          · rintro ⟨member, _⟩
            obtain ⟨same, there, equal⟩ := mem_map.mp member
            obtain ⟨waits'', together⟩ := (mem_batch same).mp there
            cases same_row distinct waits'' waits' equal
            exact together
          · intro together
            exact ⟨mem_map.mpr ⟨row, (mem_batch row).mpr ⟨waits', together⟩, rfl⟩, known req (.head _) row waits' together⟩
        have closed' : Closed waiting ids := by
          intro row waits' member other waits'' together
          rw [mem_ids other waits'']
          rcases (mem_ids row waits').mp member with same | old
          · exact .inl (same.trans together)
          · exact .inr (closed row waits' old other waits'' together)
        have groups := ih within once known' closed'
        refine ⟨fun item member => ?_, fun other member new => ?_, ?_⟩
        · rcases mem_cons.mp member with rfl | member
          · exact ⟨req, .head _, grouped, mem_batch⟩
          · obtain ⟨other, there, new, is⟩ := groups.each item member
            refine ⟨other, .tail _ there, fun old => new ?_, is⟩
            exact (mem_ids other (within there)).mpr (.inr old)
        · by_cases together : Together req other
          · refine ⟨_, .head _, (mem_batch other).mpr ⟨?_, together⟩⟩
            rcases mem_cons.mp member with rfl | member
            · exact waits
            · exact within member
          · rcases mem_cons.mp member with rfl | member
            · exact absurd (.refl other) together
            · have new' : other.req.provenTxReqId ∉ ids := fun here => ((mem_ids other (within member)).mp here).elim together new
              obtain ⟨item, there, is⟩ := groups.all other member new'
              exact ⟨item, .tail _ there, is⟩
        · rw [flatMap_cons, map_append, nodup_append]
          refine ⟨distinct.sublist (filter_sublist.map _), groups.once, ?_⟩
          intro id one other two same
          obtain ⟨row, member, rfl⟩ := mem_map.mp one
          obtain ⟨again, member', rfl⟩ := mem_map.mp two
          obtain ⟨waits', together⟩ := (mem_batch row).mp member
          obtain ⟨item, there, member'⟩ := mem_flatMap.mp member'
          obtain ⟨third, later, new, is⟩ := groups.each item there
          obtain ⟨waits'', together'⟩ := (is again).mp member'
          cases same_row distinct waits' waits'' same
          exact new ((mem_ids third (within later)).mpr (.inl (together.trans together'.symm)))

end

section
variable {paging : Paging} {now : Int} {table : ReqTable} {expanding grouping : String → ReqTable} {task : TaskSendWaiting}
  {status : List ProvenTxReqStatus} {limit : Nat} {agedLimit : Int} {waiting reqs : List DatedReq} {items : List SendWaitingWorkItem}

theorem findPage_sublist : (table.findPage paging status limit).Sublist (table.waiting status) := by
  cases paging with
  | ofStatus => exact take_sublist _ _
  | ofAll => exact (take_sublist _ _).filter _

theorem findPage_all (fits : (table.waiting status).length ≤ limit) (rows : paging = .ofAll → table.rows.length ≤ limit) :
    table.findPage paging status limit = table.waiting status := by
  cases paging with
  | ofStatus => exact take_of_length_le fits
  | ofAll =>
    show (table.rows.take limit).filter _ = table.rows.filter _
    rw [take_of_length_le (rows rfl)]

theorem findBatch_eq (status : List ProvenTxReqStatus) (batch : String) (table : ReqTable) :
    table.findBatch status batch = (table.waiting status).filter (·.req.batch = some batch) := by
  unfold ReqTable.findBatch ReqTable.waiting
  rw [filter_filter]

theorem waiting_status {includeSending row} (waits : row ∈ table.waiting (waitingStatus includeSending)) :
    row.req.status = .unsent ∨ row.req.status = .sending := by
  have status : row.req.status ∈ waitingStatus includeSending := by simpa using (mem_filter.mp waits).2
  cases includeSending with
  | false => exact .inl (mem_singleton.mp status)
  | true =>
    rcases mem_cons.mp status with unsent | sending
    · exact .inl unsent
    · exact .inr (mem_singleton.mp sending)

theorem Sends.perm (sends : Sends agedLimit waiting reqs items) (perm : items.Perm others) :
    Sends agedLimit waiting reqs others where
  complete row member aged := by
    obtain ⟨item, there, is⟩ := sends.complete row member aged
    exact ⟨item, perm.mem_iff.mp there, is⟩
  whole item member := sends.whole item (perm.mem_iff.mpr member)
  aged item member := sends.aged item (perm.mem_iff.mpr member)
  fetched item member := sends.fetched item (perm.mem_iff.mpr member)
  once := ((perm.flatMap_right _).map _).nodup_iff.mp sends.once

theorem chunk_sends (still : ∀ batch, expanding batch = table ∧ grouping batch = table) :
    Sends (now - task.agedMsecs) (table.waiting (waitingStatus task.includeSending)) (task.chunk paging now table expanding grouping).reqs
      (task.chunk paging now table expanding grouping).items := by
  apply Sends.perm _ (perm_insertionSort _ _).symm
  obtain ⟨waiting, isWaiting⟩ : ∃ waiting, waiting = table.waiting (waitingStatus task.includeSending) := ⟨_, rfl⟩
  have distinct : (waiting.map (·.req.provenTxReqId)).Nodup := isWaiting ▸ table.distinct.sublist (filter_sublist.map _)
  have expands : ∀ batch, (expanding batch).findBatch (waitingStatus task.includeSending) batch = waiting.filter (·.req.batch = some batch) := by
    intro batch
    rw [(still batch).1, findBatch_eq, isWaiting]
  have regroups : ∀ batch, (grouping batch).findBatch (waitingStatus task.includeSending) batch = waiting.filter (·.req.batch = some batch) := by
    intro batch
    rw [(still batch).2, findBatch_eq, isWaiting]
  have unsent : ∀ row ∈ waiting, row.req.status = .unsent ∨ row.req.status = .sending := fun row member => waiting_status (isWaiting ▸ member)
  have fetched : table.findPage paging (waitingStatus task.includeSending) task.chunkLimit ⊆ waiting := isWaiting ▸ findPage_sublist.subset
  unfold chunk
  dsimp only
  rw [← isWaiting]
  generalize table.findPage paging (waitingStatus task.includeSending) task.chunkLimit = reqs at fetched ⊢
  have nothing : Closed waiting [] := fun row _ member => by cases member
  obtain ⟨isExpanded, distinct'⟩ := mem_expandBatches distinct expands fetched nothing fun _ (member : _ ∈ []) => by cases member
  generalize expandBatches _ [] [] reqs = expanded at isExpanded distinct' ⊢
  have expanded_iff (row : DatedReq) : row ∈ expanded ↔ row ∈ waiting ∧ ∃ req ∈ reqs, Together req row := by
    rw [isExpanded row]
    exact and_congr_right fun _ => and_iff_right not_mem_nil
  obtain ⟨isAged, distinct''⟩ :=
    @mem_filterAgedReqs expanded expanded [] (now - task.agedMsecs) distinct' (List.Subset.refl _) (distinct'.of_map _)
  generalize filterAgedReqs _ expanded [] expanded = aged at isAged distinct'' ⊢
  have aged_iff (row : DatedReq) : row ∈ aged ↔ row ∈ expanded ∧ ∀ member ∈ waiting, Together row member → member.updated_at < now - task.agedMsecs := by
    rw [isAged row]
    constructor
    · rintro ⟨here, old, _⟩
      refine ⟨here, fun member waits together => old member ?_ together⟩
      obtain ⟨_, req, there, with'⟩ := (expanded_iff row).mp here
      exact (expanded_iff member).mpr ⟨waits, req, there, with'.trans together⟩
    · rintro ⟨here, old⟩
      exact ⟨here, fun member there together => old member ((expanded_iff member).mp there).1 together, row, here, .refl row, fun _ member => by cases member⟩
  have within : aged ⊆ waiting := fun row member => ((expanded_iff row).mp ((aged_iff row).mp member).1).1
  -- What waits with an aged request is aged as well.
  have whole (req : DatedReq) (here : req ∈ aged) (member : DatedReq) (waits : member ∈ waiting) (together : Together req member) : member ∈ aged := by
    obtain ⟨there, old⟩ := (aged_iff req).mp here
    obtain ⟨_, first, fetched', with'⟩ := (expanded_iff req).mp there
    rw [aged_iff, expanded_iff]
    exact ⟨⟨waits, first, fetched', with'.trans together⟩, fun other waits' also => old other waits' (together.trans also)⟩
  have groups := workItems_groups distinct regroups unsent within (distinct''.of_map _)
    (fun req here member waits together => mem_map.mpr ⟨member, whole req here member waits together, rfl⟩) nothing
  constructor
  · intro row member old
    apply groups.all row _ not_mem_nil
    rw [aged_iff, expanded_iff]
    exact ⟨⟨fetched member, row, member, .refl row⟩, old⟩
  · intro item member row inside other
    obtain ⟨req, _, _, is⟩ := groups.each item member
    have together := ((is row).mp inside).2
    rw [is other]
    exact and_congr_right fun _ => ⟨fun also => together.symm.trans also, fun also => together.trans also⟩
  · intro item member row inside
    obtain ⟨req, here, _, is⟩ := groups.each item member
    obtain ⟨waits, together⟩ := (is row).mp inside
    exact ((aged_iff req).mp here).2 row waits together
  · intro item member
    obtain ⟨req, here, _, is⟩ := groups.each item member
    obtain ⟨_, first, there, together⟩ := (expanded_iff req).mp ((aged_iff req).mp here).1
    exact ⟨first, there, (is first).mpr ⟨fetched there, together.symm⟩⟩
  · exact groups.once

end
end TaskSendWaiting

namespace SendRun
open TaskSendWaiting

def Timely (sendingMsecs : Nat) (runs : List ExecutedRun) : Prop :=
  ∀ (earlier : List ExecutedRun) (executed : ExecutedRun) (later : List ExecutedRun), runs = earlier ++ executed :: later →
    executed.includeSending = false → ∃ other ∈ earlier, other.includeSending = true ∧ executed.now ≤ other.now + sendingMsecs

def EachSends (agedMsecs : Nat) (runs : List ExecutedRun) : Prop :=
  ∀ executed ∈ runs, Sends (executed.now - agedMsecs) (executed.table.waiting (waitingStatus executed.includeSending))
    executed.chunk.reqs executed.chunk.items

/-- A request that is found in status `sending` by every run since a time has been fetched by
one of them before the first run that comes more than the interval later is over. -/
def Included (sendingMsecs chunkLimit : Nat) (runs : List ExecutedRun) : Prop :=
  ∀ (earlier : List ExecutedRun) (executed : ExecutedRun) (later : List ExecutedRun), runs = earlier ++ executed :: later →
    ∀ (since : Int) (id : Nat), since + sendingMsecs < executed.now →
      (∀ other ∈ earlier ++ [executed], since ≤ other.now →
        (∃ row ∈ other.table.rows, row.req.provenTxReqId = id ∧ row.req.status = .sending) ∧
          (other.table.waiting [.unsent, .sending]).length ≤ chunkLimit) →
      ∃ other ∈ earlier ++ [executed], since ≤ other.now ∧ ∃ row ∈ other.chunk.reqs, row.req.provenTxReqId = id

structure SendsWaiting (run : SendRun) : Prop where
  sends : EachSends run.task.agedMsecs run.runs
  timely : Timely run.task.sendingMsecs run.runs
  included : Included run.task.sendingMsecs run.task.chunkLimit run.runs

/-- A trigger that takes the sending requests along is followed by a run before the next one,
a run without them begins before they are due again, nobody writes rows between the readings of
a run, and a provider that cuts its pages out of all rows has no more than a page of them. -/
def Undisturbed (paging : Paging) (run : SendRun) : SendEvent → Prop
  | .write _ => True
  | .trigger _ | .rejected _ => run.pending = none
  | .runTask now expanding grouping _ _ =>
    (∀ since, run.pending = some since → since ≤ now) ∧
      (run.task.includeSending = false → ∀ last, run.task.lastSendingRunMsecsSinceEpoch = some last → now ≤ last + run.task.sendingMsecs) ∧
      (∀ batch, expanding batch = run.table ∧ grouping batch = run.table) ∧
      (paging = .ofAll → run.table.rows.length ≤ run.task.chunkLimit)

/-- The timer is that of a run that took the sending requests along, or of a trigger whose run
is yet to come. -/
structure Kept (run : SendRun) : Prop where
  sends : EachSends run.task.agedMsecs run.runs
  fetches : ∀ executed ∈ run.runs, executed.includeSending = true →
    (executed.table.waiting [.unsent, .sending]).length ≤ run.task.chunkLimit → executed.chunk.reqs = executed.table.waiting [.unsent, .sending]
  timely : Timely run.task.sendingMsecs run.runs
  timer : ∀ last, run.task.lastSendingRunMsecsSinceEpoch = some last →
    run.pending = some last ∨ ∃ other ∈ run.runs, other.includeSending = true ∧ last ≤ other.now
  started : run.task.includeSending = false → ∃ last, run.task.lastSendingRunMsecsSinceEpoch = some last
  pending : ∀ since, run.pending = some since → run.task.includeSending = true

section
variable {paging : Paging} {run next : SendRun} {event : SendEvent} {runs : List ExecutedRun} {executed : ExecutedRun} {sendingMsecs chunkLimit : Nat}

theorem Timely.append (timely : Timely sendingMsecs runs)
    (last : executed.includeSending = false → ∃ other ∈ runs, other.includeSending = true ∧ executed.now ≤ other.now + sendingMsecs) :
    Timely sendingMsecs (runs ++ [executed]) := by
  intro earlier other later is leaves
  rcases eq_nil_or_concat later with rfl | ⟨rest, final, rfl⟩
  · obtain ⟨rfl, same⟩ := append_inj' is rfl
    cases same
    exact last leaves
  · rw [concat_eq_append, ← cons_append, ← append_assoc] at is
    obtain ⟨same, _⟩ := append_inj' is rfl
    exact timely earlier other rest same leaves

theorem Timely.included (timely : Timely sendingMsecs runs)
    (fetches : ∀ executed ∈ runs, executed.includeSending = true →
      (executed.table.waiting [.unsent, .sending]).length ≤ chunkLimit → executed.chunk.reqs = executed.table.waiting [.unsent, .sending]) :
    Included sendingMsecs chunkLimit runs := by
  intro earlier executed later is since id late stays
  obtain ⟨other, member, includes, recent⟩ : ∃ other ∈ earlier ++ [executed], other.includeSending = true ∧ since ≤ other.now := by
    cases includes : executed.includeSending with
    | true => exact ⟨executed, mem_append_right _ (.head _), includes, by omega⟩
    | false =>
      obtain ⟨other, member, took, near⟩ := timely earlier executed later is includes
      exact ⟨other, mem_append_left _ member, took, by omega⟩
  obtain ⟨⟨row, stored, named, sending⟩, fits⟩ := stays other member recent
  have inside : other ∈ runs := by
    rw [is]
    rcases mem_append.mp member with before | here
    · exact mem_append_left _ before
    · exact mem_append_right _ (mem_singleton.mp here ▸ .head _)
  refine ⟨other, member, recent, row, ?_, named⟩
  rw [fetches other inside includes fits]
  exact mem_filter.mpr ⟨stored, by rw [sending]; decide⟩

theorem Kept.sendsWaiting (kept : Kept run) : SendsWaiting run := ⟨kept.sends, kept.timely, kept.timely.included kept.fetches⟩

theorem step_kept (kept : Kept run) (calm : Undisturbed paging run event) (stepped : step paging run event = some next) : Kept next := by
  cases event with
  | write | rejected =>
    cases stepped
    exact ⟨kept.sends, kept.fetches, kept.timely, kept.timer, kept.started, kept.pending⟩
  | trigger now =>
    cases stepped
    replace calm : run.pending = none := calm
    cases due : run.task.sendingDue now with
    | true =>
      refine ⟨kept.sends, kept.fetches, kept.timely, fun last is => ?_, fun leaves => ?_, fun _ _ => due⟩
      · replace is : (if run.task.sendingDue now then some now else _) = some last := is
        rw [due] at is
        exact .inl is
      · exact absurd (due.symm.trans leaves) (by decide)
    | false =>
      have same : (run.task.trigger now).lastSendingRunMsecsSinceEpoch = run.task.lastSendingRunMsecsSinceEpoch := if_neg (by rw [due]; decide)
      refine ⟨kept.sends, kept.fetches, kept.timely, fun last is => ?_, fun _ => ?_, fun since is => ?_⟩
      · exact kept.timer last (same.symm.trans is)
      · rw [same]
        cases set : run.task.lastSendingRunMsecsSinceEpoch with
        | none =>
          unfold sendingDue at due
          rw [set] at due
          cases due
        | some last => exact ⟨last, rfl⟩
      · exact absurd (calm.symm.trans is) nofun
  | runTask now expanding grouping rejects finished =>
    obtain ⟨inTime, recent, still, fits⟩ := calm
    obtain ⟨executed, isExecuted⟩ : ∃ executed : ExecutedRun, executed =
        { now, includeSending := run.task.includeSending, table := run.table, chunk := run.task.chunk paging now run.table expanding grouping } := ⟨_, rfl⟩
    have sends : EachSends run.task.agedMsecs (run.runs ++ [executed]) := by
      intro other member
      rcases mem_append.mp member with old | new
      · exact kept.sends other old
      · rw [mem_singleton.mp new, isExecuted]
        exact chunk_sends still
    have fetches : ∀ other ∈ run.runs ++ [executed], other.includeSending = true →
        (other.table.waiting [.unsent, .sending]).length ≤ run.task.chunkLimit → other.chunk.reqs = other.table.waiting [.unsent, .sending] := by
      intro other member includes
      rcases mem_append.mp member with old | new
      · exact kept.fetches other old includes
      · rw [mem_singleton.mp new, isExecuted] at includes ⊢
        intro small
        show run.table.findPage paging (waitingStatus run.task.includeSending) run.task.chunkLimit = _
        rw [show run.task.includeSending = true from includes]
        exact findPage_all small fits
    have timely : Timely run.task.sendingMsecs (run.runs ++ [executed]) := by
      apply kept.timely.append
      rw [isExecuted]
      intro leaves
      obtain ⟨last, set⟩ := kept.started leaves
      rcases kept.timer last set with pending | ⟨other, member, took, late⟩
      · exact absurd ((kept.pending last pending).symm.trans leaves) (by decide)
      · have near := recent leaves last set
        refine ⟨other, member, took, ?_⟩
        show now ≤ other.now + run.task.sendingMsecs
        omega
    have timer : ∀ last, run.task.lastSendingRunMsecsSinceEpoch = some last →
        (if run.task.includeSending then none else run.pending) = some last ∨ ∃ other ∈ run.runs ++ [executed], other.includeSending = true ∧ last ≤ other.now := by
      intro last set
      right
      rcases kept.timer last set with pending | ⟨other, member, took, late⟩
      · refine ⟨executed, mem_append_right _ (.head _), ?_, ?_⟩
        · rw [isExecuted]
          exact kept.pending last pending
        · rw [isExecuted]
          exact inTime last pending
      · exact ⟨other, mem_append_left _ member, took, late⟩
    have pending : ∀ since, (if run.task.includeSending then none else run.pending) = some since → run.task.includeSending = true := by
      intro since is
      split at is
      · assumption
      · exact kept.pending since is
    cases stepped
    rw [← isExecuted]
    cases rejects with
    | true => exact ⟨sends, fetches, timely, timer, kept.started, pending⟩
    | false => exact ⟨sends, fetches, timely, timer, kept.started, pending⟩

theorem start_kept (task : TaskSendWaiting) (table : ReqTable) : Kept (start task table) := by
  constructor
  · intro executed member
    cases member
  · intro executed member
    cases member
  · intro earlier executed later is
    cases earlier <;> cases is
  · intro last is
    cases is
  · intro leaves
    cases leaves
  · intro since is
    cases is

end

/-- A request that is being sent, and never gets further. -/
def sendingReq : DatedReq where
  updated_at := 0
  req.provenTxReqId := 1
  req.provenTxId := none
  req.status := .sending
  req.attempts := 1
  req.notified := false
  req.txid := "t"
  req.batch := none
  req.history := []
  req.notify := [1]
  req.rawTx := [1]
  req.inputBEEF := none
  req.wasBroadcast := false
  req.rebroadcastAttempts := 0

def sendingTable : ReqTable := ⟨[sendingReq], List.pairwise_singleton _ _⟩

def sampleRun (now : Int) : SendEvent := .runTask now (fun _ => sendingTable) (fun _ => sendingTable) false (some now)

def sampleSends (events : List SendEvent) : Option SendRun := runEvents (step .ofAll) (start {} sendingTable) events

/-- The trigger half a second after a run takes the sending requests along, without a run. -/
def untimelyEvents : List SendEvent :=
  [.trigger 1000000, sampleRun 1000000, .trigger 1300000, sampleRun 1300000, .trigger 1300500, .trigger 1302000, sampleRun 1302000]

end SendRun
end WalletToolbox
