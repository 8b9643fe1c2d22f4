import Mathlib.Data.List.Nodup
import Mathlib.Data.List.Count
import Mathlib.Logic.Function.Basic
import WalletToolbox.Effects.Fallible

/-! Sweeps over a table, page by page: a page is what the selection lists after an offset,
and the offset advances while the rows that have been processed may leave the selection. -/

namespace Effects

structure Table (Row : Type) where
  ids : List Nat
  nodup : ids.Nodup
  row : Nat → Row

variable {ε Row : Type}

namespace Table

def listed (selected : Row → Bool) (table : Table Row) : List Nat := table.ids.filter fun id => selected (table.row id)

def page (selected : Row → Bool) (limit offset : Nat) (table : Table Row) : List (Nat × Row) :=
  (((table.listed selected).drop offset).take limit).map fun id => (id, table.row id)

def put (id : Nat) (row : Row) (table : Table Row) : Table Row := { table with row := Function.update table.row id row }

theorem listed_nodup (selected : Row → Bool) (table : Table Row) : (table.listed selected).Nodup := table.nodup.filter _

end Table

structure Swept (Row : Type) where
  table : Table Row
  examined : List Nat := []

namespace Sweep
open Fallible
open List (append_assoc append_cancel_left disjoint_take_drop drop_drop drop_sublist filter_append filter_cons filter_eq_self filter_sublist forall_mem_nil length_drop length_take map_cons mem_append mem_cons mem_filter mem_of_mem_drop mem_of_mem_take mem_take_iff_getElem nil_append nodup_cons take_append_drop)

variable (limit : Nat) (selected : Row → Bool) (picked : Nat → Row → Bool) (process : Row → Except ε Row)

/-- One row of a page; it is written when its processing has not thrown. -/
def examine (entry : Nat × Row) : Fallible ε (Swept Row) Unit := do
  change fun swept => { swept with examined := swept.examined ++ [entry.1] }
  let after ← ofExcept (process entry.2)
  change fun swept => { swept with table := swept.table.put entry.1 after }

def examineEach : List (Nat × Row) → Fallible ε (Swept Row) Unit
  | [] => return
  | entry :: rest => do
    examine process entry
    examineEach rest

/-- Pages are read until less than a page of rows has been picked from one. -/
def sweepFrom : Nat → Nat → Nat → Fallible ε (Swept Row) Unit
  | 0, _, _ => return
  | fuel + 1, round, offset => do
    let swept ← current
    let rows := (swept.table.page selected limit offset).filter fun entry => picked round entry.2
    examineEach process rows
    if rows.length < limit then return else sweepFrom fuel (round + 1) (offset + limit)

def sweep : Fallible ε (Swept Row) Unit := do
  let swept ← current
  sweepFrom limit selected picked process (swept.table.ids.length + 1) 0 0

section
variable {limit : Nat} {selected : Row → Bool} {picked : Nat → Row → Bool} {process : Row → Except ε Row}

/-- What is stored of a row that has been examined: a processing that throws writes nothing. -/
def outcome (process : Row → Except ε Row) (row : Row) : Row :=
  match process row with
  | .ok after => after
  | .error _ => row

def Passes (process : Row → Except ε Row) (row : Row) : Prop := (process row).isOk = true

theorem passes_iff : Passes process row ↔ process row = .ok (outcome process row) := by
  unfold Passes outcome
  cases process row with
  | ok after => simp [Except.isOk, Except.toBool]
  | error error => simp [Except.isOk, Except.toBool]

theorem outcome_thrown (thrown : ¬Passes process row) : outcome process row = row := by
  unfold Passes at thrown
  unfold outcome
  cases ran : process row with
  | ok after => exact absurd (by rw [ran]; rfl) thrown
  | error error => rfl

/-- The rows that are examined: those up to the first that throws. -/
def reached (process : Row → Except ε Row) (row : Nat → Row) : List Nat → List Nat
  | [] => []
  | id :: rest => if (process (row id)).isOk then id :: reached process row rest else [id]

theorem reached_sublist (row : Nat → Row) (ids) : (reached process row ids).Sublist ids := by
  induction ids with
  | nil => exact .slnil
  | cons id rest ih =>
    unfold reached
    split
    · exact ih.cons_cons id
    · exact (List.nil_sublist rest).cons_cons id

theorem reached_all (passes : ∀ id ∈ ids, Passes process (row id)) : reached process row ids = ids := by
  induction ids with
  | nil => rfl
  | cons id rest ih =>
    have here : (process (row id)).isOk = true := passes id (.head _)
    rw [reached, if_pos here, ih fun later member => passes later (.tail _ member)]

def passed (process : Row → Except ε Row) (ids : List Nat) (swept : Swept Row) : Swept Row where
  table := { swept.table with row := fun id => if id ∈ ids then outcome process (swept.table.row id) else swept.table.row id }
  examined := swept.examined ++ ids

theorem examine_passes (id : Nat) (swept) (passes : Passes process row) :
    examine process (id, row) swept =
      (.ok (), { table := swept.table.put id (outcome process row), examined := swept.examined ++ [id] }) := by
  rw [examine, change_bind_apply, ofExcept_bind_apply, passes_iff.mp passes]
  rfl

theorem examine_throws (id : Nat) (swept) (throws : ¬Passes process row) :
    ∃ error, examine process (id, row) swept = (.error error, { swept with examined := swept.examined ++ [id] }) := by
  cases ran : process row with
  | ok after => exact absurd (by rw [Passes, ran]; rfl) throws
  | error error =>
    refine ⟨error, ?_⟩
    rw [examine, change_bind_apply, ofExcept_bind_apply, ran]

theorem passed_cons {id ids} (new : id ∉ ids) (swept) :
    passed process ids { table := swept.table.put id (outcome process (swept.table.row id)), examined := swept.examined ++ [id] } =
      passed process (id :: ids) swept := by
  have rows : (fun other => if other ∈ ids then outcome process ((swept.table.put id (outcome process (swept.table.row id))).row other)
        else (swept.table.put id (outcome process (swept.table.row id))).row other) =
      fun other => if other ∈ id :: ids then outcome process (swept.table.row other) else swept.table.row other := by
    funext other
    by_cases same : other = id
    · subst same
      rw [if_neg new, if_pos (List.mem_cons_self ..)]
      exact Function.update_self ..
    · have put : (swept.table.put id (outcome process (swept.table.row id))).row other = swept.table.row other := Function.update_of_ne same ..
      simp only [put, mem_cons, same, false_or]
  unfold passed
  simp only [append_assoc, List.singleton_append, Swept.mk.injEq, and_true]
  exact congrArg (fun row => (⟨swept.table.ids, swept.table.nodup, row⟩ : Table Row)) rows

/-- What examining some rows as they are stored does: the rows that are reached are examined,
and it ends well when none of them throws. -/
theorem examineEach_run {ids} (nodup : ids.Nodup) (row : Nat → Row) (swept : Swept Row)
    (stored : ∀ id ∈ ids, swept.table.row id = row id) :
    ((∀ id ∈ ids, Passes process (row id)) ∧
        examineEach process (ids.map fun id => (id, row id)) swept = (.ok (), passed process ids swept)) ∨
      ((∃ id ∈ ids, ¬Passes process (row id)) ∧
        ∃ error, examineEach process (ids.map fun id => (id, row id)) swept = (.error error, passed process (reached process row ids) swept)) := by
  induction ids generalizing swept with
  | nil =>
    refine .inl ⟨forall_mem_nil _, ?_⟩
    simp [examineEach, passed]
  | cons id rest ih =>
    obtain ⟨new, nodup⟩ := nodup_cons.mp nodup
    have here : swept.table.row id = row id := stored id (.head _)
    by_cases passes : Passes process (row id)
    · have next := ih nodup { table := swept.table.put id (outcome process (row id)), examined := swept.examined ++ [id] } fun later member => by
        have different : later ≠ id := fun same => new (same ▸ member)
        exact (Function.update_of_ne different ..).trans (stored later (.tail _ member))
      have cons : reached process row (id :: rest) = id :: reached process row rest := if_pos passes
      rw [map_cons, examineEach, bind_of_ok (examine_passes id swept passes), cons]
      rcases next with ⟨all, ran⟩ | ⟨⟨later, member, throws⟩, error, ran⟩
      · refine .inl ⟨fun later member => ?_, ?_⟩
        · rcases mem_cons.mp member with rfl | member
          · exact passes
          · exact all later member
        · rw [ran, ← here, passed_cons new]
      · refine .inr ⟨⟨later, .tail _ member, throws⟩, error, ?_⟩
        rw [ran, ← here, passed_cons fun member => new ((reached_sublist row rest).subset member)]
    · obtain ⟨error, ran⟩ := examine_throws id swept passes
      have only : reached process row (id :: rest) = [id] := if_neg passes
      refine .inr ⟨⟨id, .head _, passes⟩, error, ?_⟩
      rw [map_cons, examineEach, bind_of_error ran, only]
      refine congrArg (Prod.mk _) ?_
      have rows : (fun other => if other ∈ [id] then outcome process (swept.table.row other) else swept.table.row other) = swept.table.row := by
        funext other
        split
        next same =>
          rw [List.mem_singleton.mp same, here]
          exact outcome_thrown passes
        next => rfl
      rw [passed, rows]

def picks (limit : Nat) (selected : Row → Bool) (picked : Nat → Row → Bool) (round offset : Nat) (table : Table Row) : List Nat :=
  (((table.listed selected).drop offset).take limit).filter fun id => picked round (table.row id)

theorem picks_page (round offset : Nat) (table) :
    ((table.page selected limit offset).filter fun entry => picked round entry.2) =
      (picks limit selected picked round offset table).map fun id => (id, table.row id) := by
  unfold Table.page picks
  rw [List.filter_map]
  rfl

theorem picks_nodup (round offset : Nat) (table : Table Row) : (picks limit selected picked round offset table).Nodup :=
  (((table.listed_nodup selected).sublist ((List.take_sublist _ _).trans (drop_sublist _ _))).filter _)

theorem picks_listed {round offset table id} (member : id ∈ picks limit selected picked round offset table) :
    id ∈ ((table.listed selected).drop offset).take limit ∧ picked round (table.row id) = true := by
  exact mem_filter.mp member

/-- A round ends the sweep, with a row that throws or after a page with fewer rows to pick, or
it goes on with all its rows examined. -/
theorem sweepFrom_round (limit : Nat) (selected : Row → Bool) (picked : Nat → Row → Bool) (process : Row → Except ε Row)
    (round offset : Nat) (swept) :
    ((∃ id ∈ picks limit selected picked round offset swept.table, ¬Passes process (swept.table.row id)) ∧
      ∃ error, ∀ fuel, sweepFrom limit selected picked process (fuel + 1) round offset swept =
        (.error error, passed process (reached process swept.table.row (picks limit selected picked round offset swept.table)) swept)) ∨
    ((∀ id ∈ picks limit selected picked round offset swept.table, Passes process (swept.table.row id)) ∧
      ∀ fuel, sweepFrom limit selected picked process (fuel + 1) round offset swept =
        if (picks limit selected picked round offset swept.table).length < limit then
          (.ok (), passed process (picks limit selected picked round offset swept.table) swept)
        else sweepFrom limit selected picked process fuel (round + 1) (offset + limit)
          (passed process (picks limit selected picked round offset swept.table) swept)) := by
  have unfolded (fuel : Nat) : sweepFrom limit selected picked process (fuel + 1) round offset swept =
      (examineEach process ((picks limit selected picked round offset swept.table).map fun id => (id, swept.table.row id)) >>= fun _ =>
        if ((picks limit selected picked round offset swept.table).map fun id => (id, swept.table.row id)).length < limit then pure ()
        else sweepFrom limit selected picked process fuel (round + 1) (offset + limit)) swept := by
    rw [← picks_page]
    rfl
  rcases examineEach_run (picks_nodup round offset swept.table) swept.table.row swept fun _ _ => rfl with ⟨all, ran⟩ | ⟨some, error, ran⟩
  · refine .inr ⟨all, fun fuel => ?_⟩
    rw [unfolded, bind_of_ok ran, List.length_map]
    split <;> rfl
  · exact .inl ⟨some, error, fun fuel => (unfolded fuel).trans (bind_of_error ran)⟩

theorem listed_passed {ids} (swept) (listed : ∀ id ∈ ids, id ∈ swept.table.listed selected) :
    (passed process ids swept).table.listed selected =
      (swept.table.listed selected).filter fun id => id ∉ ids ∨ selected (outcome process (swept.table.row id)) = true := by
  unfold Table.listed passed
  rw [List.filter_filter]
  refine List.filter_congr fun id member => ?_
  by_cases here : id ∈ ids
  · have was := (mem_filter.mp (listed id here)).2
    simp [here, was]
  · simp [here]

theorem listed_passed_sublist {ids} (swept) (listed : ∀ id ∈ ids, id ∈ swept.table.listed selected) :
    ((passed process ids swept).table.listed selected).Sublist (swept.table.listed selected) := by
  rw [listed_passed swept listed]
  exact filter_sublist

theorem picks_from {round offset table id} (member : id ∈ picks limit selected picked round offset table) :
    id ∈ table.listed selected := mem_of_mem_drop (mem_of_mem_take (picks_listed member).1)

structure Examines (selected : Row → Bool) (process : Row → Except ε Row) (offset : Nat) (swept final : Swept Row) (new : List Nat) : Prop where
  examined : final.examined = swept.examined ++ new
  nodup : new.Nodup
  listed : ∀ id ∈ new, id ∈ (swept.table.listed selected).drop offset
  rows : ∀ id, final.table.row id = if id ∈ new then outcome process (swept.table.row id) else swept.table.row id

theorem examines_passed (nodup : ids.Nodup) (swept)
    (listed : ∀ id ∈ ids, id ∈ (swept.table.listed selected).drop offset) :
    Examines selected process offset swept (passed process ids swept) ids :=
  ⟨rfl, nodup, listed, fun _ => rfl⟩

theorem Examines.after (nodup : ids.Nodup)
    (page : ∀ id ∈ ids, id ∈ ((swept.table.listed selected).drop offset).take limit)
    (later : Examines selected process (offset + limit) (passed process ids swept) final new) :
    Examines selected process offset swept final (ids ++ new) := by
  have listed : ∀ id ∈ ids, id ∈ swept.table.listed selected := fun id member =>
    mem_of_mem_drop (mem_of_mem_take (page id member))
  have beyond : ∀ id ∈ new, id ∈ ((swept.table.listed selected).drop offset).drop limit := fun id member => by
    rw [drop_drop]
    exact ((listed_passed_sublist swept listed).drop _).subset (later.listed id member)
  have apart : ids.Disjoint new := fun id here there =>
    disjoint_take_drop ((swept.table.listed_nodup selected).sublist (drop_sublist ..)) (Nat.le_refl limit) (page id here) (beyond id there)
  refine ⟨?_, ?_, ?_, ?_⟩
  · rw [later.examined, passed, append_assoc]
  · exact List.nodup_append'.mpr ⟨nodup, later.nodup, apart⟩
  · intro id member
    rcases mem_append.mp member with here | there
    · exact mem_of_mem_take (page id here)
    · exact mem_of_mem_drop (beyond id there)
  · intro id
    rw [later.rows id]
    simp only [passed, mem_append]
    by_cases here : id ∈ ids
    · have once : id ∉ new := fun there => apart here there
      simp [here, once]
    · simp [here]

theorem sweepFrom_examines (fuel round offset : Nat) (swept : Swept Row) :
    ∃ new, Examines selected process offset swept (sweepFrom limit selected picked process fuel round offset swept).2 new := by
  induction fuel generalizing round offset swept with
  | zero =>
    exact ⟨[], (List.append_nil _).symm, .nil, forall_mem_nil _, fun _ => rfl⟩
  | succ fuel ih =>
    have page : ∀ id ∈ picks limit selected picked round offset swept.table, id ∈ ((swept.table.listed selected).drop offset).take limit :=
      fun id member => (picks_listed member).1
    rcases sweepFrom_round limit selected picked process round offset swept with ⟨-, error, ran⟩ | ⟨-, ran⟩
    · rw [ran fuel]
      have sublist := @reached_sublist _ _ process swept.table.row (picks limit selected picked round offset swept.table)
      exact ⟨_, examines_passed ((picks_nodup ..).sublist sublist) swept fun id member => mem_of_mem_take (page id (sublist.subset member))⟩
    · rw [ran fuel]
      split
      · exact ⟨_, examines_passed (picks_nodup ..) swept fun id member => mem_of_mem_take (page id member)⟩
      · obtain ⟨new, later⟩ := ih (round + 1) (offset + limit) (passed process (picks limit selected picked round offset swept.table) swept)
        exact ⟨_, later.after (picks_nodup ..) page⟩

end

section
variable {limit : Nat} {selected : Row → Bool} {process : Row → Except ε Row}

/-- No row but the last throws, and no row leaves the selection while a later page is to be read. -/
def Undisturbed (limit : Nat) (selected : Row → Bool) (process : Row → Except ε Row) (row : Nat → Row) (ids : List Nat) : Prop :=
  ∀ i (inside : i < ids.length), (i + 1 < ids.length → Passes process (row ids[i])) ∧
    ((i / limit + 1) * limit < ids.length → selected (outcome process (row ids[i])) = true)

variable {row : Nat → Row} {ids : List Nat}

theorem Undisturbed.congr (same : ∀ id ∈ ids, other id = row id) :
    Undisturbed limit selected process other ids ↔ Undisturbed limit selected process row ids := by
  have each (i : Nat) (inside : i < ids.length) : other ids[i] = row ids[i] := same _ (List.getElem_mem inside)
  constructor <;> intro undisturbed i inside
  · rw [← each i inside]
    exact undisturbed i inside
  · rw [each i inside]
    exact undisturbed i inside

theorem undisturbed_page (short : ids.length ≤ limit) :
    Undisturbed limit selected process row ids ↔ ∀ i (inside : i < ids.length), i + 1 < ids.length → Passes process (row ids[i]) := by
  constructor
  · intro undisturbed i inside
    exact (undisturbed i inside).1
  · intro passes i inside
    refine ⟨passes i inside, fun beyond => absurd beyond (Nat.not_lt.mpr ?_)⟩
    exact Nat.le_trans short (Nat.le_mul_of_pos_left limit (Nat.succ_pos _))

/-- With more than one page, the rows of the first stay and do not throw, and the others are undisturbed. -/
theorem undisturbed_pages (positive : 0 < limit) (long : limit < ids.length) :
    Undisturbed limit selected process row ids ↔
      (∀ id ∈ ids.take limit, Passes process (row id) ∧ selected (outcome process (row id)) = true) ∧
        Undisturbed limit selected process row (ids.drop limit) := by
  constructor
  · intro undisturbed
    constructor
    · intro id member
      obtain ⟨i, inside, rfl⟩ := List.mem_iff_getElem.mp member
      rw [length_take] at inside
      rw [List.getElem_take]
      have first : i / limit = 0 := Nat.div_eq_of_lt (by omega)
      obtain ⟨passes, stays⟩ := undisturbed i (by omega)
      exact ⟨passes (by omega), stays (by rw [first]; omega)⟩
    · intro i inside
      rw [length_drop] at inside ⊢
      rw [List.getElem_drop]
      obtain ⟨passes, stays⟩ := undisturbed (limit + i) (by omega)
      refine ⟨fun later => passes (by omega), fun later => stays ?_⟩
      rw [Nat.add_div_left i positive, Nat.add_mul]
      omega
  · rintro ⟨page, rest⟩ i inside
    by_cases first : i < limit
    · have member : ids[i] ∈ ids.take limit := mem_take_iff_getElem.mpr ⟨i, by omega, rfl⟩
      obtain ⟨passes, stays⟩ := page _ member
      exact ⟨fun _ => passes, fun _ => stays⟩
    · obtain ⟨j, rfl⟩ := Nat.exists_eq_add_of_le (Nat.not_lt.mp first)
      obtain ⟨passes, stays⟩ := rest j (by rw [length_drop]; omega)
      simp only [length_drop, List.getElem_drop] at passes stays
      refine ⟨fun later => passes (by omega), fun later => stays ?_⟩
      rw [Nat.add_div_left j positive, Nat.add_mul] at later
      omega

theorem drop_filter_one (positive : 0 < m) : ∀ id ∈ (ids.filter keeps).drop m, id ∈ ids.drop 1 := by
  intro id member
  have later := (List.drop_sublist_drop_left _ positive).subset member
  cases ids with
  | nil => nomatch later
  | cons first rest =>
    rw [filter_cons] at later
    split at later
    · exact filter_sublist.subset later
    · exact filter_sublist.subset (mem_of_mem_drop later)

theorem drop_filter_leaves {keeps n} (leaves : ∃ id ∈ ids.take n, keeps id = false) :
    ∀ id ∈ (ids.filter keeps).drop n, id ∈ ids.drop (n + 1) := by
  intro id member
  obtain ⟨gone, here, leaves⟩ := leaves
  have fewer : ((ids.take n).filter keeps).length < (ids.take n).length := by
    refine List.length_filter_lt_length_iff_exists.mpr ⟨gone, here, ?_⟩
    rw [leaves]
    exact Bool.false_ne_true
  have bound : (ids.take n).length ≤ n := List.length_take_le ..
  rw [← take_append_drop n ids, filter_append, List.drop_append, List.drop_eq_nil_of_le (by omega), nil_append] at member
  rw [← drop_drop]
  exact drop_filter_one (by omega) id member

def all : Nat → Row → Bool := fun _ _ => true

theorem picks_all (round offset : Nat) (table) :
    picks limit selected all round offset table = ((table.listed selected).drop offset).take limit := filter_eq_self.mpr fun _ _ => rfl

theorem mem_reached_rest {id other} (new : id ∉ ids) (member : other ∈ ids) :
    other ∈ reached process row (id :: ids) ↔ Passes process (row id) ∧ other ∈ reached process row ids := by
  have different : other ≠ id := fun same => new (same ▸ member)
  by_cases passes : Passes process (row id)
  · have cons : reached process row (id :: ids) = id :: reached process row ids := if_pos passes
    simp [cons, different, passes]
  · have only : reached process row (id :: ids) = [id] := if_neg passes
    simp [only, different, passes]

theorem reached_each (nodup : ids.Nodup) :
    (∀ id ∈ ids, id ∈ reached process row ids) ↔ ∀ i (inside : i < ids.length), i + 1 < ids.length → Passes process (row ids[i]) := by
  induction ids with
  | nil => exact iff_of_true (forall_mem_nil _) fun i inside => nomatch inside
  | cons id rest ih =>
    obtain ⟨new, nodup⟩ := nodup_cons.mp nodup
    constructor
    · intro each i inside later
      have rest_each : ∀ other ∈ rest, Passes process (row id) ∧ other ∈ reached process row rest := fun other member =>
        (mem_reached_rest new member).mp (each other (.tail _ member))
      cases i with
      | zero =>
        have some := Nat.lt_of_succ_lt_succ later
        exact (rest_each rest[0] (List.getElem_mem some)).1
      | succ i =>
        exact (ih nodup).mp (fun other member => (rest_each other member).2) i (Nat.lt_of_succ_lt_succ inside) (Nat.lt_of_succ_lt_succ later)
    · intro passes other member
      rcases mem_cons.mp member with rfl | member
      · unfold reached
        split <;> exact .head _
      · refine (mem_reached_rest new member).mpr ⟨?_, ?_⟩
        · exact passes 0 (Nat.succ_pos _) (Nat.succ_lt_succ (List.length_pos_of_mem member))
        · exact (ih nodup).mpr (fun i inside later => passes (i + 1) (Nat.succ_lt_succ inside) (Nat.succ_lt_succ later)) other member

theorem first_not_later (nodup : ids.Nodup) (some : 0 < ids.length) : ¬∀ id ∈ ids, id ∈ ids.drop 1 := by
  intro each
  cases ids with
  | nil => exact absurd some (Nat.lt_irrefl 0)
  | cons first rest => exact (nodup_cons.mp nodup).1 (each first (.head _))

theorem page_and_rest (nodup : ids.Nodup) :
    (∀ id ∈ ids, id ∈ ids.take limit ++ new) ↔ ∀ id ∈ ids.drop limit, id ∈ new := by
  constructor
  · intro each id member
    rcases mem_append.mp (each id (mem_of_mem_drop member)) with page | rest
    · exact absurd member (disjoint_take_drop nodup (Nat.le_refl limit) page)
    · exact rest
  · intro rest id member
    rw [← take_append_drop limit ids] at member
    rcases mem_append.mp member with page | later
    · exact List.mem_append_left _ page
    · exact List.mem_append_right _ (rest id later)

theorem examines_all_iff (positive : 0 < limit) (round : Nat) (swept)
    (enough : (swept.table.listed selected).length < offset + fuel * limit)
    (examines : Examines selected process offset swept (sweepFrom limit selected all process fuel round offset swept).2 new) :
    (∀ id ∈ (swept.table.listed selected).drop offset, id ∈ new) ↔
      Undisturbed limit selected process swept.table.row ((swept.table.listed selected).drop offset) := by
  induction fuel generalizing round offset swept new with
  | zero =>
    rw [List.drop_eq_nil_of_le (by omega)]
    exact iff_of_true (forall_mem_nil _) fun i inside => nomatch inside
  | succ fuel ih =>
    have nodup := (swept.table.listed_nodup selected).sublist (drop_sublist offset _)
    have page : ∀ id ∈ ((swept.table.listed selected).drop offset).take limit, id ∈ swept.table.listed selected :=
      fun id member => mem_of_mem_drop (mem_of_mem_take member)
    have single (short : ((swept.table.listed selected).drop offset).length ≤ limit) :=
      @undisturbed_page _ _ limit selected process swept.table.row _ short
    rcases sweepFrom_round limit selected all process round offset swept with ⟨⟨id, member, throws⟩, error, ran⟩ | ⟨passes, ran⟩
    · rw [picks_all] at member
      have same : new = reached process swept.table.row (((swept.table.listed selected).drop offset).take limit) := by
        have := examines.examined
        rw [ran fuel, picks_all] at this
        exact (append_cancel_left this).symm
      subst same
      by_cases short : ((swept.table.listed selected).drop offset).length ≤ limit
      · rw [single short, List.take_of_length_le short]
        exact reached_each nodup
      · -- the row that throws keeps the second page from being read
        rw [undisturbed_pages positive (Nat.not_le.mp short)]
        refine iff_of_false (fun each => ?_) fun undisturbed => throws (undisturbed.1 id member).1
        have next : ((swept.table.listed selected).drop offset)[limit] ∈ ((swept.table.listed selected).drop offset).drop limit :=
          List.mem_drop_iff_getElem.mpr ⟨0, by omega, rfl⟩
        have early := (reached_sublist _ _).subset (each _ (mem_of_mem_drop next))
        exact disjoint_take_drop nodup (Nat.le_refl limit) early next
    · rw [picks_all] at passes
      have ran := ran fuel
      rw [picks_all] at ran
      by_cases short : ((swept.table.listed selected).drop offset).length ≤ limit
      · -- the only page
        rw [List.take_of_length_le short] at passes page ran
        rw [single short]
        refine iff_of_true (fun id member => ?_) fun i inside _ => passes _ (List.getElem_mem inside)
        rw [ran] at examines
        split at examines
        · rw [append_cancel_left examines.examined.symm]
          exact member
        · obtain ⟨rest, later⟩ := @sweepFrom_examines _ _ limit selected all process fuel (round + 1) (offset + limit)
            (passed process ((swept.table.listed selected).drop offset) swept)
          have same := examines.examined.symm.trans later.examined
          rw [passed, append_assoc] at same
          rw [append_cancel_left same]
          exact List.mem_append_left _ member
      · -- the sweep goes on behind a full page
        have long := Nat.not_le.mp short
        have full : ¬(((swept.table.listed selected).drop offset).take limit).length < limit := by
          rw [length_take]
          omega
        rw [if_neg full] at ran
        rw [ran] at examines
        obtain ⟨rest, later⟩ := @sweepFrom_examines _ _ limit selected all process fuel (round + 1) (offset + limit)
          (passed process (((swept.table.listed selected).drop offset).take limit) swept)
        have same := examines.examined.symm.trans later.examined
        rw [passed, append_assoc] at same
        rw [append_cancel_left same, page_and_rest nodup, undisturbed_pages positive long]
        have moved := @listed_passed _ _ selected process _ swept page
        by_cases stay : ∀ id ∈ ((swept.table.listed selected).drop offset).take limit, selected (outcome process (swept.table.row id)) = true
        · have listed : (passed process (((swept.table.listed selected).drop offset).take limit) swept).table.listed selected =
              swept.table.listed selected := by
            rw [moved]
            refine filter_eq_self.mpr fun id _ => ?_
            by_cases here : id ∈ ((swept.table.listed selected).drop offset).take limit
            · simp [stay id here]
            · simp [here]
          have next := ih (round + 1) _ (by rw [listed]; rw [Nat.succ_mul] at enough; omega) later
          rw [listed, ← drop_drop] at next
          rw [next, Undisturbed.congr fun id member => ?_]
          · exact (and_iff_right fun id member => ⟨passes id member, stay id member⟩).symm
          · exact if_neg fun here => disjoint_take_drop nodup (Nat.le_refl limit) here member
        · -- the first row of the second page moves into the first
          refine iff_of_false (fun each => ?_) fun undisturbed => stay fun id member => (undisturbed.1 id member).2
          push Not at stay
          obtain ⟨gone, here, leaves⟩ := stay
          have front : gone ∈ (swept.table.listed selected).take (offset + limit) := by
            rw [List.take_add]
            exact List.mem_append_right _ here
          have gap := @drop_filter_leaves (swept.table.listed selected)
            (fun id => id ∉ ((swept.table.listed selected).drop offset).take limit ∨ selected (outcome process (swept.table.row id)) = true)
            (offset + limit) ⟨gone, front, by simp [here, leaves]⟩
          rw [← moved] at gap
          refine first_not_later (nodup.sublist (drop_sublist limit _)) (by rw [length_drop]; omega) fun id member => ?_
          rw [drop_drop, drop_drop]
          exact gap id (later.listed id (each id member))

end

section
variable {limit : Nat} {selected : Row → Bool} {picked : Nat → Row → Bool} {process : Row → Except ε Row} {row : Nat → Row} {ids : List Nat}

/-- A sweep arrives at a row of every second page when it picks the row, has picked all rows of
every second page before, and none of them has thrown. -/
structure Arrives (limit : Nat) (picked : Nat → Row → Bool) (process : Row → Except ε Row) (row : Nat → Row) (round : Nat) (ids : List Nat)
    (i : Nat) (inside : i < ids.length) : Prop where
  even : i / limit % 2 = 0
  here : picked (round + i / limit / 2) (row ids[i]) = true
  full : ∀ j (before : j < i), j / limit % 2 = 0 → j / limit < i / limit → picked (round + j / limit / 2) (row ids[j]) = true
  passes : ∀ j (before : j < i), j / limit % 2 = 0 → picked (round + j / limit / 2) (row ids[j]) = true → Passes process (row ids[j])

theorem mem_reached_filter {chosen} (nodup : ids.Nodup) (i : Nat) (inside : i < ids.length) :
    ids[i] ∈ reached process row (ids.filter chosen) ↔
      chosen ids[i] = true ∧ ∀ j (before : j < i), chosen ids[j] = true → Passes process (row ids[j]) := by
  induction ids generalizing i with
  | nil => nomatch inside
  | cons id rest ih =>
    obtain ⟨new, nodup⟩ := nodup_cons.mp nodup
    cases i with
    | zero =>
      rw [filter_cons]
      split
      next picked =>
        refine iff_of_true ?_ ⟨picked, fun j before => nomatch before⟩
        change id ∈ reached process row (id :: rest.filter chosen)
        unfold reached
        split <;> exact .head _
      next unpicked =>
        refine iff_of_false (fun member => ?_) fun both => unpicked both.1
        exact new (filter_sublist.subset ((reached_sublist _ _).subset member))
    | succ i =>
      have later := Nat.lt_of_succ_lt_succ inside
      have next := ih nodup i later
      rw [filter_cons]
      split
      next picked =>
        by_cases chosenHere : chosen rest[i] = true
        · have member := mem_filter.mpr ⟨List.getElem_mem later, chosenHere⟩
          rw [List.getElem_cons_succ, mem_reached_rest (fun there => new (List.mem_of_mem_filter there)) member, next]
          constructor
          · rintro ⟨first, _, others⟩
            refine ⟨chosenHere, fun j before chosenJ => ?_⟩
            cases j with
            | zero => exact first
            | succ j => exact others j (Nat.lt_of_succ_lt_succ before) chosenJ
          · rintro ⟨_, others⟩
            exact ⟨others 0 (Nat.succ_pos i) picked, chosenHere, fun j before => others (j + 1) (Nat.succ_lt_succ before)⟩
        · refine iff_of_false (fun member => chosenHere ?_) fun both => chosenHere both.1
          rcases mem_cons.mp ((reached_sublist _ _).subset member) with same | member
          · exact absurd (same ▸ List.getElem_mem later) new
          · exact (mem_filter.mp member).2
      next unpicked =>
        rw [List.getElem_cons_succ, next]
        refine and_congr_right fun _ => ⟨fun others j before chosenJ => ?_, fun others j before => others (j + 1) (Nat.succ_lt_succ before)⟩
        cases j with
        | zero => exact absurd chosenJ unpicked
        | succ j => exact others j (Nat.lt_of_succ_lt_succ before) chosenJ

theorem arrives_first {round} (inside : i < ids.length) (first : i < limit) :
    Arrives limit picked process row round ids i inside ↔
      picked round (row ids[i]) = true ∧ ∀ j (before : j < i), picked round (row ids[j]) = true → Passes process (row ids[j]) := by
  have zero (j : Nat) (before : j ≤ i) : j / limit = 0 := Nat.div_eq_of_lt (by omega)
  constructor
  · rintro ⟨-, here, -, passes⟩
    rw [zero i (Nat.le_refl i)] at here
    refine ⟨here, fun j before chosen => passes j before (by rw [zero j (Nat.le_of_lt before)]) ?_⟩
    rw [zero j (Nat.le_of_lt before)]
    exact chosen
  · rintro ⟨here, passes⟩
    refine ⟨by rw [zero i (Nat.le_refl i)], by rw [zero i (Nat.le_refl i)]; exact here, fun j before _ fewer => ?_, fun j before _ chosen => ?_⟩
    · rw [zero i (Nat.le_refl i)] at fewer
      exact absurd fewer (Nat.not_lt_zero _)
    · rw [zero j (Nat.le_of_lt before)] at chosen
      exact passes j before chosen

/-- Two pages further: the first page is picked as a whole and none of it throws. -/
theorem arrives_later {round} (positive : 0 < limit) (inside : 2 * limit + i < ids.length) :
    Arrives limit picked process row round ids (2 * limit + i) inside ↔
      (∀ id ∈ ids.take limit, picked round (row id) = true ∧ Passes process (row id)) ∧
        Arrives limit picked process row (round + 1) (ids.drop (2 * limit)) i (by rw [length_drop]; omega) := by
  have moved (j : Nat) : (2 * limit + j) / limit = j / limit + 2 := by
    rw [Nat.mul_comm, Nat.mul_add_div positive, Nat.add_comm]
  have shifted (j : Nat) : round + (j / limit + 2) / 2 = round + 1 + j / limit / 2 := by omega
  constructor
  · rintro ⟨even, here, full, passes⟩
    refine ⟨fun id member => ?_, ?_, ?_, ?_, ?_⟩
    · obtain ⟨j, before, rfl⟩ := List.mem_iff_getElem.mp member
      rw [length_take] at before
      have zero : j / limit = 0 := Nat.div_eq_of_lt (by omega)
      have chosen := full j (by omega) (by rw [zero]) (by rw [zero, moved]; exact Nat.succ_pos _)
      have passed := passes j (by omega) (by rw [zero]) chosen
      rw [zero] at chosen
      rw [List.getElem_take]
      exact ⟨chosen, passed⟩
    · rw [moved] at even
      omega
    · rw [moved, shifted] at here
      rw [List.getElem_drop]
      exact here
    · intro j before evenJ fewer
      have chosen := full (2 * limit + j) (by omega) (by rw [moved]; omega) (by rw [moved, moved]; omega)
      rw [moved, shifted] at chosen
      rw [List.getElem_drop]
      exact chosen
    · intro j before evenJ chosen
      rw [List.getElem_drop] at chosen ⊢
      exact passes (2 * limit + j) (by omega) (by rw [moved]; omega) (by rw [moved, shifted]; exact chosen)
  · rintro ⟨page, even, here, full, passes⟩
    have cases (j : Nat) (evenJ : j / limit % 2 = 0) : j < limit ∨ ∃ k, j = 2 * limit + k := by
      by_cases first : j < limit
      · exact .inl first
      · refine .inr (Nat.exists_eq_add_of_le (Nat.le_of_not_lt fun second => ?_))
        obtain ⟨k, rfl⟩ := Nat.exists_eq_add_of_le (Nat.not_lt.mp first)
        have one : (limit + k) / limit = 1 := by
          rw [Nat.add_div_left k positive, Nat.div_eq_of_lt (by omega)]
        rw [one] at evenJ
        omega
    have listed (j : Nat) (first : j < limit) (before : j < ids.length) : ids[j] ∈ ids.take limit :=
      mem_take_iff_getElem.mpr ⟨j, by omega, rfl⟩
    refine ⟨by rw [moved]; omega, ?_, fun j before evenJ fewer => ?_, fun j before evenJ chosen => ?_⟩
    · rw [List.getElem_drop] at here
      rw [moved, shifted]
      exact here
    · rcases cases j evenJ with first | ⟨k, rfl⟩
      · rw [Nat.div_eq_of_lt first]
        exact (page _ (listed j first (by omega))).1
      · rw [moved] at evenJ fewer ⊢
        rw [moved] at fewer
        have := full k (by omega) (by omega) (by omega)
        rw [List.getElem_drop] at this
        rw [shifted]
        exact this
    · rcases cases j evenJ with first | ⟨k, rfl⟩
      · exact (page _ (listed j first (by omega))).2
      · rw [moved] at evenJ chosen
        rw [shifted] at chosen
        have := passes k (by omega) (by omega)
        rw [List.getElem_drop] at this
        exact this chosen

theorem Arrives.congr {round} (same : ∀ id ∈ ids, other id = row id) :
    Arrives limit picked process other round ids i inside ↔ Arrives limit picked process row round ids i inside := by
  have each (j : Nat) (here : j < ids.length) : other ids[j] = row ids[j] := same _ (List.getElem_mem here)
  constructor <;> rintro ⟨even, here, full, passes⟩
  · refine ⟨even, each i inside ▸ here, fun j before evenJ fewer => ?_, fun j before evenJ chosen => ?_⟩
    · exact each j (by omega) ▸ full j before evenJ fewer
    · exact each j (by omega) ▸ passes j before evenJ (each j (by omega) ▸ chosen)
  · refine ⟨even, (each i inside).symm ▸ here, fun j before evenJ fewer => ?_, fun j before evenJ chosen => ?_⟩
    · exact (each j (by omega)).symm ▸ full j before evenJ fewer
    · exact (each j (by omega)).symm ▸ passes j before evenJ ((each j (by omega)).symm ▸ chosen)

theorem drop_take_add (offset limit : Nat) (ids : List Nat) (inside : offset ≤ ids.length) :
    (ids.take offset ++ ids.drop (offset + limit)).drop (offset + limit) = (ids.drop offset).drop (2 * limit) := by
  rw [List.drop_append, List.drop_eq_nil_of_le (by rw [length_take]; omega), nil_append, length_take,
    Nat.min_eq_left inside, drop_drop, drop_drop]
  congr 1
  omega

theorem listed_without_page (offset : Nat) (swept : Swept Row)
    (leave : ∀ id ∈ ((swept.table.listed selected).drop offset).take limit, selected (outcome process (swept.table.row id)) = false) :
    (passed process (((swept.table.listed selected).drop offset).take limit) swept).table.listed selected =
      (swept.table.listed selected).take offset ++ (swept.table.listed selected).drop (offset + limit) := by
  have nodup := swept.table.listed_nodup selected
  rw [listed_passed swept fun id member => mem_of_mem_drop (mem_of_mem_take member)]
  have parts : swept.table.listed selected = (swept.table.listed selected).take offset ++
      (((swept.table.listed selected).drop offset).take limit ++ (swept.table.listed selected).drop (offset + limit)) := by
    rw [← drop_drop, take_append_drop, take_append_drop]
  have before : ∀ id ∈ (swept.table.listed selected).take offset, id ∉ ((swept.table.listed selected).drop offset).take limit := fun id here there =>
    disjoint_take_drop nodup (Nat.le_refl offset) here (mem_of_mem_take there)
  have behind : ∀ id ∈ (swept.table.listed selected).drop (offset + limit), id ∉ ((swept.table.listed selected).drop offset).take limit := by
    intro id here there
    rw [← drop_drop] at here
    exact disjoint_take_drop (nodup.sublist (drop_sublist ..)) (Nat.le_refl limit) there here
  refine (congrArg (List.filter _) parts).trans ?_
  rw [filter_append, filter_append, filter_eq_self.mpr fun id member => ?_, List.filter_eq_nil_iff.mpr fun id member => ?_,
    filter_eq_self.mpr fun id member => ?_, nil_append]
  · simp [behind id member]
  · simp [member, leave id member]
  · simp [before id member]

theorem reached_page {round} (nodup : ids.Nodup) (inside : i < ids.length) (first : i < limit) :
    ids[i] ∈ reached process row ((ids.take limit).filter fun id => picked round (row id)) ↔
      Arrives limit picked process row round ids i inside := by
  have here : i < (ids.take limit).length := by
    rw [length_take]
    omega
  have taken := @mem_reached_filter _ _ process row _ (fun id => picked round (row id)) (nodup.sublist (List.take_sublist limit ids)) i here
  simp only [List.getElem_take] at taken
  rw [taken, arrives_first inside first]

theorem examines_iff_arrives (positive : 0 < limit) (leaves : ∀ row, Passes process row → selected (outcome process row) = false) (round : Nat) (swept)
    (enough : (swept.table.listed selected).length < offset + fuel * limit)
    (examines : Examines selected process offset swept (sweepFrom limit selected picked process fuel round offset swept).2 new)
    (i : Nat) (inside : i < ((swept.table.listed selected).drop offset).length) :
    ((swept.table.listed selected).drop offset)[i] ∈ new ↔
      Arrives limit picked process swept.table.row round ((swept.table.listed selected).drop offset) i inside := by
  induction fuel generalizing round offset swept new i with
  | zero =>
    rw [length_drop] at inside
    omega
  | succ fuel ih =>
    have nodup := (swept.table.listed_nodup selected).sublist (drop_sublist offset _)
    have start : offset ≤ (swept.table.listed selected).length := by
      rw [length_drop] at inside
      omega
    have later (after : limit ≤ i) : ((swept.table.listed selected).drop offset)[i] ∉ picks limit selected picked round offset swept.table := by
      intro there
      obtain ⟨j, before, same⟩ := mem_take_iff_getElem.mp (picks_listed there).1
      have := (List.Nodup.getElem_inj_iff nodup).mp same
      omega
    have behind {id : Nat} (there : id ∈ picks limit selected picked round offset swept.table) :
        id ∉ ((swept.table.listed selected).drop offset).drop limit :=
      disjoint_take_drop nodup (Nat.le_refl limit) (picks_listed there).1
    rcases sweepFrom_round limit selected picked process round offset swept with ⟨⟨id, member, throws⟩, error, ran⟩ | ⟨passes, ran⟩
    · have same : new = reached process swept.table.row (picks limit selected picked round offset swept.table) := by
        have := examines.examined
        rw [ran fuel] at this
        exact (append_cancel_left this).symm
      subst same
      by_cases first : i < limit
      · exact reached_page nodup inside first
      · -- the row that throws is on the first page
        refine iff_of_false (fun there => later (Nat.not_lt.mp first) ((reached_sublist _ _).subset there)) fun arrives => ?_
        obtain ⟨j, before, rfl⟩ := mem_take_iff_getElem.mp (picks_listed member).1
        have zero : j / limit = 0 := Nat.div_eq_of_lt (by omega)
        refine throws (arrives.passes j (by omega) (by rw [zero]) ?_)
        rw [zero]
        exact (picks_listed member).2
    · have ran := ran fuel
      have all := reached_all passes
      by_cases short : (picks limit selected picked round offset swept.table).length < limit
      · rw [if_pos short] at ran
        have same : new = picks limit selected picked round offset swept.table := by
          have := examines.examined
          rw [ran] at this
          exact (append_cancel_left this).symm
        by_cases first : i < limit
        · rw [same, ← all]
          exact reached_page nodup inside first
        · -- not all rows of the first page are picked
          subst same
          refine iff_of_false (later (Nat.not_lt.mp first)) fun arrives => ?_
          have page : (((swept.table.listed selected).drop offset).take limit).length = limit := by
            rw [length_take]
            omega
          obtain ⟨id, member, unpicked⟩ := List.length_filter_lt_length_iff_exists.mp (Nat.lt_of_lt_of_eq short page.symm)
          obtain ⟨j, before, rfl⟩ := mem_take_iff_getElem.mp member
          have zero : j / limit = 0 := Nat.div_eq_of_lt (by omega)
          have chosen := arrives.full j (by omega) (by rw [zero]) (by rw [zero]; exact Nat.div_pos (Nat.not_lt.mp first) positive)
          rw [zero] at chosen
          exact unpicked chosen
      · rw [if_neg short] at ran
        rw [ran] at examines
        obtain ⟨rest, after⟩ := @sweepFrom_examines _ _ limit selected picked process fuel (round + 1) (offset + limit)
          (passed process (picks limit selected picked round offset swept.table) swept)
        have same := examines.examined.symm.trans after.examined
        rw [passed, append_assoc] at same
        have same := append_cancel_left same
        have whole : picks limit selected picked round offset swept.table = ((swept.table.listed selected).drop offset).take limit := by
          refine filter_eq_self.mpr (List.length_filter_eq_length_iff.mp (Nat.le_antisymm (List.length_filter_le ..) ?_))
          exact Nat.le_trans (List.length_take_le ..) (Nat.not_lt.mp short)
        have chosen : ∀ id ∈ ((swept.table.listed selected).drop offset).take limit, picked round (swept.table.row id) = true ∧ Passes process (swept.table.row id) := by
          intro id member
          rw [← whole] at member
          exact ⟨(picks_listed member).2, passes id member⟩
        have closed : ((passed process (picks limit selected picked round offset swept.table) swept).table.listed selected).drop (offset + limit) =
            ((swept.table.listed selected).drop offset).drop (2 * limit) := by
          rw [whole, listed_without_page offset swept fun id member => leaves _ (chosen id member).2, drop_take_add offset limit _ start]
        have beyond : ∀ id ∈ rest, id ∈ ((swept.table.listed selected).drop offset).drop (2 * limit) := fun id member => closed ▸ after.listed id member
        rw [same, mem_append]
        by_cases first : i < limit
        · have member : ((swept.table.listed selected).drop offset)[i] ∈ picks limit selected picked round offset swept.table := by
            rw [whole]
            exact mem_take_iff_getElem.mpr ⟨i, by omega, rfl⟩
          refine iff_of_true (.inl member) ((reached_page nodup inside first).mp ?_)
          rw [← all] at member
          exact member
        · rw [or_iff_right (later (Nat.not_lt.mp first))]
          by_cases second : i < 2 * limit
          · -- the second page is not read
            refine iff_of_false (fun there => ?_) fun arrives => ?_
            · exact disjoint_take_drop nodup (Nat.le_refl (2 * limit)) (mem_take_iff_getElem.mpr ⟨i, by omega, rfl⟩) (beyond _ there)
            · have even := arrives.even
              obtain ⟨k, rfl⟩ := Nat.exists_eq_add_of_le (Nat.not_lt.mp first)
              rw [Nat.add_div_left k positive, Nat.div_eq_of_lt (by omega)] at even
              omega
          · obtain ⟨k, rfl⟩ := Nat.exists_eq_add_of_le (Nat.not_lt.mp second)
            have inner : k < (((swept.table.listed selected).drop offset).drop (2 * limit)).length := by
              rw [length_drop]
              omega
            have fewer := (@listed_passed_sublist _ _ selected process _ swept fun id (member : id ∈ picks limit selected picked round offset swept.table) => picks_from member).length_le
            have next := ih (round + 1) _ (by rw [Nat.succ_mul] at enough; omega) after k (by rw [closed]; exact inner)
            simp only [closed] at next
            rw [arrives_later positive inside, and_iff_right chosen]
            rw [List.getElem_drop] at next
            rw [next]
            refine Arrives.congr fun id member => if_neg fun there => ?_
            exact behind there ((List.drop_sublist_drop_left _ (by omega)).subset member)

end

end Sweep
end Effects
