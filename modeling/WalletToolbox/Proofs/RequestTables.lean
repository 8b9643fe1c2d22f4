import WalletToolbox.Permissions.ActiveRequests

/-! What the operations on the table of active requests keep: every waiter that has not
been answered belongs to one request, and that request can be found under its ID. -/

namespace WalletToolbox
open Async List
namespace RequestTable
variable {W : Type} {table : RequestTable W} {key requestID : String} {entry other waiter : Nat} {request : RequestData}
  {outcome : Except PermissionsError Bool}

def keyOf (table : RequestTable W) (entry : Nat) : Option String := table.entries[entry]?.map ActiveRequest.requestID

structure Kept (table : RequestTable W) : Prop where
  keyed : ∀ key entry, table.activeRequests key = some entry → table.keyOf entry = some key
  known : ∀ entry waiter, waiter ∈ table.pendingOf entry → waiter < table.waiters
  once : ∀ entry other waiter, waiter ∈ table.pendingOf entry → waiter ∈ table.pendingOf other → entry = other
  unsettled : ∀ entry waiter, waiter ∈ table.pendingOf entry → table.answers waiter = none → ∃ key, table.activeRequests key = some entry
  fresh : ∀ waiter, table.answers waiter ≠ none → waiter < table.waiters

theorem Kept.new (world : W) : Kept (RequestTable.new world) where
  keyed _ _ active := by cases active
  known _ _ pending := by cases pending
  once _ _ _ pending := by cases pending
  unsettled _ _ pending := by cases pending
  fresh _ answered := absurd rfl answered

structure Closed (table : RequestTable W) (entry : Nat) : Prop where
  made : entry < table.entries.length
  inactive : ∀ key, table.activeRequests key ≠ some entry
  answered : ∀ waiter ∈ table.pendingOf entry, table.answers waiter ≠ none

structure Grows (before after : RequestTable W) : Prop where
  closed : ∀ entry, Closed before entry → Closed after entry
  keyed : ∀ entry key, before.keyOf entry = some key → after.keyOf entry = some key

theorem Grows.refl (table : RequestTable W) : Grows table table := ⟨fun _ => id, fun _ _ => id⟩

theorem Grows.trans (earlier : Grows first second) (later : Grows second third) :
    Grows first third :=
  ⟨fun entry closed => later.closed entry (earlier.closed entry closed), fun entry key is => later.keyed entry key (earlier.keyed entry key is)⟩

theorem made_of_keyed (is : table.keyOf entry = some key) : entry < table.entries.length := by
  by_contra outside
  rw [keyOf, getElem?_eq_none (Nat.le_of_not_lt outside)] at is
  cases is

theorem pendingOf_push (made : entry < table.entries.length) :
    (table.push entry).pendingOf other = if other = entry then table.pendingOf entry ++ [table.waiters] else table.pendingOf other := by
  unfold pendingOf push
  simp only [getElem?_modify]
  by_cases same : other = entry
  · subst same
    simp [getElem?_eq_getElem made]
  · simp [same, Ne.symm same]

theorem keyOf_push : (table.push entry).keyOf other = table.keyOf other := by
  unfold keyOf push
  simp only [getElem?_modify]
  cases table.entries[other]? with
  | none => rfl
  | some found => by_cases same : entry = other <;> simp [same]

theorem pendingOf_mergeInto : (table.mergeInto entry request).pendingOf other = table.pendingOf other := by
  unfold pendingOf mergeInto
  simp only [getElem?_modify]
  cases table.entries[other]? with
  | none => rfl
  | some found => by_cases same : entry = other <;> simp [same]

theorem keyOf_mergeInto : (table.mergeInto entry request).keyOf other = table.keyOf other := by
  unfold keyOf mergeInto
  simp only [getElem?_modify]
  cases table.entries[other]? with
  | none => rfl
  | some found => by_cases same : entry = other <;> simp [same]

theorem entries_create : (table.create key request).entries[other]? =
    if other = table.entries.length then some ⟨key, request, [table.waiters]⟩ else table.entries[other]? := by
  unfold create
  rw [getElem?_append]
  by_cases same : other = table.entries.length
  · subst same
    simp
  · rcases Nat.lt_or_gt_of_ne same with less | more
    · simp [less, same]
    · have beyond : other - table.entries.length ≠ 0 := by omega
      have outside : ¬ other < table.entries.length := by omega
      rw [if_neg outside, if_neg same, getElem?_eq_none (Nat.le_of_lt more), getElem?_eq_none]
      exact Nat.one_le_iff_ne_zero.mpr beyond

theorem pendingOf_create : (table.create key request).pendingOf other =
    if other = table.entries.length then [table.waiters] else table.pendingOf other := by
  unfold pendingOf
  rw [entries_create]
  split <;> rfl

theorem keyOf_create : (table.create key request).keyOf other =
    if other = table.entries.length then some key else table.keyOf other := by
  unfold keyOf
  rw [entries_create]
  split <;> rfl

theorem active_create : (table.create key request).activeRequests name =
    if name = key then some table.entries.length else table.activeRequests name := Function.update_apply ..

theorem active_delete : (table.delete requestID).activeRequests name =
    if name = requestID then none else table.activeRequests name := Function.update_apply ..

theorem answers_settle {waiters} : (table.settle waiters outcome).answers waiter = none ↔
    waiter ∉ waiters ∧ table.answers waiter = none := by
  unfold settle
  by_cases pending : waiter ∈ waiters <;> simp [pending]

theorem Grows.push (active : table.activeRequests key = some entry) : Grows table (table.push entry) where
  closed other closed := by
    have made : table.entries.length = (table.push entry).entries.length := (length_modify ..).symm
    have different : other ≠ entry := by
      intro same
      exact closed.inactive key (same ▸ active)
    refine ⟨made ▸ closed.made, closed.inactive, fun waiter pending => ?_⟩
    have unchanged : (table.push entry).pendingOf other = table.pendingOf other := by
      unfold pendingOf RequestTable.push
      simp only [getElem?_modify, if_neg (Ne.symm different)]
      cases table.entries[other]? <;> rfl
    exact closed.answered waiter (unchanged ▸ pending)
  keyed other key is := keyOf_push.trans is

theorem Grows.mergeInto : Grows table (table.mergeInto entry request) where
  closed other closed := by
    have made : table.entries.length = (table.mergeInto entry request).entries.length := (length_modify ..).symm
    exact ⟨made ▸ closed.made, closed.inactive, fun waiter pending => closed.answered waiter (pendingOf_mergeInto ▸ pending)⟩
  keyed other key is := keyOf_mergeInto.trans is

theorem Grows.create : Grows table (table.create key request) where
  closed other closed := by
    have different := Nat.ne_of_lt closed.made
    refine ⟨?_, fun name => ?_, fun waiter pending => ?_⟩
    · unfold RequestTable.create
      rw [length_append]
      exact Nat.lt_add_right _ closed.made
    · rw [active_create]
      split
      · exact fun is => different (Option.some.inj is).symm
      · exact closed.inactive name
    · rw [pendingOf_create, if_neg different] at pending
      exact closed.answered waiter pending
  keyed other name is := by
    rw [keyOf_create, if_neg (Nat.ne_of_lt (made_of_keyed is))]
    exact is

theorem Grows.close {waiters} : Grows table ((table.settle waiters outcome).delete requestID) where
  closed other closed := by
    refine ⟨closed.made, fun name => ?_, fun waiter pending => ?_⟩
    · rw [active_delete]
      split
      · exact Option.some_ne_none other |>.symm
      · exact closed.inactive name
    · intro open_
      exact closed.answered waiter pending (answers_settle.mp open_).2
  keyed _ _ is := is

/-- One more waiter, of the request `entry`, is known and waits once. -/
theorem Kept.joined {after : RequestTable W} (kept : Kept table) (more : after.waiters = table.waiters + 1)
    (cases_of : ∀ other waiter, waiter ∈ after.pendingOf other → waiter ∈ table.pendingOf other ∨ other = entry ∧ waiter = table.waiters) :
    (∀ other waiter, waiter ∈ after.pendingOf other → waiter < after.waiters) ∧
      ∀ first second waiter, waiter ∈ after.pendingOf first → waiter ∈ after.pendingOf second → first = second := by
  have fresh : ∀ other, table.waiters ∉ table.pendingOf other := fun other pending => Nat.lt_irrefl _ (kept.known other _ pending)
  constructor
  · intro other waiter pending
    rw [more]
    rcases cases_of other waiter pending with before | ⟨-, rfl⟩
    · exact Nat.lt_succ_of_lt (kept.known other waiter before)
    · exact Nat.lt_succ_self _
  · intro first second waiter one two
    rcases cases_of first waiter one with one | ⟨here, rfl⟩
    · rcases cases_of second waiter two with two | ⟨-, rfl⟩
      · exact kept.once first second waiter one two
      · exact absurd one (fresh first)
    · rcases cases_of second _ two with two | ⟨there, -⟩
      · exact absurd two (fresh second)
      · exact here.trans there.symm

theorem Kept.push (kept : Kept table) (active : table.activeRequests key = some entry) : Kept (table.push entry) := by
  have made := made_of_keyed (kept.keyed key entry active)
  have cases_of : ∀ other waiter, waiter ∈ (table.push entry).pendingOf other →
      waiter ∈ table.pendingOf other ∨ (other = entry ∧ waiter = table.waiters) := by
    intro other waiter pending
    rw [pendingOf_push made] at pending
    split at pending
    next same =>
      subst same
      simpa using pending
    · exact .inl pending
  constructor
  case keyed => exact fun name other is => keyOf_push.trans (kept.keyed name other is)
  case known => exact (kept.joined rfl cases_of).1
  case once => exact (kept.joined rfl cases_of).2
  case unsettled =>
    intro other waiter pending open_
    rcases cases_of other waiter pending with before | ⟨rfl, -⟩
    · exact kept.unsettled other waiter before open_
    · exact ⟨key, active⟩
  case fresh => exact fun waiter settled => Nat.lt_succ_of_lt (kept.fresh waiter settled)

theorem Kept.mergeInto (kept : Kept table) : Kept (table.mergeInto entry request) where
  keyed key other is := keyOf_mergeInto.trans (kept.keyed key other is)
  known other waiter pending := kept.known other waiter (pendingOf_mergeInto ▸ pending)
  once first second waiter one two := kept.once first second waiter (pendingOf_mergeInto ▸ one) (pendingOf_mergeInto ▸ two)
  unsettled other waiter pending open_ := kept.unsettled other waiter (pendingOf_mergeInto ▸ pending) open_
  fresh waiter settled := kept.fresh waiter settled

theorem Kept.create (kept : Kept table) (idle : ∀ entry, table.activeRequests key = some entry → table.pendingOf entry = []) :
    Kept (table.create key request) := by
  have cases_of : ∀ other waiter, waiter ∈ (table.create key request).pendingOf other →
      (waiter ∈ table.pendingOf other) ∨ (other = table.entries.length ∧ waiter = table.waiters) := by
    intro other waiter pending
    rw [pendingOf_create] at pending
    split at pending
    · exact .inr ⟨‹_›, mem_singleton.mp pending⟩
    · exact .inl pending
  constructor
  case keyed =>
    intro name other is
    rw [active_create] at is
    rw [keyOf_create]
    split at is
    next same =>
      cases is
      rw [if_pos rfl, same]
    · have before := kept.keyed name other is
      rw [if_neg (Nat.ne_of_lt (made_of_keyed before))]
      exact before
  case known => exact (kept.joined rfl cases_of).1
  case once => exact (kept.joined rfl cases_of).2
  case unsettled =>
    intro other waiter pending open_
    rcases cases_of other waiter pending with before | ⟨rfl, -⟩
    · obtain ⟨name, active⟩ := kept.unsettled other waiter before open_
      refine ⟨name, ?_⟩
      rw [active_create, if_neg]
      · exact active
      · intro same
        rw [idle other (same ▸ active)] at before
        cases before
    · exact ⟨key, active_create.trans (if_pos rfl)⟩
  case fresh => exact fun waiter settled => Nat.lt_succ_of_lt (kept.fresh waiter settled)

theorem Kept.close (kept : Kept table) (own : table.activeRequests requestID = none ∨ table.activeRequests requestID = some entry) :
    Kept ((table.settle (table.pendingOf entry) outcome).delete requestID) := by
  constructor
  case keyed =>
    intro name other is
    rw [active_delete] at is
    split at is
    · cases is
    · exact kept.keyed name other is
  case known => exact kept.known
  case once => exact kept.once
  case unsettled =>
    intro other waiter pending open_
    obtain ⟨outside, before⟩ := answers_settle.mp open_
    obtain ⟨name, active⟩ := kept.unsettled other waiter pending before
    refine ⟨name, ?_⟩
    rw [active_delete, if_neg]
    · exact active
    · intro same
      subst same
      rcases own with none | is
      · rw [none] at active
        cases active
      · rw [is] at active
        cases active
        exact outside pending
  case fresh =>
    intro waiter settled
    by_cases pending : waiter ∈ table.pendingOf entry
    · exact kept.known entry waiter pending
    · exact kept.fresh waiter fun before => settled (answers_settle.mpr ⟨pending, before⟩)

theorem Kept.closed (kept : Kept table) (is : table.keyOf entry = some requestID) :
    Closed ((table.settle (table.pendingOf entry) outcome).delete requestID) entry where
  made := made_of_keyed is
  inactive name := by
    rw [active_delete]
    split
    · exact (Option.some_ne_none entry).symm
    next different =>
      intro active
      have also := kept.keyed name entry active
      rw [is] at also
      exact different (Option.some.inj also).symm
  answered waiter pending open_ := (answers_settle.mp open_).1 pending

variable (outside : Machine outsideRequests W)

theorem active_some (is : table.active requestID = some found) :
    table.activeRequests requestID = some found.entry := by
  obtain ⟨entry, here, rest⟩ := Option.bind_eq_some_iff.mp is
  obtain ⟨_, _, rfl⟩ := Option.map_eq_some_iff.mp rest
  exact here

theorem queueOf_some (is : table.queueOf key = some entry) : table.activeRequests key = some entry :=
  (Option.filter_eq_some_iff.mp is).1

theorem queueOf_none (is : table.queueOf key = none) (active : table.activeRequests key = some entry) : table.pendingOf entry = [] := by
  have nobody := Option.filter_eq_none_iff.mp is entry active
  simpa using nobody

theorem exec_grows (op : RequestsOp) (table : RequestTable W) : Grows table (exec outside op table).2 := by
  cases op with
  | piggyback key =>
    show Grows table (table.piggyback key).2
    unfold piggyback
    split
    · exact .refl table
    · exact .push (queueOf_some ‹_›)
  | enqueue key request =>
    show Grows table (table.enqueue key request).2
    unfold enqueue
    split
    · exact .create
    · exact .push (queueOf_some ‹_›)
  | joinOrCreate key request merges =>
    show Grows table (table.joinOrCreate key request merges).2
    unfold joinOrCreate
    split
    · exact .create
    next entry active =>
      cases merges with
      | false => exact .push active
      | true =>
        apply Grows.mergeInto.trans
        exact Grows.push (show _ = some entry from active)
  | decide requestID outcome =>
    show Grows table (table.decide requestID outcome).2
    unfold RequestTable.decide
    split
    · exact .refl table
    · exact .close
  | finish requestID entry outcome => exact .close
  | answer _ | find _ | enterFlow _ | flowTurn _ _ | leaveFlow _ _ | outside _ => exact ⟨fun _ closed => ⟨closed.1, closed.2, closed.3⟩, fun _ _ is => is⟩

def Deletes (op : RequestsOp) (table : RequestTable W) : Prop :=
  match op with
  | .finish requestID entry _ => table.activeRequests requestID = none ∨ table.activeRequests requestID = some entry
  | _ => True

theorem exec_kept (kept : Kept table) (deletes : Deletes op table) : Kept (exec outside op table).2 := by
  cases op with
  | piggyback key =>
    show Kept (table.piggyback key).2
    unfold piggyback
    split
    · exact kept
    · exact kept.push (queueOf_some ‹_›)
  | enqueue key request =>
    show Kept (table.enqueue key request).2
    unfold enqueue
    split
    · exact kept.create fun entry active => queueOf_none ‹_› active
    · exact kept.push (queueOf_some ‹_›)
  | joinOrCreate key request merges =>
    show Kept (table.joinOrCreate key request merges).2
    unfold joinOrCreate
    split
    next none =>
      apply kept.create
      intro entry active
      rw [none] at active
      cases active
    next entry active =>
      cases merges with
      | false => exact kept.push active
      | true =>
        have merged : (table.mergeInto entry request).Kept := kept.mergeInto
        exact merged.push active
  | decide requestID outcome =>
    show Kept (table.decide requestID outcome).2
    unfold RequestTable.decide
    split
    · exact kept
    · exact kept.close (.inr (active_some ‹_›))
  | finish requestID entry outcome => exact kept.close deletes
  | answer _ | find _ | enterFlow _ | flowTurn _ _ | leaveFlow _ _ | outside _ =>
    exact ⟨kept.1, kept.2, kept.3, kept.4, kept.5⟩

def Settles (op : RequestsOp) (table : RequestTable W) (requestID : String) (entry : Nat) : Prop :=
  match op with
  | .decide id _ => id = requestID ∧ table.activeRequests requestID = some entry
  | .finish id other _ => id = requestID ∧ other = entry
  | _ => False

theorem exec_answers (op : RequestsOp) (table : RequestTable W) (waiter : Nat) :
    (exec outside op table).2.answers waiter = table.answers waiter ∨
      (table.answers waiter = none ∧ ∃ requestID entry, Settles op table requestID entry ∧ waiter ∈ table.pendingOf entry) := by
  have close : ∀ entry outcome, ((table.answers waiter).or (if waiter ∈ table.pendingOf entry then some outcome else none)) = table.answers waiter ∨
      (table.answers waiter = none ∧ waiter ∈ table.pendingOf entry) := by
    intro entry outcome
    cases table.answers waiter with
    | some answer => exact .inl rfl
    | none => by_cases pending : waiter ∈ table.pendingOf entry <;> simp [pending]
  cases op with
  | piggyback key =>
    refine .inl ?_
    show (table.piggyback key).2.answers waiter = _
    unfold piggyback
    split <;> rfl
  | enqueue key request =>
    refine .inl ?_
    show (table.enqueue key request).2.answers waiter = _
    unfold enqueue
    split <;> rfl
  | joinOrCreate key request merges =>
    refine .inl ?_
    show (table.joinOrCreate key request merges).2.answers waiter = _
    unfold joinOrCreate
    split
    · rfl
    · cases merges <;> rfl
  | decide requestID outcome =>
    show (table.decide requestID outcome).2.answers waiter = _ ∨ _
    unfold RequestTable.decide
    split
    · exact .inl rfl
    next found active =>
      rcases close found.entry outcome with same | ⟨open_, pending⟩
      · exact .inl same
      · exact .inr ⟨open_, requestID, found.entry, ⟨rfl, active_some active⟩, pending⟩
  | finish requestID entry outcome =>
    rcases close entry outcome with same | ⟨open_, pending⟩
    · exact .inl same
    · exact .inr ⟨open_, requestID, entry, ⟨rfl, rfl⟩, pending⟩
  | answer _ | find _ | enterFlow _ | flowTurn _ _ | leaveFlow _ _ | outside _ => exact .inl rfl

end RequestTable
end WalletToolbox
