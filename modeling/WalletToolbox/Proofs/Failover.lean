import WalletToolbox.Services.ServiceCollection
import Mathlib.Data.List.Perm.Basic
import Mathlib.Data.List.Rotate

/-! Failover. A call that finds the collection as it left it goes once around the providers
from where it began. A call that finds the index moved skips a provider or asks one again. -/

namespace WalletToolbox
open Effects List

variable {T : Type}

namespace ServiceCollection
variable {collection : ServiceCollection T}

def Placed (collection : ServiceCollection T) : Prop := ∃ index, collection.index = some index ∧ (index < collection.count ∨ index = 0)

theorem length_names : collection.names.length = collection.count := length_map _

theorem names_add (name : String) (service : T) : (collection.add name service).names = collection.names ++ [name] := by
  simp [names, add]

theorem names_remove (name : String) : (collection.remove name).names = collection.names.filter (· ≠ name) := by
  rw [names, names, remove, filter_map]
  rfl

theorem services_moveServiceToLast (providerName : String) :
    (collection.moveServiceToLast providerName).services.Perm collection.services := by
  unfold moveServiceToLast
  cases found : collection.services.findIdx? (·.1 = providerName) with
  | none => exact .refl _
  | some index =>
    obtain ⟨inside, -⟩ := findIdx?_eq_some_iff_getElem.mp found
    have rest : (collection.services.eraseIdx index ++ [collection.services[index]]).Perm collection.services :=
      perm_append_comm.trans (getElem_cons_eraseIdx_perm inside)
    simpa only [getElem?_eq_getElem inside, Option.toList_some] using rest

theorem names_moveServiceToLast (providerName : String) : (collection.moveServiceToLast providerName).names.Perm collection.names :=
  (services_moveServiceToLast providerName).map _

theorem count_moveServiceToLast (providerName : String) : (collection.moveServiceToLast providerName).count = collection.count :=
  (services_moveServiceToLast providerName).length_eq

theorem index_moveServiceToLast (providerName : String) : (collection.moveServiceToLast providerName).index = collection.index := by
  unfold moveServiceToLast
  split <;> rfl

theorem serviceToCall_of_lt {index} (is : collection.index = some index) (inside : index < collection.count) :
    collection.serviceToCall = some collection.services[index] := by
  rw [serviceToCall, is]
  exact getElem?_eq_getElem inside

theorem index_next {index} (is : collection.index = some index) (some : 0 < collection.count) :
    collection.next.index = .some ((index + 1) % collection.count) := by
  have filled : ¬collection.count = 0 := by omega
  rw [next, is]
  exact if_neg filled

theorem Placed.next (placed : collection.Placed) (some : 0 < collection.count) : collection.next.Placed := by
  obtain ⟨index, is, -⟩ := placed
  exact ⟨_, index_next is some, .inl (Nat.mod_lt _ some)⟩

end ServiceCollection

namespace FailoverCall
variable {call : FailoverCall T} {collection : ServiceCollection T}

structure Passing (call : FailoverCall T) (providerName : String) : Prop where
  around : ∃ start, call.left.index = some ((start + call.tries) % call.left.count) ∧
    call.called = (call.left.names.rotate start).take (call.tries + 1)
  tries : call.tries < call.left.count
  distinct : call.left.names.Nodup
  last : call.called = call.failed ++ [providerName]
  present : ∀ name ∈ call.present, name ∈ call.left.names

/-- What holds of a call that was never disturbed. -/
def Kept (call : FailoverCall T) : Prop :=
  match call.phase with
  | .calling providerName => call.Passing providerName
  | .waiting | .noResult => (∀ name ∈ call.present, name ∈ call.failed) ∧ call.called.Nodup
  | .found | .rejected => call.called.Nodup

theorem Passing.nodup (passing : call.Passing providerName) : call.called.Nodup := by
  obtain ⟨start, -, called⟩ := passing.around
  rw [called]
  exact (nodup_rotate.mpr passing.distinct).sublist (take_sublist _ _)

theorem Kept.nodup (kept : call.Kept) : call.called.Nodup := by
  unfold Kept at kept
  split at kept
  · exact kept.nodup
  · exact kept.2
  · exact kept.2
  · exact kept
  · exact kept

theorem Kept.loop (start : Nat) (distinct : collection.names.Nodup) (tries : call.tries ≤ collection.count)
    (index : call.tries < collection.count → collection.index = some ((start + call.tries) % collection.count))
    (called : call.called = (collection.names.rotate start).take call.tries) (failed : call.failed = call.called)
    (present : ∀ name ∈ call.present, name ∈ collection.names) : (call.loop collection).Kept := by
  unfold FailoverCall.loop
  split
  next more =>
    have inside : (start + call.tries) % collection.count < collection.count := Nat.mod_lt _ (by omega)
    rw [ServiceCollection.serviceToCall_of_lt (index more) inside]
    refine ⟨⟨start, index more, ?_⟩, more, distinct, ?_, present⟩
    · have here : call.tries < (collection.names.rotate start).length := by
        rw [length_rotate, ServiceCollection.length_names]
        exact more
      have named : (collection.names.rotate start)[call.tries] = collection.services[(start + call.tries) % collection.count].1 := by
        simp only [getElem_rotate, ServiceCollection.names, getElem_map, length_map, Nat.add_comm call.tries]
        rfl
      rw [take_add_one, getElem?_eq_getElem here, named, ← called]
      rfl
    · show call.called ++ [_] = call.failed ++ [_]
      rw [failed]
  next done =>
    have all : call.tries = collection.count := by omega
    have whole : call.called = collection.names.rotate start := by
      rw [called, all, ← ServiceCollection.length_names, ← length_rotate collection.names start, take_length]
    have covered : ∀ name ∈ call.present, name ∈ call.failed := by
      intro name member
      rw [failed, whole, mem_rotate]
      exact present name member
    have nodup : call.called.Nodup := by
      rw [whole]
      exact nodup_rotate.mpr distinct
    by_cases passes : call.method = .getUtxoStatus
    · rw [if_pos passes]
      exact ⟨covered, nodup⟩
    · rw [if_neg passes]
      exact ⟨covered, nodup⟩

theorem present_loop : (call.loop collection).present = call.present := by
  unfold FailoverCall.loop
  split
  · split <;> rfl
  · rfl

theorem Kept.start {method} (distinct : collection.names.Nodup) (placed : collection.Placed) :
    (({ method, phase := .waiting, present := collection.names, left := collection } : FailoverCall T).loop collection).Kept := by
  obtain ⟨index, is, inside⟩ := placed
  refine Kept.loop index distinct (Nat.zero_le _) ?_ rfl rfl fun _ member => member
  intro some
  have small : index < collection.count := by
    rcases inside with small | zero
    · exact small
    · rw [zero]
      exact some
  rw [is, Nat.add_zero, Nat.mod_eq_of_lt small]

theorem Kept.reply {providerName reply} (kept : call.Kept) (is : call.phase = .calling providerName)
    (same : reply ≠ .found → collection = call.left) : (call.reply providerName reply collection).1.Kept := by
  rw [Kept, is] at kept
  have passing : call.Passing providerName := kept
  unfold FailoverCall.reply
  split
  next => exact passing.nodup
  next unsettled =>
    rw [same unsettled]
    split
    next => exact passing.nodup
    next =>
      obtain ⟨start, index, called⟩ := passing.around
      have some := Nat.zero_lt_of_lt passing.tries
      have advanced : call.left.next.index = .some ((start + (call.tries + 1)) % call.left.count) := by
        rw [ServiceCollection.index_next index some, Nat.mod_add_mod, Nat.add_assoc]
      exact Kept.loop start passing.distinct passing.tries (fun _ => advanced) called passing.last.symm passing.present

theorem Kept.waited (kept : call.Kept) (is : call.phase = .waiting) (distinct : collection.names.Nodup) (placed : collection.Placed)
    (present : ∀ name ∈ call.present, name ∈ collection.names) : (call.waited collection).Kept := by
  rw [Kept, is] at kept
  unfold FailoverCall.waited
  split
  · obtain ⟨index, here, inside⟩ := placed
    refine Kept.loop index distinct (Nat.zero_le _) ?_ rfl rfl present
    intro some
    have small : index < collection.count := by
      rcases inside with small | zero
      · exact small
      · rw [zero]
        exact some
    rw [here]
    exact congrArg Option.some (Nat.mod_eq_of_lt small).symm
  · exact kept

theorem Kept.beside (kept : call.Kept) : (call.beside collection).Kept := by
  unfold FailoverCall.beside
  split
  · exact kept
  · unfold Kept at kept ⊢
    simp only
    split at kept
    next =>
      exact ⟨kept.around, kept.tries, kept.distinct, kept.last, fun name member => kept.present name (mem_filter.mp member).1⟩
    next =>
      exact ⟨fun name member => kept.1 name (mem_filter.mp member).1, kept.2⟩
    next =>
      exact ⟨fun name member => kept.1 name (mem_filter.mp member).1, kept.2⟩
    next => exact kept
    next => exact kept

end FailoverCall

namespace Failover
variable {failover next : Failover T}

/-- What a call returns has been tried, and the index is good for the next. -/
structure Tries (failover : Failover T) : Prop where
  exhausted : ∀ call ∈ failover.calls, call.phase = .noResult → ∀ name ∈ call.present, name ∈ call.failed
  once : ∀ call ∈ failover.calls, call.called.Nodup
  index : failover.collection.services ≠ [] → failover.collection.serviceToCall.isSome = true

/-- A call that goes on finds the collection as it left it; the names stay distinct, and the
index is not advanced where there is no provider, nor left behind the end. -/
def Undisturbed (failover : Failover T) : FailoverEvent T → Prop
  | .call _ useNext => useNext = true → failover.collection.services ≠ []
  | .reply number reply => reply ≠ .found → ∀ call, failover.calls[number]? = some call → failover.collection = call.left
  | .waited _ => True
  | .add name _ => name ∉ failover.collection.names
  | .remove name => ∀ index, failover.collection.index = some index → index = 0 ∨ index < (failover.collection.remove name).count
  | .moveServiceToLast _ => True

structure Kept (failover : Failover T) : Prop where
  distinct : failover.collection.names.Nodup
  placed : failover.collection.Placed
  calls : ∀ call ∈ failover.calls, call.Kept
  present : ∀ call ∈ failover.calls, ¬call.Settled → ∀ name ∈ call.present, name ∈ failover.collection.names

theorem Kept.tries (kept : failover.Kept) : failover.Tries := by
  refine ⟨?_, fun call member => (kept.calls call member).nodup, ?_⟩
  · intro call member is
    have of := kept.calls call member
    rw [FailoverCall.Kept, is] at of
    exact of.1
  · intro filled
    obtain ⟨index, is, inside⟩ := kept.placed
    have some : 0 < failover.collection.count := length_pos_iff.mpr filled
    have small : index < failover.collection.count := by omega
    rw [ServiceCollection.serviceToCall_of_lt is small]
    rfl

theorem Kept.withCollection {collection} (kept : failover.Kept) (distinct : collection.names.Nodup)
    (placed : collection.Placed) : (failover.withCollection collection).Kept := by
  refine ⟨distinct, placed, ?_, ?_⟩
  · intro call member
    obtain ⟨before, was, rfl⟩ := mem_map.mp member
    exact (kept.calls before was).beside
  · intro call member unsettled name present
    obtain ⟨before, was, rfl⟩ := mem_map.mp member
    unfold FailoverCall.beside at unsettled present
    split at unsettled
    next settled => exact absurd settled unsettled
    next open' =>
      rw [if_neg open'] at present
      exact of_decide_eq_true (mem_filter.mp present).2

theorem Kept.set {number before call collection} (kept : failover.Kept)
    (was : failover.calls[number]? = some before) (unsettled : ¬before.Settled) (names : collection.names = failover.collection.names)
    (placed : collection.Placed) (of : call.Kept) (present : call.present = before.present) :
    Kept ⟨collection, failover.calls.set number call⟩ := by
  refine ⟨names ▸ kept.distinct, placed, ?_, ?_⟩
  · intro other member
    rcases mem_or_eq_of_mem_set member with old | rfl
    · exact kept.calls other old
    · exact of
  · intro other member open' name there
    show name ∈ collection.names
    rw [names]
    rcases mem_or_eq_of_mem_set member with old | rfl
    · exact kept.present other old open' name there
    · rw [present] at there
      exact kept.present before (mem_of_getElem? was) unsettled name there

theorem present_reply {call : FailoverCall T} {providerName reply collection} :
    (call.reply providerName reply collection).1.present = call.present := by
  unfold FailoverCall.reply
  split
  · rfl
  · split
    · rfl
    · exact FailoverCall.present_loop

theorem present_waited {call : FailoverCall T} {collection} : (call.waited collection).present = call.present := by
  unfold FailoverCall.waited
  split
  · exact FailoverCall.present_loop
  · rfl

theorem collection_reply {call : FailoverCall T} {providerName reply collection} :
    (call.reply providerName reply collection).2 = collection ∨
      reply ≠ .found ∧ (call.reply providerName reply collection).2 = collection.next := by
  unfold FailoverCall.reply
  split
  · exact .inl rfl
  next unsettled =>
    split
    · exact .inl rfl
    · exact .inr ⟨unsettled, rfl⟩

theorem Kept.step {event : FailoverEvent T} (kept : failover.Kept) (undisturbed : failover.Undisturbed event)
    (stepped : failover.step event = some next) : next.Kept := by
  cases event with
  | call method useNext =>
    cases stepped
    have placed : (if useNext then failover.collection.next else failover.collection).Placed := by
      cases useNext with
      | false => exact kept.placed
      | true => exact kept.placed.next (length_pos_iff.mpr (undisturbed rfl))
    have names : (if useNext then failover.collection.next else failover.collection).names = failover.collection.names := by
      cases useNext <;> rfl
    refine ⟨names ▸ kept.distinct, placed, ?_, ?_⟩
    · intro call member
      rcases mem_append.mp member with old | new
      · exact kept.calls call old
      · rw [mem_singleton.mp new]
        exact FailoverCall.Kept.start (names ▸ kept.distinct) placed
    · intro call member unsettled name present
      show name ∈ (if useNext then failover.collection.next else failover.collection).names
      rcases mem_append.mp member with old | new
      · rw [names]
        exact kept.present call old unsettled name present
      · rw [mem_singleton.mp new, FailoverCall.present_loop] at present
        exact present
  | reply number reply =>
    simp only [Failover.step] at stepped
    split at stepped
    next call was =>
      split at stepped
      next providerName is =>
        cases stepped
        have of := kept.calls call (mem_of_getElem? was)
        have unsettled : ¬call.Settled := by simp [FailoverCall.Settled, is]
        have goes := of.reply is fun nothing => undisturbed nothing call was
        rw [FailoverCall.Kept, is] at of
        rcases @collection_reply _ call providerName reply failover.collection with same | ⟨nothing, advanced⟩
        · rw [same]
          exact kept.set was unsettled rfl kept.placed goes present_reply
        · rw [advanced]
          have filled : 0 < failover.collection.count := by
            rw [undisturbed nothing call was]
            exact Nat.zero_lt_of_lt of.tries
          exact kept.set was unsettled rfl (kept.placed.next filled) goes present_reply
      next => cases stepped
    next => cases stepped
  | waited number =>
    simp only [Failover.step] at stepped
    split at stepped
    next call was =>
      split at stepped
      next is =>
        cases stepped
        have unsettled : ¬call.Settled := by simp [FailoverCall.Settled, is]
        have member := mem_of_getElem? was
        have goes := (kept.calls call member).waited is kept.distinct kept.placed (kept.present call member unsettled)
        exact kept.set was unsettled rfl kept.placed goes present_waited
      next => cases stepped
    next => cases stepped
  | add name service =>
    cases stepped
    apply kept.withCollection
    · rw [ServiceCollection.names_add]
      exact concat_eq_append ▸ kept.distinct.concat undisturbed
    · obtain ⟨index, is, inside⟩ := kept.placed
      refine ⟨index, is, inside.imp_left fun small => ?_⟩
      rw [ServiceCollection.count, ServiceCollection.add, length_append]
      exact Nat.lt_add_right _ small
  | remove name =>
    cases stepped
    apply kept.withCollection
    · rw [ServiceCollection.names_remove]
      exact kept.distinct.filter _
    · obtain ⟨index, is, -⟩ := kept.placed
      exact ⟨index, is, (undisturbed index is).symm⟩
  | moveServiceToLast providerName =>
    cases stepped
    apply kept.withCollection
    · exact (ServiceCollection.names_moveServiceToLast providerName).nodup_iff.mpr kept.distinct
    · obtain ⟨index, is, inside⟩ := kept.placed
      refine ⟨index, (ServiceCollection.index_moveServiceToLast providerName).trans is, ?_⟩
      rw [ServiceCollection.count_moveServiceToLast]
      exact inside

def twoProviders : Failover Unit := ⟨{ serviceName := "getMerklePath", services := [("a", ()), ("b", ())] }, []⟩

end Failover
end WalletToolbox
