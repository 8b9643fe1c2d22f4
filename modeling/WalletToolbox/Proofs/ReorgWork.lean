import Mathlib.Data.List.Perm.Basic
import Mathlib.Data.List.TakeWhile
import WalletToolbox.Monitor.TaskReorg

/-! The headers that wait for new proofs. While no call rejects, each header that was pushed
has one place until it is settled, and its calls update all the proofs that were accepted. -/

namespace WalletToolbox
open Chaintracks WalletStorageManager Effects
open List (append_assoc append_nil map_append map_cons map_nil mem_append mem_append_left mem_append_right mem_cons mem_map mem_of_getElem? mem_singleton nodup_cons perm_append_comm)

/-- The proofs that have been looked at. -/
def ReproveHeaderResult.rows (r : ReproveHeaderResult) : List TableProvenTx := r.updated.map (·.1) ++ r.unchanged ++ r.unavailable

namespace ReproveCall

def Clean (call : ReproveCall) : Prop := call.r.unavailable = [] ∧ call.r.unchanged = []

/-- What was found are the proofs of the block, and just the new ones that were accepted are written. -/
structure UpdatesAccepted (call : ReproveCall) : Prop where
  wrote : call.wrote = call.r.updated
  rows : call.r.rows.Perm call.found
  block : ∀ ptx ∈ call.found, ptx.blockHash = call.header.header.hash

def returned (call : ReproveCall) : Bool :=
  match call.phase with
  | .returned => true
  | .finding | .proving _ _ | .updating _ _ | .threw => false

end ReproveCall

def triedOf (ended : List ReproveCall) (push : Nat) : List ReproveCall := ended.filter fun call => call.returned && call.header.push = push

def CallsApart (agedMsecs : Int) (first second : ReproveCall) : Prop :=
  first.header.push = second.header.push → first.ended + agedMsecs < second.began

namespace ReorgRun

def waiting (run : ReorgRun) : List WaitingHeader := run.deactivatedHeaders ++ run.process ++ run.flying.map (·.header)

/-- A call has replaced all the proofs of the header, or it has been tried as often as it may be. -/
def Settled (task : TaskReorg) (ended : List ReproveCall) (push : Nat) : Prop :=
  ∃ call ∈ triedOf ended push, call.Clean ∨ task.maxRetries ≤ (triedOf ended push).length

structure FollowsUp (task : TaskReorg) (run : ReorgRun) : Prop where
  settled : ∀ push < run.pushes, Settled task run.ended push ↔ push ∉ run.waiting.map (·.push)
  once : (run.waiting.map (·.push)).Nodup
  apart : (run.ended ++ run.flying).Pairwise (CallsApart task.agedMsecs)
  updates : ∀ call ∈ run.ended, call.UpdatesAccepted
  /-- It gets to the task when it and those before it are old enough. -/
  triggered : ∀ before header after now, run.deactivatedHeaders = before ++ header :: after →
    (∀ other ∈ before ++ [header], other.whenMsecs < now - task.agedMsecs) →
      (run.trigger task now).1 = true ∧ header ∈ (run.trigger task now).2.process
  taken : ∀ header rest now, run.process = header :: rest → run.clock ≤ now →
    ∃ next call, step task run (now, .runTask) = some next ∧ call ∈ next.flying ∧ call.header = header

/-- None of the service and storage calls rejects. -/
def Undisturbed (_ : ReorgRun) (event : Int × ReorgEvent) : Prop :=
  match event.2 with
  | .threw _ => False
  | .push _ _ | .trigger | .runTask | .found _ | .reproved _ _ | .updated _ | .storageChanged _ => True

structure Pending (task : TaskReorg) (ended : List ReproveCall) (header : WaitingHeader) : Prop where
  tries : header.tries = (triedOf ended header.push).length
  more : header.tries = 0 ∨ header.tries < task.maxRetries
  unclean : ∀ call ∈ triedOf ended header.push, ¬call.Clean

structure Placed (task : TaskReorg) (waiting : List WaitingHeader) (ended : List ReproveCall) (pushes : Nat) : Prop where
  nodup : (waiting.map (·.push)).Nodup
  pending : ∀ header ∈ waiting, header.push < pushes ∧ Pending task ended header
  settled : ∀ push < pushes, push ∉ waiting.map (·.push) → Settled task ended push

structure Timed (task : TaskReorg) (run : ReorgRun) : Prop where
  past : ∀ call ∈ run.ended, call.ended ≤ run.clock ∧ call.header.push < run.pushes
  queued : ∀ header ∈ run.deactivatedHeaders, ∀ call ∈ run.ended, call.header.push = header.push → call.ended ≤ header.whenMsecs
  aged : ∀ header ∈ run.process, ∀ call ∈ run.ended, call.header.push = header.push → call.ended + task.agedMsecs < run.clock
  apart : run.ended.Pairwise (CallsApart task.agedMsecs)
  flying : ∀ first ∈ run.ended, ∀ second ∈ run.flying, CallsApart task.agedMsecs first second

/-- How far a call has come. -/
def Sound (call : ReproveCall) : Prop :=
  match call.phase with
  | .finding => call.r.updated = [] ∧ call.r.rows = [] ∧ call.wrote = []
  | .proving ptx left => call.wrote = [] ∧ (call.r.rows ++ ptx :: left).Perm call.found ∧ ∀ row ∈ call.found, row.blockHash = call.header.header.hash
  | .updating next left =>
    call.wrote ++ next :: left = call.r.updated ∧ call.r.rows.Perm call.found ∧ ∀ row ∈ call.found, row.blockHash = call.header.header.hash
  | .returned | .threw => False

structure Kept (task : TaskReorg) (run : ReorgRun) : Prop where
  placed : Placed task run.waiting run.ended run.pushes
  timed : Timed task run
  flights : ∀ call ∈ run.flying, Sound call
  updates : ∀ call ∈ run.ended, call.UpdatesAccepted

section
variable {task : TaskReorg} {run next : ReorgRun} {waiting others : List WaitingHeader} {ended : List ReproveCall} {pushes number : Nat}

theorem mem_triedOf : call ∈ triedOf ended push ↔ call ∈ ended ∧ call.returned = true ∧ call.header.push = push := by
  simp [triedOf]

theorem triedOf_concat (ended : List ReproveCall) (call : ReproveCall) (push : Nat) :
    triedOf (ended ++ [call]) push = triedOf ended push ++ if call.returned = true ∧ call.header.push = push then [call] else [] := by
  by_cases counts : call.returned = true ∧ call.header.push = push
  · simp [triedOf, List.filter_append, counts]
  · rw [if_neg counts]
    simp only [triedOf, List.filter_append, List.append_cancel_left_eq, List.filter_eq_nil_iff, mem_singleton, forall_eq,
      Bool.and_eq_true, decide_eq_true_eq]
    exact counts

theorem Placed.perm (placed : Placed task waiting ended pushes) (same : waiting.Perm others) : Placed task others ended pushes := by
  refine ⟨((same.map _).nodup_iff).mp placed.nodup, fun header member => placed.pending header (same.mem_iff.mpr member), ?_⟩
  intro push inside away
  apply placed.settled push inside
  rw [(same.map _).mem_iff]
  exact away

theorem Placed.push (placed : Placed task waiting ended pushes) (new : header.push = pushes) (zero : header.tries = 0)
    (past : ∀ call ∈ ended, call.header.push < pushes) : Placed task (header :: waiting) ended (pushes + 1) := by
  have untried : triedOf ended header.push = [] := by
    rw [List.eq_nil_iff_forall_not_mem]
    intro call member
    obtain ⟨there, -, same⟩ := mem_triedOf.mp member
    have low := past call there
    omega
  refine ⟨?_, ?_, ?_⟩
  · rw [map_cons, nodup_cons]
    refine ⟨fun member => ?_, placed.nodup⟩
    obtain ⟨other, inside, same⟩ := mem_map.mp member
    have low := (placed.pending other inside).1
    omega
  · intro other member
    rcases mem_cons.mp member with rfl | old
    · refine ⟨by omega, ?_, .inl zero, ?_⟩
      · rw [untried, zero]
        rfl
      · rw [untried]
        exact fun _ none => nomatch none
    · exact ⟨Nat.lt_succ_of_lt (placed.pending other old).1, (placed.pending other old).2⟩
  · intro push inside away
    rw [map_cons, mem_cons, not_or] at away
    apply placed.settled push _ away.2
    omega

theorem Placed.ends {header call} (placed : Placed task (header :: waiting) ended pushes)
    (returned : call.returned = true) (of : call.header = header)
    (again : Option WaitingHeader) (retried : ∀ other, again = some other →
      other.push = header.push ∧ other.tries = header.tries + 1 ∧ other.tries < task.maxRetries ∧ ¬call.Clean)
    (settled : again = none → call.Clean ∨ task.maxRetries ≤ header.tries + 1) :
    Placed task (again.toList ++ waiting) (ended ++ [call]) pushes := by
  have own : triedOf (ended ++ [call]) header.push = triedOf ended header.push ++ [call] := by
    rw [triedOf_concat, if_pos ⟨returned, congrArg _ of⟩]
  have other : ∀ {push : Nat}, push ≠ header.push → triedOf (ended ++ [call]) push = triedOf ended push := by
    intro push ne
    rw [triedOf_concat, if_neg, append_nil]
    rintro ⟨-, same⟩
    rw [of] at same
    exact ne same.symm
  have here := placed.pending header (.head _)
  obtain ⟨apart, nodup⟩ := nodup_cons.mp placed.nodup
  have away : ∀ waits ∈ waiting, waits.push ≠ header.push := by
    intro waits member same
    exact apart (mem_map.mpr ⟨waits, member, same⟩)
  have stays : ∀ waits ∈ waiting, waits.push < pushes ∧ Pending task (ended ++ [call]) waits := by
    intro waits member
    obtain ⟨inside, pending⟩ := placed.pending waits (.tail _ member)
    have same := other (away waits member)
    exact ⟨inside, by rw [same]; exact pending.tries, pending.more, by rw [same]; exact pending.unclean⟩
  have elsewhere : ∀ push < pushes, push ≠ header.push → push ∉ waiting.map (·.push) → Settled task (ended ++ [call]) push := by
    intro push inside ne absent
    have before := placed.settled push inside (List.not_mem_cons_of_ne_of_not_mem ne absent)
    unfold Settled at before ⊢
    rw [other ne]
    exact before
  cases again with
  | none =>
    refine ⟨nodup, stays, fun push inside absent => ?_⟩
    by_cases same : push = header.push
    · subst same
      refine ⟨call, ?_, ?_⟩
      · rw [own]
        exact mem_append_right _ (.head _)
      · rw [own, List.length_append, ← here.2.tries]
        exact settled rfl
    · exact elsewhere push inside same absent
  | some waits =>
    obtain ⟨same, more, limit, unclean⟩ := retried waits rfl
    refine ⟨?_, ?_, ?_⟩
    · show (waits.push :: waiting.map (·.push)).Nodup
      rw [same]
      exact placed.nodup
    · intro found member
      rcases mem_cons.mp member with rfl | old
      · refine ⟨same ▸ here.1, ?_, .inr limit, ?_⟩
        · rw [same, own, List.length_append, ← here.2.tries]
          exact more
        · rw [same, own]
          intro tried inside
          rcases mem_append.mp inside with before | last
          · exact here.2.unclean tried before
          · rw [mem_singleton.mp last]
            exact unclean
      · exact stays found old
    · intro push inside absent
      replace absent : push ∉ waits.push :: waiting.map (·.push) := absent
      rw [mem_cons, not_or, same] at absent
      exact elsewhere push inside absent.1 absent.2

theorem Placed.settled_iff (placed : Placed task waiting ended pushes) {push} (inside : push < pushes) :
    Settled task ended push ↔ push ∉ waiting.map (·.push) := by
  refine ⟨?_, placed.settled push inside⟩
  rintro ⟨call, tried, finished⟩ member
  obtain ⟨header, waits, rfl⟩ := mem_map.mp member
  obtain ⟨-, tries, more, unclean⟩ := placed.pending header waits
  rcases finished with clean | limit
  · exact unclean call tried clean
  · have some := List.length_pos_of_mem tried
    omega

theorem Kept.trigger (kept : run.Kept task) : (run.trigger task run.clock).2.Kept task := by
  have split := @List.takeWhile_append_dropWhile _ (fun header : WaitingHeader => decide (run.clock - task.agedMsecs > header.whenMsecs)) run.deactivatedHeaders
  refine ⟨kept.placed.perm ?_, ⟨kept.timed.past, ?_, ?_, kept.timed.apart, kept.timed.flying⟩, kept.flights, kept.updates⟩
  · have moved : (run.deactivatedHeaders ++ run.process).Perm ((run.trigger task run.clock).2.deactivatedHeaders ++ (run.trigger task run.clock).2.process) := by
      conv => lhs; rw [← split]
      have crossed := (@perm_append_comm _ (run.deactivatedHeaders.takeWhile (run.clock - task.agedMsecs > ·.whenMsecs))
        (run.deactivatedHeaders.dropWhile (run.clock - task.agedMsecs > ·.whenMsecs))).append_right run.process
      refine crossed.trans ?_
      rw [append_assoc]
      exact perm_append_comm.append_left _
    exact moved.append_right _
  · intro header member
    exact kept.timed.queued header ((List.dropWhile_sublist _).subset member)
  · intro header member call there same
    rcases mem_append.mp member with old | new
    · exact kept.timed.aged header old call there same
    · have young := List.mem_takeWhile_imp new
      rw [decide_eq_true_eq] at young
      have late := kept.timed.queued header ((List.takeWhile_sublist _).subset new) call there same
      show call.ended + task.agedMsecs < run.clock
      omega

theorem Kept.shift (kept : run.Kept task) : (run.shift run.clock).Kept task := by
  unfold ReorgRun.shift
  split
  next header rest first =>
    refine ⟨kept.placed.perm ?_, ⟨kept.timed.past, kept.timed.queued, ?_, kept.timed.apart, ?_⟩, ?_, kept.updates⟩
    · unfold waiting
      rw [first]
      simp only [map_append, map_cons, map_nil]
      rw [append_assoc, append_assoc]
      apply List.Perm.append_left
      rw [← append_assoc]
      exact @perm_append_comm _ [header] (rest ++ run.flying.map (·.header))
    · intro other member
      exact kept.timed.aged other (first ▸ .tail _ member)
    · intro ended there call member
      rcases mem_append.mp member with old | new
      · exact kept.timed.flying ended there call old
      · rw [mem_singleton.mp new]
        exact kept.timed.aged header (first ▸ .head _) ended there
    · intro call member
      rcases mem_append.mp member with old | new
      · exact kept.flights call old
      · rw [mem_singleton.mp new]
        exact ⟨rfl, rfl, rfl⟩
  next => exact kept

theorem Kept.setCall (kept : run.Kept task) (is : run.flying[number]? = some call) (header : after.header = call.header)
    (began : after.began = call.began) (sound : Sound after) : (run.setCall number after).Kept task := by
  obtain ⟨inside, rfl⟩ := List.getElem?_eq_some_iff.mp is
  refine ⟨?_, ⟨kept.timed.past, kept.timed.queued, kept.timed.aged, kept.timed.apart, ?_⟩, ?_, kept.updates⟩
  · have same : (run.flying.set number after).map (·.header) = run.flying.map (·.header) := by
      have self := @List.set_getElem_self _ (run.flying.map (·.header)) number (by rw [List.length_map]; exact inside)
      rw [List.getElem_map] at self
      rw [List.map_set, header]
      exact self
    have placed := kept.placed
    unfold waiting at placed ⊢
    rw [← same] at placed
    exact placed
  · intro ended there second member
    rcases List.mem_or_eq_of_mem_set member with old | rfl
    · exact kept.timed.flying ended there second old
    · intro same
      rw [began]
      apply kept.timed.flying ended there _ (List.getElem_mem inside)
      rw [← header]
      exact same
  · intro other member
    rcases List.mem_or_eq_of_mem_set member with old | rfl
    · exact kept.flights other old
    · exact sound

def retried (task : TaskReorg) (now : Int) (call : ReproveCall) : Option WaitingHeader :=
  if (call.r.unavailable ≠ [] ∨ call.r.unchanged ≠ []) ∧ call.header.tries + 1 < task.maxRetries then
    some { header := call.header.header, whenMsecs := now, tries := call.header.tries + 1, push := call.header.push }
  else none

theorem retry_retried (now : Int) (call : ReproveCall) (run : ReorgRun) :
    run.retry task now call = { run with deactivatedHeaders := run.deactivatedHeaders ++ (retried task now call).toList } := by
  unfold ReorgRun.retry retried
  split
  next left =>
    split
    next limit => rw [if_neg fun both => absurd both.2 (by omega), Option.toList_none, append_nil]
    next more =>
      rw [if_pos ⟨left, by omega⟩]
      rfl
  next none => rw [if_neg fun both => none both.1, Option.toList_none, append_nil]

theorem retried_some (again : retried task now call = some header) :
    header.push = call.header.push ∧ header.tries = call.header.tries + 1 ∧ header.tries < task.maxRetries ∧ header.whenMsecs = now ∧ ¬call.Clean := by
  unfold retried at again
  split at again
  next both =>
    cases again
    refine ⟨rfl, rfl, both.2, rfl, fun clean => ?_⟩
    rcases both.1 with some | some
    · exact some clean.1
    · exact some clean.2
  next => cases again

theorem retried_none (again : retried task now call = none) :
    call.Clean ∨ task.maxRetries ≤ call.header.tries + 1 := by
  unfold retried at again
  split at again
  next => cases again
  next either =>
    by_cases more : call.header.tries + 1 < task.maxRetries
    · have clean := mt (fun left => ⟨left, more⟩) either
      rw [not_or, not_not, not_not] at clean
      exact .inl clean
    · exact .inr (Nat.le_of_not_lt more)

theorem waiting_flying (is : run.flying[number]? = some call) :
    run.waiting.Perm (call.header :: (run.deactivatedHeaders ++ run.process ++ (run.flying.eraseIdx number).map (·.header))) := by
  obtain ⟨inside, rfl⟩ := List.getElem?_eq_some_iff.mp is
  have taken := (List.getElem_cons_eraseIdx_perm inside).symm.map (·.header)
  exact (taken.append_left _).trans List.perm_middle

theorem Kept.finish (kept : run.Kept task) (is : run.flying[number]? = some call) (header : done.header = call.header)
    (began : done.began = call.began) (updates : done.UpdatesAccepted) : (run.finish task run.clock number done).Kept task := by
  unfold ReorgRun.finish
  rw [retry_retried]
  have member := mem_of_getElem? is
  have own := kept.placed.pending call.header (mem_append_right _ (List.mem_map_of_mem member))
  have erased : ∀ other ∈ run.flying.eraseIdx number, other ∈ run.flying := fun other inside => (List.eraseIdx_sublist _ _).subset inside
  have apart : ∀ first ∈ run.ended, CallsApart task.agedMsecs first { done with phase := .returned, ended := run.clock } := by
    intro first there same
    show first.ended + task.agedMsecs < done.began
    rw [began]
    apply kept.timed.flying first there call member
    rw [← header]
    exact same
  have moved := waiting_flying is
  have alone : ∀ other ∈ run.deactivatedHeaders ++ run.process ++ (run.flying.eraseIdx number).map (·.header), done.header.push ≠ other.push := by
    intro other inside same
    have nodup := (moved.map (·.push)).nodup_iff.mp kept.placed.nodup
    rw [map_cons, nodup_cons] at nodup
    rw [header] at same
    exact nodup.1 (mem_map.mpr ⟨other, inside, same.symm⟩)
  apply Kept.shift
  refine ⟨?_, ⟨?_, ?_, ?_, ?_, ?_⟩, fun other inside => kept.flights other (erased other inside), ?_⟩
  · have placed := @Placed.ends _ _ _ _ _ { done with phase := .returned, ended := run.clock } (kept.placed.perm moved) rfl header
      (retried task run.clock done) ?_ ?_
    · apply placed.perm
      show (_ ++ (run.deactivatedHeaders ++ run.process ++ _)).Perm (run.deactivatedHeaders ++ _ ++ run.process ++ _)
      simp only [append_assoc]
      exact List.perm_append_comm_assoc _ _ _
    · intro other again
      obtain ⟨push, tries, limit, -, unclean⟩ := retried_some again
      rw [header] at push tries
      exact ⟨push, tries, limit, unclean⟩
    · intro none
      have finished := retried_none none
      rw [header] at finished
      exact finished
  · intro other inside
    rcases mem_append.mp inside with old | new
    · exact kept.timed.past other old
    · rw [mem_singleton.mp new]
      exact ⟨Int.le_refl _, by rw [header]; exact own.1⟩
  · intro waits inside other there same
    rcases mem_append.mp inside with before | again
    · rcases mem_append.mp there with old | new
      · exact kept.timed.queued waits before other old same
      · rw [mem_singleton.mp new] at same
        exact absurd same (alone waits (mem_append_left _ (mem_append_left _ before)))
    · obtain ⟨-, -, -, now, -⟩ := retried_some (Option.mem_toList.mp again)
      rw [now]
      rcases mem_append.mp there with old | new
      · exact (kept.timed.past other old).1
      · rw [mem_singleton.mp new]
  · intro waits inside other there same
    rcases mem_append.mp there with old | new
    · exact kept.timed.aged waits inside other old same
    · rw [mem_singleton.mp new] at same
      exact absurd same (alone waits (mem_append_left _ (mem_append_right _ inside)))
  · refine List.pairwise_append.mpr ⟨kept.timed.apart, List.pairwise_singleton _ _, fun first there last inside => ?_⟩
    rw [mem_singleton.mp inside]
    exact apart first there
  · intro first there second inside
    rcases mem_append.mp there with old | new
    · exact kept.timed.flying first old second (erased second inside)
    · rw [mem_singleton.mp new]
      intro same
      exact absurd same (alone second.header (mem_append_right _ (List.mem_map_of_mem inside)))
  · intro other inside
    rcases mem_append.mp inside with old | new
    · exact kept.updates other old
    · rw [mem_singleton.mp new]
      exact ⟨updates.wrote, updates.rows, updates.block⟩

theorem Kept.goUpdating (kept : run.Kept task)
    (is : run.flying[number]? = some call) (header : after.header = call.header) (began : after.began = call.began)
    (wrote : after.wrote ++ left = after.r.updated) (rows : after.r.rows.Perm after.found)
    (block : ∀ row ∈ after.found, row.blockHash = after.header.header.hash) : (run.goUpdating task run.clock number after left).Kept task := by
  cases left with
  | nil =>
    rw [append_nil] at wrote
    exact kept.finish is header began ⟨wrote, rows, block⟩
  | cons next rest => exact kept.setCall is header began ⟨wrote, rows, block⟩

theorem Kept.goProving (kept : run.Kept task)
    (is : run.flying[number]? = some call) (header : after.header = call.header) (began : after.began = call.began)
    (wrote : after.wrote = []) (rows : (after.r.rows ++ left).Perm after.found)
    (block : ∀ row ∈ after.found, row.blockHash = after.header.header.hash) : (run.goProving task run.clock number after left).Kept task := by
  cases left with
  | nil =>
    rw [append_nil] at rows
    exact kept.goUpdating is header began (by rw [wrote]; rfl) rows block
  | cons ptx rest => exact kept.setCall is header began ⟨wrote, rows, block⟩

theorem rows_add (r : ReproveHeaderResult) (ptx : TableProvenTx) (reproven : Reproven) : (r.add ptx reproven).rows.Perm (r.rows ++ [ptx]) := by
  cases reproven with
  | updated update =>
    simp only [ReproveHeaderResult.add, ReproveHeaderResult.rows, map_append, map_cons, map_nil, append_assoc]
    apply List.Perm.append_left
    rw [← append_assoc r.unchanged]
    exact perm_append_comm
  | unchanged =>
    simp only [ReproveHeaderResult.add, ReproveHeaderResult.rows, append_assoc]
    apply List.Perm.append_left
    apply List.Perm.append_left
    exact perm_append_comm
  | unavailable =>
    simp only [ReproveHeaderResult.add, ReproveHeaderResult.rows, append_assoc]
    exact .refl _

theorem Kept.later (kept : run.Kept task) (le : run.clock ≤ now) : Kept task { run with clock := now } := by
  refine ⟨kept.placed, ⟨?_, kept.timed.queued, ?_, kept.timed.apart, kept.timed.flying⟩, kept.flights, kept.updates⟩
  · intro call there
    exact ⟨Int.le_trans (kept.timed.past call there).1 le, (kept.timed.past call there).2⟩
  · intro header inside call there same
    exact Int.lt_of_lt_of_le (kept.timed.aged header inside call there same) le

theorem Kept.act (kept : run.Kept task) (calm : run.Undisturbed (run.clock, event))
    (acted : run.act task run.clock event = some next) : next.Kept task := by
  cases event with
  | push header whenMsecs =>
    cases acted
    have untried : ∀ call ∈ run.ended, call.header.push < run.pushes := fun call there => (kept.timed.past call there).2
    refine ⟨?_, ⟨?_, ?_, kept.timed.aged, kept.timed.apart, kept.timed.flying⟩, kept.flights, kept.updates⟩
    · have placed := kept.placed.push (rfl : ({ whenMsecs, tries := 0, header, push := run.pushes } : WaitingHeader).push = run.pushes) rfl untried
      apply placed.perm
      unfold waiting
      simp only [append_assoc]
      exact List.perm_middle.symm
    · intro call there
      exact ⟨(kept.timed.past call there).1, Nat.lt_succ_of_lt (untried call there)⟩
    · intro waits inside call there same
      rcases mem_append.mp inside with old | new
      · exact kept.timed.queued waits old call there same
      · rw [mem_singleton.mp new] at same
        exact absurd same (Nat.ne_of_lt (untried call there))
  | trigger =>
    cases acted
    exact kept.trigger
  | runTask =>
    cases acted
    exact kept.shift
  | found number =>
    simp only [ReorgRun.act] at acted
    split at acted
    next call is =>
      have sound := kept.flights call (mem_of_getElem? is)
      split at acted
      next phase =>
        cases acted
        rw [Sound, phase] at sound
        obtain ⟨-, none, wrote⟩ := sound
        refine kept.goProving is ?_ ?_ wrote ?_ ?_
        · rfl
        · rfl
        · show (call.r.rows ++ _).Perm _
          rw [none]
          exact .refl _
        · intro row member
          exact of_decide_eq_true (List.mem_filter.mp member).2
      next => cases acted
    next => cases acted
  | reproved number reproven =>
    simp only [ReorgRun.act] at acted
    split at acted
    next call is =>
      have sound := kept.flights call (mem_of_getElem? is)
      split at acted
      next ptx left phase =>
        cases acted
        rw [Sound, phase] at sound
        obtain ⟨wrote, rows, block⟩ := sound
        refine kept.goProving is ?_ ?_ wrote ?_ block
        · rfl
        · rfl
        · apply ((rows_add call.r ptx reproven).append_right left).trans
          rw [append_assoc]
          exact rows
      next => cases acted
    next => cases acted
  | updated number =>
    simp only [ReorgRun.act] at acted
    split at acted
    next call is =>
      have sound := kept.flights call (mem_of_getElem? is)
      split at acted
      next entry left phase =>
        cases acted
        rw [Sound, phase] at sound
        obtain ⟨wrote, rows, block⟩ := sound
        have stored : Kept task { run with provenTxs := updateProvenTx entry run.provenTxs } := ⟨kept.placed, ⟨kept.timed.past, kept.timed.queued,
          kept.timed.aged, kept.timed.apart, kept.timed.flying⟩, kept.flights, kept.updates⟩
        refine stored.goUpdating is ?_ ?_ ?_ rows block
        · rfl
        · rfl
        · show (call.wrote ++ [entry]) ++ left = call.r.updated
          rw [append_assoc]
          exact wrote
      next => cases acted
    next => cases acted
  | threw number => exact calm.elim
  | storageChanged provenTxs =>
    cases acted
    exact ⟨kept.placed, ⟨kept.timed.past, kept.timed.queued, kept.timed.aged, kept.timed.apart, kept.timed.flying⟩, kept.flights, kept.updates⟩

theorem Kept.step {event} (kept : run.Kept task) (calm : run.Undisturbed event) (stepped : run.step task event = some next) :
    next.Kept task := by
  unfold ReorgRun.step at stepped
  split at stepped
  next le =>
    obtain ⟨clock, event⟩ := event
    exact (kept.later le).act calm stepped
  next => cases stepped

theorem Kept.new (task : TaskReorg) (provenTxs : List TableProvenTx) : Kept task { provenTxs } := by
  refine ⟨⟨.nil, ?_, ?_⟩, ⟨?_, ?_, ?_, .nil, ?_⟩, ?_, ?_⟩
  all_goals intro _ none
  all_goals exact (by cases none)

theorem triggered (is : run.deactivatedHeaders = before ++ header :: after)
    (old : ∀ other ∈ before ++ [header], other.whenMsecs < now - task.agedMsecs) :
    (run.trigger task now).1 = true ∧ header ∈ (run.trigger task now).2.process := by
  have moves : header ∈ (run.trigger task now).2.process := by
    apply mem_append_right
    rw [is, show before ++ header :: after = (before ++ [header]) ++ after by rw [append_assoc]; rfl]
    rw [List.takeWhile_append_of_pos fun other inside => decide_eq_true (old other inside)]
    exact mem_append_left _ (mem_append_right _ (.head _))
  refine ⟨?_, moves⟩
  show (!(run.trigger task now).2.process.isEmpty) = true
  cases filled : (run.trigger task now).2.process with
  | nil =>
    rw [filled] at moves
    cases moves
  | cons first rest => rfl

theorem taken (is : run.process = header :: rest) (le : run.clock ≤ now) :
    ∃ next call, step task run (now, .runTask) = some next ∧ call ∈ next.flying ∧ call.header = header := by
  refine ⟨_, { header, began := now }, if_pos le, ?_, rfl⟩
  show _ ∈ (ReorgRun.shift now { run with clock := now }).flying
  unfold ReorgRun.shift
  simp only [is]
  exact mem_append_right _ (.head _)

theorem Kept.followsUp (kept : run.Kept task) : run.FollowsUp task := by
  refine ⟨fun push inside => kept.placed.settled_iff inside, kept.placed.nodup, ?_, kept.updates, ?_, ?_⟩
  · refine List.pairwise_append.mpr ⟨kept.timed.apart, ?_, kept.timed.flying⟩
    -- Two calls that are on their way are of different headers.
    have nodup := kept.placed.nodup
    rw [waiting, map_append, List.nodup_append, List.map_map] at nodup
    have apart := List.pairwise_map.mp nodup.2.1
    exact apart.imp fun ne same => absurd same ne
  · intro before header after now is old
    exact triggered is old
  · intro header rest now is le
    exact taken is le

/-- While no call rejects, a header that was pushed waits until it is settled. -/
theorem reorg_work_kept {provenTxs : List TableProvenTx} {events : List (Int × ReorgEvent)} {last : ReorgRun}
    (calm : EveryStep (ReorgRun.step task) Undisturbed { provenTxs } events)
    (ran : runEvents (ReorgRun.step task) { provenTxs } events = some last) : last.FollowsUp task := by
  have kept : last.Kept task := runEvents_keeps (fun _ _ _ kept condition stepped => kept.step condition stepped) (.new task provenTxs) calm ran
  exact kept.followsUp

def orphanedHeader : BlockHeader :=
  { version := 1, previousHash := "", merkleRoot := "old root", time := 0, bits := 0, nonce := 0, height := 7, hash := "orphaned" }

def orphanedProof (provenTxId : Nat) : TableProvenTx :=
  { provenTxId, txid := "ab", height := 7, index := 0, merklePath := [], rawTx := [], blockHash := "orphaned", merkleRoot := "old root" }

def acceptedUpdate : ProofUpdate := { height := 7, index := 0, merklePath := [], merkleRoot := "new root", blockHash := "active" }

/-- One proof is replaced, and nothing is left to be done. -/
theorem reorg_work_kept_once :
    ((runEvents (ReorgRun.step {}) { provenTxs := [orphanedProof 1] }
      [(0, .push orphanedHeader 0), (600001, .trigger), (600001, .runTask), (600002, .found 0), (600003, .reproved 0 (.updated acceptedUpdate)),
        (600004, .updated 0)]).get (by decide +kernel)).FollowsUp {} := by
  apply @reorg_work_kept {} [orphanedProof 1]
    [(0, .push orphanedHeader 0), (600001, .trigger), (600001, .runTask), (600002, .found 0), (600003, .reproved 0 (.updated acceptedUpdate)),
      (600004, .updated 0)]
  · exact ⟨trivial, fun _ _ => ⟨trivial, fun _ _ => ⟨trivial, fun _ _ => ⟨trivial, fun _ _ => ⟨trivial, fun _ _ => ⟨trivial, fun _ _ => trivial⟩⟩⟩⟩⟩⟩
  · exact (Option.some_get _).symm

def abandonedRun : Option ReorgRun :=
  runEvents (ReorgRun.step {}) { provenTxs := [orphanedProof 1, orphanedProof 2] }
    [(0, .push orphanedHeader 0), (600001, .trigger), (600001, .runTask), (600002, .found 0), (600003, .reproved 0 (.updated acceptedUpdate)),
      (600004, .threw 0)]

theorem rejected_call_loses :
    ¬(abandonedRun.get (by decide +kernel)).FollowsUp {} ∧ ∃ call ∈ (abandonedRun.get (by decide +kernel)).ended, ¬call.UpdatesAccepted := by
  constructor
  · intro follows
    obtain ⟨call, tried, -⟩ := (follows.settled 0 (by decide +kernel)).mpr (by decide +kernel)
    cases tried
  · refine ⟨_, List.Mem.head _, fun accepted => ?_⟩
    have wrote := congrArg List.length accepted.wrote
    revert wrote
    decide +kernel

end
end ReorgRun
end WalletToolbox
