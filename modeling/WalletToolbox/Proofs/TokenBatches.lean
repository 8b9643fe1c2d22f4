import Mathlib.Data.List.Nodup
import WalletToolbox.Permissions.TokenBatches

/-! What the batches make of tokens that fail. A chunk is tried again in halves; whether its
tokens can still be spent then depends on whether the failed try had created its action. -/

namespace WalletToolbox.TokenBatches
open Effects Fallible
open List (append_nil filter_append map_append mem_append mem_append_left mem_append_right mem_map mem_map_of_mem mem_singleton)

section
variable {failures : TokenFailures} {outpoints : List String} {outputs : TokenOutputs}

def locking (outpoints : List String) (outputs : TokenOutputs) : TokenOutputs := { outputs with locked := outputs.locked ++ outpoints }

theorem createAction_run (failures : TokenFailures) (outpoints : List String) (outputs : TokenOutputs) :
    ((∀ outpoint ∈ outpoints, failures.beforeCreate outpoint = false ∧ outputs.Spendable outpoint) ∧
        createAction failures outpoints outputs = (.ok (), locking outpoints outputs)) ∨
      ((∃ outpoint ∈ outpoints, failures.beforeCreate outpoint = true ∨ ¬outputs.Spendable outpoint) ∧
        ∃ error, createAction failures outpoints outputs = (.error error, outputs)) := by
  by_cases fine : ∀ outpoint ∈ outpoints, failures.beforeCreate outpoint = false
  · by_cases spendable : ∀ outpoint ∈ outpoints, outputs.Spendable outpoint
    · refine .inl ⟨fun outpoint member => ⟨fine outpoint member, spendable outpoint member⟩, ?_⟩
      rw [createAction, require_met fine, current_bind_apply, require_met spendable]
      rfl
    · refine .inr ⟨?_, _, (require_met fine).trans (require_unmet spendable)⟩
      push Not at spendable
      obtain ⟨outpoint, member, stuck⟩ := spendable
      exact ⟨outpoint, member, .inr stuck⟩
  · refine .inr ⟨?_, _, require_unmet fine⟩
    push Not at fine
    obtain ⟨outpoint, member, fails⟩ := fine
    exact ⟨outpoint, member, .inl (by simpa using fails)⟩

def signing (outpoints : List String) (outputs : TokenOutputs) : TokenOutputs where
  locked := outputs.locked.filter (· ∉ outpoints)
  transactions := outputs.transactions ++ [outpoints]

theorem signAction_run (failures : TokenFailures) (outpoints : List String) (outputs : TokenOutputs) :
    ((∀ outpoint ∈ outpoints, failures.afterCreate outpoint = false) ∧ signAction failures outpoints outputs = (.ok (), signing outpoints outputs)) ∨
      ((∃ outpoint ∈ outpoints, failures.afterCreate outpoint = true) ∧ ∃ error, signAction failures outpoints outputs = (.error error, outputs)) := by
  by_cases fine : ∀ outpoint ∈ outpoints, failures.afterCreate outpoint = false
  · exact .inl ⟨fine, require_met fine⟩
  · refine .inr ⟨?_, _, require_unmet fine⟩
    push Not at fine
    obtain ⟨outpoint, member, fails⟩ := fine
    exact ⟨outpoint, member, by simpa using fails⟩

theorem signing_locking (new : ∀ outpoint ∈ outpoints, outputs.Spendable outpoint) :
    signing outpoints (locking outpoints outputs) = { outputs with transactions := outputs.transactions ++ [outpoints] } := by
  unfold signing locking
  simp only [TokenOutputs.mk.injEq, and_true]
  rw [filter_append, List.filter_eq_self.mpr fun outpoint member => ?_, List.filter_eq_nil_iff.mpr fun outpoint member => ?_, append_nil]
  · simp [member]
  · simp only [decide_not, Bool.not_eq_eq_eq_not, Bool.not_true, decide_eq_false_iff_not]
    exact fun there => (new outpoint there).1 member

end

section
variable {T R : Type} (failures : TokenFailures) (outpoint : T → String) (result : T → R)

theorem spendChunk_run (chunk : List T) (outputs : TokenOutputs) :
    ((∀ item ∈ chunk, failures.beforeCreate (outpoint item) = false ∧ failures.afterCreate (outpoint item) = false ∧ outputs.Spendable (outpoint item)) ∧
        spendChunk failures outpoint result chunk outputs =
          (.ok (chunk.map result), { outputs with transactions := outputs.transactions ++ [chunk.map outpoint] })) ∨
      ((∃ item ∈ chunk, failures.beforeCreate (outpoint item) = true ∨ ¬outputs.Spendable (outpoint item)) ∧
        ∃ error, spendChunk failures outpoint result chunk outputs = (.error error, outputs)) ∨
      ((∀ item ∈ chunk, failures.beforeCreate (outpoint item) = false ∧ outputs.Spendable (outpoint item)) ∧
        (∃ item ∈ chunk, failures.afterCreate (outpoint item) = true) ∧
        ∃ error, spendChunk failures outpoint result chunk outputs = (.error error, locking (chunk.map outpoint) outputs)) := by
  unfold spendChunk
  rcases createAction_run failures (chunk.map outpoint) outputs with ⟨fine, created⟩ | ⟨bad, error, failed⟩
  · rw [List.forall_mem_map] at fine
    rw [bind_of_ok created]
    rcases signAction_run failures (chunk.map outpoint) (locking (chunk.map outpoint) outputs) with ⟨late, signed⟩ | ⟨late, error, failed⟩
    · rw [List.forall_mem_map] at late
      refine .inl ⟨fun item member => ⟨(fine item member).1, late item member, (fine item member).2⟩, ?_⟩
      rw [bind_of_ok signed, signing_locking (List.forall_mem_map.mpr fun item member => (fine item member).2)]
      rfl
    · obtain ⟨_, member, late⟩ := late
      obtain ⟨item, inside, rfl⟩ := mem_map.mp member
      exact .inr (.inr ⟨fine, ⟨item, inside, late⟩, error, bind_of_error failed⟩)
  · obtain ⟨_, member, bad⟩ := bad
    obtain ⟨item, inside, rfl⟩ := mem_map.mp member
    exact .inr (.inl ⟨⟨item, inside, bad⟩, error, bind_of_error failed⟩)

variable {failures outpoint result}

theorem runBestEffortChunk_cases (runChunk : List T → Fallible ε σ (List R)) (chunk : List T) (state : σ) :
    (∃ results after, runChunk chunk state = (.ok results, after) ∧ runBestEffortChunk runChunk chunk state = (results, after)) ∨
      ∃ error after, runChunk chunk state = (.error error, after) ∧
        ((chunk.length ≤ 1 ∧ runBestEffortChunk runChunk chunk state = ([], after)) ∨
          ∃ left right, left ++ right = chunk ∧ left.length < chunk.length ∧ right.length < chunk.length ∧
            runBestEffortChunk runChunk chunk state =
              ((runBestEffortChunk runChunk left after).1 ++ (runBestEffortChunk runChunk right (runBestEffortChunk runChunk left after).2).1,
                (runBestEffortChunk runChunk right (runBestEffortChunk runChunk left after).2).2)) := by
  rw [runBestEffortChunk]
  split
  next results after ran => exact .inl ⟨results, after, ran, rfl⟩
  next error after ran =>
    refine .inr ⟨error, after, ran, ?_⟩
    split
    next short => exact .inl ⟨short, rfl⟩
    next long =>
      refine .inr ⟨_, _, List.take_append_drop ((chunk.length + 1) / 2) chunk, ?_, ?_, rfl⟩
      · rw [List.length_take]
        omega
      · rw [List.length_drop]
        omega

def Processable (failures : TokenFailures) (outpoint : String) : Bool := !failures.beforeCreate outpoint && !failures.afterCreate outpoint

/-- The tokens that can be processed are spent, and nothing else changes. -/
structure Spends (failures : TokenFailures) (outpoint : T → String) (result : T → R) (items : List T) (before : TokenOutputs)
    (ended : List R × TokenOutputs) : Prop where
  returned : ended.1 = (items.filter (Processable failures <| outpoint ·)).map result
  locked : ended.2.locked = before.locked
  spent : ended.2.transactions.flatten = before.transactions.flatten ++ (items.filter (Processable failures <| outpoint ·)).map outpoint

theorem Spends.append {left right before middle after first second}
    (here : Spends failures outpoint result left before (first, middle)) (there : Spends failures outpoint result right middle (second, after)) :
    Spends failures outpoint result (left ++ right) before (first ++ second, after) := by
  refine ⟨?_, there.locked.trans here.locked, ?_⟩
  · rw [filter_append, map_append]
    exact congr (congrArg _ here.returned) there.returned
  · rw [filter_append, map_append, ← List.append_assoc]
    exact there.spent.trans (congrArg (· ++ _) here.spent)

theorem Spends.spendable (spends : Spends failures outpoint result items before ended) (can : before.Spendable other) (different : other ∉ items.map outpoint) : ended.2.Spendable other := by
  refine ⟨spends.locked ▸ can.1, ?_⟩
  rw [spends.spent, mem_append]
  rintro (was | now)
  · exact can.2 was
  · obtain ⟨item, member, rfl⟩ := mem_map.mp now
    exact different (mem_map_of_mem (List.mem_of_mem_filter member))

theorem spends_nil (before : TokenOutputs) : Spends failures outpoint result [] before ([], before) :=
  ⟨rfl, rfl, (append_nil _).symm⟩

def FailsEarly (failures : TokenFailures) (outpoints : List String) : Prop :=
  ∀ outpoint ∈ outpoints, failures.afterCreate outpoint = true → failures.beforeCreate outpoint = true

theorem chunk_spends {chunk} (early : FailsEarly failures (chunk.map outpoint)) (distinct : (chunk.map outpoint).Nodup)
    {state} (spendable : ∀ item ∈ chunk, state.Spendable (outpoint item)) :
    Spends failures outpoint result chunk state (runBestEffortChunk (spendChunk failures outpoint result) chunk state) := by
  induction size : chunk.length using Nat.strongRecOn generalizing chunk state with
  | ind length ih =>
    subst size
    rcases runBestEffortChunk_cases (spendChunk failures outpoint result) chunk state with ⟨results, after, ran, ended⟩ | ⟨error, after, ran, ended⟩
    · rw [ended]
      rcases spendChunk_run failures outpoint result chunk state with ⟨fine, same⟩ | ⟨_, error, same⟩ | ⟨_, _, error, same⟩
      · rw [same] at ran
        obtain ⟨ok, rfl⟩ := Prod.mk.inj ran
        cases ok
        have kept : chunk.filter (Processable failures <| outpoint ·) = chunk := List.filter_eq_self.mpr fun item member => by
          obtain ⟨before, later, -⟩ := fine item member
          simp [Processable, before, later]
        refine ⟨by rw [kept], rfl, ?_⟩
        rw [kept, List.flatten_append, List.flatten_singleton]
      · rw [same] at ran
        cases (Prod.mk.inj ran).1
      · rw [same] at ran
        cases (Prod.mk.inj ran).1
    · have unchanged : after = state ∧ ∃ item ∈ chunk, failures.beforeCreate (outpoint item) = true := by
        rcases spendChunk_run failures outpoint result chunk state with ⟨_, same⟩ | ⟨⟨item, member, bad⟩, error, same⟩ | ⟨fine, ⟨item, member, late⟩, -⟩
        · rw [same] at ran
          cases (Prod.mk.inj ran).1
        · rw [same] at ran
          refine ⟨(Prod.mk.inj ran).2.symm, item, member, bad.resolve_right fun stuck => stuck (spendable item member)⟩
        · have before := early _ (mem_map_of_mem member) late
          rw [(fine item member).1] at before
          nomatch before
      obtain ⟨rfl, item, member, bad⟩ := unchanged
      rcases ended with ⟨short, ended⟩ | ⟨left, right, rfl, shorter, fewer, ended⟩
      · -- the only token of the chunk fails
        rw [ended]
        have only : chunk = [item] := by
          obtain ⟨one, rfl⟩ := List.length_eq_one_iff.mp (Nat.le_antisymm short (List.length_pos_of_mem member))
          rw [mem_singleton.mp member]
        have none : chunk.filter (Processable failures <| outpoint ·) = [] := by
          rw [only]
          simp [Processable, bad]
        exact ⟨by rw [none]; rfl, rfl, by rw [none]; exact (append_nil _).symm⟩
      · rw [ended]
        rw [map_append] at early distinct
        obtain ⟨distinctLeft, distinctRight, apart⟩ := List.nodup_append'.mp distinct
        have first := ih _ shorter (fun outpoint member => early outpoint (mem_append_left _ member)) distinctLeft
          (fun item member => spendable item (mem_append_left _ member)) rfl
        have second := ih _ fewer (fun outpoint member => early outpoint (mem_append_right _ member)) distinctRight
          (fun item member => first.spendable (spendable item (mem_append_right _ member)) fun there => apart there (mem_map_of_mem member)) rfl
        exact first.append second

theorem runBestEffortBatches_cons (runChunk : List T → Fallible ε σ (List R)) (chunkSize : Nat) (item : T) (rest : List T) (state : σ) :
    ∃ chunk others, chunk ++ others = item :: rest ∧ others.length < (item :: rest).length ∧
      runBestEffortBatches runChunk chunkSize (item :: rest) state =
        ((runBestEffortChunk runChunk chunk state).1 ++ (runBestEffortBatches runChunk chunkSize others (runBestEffortChunk runChunk chunk state).2).1,
          (runBestEffortBatches runChunk chunkSize others (runBestEffortChunk runChunk chunk state).2).2) := by
  refine ⟨item :: rest.take (chunkSize - 1), rest.drop (chunkSize - 1), ?_, ?_, ?_⟩
  · rw [List.cons_append, List.take_append_drop]
  · rw [List.length_drop, List.length_cons]
    omega
  · rw [runBestEffortBatches]

theorem batches_spend (chunkSize : Nat) (early : FailsEarly failures (items.map outpoint)) (distinct : (items.map outpoint).Nodup) (spendable : ∀ item ∈ items, state.Spendable (outpoint item)) :
    Spends failures outpoint result items state (runBestEffortBatches (spendChunk failures outpoint result) chunkSize items state) := by
  induction size : items.length using Nat.strongRecOn generalizing items state with
  | ind length ih =>
    subst size
    cases items with
    | nil =>
      rw [runBestEffortBatches]
      exact spends_nil state
    | cons item rest =>
      obtain ⟨chunk, others, parts, fewer, ran⟩ := runBestEffortBatches_cons (spendChunk failures outpoint result) chunkSize item rest state
      rw [ran]
      rw [← parts] at early distinct spendable ⊢
      rw [map_append] at early distinct
      obtain ⟨distinctChunk, distinctOthers, apart⟩ := List.nodup_append'.mp distinct
      have first := @chunk_spends _ _ failures outpoint result chunk (fun outpoint member => early outpoint (mem_append_left _ member)) distinctChunk
        state (fun item member => spendable item (mem_append_left _ member))
      have second := ih _ fewer (fun outpoint member => early outpoint (mem_append_right _ member)) distinctOthers
        (fun item member => first.spendable (spendable item (mem_append_right _ member)) fun there => apart there (mem_map_of_mem member)) rfl
      exact first.append second

/-- A token whose input cannot be unlocked by `signAction` is never spent, and once locked stays so. -/
structure Stuck (stuck : String) (before after : TokenOutputs) : Prop where
  unspent : stuck ∉ before.transactions.flatten → stuck ∉ after.transactions.flatten
  locked : stuck ∈ before.locked → stuck ∈ after.locked

theorem Stuck.trans (first : Stuck stuck before middle) (second : Stuck stuck middle after) :
    Stuck stuck before after :=
  ⟨fun unspent => second.unspent (first.unspent unspent), fun locked => second.locked (first.locked locked)⟩

variable {stuck : String} (late : failures.afterCreate stuck = true)

include late in
theorem spendChunk_stuck (chunk : List T) (state : TokenOutputs) : Stuck stuck state (spendChunk failures outpoint result chunk state).2 := by
  rcases spendChunk_run failures outpoint result chunk state with ⟨fine, ran⟩ | ⟨_, error, ran⟩ | ⟨_, _, error, ran⟩
  · rw [ran]
    refine ⟨fun unspent => ?_, fun locked => locked⟩
    rw [List.flatten_append, List.flatten_singleton, mem_append]
    rintro (was | now)
    · exact unspent was
    · obtain ⟨item, member, rfl⟩ := mem_map.mp now
      rw [(fine item member).2.1] at late
      nomatch late
  · rw [ran]
    exact ⟨fun unspent => unspent, fun locked => locked⟩
  · rw [ran]
    exact ⟨fun unspent => unspent, fun locked => mem_append_left _ locked⟩

include late in
theorem chunk_stuck (chunk : List T) (state : TokenOutputs) :
    Stuck stuck state (runBestEffortChunk (spendChunk failures outpoint result) chunk state).2 := by
  induction size : chunk.length using Nat.strongRecOn generalizing chunk state with
  | ind length ih =>
    subst size
    have here := @spendChunk_stuck _ _ failures outpoint result stuck late chunk state
    rcases runBestEffortChunk_cases (spendChunk failures outpoint result) chunk state with ⟨results, after, ran, ended⟩ | ⟨error, after, ran, ended⟩
    · rw [ended]
      rw [ran] at here
      exact here
    · rw [ran] at here
      rcases ended with ⟨-, ended⟩ | ⟨left, right, -, shorter, fewer, ended⟩
      · rw [ended]
        exact here
      · rw [ended]
        exact (here.trans (ih _ shorter left after rfl)).trans (ih _ fewer right _ rfl)

include late in
theorem batches_stuck (chunkSize : Nat) (items : List T) (state : TokenOutputs) :
    Stuck stuck state (runBestEffortBatches (spendChunk failures outpoint result) chunkSize items state).2 := by
  induction size : items.length using Nat.strongRecOn generalizing items state with
  | ind length ih =>
    subst size
    cases items with
    | nil =>
      rw [runBestEffortBatches]
      exact ⟨fun unspent => unspent, fun locked => locked⟩
    | cons item rest =>
      obtain ⟨chunk, others, -, fewer, ran⟩ := runBestEffortBatches_cons (spendChunk failures outpoint result) chunkSize item rest state
      rw [ran]
      exact (chunk_stuck late chunk state).trans (ih _ fewer others _ rfl)

theorem chunk_locks (member : item ∈ chunk) (late : failures.afterCreate (outpoint item) = true)
    (fine : failures.beforeCreate (outpoint item) = false) (unspent : outpoint item ∉ state.transactions.flatten) :
    outpoint item ∈ (runBestEffortChunk (spendChunk failures outpoint result) chunk state).2.locked := by
  induction size : chunk.length using Nat.strongRecOn generalizing chunk state with
  | ind length ih =>
    subst size
    rcases runBestEffortChunk_cases (spendChunk failures outpoint result) chunk state with ⟨results, after, ran, -⟩ | ⟨error, after, ran, ended⟩
    · -- a chunk with the token does not succeed
      rcases spendChunk_run failures outpoint result chunk state with ⟨good, -⟩ | ⟨_, error, same⟩ | ⟨_, _, error, same⟩
      · rw [(good item member).2.1] at late
        nomatch late
      · rw [same] at ran
        cases (Prod.mk.inj ran).1
      · rw [same] at ran
        cases (Prod.mk.inj ran).1
    · have still := @spendChunk_stuck _ _ failures outpoint result _ late chunk state
      rw [ran] at still
      rcases ended with ⟨short, ended⟩ | ⟨left, right, rfl, shorter, fewer, ended⟩
      · rw [ended]
        have only : chunk = [item] := by
          obtain ⟨one, rfl⟩ := List.length_eq_one_iff.mp (Nat.le_antisymm short (List.length_pos_of_mem member))
          rw [mem_singleton.mp member]
        rcases spendChunk_run failures outpoint result chunk state with ⟨good, -⟩ | ⟨⟨other, inside, bad⟩, error, same⟩ | ⟨_, _, error, same⟩
        · rw [(good item member).2.1] at late
          nomatch late
        · rw [only] at inside
          obtain rfl := mem_singleton.mp inside
          rw [fine] at bad
          have lockedHere : outpoint other ∈ state.locked := by
            by_contra free
            exact bad.resolve_left Bool.false_ne_true ⟨free, unspent⟩
          exact still.locked lockedHere
        · rw [same] at ran
          rw [← (Prod.mk.inj ran).2]
          exact mem_append_right _ (mem_map_of_mem member)
      · rw [ended]
        rcases mem_append.mp member with inLeft | inRight
        · exact (chunk_stuck late right _).locked (ih _ shorter inLeft (still.unspent unspent) rfl)
        · exact ih _ fewer inRight ((chunk_stuck late left _).unspent (still.unspent unspent)) rfl

theorem batches_lock (chunkSize : Nat) (member : item ∈ items) (late : failures.afterCreate (outpoint item) = true)
    (fine : failures.beforeCreate (outpoint item) = false) (unspent : outpoint item ∉ state.transactions.flatten) :
    outpoint item ∈ (runBestEffortBatches (spendChunk failures outpoint result) chunkSize items state).2.locked := by
  induction size : items.length using Nat.strongRecOn generalizing items state with
  | ind length ih =>
    subst size
    cases items with
    | nil => nomatch member
    | cons first rest =>
      obtain ⟨chunk, others, parts, fewer, ran⟩ := runBestEffortBatches_cons (spendChunk failures outpoint result) chunkSize first rest state
      rw [ran]
      rw [← parts] at member
      rcases mem_append.mp member with inChunk | inOthers
      · exact (batches_stuck late chunkSize others _).locked (chunk_locks inChunk late fine unspent)
      · exact ih _ fewer inOthers ((chunk_stuck late chunk state).unspent unspent) rfl

structure Exact (failures : TokenFailures) (outpoint : T → String) (result : T → R) (items : List T) (ended : List R × TokenOutputs) : Prop where
  returned : ended.1 = (items.filter (Processable failures <| outpoint ·)).map result
  spent : ∀ item ∈ items, Processable failures (outpoint item) = true → ended.2.transactions.flatten.count (outpoint item) = 1
  kept : ∀ item ∈ items, Processable failures (outpoint item) = false → ended.2.Spendable (outpoint item)

theorem Spends.exact (distinct : (items.map outpoint).Nodup) (spendable : ∀ item ∈ items, state.Spendable (outpoint item)) (spends : Spends failures outpoint result items state ended) : Exact failures outpoint result items ended := by
  have nodup : ((items.filter (Processable failures <| outpoint ·)).map outpoint).Nodup := distinct.sublist (List.filter_sublist.map outpoint)
  have mine (item : T) (member : item ∈ items) :
      outpoint item ∈ (items.filter (Processable failures <| outpoint ·)).map outpoint ↔ Processable failures (outpoint item) = true := by
    constructor
    · intro there
      obtain ⟨other, inside, same⟩ := mem_map.mp there
      rw [← same]
      exact (List.mem_filter.mp inside).2
    · exact fun fine => mem_map_of_mem (List.mem_filter.mpr ⟨member, fine⟩)
  refine ⟨spends.returned, fun item member fine => ?_, fun item member bad => ?_⟩
  · rw [spends.spent, List.count_append, List.count_eq_zero.mpr (spendable item member).2,
      List.count_eq_one_of_mem nodup ((mine item member).mpr fine)]
  · refine ⟨spends.locked ▸ (spendable item member).1, ?_⟩
    rw [spends.spent, mem_append]
    rintro (was | now)
    · exact (spendable item member).2 was
    · rw [(mine item member).mp now] at bad
      nomatch bad

theorem batches_exact_iff (chunkSize : Nat) (distinct : (items.map outpoint).Nodup)
    (spendable : ∀ item ∈ items, state.Spendable (outpoint item)) :
    Exact failures outpoint result items (runBestEffortBatches (spendChunk failures outpoint result) chunkSize items state) ↔
      FailsEarly failures (items.map outpoint) := by
  constructor
  · intro whole _ member late
    obtain ⟨item, inside, rfl⟩ := mem_map.mp member
    by_contra fine
    have fine := Bool.eq_false_iff.mpr fine
    have bad : Processable failures (outpoint item) = false := by simp [Processable, late]
    exact (whole.kept item inside bad).1 (batches_lock chunkSize inside late fine (spendable item inside).2)
  · exact fun early => (batches_spend chunkSize early distinct spendable).exact distinct spendable

end

structure Held (tokens : List PermissionToken) (outputs : TokenOutputs) : Prop where
  distinct : (tokens.map tokenOutpoint).Nodup
  spendable : ∀ token ∈ tokens, outputs.Spendable (tokenOutpoint token)

/-- Both batches are exact when every token that fails does so before an action with its input has been created. -/
theorem batches_exact (failures : TokenFailures) (platform : Platform) (outputs : TokenOutputs) :
    (∀ oldTokens, Held oldTokens outputs →
      (Exact failures tokenOutpoint id oldTokens (revokePermissions failures oldTokens outputs) ↔
        FailsEarly failures (oldTokens.map tokenOutpoint))) ∧
    (∀ items : List RenewalItem, Held (items.map RenewalItem.oldToken) outputs →
      (Exact failures (tokenOutpoint ·.oldToken) (renewalRequest platform) items (renewPermissionTokensBestEffort failures platform items outputs) ↔
        FailsEarly failures ((items.map RenewalItem.oldToken).map tokenOutpoint))) := by
  constructor
  · intro oldTokens held
    exact batches_exact_iff spendChunkSize held.distinct held.spendable
  · intro items held
    have distinct := held.distinct
    rw [List.map_map] at distinct ⊢
    exact batches_exact_iff spendChunkSize distinct fun item member => held.spendable _ (List.mem_map_of_mem member)

def sampleToken (txid : String) : PermissionToken where
  txid := txid
  outputIndex := 0
  originator := "example.com"
  rawOriginator := none
  expiry := 0
  privileged := false
  protocol := none
  securityLevel := none
  counterparty := none
  basketName := some "photos"
  verifier := none
  certType := none
  certFields := []
  authorizedAmount := none

/-- The first token cannot be signed for; the second is as good as any. -/
def firstUnsigned : TokenFailures where
  beforeCreate _ := false
  afterCreate outpoint := outpoint = "a.0"

def sampleRenewal (txid : String) : RenewalItem where
  oldToken := sampleToken txid
  item := { request := { originator := "example.com", usageType := "", permission := .basket "photos", reason := none }, expiry := 0 }

theorem batches_exact_sample :
    (Exact firstUnsigned tokenOutpoint id [sampleToken "b"] (revokePermissions firstUnsigned [sampleToken "b"] {}) ↔
      FailsEarly firstUnsigned ["b.0"]) ∧
    (Exact firstUnsigned (tokenOutpoint ·.oldToken) (renewalRequest ⟨fun _ => none, id, id⟩) [sampleRenewal "b"]
        (renewPermissionTokensBestEffort firstUnsigned ⟨fun _ => none, id, id⟩ [sampleRenewal "b"] {}) ↔ FailsEarly firstUnsigned ["b.0"]) :=
  ⟨(batches_exact firstUnsigned ⟨fun _ => none, id, id⟩ {}).1 [sampleToken "b"] ⟨by decide, by decide⟩,
    (batches_exact firstUnsigned ⟨fun _ => none, id, id⟩ {}).2 [sampleRenewal "b"] ⟨by decide, by decide⟩⟩

theorem batches_lose_tokens :
    Held [sampleToken "a", sampleToken "b"] {} ∧
      ¬Exact firstUnsigned tokenOutpoint id [sampleToken "a", sampleToken "b"] (revokePermissions firstUnsigned [sampleToken "a", sampleToken "b"] {}) := by
  have held : Held [sampleToken "a", sampleToken "b"] {} := ⟨by decide, by decide⟩
  refine ⟨held, fun whole => ?_⟩
  have early := (batches_exact_iff spendChunkSize held.distinct held.spendable).mp whole "a.0" (by decide) (by decide)
  exact absurd early (by decide)

end WalletToolbox.TokenBatches
