import WalletToolbox.Proofs.UtxoIndexes

/-! Freshness of the cached answers. An invalidation drops the entries of its outpoint, and
what was being loaded is no longer cached. It does leave the load in flight, which a later
call may join, and a load that settles takes the one that replaced it out of flight. -/

namespace WalletToolbox
open Effects

namespace UtxoCacheRun
open UtxoCacheManager
variable {run next : UtxoCacheRun}

/-- What a call returns is from after the last invalidation of its outpoint, one load of a key
is in flight, and an invalidation leaves nothing of its outpoints. -/
structure NoneStale (run : UtxoCacheRun) : Prop where
  fresh : ∀ call ∈ run.calls, ∀ since result, run.returned call = some (since, result) → call.invalidated < since
  once : ∀ (i j : Nat) (first second : UtxoLoad), run.loads[i]? = some first → run.loads[j]? = some second → first.settled = false → second.settled = false →
    makeKey first.query = makeKey second.query → run.invalidated first.query.outpoint < first.begun →
    run.invalidated second.query.outpoint < second.begun → i = j
  listed : run.manager.Exact
  removed : ∀ outpoints key, outpointOf key ∈ outpoints →
    (run.manager.invalidateOutpoints outpoints).cache key = none ∧ (run.manager.invalidateByBlock (some outpoints)).cache key = none

/-- No call joins a load that began before the last invalidation of its outpoint, and no load
settles while another is in flight under its key. Outpoints have no colon. -/
def Undisturbed (run : UtxoCacheRun) : UtxoCacheEvent → Prop
  | .getOrLoad query stale => Plain query.outpoint ∧ ((run.manager.get stale (makeKey query)).1 = none →
      ∀ number load, run.manager.inFlight (makeKey query) = some number → run.loads[number]? = some load →
        run.invalidated query.outpoint < load.begun)
  | .settled number => ∀ load, run.loads[number]? = some load →
      ∀ other, run.manager.inFlight (makeKey load.query) = some other → other = number
  | .set query _ _ => Plain query.outpoint
  | .setUtxoStatus outpoint _ _ _ => Plain outpoint
  | .loaded _ _ _ | .rejected _ | .getUtxoStatus _ _ | .invalidateOutpoints _ | .invalidateByBlock _ | .clear | .evict _ => True

structure LoadKept (run : UtxoCacheRun) (bound number : Nat) (load : UtxoLoad) : Prop where
  plain : Plain load.query.outpoint
  begun : load.begun < bound
  generation : load.generation ≤ run.manager.generation
  current : load.generation = run.manager.generation → run.invalidated load.query.outpoint < load.begun
  registered : load.settled = false → run.invalidated load.query.outpoint < load.begun →
    run.manager.inFlight (makeKey load.query) = some number

def CallFresh (run : UtxoCacheRun) (call : UtxoCall) : Prop :=
  match call.source with
  | .held entry => call.invalidated < entry.since
  | .load number => ∃ load, run.loads[number]? = some load ∧ call.invalidated < load.begun

structure Kept (run : UtxoCacheRun) (bound : Nat) : Prop where
  exact' : run.manager.Exact
  past : ∀ outpoint, run.invalidated outpoint < bound
  fresh : ∀ key entry, run.manager.cache key = some entry → run.invalidated (outpointOf key) < entry.since
  flying : ∀ key number, run.manager.inFlight key = some number → number < run.loads.length
  loads : ∀ number load, run.loads[number]? = some load → run.LoadKept bound number load
  calls : ∀ call ∈ run.calls, run.CallFresh call

theorem Kept.noneStale (kept : run.Kept bound) : run.NoneStale := by
  refine ⟨?_, ?_, kept.exact', ?_⟩
  · intro call member since result returns
    have fresh := kept.calls call member
    unfold CallFresh at fresh
    unfold returned at returns
    cases source : call.source with
    | held entry =>
      rw [source] at fresh returns
      cases returns
      exact fresh
    | load number =>
      rw [source] at fresh returns
      obtain ⟨load, is, after⟩ := fresh
      obtain ⟨other, here, returns⟩ := Option.bind_eq_some_iff.mp returns
      cases is.symm.trans here
      split at returns
      · obtain ⟨outcome, -, same⟩ := Option.map_eq_some_iff.mp returns
        cases same
        exact after
      · cases returns
  · intro i j first second isFirst isSecond flies also keys after later
    have one := (kept.loads i first isFirst).registered flies after
    have two := (kept.loads j second isSecond).registered also later
    rw [keys] at one
    exact Option.some.inj (one.symm.trans two)
  · intro outpoints key member
    constructor
    · rw [Option.eq_none_iff_forall_ne_some]
      intro entry held
      exact ((invalidateOutpoints_invalidates outpoints run.manager).kept kept.exact' key entry held).2 member
    · rw [Option.eq_none_iff_forall_ne_some]
      intro entry held
      exact ((invalidateByBlock_clears (some outpoints)).kept kept.exact' key entry held).2 (decide_eq_true member)

theorem Kept.later (kept : run.Kept bound) (le : bound ≤ other) : run.Kept other := by
  refine ⟨kept.exact', fun outpoint => Nat.lt_of_lt_of_le (kept.past outpoint) le, kept.fresh, kept.flying, fun number load is => ?_, kept.calls⟩
  have of := kept.loads number load is
  exact ⟨of.plain, Nat.lt_of_lt_of_le of.begun le, of.generation, of.current, of.registered⟩

theorem Kept.tick {bound clock} (kept : run.Kept bound) : Kept { run with clock } bound :=
  ⟨kept.exact', kept.past, kept.fresh, kept.flying, fun number load is =>
    have of := kept.loads number load is
    ⟨of.plain, of.begun, of.generation, of.current, of.registered⟩, kept.calls⟩

theorem Kept.manager {bound manager} (kept : run.Kept bound) (loads : SameLoads run.manager manager)
    (exact' : manager.Exact)
    (fresh : ∀ key entry, manager.cache key = some entry → run.manager.cache key = some entry ∨ run.invalidated (outpointOf key) < entry.since) :
    Kept { run with manager } bound := by
  refine ⟨exact', kept.past, ?_, ?_, ?_, kept.calls⟩
  · intro key entry held
    rcases fresh key entry held with old | new
    · exact kept.fresh key entry old
    · exact new
  · intro key number flies
    rw [loads.inFlight] at flies
    exact kept.flying key number flies
  · intro number load is
    have of := kept.loads number load is
    refine ⟨of.plain, of.begun, ?_, ?_, ?_⟩
    · rw [loads.generation]
      exact of.generation
    · rw [loads.generation]
      exact of.current
    · rw [loads.inFlight]
      exact of.registered

theorem Kept.drops {bound manager} (kept : run.Kept bound) (drops : Drops run.manager manager) :
    Kept { run with manager } bound :=
  kept.manager drops.loads (drops.exact' kept.exact') fun key entry held => .inl (drops.kept key entry held)

theorem Kept.sets {bound since manager query} (kept : run.Kept bound)
    (sets : Sets query since run.manager manager) (plain : Plain query.outpoint) (after : run.invalidated query.outpoint < since) :
    Kept { run with manager } bound := by
  apply kept.manager sets.loads (sets.exact' kept.exact')
  intro key entry held
  rcases sets.kept key entry held with old | ⟨rfl, rfl⟩
  · exact .inl old
  · rw [outpointOf_makeKey plain]
    exact .inr after

theorem Kept.call {bound call} (kept : run.Kept bound) (fresh : run.CallFresh call) :
    Kept { run with calls := run.calls ++ [call] } bound := by
  refine ⟨kept.exact', kept.past, kept.fresh, kept.flying, fun number load is => ?_, ?_⟩
  · have of := kept.loads number load is
    exact ⟨of.plain, of.begun, of.generation, of.current, of.registered⟩
  · intro other member
    rcases List.mem_append.mp member with old | new
    · exact kept.calls other old
    · rw [List.mem_singleton.mp new]
      exact fresh

theorem Kept.goesOn {bound number load after} (kept : run.Kept bound) (is : run.loads[number]? = some load)
    (query : after.query = load.query) (begun : after.begun = load.begun) (generation : after.generation = load.generation)
    (registered : after.settled = false → load.settled = false) : Kept { run with loads := run.loads.set number after } bound := by
  obtain ⟨inside, -⟩ := List.getElem?_eq_some_iff.mp is
  refine ⟨kept.exact', kept.past, kept.fresh, ?_, ?_, ?_⟩
  · intro key other flies
    rw [List.length_set]
    exact kept.flying key other flies
  · intro other value there
    rw [List.getElem?_set] at there
    by_cases same : number = other
    · subst same
      rw [if_pos rfl, if_pos inside] at there
      cases there
      have of := kept.loads number load is
      refine ⟨query ▸ of.plain, begun ▸ of.begun, generation ▸ of.generation, ?_, ?_⟩
      · rw [query, begun, generation]
        exact of.current
      · rw [query, begun]
        intro flies
        exact of.registered (registered flies)
    · rw [if_neg same] at there
      have of := kept.loads other value there
      exact ⟨of.plain, of.begun, of.generation, of.current, of.registered⟩
  · intro call member
    have fresh := kept.calls call member
    unfold CallFresh at fresh ⊢
    split at fresh
    next => exact fresh
    next other _ =>
      obtain ⟨value, there, later⟩ := fresh
      by_cases same : number = other
      · subst same
        cases is.symm.trans there
        refine ⟨after, ?_, begun ▸ later⟩
        rw [List.getElem?_set, if_pos rfl, if_pos inside]
      · refine ⟨value, ?_, later⟩
        rw [List.getElem?_set, if_neg same]
        exact there

theorem Kept.getOrLoad {query stale} (kept : run.Kept run.clock) (plain : Plain query.outpoint)
    (joins : (run.manager.get stale (makeKey query)).1 = none → ∀ number load, run.manager.inFlight (makeKey query) = some number →
      run.loads[number]? = some load → run.invalidated query.outpoint < load.begun) : (run.getOrLoad query stale).Kept (run.clock + 1) := by
  have drops := @get_drops run.manager (makeKey query) stale
  unfold UtxoCacheRun.getOrLoad
  cases got : run.manager.get stale (makeKey query) with
  | mk cached manager =>
    rw [got] at drops joins
    simp only [got]
    have dropped := kept.drops drops
    cases cached with
    | some entry =>
      have held : run.manager.cache (makeKey query) = some entry := get_some (by rw [got])
      have fresh := kept.fresh (makeKey query) entry held
      rw [outpointOf_makeKey plain] at fresh
      exact (@Kept.call _ _ ⟨query.outpoint, run.invalidated query.outpoint, .held entry⟩ dropped fresh).later (Nat.le_succ _)
    | none =>
      cases flies : manager.inFlight (makeKey query) with
      | some number =>
        simp only [flies]
        have was : run.manager.inFlight (makeKey query) = some number := by rw [← drops.loads.inFlight, flies]
        have inside := kept.flying _ number was
        have is : run.loads[number]? = some run.loads[number] := List.getElem?_eq_getElem inside
        have fresh := joins rfl number _ was is
        exact (@Kept.call _ _ ⟨query.outpoint, run.invalidated query.outpoint, .load number⟩ dropped ⟨_, is, fresh⟩).later (Nat.le_succ _)
      | none =>
        simp only [flies]
        have last : (run.loads ++ [({ query, generation := manager.generation, begun := run.clock } : UtxoLoad)])[run.loads.length]? =
            some { query, generation := manager.generation, begun := run.clock } := List.getElem?_concat_length
        refine ⟨dropped.exact', fun outpoint => Nat.lt_succ_of_lt (kept.past outpoint), dropped.fresh, ?_, ?_, ?_⟩
        · intro key number registered
          replace registered : Function.update manager.inFlight (makeKey query) (some run.loads.length) key = some number := registered
          rw [List.length_append, List.length_singleton]
          by_cases same : key = makeKey query
          · subst same
            rw [Function.update_self] at registered
            cases registered
            exact Nat.lt_succ_self _
          · rw [Function.update_of_ne same] at registered
            exact Nat.lt_succ_of_lt (dropped.flying key number registered)
        · intro number load is
          by_cases here : number = run.loads.length
          · subst here
            cases last.symm.trans is
            exact ⟨plain, Nat.lt_succ_self _, Nat.le_refl _, fun _ => kept.past _, fun _ _ => Function.update_self ..⟩
          · have old : run.loads[number]? = some load := by
              rw [List.getElem?_append] at is
              split at is
              · exact is
              · rw [List.getElem?_singleton] at is
                split at is
                · omega
                · cases is
            have of := dropped.loads number load old
            refine ⟨of.plain, Nat.lt_succ_of_lt of.begun, of.generation, of.current, fun unsettled after => ?_⟩
            have registered := of.registered unsettled after
            have apart : makeKey load.query ≠ makeKey query := by
              intro same
              rw [same] at registered
              cases flies.symm.trans registered
            show Function.update manager.inFlight (makeKey query) (some run.loads.length) (makeKey load.query) = some number
            rw [Function.update_of_ne apart]
            exact registered
        · intro call member
          rcases List.mem_append.mp member with old | new
          · have fresh := kept.calls call old
            unfold CallFresh at fresh ⊢
            split at fresh
            next => exact fresh
            next number _ =>
              obtain ⟨load, is, after⟩ := fresh
              exact ⟨load, List.getElem?_append_left (List.getElem?_eq_some_iff.mp is).1 ▸ is, after⟩
          · rw [List.mem_singleton.mp new]
            exact ⟨_, last, kept.past _⟩

theorem Kept.settle (kept : run.Kept bound) (is : run.loads[number]? = some load)
    (alone : ∀ other, run.manager.inFlight (makeKey load.query) = some other → other = number) : (run.settle number load).Kept bound := by
  have on := @Kept.goesOn _ _ _ _ { load with settled := true } kept is rfl rfl rfl fun open' => nomatch open'
  refine ⟨on.exact', on.past, on.fresh, ?_, ?_, on.calls⟩
  · intro key other flies
    apply on.flying key other
    by_cases same : key = makeKey load.query
    · subst same
      have none : Function.update run.manager.inFlight (makeKey load.query) none (makeKey load.query) = none := Function.update_self ..
      cases none.symm.trans flies
    · exact (Function.update_of_ne same _ _).symm.trans flies
  · intro other value there
    have of := on.loads other value there
    refine ⟨of.plain, of.begun, of.generation, of.current, fun unsettled after => ?_⟩
    have registered := of.registered unsettled after
    have apart : makeKey value.query ≠ makeKey load.query := by
      intro same
      rw [same] at registered
      have here := alone other registered
      subst here
      obtain ⟨inside, -⟩ := List.getElem?_eq_some_iff.mp is
      have ended : (run.loads.set other { load with settled := true })[other]? = some value := there
      rw [List.getElem?_set, if_pos rfl, if_pos inside] at ended
      cases ended
      cases unsettled
    exact (Function.update_of_ne apart _ _).trans registered

theorem Kept.clears {manager meant} (kept : run.Kept run.clock) (exact' : manager.Exact)
    (generation : run.manager.generation ≤ manager.generation)
    (current : ∀ outpoint, meant outpoint = true → run.manager.generation < manager.generation)
    (held : ∀ key entry, manager.cache key = some entry → run.manager.cache key = some entry ∧ ¬meant (outpointOf key) = true)
    (flies : ∀ key number, manager.inFlight key = some number → run.manager.inFlight key = some number)
    (same : ∀ key, (∃ outpoint, ¬meant outpoint = true) → manager.inFlight key = run.manager.inFlight key) :
    (run.invalidate manager meant).Kept (run.clock + 1) := by
  refine ⟨exact', ?_, ?_, fun key number there => kept.flying key number (flies key number there), ?_, kept.calls⟩
  · intro outpoint
    show (if meant outpoint then run.clock else run.invalidated outpoint) < run.clock + 1
    split
    · exact Nat.lt_succ_self _
    · exact Nat.lt_succ_of_lt (kept.past outpoint)
  · intro key entry there
    obtain ⟨before, apart⟩ := held key entry there
    show (if meant (outpointOf key) then run.clock else run.invalidated (outpointOf key)) < entry.since
    rw [if_neg apart]
    exact kept.fresh key entry before
  · intro number load is
    have of := kept.loads number load is
    refine ⟨of.plain, Nat.lt_succ_of_lt of.begun, Nat.le_trans of.generation generation, ?_, ?_⟩
    · intro now
      show (if meant load.query.outpoint then run.clock else run.invalidated load.query.outpoint) < load.begun
      split
      next named =>
        have older := of.generation
        have newer := current _ named
        have equal : load.generation = manager.generation := now
        omega
      next =>
        have older := of.generation
        have equal : load.generation = manager.generation := now
        exact of.current (by omega)
    · intro unsettled after
      replace after : (if meant load.query.outpoint then run.clock else run.invalidated load.query.outpoint) < load.begun := after
      split at after
      next =>
        have before := of.begun
        omega
      next apart => exact (same _ ⟨_, apart⟩).trans (of.registered unsettled after)

theorem Kept.act {event} (kept : run.Kept run.clock) (undisturbed : run.Undisturbed event)
    (acted : run.act event = some next) : next.Kept (run.clock + 1) := by
  have later : ∀ {other : UtxoCacheRun}, other.Kept run.clock → other.Kept (run.clock + 1) := fun of => of.later (Nat.le_succ _)
  cases event with
  | getOrLoad query stale =>
    cases acted
    exact kept.getOrLoad undisturbed.1 undisturbed.2
  | loaded number result victim =>
    simp only [UtxoCacheRun.act] at acted
    split at acted
    next load is =>
      split at acted
      next =>
        cases acted
        have on := @Kept.goesOn _ _ _ _ { load with outcome := some (some result) } kept is rfl rfl rfl id
        have of := kept.loads number load is
        unfold UtxoCacheRun.loaded
        split
        next stores => exact later (on.sets (set_sets of.plain) of.plain (of.current stores.2))
        next => exact later on
      next => cases acted
    next => cases acted
  | rejected number =>
    simp only [UtxoCacheRun.act] at acted
    split at acted
    next load is =>
      split at acted
      next =>
        cases acted
        exact later (@Kept.goesOn _ _ _ _ { load with outcome := some none } kept is rfl rfl rfl id)
      next => cases acted
    next => cases acted
  | settled number =>
    simp only [UtxoCacheRun.act] at acted
    split at acted
    next load is =>
      split at acted
      next =>
        cases acted
        exact later (kept.settle is (undisturbed load is))
      next => cases acted
    next => cases acted
  | set query result victim =>
    cases acted
    exact later (kept.sets (set_sets undisturbed) undisturbed (kept.past _))
  | getUtxoStatus outpoint stale =>
    cases acted
    obtain ⟨drops, finds⟩ := @getUtxoStatus_drops run.manager outpoint stale kept.exact'
    unfold UtxoCacheRun.getUtxoStatus
    cases got : run.manager.getUtxoStatus stale outpoint with
    | mk found manager =>
      rw [got] at drops finds
      cases found with
      | none => exact later (kept.drops drops)
      | some entry =>
        obtain ⟨key, of, held⟩ := finds entry rfl
        have fresh := kept.fresh key entry held
        rw [of] at fresh
        exact later (@Kept.call _ _ ⟨outpoint, run.invalidated outpoint, .held entry⟩ (kept.drops drops) fresh)
  | setUtxoStatus outpoint isUtxo blockHeight victim =>
    cases acted
    exact later (kept.sets (@set_sets _ _ { output := outpoint, outpoint } _ _ undisturbed) undisturbed (kept.past outpoint))
  | invalidateOutpoints outpoints =>
    cases acted
    have done := invalidateOutpoints_invalidates outpoints run.manager
    have generation := done.generation
    apply kept.clears (done.exact' kept.exact')
    · omega
    · intro outpoint member
      have some := List.length_pos_of_mem (of_decide_eq_true member)
      omega
    · intro key entry held
      obtain ⟨before, apart⟩ := done.kept kept.exact' key entry held
      exact ⟨before, fun member => apart (of_decide_eq_true member)⟩
    · intro key number flies
      rw [done.inFlight] at flies
      exact flies
    · intro key _
      rw [done.inFlight]
  | invalidateByBlock outpoints =>
    cases acted
    have done := @invalidateByBlock_clears run.manager outpoints
    apply kept.clears (done.exact' kept.exact') (Nat.le_of_lt done.generation) (fun _ _ => done.generation)
      (done.kept kept.exact') done.inFlight
    intro key ⟨outpoint, apart⟩
    cases outpoints with
    | none => exact absurd rfl apart
    | some outpoints =>
      rw [UtxoCacheManager.invalidateByBlock, (foldl_dropOutpoint outpoints run.manager.nextGeneration).1.loads.inFlight]
      rfl
  | clear =>
    cases acted
    have done := @clear_clears run.manager fun _ => True
    apply kept.clears (done.exact' kept.exact') (Nat.le_of_lt done.generation) (fun _ _ => done.generation)
    · intro key entry held
      cases held
    · exact done.inFlight
    · intro key ⟨outpoint, apart⟩
      exact absurd rfl apart
  | evict key =>
    cases acted
    exact later (kept.drops delete_drops)

theorem Kept.step {event} (kept : run.Kept run.clock) (undisturbed : run.Undisturbed event)
    (stepped : run.step event = some next) : next.Kept next.clock := by
  obtain ⟨after, acted, rfl⟩ := Option.map_eq_some_iff.mp stepped
  exact (kept.act undisturbed acted).tick

theorem Kept.new (parseOutpoint : String → Option (String × Nat)) : Kept { parseOutpoint } 1 := by
  refine ⟨fun outpoint key => ?_, fun _ => Nat.zero_lt_one, fun _ _ held => ?_, fun _ _ flies => ?_, fun _ _ is => ?_, fun _ member => ?_⟩
  · constructor
    · rintro ⟨_, none, -⟩
      cases none
    · rintro ⟨none, -⟩
      cases none
  · cases held
  · cases flies
  · cases is
  · cases member

/-- In a run in which no call joins a load from before an invalidation, and no load settles
while another is in flight under its key, no answer is stale. -/
theorem cache_never_stale {parseOutpoint : String → Option (String × Nat)} {events : List UtxoCacheEvent} {last : UtxoCacheRun}
    (calm : EveryStep UtxoCacheRun.step Undisturbed { parseOutpoint } events)
    (ran : runEvents UtxoCacheRun.step { parseOutpoint } events = some last) : last.NoneStale := by
  have kept :=
    @runEvents_keeps _ _ _ _ _ _ _ (fun run => run.Kept run.clock) (fun _ _ _ kept condition stepped => kept.step condition stepped) (.new parseOutpoint) calm ran
  exact kept.noneStale

def sampleQuery : UtxoCacheQuery := { output := "5c", outpoint := "ab.0" }

def sampleAnswer : GetUtxoStatusResult := { name := "provider", success := true, isUtxo := some true }

theorem plain_sample : Plain sampleQuery.outpoint := by
  unfold Plain
  decide +kernel

/-- An answer is set while another is loaded, and is gone with its outpoint. -/
theorem cache_never_stale_once :
    ((runEvents UtxoCacheRun.step { parseOutpoint := fun _ => none }
      [.getOrLoad sampleQuery fun _ => false, .set sampleQuery sampleAnswer none, .invalidateOutpoints ["ab.0"],
        .getUtxoStatus "ab.0" fun _ => false]).get (by decide +kernel)).NoneStale := by
  apply @cache_never_stale (fun _ => none)
    [.getOrLoad sampleQuery fun _ => false, .set sampleQuery sampleAnswer none, .invalidateOutpoints ["ab.0"],
      .getUtxoStatus "ab.0" fun _ => false]
  · refine ⟨⟨plain_sample, fun _ _ _ flies => ?_⟩, fun _ _ => ⟨plain_sample, fun _ _ => ⟨trivial, fun _ _ => ⟨trivial, fun _ _ => trivial⟩⟩⟩⟩
    cases flies
  · exact (Option.some_get _).symm

/-- A call after the invalidation joins the load from before it. -/
theorem joined_load_is_stale :
    ¬((runEvents UtxoCacheRun.step { parseOutpoint := fun _ => none }
      [.getOrLoad sampleQuery fun _ => false, .invalidateOutpoints ["ab.0"], .getOrLoad sampleQuery fun _ => false,
        .loaded 0 sampleAnswer none, .settled 0]).get (by decide +kernel)).NoneStale := by
  intro none
  have after := none.fresh ⟨"ab.0", 2, .load 0⟩ (by decide +kernel) 1 (some sampleAnswer) (by decide +kernel)
  revert after
  decide

end UtxoCacheRun
end WalletToolbox
