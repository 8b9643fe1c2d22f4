import WalletToolbox.Cache.UtxoCacheManager
import Mathlib.Data.List.TakeWhile

/-! The keys that the cache of unspent outputs lists by outpoint. The lists are exact whatever
the LRU cache drops in the middle of a call, so an invalidation leaves no entry behind. -/

namespace WalletToolbox
open List
namespace UtxoCacheManager

def Plain (outpoint : String) : Prop := ':' ∉ outpoint.toList

theorem outpointOf_makeKey (plain : Plain query.outpoint) : outpointOf (makeKey query) = query.outpoint := by
  have spelled : (makeKey query).toList.reverse =
      query.outpoint.toList.reverse ++ ':' :: ((query.outputFormat.getD .hashLE).text ++ ":" ++ query.output).toList.reverse := by
    simp [makeKey]
  have all : ∀ c ∈ query.outpoint.toList.reverse, (decide (c ≠ ':')) = true := by
    intro c member
    apply decide_eq_true
    rintro rfl
    exact plain (mem_reverse.mp member)
  rw [outpointOf, spelled, takeWhile_append_of_pos all]
  simp

section
variable {manager : UtxoCacheManager} {key other outpoint : String}

def Listed (manager : UtxoCacheManager) (outpoint key : String) : Prop := ∃ keys, manager.outpointKeys outpoint = some keys ∧ key ∈ keys

def Exact (manager : UtxoCacheManager) : Prop :=
  ∀ outpoint key, manager.Listed outpoint key ↔ (manager.cache key).isSome = true ∧ outpointOf key = outpoint

theorem cache_removeKey : (removeKeyFromOutpointMap key manager).cache = manager.cache := by
  unfold removeKeyFromOutpointMap
  split <;> rfl

theorem listed_update {keys} :
    Listed { manager with outpointKeys := Function.update manager.outpointKeys at' keys } outpoint other ↔
      if outpoint = at' then ∃ listed, keys = some listed ∧ other ∈ listed else manager.Listed outpoint other := by
  unfold Listed
  by_cases same : outpoint = at'
  · subst same
    simp only [Function.update_self, if_true]
  · simp only [Function.update_of_ne same, if_neg same]

theorem listed_removeKey : Listed (removeKeyFromOutpointMap key manager) outpoint other ↔
    manager.Listed outpoint other ∧ ¬(other = key ∧ outpoint = outpointOf key) := by
  unfold removeKeyFromOutpointMap
  split
  next none =>
    constructor
    · intro listed
      refine ⟨listed, ?_⟩
      rintro ⟨-, rfl⟩
      obtain ⟨keys, is, -⟩ := listed
      rw [none] at is
      cases is
    · exact And.left
  next keys is =>
    rw [listed_update]
    by_cases same : outpoint = outpointOf key
    · subst same
      rw [if_pos rfl]
      constructor
      · rintro ⟨listed, kept, member⟩
        split at kept
        · cases kept
        · cases kept
          obtain ⟨was, ne⟩ := mem_filter.mp member
          exact ⟨⟨keys, is, was⟩, fun both => of_decide_eq_true ne both.1⟩
      · rintro ⟨⟨listed, here, member⟩, apart⟩
        cases is.symm.trans here
        have kept : other ∈ keys.filter (· ≠ key) := mem_filter.mpr ⟨member, decide_eq_true fun same => apart ⟨same, rfl⟩⟩
        exact ⟨_, if_neg (ne_nil_of_mem kept), kept⟩
    · rw [if_neg same]
      constructor
      · exact fun listed => ⟨listed, fun both => same both.2⟩
      · exact And.left

theorem cache_delete : (manager.delete key).cache other = if other = key then none else manager.cache other := by
  unfold delete
  split
  next none =>
    split
    next same => rw [same, none]
    next => rfl
  next =>
    simp only [cache_removeKey]
    by_cases same : other = key
    · subst same
      rw [Function.update_self, if_pos rfl]
    · rw [Function.update_of_ne same, if_neg same]

theorem Exact.delete (exact' : manager.Exact) (key : String) : (manager.delete key).Exact := by
  intro outpoint other
  rw [cache_delete]
  unfold UtxoCacheManager.delete
  split
  next none =>
    rw [exact' outpoint other]
    by_cases same : other = key
    · subst same
      simp [none]
    · rw [if_neg same]
  next =>
    have lists : Listed { removeKeyFromOutpointMap key manager with
        cache := Function.update (removeKeyFromOutpointMap key manager).cache key none } outpoint other ↔
        Listed (removeKeyFromOutpointMap key manager) outpoint other := Iff.rfl
    rw [lists, listed_removeKey, exact' outpoint other]
    by_cases same : other = key
    · subst same
      simp only [true_and, if_true, Option.isSome_none]
      constructor
      · rintro ⟨⟨-, of⟩, apart⟩
        exact absurd of.symm apart
      · rintro ⟨none, -⟩
        cases none
    · simp [same]

structure SameLoads (before after : UtxoCacheManager) : Prop where
  inFlight : after.inFlight = before.inFlight
  generation : after.generation = before.generation

theorem SameLoads.refl (manager : UtxoCacheManager) : SameLoads manager manager := ⟨rfl, rfl⟩

theorem SameLoads.trans (left : SameLoads first second) (right : SameLoads second third) :
    SameLoads first third := ⟨right.inFlight.trans left.inFlight, right.generation.trans left.generation⟩

theorem removeKey_sameLoads : SameLoads manager (removeKeyFromOutpointMap key manager) := by
  unfold removeKeyFromOutpointMap
  split
  · exact .refl _
  · exact ⟨rfl, rfl⟩

theorem delete_sameLoads : SameLoads manager (manager.delete key) := by
  unfold delete
  split
  · exact .refl _
  · have same := @removeKey_sameLoads manager key
    exact ⟨same.inFlight, same.generation⟩

structure Drops (before after : UtxoCacheManager) : Prop where
  loads : SameLoads before after
  exact' : before.Exact → after.Exact
  kept : ∀ key entry, after.cache key = some entry → before.cache key = some entry

theorem Drops.refl (manager : UtxoCacheManager) : Drops manager manager := ⟨.refl manager, id, fun _ _ => id⟩

theorem Drops.trans (left : Drops first second) (right : Drops second third) : Drops first third :=
  ⟨left.loads.trans right.loads, right.exact' ∘ left.exact', fun key entry held => left.kept key entry (right.kept key entry held)⟩

theorem delete_drops : Drops manager (manager.delete key) := by
  refine ⟨delete_sameLoads, fun exact' => exact'.delete key, ?_⟩
  intro other entry held
  rw [cache_delete] at held
  split at held
  · cases held
  · exact held

theorem get_drops {stale} : Drops manager (manager.get stale key).2 := by
  unfold get
  split
  · exact .refl _
  · split
    · exact delete_drops
    · exact .refl _

theorem get_some (got : (manager.get stale key).1 = some entry) : manager.cache key = some entry := by
  unfold get at got
  split at got
  · cases got
  next held =>
    split at got
    · cases got
    · exact held.trans got

theorem get_none {stale} (missed : (manager.get stale key).1 = none) : (manager.get stale key).2.cache key = none := by
  unfold get at missed ⊢
  split
  next none => exact none
  next entry held =>
    rw [held] at missed
    simp only at missed ⊢
    split
    next => rw [cache_delete, if_pos rfl]
    next fresh =>
      rw [if_neg fresh] at missed
      cases missed

structure Puts (key : String) (entry : UtxoEntry) (before after : UtxoCacheManager) : Prop where
  loads : SameLoads before after
  held : after.cache key = some entry
  kept : ∀ other value, other ≠ key → after.cache other = some value → before.cache other = some value
  lists : before.Exact → ∀ outpoint other,
    after.Listed outpoint other ↔ other ≠ key ∧ (after.cache other).isSome = true ∧ outpointOf other = outpoint

theorem put_puts {victim entry} : Puts key entry manager (manager.put victim key entry) := by
  have replaced : ∀ room : UtxoCacheManager, SameLoads manager room →
      (∀ other value, other ≠ key → room.cache other = some value → manager.cache other = some value) →
      (manager.Exact → ∀ outpoint other,
        room.Listed outpoint other ↔ other ≠ key ∧ (room.cache other).isSome = true ∧ outpointOf other = outpoint) →
      Puts key entry manager { room with cache := Function.update room.cache key (some entry) } := by
    intro room loads kept lists
    refine ⟨⟨loads.inFlight, loads.generation⟩, Function.update_self .., ?_, ?_⟩
    · intro other value ne held
      apply kept other value ne
      rw [← held]
      exact (Function.update_of_ne ne _ _).symm
    · intro exact' outpoint other
      have same : Listed { room with cache := Function.update room.cache key (some entry) } outpoint other ↔ room.Listed outpoint other := Iff.rfl
      rw [same, lists exact']
      by_cases ne : other = key
      · simp [ne]
      · have there : Function.update room.cache key (some entry) other = room.cache other := Function.update_of_ne ne _ _
        simp only [there]
  unfold put
  cases held : manager.cache key with
  | some old =>
    apply replaced
    · exact removeKey_sameLoads
    · intro other value _ held
      rw [cache_removeKey] at held
      exact held
    · intro exact' outpoint other
      rw [listed_removeKey, exact' outpoint other, cache_removeKey]
      constructor
      · rintro ⟨⟨some, of⟩, apart⟩
        exact ⟨fun same => apart ⟨same, by rw [← of, same]⟩, some, of⟩
      · rintro ⟨ne, some, of⟩
        exact ⟨⟨some, of⟩, fun both => ne both.1⟩
  | none =>
    cases victim with
    | none =>
      apply replaced
      · exact .refl _
      · exact fun _ _ _ => id
      · intro exact' outpoint other
        rw [exact' outpoint other]
        constructor
        · rintro ⟨some, of⟩
          refine ⟨?_, some, of⟩
          rintro rfl
          rw [held] at some
          cases some
        · exact And.right
    | some dropped =>
      have drops := @delete_drops manager dropped
      apply replaced
      · exact drops.loads
      · exact fun other value _ => drops.kept other value
      · intro exact' outpoint other
        rw [drops.exact' exact' outpoint other]
        constructor
        · rintro ⟨some, of⟩
          refine ⟨?_, some, of⟩
          rintro rfl
          obtain ⟨entry, is⟩ := Option.isSome_iff_exists.mp some
          rw [drops.kept _ _ is] at held
          cases held
        · exact And.right

structure Sets (query : UtxoCacheQuery) (since : Nat) (before after : UtxoCacheManager) : Prop where
  loads : SameLoads before after
  exact' : before.Exact → after.Exact
  kept : ∀ key entry, after.cache key = some entry → before.cache key = some entry ∨ key = makeKey query ∧ entry.since = since

theorem set_sets {victim query result since} (plain : Plain query.outpoint) :
    Sets query since manager (manager.set victim query result since) := by
  unfold set
  split
  next =>
    have puts := @put_puts manager (makeKey query) victim ⟨result, since⟩
    refine ⟨⟨puts.loads.inFlight, puts.loads.generation⟩, ?_, ?_⟩
    · intro exact' outpoint other
      have lists := puts.lists exact'
      rw [listed_update]
      show _ ↔ ((manager.put victim (makeKey query) ⟨result, since⟩).cache other).isSome = true ∧ outpointOf other = outpoint
      by_cases there : outpoint = query.outpoint
      · subst there
        rw [if_pos rfl]
        constructor
        · rintro ⟨listed, is, member⟩
          cases is
          by_cases same : other = makeKey query
          · subst same
            exact ⟨by rw [puts.held]; rfl, outpointOf_makeKey plain⟩
          · have old : other ∈ ((manager.put victim (makeKey query) ⟨result, since⟩).outpointKeys query.outpoint).getD [] := by
              split at member
              · exact member
              · exact (mem_append.mp member).resolve_right fun last => same (mem_singleton.mp last)
            cases keys : (manager.put victim (makeKey query) ⟨result, since⟩).outpointKeys query.outpoint with
            | none =>
              rw [keys] at old
              cases old
            | some keys' =>
              rw [keys] at old
              exact ((lists _ _).mp ⟨keys', keys, old⟩).2
        · rintro ⟨some, of⟩
          refine ⟨_, rfl, ?_⟩
          by_cases same : other = makeKey query
          · subst same
            split
            · assumption
            · simp
          · obtain ⟨keys, is, member⟩ := (lists _ _).mpr ⟨same, some, of⟩
            rw [is]
            split
            · exact member
            · exact mem_append_left _ member
      · rw [if_neg there, lists]
        constructor
        · exact And.right
        · rintro ⟨some, of⟩
          refine ⟨?_, some, of⟩
          rintro rfl
          exact there (of.symm.trans (outpointOf_makeKey plain))
    · intro key entry held
      by_cases same : key = makeKey query
      · subst same
        cases puts.held.symm.trans held
        exact .inr ⟨rfl, rfl⟩
      · exact .inl (puts.kept key entry same held)
  next => exact ⟨.refl _, id, fun _ _ => .inl⟩

theorem foldl_delete_drops (keys : List String) (manager : UtxoCacheManager) : Drops manager (keys.foldl delete manager) := by
  induction keys generalizing manager with
  | nil => exact .refl _
  | cons key rest ih => exact delete_drops.trans (ih (manager.delete key))

theorem cache_foldl_delete {keys : List String} (member : key ∈ keys) (manager : UtxoCacheManager) :
    (keys.foldl delete manager).cache key = none := by
  induction keys generalizing manager with
  | nil => cases member
  | cons first rest ih =>
    rcases mem_cons.mp member with rfl | later
    · rw [Option.eq_none_iff_forall_ne_some]
      intro entry held
      have before := (foldl_delete_drops rest (manager.delete key)).kept key entry held
      rw [cache_delete, if_pos rfl] at before
      cases before
    · exact ih later (manager.delete first)

def Bare (manager : UtxoCacheManager) (outpoint : String) : Prop := ∀ key, outpointOf key = outpoint → manager.cache key = none

theorem dropOutpoint_drops : Drops manager (dropOutpoint outpoint manager) ∧ (manager.Exact → (dropOutpoint outpoint manager).Bare outpoint) := by
  unfold dropOutpoint
  split
  next none =>
    refine ⟨.refl _, fun exact' key of => ?_⟩
    rw [← Option.not_isSome_iff_eq_none]
    intro some
    obtain ⟨keys, is, -⟩ := (exact' outpoint key).mpr ⟨some, of⟩
    rw [none] at is
    cases is
  next keys is =>
    have drops := foldl_delete_drops keys manager
    have bare : manager.Exact → (keys.foldl delete manager).Bare outpoint := by
      intro exact' key of
      rw [Option.eq_none_iff_forall_ne_some]
      intro entry held
      have before := drops.kept key entry held
      obtain ⟨listed, here, member⟩ := (exact' outpoint key).mpr ⟨by rw [before]; rfl, of⟩
      cases is.symm.trans here
      rw [cache_foldl_delete member] at held
      cases held
    refine ⟨⟨⟨drops.loads.inFlight, drops.loads.generation⟩, fun exact' place key => ?_, drops.kept⟩, bare⟩
    rw [listed_update]
    by_cases here : place = outpoint
    · subst here
      rw [if_pos rfl]
      constructor
      · rintro ⟨_, none, -⟩
        cases none
      · rintro ⟨some, of⟩
        have none := bare exact' key of
        rw [none] at some
        cases some
    · rw [if_neg here]
      exact drops.exact' exact' place key

structure Clears (meant : String → Prop) (before after : UtxoCacheManager) : Prop where
  generation : before.generation < after.generation
  inFlight : ∀ key number, after.inFlight key = some number → before.inFlight key = some number
  exact' : before.Exact → after.Exact
  kept : before.Exact → ∀ key entry, after.cache key = some entry → before.cache key = some entry ∧ ¬meant (outpointOf key)

theorem foldl_dropOutpoint (outpoints : List String) (manager : UtxoCacheManager) :
    Drops manager (outpoints.foldl (fun manager outpoint => dropOutpoint outpoint manager) manager) ∧
      (manager.Exact → ∀ outpoint ∈ outpoints, (outpoints.foldl (fun manager outpoint => dropOutpoint outpoint manager) manager).Bare outpoint) := by
  induction outpoints generalizing manager with
  | nil => exact ⟨.refl _, fun _ _ member => nomatch member⟩
  | cons first rest ih =>
    obtain ⟨here, bare⟩ := @dropOutpoint_drops manager first
    obtain ⟨later, others⟩ := ih (dropOutpoint first manager)
    refine ⟨here.trans later, fun exact' outpoint member => ?_⟩
    rcases mem_cons.mp member with rfl | there
    · intro key of
      rw [Option.eq_none_iff_forall_ne_some]
      intro entry held
      have before := later.kept key entry held
      rw [bare exact' key of] at before
      cases before
    · exact others (here.exact' exact') outpoint there

theorem nextGeneration_clears {after} (meant : String → Prop) (drops : Drops manager.nextGeneration after)
    (bare : manager.Exact → ∀ outpoint, meant outpoint → after.Bare outpoint) : Clears meant manager after := by
  refine ⟨?_, ?_, fun exact' => drops.exact' exact', fun exact' key entry held => ?_⟩
  · rw [drops.loads.generation]
    exact Nat.lt_succ_self _
  · intro key number flies
    rw [drops.loads.inFlight] at flies
    exact flies
  · refine ⟨drops.kept key entry held, fun named => ?_⟩
    rw [bare exact' _ named key rfl] at held
    cases held

theorem clear_clears (meant : String → Prop) : Clears meant manager manager.clear := by
  refine ⟨Nat.lt_succ_self _, fun _ _ flies => ?_, fun _ => ?_, fun _ _ _ held => ?_⟩
  · cases flies
  · intro outpoint key
    constructor
    · rintro ⟨_, none, -⟩
      cases none
    · rintro ⟨none, -⟩
      cases none
  · cases held

theorem invalidateByBlock_clears (outpoints : Option (List String)) :
    Clears (fun outpoint => outpoints.all (outpoint ∈ ·) = true) manager (manager.invalidateByBlock outpoints) := by
  cases outpoints with
  | none => exact clear_clears _
  | some outpoints =>
    obtain ⟨drops, bare⟩ := foldl_dropOutpoint outpoints manager.nextGeneration
    exact nextGeneration_clears _ drops fun exact' outpoint named => bare exact' outpoint (of_decide_eq_true named)

structure Invalidates (outpoints : List String) (before after : UtxoCacheManager) : Prop where
  generation : before.generation + outpoints.length = after.generation
  inFlight : after.inFlight = before.inFlight
  exact' : before.Exact → after.Exact
  kept : before.Exact → ∀ key entry, after.cache key = some entry → before.cache key = some entry ∧ outpointOf key ∉ outpoints

theorem invalidateOutpoints_invalidates (outpoints : List String) (manager : UtxoCacheManager) :
    Invalidates outpoints manager (manager.invalidateOutpoints outpoints) := by
  induction outpoints generalizing manager with
  | nil => exact ⟨rfl, rfl, id, fun _ _ _ held => ⟨held, fun member => nomatch member⟩⟩
  | cons first rest ih =>
    obtain ⟨drops, bare⟩ := @dropOutpoint_drops manager.nextGeneration first
    have later := ih (manager.invalidateOutpoint first)
    have generation : (manager.invalidateOutpoint first).generation = manager.generation + 1 := drops.loads.generation
    refine ⟨?_, later.inFlight.trans drops.loads.inFlight, fun exact' => later.exact' (drops.exact' exact'), fun exact' key entry held => ?_⟩
    · have lengths := later.generation
      rw [generation] at lengths
      rw [length_cons]
      exact (by omega : _ = (manager.generation + 1) + rest.length).trans lengths
    · obtain ⟨before, apart⟩ := later.kept (drops.exact' exact') key entry held
      refine ⟨drops.kept key entry before, fun member => ?_⟩
      rcases mem_cons.mp member with same | there
      · have none := bare exact' key same
        rw [invalidateOutpoint] at before
        rw [none] at before
        cases before
      · exact apart there

theorem forget_drops (gone : manager.cache key = none) : Drops manager (manager.forget outpoint key) := by
  refine ⟨⟨rfl, rfl⟩, fun exact' place other => ?_, fun _ _ held => held⟩
  rw [forget, listed_update, ← exact' place other]
  by_cases here : place = outpoint
  · subst here
    rw [if_pos rfl]
    constructor
    · rintro ⟨listed, is, member⟩
      obtain ⟨keys, was, rfl⟩ := Option.map_eq_some_iff.mp is
      exact ⟨keys, was, (mem_filter.mp member).1⟩
    · rintro ⟨keys, was, member⟩
      have ne : other ≠ key := by
        rintro rfl
        have some := ((exact' place other).mp ⟨keys, was, member⟩).1
        rw [gone] at some
        cases some
      exact ⟨_, Option.map_eq_some_iff.mpr ⟨keys, was, rfl⟩, mem_filter.mpr ⟨member, decide_eq_true ne⟩⟩
  · rw [if_neg here]

theorem firstHeld_drops {keys} (exact' : manager.Exact)
    (all : ∀ key, manager.Listed outpoint key → key ∈ keys) (of : ∀ key ∈ keys, (manager.cache key).isSome = true → outpointOf key = outpoint) :
    Drops manager (firstHeld stale outpoint keys manager).2 ∧
      ∀ entry, (firstHeld stale outpoint keys manager).1 = some entry → ∃ key, outpointOf key = outpoint ∧ manager.cache key = some entry := by
  induction keys generalizing manager with
  | nil =>
    refine ⟨⟨⟨rfl, rfl⟩, fun _ place other => ?_, fun _ _ held => held⟩, fun _ none => nomatch none⟩
    rw [firstHeld, listed_update, ← exact' place other]
    by_cases here : place = outpoint
    · subst here
      rw [if_pos rfl]
      constructor
      · rintro ⟨_, none, -⟩
        cases none
      · intro listed
        cases all other listed
    · rw [if_neg here]
  | cons key rest ih =>
    unfold firstHeld
    have drops := @get_drops manager key stale
    cases got : manager.get stale key with
    | mk found read =>
      rw [got] at drops
      cases found with
      | some entry =>
        have held := get_some (by rw [got])
        refine ⟨drops, fun other same => ?_⟩
        cases same
        exact ⟨key, of key (.head _) (by rw [held]; rfl), held⟩
      | none =>
        have gone : read.cache key = none := by
          have missed := @get_none manager key stale (by rw [got])
          rw [got] at missed
          exact missed
        have forgets := drops.trans (@forget_drops read key outpoint gone)
        obtain ⟨later, finds⟩ := @ih (read.forget outpoint key) (forgets.exact' exact') (fun other listed => by
            have some := ((forgets.exact' exact') outpoint other).mp listed
            obtain ⟨entry, held⟩ := Option.isSome_iff_exists.mp some.1
            have before := forgets.kept other entry held
            have member := all other ((exact' outpoint other).mpr ⟨by rw [before]; rfl, some.2⟩)
            refine (mem_cons.mp member).resolve_left ?_
            rintro rfl
            cases gone.symm.trans held) (fun other member some => by
            obtain ⟨entry, held⟩ := Option.isSome_iff_exists.mp some
            exact of other (.tail _ member) (by rw [forgets.kept other entry held]; rfl))
        refine ⟨forgets.trans later, fun entry same => ?_⟩
        obtain ⟨other, there, held⟩ := finds entry same
        exact ⟨other, there, forgets.kept other entry held⟩

theorem getUtxoStatus_drops {stale} (exact' : manager.Exact) :
    Drops manager (manager.getUtxoStatus stale outpoint).2 ∧
      ∀ entry, (manager.getUtxoStatus stale outpoint).1 = some entry → ∃ key, outpointOf key = outpoint ∧ manager.cache key = some entry := by
  unfold getUtxoStatus
  split
  next => exact ⟨.refl _, fun _ none => nomatch none⟩
  next keys is =>
    apply firstHeld_drops exact'
    · rintro key ⟨listed, here, member⟩
      cases is.symm.trans here
      exact member
    · intro key member _
      exact ((exact' outpoint key).mp ⟨keys, is, member⟩).2

end
end UtxoCacheManager

end WalletToolbox
