import WalletToolbox.Async.Traces
import WalletToolbox.Proofs.ChangePlans

/-! The outputs change generation has allocated and not yet released. They are the inputs
of its plan at every point; a call that is rejected ends the function and leaves them. -/

namespace WalletToolbox
open Async List

abbrev ChangeEvent := Event changeStorage

/-- The output an event hands out. -/
def handedBy : ChangeEvent → Option GenerateChangeSdkChangeInput
  | ⟨.allocate _ _, .ok input⟩ => input
  | _ => none

def handed (events : List ChangeEvent) : List GenerateChangeSdkChangeInput := events.filterMap handedBy

def releasedBy : ChangeEvent → Option Nat
  | ⟨.release outputId, _⟩ => some outputId
  | _ => none

def isRejected : ChangeEvent → Bool
  | ⟨.allocate _ _, .error _⟩ | ⟨.release _, .error _⟩ => true
  | _ => false

def releasesSince (outputId : Nat) (events : List ChangeEvent) : Nat :=
  events.foldl (fun count event =>
    if (handedBy event).any (·.outputId = outputId) then 0
    else if releasedBy event = some outputId then count + 1 else count) 0

def unreleased (events : List ChangeEvent) : List GenerateChangeSdkChangeInput :=
  events.foldl (fun held event => (held ++ (handedBy event).toList).filter fun input => releasedBy event ≠ some input.outputId) []

theorem handed_append (events) (event) : handed (events ++ [event]) = handed events ++ (handedBy event).toList := by
  unfold handed
  rw [filterMap_append]
  cases given : handedBy event <;> simp [given]

theorem releasesSince_append (outputId : Nat) (events) (event) : releasesSince outputId (events ++ [event]) =
    if (handedBy event).any (·.outputId = outputId) then 0
    else if releasedBy event = some outputId then releasesSince outputId events + 1 else releasesSince outputId events := by
  unfold releasesSince
  rw [foldl_append]
  rfl

theorem unreleased_append (events) (event) : unreleased (events ++ [event]) =
    (unreleased events ++ (handedBy event).toList).filter fun input => releasedBy event ≠ some input.outputId := by
  unfold unreleased
  rw [foldl_append]
  rfl

def Offered (pool : List Nat) (past : List ChangeEvent) (event : ChangeEvent) : Prop :=
  ∀ input, handedBy event = some input → input.outputId ∈ pool ∧ input.outputId ∉ (unreleased past).map GenerateChangeSdkChangeInput.outputId

structure HoldsInputs (pool : List Nat) (past : List ChangeEvent) (held : List GenerateChangeSdkChangeInput) : Prop where
  exact : unreleased past = held
  distinct : (held.map GenerateChangeSdkChangeInput.outputId).Nodup
  offered : ∀ input ∈ held, input.outputId ∈ pool
  given : ∀ input ∈ held, input ∈ handed past
  kept : ∀ input ∈ held, releasesSince input.outputId past = 0
  once : ∀ input ∈ handed past, input.outputId ∉ held.map GenerateChangeSdkChangeInput.outputId → releasesSince input.outputId past = 1

def AllReleased (events : List ChangeEvent) : Prop := ∀ input ∈ handed events, releasesSince input.outputId events = 1

def RejectedAlone (events : List ChangeEvent) : Prop :=
  ∀ earlier last, events = earlier ++ [last] → isRejected last = true → ∀ input ∈ unreleased earlier, releasedBy last = some input.outputId

/-- No call has been rejected. -/
def Resolved (events : List ChangeEvent) : Prop := ∀ event ∈ events, isRejected event = false

section
variable {pool : List Nat} {past : List ChangeEvent} {held : List GenerateChangeSdkChangeInput} {event : ChangeEvent}

theorem Resolved.append (resolved : Resolved past) (resolves : isRejected event = false) : Resolved (past ++ [event]) := by
  intro other member
  rcases mem_append.mp member with earlier | last
  · exact resolved other earlier
  · rw [mem_singleton.mp last]
    exact resolves

theorem Resolved.alone (resolved : Resolved past) : RejectedAlone past := by
  intro earlier last same rejected
  have resolves := resolved last (same ▸ mem_append_right _ (mem_singleton_self _))
  rw [resolves] at rejected
  cases rejected

theorem holds_nothing : HoldsInputs pool [] [] where
  exact := rfl
  distinct := nodup_nil
  offered _ member := by cases member
  given _ member := by cases member
  kept _ member := by cases member
  once _ member := by cases member

section
variable (holds : HoldsInputs pool past held)
include holds

theorem HoldsInputs.length_le : held.length ≤ pool.length := by
  have inside : held.map GenerateChangeSdkChangeInput.outputId ⊆ pool := by
    intro outputId member
    obtain ⟨input, has, rfl⟩ := mem_map.mp member
    exact holds.offered input has
  have bound := (subperm_of_subset holds.distinct inside).length_le
  rwa [length_map] at bound

theorem HoldsInputs.allReleased_iff : AllReleased past ↔ held = [] := by
  constructor
  · intro released
    cases held with
    | nil => rfl
    | cons input rest =>
      have once := released input (holds.given input (.head _))
      rw [holds.kept input (.head _)] at once
      cases once
  · rintro rfl
    exact fun input member => holds.once input member (by simp)

theorem HoldsInputs.same (gives : handedBy event = none) (releases : releasedBy event = none) :
    HoldsInputs pool (past ++ [event]) held := by
  have count : ∀ outputId, releasesSince outputId (past ++ [event]) = releasesSince outputId past := by
    intro outputId
    rw [releasesSince_append, gives, releases]
    simp
  have same : handed (past ++ [event]) = handed past := by
    rw [handed_append, gives]
    simp
  refine ⟨?_, holds.distinct, holds.offered, fun input member => ?_, fun input member => ?_, fun input member other => ?_⟩
  · rw [unreleased_append, holds.exact, gives, releases]
    simp
  · rw [same]
    exact holds.given input member
  · rw [count]
    exact holds.kept input member
  · rw [count]
    exact holds.once input (same ▸ member) other

theorem HoldsInputs.allocated (gives : handedBy event = some input)
    (releases : releasedBy event = none) (offered : Offered pool past event) : HoldsInputs pool (past ++ [event]) (held ++ [input]) := by
  obtain ⟨inside, free⟩ := offered input gives
  rw [holds.exact] at free
  have count : ∀ outputId, outputId ≠ input.outputId → releasesSince outputId (past ++ [event]) = releasesSince outputId past := by
    intro outputId other
    rw [releasesSince_append, gives, releases]
    simp [Ne.symm other]
  have more : handed (past ++ [event]) = handed past ++ [input] := by
    rw [handed_append, gives]
    rfl
  have fresh : ∀ other ∈ held, other.outputId ≠ input.outputId := fun other member same => free (same ▸ mem_map_of_mem member)
  refine ⟨?_, ?_, fun other member => ?_, fun other member => ?_, fun other member => ?_, fun other member apart => ?_⟩
  · rw [unreleased_append, holds.exact, gives, releases]
    simp
  · rw [map_append]
    exact List.Nodup.append holds.distinct (nodup_singleton _) (by simpa using fun other member => fresh other member)
  · rcases mem_append.mp member with earlier | last
    · exact holds.offered other earlier
    · rw [mem_singleton.mp last]
      exact inside
  · rw [more]
    rcases mem_append.mp member with earlier | last
    · exact mem_append_left _ (holds.given other earlier)
    · exact mem_append_right _ last
  · rcases mem_append.mp member with earlier | last
    · rw [count _ (fresh other earlier)]
      exact holds.kept other earlier
    · rw [mem_singleton.mp last, releasesSince_append, gives]
      simp
  · rw [map_append, mem_append, not_or] at apart
    have differs : other.outputId ≠ input.outputId := by simpa using apart.2
    rw [count _ differs]
    rw [more] at member
    rcases mem_append.mp member with earlier | last
    · exact holds.once other earlier apart.1
    · exact absurd (congrArg GenerateChangeSdkChangeInput.outputId (mem_singleton.mp last)) differs

omit holds in
theorem HoldsInputs.released (holds : HoldsInputs pool past (held ++ [input])) (gives : handedBy event = none)
    (releases : releasedBy event = some input.outputId) : HoldsInputs pool (past ++ [event]) held := by
  have distinct := holds.distinct
  rw [map_append, nodup_append] at distinct
  have apart : ∀ other ∈ held, other.outputId ≠ input.outputId := fun other member same =>
    distinct.2.2 _ (mem_map_of_mem member) _ (mem_singleton_self _) same
  have count : ∀ outputId, outputId ≠ input.outputId → releasesSince outputId (past ++ [event]) = releasesSince outputId past := by
    intro outputId other
    rw [releasesSince_append, gives, releases]
    simp [Ne.symm other]
  have same : handed (past ++ [event]) = handed past := by
    rw [handed_append, gives]
    simp
  have inHeld : ∀ other ∈ held, other ∈ held ++ [input] := fun other member => mem_append_left _ member
  refine ⟨?_, distinct.1, fun other member => holds.offered other (inHeld other member), fun other member => ?_, fun other member => ?_,
    fun other member gone => ?_⟩
  · rw [unreleased_append, holds.exact, gives, releases]
    simpa using fun other member same => apart other member same.symm
  · rw [same]
    exact holds.given other (inHeld other member)
  · rw [count _ (apart other member)]
    exact holds.kept other (inHeld other member)
  · rw [same] at member
    by_cases mine : other.outputId = input.outputId
    · rw [mine, releasesSince_append, gives, releases, holds.kept input (mem_append_right _ (mem_singleton_self _))]
      simp
    · rw [count _ mine]
      apply holds.once other member
      rw [map_append, mem_append, not_or]
      exact ⟨gone, by simpa using mine⟩

theorem HoldsInputs.rejected (after : HoldsInputs pool (past ++ [event]) (held.filter fun input => releasedBy event ≠ some input.outputId))
    (rejected : isRejected event = true) : AllReleased (past ++ [event]) ↔ RejectedAlone (past ++ [event]) := by
  rw [after.allReleased_iff, filter_eq_nil_iff]
  constructor
  · intro none earlier last same _ input member
    obtain ⟨rfl, rfl⟩ := append_singleton_inj.mp same.symm
    rw [holds.exact] at member
    simpa using none input member
  · intro alone input member
    have own := alone past event rfl rejected input (holds.exact ▸ member)
    simp [own]

end

end

/-- The function goes on with what is `good`, or has thrown where it may. -/
def EndsReserved {α : Type} (thrown : List ChangeEvent → WalletError → Prop) (good : List ChangeEvent → α → Prop) (past : List ChangeEvent) :
    Except ChangeFailure α → Prop
  | .ok value => good past value
  | .error (.thrown error) => thrown past error
  | .error .unfinished => False

section
variable {pool : List Nat} {past : List ChangeEvent} {held : List GenerateChangeSdkChangeInput} {α β : Type}
  {allowed : List ChangeEvent → ChangeEvent → Prop} {thrown : List ChangeEvent → WalletError → Prop}

theorem reserves_bind {next : α → ChangeM β}
    (first : program.Along allowed (EndsReserved thrown fun more value => (next value).Along allowed (EndsReserved thrown good) more) past) :
    (program >>= next).Along allowed (EndsReserved thrown good) past := by
  refine Program.Along.bind (first.mono fun more outcome reserves => ?_)
  match outcome with
  | .ok value => exact reserves
  | .error (.thrown error) => exact reserves
  | .error .unfinished => exact reserves

theorem EndsReserved.mono (reserves : EndsReserved thrown good past outcome)
    (implies : ∀ value, good past value → better past value) : EndsReserved thrown better past outcome := by
  match outcome with
  | .ok value => exact implies value reserves
  | .error (.thrown error) => exact reserves
  | .error .unfinished => exact reserves

def InHand (pool : List Nat) (past : List ChangeEvent) (held : List GenerateChangeSdkChangeInput) : Prop := HoldsInputs pool past held ∧ Resolved past

def ThrowsRejected (allowed : List ChangeEvent → ChangeEvent → Prop) (thrown : List ChangeEvent → WalletError → Prop) : Prop :=
  ∀ past event error, allowed past event → isRejected event = true → (AllReleased (past ++ [event]) ↔ RejectedAlone (past ++ [event])) →
    thrown (past ++ [event]) error

variable (stricter : ∀ past event, allowed past event → Offered pool past event) (rejects : ThrowsRejected allowed thrown)
include rejects

section
include stricter

theorem allocate_along (holding : InHand pool past held) (targetSatoshis : Int) (exactSatoshis : Option Int) :
    (ChangeM.allocateChangeInput targetSatoshis exactSatoshis).Along allowed (EndsReserved thrown fun more input => match input with
      | none => InHand pool more held ∧ allowed past ⟨.allocate targetSatoshis exactSatoshis, .ok none⟩
      | some input => InHand pool more (held ++ [input]) ∧ allowed past ⟨.allocate targetSatoshis exactSatoshis, .ok (some input)⟩) past := by
  intro reply permitted
  match reply with
  | .error error =>
    have after := holding.1.same (show handedBy ⟨.allocate targetSatoshis exactSatoshis, .error error⟩ = none from rfl) rfl
    refine rejects _ _ _ permitted rfl (holding.1.rejected ?_ rfl)
    have all : (held.filter fun input => releasedBy ⟨.allocate targetSatoshis exactSatoshis, .error error⟩ ≠ some input.outputId) = held := by
      rw [filter_eq_self]
      intro input _
      exact decide_eq_true (by simp [releasedBy])
    rw [all]
    exact after
  | .ok none => exact ⟨⟨holding.1.same rfl rfl, holding.2.append rfl⟩, permitted⟩
  | .ok (some input) => exact ⟨⟨holding.1.allocated rfl rfl (stricter _ _ permitted), holding.2.append rfl⟩, permitted⟩

end

theorem release_along (holding : InHand pool past (held ++ [input])) :
    (ChangeM.releaseChangeInput input.outputId).Along allowed (EndsReserved thrown fun more _ => InHand pool more held) past := by
  intro reply permitted
  have after : HoldsInputs pool (past ++ [⟨.release input.outputId, reply⟩]) held := holding.1.released rfl rfl
  match reply with
  | .error error =>
    refine rejects _ _ _ permitted rfl (holding.1.rejected ?_ rfl)
    have distinct := holding.1.distinct
    rw [map_append, nodup_append] at distinct
    have apart : ∀ other ∈ held, other.outputId ≠ input.outputId := fun other member same =>
      distinct.2.2 _ (mem_map_of_mem member) _ (mem_singleton_self _) same
    have rest : ((held ++ [input]).filter fun other => releasedBy ⟨.release input.outputId, .error error⟩ ≠ some other.outputId) = held := by
      rw [filter_append]
      simpa [releasedBy] using fun other member same => apart other member same.symm
    rw [rest]
    exact after
  | .ok () => exact ⟨after, holding.2.append rfl⟩

theorem releaseInputs_along (inputs) (holding : InHand pool past inputs.reverse) :
    (releaseInputs inputs).Along allowed (EndsReserved thrown fun more _ => InHand pool more []) past := by
  induction inputs generalizing past with
  | nil => exact holding
  | cons input rest ih =>
    rw [reverse_cons] at holding
    refine reserves_bind ((release_along rejects holding).mono fun more outcome reserves => ?_)
    exact reserves.mono fun _ released => ih released

theorem releaseAll_along (holding : InHand pool past plan.allocatedChangeInputs) :
    (releaseAllocatedChangeInputs plan).Along allowed
      (EndsReserved thrown fun more after => InHand pool more [] ∧ after = { plan with allocatedChangeInputs := [] }) past := by
  have reversed : InHand pool past plan.allocatedChangeInputs.reverse.reverse := (reverse_reverse _).symm ▸ holding
  refine reserves_bind ((releaseInputs_along rejects _ reversed).mono fun more outcome reserves => ?_)
  exact reserves.mono fun _ released => ⟨released, rfl⟩

variable {params : GenerateChangeSdkParams}
include stricter

def Exhausted (allowed : List ChangeEvent → ChangeEvent → Prop) (pool : List Nat) (inputs : List GenerateChangeSdkChangeInput) : Prop :=
  ∃ past targetSatoshis exactSatoshis, HoldsInputs pool past inputs ∧ allowed past ⟨.allocate targetSatoshis exactSatoshis, .ok none⟩

theorem fundingLoop_along {inv : ChangePlan → Prop}
    (adds : ∀ past plan input ao targetSatoshis exactSatoshis, inv plan → plan.feeExcess params < 0 →
      allowed past ⟨.allocate targetSatoshis exactSatoshis, .ok (some input)⟩ →
      inv (maybeAddChangeOutput params removingOutputs ao { plan with allocatedChangeInputs := plan.allocatedChangeInputs ++ [input] }))
    (fuel : Nat) (enough : pool.length < plan.allocatedChangeInputs.length + fuel)
    (holding : InHand pool past plan.allocatedChangeInputs) (start : inv plan) :
    (fundingLoop params removingOutputs fuel plan).Along allowed (EndsReserved thrown fun more after =>
      InHand pool more after.allocatedChangeInputs ∧ inv after ∧ (removingOutputs = true → after.changeOutputs = plan.changeOutputs) ∧
        (0 ≤ after.feeExcess params ∨ Exhausted allowed pool after.allocatedChangeInputs)) past := by
  induction fuel generalizing plan past with
  | zero =>
    have bound := holding.1.length_le
    omega
  | succ fuel ih =>
    unfold fundingLoop
    split
    · next short =>
      refine reserves_bind ?_
      unfold attemptToFundTransaction
      rw [if_neg (by omega)]
      refine reserves_bind ((allocate_along stricter rejects holding _ _).mono fun more outcome reserves => reserves.mono fun input given => ?_)
      match input with
      | none => exact ⟨given.1, start, fun _ => rfl, .inr ⟨_, _, _, holding.1, given.2⟩⟩
      | some input =>
        obtain ⟨now, permitted⟩ := given
        have inputs := @maybeAddChangeOutput_inputs params { plan with allocatedChangeInputs := plan.allocatedChangeInputs ++ [input] }
          removingOutputs (if plan.addOutputToBalanceNewInput params = true then 1 else 0)
        refine (ih ?_ ?_ (adds _ _ _ _ _ _ start short permitted)).mono fun later outcome reserves => reserves.mono fun after ends => ?_
        · rw [inputs, length_append, length_singleton]
          omega
        · rw [inputs]
          exact now
        · refine ⟨ends.1, ends.2.1, fun removing => ?_, ends.2.2.2⟩
          rw [ends.2.2.1 removing]
          subst removing
          rw [maybeAddChangeOutput_removing]
    · next funded => exact ⟨holding, start, fun _ => rfl, .inl (not_lt.mp funded)⟩

def ChangePlan.starved (params : GenerateChangeSdkParams) (plan : ChangePlan) : ChangePlan :=
  { plan with changeOutputs := (dropUnfunded params plan.allocatedChangeInputs plan.changeOutputs.reverse).reverse }

/-- What the rounds of the starvation loop need: each starts with outputs it may start
with, keeps its invariant while it is funded, and ends or leaves outputs for the next. -/
structure Rounds (params : GenerateChangeSdkParams) (allowed : List ChangeEvent → ChangeEvent → Prop) (pool : List Nat)
    (start : Bool → List GenerateChangeSdkOutput → Prop) (inv : Bool → ChangePlan → Prop) (ended : ChangePlan → Prop) : Prop where
  enter : ∀ removing outputs, start removing outputs → inv removing ⟨[], outputs⟩
  adds : ∀ removing past plan input ao targetSatoshis exactSatoshis, inv removing plan → plan.feeExcess params < 0 →
    allowed past ⟨.allocate targetSatoshis exactSatoshis, .ok (some input)⟩ →
    inv removing (maybeAddChangeOutput params removing ao { plan with allocatedChangeInputs := plan.allocatedChangeInputs ++ [input] })
  bounded : ∀ removing plan, inv removing plan → plan.changeOutputs.length ≤ params.maxOutputs.toNat
  done : ∀ removing plan, inv removing plan → 0 ≤ plan.feeExcess params ∨ Exhausted allowed pool plan.allocatedChangeInputs →
    0 ≤ plan.feeExcess params ∨ plan.changeOutputs = [] → ended plan
  starved : ∀ removing plan, inv removing plan → Exhausted allowed pool plan.allocatedChangeInputs → plan.feeExcess params < 0 →
    plan.changeOutputs ≠ [] → (plan.starved params).feeExcess params < 0 → ended (plan.starved params)
  again : ∀ removing plan, inv removing plan → Exhausted allowed pool plan.allocatedChangeInputs → plan.feeExcess params < 0 →
    plan.changeOutputs ≠ [] → 0 ≤ (plan.starved params).feeExcess params →
    start true (removeChurnPairs plan.allocatedChangeInputs (plan.starved params).changeOutputs)

theorem starvationLoop_along {start : Bool → List GenerateChangeSdkOutput → Prop} {inv : Bool → ChangePlan → Prop} {ended : ChangePlan → Prop}
    (each : Rounds params allowed pool start inv ended) {fuel : Nat} (enough : pool.length < fuel) (rounds : Nat) {removingOutputs : Bool}
    {plan : ChangePlan} (left : (if removingOutputs then plan.changeOutputs.length else params.maxOutputs.toNat) < rounds)
    (holding : InHand pool past plan.allocatedChangeInputs) (starts : start removingOutputs plan.changeOutputs) :
    (starvationLoop params fuel rounds removingOutputs plan).Along allowed
      (EndsReserved thrown fun more after => InHand pool more after.allocatedChangeInputs ∧ ended after) past := by
  induction rounds generalizing removingOutputs plan past with
  | zero => exact absurd left (Nat.not_lt_zero _)
  | succ rounds ih =>
    unfold starvationLoop
    refine reserves_bind ((releaseAll_along rejects holding).mono fun more outcome reserves => reserves.mono fun released now => ?_)
    obtain ⟨empty, rfl⟩ := now
    refine reserves_bind ((fundingLoop_along stricter rejects (each.adds removingOutputs) fuel (by simpa using enough) empty
      (each.enter removingOutputs _ starts)).mono fun later outcome reserves => reserves.mono fun funded ends => ?_)
    obtain ⟨held, kept, same, stops⟩ := ends
    split
    · next exceeds => exact ⟨held, each.done removingOutputs funded kept stops exceeds⟩
    · next goesOn =>
      obtain ⟨short, some⟩ := not_or.mp goesOn
      dsimp only
      have starving := not_le.mp short
      have exhausted := stops.resolve_left short
      split
      · next still => exact ⟨held, each.starved removingOutputs funded kept exhausted starving some still⟩
      · next again =>
        refine ih ?_ held (each.again removingOutputs funded kept exhausted starving some (not_lt.mp again))
        -- at least one output was popped, and no round adds one any more
        have popped := @dropUnfunded_shorter params funded.allocatedChangeInputs funded.changeOutputs.reverse (by simpa using some)
          (by rwa [reverse_reverse])
        have churned := (dropChurn_suffix funded.allocatedChangeInputs (funded.starved params).changeOutputs.reverse).length_le
        have bounded := each.bounded removingOutputs funded kept
        have fewer : (removeChurnPairs funded.allocatedChangeInputs (funded.starved params).changeOutputs).length < funded.changeOutputs.length := by
          simp only [ChangePlan.starved, length_reverse, reverse_reverse, removeChurnPairs] at popped churned ⊢
          omega
        show (removeChurnPairs funded.allocatedChangeInputs (funded.starved params).changeOutputs).length < rounds
        cases removingOutputs with
        | false =>
          simp only [Bool.false_eq_true, if_false] at left
          omega
        | true =>
          rw [same rfl] at fewer
          simp only [if_true] at left
          exact lt_of_lt_of_le fewer (Nat.le_of_lt_succ left)

end

theorem releaseInputs_hands (inputs) :
    (releaseInputs inputs).Along allowed (fun more _ => ∃ later, more = past ++ later ∧ handed later = []) past := by
  induction inputs generalizing past with
  | nil => exact ⟨[], (append_nil _).symm, rfl⟩
  | cons input rest ih =>
    apply Program.Along.bind
    intro reply _
    match reply with
    | .error error => exact ⟨[⟨.release input.outputId, .error error⟩], rfl, rfl⟩
    | .ok () =>
      refine ih.mono fun more outcome ends => ?_
      obtain ⟨later, same, none⟩ := ends
      refine ⟨⟨.release input.outputId, .ok ()⟩ :: later, ?_, none⟩
      rw [same, append_assoc]
      rfl

theorem releaseAll_hands (plan) :
    (releaseAllocatedChangeInputs plan).Along allowed (fun more _ => ∃ later, more = past ++ later ∧ handed later = []) past := by
  refine Program.Along.bind ((releaseInputs_hands _).mono fun more outcome ends => ?_)
  cases outcome with
  | ok _ => exact ends
  | error _ => exact ends

theorem leftOutputs_suffix {params : GenerateChangeSdkParams} {plan : ChangePlan} :
    (removeChurnPairs plan.allocatedChangeInputs (plan.starved params).changeOutputs).reverse <:+ plan.changeOutputs.reverse := by
  have churned := dropChurn_suffix plan.allocatedChangeInputs (plan.starved params).changeOutputs.reverse
  have dropped := @dropUnfunded_suffix params plan.allocatedChangeInputs plan.changeOutputs.reverse
  rw [removeChurnPairs, reverse_reverse]
  refine churned.trans ?_
  rw [ChangePlan.starved, reverse_reverse]
  exact dropped

/-- No reservation is leaked or released twice: what was handed out and not released are
the inputs of the result, or nothing where there is none. -/
def ReservationsSettled (events : List ChangeEvent) : Except ChangeFailure GenerateChangeSdkResult → Prop
  | .ok r => unreleased events = r.allocatedChangeInputs ∧ (r.allocatedChangeInputs.map GenerateChangeSdkChangeInput.outputId).Nodup ∧
      ∀ input ∈ handed events, input.outputId ∉ r.allocatedChangeInputs.map GenerateChangeSdkChangeInput.outputId →
        releasesSince input.outputId events = 1
  | .error _ => AllReleased events

section
variable {params : GenerateChangeSdkParams} {pool : List Nat} {past : List ChangeEvent} {allowed : List ChangeEvent → ChangeEvent → Prop}

def ReturnsHeld (pool : List Nat) (past : List ChangeEvent) (r : GenerateChangeSdkResult) : Prop := InHand pool past r.allocatedChangeInputs

def ReleasedUnlessRejected (past : List ChangeEvent) (_ : WalletError) : Prop := AllReleased past ↔ RejectedAlone past

theorem rejects_unresolved {throws : List ChangeEvent → WalletError → Prop} : ThrowsRejected allowed fun past error => Resolved past → throws past error := by
  intro past event error _ rejected _ resolved
  have resolves := resolved event (mem_append_right _ (mem_singleton_self _))
  rw [resolves] at rejected
  cases rejected

theorem rejects_released : ThrowsRejected allowed ReleasedUnlessRejected := fun _ _ _ _ _ same => same

theorem inHand_nothing : InHand pool [] [] := ⟨holds_nothing, fun _ member => (by cases member)⟩

theorem released_alone (inHand : InHand pool past []) : ReleasedUnlessRejected past error :=
  iff_of_true (inHand.1.allReleased_iff.mpr rfl) inHand.2.alone

def IsInsufficientFunds (error : WalletError) : Prop :=
  ∃ totalSatoshisNeeded moreSatoshisNeeded, error = .insufficientFunds totalSatoshisNeeded moreSatoshisNeeded

variable {plan : ChangePlan} {thrown : List ChangeEvent → WalletError → Prop} (rejects : ThrowsRejected allowed thrown) (rates : ∀ size, 0 ≤ params.feeOfSize size)
  (inHand : InHand pool past plan.allocatedChangeInputs) (above : AboveDust params plan.changeOutputs)
  (throws : ∀ more error, InHand pool more [] → IsInsufficientFunds error → thrown more error)

section
include rejects rates inHand above throws

theorem settleChange_along (adjustment : Option (Nat × Int)) (returns : ∀ r, Finishes params adjustment plan r → good past r) :
    (settleChange params adjustment plan).Along allowed (EndsReserved thrown good) past := by
  unfold settleChange
  split
  · refine reserves_bind ((releaseAll_along rejects inHand).mono fun more outcome reserves => reserves.mono fun released now => ?_)
    exact throws more _ now.1 ⟨_, _, rfl⟩
  · next funded =>
    split
    · refine reserves_bind ((releaseAll_along rejects inHand).mono fun more outcome reserves => reserves.mono fun released now => ?_)
      exact throws more _ now.1 ⟨_, _, rfl⟩
    · next taken =>
      obtain ⟨r, done, finished⟩ := finishChange_returns rates adjustment above (not_lt.mp funded) fun none => not_lt.mp fun exceeds => taken ⟨none, exceeds⟩
      rw [done]
      exact returns r finished

end

/-- What is made of the plan that the loops end with. -/
def settlePlan (params : GenerateChangeSdkParams) (maxPossible : Option Nat) (plan : ChangePlan) : ChangeM GenerateChangeSdkResult :=
  match maxPossible with
  | some i =>
    if plan.feeExcess params < 0 then do
      let (adjusted, satoshis) ← ChangeM.ofExcept (adjustMaxPossible params i plan)
      settleChange adjusted (some (i, satoshis)) plan
    else settleChange params none plan
  | none => settleChange params none plan

section
include rejects rates inHand above throws

theorem settlePlan_along (valid : validateGenerateChangeSdkParams params = .ok maxPossible)
    (returns : ∀ adjustment r, Finishes (params.adjusted adjustment) adjustment plan r → good past r) :
    (settlePlan params maxPossible plan).Along allowed (EndsReserved thrown good) past := by
  have plain := settleChange_along rejects rates inHand above throws none (returns none)
  cases maxPossible with
  | none => exact plain
  | some i =>
    unfold settlePlan
    dsimp only
    split
    · obtain ⟨output, found, most⟩ := validParams_maxPossible valid
      obtain ⟨adjusted, satoshis, ok, sameFees, sameFloor, _⟩ := @adjustMaxPossible_ok params plan i output found most
      rw [ok]
      refine settleChange_along rejects (fun size => by rw [sameFees]; exact rates size) inHand (fun other member => ?_) throws _ fun r finished => ?_
      · rw [sameFloor]
        exact above other member
      · cases adjustMaxPossible_adjusted ok
        exact returns (some (i, satoshis)) r finished
    · exact plain

end

theorem rounds_aboveDust : Rounds params allowed pool
    (fun _ outputs => AboveDust params outputs ∧ outputs.length ≤ params.maxOutputs.toNat)
    (fun _ plan => AboveDust params plan.changeOutputs ∧ plan.changeOutputs.length ≤ params.maxOutputs.toNat)
    (fun plan => AboveDust params plan.changeOutputs ∧ plan.changeOutputs.length ≤ params.maxOutputs.toNat) where
  enter _ _ start := start
  adds removing past plan input ao _ _ inv _ _ := by
    rcases @maybeAddChangeOutput_cases params { plan with allocatedChangeInputs := plan.allocatedChangeInputs ++ [input] } removing ao with
      same | ⟨satoshis, same, _, room, enough, _⟩
    · rw [same]
      exact inv
    · rw [same]
      refine ⟨inv.1.append enough, ?_⟩
      have inside : (plan.changeOutputs.length : Int) < params.maxOutputs := room
      simp only [addChangeOutput_outputs, length_append, length_singleton]
      omega
  bounded _ _ inv := inv.2
  done _ _ inv _ _ := inv
  starved _ plan inv _ _ _ _ := by
    have suffix : (plan.starved params).changeOutputs.reverse <:+ plan.changeOutputs.reverse := by
      simpa [ChangePlan.starved] using dropUnfunded_suffix _ _
    exact ⟨inv.1.of_suffix suffix, le_trans (by simpa using suffix.length_le) inv.2⟩
  again _ plan inv _ _ _ _ := by
    have suffix := @leftOutputs_suffix params plan
    refine ⟨inv.1.of_suffix suffix, le_trans ?_ inv.2⟩
    simpa using suffix.length_le

theorem wanted_aboveDust : AboveDust params (wantedChangeOutputs params params.maxOutputs.toNat ⟨[], []⟩).changeOutputs ∧
    (wantedChangeOutputs params params.maxOutputs.toNat ⟨[], []⟩).changeOutputs.length ≤ params.maxOutputs.toNat := by
  refine @wantedChangeOutputs_keeps params _ (fun plan => AboveDust params plan.changeOutputs ∧ plan.changeOutputs.length ≤ params.maxOutputs.toNat) _
    ⟨fun _ member => (by cases member), Nat.zero_le _⟩ fun plan satoshis inv room enough _ => ⟨inv.1.append enough, ?_⟩
  simp only [addChangeOutput_outputs, length_append, length_singleton]
  omega

theorem wanted_inputs : (wantedChangeOutputs params params.maxOutputs.toNat ⟨[], []⟩).allocatedChangeInputs = [] :=
  @wantedChangeOutputs_keeps params _ (fun plan => plan.allocatedChangeInputs = []) _ rfl fun _ _ inv _ _ _ => inv

def Reaching {α : Type} (reached : List ChangeEvent → α → Prop) (past : List ChangeEvent) (outcome : Except ChangeFailure α) : Prop :=
  ∀ value, outcome = .ok value → reached past value

theorem reaching_anything {program : ChangeM α} : program.Along allowed (Reaching fun _ _ => True) past :=
  Program.along_always (fun _ _ _ _ => trivial) program

theorem generateChangeSdk_rounds {start inv ended} (stricter : ∀ past event, allowed past event → Offered pool past event)
    (rejects : ThrowsRejected allowed thrown) (each : Rounds params allowed pool start inv ended)
    (wanted : start false (wantedChangeOutputs params params.maxOutputs.toNat ⟨[], []⟩).changeOutputs) (picks : pool.length < fuel)
    (rounds : params.maxOutputs.toNat < fuel) (valid : validateGenerateChangeSdkParams params = .ok maxPossible)
    (reaches : (starvationLoop params fuel fuel false (wantedChangeOutputs params params.maxOutputs.toNat ⟨[], []⟩)).Along allowed (Reaching reached) [])
    (settles : ∀ past plan, InHand pool past plan.allocatedChangeInputs → ended plan → reached past plan →
      (settlePlan params maxPossible plan).Along allowed (EndsReserved thrown good) past) :
    (generateChangeSdk params fuel).Along allowed (EndsReserved thrown good) [] := by
  have empty : InHand pool [] (wantedChangeOutputs params params.maxOutputs.toNat ⟨[], []⟩).allocatedChangeInputs := by
    rw [wanted_inputs]
    exact inHand_nothing
  unfold generateChangeSdk
  rw [valid]
  refine reserves_bind (reserves_bind (((@starvationLoop_along pool [] _ _ stricter rejects params _ _ _ each fuel picks fuel false _ rounds empty wanted).and
    reaches).mono fun more outcome both => ?_))
  obtain ⟨reserves, reached⟩ := both
  match outcome with
  | .error (.thrown error) => exact reserves
  | .ok plan =>
  have settled := settles more plan reserves.1 reserves.2 (reached plan rfl)
  cases maxPossible with
  | none => exact settled
  | some i => exact settled

theorem generateChangeSdk_ends {good : List ChangeEvent → GenerateChangeSdkResult → Prop} (rejects : ThrowsRejected (Offered pool) thrown)
    (rates : ∀ size, 0 ≤ params.feeOfSize size) (picks : pool.length < fuel) (rounds : params.maxOutputs.toNat < fuel)
    (refused : ∀ error, validateGenerateChangeSdkParams params = .error error → thrown [] error)
    (throws : ∀ more error, InHand pool more [] → IsInsufficientFunds error → thrown more error)
    (returns : ∀ past plan adjustment r, InHand pool past plan.allocatedChangeInputs → plan.changeOutputs.length ≤ params.maxOutputs.toNat →
      Finishes (params.adjusted adjustment) adjustment plan r → good past r) :
    (generateChangeSdk params fuel).Along (Offered pool) (EndsReserved thrown good) [] := by
  cases valid : validateGenerateChangeSdkParams params with
  | error error =>
    unfold generateChangeSdk
    rw [valid]
    exact refused error valid
  | ok maxPossible =>
    exact generateChangeSdk_rounds (fun _ _ offered => offered) rejects rounds_aboveDust wanted_aboveDust picks rounds valid reaching_anything fun past plan inHand ended _ =>
        settlePlan_along rejects rates inHand ended.1 throws valid fun adjustment r => returns past plan adjustment r inHand ended.2

theorem generateChangeSdk_along (rates : ∀ size, 0 ≤ params.feeOfSize size) (picks : pool.length < fuel)
    (rounds : params.maxOutputs.toNat < fuel) :
    (generateChangeSdk params fuel).Along (Offered pool) (EndsReserved ReleasedUnlessRejected (ReturnsHeld pool)) [] :=
  generateChangeSdk_ends rejects_released rates picks rounds (fun _ _ => released_alone (@inHand_nothing pool)) (fun _ _ empty _ => released_alone empty)
    fun _ _ _ _ inHand _ finished => by
      rw [ReturnsHeld, finished.inputs]
      exact inHand

end

/-- For a fee that is not negative and a finite pool, change generation ends; it neither
leaks nor releases twice a reservation, just when no call is rejected while it holds
other outputs. -/
theorem generateChangeSdk_reservations (params : GenerateChangeSdkParams) (rates : ∀ size, 0 ≤ params.feeOfSize size) (pool : List Nat) (fuel : Nat)
    (picks : pool.length < fuel) (rounds : params.maxOutputs.toNat < fuel) (events : List ChangeEvent)
    (outcome : Except ChangeFailure GenerateChangeSdkResult) (offered : Program.Allows (Offered pool) events)
    (answered : (generateChangeSdk params fuel).Answers events outcome) :
    outcome ≠ .error .unfinished ∧ (ReservationsSettled events outcome ↔ RejectedAlone events) := by
  have ends := (generateChangeSdk_along rates picks rounds).of_allows answered offered
  match outcome with
  | .error .unfinished => exact ends.elim
  | .error (.thrown error) => exact ⟨by simp, ends⟩
  | .ok r =>
    exact ⟨by simp, iff_of_true ⟨ends.1.exact, ends.1.distinct, ends.1.once⟩ ends.2.alone⟩

/-- An output of 1000 satoshis, at one satoshi a kilobyte. -/
def sampleChangeParams : GenerateChangeSdkParams where
  fixedInputs := []
  fixedOutputs := [⟨1000, 25⟩]
  feeOfSize size := (size + 999) / 1000
  targetNetCount := none
  changeInitialSatoshis := 1000
  changeFirstSatoshis := 1
  changeLockingScriptLength := 25
  changeUnlockingScriptLength := 107
  maxChangeOutputs := none
  random _ := 0

theorem sampleChangeParams_rates (size : Nat) : 0 ≤ sampleChangeParams.feeOfSize size := by
  show (0 : Int) ≤ ((size : Int) + 999) / 1000
  omega

def allocation (targetSatoshis exactSatoshis : Int) (reply : Except WalletError (Option GenerateChangeSdkChangeInput)) : ChangeEvent :=
  ⟨.allocate targetSatoshis (some exactSatoshis), reply⟩

/-- One input is enough, and is kept. -/
theorem generateChangeSdk_reservations_sample :
    let events := [allocation 1003 1001 (.ok (some ⟨1, 5000⟩))]
    let r : GenerateChangeSdkResult := ⟨[⟨1, 5000⟩], [⟨3999, 25⟩], 226, 1, none⟩
    (generateChangeSdk sampleChangeParams 10).Answers events (.ok r) ∧ ReservationsSettled events (.ok r) := by
  intro events r
  have answered : (generateChangeSdk sampleChangeParams 10).Answers events (.ok r) := Program.answers_of_replay (by decide +kernel)
  have offered : Program.Allows (Offered [1, 2]) events := by
    apply Program.allows_one
    intro input given
    cases given
    decide
  refine ⟨answered, (generateChangeSdk_reservations sampleChangeParams sampleChangeParams_rates [1, 2] 10 (by decide) (by decide) events _ offered
    answered).2.mpr ?_⟩
  intro earlier last same rejected
  obtain ⟨rfl, rfl⟩ := append_singleton_inj.mp (show [] ++ [allocation 1003 1001 (.ok (some ⟨1, 5000⟩))] = earlier ++ [last] from same)
  cases rejected

/-- What the result spends is what it has: on the outputs, the change and the fee of its size. -/
structure Balances (params : GenerateChangeSdkParams) (r : GenerateChangeSdkResult) : Prop where
  spent : params.fixedFunding + (r.allocatedChangeInputs.map GenerateChangeSdkChangeInput.satoshis).sum =
    params.spending + (r.changeOutputs.map GenerateChangeSdkOutput.satoshis).sum + r.fee
  fee : r.fee = params.feeOfSize (params.sizeWith r.allocatedChangeInputs.length r.changeOutputs.length)
  above : AboveDust params r.changeOutputs
  few : r.changeOutputs.length ≤ params.maxOutputs.toNat

theorem Finishes.balances {params : GenerateChangeSdkParams} {plan : ChangePlan} (finished : Finishes params adjustment plan r)
    (few : plan.changeOutputs.length ≤ params.maxOutputs.toNat) : Balances params r := by
  have paid : params.fixedFunding + (r.allocatedChangeInputs.map GenerateChangeSdkChangeInput.satoshis).sum - params.spending -
    (r.changeOutputs.map GenerateChangeSdkOutput.satoshis).sum = r.fee := finished.paid
  refine ⟨by omega, ?_, finished.above, finished.outputs ▸ few⟩
  rw [finished.inputs, finished.outputs]
  exact finished.fee

/-- Change generation ends. Its result balances, with no change below the dust floor and no
more of it than there may be; it throws for its parameters, or for want of funds. -/
theorem generateChangeSdk_balances (params : GenerateChangeSdkParams) (rates : ∀ size, 0 ≤ params.feeOfSize size) (pool : List Nat) (fuel : Nat)
    (picks : pool.length < fuel) (rounds : params.maxOutputs.toNat < fuel) (events : List ChangeEvent)
    (outcome : Except ChangeFailure GenerateChangeSdkResult) (offered : Program.Allows (Offered pool) events)
    (answered : (generateChangeSdk params fuel).Answers events outcome) :
    (∃ r, outcome = .ok r ∧ Balances (params.adjusted r.maxPossibleSatoshisAdjustment) r) ∨ ∃ error, outcome = .error (.thrown error) ∧
      (Resolved events → validateGenerateChangeSdkParams params = .error error ∨ IsInsufficientFunds error) := by
  have along : (generateChangeSdk params fuel).Along (Offered pool) (EndsReserved
      (fun past error => Resolved past → validateGenerateChangeSdkParams params = .error error ∨ IsInsufficientFunds error)
      fun _ r => Balances (params.adjusted r.maxPossibleSatoshisAdjustment) r) [] := by
    refine generateChangeSdk_ends rejects_unresolved rates picks rounds (fun _ refused _ => .inl refused) (fun _ _ _ short _ => .inr short)
      fun past plan adjustment r _ few finished => ?_
    obtain rfl := finished.adjusted
    exact finished.balances (by cases r.maxPossibleSatoshisAdjustment <;> exact few)
  have ends := along.of_allows answered offered
  match outcome with
  | .ok r => exact .inl ⟨r, rfl, ends⟩
  | .error (.thrown error) => exact .inr ⟨error, rfl, ends⟩
  | .error .unfinished => exact ends.elim

/-- The input of 5000 satoshis pays for 1000, for the fee of one and for the change. -/
theorem generateChangeSdk_balances_sample : ∃ r, r.changeOutputs = [⟨3999, 25⟩] ∧ Balances (sampleChangeParams.adjusted r.maxPossibleSatoshisAdjustment) r := by
  have answered : (generateChangeSdk sampleChangeParams 10).Answers [allocation 1003 1001 (.ok (some ⟨1, 5000⟩))]
      (.ok ⟨[⟨1, 5000⟩], [⟨3999, 25⟩], 226, 1, none⟩) := Program.answers_of_replay (by decide +kernel)
  have offered : Program.Allows (Offered [1, 2]) [allocation 1003 1001 (.ok (some ⟨1, 5000⟩))] := by
    apply Program.allows_one
    intro input given
    cases given
    decide
  have returned := generateChangeSdk_balances sampleChangeParams sampleChangeParams_rates [1, 2] 10 (by decide) (by decide) _ _ offered answered
  rcases returned with ⟨r, same, balances⟩ | ⟨error, same, _⟩
  · cases same
    exact ⟨_, rfl, balances⟩
  · cases same

/-- The second allocation is rejected: the first output stays reserved. -/
theorem rejected_allocation_leaks : ¬ ∀ (params : GenerateChangeSdkParams) (pool : List Nat) (fuel : Nat) (events : List ChangeEvent)
    (outcome : Except ChangeFailure GenerateChangeSdkResult), (∀ size, 0 ≤ params.feeOfSize size) → Program.Allows (Offered pool) events →
    (generateChangeSdk params fuel).Answers events outcome → ReservationsSettled events outcome := by
  intro settles
  have answered : (generateChangeSdk sampleChangeParams 10).Answers
      ([allocation 1003 1001 (.ok (some ⟨1, 600⟩))] ++ [allocation 403 401 (.error (.error "unavailable"))])
      (.error (.thrown (.error "unavailable"))) := Program.answers_of_replay (by decide +kernel)
  have leaked := settles sampleChangeParams [1, 2] 10 _ _ sampleChangeParams_rates ?_ answered ⟨1, 600⟩ (.head _)
  · revert leaked
    decide
  · apply Program.Allows.append
    · apply Program.allows_one
      intro input given
      cases given
      decide
    · intro input given
      cases given

end WalletToolbox
