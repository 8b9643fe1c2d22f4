import WalletToolbox.Proofs.ChangeFunding

/-! Where the loops of change generation end, for any allocator of a pool that no one else
uses: they end short of funds only when the whole pool is taken and no change output is
left. -/

namespace WalletToolbox
open Async GenerateChangeSdkChangeInput

def isExhaustion : ChangeEvent → Bool
  | ⟨.allocate _ _, .ok none⟩ => true
  | _ => false

def RanOut (events : List ChangeEvent) : Prop := ∃ event ∈ events, isExhaustion event = true

def DrawsFrom (pool : List GenerateChangeSdkChangeInput) (past : List ChangeEvent) : ChangeEvent → Prop
  | ⟨.allocate _ _, .ok none⟩ => freeOf pool past = []
  | ⟨.allocate _ _, .ok (some input)⟩ => input ∈ freeOf pool past
  | _ => True

structure LoopsEnded (params : GenerateChangeSdkParams) (pool : List GenerateChangeSdkChangeInput) (plan : ChangePlan) : Prop where
  inside : ∀ input ∈ plan.allocatedChangeInputs, input ∈ pool
  above : AboveDust params plan.changeOutputs
  short : plan.feeExcess params < 0 → plan.changeOutputs = [] ∧ plan.allocatedChangeInputs.Perm pool

section
variable {params : GenerateChangeSdkParams} {pool : List GenerateChangeSdkChangeInput} {allowed : List ChangeEvent → ChangeEvent → Prop}

theorem reaching_bind {next : α → ChangeM β}
    (first : program.Along allowed (Reaching fun more value => (next value).Along allowed (Reaching reached) more) past) :
    (program >>= next).Along allowed (Reaching reached) past := by
  refine Program.Along.bind (first.mono fun more outcome reaches => ?_)
  match outcome with
  | .ok value => exact reaches value rfl
  | .error _ => exact fun _ same => (by cases same)

theorem releaseAll_reaching (plan) :
    (releaseAllocatedChangeInputs plan).Along allowed (Reaching fun more after => (RanOut more ↔ RanOut past) ∧ after = { plan with allocatedChangeInputs := [] }) past := by
  have releases : ∀ (inputs : List GenerateChangeSdkChangeInput) past,
      (releaseInputs inputs).Along allowed (Reaching fun more _ => RanOut more ↔ RanOut past) past := by
    intro inputs
    induction inputs with
    | nil => exact fun past _ _ => Iff.rfl
    | cons input rest ih =>
      intro past
      apply reaching_bind
      intro reply _
      match reply with
      | .error _ => exact fun _ same => (by cases same)
      | .ok () =>
        intro _ _
        show (releaseInputs rest).Along allowed (Reaching fun more _ => RanOut more ↔ RanOut past) (past ++ [⟨.release input.outputId, .ok ()⟩])
        refine (ih _).mono fun more outcome reaches value same => (reaches value same).trans ?_
        simp [RanOut, isExhaustion]
  refine reaching_bind ((releases _ past).mono fun more outcome reaches value same => ?_)
  intro _ done
  cases done
  exact ⟨reaches value same, rfl⟩

theorem fundingLoop_reaching (fuel : Nat) (plan) :
    (fundingLoop params removingOutputs fuel plan).Along allowed (Reaching fun more after =>
      (after.feeExcess params < 0 → RanOut more) ∧ (RanOut more → RanOut past ∨ after.feeExcess params < 0)) past := by
  induction fuel generalizing past plan with
  | zero => exact fun _ same => (by cases same)
  | succ fuel ih =>
    unfold fundingLoop
    split
    · next short =>
      apply reaching_bind
      unfold attemptToFundTransaction
      rw [if_neg (by omega)]
      apply reaching_bind
      intro reply _
      cases reply with
      | error _ => exact fun _ same => (by cases same)
      | ok allocated =>
        cases allocated with
        | none =>
          intro _ same
          cases same
          intro _ same
          cases same
          intro _ same
          cases same
          exact ⟨fun _ => ⟨_, List.mem_append_right _ (List.mem_singleton_self _), rfl⟩, fun _ => .inr short⟩
        | some input =>
          intro _ same
          cases same
          intro _ same
          cases same
          refine (ih _).mono fun more outcome reaches value same => ?_
          obtain ⟨out, ran⟩ := reaches value same
          refine ⟨out, fun now => (ran now).imp_left ?_⟩
          simp [RanOut, isExhaustion]
    · next funded =>
      intro _ same
      cases same
      exact ⟨fun short => absurd short funded, .inl⟩

theorem starvationLoop_out (plan) :
    (starvationLoop params fuel rounds removingOutputs plan).Along allowed (Reaching fun more after => after.feeExcess params < 0 → RanOut more) past := by
  induction rounds generalizing removingOutputs past plan with
  | zero => exact fun _ same => (by cases same)
  | succ rounds ih =>
    unfold starvationLoop
    refine reaching_bind (Program.along_always (fun more outcome released _ => ?_) _)
    refine reaching_bind ((fundingLoop_reaching fuel released).mono fun later outcome reaches funded same => ?_)
    obtain ⟨out, _⟩ := reaches funded same
    split
    · intro _ same
      cases same
      exact out
    · next goesOn =>
      obtain ⟨short, _⟩ := not_or.mp goesOn
      dsimp only
      split
      · intro _ same _
        exact out (not_le.mp short)
      · exact ih _

theorem DrawsFrom.offered (draws : DrawsFrom pool past event) :
    Offered (pool.map outputId) past event := by
  intro input given
  match event with
  | ⟨.allocate _ _, .ok (some other)⟩ =>
    cases given
    have free : input ∈ freeOf pool past := draws
    obtain ⟨inside, kept⟩ := List.mem_filter.mp free
    exact ⟨List.mem_map_of_mem inside, by simpa using kept⟩

variable (draws : ∀ past event, allowed past event → DrawsFrom pool past event)
include draws

theorem draws_rounds (distinct : (pool.map outputId).Nodup) :
    Rounds params allowed (pool.map outputId)
      (fun _ outputs => AboveDust params outputs ∧ outputs.length ≤ params.maxOutputs.toNat)
      (fun _ plan => (∀ input ∈ plan.allocatedChangeInputs, input ∈ pool) ∧
        AboveDust params plan.changeOutputs ∧ plan.changeOutputs.length ≤ params.maxOutputs.toNat)
      (LoopsEnded params pool) where
  enter _ _ start := ⟨fun _ member => (by cases member), start⟩
  adds removing past plan input ao targetSatoshis exactSatoshis inv short permitted := by
    have free := draws _ _ permitted
    refine ⟨fun other member => ?_, (@rounds_aboveDust params (pool.map outputId) _).adds removing past plan input ao targetSatoshis exactSatoshis inv.2 short permitted⟩
    rw [maybeAddChangeOutput_inputs] at member
    rcases List.mem_append.mp member with earlier | last
    · exact inv.1 other earlier
    · rw [List.mem_singleton.mp last]
      exact List.mem_of_mem_filter free
  bounded _ _ inv := inv.2.2
  done _ plan inv stops exceeds := by
    refine ⟨inv.1, inv.2.1, fun short => ⟨exceeds.resolve_left (not_le.mpr short), ?_⟩⟩
    exact taken_whole (fun past _ _ none => draws past _ none) distinct (stops.resolve_left (not_le.mpr short)) inv.1
  starved removing plan inv exhausted starving some still := by
    refine ⟨inv.1, ((@rounds_aboveDust params (pool.map outputId) _).starved removing plan inv.2 exhausted starving some still).1, fun short => ⟨?_, ?_⟩⟩
    · rcases @dropUnfunded_funded params plan.allocatedChangeInputs plan.changeOutputs.reverse with nothing | funded
      · rw [ChangePlan.starved, nothing]
        rfl
      · exact absurd short (not_lt.mpr funded)
    · exact taken_whole (fun past _ _ none => draws past _ none) distinct exhausted inv.1
  again removing plan inv exhausted short some kept := (@rounds_aboveDust params (pool.map outputId) _).again removing plan inv.2 exhausted short some kept

theorem generateChangeSdk_settles
    (rejects : ThrowsRejected allowed thrown) (distinct : (pool.map outputId).Nodup)
    (valid : validateGenerateChangeSdkParams params = .ok maxPossible) (picks : pool.length < fuel) (rounds : params.maxOutputs.toNat < fuel)
    (reaches : (starvationLoop params fuel fuel false (wantedChangeOutputs params params.maxOutputs.toNat ⟨[], []⟩)).Along allowed (Reaching reached) [])
    (settles : ∀ past plan, InHand (pool.map outputId) past plan.allocatedChangeInputs → LoopsEnded params pool plan →
      reached past plan → (settlePlan params maxPossible plan).Along allowed (EndsReserved thrown good) past) :
    (generateChangeSdk params fuel).Along allowed (EndsReserved thrown good) [] :=
  generateChangeSdk_rounds (fun past event permitted => (draws past event permitted).offered) rejects (draws_rounds draws distinct) wanted_aboveDust
    (by simpa using picks) rounds valid reaches settles

end

end WalletToolbox
