import Mathlib.Data.List.Forall2

/-! Methods of an object that may throw: what they changed before the throw stays changed. -/

namespace Effects

variable {ε σ α β : Type}

section
variable {value : α} {error : ε} {next : α → Except ε β}

@[simp] theorem ok_bind : (Except.ok value >>= next : Except ε β) = next value := rfl
@[simp] theorem error_bind : (Except.error error >>= next : Except ε β) = .error error := rfl

theorem bind_eq_ok :
    (result >>= next) = .ok final ↔ ∃ value, result = .ok value ∧ next value = .ok final := by
  cases result <;> simp

theorem bind_eq_error :
    (result >>= next) = .error error ↔ result = .error error ∨ ∃ value, result = .ok value ∧ next value = .error error := by
  cases result <;> simp

theorem forM_error {each : α → Except ε Unit} {values : List α} (refused : values.forM each = .error error) :
    ∃ value ∈ values, each value = .error error := by
  induction values with
  | nil => cases refused
  | cons first rest ih =>
    rcases bind_eq_error.mp (show (each first >>= fun _ => rest.forM each) = .error error from refused) with here | ⟨_, _, later⟩
    · exact ⟨first, .head _, here⟩
    · obtain ⟨value, member, same⟩ := ih later
      exact ⟨value, .tail _ member, same⟩

end

theorem mapM_ok {each : α → Except ε β} (mapped : values.mapM each = .ok results) :
    List.Forall₂ (fun value result => each value = .ok result) values results := by
  induction values generalizing results with
  | nil =>
    cases mapped
    exact .nil
  | cons first rest ih =>
    rw [List.mapM_cons] at mapped
    obtain ⟨one, ran, mapped⟩ := bind_eq_ok.mp mapped
    obtain ⟨others, later, same⟩ := bind_eq_ok.mp mapped
    cases same
    exact .cons ran (ih later)

def Fallible (ε σ α : Type) : Type := σ → Except ε α × σ

namespace Fallible

instance : Monad (Fallible ε σ) where
  pure value := fun state => (.ok value, state)
  bind method next := fun state =>
    match method state with
    | (.ok value, after) => next value after
    | (.error error, after) => (.error error, after)

def current : Fallible ε σ σ := fun state => (.ok state, state)

def change (f : σ → σ) : Fallible ε σ Unit := fun state => (.ok (), f state)

def throws (error : ε) : Fallible ε σ α := fun state => (.error error, state)

def ofExcept : Except ε α → Fallible ε σ α
  | .ok value => pure value
  | .error error => throws error

def require (condition : Prop) [Decidable condition] (error : ε) : Fallible ε σ Unit :=
  if condition then pure () else throws error

def Ensures (method : Fallible ε σ α) (state : σ) (post : α → σ → Prop) (failed : σ → Prop) : Prop :=
  match method state with
  | (.ok value, after) => post value after
  | (.error _, after) => failed after

variable {state : σ} {post : α → σ → Prop} {failed : σ → Prop}

@[simp] theorem pure_apply (value : α) : (pure value : Fallible ε σ α) state = (.ok value, state) := rfl

@[simp] theorem current_apply : (current : Fallible ε σ σ) state = (.ok state, state) := rfl

@[simp] theorem change_apply (f : σ → σ) : (change f : Fallible ε σ Unit) state = (.ok (), f state) := rfl

@[simp] theorem throws_apply (error : ε) : (throws error : Fallible ε σ α) state = (.error error, state) := rfl

theorem bind_apply (method) (next : α → Fallible ε σ β) :
    (method >>= next) state = match method state with
      | (.ok value, after) => next value after
      | (.error error, after) => (.error error, after) := rfl

theorem bind_of_ok {method : Fallible ε σ α}
    (run : method state = (.ok value, after)) : (method >>= next) state = next value after := by
  rw [bind_apply, run]

theorem bind_of_error {method : Fallible ε σ α}
    (run : method state = (.error error, after)) : (method >>= next) state = (.error error, after) := by
  rw [bind_apply, run]

theorem ofExcept_bind_apply (result) (next : α → Fallible ε σ β) :
    (ofExcept result >>= next) state = match result with
      | .ok value => next value state
      | .error error => (.error error, state) := by
  cases result <;> rfl

@[simp] theorem ofExcept_ok_bind_apply (value : α) (next : α → Fallible ε σ β) : (ofExcept (.ok value) >>= next) state = next value state := rfl

theorem ofExcept_change_ok {f : α → σ → σ} :
    (ofExcept result >>= fun value => change (f value)) state = (.ok (), after) ↔ ∃ value, result = .ok value ∧ after = f value state := by
  cases result with
  | ok value =>
    constructor
    · intro ran
      exact ⟨value, rfl, (Prod.mk.inj ran).2.symm⟩
    · rintro ⟨_, same, rfl⟩
      cases same
      rfl
  | error error =>
    constructor
    · intro ran
      cases (Prod.mk.inj ran).1
    · rintro ⟨_, same, -⟩
      cases same

theorem bind_ok {method : Fallible ε σ α}
    (run : (method >>= next) state = (.ok value, after)) :
    ∃ first middle, method state = (.ok first, middle) ∧ next first middle = (.ok value, after) := by
  rw [bind_apply] at run
  split at run
  next first middle ran => exact ⟨first, middle, ran, run⟩
  next => simp at run

@[simp] theorem pure_bind_apply (value : α) (next : α → Fallible ε σ β) : (pure value >>= next) state = next value state := rfl

@[simp] theorem current_bind_apply (next : σ → Fallible ε σ β) : (current >>= next) state = next state state := rfl

@[simp] theorem change_bind_apply (f : σ → σ) (next : Unit → Fallible ε σ β) : (change f >>= next) state = next () (f state) := rfl

theorem require_met [Decidable condition] (met : condition) :
    (require condition error >>= next) state = next () state := by
  rw [require, if_pos met]
  rfl

theorem require_unmet [Decidable condition] (unmet : ¬condition) :
    (require condition error >>= next) state = (.error error, state) := by
  rw [require, if_neg unmet]
  rfl

theorem require_bind_ok [Decidable condition]
    (run : (require condition error >>= next) state = (.ok value, after)) : condition ∧ next () state = (.ok value, after) := by
  obtain ⟨_, middle, ran, run⟩ := bind_ok run
  unfold require at ran
  split at ran
  next met =>
    obtain ⟨-, same⟩ := Prod.mk.inj ran
    exact ⟨met, same ▸ run⟩
  next => simp at ran

theorem require_ok [Decidable condition]
    (run : (require condition error : Fallible ε σ Unit) state = (.ok value, after)) : condition ∧ after = state := by
  unfold require at run
  split at run
  next met => exact ⟨met, (Prod.mk.inj run).2.symm⟩
  next => simp at run

theorem ensures_pure : Ensures (pure value : Fallible ε σ α) state post failed ↔ post value state := Iff.rfl

theorem ensures_current {post} : Ensures (current : Fallible ε σ σ) state post failed ↔ post state state := Iff.rfl

theorem ensures_change {f post} :
    Ensures (change f : Fallible ε σ Unit) state post failed ↔ post () (f state) := Iff.rfl

theorem ensures_throws : Ensures (throws error : Fallible ε σ α) state post failed ↔ failed state := Iff.rfl

theorem ensures_require [Decidable condition] {error post}
    (holds : condition → post () state) (fails : ¬condition → failed state) :
    Ensures (require condition error : Fallible ε σ Unit) state post failed := by
  unfold require
  split
  next met => exact holds met
  next unmet => exact fails unmet

theorem Ensures.bind {method : Fallible ε σ α} {next : α → Fallible ε σ β} {post}
    (first : Ensures method state (fun value after => Ensures (next value) after post failed) failed) :
    Ensures (method >>= next) state post failed := by
  unfold Ensures at first ⊢
  rw [bind_apply]
  cases ran : method state with
  | mk outcome after =>
    rw [ran] at first
    cases outcome with
    | error => exact first
    | ok value => exact first

theorem Ensures.mono (ensures : Ensures method state post failed)
    (implies : ∀ value after, post value after → weaker value after) (spoils : ∀ after, failed after → worse after) :
    Ensures method state weaker worse := by
  unfold Ensures at ensures ⊢
  cases ran : method state with
  | mk outcome after =>
    rw [ran] at ensures
    cases outcome with
    | error => exact spoils _ ensures
    | ok value => exact implies _ _ ensures

theorem Ensures.ok (ensures : Ensures method state post failed)
    (run : method state = (.ok value, after)) : post value after := by
  unfold Ensures at ensures
  rwa [run] at ensures

theorem Ensures.of_run (run : method state = (.ok value, after))
    (holds : post value after) : Ensures method state post failed := by
  unfold Ensures
  rwa [run]

theorem ensures_of_run {method : Fallible ε σ α}
    (ok : ∀ value after, method state = (.ok value, after) → post value after)
    (error : ∀ error after, method state = (.error error, after) → failed after) : Ensures method state post failed := by
  unfold Ensures
  cases run : method state with
  | mk outcome after =>
    cases outcome with
    | error thrown => exact error thrown after run
    | ok value => exact ok value after run

end Fallible

end Effects
