import Mathlib.Logic.Function.Basic

/-! Numbers allotted in ranges from a counter that only rises. A holder hands out the
numbers of its range one by one; what is left of a range may be passed on or dropped. -/

namespace Async

structure NumberRange where
  first : Nat
  last : Nat

structure Allotment (κ : Type) where
  counter : Nat
  range : κ → Option NumberRange

namespace Allotment
variable {κ : Type} {allotment less : Allotment κ} {used : Nat → Prop}

def Holds (allotment : Allotment κ) (holder : κ) (n : Nat) : Prop :=
  ∃ range, allotment.range holder = some range ∧ range.first ≤ n ∧ n ≤ range.last

/-- No number is held twice, and none that is used is held. -/
structure Sound (allotment : Allotment κ) (used : Nat → Prop) : Prop where
  below : ∀ holder n, allotment.Holds holder n → n ≤ allotment.counter
  apart : ∀ holder other n, allotment.Holds holder n → allotment.Holds other n → holder = other
  usedBelow : ∀ n, used n → n ≤ allotment.counter
  unused : ∀ holder n, allotment.Holds holder n → ¬ used n

theorem sound_empty : Sound (⟨0, fun _ => none⟩ : Allotment κ) fun _ => False where
  below _ _ holds := by
    obtain ⟨_, none, _⟩ := holds
    cases none
  apart _ _ _ holds := by
    obtain ⟨_, none, _⟩ := holds
    cases none
  usedBelow _ is := is.elim
  unused _ _ _ is := is

theorem Sound.fewer (sound : allotment.Sound used) (same : less.counter = allotment.counter)
    (subset : ∀ holder n, less.Holds holder n → allotment.Holds holder n) : less.Sound used where
  below holder n holds := same ▸ sound.below holder n (subset holder n holds)
  apart holder other n first second := sound.apart holder other n (subset holder n first) (subset other n second)
  usedBelow n is := same ▸ sound.usedBelow n is
  unused holder n holds := sound.unused holder n (subset holder n holds)

theorem Sound.use (sound : allotment.Sound used) {number} (below : number ≤ allotment.counter)
    (free : ∀ holder, ¬ allotment.Holds holder number) : allotment.Sound fun n => used n ∨ n = number where
  below := sound.below
  apart := sound.apart
  usedBelow n is := by
    rcases is with is | rfl
    · exact sound.usedBelow n is
    · exact below
  unused holder n holds is := by
    rcases is with is | rfl
    · exact sound.unused holder n holds is
    · exact free holder holds

variable [DecidableEq κ]

theorem holds_update {counter : Nat} {range : κ → Option NumberRange} :
    Holds ⟨counter, Function.update range holder given⟩ other n ↔
      if other = holder then ∃ r, given = some r ∧ r.first ≤ n ∧ n ≤ r.last else Holds ⟨counter, range⟩ other n := by
  unfold Holds
  dsimp only
  by_cases same : other = holder
  · subst same
    rw [if_pos rfl, Function.update_self]
  · rw [if_neg same, Function.update_of_ne same]

theorem Sound.reserve (sound : allotment.Sound used) (holder : κ) (amount : Nat) :
    Sound ⟨allotment.counter + amount, Function.update allotment.range holder (some ⟨allotment.counter + 1, allotment.counter + amount⟩)⟩ used := by
  have cases : ∀ other n, Holds ⟨allotment.counter + amount,
      Function.update allotment.range holder (some ⟨allotment.counter + 1, allotment.counter + amount⟩)⟩ other n →
      other = holder ∧ allotment.counter < n ∧ n ≤ allotment.counter + amount ∨ allotment.Holds other n ∧ n ≤ allotment.counter := by
    intro other n holds
    rw [holds_update] at holds
    split at holds
    · next same =>
      obtain ⟨r, is, first, last⟩ := holds
      cases is
      exact .inl ⟨same, first, last⟩
    · exact .inr ⟨holds, sound.below other n holds⟩
  constructor
  · intro other n holds
    rcases cases other n holds with ⟨_, _, last⟩ | ⟨_, before⟩
    · exact last
    · exact Nat.le_add_right_of_le before
  · intro first second n one two
    rcases cases first n one with ⟨here, above, _⟩ | ⟨before, under⟩
    · rcases cases second n two with ⟨there, _, _⟩ | ⟨_, under⟩
      · rw [here, there]
      · omega
    · rcases cases second n two with ⟨_, above, _⟩ | ⟨also, _⟩
      · omega
      · exact sound.apart first second n before also
  · intro n is
    exact Nat.le_add_right_of_le (sound.usedBelow n is)
  · intro other n holds is
    have before := sound.usedBelow n is
    rcases cases other n holds with ⟨_, above, _⟩ | ⟨held, _⟩
    · omega
    · exact sound.unused other n held is

theorem Sound.take (sound : allotment.Sound used) {holder : κ} {range : NumberRange} (has : allotment.range holder = some range)
    (left : range.first ≤ range.last) :
    Sound ⟨allotment.counter, Function.update allotment.range holder (some ⟨range.first + 1, range.last⟩)⟩ (fun n => used n ∨ n = range.first) ∧
      ¬ used range.first := by
  have held : allotment.Holds holder range.first := ⟨range, has, Nat.le_refl _, left⟩
  have subset : ∀ other n, Holds ⟨allotment.counter, Function.update allotment.range holder (some ⟨range.first + 1, range.last⟩)⟩ other n →
      allotment.Holds other n ∧ n ≠ range.first := by
    intro other n holds
    rw [holds_update] at holds
    split at holds
    · next same =>
      obtain ⟨r, is, first, last⟩ := holds
      cases is
      dsimp only at first last
      exact ⟨⟨range, same ▸ has, by omega, last⟩, by omega⟩
    · next other' =>
      refine ⟨holds, fun same => other' ?_⟩
      exact sound.apart other holder n holds (same ▸ held)
  have fewer : Sound ⟨allotment.counter, Function.update allotment.range holder (some ⟨range.first + 1, range.last⟩)⟩ used :=
    sound.fewer rfl fun other n holds => (subset other n holds).1
  refine ⟨fewer.use (sound.below holder _ held) fun other holds => (subset other _ holds).2 rfl, sound.unused holder _ held⟩

/-- A range is passed on; what the new holder had is dropped. -/
theorem Sound.pass (sound : allotment.Sound used) (giver taker) :
    Sound ⟨allotment.counter, Function.update (Function.update allotment.range giver none) taker (allotment.range giver)⟩ used := by
  have cases : ∀ other n, Holds ⟨allotment.counter,
      Function.update (Function.update allotment.range giver none) taker (allotment.range giver)⟩ other n →
      other = taker ∧ allotment.Holds giver n ∨ other ≠ giver ∧ allotment.Holds other n := by
    intro other n holds
    rw [holds_update] at holds
    split at holds
    · next same => exact .inl ⟨same, holds⟩
    · rw [holds_update] at holds
      split at holds
      · obtain ⟨_, none, _⟩ := holds
        cases none
      · next apart => exact .inr ⟨apart, holds⟩
  constructor
  · intro other n holds
    rcases cases other n holds with ⟨_, held⟩ | ⟨_, held⟩
    · exact sound.below giver n held
    · exact sound.below other n held
  · intro first second n one two
    rcases cases first n one with ⟨here, held⟩ | ⟨not, held⟩
    · rcases cases second n two with ⟨there, _⟩ | ⟨not, also⟩
      · rw [here, there]
      · exact absurd (sound.apart second giver n also held) not
    · rcases cases second n two with ⟨_, also⟩ | ⟨_, also⟩
      · exact absurd (sound.apart first giver n held also) not
      · exact sound.apart first second n held also
  · exact sound.usedBelow
  · intro other n holds
    rcases cases other n holds with ⟨_, held⟩ | ⟨_, held⟩
    · exact sound.unused giver n held
    · exact sound.unused other n held

end Allotment

end Async
