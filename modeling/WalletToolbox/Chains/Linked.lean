import Mathlib.Data.List.Induction

/-! Sequences of items in which each names the key of the one before it. -/

namespace Chains

variable {α κ : Type}

inductive Linked (previous hash : α → κ) : κ → List α → κ → Prop
  | nil (key : κ) : Linked previous hash key [] key
  | cons {start last : κ} {item : α} {items : List α} (follows : previous item = start)
      (rest : Linked previous hash (hash item) items last) : Linked previous hash start (item :: items) last

variable {previous hash : α → κ} {start middle last : κ} {items more : List α}

theorem Linked.append (first : Linked previous hash start items middle) (second : Linked previous hash middle more last) :
    Linked previous hash start (items ++ more) last := by
  induction first with
  | nil => exact second
  | cons follows _ ih => exact .cons follows (ih second)

theorem Linked.split (linked : Linked previous hash start (items ++ more) last) :
    ∃ middle, Linked previous hash start items middle ∧ Linked previous hash middle more last := by
  induction items generalizing start with
  | nil => exact ⟨start, .nil start, linked⟩
  | cons item items ih =>
    cases linked with
    | cons follows rest =>
      obtain ⟨middle, first, second⟩ := ih rest
      exact ⟨middle, .cons follows first, second⟩

theorem Linked.end_unique (linked : Linked previous hash start items last)
    (also : Linked previous hash start items other) : last = other := by
  induction linked with
  | nil => cases also; rfl
  | cons _ _ ih =>
    cases also with
    | cons _ rest => exact ih rest

theorem linked_concat :
    Linked previous hash start (items ++ [item]) last ↔ Linked previous hash start items (previous item) ∧ last = hash item := by
  constructor
  · intro linked
    obtain ⟨middle, first, second⟩ := linked.split
    cases second with
    | cons follows rest =>
      cases rest
      exact ⟨follows ▸ first, rfl⟩
  · intro ⟨first, same⟩
    exact first.append (same ▸ .cons rfl (.nil _))

theorem Linked.neighbours (linked : Linked previous hash start items last)
    (here : items[index]? = some item) (after : items[index + 1]? = some next) : previous next = hash item := by
  induction linked generalizing index with
  | nil => simp at here
  | cons _ rest ih =>
    cases index with
    | succ index => exact ih (by simpa using here) (by simpa using after)
    | zero =>
      cases rest with
      | nil => simp at after
      | cons follows _ =>
        simp only [List.getElem?_cons_zero, Option.some.injEq] at here
        simp only [Nat.zero_add, List.getElem?_cons_succ, List.getElem?_cons_zero, Option.some.injEq] at after
        rw [← after, ← here, follows]

section Rooted
variable (injective : ∀ one other, hash one = hash other → one = other) {root : κ} (unhashed : ∀ item, hash item ≠ root)
include injective unhashed

theorem Linked.unique (linked : Linked previous hash root items last)
    (also : Linked previous hash root others last) : items = others := by
  induction items using List.reverseRecOn generalizing others last with
  | nil =>
    cases linked
    rcases List.eq_nil_or_concat others with rfl | ⟨init, item, rfl⟩
    · rfl
    · exact absurd (linked_concat.mp (by simpa using also)).2.symm (unhashed item)
  | append_singleton items item ih =>
    obtain ⟨before, same⟩ := linked_concat.mp linked
    rcases List.eq_nil_or_concat others with rfl | ⟨init, other, rfl⟩
    · cases also
      exact absurd same.symm (unhashed item)
    · obtain ⟨prior, alike⟩ := linked_concat.mp (by simpa using also)
      have equal := injective item other (same.symm.trans alike)
      subst equal
      rw [ih before prior, List.concat_eq_append]

theorem Linked.position
    (linked : Linked previous hash root (front ++ item :: back) last)
    (also : Linked previous hash root (front' ++ item :: back') end') : front = front' := by
  obtain ⟨key, first, second⟩ := linked.split
  obtain ⟨key', first', second'⟩ := also.split
  cases second with
  | cons follows _ =>
    cases second' with
    | cons alike _ =>
      rw [← alike, follows] at first'
      exact Linked.unique injective unhashed first first'

end Rooted

end Chains
