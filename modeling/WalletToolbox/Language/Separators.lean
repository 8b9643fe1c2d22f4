import Mathlib.Data.List.Basic

/-! Fields that are written one after the other with a separator between them. Such a text does
not say where a field ends when fields may hold the separator themselves. -/

namespace WalletToolbox.Text

def RunsOn (separator first rest second after : String) : Prop :=
  ∃ more, second = first ++ separator ++ more ∧ rest = more ++ separator ++ after

theorem cut_lists (same : a ++ mark :: s = b ++ mark :: t) :
    (a = b ∧ s = t) ∨ (∃ more, b = a ++ mark :: more ∧ s = more ++ mark :: t) ∨ ∃ more, a = b ++ mark :: more ∧ t = more ++ mark :: s := by
  rcases List.append_eq_append_iff.mp same with ⟨more, longer, rest⟩ | ⟨more, longer, rest⟩
  · cases more with
    | nil => exact .inl ⟨by simpa using longer.symm, by simpa using rest⟩
    | cons head more =>
      rw [List.cons_append] at rest
      obtain ⟨rfl, onward⟩ := List.cons.inj rest
      exact .inr (.inl ⟨more, longer, onward⟩)
  · cases more with
    | nil => exact .inl ⟨by simpa using longer, by simpa using rest.symm⟩
    | cons head more =>
      rw [List.cons_append] at rest
      obtain ⟨rfl, onward⟩ := List.cons.inj rest
      exact .inr (.inr ⟨more, longer, onward⟩)

section
variable {separator a s b t : String}

theorem RunsOn.ne (onward : RunsOn separator a s b t) (written : separator ≠ "") : a ≠ b := by
  rintro rfl
  obtain ⟨more, longer, _⟩ := onward
  have lengths := congrArg String.length longer
  simp only [String.length_append] at lengths
  have empty : separator.length = 0 := by omega
  exact written (String.length_eq_zero_iff.mp empty)

theorem RunsOn.text (onward : RunsOn separator a s b t) : a ++ separator ++ s = b ++ separator ++ t := by
  obtain ⟨more, rfl, rfl⟩ := onward
  simp only [String.append_assoc]

theorem not_runsOn (single : separator.toList = [mark]) (without : mark ∉ b.toList) : ¬ RunsOn separator a s b t := by
  rintro ⟨more, rfl, _⟩
  apply without
  simp [String.toList_append, single]

theorem cut (single : separator.toList = [mark]) : a ++ separator ++ s = b ++ separator ++ t ↔
    (a = b ∧ s = t) ∨ RunsOn separator a s b t ∨ RunsOn separator b t a s := by
  constructor
  · intro same
    have lists := congrArg String.toList same
    simp only [String.toList_append, single, List.append_assoc, List.singleton_append] at lists
    rcases cut_lists lists with ⟨fields, rests⟩ | ⟨more, longer, rest⟩ | ⟨more, longer, rest⟩
    · exact .inl ⟨String.toList_injective fields, String.toList_injective rests⟩
    · refine .inr (.inl ⟨String.ofList more, String.toList_injective ?_, String.toList_injective ?_⟩)
      · simpa [String.toList_append, single] using longer
      · simpa [String.toList_append, single] using rest
    · refine .inr (.inr ⟨String.ofList more, String.toList_injective ?_, String.toList_injective ?_⟩)
      · simpa [String.toList_append, single] using longer
      · simpa [String.toList_append, single] using rest
  · rintro (⟨rfl, rfl⟩ | onward | onward)
    · rfl
    · exact onward.text
    · exact onward.text.symm

theorem cut_plain (single : separator.toList = [mark]) (first : mark ∉ a.toList) (second : mark ∉ b.toList) :
    a ++ separator ++ s = b ++ separator ++ t ↔ a = b ∧ s = t := by
  rw [cut single]
  simp [not_runsOn single first, not_runsOn single second]

end

end WalletToolbox.Text
