import WalletToolbox.Chaintracks.BulkFileDataReader
import Mathlib.Data.Int.ConditionallyCompleteOrder
import Mathlib.Data.Int.Interval
import Mathlib.Order.ConditionallyCompleteLattice.Basic

/-! A range of heights stands for the integers between its bounds. -/

namespace WalletToolbox.Chaintracks.HeightRange

noncomputable def heights (range : HeightRange) : Finset Int := Finset.Icc range.minHeight range.maxHeight

def IsRange (heights : Finset Int) : Prop := ∃ range : HeightRange, range.heights = heights

/-- The operation yields these heights, or throws because no range has them. -/
def Settles (result : Except String HeightRange) (heights : Finset Int) : Prop :=
  match result with
  | .ok range => range.heights = heights
  | .error _ => ¬IsRange heights

structure SetOperations (range other : HeightRange) : Prop where
  intersect : (range.intersect other).heights = range.heights ∩ other.heights
  union : Settles (range.union other) (range.heights ∪ other.heights)
  subtract : Settles (range.subtract other) (range.heights \ other.heights)
  above : (range.above other).heights = range.heights.filter fun height => ∀ below ∈ other.heights, below < height
  contains : range.containsRange other = true ↔ other.heights ⊆ range.heights
  containsHeight : ∀ height, range.contains height = true ↔ height ∈ range.heights
  length : range.length = range.heights.card

section
variable {range other : HeightRange}

@[simp] theorem mem_heights : height ∈ range.heights ↔ range.minHeight ≤ height ∧ height ≤ range.maxHeight := Finset.mem_Icc

theorem isEmpty_iff : range.isEmpty = true ↔ range.maxHeight < range.minHeight := decide_eq_true_iff

theorem IsRange.between {heights} (isRange : IsRange heights) (first last height) (low : first ∈ heights) (high : last ∈ heights)
    (after : first ≤ height) (before : height ≤ last) : height ∈ heights := by
  obtain ⟨range, rfl⟩ := isRange
  rw [mem_heights] at *
  omega

theorem union_settles : Settles (range.union other) (range.heights ∪ other.heights) := by
  unfold union
  split
  next empty =>
    rw [isEmpty_iff] at empty
    ext height
    simp only [Finset.mem_union, mem_heights]
    omega
  next filled =>
    split
    next empty =>
      rw [isEmpty_iff] at empty
      ext height
      simp only [Finset.mem_union, mem_heights]
      omega
    next others =>
      rw [isEmpty_iff] at filled others
      split
      next gap =>
        intro isRange
        -- the height next to the lower range lies in the gap
        rcases gap with gap | gap
        · have inside := isRange.between range.maxHeight other.minHeight (range.maxHeight + 1)
          simp only [Finset.mem_union, mem_heights] at inside
          omega
        · have inside := isRange.between other.maxHeight range.minHeight (other.maxHeight + 1)
          simp only [Finset.mem_union, mem_heights] at inside
          omega
      next touching =>
        ext height
        simp only [Finset.mem_union, mem_heights]
        omega

theorem subtract_settles : Settles (range.subtract other) (range.heights \ other.heights) := by
  unfold subtract
  simp only [isEmpty_iff]
  split
  next empty =>
    ext height
    simp only [Finset.mem_sdiff, mem_heights]
    omega
  next filled =>
    split
    next inside =>
      intro isRange
      have between := isRange.between range.minHeight range.maxHeight other.minHeight
      simp only [Finset.mem_sdiff, mem_heights] at between
      omega
    next =>
      repeat' split
      all_goals first
        | (ext height; simp only [Finset.mem_sdiff, mem_heights]; omega)
        | omega

theorem above_heights (near : range.isEmpty = true ∨ other.isEmpty = true ∨ range.minHeight ≤ other.maxHeight + 1) :
    (range.above other).heights = range.heights.filter fun height => ∀ below ∈ other.heights, below < height := by
  simp only [isEmpty_iff] at near
  ext height
  rw [Finset.mem_filter]
  unfold above
  simp only [isEmpty_iff]
  split
  next empty =>
    refine ⟨fun inside => ⟨inside, fun below member => ?_⟩, And.left⟩
    rw [mem_heights] at inside member
    omega
  next filled =>
    have top : other.maxHeight ∈ other.heights := mem_heights.mpr (by omega)
    constructor
    · intro inside
      simp only [mem_heights] at inside
      refine ⟨mem_heights.mpr (by omega), fun below member => ?_⟩
      rw [mem_heights] at member
      omega
    · rintro ⟨inside, beyond⟩
      have later := beyond _ top
      simp only [mem_heights] at inside ⊢
      omega

theorem above_apart (filled : range.minHeight ≤ range.maxHeight) (others : other.minHeight ≤ other.maxHeight)
    (apart : other.maxHeight + 1 < range.minHeight) :
    (range.above other).heights ≠ range.heights.filter fun height => ∀ below ∈ other.heights, below < height := by
  intro same
  have outside : other.maxHeight + 1 ∈ (range.above other).heights := by
    unfold above
    rw [if_neg (by simp only [isEmpty_iff]; omega)]
    simp only [mem_heights]
    omega
  rw [same, Finset.mem_filter, mem_heights] at outside
  omega

theorem containsRange_iff : range.containsRange other = true ↔ range.minHeight ≤ other.minHeight ∧ other.maxHeight ≤ range.maxHeight := by
  simp [containsRange]

theorem containsRange_subset (filled : other.minHeight ≤ other.maxHeight) : range.containsRange other = true ↔ other.heights ⊆ range.heights := by
  rw [containsRange_iff, heights, heights, Finset.Icc_subset_Icc_iff filled]

/-- The operations are those of sets, except that `above` of a range that does not reach up to
this one adds the heights between them, and an empty range is looked for by its bounds. -/
theorem setOperations_iff (range other) : SetOperations range other ↔
    (range.isEmpty = true ∨ other.isEmpty = true ∨ range.minHeight ≤ other.maxHeight + 1) ∧
      (other.isEmpty = true → range.minHeight ≤ other.minHeight ∧ other.maxHeight ≤ range.maxHeight) := by
  constructor
  · intro operations
    refine ⟨?_, fun empty => ?_⟩
    · by_contra apart
      simp only [isEmpty_iff] at apart
      exact above_apart (by omega) (by omega) (by omega) operations.above
    · rw [← containsRange_iff, operations.contains, heights, Finset.Icc_eq_empty (by rw [isEmpty_iff] at empty; omega)]
      exact Finset.empty_subset _
  · rintro ⟨near, bounds⟩
    refine ⟨?_, union_settles, subtract_settles, above_heights near, ?_, fun height => ?_, ?_⟩
    · ext height
      simp only [intersect, Finset.mem_inter, mem_heights]
      omega
    · by_cases empty : other.isEmpty = true
      · rw [containsRange_iff, heights, Finset.Icc_eq_empty (by rw [isEmpty_iff] at empty; omega)]
        exact iff_of_true (bounds empty) (Finset.empty_subset _)
      · exact containsRange_subset (by rw [isEmpty_iff] at empty; omega)
    · simp [contains]
    · rw [heights, Int.card_Icc, length]
      congr 1
      omega

theorem above_adds_heights : ¬∀ range other : HeightRange, SetOperations range other := fun all =>
  absurd (all ⟨10, 20⟩ ⟨0, 4⟩).above (by decide)

end
end WalletToolbox.Chaintracks.HeightRange
