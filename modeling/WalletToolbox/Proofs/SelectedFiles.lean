import WalletToolbox.Chaintracks.BlockHeaderUtilities
import Mathlib.Data.Finset.Dedup
import Mathlib.Data.Finset.Order
import Mathlib.Data.Int.Order.Basic

/-! The files an update from a URL selects, among whatever records it has downloaded. -/

namespace WalletToolbox.Chaintracks
open List

/-- What `selectBulkHeaderFiles` reads of a record. -/
structure ListedFile where
  fileName : String
  firstHeight : Int
  count : Int
  chain : Option Chain
deriving DecidableEq, Repr

section
variable (files : List ListedFile) (chain : Chain) (maxPerFile : Int)

def ListedFile.suits (height : Int) (file : ListedFile) : Bool :=
  decide (file.firstHeight = height) && decide (file.count ≤ maxPerFile) && decide (file.chain = some chain)

/-- The choice at a height: of several with the largest count the last. -/
def chooseFile (height : Int) : Option ListedFile :=
  match files.filter (ListedFile.suits chain maxPerFile height) with
  | [] => none
  | first :: rest => some ((first :: rest).foldl (fun a b => if a.count > b.count then a else b) first)

def selectFrom : (fuel : Nat) → (height : Int) → (selected : List ListedFile) → Option (List ListedFile)
  | 0, _, _ => none
  | fuel + 1, height, selected =>
    match chooseFile files chain maxPerFile height with
    | none => some selected
    | some choice => selectFrom fuel (height + choice.count) (selected ++ [choice])

def SelectsBulkHeaderFiles (selected : List ListedFile) : Prop := ∃ fuel, selectFrom files chain maxPerFile fuel 0 [] = some selected

def Contiguous : Int → List ListedFile → Prop
  | _, [] => True
  | height, file :: rest => file.firstHeight = height ∧ Contiguous (height + file.count) rest

def ListedFile.Selectable (file : ListedFile) : Prop := 0 < file.count ∧ file.count ≤ maxPerFile ∧ file.chain = some chain

def Largest (height : Int) (file : ListedFile) : Prop :=
  (file ∈ files ∧ file.suits chain maxPerFile height = true) ∧
    ∀ other ∈ files, other.suits chain maxPerFile height = true → other.count ≤ file.count

inductive LeadsTo : Int → Prop where
  | zero : LeadsTo 0
  | next {height file} (before : LeadsTo height) (largest : Largest files chain maxPerFile height file) : LeadsTo (height + file.count)

end

section
variable {files : List ListedFile} {chain : Chain} {maxPerFile height : Int}

theorem suits_iff {file : ListedFile} : file.suits chain maxPerFile height = true ↔
    file.firstHeight = height ∧ file.count ≤ maxPerFile ∧ file.chain = some chain := by
  simp [ListedFile.suits, and_assoc]

theorem foldl_largest (choices : List ListedFile) (start : ListedFile) :
    choices.foldl (fun a b => if a.count > b.count then a else b) start ∈ start :: choices ∧
      ∀ other ∈ start :: choices, other.count ≤ (choices.foldl (fun a b => if a.count > b.count then a else b) start).count := by
  induction choices generalizing start with
  | nil => simp
  | cons next rest ih =>
    rw [foldl_cons]
    obtain ⟨member, largest⟩ := ih (if start.count > next.count then start else next)
    have top := largest _ mem_cons_self
    constructor
    · rcases mem_cons.mp member with same | later
      · rw [same]
        split <;> simp
      · exact mem_cons_of_mem _ (mem_cons_of_mem _ later)
    · intro other among
      simp only [mem_cons] at among
      rcases among with rfl | rfl | later
      · grind
      · grind
      · exact largest _ (mem_cons_of_mem _ later)

theorem chooseFile_none (none : chooseFile files chain maxPerFile height = none) :
    ∀ file ∈ files, file.suits chain maxPerFile height = false := by
  unfold chooseFile at none
  split at none
  next empty => simpa using filter_eq_nil_iff.mp empty
  next => cases none

theorem chooseFile_largest (chosen : chooseFile files chain maxPerFile height = some choice) :
    Largest files chain maxPerFile height choice := by
  unfold chooseFile at chosen
  split at chosen
  next => cases chosen
  next first rest choices =>
    obtain ⟨member, largest⟩ := foldl_largest (first :: rest) first
    obtain rfl := Option.some.inj chosen
    refine ⟨mem_filter.mp ?_, fun other listed suits => ?_⟩
    · rw [choices]
      rcases mem_cons.mp member with same | later
      · rw [same]
        exact mem_cons_self
      · exact later
    · exact largest other (mem_cons_of_mem _ (choices ▸ mem_filter.mpr ⟨listed, suits⟩))

theorem Largest.count_eq (one : Largest files chain maxPerFile height file) (two : Largest files chain maxPerFile height other) :
    file.count = other.count :=
  le_antisymm (two.2 _ one.1.1 one.1.2) (one.2 _ two.1.1 two.1.2)

theorem selectFrom_kept (ends : selectFrom files chain maxPerFile fuel height selected = some result) :
    selected ⊆ result := by
  induction fuel generalizing height selected with
  | zero => cases ends
  | succ fuel ih =>
    rw [selectFrom] at ends
    split at ends
    next => exact Option.some.inj ends ▸ List.Subset.refl _
    next => exact List.Subset.trans (subset_append_left _ _) (ih ends)

theorem LeadsTo.passed (leads : LeadsTo files chain maxPerFile height) (ends : SelectsBulkHeaderFiles files chain maxPerFile selected) :
    ∃ fuel before, selectFrom files chain maxPerFile fuel height before = some selected := by
  induction leads with
  | zero => exact ends.imp fun _ run => ⟨_, run⟩
  | next _ largest ih =>
    obtain ⟨fuel, before, run⟩ := ih
    cases fuel with
    | zero => cases run
    | succ fuel =>
      rw [selectFrom] at run
      split at run
      next none => exact absurd largest.1.2 (by simp [chooseFile_none none _ largest.1.1])
      next choice chosen => exact ⟨fuel, _, largest.count_eq (chooseFile_largest chosen) ▸ run⟩

theorem LeadsTo.positive (leads : LeadsTo files chain maxPerFile height) (ends : SelectsBulkHeaderFiles files chain maxPerFile selected)
    (selectable : ∀ file ∈ selected, file.Selectable chain maxPerFile) (largest : Largest files chain maxPerFile height file) : 0 < file.count := by
  obtain ⟨fuel, before, run⟩ := leads.passed ends
  cases fuel with
  | zero => cases run
  | succ fuel =>
    rw [selectFrom] at run
    split at run
    next none => exact absurd largest.1.2 (by simp [chooseFile_none none _ largest.1.1])
    next choice chosen =>
      rw [largest.count_eq (chooseFile_largest chosen)]
      exact (selectable _ (selectFrom_kept run (mem_append_right _ (mem_singleton_self _)))).1

theorem selectFrom_ends (positive : ∀ height, LeadsTo files chain maxPerFile height →
      ∀ file, Largest files chain maxPerFile height file → 0 < file.count) {top : Int} (below : ∀ file ∈ files, file.firstHeight ≤ top) (steps : Nat)
    (leads : LeadsTo files chain maxPerFile height) (near : top < height + steps) (selected : List ListedFile) :
    ∃ fuel tail, selectFrom files chain maxPerFile fuel height selected = some (selected ++ tail) ∧ Contiguous height tail ∧
      ∀ file ∈ tail, file.Selectable chain maxPerFile := by
  induction steps generalizing height selected with
  | zero =>
    refine ⟨1, [], ?_, trivial, by simp⟩
    rw [selectFrom]
    cases chosen : chooseFile files chain maxPerFile height with
    | none => simp
    | some choice =>
      have largest := chooseFile_largest chosen
      have first := (suits_iff.mp largest.1.2).1
      have bound := below _ largest.1.1
      omega
  | succ steps ih =>
    cases chosen : chooseFile files chain maxPerFile height with
    | none => exact ⟨1, [], by simp [selectFrom, chosen], trivial, by simp⟩
    | some choice =>
      have largest := chooseFile_largest chosen
      obtain ⟨first, small, same⟩ := suits_iff.mp largest.1.2
      have more := positive _ leads _ largest
      obtain ⟨fuel, tail, run, contiguous, selectable⟩ := ih (.next leads largest) (by omega) (selected ++ [choice])
      refine ⟨fuel + 1, choice :: tail, ?_, ⟨first, contiguous⟩, fun file member => ?_⟩
      · rw [selectFrom, chosen]
        simpa using run
      · rcases mem_cons.mp member with rfl | later
        · exact ⟨more, small, same⟩
        · exact selectable _ later

theorem selectFrom_empty_file (fuel : Nat) (selected : List ListedFile) :
    selectFrom [⟨"mainNet_0.headers", 0, 0, some .main⟩] .main 100000 fuel 0 selected = none := by
  induction fuel generalizing selected with
  | zero => rfl
  | succ fuel ih => exact ih _

end
end WalletToolbox.Chaintracks
