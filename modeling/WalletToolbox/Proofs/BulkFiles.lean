import Mathlib.Algebra.BigOperators.Group.List.Basic
import Mathlib.Tactic.Ring
import WalletToolbox.Chains.Linked
import WalletToolbox.Chaintracks.BulkFileDataManager

/-! What bulk files say of the headers in them. The files are followed from the first on;
the contents of a file are what its hash stands for, whether or not its data is at hand. -/

namespace WalletToolbox.Chaintracks.Bulk
open List

variable (world : World)

/-- Different bytes have different hashes, and no header has the hash that the first one follows. -/
structure HashLaws : Prop where
  file : ∀ one other, world.fileHash one = world.fileHash other → one = other
  block : ∀ one other, world.blockHash one = world.blockHash other → one = other
  unhashed : ∀ header, world.blockHash header ≠ zeros

abbrev LinkedHeaders (start : String) (headers : List Bytes) (last : String) : Prop :=
  Chains.Linked hashPrev world.blockHash start headers last

def headerWork (header : Bytes) : Int := convertBitsToWork (deserializeBaseBlockHeader header).bits

def totalWork (headers : List Bytes) : Int := (headers.map headerWork).sum

@[simp] theorem totalWork_nil : totalWork [] = 0 := rfl

@[simp] theorem totalWork_cons (header) (headers) :
    totalWork (header :: headers) = headerWork header + totalWork headers := by simp [totalWork]

@[simp] theorem totalWork_append (headers more) : totalWork (headers ++ more) = totalWork headers + totalWork more := by
  simp [totalWork]

structure Holds (file : BulkFileData) (headers : List Bytes) : Prop where
  sized : ∀ header ∈ headers, header.length = 80
  hash : world.fileHash headers.flatten = file.fileHash
  data : ∀ data, file.data = some data → data = headers.flatten
  count : headers.length = file.count
  some : headers ≠ []

structure Tip where
  height : Nat
  hash : String
  work : Int

def origin : Tip := ⟨0, zeros, 0⟩

def Tip.after (tip : Tip) (file : BulkFileData) : Tip :=
  ⟨tip.height + file.count, file.lastHash.getD zeros, file.lastChainWork.getD 0⟩

structure Follows (tip : Tip) (file : BulkFileData) (headers : List Bytes) : Prop extends Holds world file headers where
  linked : ∃ last, LinkedHeaders world tip.hash headers last ∧ file.lastHash = Option.some last
  work : file.lastChainWork = Option.some (tip.work + totalWork headers)

/-- A file says that it starts at `tip`. What it says is before the first header does not matter. -/
structure Continues (tip : Tip) (file : BulkFileData) : Prop where
  height : file.firstHeight = tip.height
  named : tip.height ≠ 0 → file.prevHash = tip.hash ∧ file.prevChainWork = some tip.work

inductive FileChain : Tip → List BulkFileData → List (List Bytes) → Tip → Prop
  | nil (tip : Tip) : FileChain tip [] [] tip
  | cons {tip last : Tip} {file : BulkFileData} {files : List BulkFileData} {headers : List Bytes} {contents : List (List Bytes)}
      (continues : Continues tip file) (follows : Follows world tip file headers)
      (rest : FileChain (tip.after file) files contents last) : FileChain tip (file :: files) (headers :: contents) last

variable {world} {tip middle last : Tip} {file other : BulkFileData} {files more : List BulkFileData} {headers : List Bytes}
  {contents rest : List (List Bytes)}

theorem FileChain.append (first : FileChain world tip files contents middle) (second : FileChain world middle more rest last) :
    FileChain world tip (files ++ more) (contents ++ rest) last := by
  induction first with
  | nil => exact second
  | cons continues follows _ ih => exact .cons continues follows (ih second)

theorem FileChain.split (chain : FileChain world tip (files ++ more) contents last) :
    ∃ front back middle, contents = front ++ back ∧ FileChain world tip files front middle ∧ FileChain world middle more back last := by
  induction files generalizing tip contents with
  | nil => exact ⟨[], contents, tip, rfl, .nil tip, chain⟩
  | cons file files ih =>
    cases chain with
    | cons continues follows rest =>
      obtain ⟨front, back, middle, rfl, first, second⟩ := ih rest
      exact ⟨_ :: front, back, middle, rfl, .cons continues follows first, second⟩

theorem FileChain.single (continues : Continues tip file) (follows : Follows world tip file headers) :
    FileChain world tip [file] [headers] (tip.after file) := .cons continues follows (.nil _)

theorem FileChain.single_inv (chain : FileChain world tip [file] contents last) :
    ∃ headers, contents = [headers] ∧ Continues tip file ∧ Follows world tip file headers ∧ last = tip.after file := by
  cases chain with
  | cons continues follows rest =>
    cases rest
    exact ⟨_, rfl, continues, follows, rfl⟩

theorem FileChain.concat_inv (chain : FileChain world tip (files ++ [file]) contents last) :
    ∃ front headers middle, contents = front ++ [headers] ∧ FileChain world tip files front middle ∧ Continues middle file ∧
      Follows world middle file headers ∧ last = middle.after file := by
  obtain ⟨front, back, middle, same, first, second⟩ := chain.split
  obtain ⟨headers, rfl, continues, follows, ends⟩ := second.single_inv
  exact ⟨front, headers, middle, same, first, continues, follows, ends⟩

section
variable (follows : Follows world tip file headers)
include follows

theorem Follows.after_hash : LinkedHeaders world tip.hash headers (tip.after file).hash := by
  obtain ⟨end', linked, named⟩ := follows.linked
  simpa [Tip.after, named] using linked

theorem Follows.after_work : (tip.after file).work = tip.work + totalWork headers := by
  simp [Tip.after, follows.work]

theorem Follows.after_height : (tip.after file).height = tip.height + headers.length := by
  simp [Tip.after, follows.count]

theorem Follows.of_same (hash : tip.hash = tip'.hash)
    (work : tip.work = tip'.work) : Follows world tip' file headers :=
  ⟨follows.toHolds, hash ▸ follows.linked, work ▸ follows.work⟩

theorem Follows.count_pos : 0 < file.count := by
  have long := follows.count
  have some := length_pos_iff.mpr follows.some
  omega

theorem Follows.lastHash : file.lastHash = some (tip.after file).hash := by
  obtain ⟨_, _, named⟩ := follows.linked
  simp [Tip.after, named]

theorem Follows.lastChainWork : file.lastChainWork = some (tip.after file).work := by
  simp [Tip.after, follows.work]

end

section
variable (chain : FileChain world tip files contents last)
include chain

theorem FileChain.linked :
    LinkedHeaders world tip.hash contents.flatten last.hash := by
  induction chain with
  | nil => exact .nil _
  | cons _ follows _ ih => exact follows.after_hash.append ih

theorem FileChain.height : last.height = tip.height + contents.flatten.length := by
  induction chain with
  | nil => rfl
  | cons _ follows _ ih =>
    rw [ih, follows.after_height, flatten_cons, length_append]
    omega

theorem FileChain.work : last.work = tip.work + totalWork contents.flatten := by
  induction chain with
  | nil => simp
  | cons _ follows _ ih =>
    rw [ih, follows.after_work, flatten_cons, totalWork_append]
    ring

theorem FileChain.bounds (member : file ∈ files) :
    tip.height ≤ file.firstHeight ∧ file.firstHeight + file.count ≤ last.height ∧ 0 < file.count := by
  induction chain with
  | nil => simp at member
  | cons continues follows rest ih =>
    have starts := continues.height
    have reaches := rest.height
    have ends := follows.after_height
    have long := follows.count
    have positive := follows.count_pos
    rcases mem_cons.mp member with rfl | later
    · omega
    · have further := ih later
      omega

/-! Finding the file of a height -/

theorem FileChain.no_cover {height} (beyond : last.height ≤ height) :
    files.findIdx? (fun bfd => bfd.firstHeight ≤ height && height < bfd.firstHeight + bfd.count) = none := by
  rw [findIdx?_eq_none_iff]
  intro file member
  have bounds := chain.bounds member
  simp only [Bool.and_eq_false_iff, decide_eq_false_iff_not]
  omega

end

theorem FileChain.cover (more) (height : Nat) (chain : FileChain world tip files contents middle)
    (above : middle.height ≤ height) (starts : file.firstHeight = middle.height) (within : height < file.firstHeight + file.count) :
    (files ++ file :: more).findIdx? (fun bfd => bfd.firstHeight ≤ height && height < bfd.firstHeight + bfd.count) = some files.length := by
  rw [findIdx?_append, chain.no_cover above]
  have covers : (decide (file.firstHeight ≤ height) && decide (height < file.firstHeight + file.count)) = true := by
    simp only [Bool.and_eq_true, decide_eq_true_eq]
    omega
  simp [findIdx?_cons, covers]

theorem prevAt_eq {manager : BulkFileDataManager} (same : manager.bfds = files ++ more)
    (chain : FileChain world origin files contents middle) :
    manager.prevHashAt middle.height = middle.hash ∧ manager.prevChainWorkAt middle.height = some middle.work := by
  rcases eq_nil_or_concat files with rfl | ⟨front, file, rfl⟩
  · cases chain
    simp [BulkFileDataManager.prevHashAt, BulkFileDataManager.prevChainWorkAt, origin]
  · rw [concat_eq_append] at chain same
    obtain ⟨_, headers, before, _, first, continues, follows, rfl⟩ := chain.concat_inv
    have positive := follows.count_pos
    have starts := continues.height
    have ends : (before.after file).height = before.height + file.count := rfl
    have found : manager.getBfdForHeight ((before.after file).height - 1) = some file := by
      have index := FileChain.cover more ((before.after file).height - 1) first (by omega) starts (by omega)
      unfold BulkFileDataManager.getBfdForHeight BulkFileDataManager.bfdForHeight
      rw [same, append_assoc, singleton_append, index]
      simp
    have above : 0 < (before.after file).height := by omega
    unfold BulkFileDataManager.prevHashAt BulkFileDataManager.prevChainWorkAt
    rw [if_pos above, found]
    simp [follows.lastHash, follows.lastChainWork]

/-! A file's hash tells where the file stands -/

theorem flatten_sized {ones others : List Bytes} (sized : ∀ header ∈ ones, header.length = 80)
    (also : ∀ header ∈ others, header.length = 80) (same : ones.flatten = others.flatten) : ones = others := by
  induction ones generalizing others with
  | nil =>
    cases others with
    | nil => rfl
    | cons header rest =>
      have long := also header (by simp)
      have none := congrArg length same
      simp only [flatten_nil, length_nil, flatten_cons, length_append] at none
      omega
  | cons one ones ih =>
    have long := sized one (by simp)
    cases others with
    | nil =>
      have none := congrArg length same
      simp only [flatten_nil, length_nil, flatten_cons, length_append] at none
      omega
    | cons header rest =>
      obtain ⟨first, later⟩ := append_inj same (long.trans (also header (by simp)).symm)
      subst first
      rw [ih (fun _ member => sized _ (by simp [member])) (fun _ member => also _ (by simp [member])) later]

theorem Holds.unique (laws : HashLaws world) {ones others : List Bytes} (holds : Holds world file ones)
    (also : Holds world other others) (same : file.fileHash = other.fileHash) : ones = others := by
  apply flatten_sized holds.sized also.sized
  exact laws.file _ _ (holds.hash.trans (same.trans also.hash.symm))

theorem Follows.height_unique (laws : HashLaws world)
    (before : FileChain world origin files contents tip) (follows : Follows world tip file headers)
    (before' : FileChain world origin more rest tip') (follows' : Follows world tip' other headers')
    (same : file.fileHash = other.fileHash) : headers = headers' ∧ tip.height = tip'.height := by
  have equal := follows.toHolds.unique laws follows'.toHolds same
  subst equal
  refine ⟨rfl, ?_⟩
  have some := follows.some
  cases headers with
  | nil => exact absurd rfl some
  | cons header headers =>
    have front := Chains.Linked.position laws.block laws.unhashed (before.linked.append follows.after_hash)
      (before'.linked.append follows'.after_hash)
    rw [before.height, before'.height, front]

theorem FileChain.fresh (laws : HashLaws world) (chain : FileChain world origin files contents tip)
    (follows : Follows world tip file headers) (member : other ∈ files) : other.fileHash ≠ file.fileHash := by
  intro same
  obtain ⟨front, back, rfl⟩ := append_of_mem member
  obtain ⟨_, _, middle, rfl, first, second⟩ := chain.split
  cases second with
  | cons continues holds rest =>
    obtain ⟨_, heights⟩ := Follows.height_unique laws first holds chain follows same
    have reaches := rest.height
    have ends := holds.after_height
    have positive := holds.count_pos
    have long := holds.count
    omega

/-! Loading and releasing data -/

variable (world) in
structure Restocked (file file' : BulkFileData) : Prop where
  same : file' = { file with data := file'.data, mru := file'.mru, fileId := file'.fileId }
  data : ∀ data, file'.data = some data → file.data = some data ∨ world.fileHash data = file.fileHash

theorem Restocked.refl (file) : Restocked world file file := ⟨rfl, fun _ => .inl⟩

theorem Restocked.trans (first : Restocked world file file') (second : Restocked world file' file'') :
    Restocked world file file'' := by
  have hash : file'.fileHash = file.fileHash := by rw [first.same]
  constructor
  · rw [second.same, first.same]
  · intro data held
    rcases second.data data held with before | right
    · exact first.data data before
    · exact .inr (right.trans hash)

section
variable (restocked : Restocked world file file')
include restocked

theorem Restocked.fileHash : file'.fileHash = file.fileHash := by
  rw [restocked.same]

theorem Restocked.fields :
    file'.firstHeight = file.firstHeight ∧ file'.count = file.count ∧ file'.lastHash = file.lastHash ∧
      file'.lastChainWork = file.lastChainWork ∧ file'.prevHash = file.prevHash ∧ file'.prevChainWork = file.prevChainWork := by
  rw [restocked.same]
  exact ⟨rfl, rfl, rfl, rfl, rfl, rfl⟩

theorem Restocked.incremental :
    isBdfIncremental file'.toBulkFileFields = isBdfIncremental file.toBulkFileFields := by
  rw [restocked.same]
  rfl

theorem Restocked.follows (laws : HashLaws world)
    (follows : Follows world tip file headers) : Follows world tip file' headers := by
  obtain ⟨-, count, lastHash, lastChainWork, -, -⟩ := restocked.fields
  constructor
  · constructor
    · exact follows.sized
    · rw [follows.hash, restocked.fileHash]
    · intro data held
      rcases restocked.data data held with before | right
      · exact follows.data data before
      · exact laws.file _ _ (right.trans follows.hash.symm)
    · rw [follows.count, count]
    · exact follows.some
  · rw [lastHash]
    exact follows.linked
  · rw [lastChainWork, follows.work]

theorem Restocked.continues (continues : Continues tip file) :
    Continues tip file' := by
  obtain ⟨firstHeight, -, -, -, prevHash, prevChainWork⟩ := restocked.fields
  constructor
  · rw [firstHeight, continues.height]
  · rw [prevHash, prevChainWork]
    exact continues.named

theorem Restocked.after (tip : Tip) : tip.after file' = tip.after file := by
  obtain ⟨-, count, lastHash, lastChainWork, -, -⟩ := restocked.fields
  simp [Tip.after, count, lastHash, lastChainWork]

end

theorem FileChain.restocked (laws : HashLaws world) (chain : FileChain world tip files contents last)
    (restocked : List.Forall₂ (Restocked world) files files') : FileChain world tip files' contents last := by
  induction chain generalizing files' with
  | nil =>
    cases restocked
    exact .nil _
  | cons continues follows _ ih =>
    cases restocked with
    | cons here later =>
      apply FileChain.cons (here.continues continues) (here.follows laws follows)
      rw [here.after]
      exact ih later

end WalletToolbox.Chaintracks.Bulk
