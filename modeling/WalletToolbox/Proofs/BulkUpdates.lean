import WalletToolbox.Proofs.BulkValidation

/-! The invariant of the bulk files, and what keeps it: a file added at the end, the last
file replaced, and a longer file put in the place of the last ones, with what is left of them. -/

namespace WalletToolbox.Chaintracks.Bulk

open Effects Fallible BulkFileDataManager

variable {world : World}

variable (world) in
structure BulkFiles (manager : BulkFileDataManager) (contents : List (List Bytes)) (tip : Tip) : Prop where
  chain : FileChain world origin manager.bfds contents tip
  cdn : ∀ file ∈ manager.bfds.dropLast, isBdfIncremental file.toBulkFileFields = false
  indexed : ∀ (index : Nat) (file : BulkFileData), manager.bfds[index]? = some file → manager.fileHashToIndex file.fileHash = some index

variable (world) in
def Sound (manager : BulkFileDataManager) : Prop := ∃ contents tip, BulkFiles world manager contents tip

variable {manager manager' : BulkFileDataManager} {contents : List (List Bytes)} {tip : Tip}

theorem forall₂_getElem? (related : List.Forall₂ R ones others)
    {index : Nat} (at' : others[index]? = some other) : ∃ one, ones[index]? = some one ∧ R one other := by
  induction related generalizing index with
  | nil => simp at at'
  | cons here _ ih =>
    cases index with
    | zero =>
      simp only [List.getElem?_cons_zero, Option.some.injEq] at at'
      exact ⟨_, rfl, at' ▸ here⟩
    | succ index => exact ih (by simpa using at')

theorem forall₂_mem {R : α → β → Prop} {ones : List α} {others : List β} (related : List.Forall₂ R ones others)
    {other : β} (member : other ∈ others) : ∃ one ∈ ones, R one other := by
  obtain ⟨index, at'⟩ := List.mem_iff_getElem?.mp member
  obtain ⟨one, there, holds⟩ := forall₂_getElem? related at'
  exact ⟨one, List.mem_of_getElem? there, holds⟩

theorem BulkFiles.kept (laws : HashLaws world) (files : BulkFiles world manager contents tip) (kept : Kept world manager manager') :
    BulkFiles world manager' contents tip := by
  refine ⟨files.chain.restocked laws kept.files, ?_, ?_⟩
  · intro file member
    rw [List.dropLast_eq_take, ← kept.files.length_eq] at member
    have related := List.forall₂_take (manager.bfds.length - 1) kept.files
    obtain ⟨before, held, restocked⟩ := forall₂_mem related member
    rw [restocked.incremental]
    exact files.cdn before (by rwa [List.dropLast_eq_take])
  · intro index file at'
    obtain ⟨before, there, restocked⟩ := forall₂_getElem? kept.files at'
    rw [kept.index, restocked.fileHash]
    exact files.indexed index before there

theorem Sound.kept (laws : HashLaws world) (sound : Sound world manager) (kept : Kept world manager manager') : Sound world manager' := by
  obtain ⟨contents, tip, files⟩ := sound
  exact ⟨contents, tip, files.kept laws kept⟩

theorem FileChain.root (chain : FileChain world origin files contents tip) (start : tip.height = 0) :
    tip.hash = zeros ∧ tip.work = 0 := by
  cases chain with
  | nil => exact ⟨rfl, rfl⟩
  | cons _ follows rest =>
    have reaches := rest.height
    have ends := follows.after_height
    have positive := List.length_pos_iff.mpr follows.some
    omega

theorem indexed_append {front back : List BulkFileData} {find : String → Option Nat}
    (first : ∀ (index : Nat) (file : BulkFileData), front[index]? = some file → find file.fileHash = some index)
    (second : ∀ (index : Nat) (file : BulkFileData), back[index]? = some file → find file.fileHash = some (front.length + index)) :
    ∀ (index : Nat) (file : BulkFileData), (front ++ back)[index]? = some file → find file.fileHash = some index := by
  intro index file at'
  by_cases inside : index < front.length
  · rw [List.getElem?_append_left inside] at at'
    exact first index file at'
  · rw [List.getElem?_append_right (by omega)] at at'
    have found := second _ file at'
    rwa [Nat.add_sub_cancel' (by omega)] at found

theorem BulkFiles.rebuild (back) {contents' : List (List Bytes)}
    (files : BulkFiles world manager contents tip) (same : manager.bfds = front ++ tail) (list : manager'.bfds = front ++ back)
    (some : back ≠ []) (chain : FileChain world origin (front ++ back) contents' tip')
    (before : ∀ file ∈ front, isBdfIncremental file.toBulkFileFields = false)
    (cdn : ∀ file ∈ back.dropLast, isBdfIncremental file.toBulkFileFields = false)
    (kept : ∀ file ∈ front, manager'.fileHashToIndex file.fileHash = manager.fileHashToIndex file.fileHash)
    (found : ∀ (index : Nat) (file : BulkFileData), back[index]? = Option.some file →
      manager'.fileHashToIndex file.fileHash = Option.some (front.length + index)) :
    BulkFiles world manager' contents' tip' := by
  refine ⟨list ▸ chain, ?_, ?_⟩
  · rw [list, List.dropLast_append_of_ne_nil some]
    intro file member
    rcases List.mem_append.mp member with early | late
    · exact before file early
    · exact cdn file late
  · rw [list]
    apply indexed_append
    · intro index file at'
      rw [kept file (List.mem_of_getElem? at')]
      apply files.indexed
      rw [same, List.getElem?_append_left (List.getElem?_eq_some_iff.mp at').1, at']
    · exact found

theorem BulkFiles.cdn_front (files : BulkFiles world manager contents tip)
    (same : manager.bfds = front ++ tail) (some : tail ≠ []) : ∀ file ∈ front, isBdfIncremental file.toBulkFileFields = false := by
  intro file member
  apply files.cdn
  rw [same, List.dropLast_append_of_ne_nil some]
  exact List.mem_append_left _ member

theorem Follows.cut {update cut} (lbf : BulkFileData)
    (follows : Follows world tip update headers) (linked : LinkedHeaders world tip.hash (headers ++ rest) last)
    (ends : lbf.lastHash = some last) (work : lbf.lastChainWork = some (tip.work + totalWork (headers ++ rest))) (some : rest ≠ [])
    (sized : ∀ header ∈ rest, header.length = 80) (hash : cut.fileHash = world.fileHash rest.flatten)
    (data : cut.data = Option.some rest.flatten) (count : cut.count = rest.length) (lastHash : cut.lastHash = lbf.lastHash)
    (lastWork : cut.lastChainWork = lbf.lastChainWork) : Follows world (tip.after update) cut rest := by
  obtain ⟨middle, first, second⟩ := linked.split
  have meets := first.end_unique follows.after_hash
  refine ⟨⟨sized, hash.symm, ?_, count.symm, some⟩, ⟨last, meets ▸ second, lastHash.trans ends⟩, ?_⟩
  · intro given same
    rw [data, Option.some.injEq] at same
    exact same.symm
  · rw [lastWork, work, follows.after_work, totalWork_append, add_assoc]

theorem flatten_length_sized {headers : List Bytes} (sized : ∀ header ∈ headers, header.length = 80) :
    headers.flatten.length = headers.length * 80 := by
  induction headers with
  | nil => rfl
  | cons header headers ih =>
    rw [List.flatten_cons, List.length_append, ih fun _ member => sized _ (by simp [member]), sized header (by simp), List.length_cons]
    omega

theorem flatten_drop_sized {headers rest : List Bytes} (sized : ∀ header ∈ headers, header.length = 80) :
    (headers ++ rest).flatten.drop (headers.length * 80) = rest.flatten := by
  rw [List.flatten_append, ← flatten_length_sized sized, List.drop_left]

section Operations
variable (laws : HashLaws world)
include laws

variable (files : BulkFiles world manager contents tip)
include files

theorem BulkFiles.push
    (cdn : ∀ file ∈ manager.bfds, isBdfIncremental file.toBulkFileFields = false) (continues : Continues tip vbf)
    (follows : Follows world tip vbf headers) :
    BulkFiles world ((manager.push vbf).point vbf.fileHash (some manager.bfds.length)) (contents ++ [headers]) (tip.after vbf) := by
  have whole : manager.bfds = manager.bfds ++ [] := (List.append_nil _).symm
  apply files.rebuild [vbf] whole rfl (by simp)
    (files.chain.append (.single continues follows)) cdn (by simp)
  · intro file member
    have other := files.chain.fresh laws follows member
    simp [point, BulkFileDataManager.push, other]
  · intro index file at'
    simp only [List.getElem?_singleton, Option.ite_none_right_eq_some, Option.some.injEq] at at'
    obtain ⟨rfl, rfl⟩ := at'
    simp [point]

variable {front : List BulkFileData} {before : List (List Bytes)} {middle : Tip} {lbf lbf2 update cut : BulkFileData}
  {headers rest : List Bytes}

theorem BulkFiles.replace (same : manager.bfds = front ++ [lbf])
    (chain : FileChain world origin front before middle) (follows : Follows world middle update headers)
    (continues : Continues middle update) (lbfFollows : Follows world middle lbf rest) :
    BulkFiles world (manager.replaceBfdAtIndex front.length lbf update) (before ++ [headers]) (middle.after update) := by
  apply files.rebuild [update] same (by simp [replaceBfdAtIndex, put, point, same]) (by simp)
    (chain.append (.single continues follows)) (files.cdn_front same (by simp)) (by simp)
  · intro file member
    have other := chain.fresh laws follows member
    have old := chain.fresh laws lbfFollows member
    simp [replaceBfdAtIndex, put, point, other, old]
  · intro index file at'
    simp only [List.getElem?_singleton, Option.ite_none_right_eq_some, Option.some.injEq] at at'
    obtain ⟨rfl, rfl⟩ := at'
    simp [replaceBfdAtIndex, point]

theorem BulkFiles.drop (same : manager.bfds = front ++ [lbf2, lbf])
    (chain : FileChain world origin front before middle) (follows : Follows world middle update headers)
    (continues : Continues middle update) (lbf2Continues : Continues middle lbf2) (lbf2Follows : Follows world middle lbf2 rest) (lbfFollows : Follows world (middle.after lbf2) lbf rest') :
    BulkFiles world ((manager.replaceBfdAtIndex front.length lbf2 update).dropLastBulkFile lbf) (before ++ [headers]) (middle.after update) := by
  have upTo := chain.append (.single lbf2Continues lbf2Follows)
  have apart : update.fileHash ≠ lbf.fileHash := by
    intro alike
    obtain ⟨-, heights⟩ := Follows.height_unique laws chain follows upTo lbfFollows alike
    have positive := lbf2Follows.count_pos
    simp only [Tip.after] at heights
    omega
  apply files.rebuild [update] same _ (by simp) (chain.append (.single continues follows))
    (files.cdn_front same (by simp)) (by simp)
  · intro file member
    have other := chain.fresh laws follows member
    have old := chain.fresh laws lbf2Follows member
    have last := upTo.fresh laws lbfFollows (List.mem_append_left _ member)
    simp [replaceBfdAtIndex, dropLastBulkFile, put, point, other, old, last]
  · intro index file at'
    simp only [List.getElem?_singleton, Option.ite_none_right_eq_some, Option.some.injEq] at at'
    obtain ⟨rfl, rfl⟩ := at'
    simp [replaceBfdAtIndex, dropLastBulkFile, put, point, apart]
  · simp [replaceBfdAtIndex, dropLastBulkFile, put, point, same]

theorem BulkFiles.truncate {old : BulkFileData}
    (same : manager.bfds = front ++ tail) (some : tail ≠ []) (chain : FileChain world origin front before middle)
    (follows : Follows world middle update headers) (continues : Continues middle update)
    (cdn : isBdfIncremental update.toBulkFileFields = false)
    (cutContinues : Continues (middle.after update) cut) (cutFollows : Follows world (middle.after update) cut rest)
    (oldApart : ∀ file ∈ front, file.fileHash ≠ old.fileHash) (lbfApart : ∀ file ∈ front, file.fileHash ≠ lbf.fileHash)
    (apart : update.fileHash ≠ lbf.fileHash) (list : manager'.bfds = front ++ [update, cut])
    (index : ∀ hash, manager'.fileHashToIndex hash = if hash = cut.fileHash then Option.some (front.length + 1)
      else if hash = lbf.fileHash then none else if hash = update.fileHash then Option.some front.length
      else if hash = old.fileHash then none else manager.fileHashToIndex hash) :
    BulkFiles world manager' (before ++ [headers, rest]) ((middle.after update).after cut) := by
  have upTo := chain.append (.single continues follows)
  apply files.rebuild [update, cut] same list (by simp) _ (files.cdn_front same some)
  · simpa using cdn
  · intro file member
    have other := chain.fresh laws follows member
    have last := upTo.fresh laws cutFollows (List.mem_append_left _ member)
    simp [index, other, last, oldApart file member, lbfApart file member]
  · intro position file at'
    have follower : update.fileHash ≠ cut.fileHash := upTo.fresh laws cutFollows (by simp)
    match position with
    | 0 =>
      simp only [List.getElem?_cons_zero, Option.some.injEq] at at'
      subst at'
      simp [index, follower, apart]
    | 1 =>
      simp only [List.getElem?_cons_succ, List.getElem?_cons_zero, Option.some.injEq] at at'
      subst at'
      simp [index]
    | position + 2 => simp at at'
  · simpa using upTo.append (.single cutContinues cutFollows)

end Operations

end WalletToolbox.Chaintracks.Bulk
