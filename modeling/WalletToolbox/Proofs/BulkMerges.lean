import WalletToolbox.Proofs.BulkUpdates

/-! When merging a file keeps the bulk files sound, and that it does. -/

namespace WalletToolbox.Chaintracks.Bulk
open List

open Effects Fallible BulkFileDataManager

variable {world : World} {manager manager' : BulkFileDataManager} {contents : List (List Bytes)} {tip : Tip}

/-! Loading the data of a stored file -/

theorem set_restocked (at' : files[index]? = some bfd)
    (restocked : Restocked world bfd bfd') : List.Forall₂ (Restocked world) files (files.set index bfd') := by
  induction files generalizing index with
  | nil => simp at at'
  | cons file files ih =>
    cases index with
    | zero =>
      simp only [getElem?_cons_zero, Option.some.injEq] at at'
      subst at'
      exact .cons restocked (restocked_refl files)
    | succ index => exact .cons (.refl file) (ih (by simpa using at'))

theorem ensureDataAt_ok (run : ensureDataAt world index manager = (.ok (), manager')) : Kept world manager manager' := by
  simp only [ensureDataAt] at run
  split at run
  · simp at run
  next bfd at' =>
    split at run
    · simp at run
    next ok =>
      obtain ⟨-, same⟩ := Prod.mk.inj run
      obtain ⟨restocked, -⟩ := load_restocked ok
      have stocked : Kept world manager
          { manager with bfds := manager.bfds.set index (load world manager bfd).bfd, clock := (load world manager bfd).clock } :=
        ⟨set_restocked at' restocked, rfl⟩
      rw [← same]
      split
      · exact stocked.trans (ensureMaxRetained_kept _ _)
      · exact stocked

theorem ensureDataAt_index (run : ensureDataAt world index manager = (outcome, manager')) :
    manager'.fileHashToIndex = manager.fileHashToIndex := by
  simp only [ensureDataAt] at run
  split at run
  · obtain ⟨-, rfl⟩ := Prod.mk.inj run
    rfl
  · split at run
    · obtain ⟨-, rfl⟩ := Prod.mk.inj run
      rfl
    · obtain ⟨-, rfl⟩ := Prod.mk.inj run
      split
      · exact (ensureMaxRetained_kept world _).index
      · rfl

variable (world) in
def Loads (manager : BulkFileDataManager) (index : Nat) : Prop := ∃ after bfd data,
  ensureDataAt world index manager = (.ok (), after) ∧ after.bfds[index]? = some bfd ∧ bfd.data = some data

variable (world) in
def Undamaged (manager : BulkFileDataManager) (index : Nat) : Prop :=
  Loads world manager index ∨ ∃ error after, ensureDataAt world index manager = (.error error, after) ∧ after.bfds = manager.bfds

/-! The conditions on a file that is merged -/

def BulkFileDataManager.lengthened (manager : BulkFileDataManager) (lbf vbf : BulkFileData) : BulkFileDataManager :=
  manager.put (manager.bfds.length - 1)
    { lbf with count := lbf.count + vbf.count, lastHash := vbf.lastHash, lastChainWork := vbf.lastChainWork }

variable (world) in
/-- A file past the end, where the last file is incremental: an incremental one meets what is asked of any file that is
added, and the data of both is there; any other one is refused. -/
structure Extends (manager : BulkFileDataManager) (last vbf : BulkFileData) : Prop where
  cdn : isBdfCdn vbf.toBulkFileFields = true → validateBfdForAdd manager vbf ≠ .ok ()
  adjacent : isBdfIncremental vbf.toBulkFileFields = true → vbf.firstHeight = last.firstHeight + last.count
  named : isBdfIncremental vbf.toBulkFileFields = true → isKnownValidBulkHeaderFile world vbf = true → validateBfdForAdd manager vbf = .ok ()
  data : isBdfIncremental vbf.toBulkFileFields = true → vbf.data.isSome = true
  loads : isBdfIncremental vbf.toBulkFileFields = true → Loads world (manager.lengthened last vbf) (manager.bfds.length - 1)

/-- `vbf` takes the place of the last files, up to some header of the incremental one at the end. -/
structure Overlaps (manager : BulkFileDataManager) (vbf : BulkFileData) (replaced : List BulkFileData) (lbf : BulkFileData) : Prop where
  tail : ∃ front, manager.bfds = front ++ (replaced ++ [lbf])
  few : replaced.length ≤ 1
  starts : ∃ first, (replaced ++ [lbf]).head? = some first ∧ first.firstHeight = vbf.firstHeight ∧
    first.prevHash = vbf.prevHash ∧ first.prevChainWork = vbf.prevChainWork
  cdn : isBdfCdn vbf.toBulkFileFields = true
  incremental : isBdfIncremental lbf.toBulkFileFields = true
  past : (replaced.map (·.count)).sum < vbf.count
  within : vbf.count < (replaced.map (·.count)).sum + lbf.count

variable (world) in
def Agrees (vbf : BulkFileData) (files : List BulkFileData) : Prop := ∀ data pieces, world.fileHash data = vbf.fileHash →
  List.Forall₂ (fun piece file => world.fileHash piece = file.fileHash) pieces files → data <+: pieces.flatten

variable (world) in
structure Meets (manager : BulkFileDataManager) (file : BulkHeaderFileInfo) (vbf : BulkFileData) : Prop where
  honest : file.validated = true → Honest world manager vbf
  extending : ∀ last, manager.getBfdForHeight vbf.firstHeight = none → manager.getLastBfd = some last →
    isBdfIncremental last.toBulkFileFields = true → Extends world manager last vbf
  overlapping : ∀ replaced lbf, Overlaps manager vbf replaced lbf →
    Agrees world vbf (replaced ++ [lbf]) ∧ Undamaged world manager (manager.bfds.length - 1)

/-! Growing the last file -/

theorem storage_ensures (ok : ∀ value, post value { manager with clock := manager.clock + 1 })
    (error : failed { manager with clock := manager.clock + 1 }) : Ensures (storage world request) manager post failed := by
  unfold Ensures storage
  cases request (world.replies manager.clock) with
  | error => exact error
  | ok value => exact ok value

theorem getLast_split (ends : files.getLast? = some last) :
    ∃ front, files = front ++ [last] := by
  obtain ⟨front, same⟩ := getLast?_eq_some_iff.mp ends
  exact ⟨front, same⟩

theorem forall₂_concat
    (related : List.Forall₂ R (ones ++ [one]) others) : ∃ front other, others = front ++ [other] ∧ List.Forall₂ R ones front ∧ R one other := by
  induction ones generalizing others with
  | nil =>
    cases related with
    | cons here rest =>
      cases rest
      exact ⟨[], _, rfl, .nil, here⟩
  | cons first ones ih =>
    cases related with
    | cons here rest =>
      obtain ⟨front, other, rfl, early, last⟩ := ih rest
      exact ⟨_ :: front, other, rfl, .cons here early, last⟩

theorem BulkFiles.kept_of_same (laws : HashLaws world) (files : BulkFiles world manager contents tip) (bfds : manager'.bfds = manager.bfds)
    (index : manager'.fileHashToIndex = manager.fileHashToIndex) : BulkFiles world manager' contents tip :=
  files.kept laws (.of_same bfds index)

def BulkFileData.withCounts (loaded lbf : BulkFileData) : BulkFileData :=
  { loaded with count := lbf.count, lastHash := lbf.lastHash, lastChainWork := lbf.lastChainWork }

theorem mergeIncremental_sound (laws : HashLaws world) (files : BulkFiles world manager contents tip) (same : manager.bfds = front ++ [lbf])
    (follows : Follows world tip vbf headers) (held : vbf.data.isSome = true)
    (loads : Loads world (manager.lengthened lbf vbf) (manager.bfds.length - 1)) :
    Ensures (mergeIncremental world (manager.bfds.length - 1) lbf vbf r) manager (fun _ => Sound world) (Sound world) := by
  have index : manager.bfds.length - 1 = front.length := by simp [same]
  rw [index] at loads ⊢
  obtain ⟨more, held⟩ := Option.isSome_iff_exists.mp held
  obtain ⟨after, loaded, data, run, at', dataHeld⟩ := loads
  unfold lengthened at run
  rw [index] at run
  -- What was loaded, seen with the counts that the last file had before.
  have kept := ensureDataAt_ok run
  have related := kept.files
  simp only [put, same, set_append_right _ _ (Nat.le_refl _), Nat.sub_self, set_cons_zero] at related
  obtain ⟨front', last, list, early, restocked⟩ := forall₂_concat related
  have long : front'.length = front.length := early.length_eq.symm
  have equal : last = loaded := by
    rw [list, ← long, getElem?_append_right (Nat.le_refl _), Nat.sub_self, getElem?_cons_zero, Option.some.injEq] at at'
    exact at'
  subst equal
  have restored : Restocked world lbf (last.withCounts lbf) := by
    refine ⟨?_, ?_⟩
    · rw [BulkFileData.withCounts, restocked.same]
    · intro found same
      exact restocked.data found same
  have stocked : BulkFiles world { manager with bfds := front' ++ [last.withCounts lbf] } contents tip := by
    apply files.kept laws
    refine ⟨?_, rfl⟩
    rw [same]
    exact rel_append early (.cons restored .nil)
  obtain ⟨before, lbfHeaders, middle, -, chain, continues, lbfFollows, ends⟩ := FileChain.concat_inv stocked.chain
  -- The grown file follows what the last file followed.
  let grown : BulkFileData := { last with data := some (data ++ more), fileHash := world.fileHash (data ++ more), mru := after.now world }
  have fields : grown.lastHash = vbf.lastHash ∧ grown.lastChainWork = vbf.lastChainWork ∧ grown.count = lbf.count + vbf.count := by
    show last.lastHash = _ ∧ last.lastChainWork = _ ∧ last.count = _
    rw [restocked.same]
    exact ⟨rfl, rfl, rfl⟩
  have contents : data ++ more = (lbfHeaders ++ headers).flatten := by
    rw [flatten_append, ← lbfFollows.data data dataHeld, ← follows.data more held]
  have grownFollows : Follows world middle grown (lbfHeaders ++ headers) := by
    obtain ⟨final, linked, named⟩ := follows.linked
    refine ⟨⟨?_, ?_, ?_, ?_, ?_⟩, ⟨final, ?_, fields.1.trans named⟩, ?_⟩
    · intro header member
      rcases mem_append.mp member with old | new
      · exact lbfFollows.sized header old
      · exact follows.sized header new
    · rw [← contents]
    · intro found same
      rw [← contents]
      exact (Option.some.inj same).symm
    · rw [length_append, lbfFollows.count, follows.count, fields.2.2]
      rfl
    · simp [follows.some]
    · exact lbfFollows.after_hash.append (ends ▸ linked)
    · rw [fields.2.1, follows.work, ends, lbfFollows.after_work, totalWork_append, add_assoc]
  have grownContinues : Continues middle grown := by
    have starts : grown.firstHeight = (last.withCounts lbf).firstHeight ∧ grown.prevHash = (last.withCounts lbf).prevHash ∧
      grown.prevChainWork = (last.withCounts lbf).prevChainWork := ⟨rfl, rfl, rfl⟩
    exact ⟨starts.1.trans continues.height, fun above => by rw [starts.2.1, starts.2.2]; exact continues.named above⟩
  have replaced := stocked.replace laws rfl chain grownFollows grownContinues lbfFollows
  have final : Sound world (((after.point last.fileHash none).put front.length grown).point grown.fileHash (some (after.bfds.length - 1))) := by
    refine ⟨_, _, replaced.kept_of_same laws ?_ ?_⟩
    · simp [replaceBfdAtIndex, put, point, list, ← long]
    · funext hash
      simp [replaceBfdAtIndex, put, point, list, kept.index, BulkFileData.withCounts]
      rfl
  unfold mergeIncremental
  apply Ensures.bind
  apply ensures_change.mpr
  apply Ensures.bind
  unfold Ensures
  rw [run]
  apply Ensures.bind
  apply ensures_current.mpr
  simp only [at', dataHeld, held]
  apply Ensures.bind
  apply ensures_change.mpr
  split
  · apply Ensures.bind
    apply storage_ensures
    · intro _
      exact final.kept laws (.of_same rfl rfl)
    · exact final.kept laws (.of_same rfl rfl)
  · exact final

/-! Adding a file -/

theorem BulkFiles.last_end (files : BulkFiles world manager contents tip) (ends : manager.getLastBfd = some last) :
    tip.height = last.firstHeight + last.count ∧ last.lastHash = some tip.hash ∧ last.lastChainWork = some tip.work ∧ tip.height ≠ 0 := by
  obtain ⟨front, same⟩ := getLast_split ends
  have chain := files.chain
  rw [same] at chain
  obtain ⟨_, headers, middle, -, -, continues, follows, rfl⟩ := chain.concat_inv
  have positive := follows.count_pos
  have height : (middle.after last).height = middle.height + last.count := rfl
  have starts := continues.height
  refine ⟨?_, follows.lastHash, follows.lastChainWork, ?_⟩ <;> omega

theorem validateBfdForAdd_ok (files : BulkFiles world manager contents tip)
    (valid : validateBfdForAdd manager vbf = .ok ()) : Continues tip vbf := by
  unfold validateBfdForAdd at valid
  split at valid
  next none =>
    split at valid
    next zero =>
      have chain := files.chain
      rw [getLast?_eq_none_iff.mp none] at chain
      cases chain
      exact ⟨zero, fun above => absurd rfl above⟩
    next => simp at valid
  next last ends =>
    obtain ⟨height, hash, work, -⟩ := files.last_end ends
    split at valid
    · simp at valid
    next starts =>
      split at valid
      · simp at valid
      next named =>
        rw [not_or, not_not, not_not] at named
        refine ⟨(not_not.mp starts).trans height.symm, fun _ => ⟨?_, named.2.trans work⟩⟩
        exact Option.some.inj (named.1.trans hash)

theorem add_sound (laws : HashLaws world) (files : BulkFiles world manager contents tip)
    (cdn : validateBfdForAdd manager vbf = .ok () → ∀ file ∈ manager.bfds, isBdfIncremental file.toBulkFileFields = false)
    (follows : Continues tip vbf → ∃ headers, Follows world tip vbf headers) :
    Ensures (add world vbf) manager (fun _ => Sound world) (Sound world) := by
  unfold add
  apply Ensures.bind
  apply ensures_current.mpr
  split
  · exact ⟨contents, tip, files⟩
  next valid =>
    have continues := validateBfdForAdd_ok files valid
    obtain ⟨headers, follows⟩ := follows continues
    have pushed := Sound.kept laws ⟨_, _, files.push laws (cdn valid) continues follows⟩ (ensureMaxRetained_kept _ _)
    apply Ensures.bind
    apply ensures_change.mpr
    apply Ensures.bind
    apply ensures_current.mpr
    dsimp only
    split
    · apply Ensures.bind
      apply storage_ensures
      · intro fileId
        apply Ensures.bind
        apply ensures_change.mpr
        apply pushed.kept laws
        have inside : manager.bfds.length < ((manager.push vbf).point vbf.fileHash (some manager.bfds.length)).ensureMaxRetained.bfds.length := by
          rw [ensureMaxRetained_length]
          simp [point, BulkFileDataManager.push]
        refine ⟨?_, rfl⟩
        apply set_restocked (getElem?_eq_getElem inside)
        rw [getElem?_eq_getElem inside]
        exact ⟨rfl, fun _ => .inl⟩
      · exact pushed.kept laws (.of_same rfl rfl)
    · exact pushed

end WalletToolbox.Chaintracks.Bulk
