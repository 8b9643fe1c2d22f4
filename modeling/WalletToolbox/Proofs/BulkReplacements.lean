import WalletToolbox.Proofs.BulkMerges

/-! An update of the last files keeps the bulk files sound: the four plans one after another. -/

namespace WalletToolbox.Chaintracks.Bulk
open List

open Effects Fallible BulkFileDataManager

variable {world : World} {manager manager' : BulkFileDataManager} {contents : List (List Bytes)} {tip : Tip}

/-! What is left of a cut file -/

variable (world) in
def cutFile (update truncate : BulkFileData) (count : Nat) (fileId : Option Nat) (data : Bytes) : BulkFileData :=
  { truncate with
    prevHash := update.lastHash.getD "null", prevChainWork := update.lastChainWork, fileId, count := truncate.count - count
    firstHeight := truncate.firstHeight + count, data := some (data.drop (count * 80)), fileHash := world.fileHash (data.drop (count * 80)) }

theorem cut_follows (fileId : Option Nat)
    (follows : Follows world middle vbf headers) (lbfContinues : Continues start lbf) (lbfFollows : Follows world start lbf lbfHeaders)
    (leads : LinkedHeaders world middle.hash skipped start.hash) (height : start.height = middle.height + skipped.length)
    (work : start.work = middle.work + totalWork skipped) (same : skipped ++ lbfHeaders = headers ++ rest)
    (past : skipped.length ≤ headers.length) (some : rest ≠ []) :
    Continues (middle.after vbf) (cutFile world vbf lbf (headers.length - skipped.length) fileId lbfHeaders.flatten) ∧
      Follows world (middle.after vbf) (cutFile world vbf lbf (headers.length - skipped.length) fileId lbfHeaders.flatten) rest := by
  have later : lbfHeaders = headers.drop skipped.length ++ rest := by
    have dropped := congrArg (drop skipped.length) same
    rwa [drop_left, drop_append_of_le_length past] at dropped
  have kept : ∀ header ∈ headers.drop skipped.length, header.length = 80 := fun header member =>
    follows.sized header (mem_of_mem_drop member)
  have data : lbfHeaders.flatten.drop ((headers.length - skipped.length) * 80) = rest.flatten := by
    rw [later, ← length_drop]
    exact flatten_drop_sized kept
  constructor
  · constructor
    · have starts := lbfContinues.height
      have many := follows.count
      simp only [cutFile, Tip.after]
      omega
    · intro _
      simp only [cutFile, follows.lastHash, Option.getD_some, follows.lastChainWork, and_self]
  · obtain ⟨last, linked, ends⟩ := lbfFollows.linked
    apply follows.cut lbf (same ▸ leads.append linked) ends _ some
    · intro header member
      apply lbfFollows.sized
      rw [later]
      exact mem_append_right _ member
    · simp only [cutFile, data]
    · simp only [cutFile, data]
    · have long := lbfFollows.count
      have lengths := congrArg length later
      simp only [length_append, length_drop] at lengths
      simp only [cutFile]
      omega
    · rfl
    · rfl
    · rw [lbfFollows.work, work, ← same, totalWork_append, add_assoc]

variable (world) in
theorem shiftWork_ok {update truncate} (replaced)
    (at' : manager.fileHashToIndex update.fileHash = some position)
    (after : manager.fileHashToIndex truncate.fileHash = none ∨
      manager.fileHashToIndex truncate.fileHash = some (position + 1) ∧ replaced.isSome = true)
    (held : truncate.data = some data) :
    let cut := cutFile world update truncate (update.count - (replaced.map (·.count)).getD 0)
      (if replaced.isSome then truncate.fileId else none) data
    ∃ final, shiftWork world update truncate replaced manager = (.ok cut, final) ∧
      final.bfds = (if replaced.isSome then manager.bfds.set (manager.bfds.length - 1) cut else manager.bfds ++ [cut]) ∧
      ∀ hash, final.fileHashToIndex hash = if hash = cut.fileHash then some (position + 1) else if hash = truncate.fileHash then none
        else manager.fileHashToIndex hash := by
  have first : manager.fileHashToIndex truncate.fileHash = none ∨
      manager.fileHashToIndex truncate.fileHash = (manager.fileHashToIndex update.fileHash).map (· + 1) := by
    rw [at']
    exact after.imp id And.left
  have second := after.imp id And.right
  unfold shiftWork
  rw [current_bind_apply]
  dsimp only
  rw [require, if_pos first, pure_bind_apply, require, if_pos second, pure_bind_apply, change_bind_apply, change_bind_apply]
  simp only [held, Option.map_some, change_bind_apply, pure_apply]
  refine ⟨_, rfl, ?_, ?_⟩
  · cases replaced with
    | none => simp [put, push, point, cutFile]
    | some old => simp [put, point, cutFile]
  · intro hash
    cases replaced with
    | none => simp [put, push, point, at', cutFile]
    | some old => simp [put, point, at', cutFile]

/-! Writing an update to the storage -/

theorem storageOf_ensures (ok : ∀ clock, post () { manager with clock }) (error : ∀ clock, failed { manager with clock }) :
    Ensures (storageOf world fileId request) manager post failed := by
  unfold storageOf
  split
  · exact storage_ensures (fun _ => ok _) (error _)
  · exact ok manager.clock

section Persist
variable (laws : HashLaws world)
include laws

section
variable (sound : Sound world manager) (ends : ∀ cut, truncated = some cut → manager.bfds[manager.bfds.length - 1]? = some cut)
include sound ends

theorem persistTruncated_sound :
    Ensures (persistTruncated world replaced truncated) manager (fun _ => Sound world) (Sound world) := by
  have waited : Sound world { manager with clock := manager.clock + 1 } := sound.kept laws (.of_same rfl rfl)
  unfold persistTruncated
  split
  · exact sound
  · apply Ensures.bind
    exact storage_ensures (fun _ => waited) waited
  next cut =>
    apply Ensures.bind
    apply storage_ensures _ waited
    intro fileId
    apply Ensures.bind
    apply ensures_change.mpr
    refine sound.kept laws ⟨?_, rfl⟩
    apply set_restocked (ends cut rfl)
    exact ⟨rfl, fun _ => .inl⟩

theorem persistUpdate_sound :
    Ensures (persistUpdate world plan truncated) manager (fun _ => Sound world) (Sound world) := by
  have waited (clock : Nat) : Sound world { manager with clock } := sound.kept laws (.of_same rfl rfl)
  unfold persistUpdate
  apply Ensures.bind
  apply ensures_current.mpr
  split
  · apply Ensures.bind
    apply storageOf_ensures _ waited
    intro clock
    apply Ensures.bind
    apply (persistTruncated_sound laws (waited clock) ends).mono _ fun _ => id
    intro _ after left
    apply Ensures.bind
    apply storageOf_ensures
    · intro _
      exact left.kept laws (.of_same rfl rfl)
    · intro _
      exact left.kept laws (.of_same rfl rfl)
  · exact sound

theorem finish_sound :
    Ensures (do
      let truncated ← persistUpdate world plan truncated
      change (·.ensureMaxRetained)
      pure (recordUpdateResults r plan truncated)) manager (fun _ => Sound world) (Sound world) := by
  apply Ensures.bind
  apply (persistUpdate_sound laws sound ends).mono _ fun _ => id
  intro _ after left
  exact left.kept laws (ensureMaxRetained_kept _ _)

end

variable {front : List BulkFileData} {before : List (List Bytes)} {middle : Tip} {lbf lbf2 vbf : BulkFileData}
  {headers lbfHeaders lbf2Headers : List Bytes} {r : BulkFileDataManagerMergeResult}

section
variable (files : BulkFiles world manager contents tip) (chain : FileChain world origin front before middle) (continues : Continues middle vbf) (follows : Follows world middle vbf headers)
include files chain continues follows

theorem applyPlan_whole (same : manager.bfds = front ++ [lbf]) (lbfFollows : Follows world middle lbf lbfHeaders) :
    Ensures (applyPlan world ⟨vbf, front.length, none, none, none⟩ r) manager (fun _ => Sound world) (Sound world) := by
  have replaced := files.replace laws same chain follows continues lbfFollows
  unfold applyPlan
  apply Ensures.bind
  apply ensures_current.mpr
  simp only [same, getElem?_append_right (Nat.le_refl _), Nat.sub_self, getElem?_cons_zero]
  apply Ensures.bind
  apply ensures_change.mpr
  apply Ensures.bind
  apply ensures_pure.mpr
  apply Ensures.bind
  apply ensures_change.mpr
  exact finish_sound laws ⟨_, _, replaced⟩ (by simp)

theorem applyPlan_drop (same : manager.bfds = front ++ [lbf2, lbf]) (lbf2Continues : Continues middle lbf2)
    (lbf2Follows : Follows world middle lbf2 lbf2Headers) (lbfFollows : Follows world (middle.after lbf2) lbf lbfHeaders) :
    Ensures (applyPlan world ⟨vbf, front.length, none, none, some lbf⟩ r) manager (fun _ => Sound world) (Sound world) := by
  have dropped := files.drop laws same chain follows continues lbf2Continues lbf2Follows lbfFollows
  unfold applyPlan
  apply Ensures.bind
  apply ensures_current.mpr
  simp only [same, getElem?_append_right (Nat.le_refl _), Nat.sub_self, getElem?_cons_zero]
  apply Ensures.bind
  apply ensures_change.mpr
  apply Ensures.bind
  apply ensures_pure.mpr
  apply Ensures.bind
  apply ensures_change.mpr
  exact finish_sound laws ⟨_, _, dropped⟩ (by simp)

theorem applyPlan_split (same : manager.bfds = front ++ [lbf]) (lbfContinues : Continues middle lbf) (lbfFollows : Follows world middle lbf lbfHeaders)
    (held : lbf.data = some lbfHeaders.flatten) (cdn : isBdfIncremental vbf.toBulkFileFields = false) (agrees : lbfHeaders = headers ++ rest) (left : rest ≠ []) :
    Ensures (applyPlan world ⟨vbf, front.length, some lbf, none, none⟩ r) manager (fun _ => Sound world) (Sound world) := by
  have apart : vbf.fileHash ≠ lbf.fileHash := by
    intro alike
    have equal := follows.toHolds.unique laws lbfFollows.toHolds alike
    exact left (append_cancel_left (agrees.symm.trans (equal.symm.trans (append_nil headers).symm)))
  unfold applyPlan
  apply Ensures.bind
  apply ensures_current.mpr
  simp only [same, getElem?_append_right (Nat.le_refl _), Nat.sub_self, getElem?_cons_zero]
  apply Ensures.bind
  apply ensures_change.mpr
  have pointed : (manager.replaceBfdAtIndex front.length lbf vbf).fileHashToIndex vbf.fileHash = some front.length := by
    simp [replaceBfdAtIndex, point]
  have gone : (manager.replaceBfdAtIndex front.length lbf vbf).fileHashToIndex lbf.fileHash = none := by
    simp [replaceBfdAtIndex, put, point, apart.symm]
  obtain ⟨final, run, list, index⟩ := shiftWork_ok world none pointed (.inl gone) held
  obtain ⟨cutContinues, cutFollows⟩ := cut_follows none follows lbfContinues lbfFollows (.nil _) rfl (by simp) agrees (Nat.zero_le _) left
  have count : headers.length - ([] : List Bytes).length = vbf.count - ((none : Option BulkFileData).map (·.count)).getD 0 := by
    simp [follows.count]
  rw [count] at cutContinues cutFollows
  have bfds : final.bfds = front ++ [vbf, cutFile world vbf lbf (vbf.count - ((none : Option BulkFileData).map (·.count)).getD 0) none
      lbfHeaders.flatten] := by
    simp [list, replaceBfdAtIndex, put, point, same]
  have truncated := files.truncate laws same (by simp) chain follows continues cdn cutContinues cutFollows
    (fun file member => chain.fresh laws lbfFollows member) (fun file member => chain.fresh laws lbfFollows member) apart bfds (by
      intro hash
      simp only [index hash, replaceBfdAtIndex, put, point]
      rfl)
  apply Ensures.bind
  apply Ensures.of_run run
  apply Ensures.bind
  apply ensures_pure.mpr
  apply Ensures.bind
  apply ensures_change.mpr
  apply finish_sound laws ⟨_, _, truncated⟩
  intro cut equal
  rw [bfds, ← equal]
  simp

theorem applyPlan_shift (same : manager.bfds = front ++ [lbf2, lbf]) (counts : old.count = lbf2.count)
    (lbf2Continues : Continues middle lbf2) (lbf2Follows : Follows world middle lbf2 lbf2Headers)
    (lbfContinues : Continues (middle.after lbf2) lbf) (lbfFollows : Follows world (middle.after lbf2) lbf lbfHeaders)
    (held : lbf.data = some lbfHeaders.flatten) (cdn : isBdfIncremental vbf.toBulkFileFields = false) (agrees : lbf2Headers ++ lbfHeaders = headers ++ rest)
    (past : lbf2Headers.length ≤ headers.length) (left : rest ≠ []) :
    Ensures (applyPlan world ⟨vbf, front.length, some lbf, some old, none⟩ r) manager (fun _ => Sound world) (Sound world) := by
  have upTo := chain.append (.single lbf2Continues lbf2Follows)
  have positive := lbf2Follows.count_pos
  have height : (middle.after lbf2).height = middle.height + lbf2.count := rfl
  have apart : vbf.fileHash ≠ lbf.fileHash := by
    intro alike
    obtain ⟨-, heights⟩ := Follows.height_unique laws chain follows upTo lbfFollows alike
    omega
  have apart2 : lbf2.fileHash ≠ lbf.fileHash := by
    intro alike
    obtain ⟨-, heights⟩ := Follows.height_unique laws chain lbf2Follows upTo lbfFollows alike
    omega
  have found := files.indexed (front.length + 1) lbf (by
    simp [same])
  unfold applyPlan
  apply Ensures.bind
  apply ensures_current.mpr
  simp only [same, getElem?_append_right (Nat.le_refl _), Nat.sub_self, getElem?_cons_zero]
  apply Ensures.bind
  apply ensures_change.mpr
  have pointed : (manager.replaceBfdAtIndex front.length lbf2 vbf).fileHashToIndex vbf.fileHash = some front.length := by
    simp [replaceBfdAtIndex, point]
  have next : (manager.replaceBfdAtIndex front.length lbf2 vbf).fileHashToIndex lbf.fileHash = some (front.length + 1) := by
    simp [replaceBfdAtIndex, put, point, apart.symm, apart2.symm, found]
  obtain ⟨final, run, list, index⟩ := shiftWork_ok world (some old) pointed (.inr ⟨next, rfl⟩) held
  obtain ⟨cutContinues, cutFollows⟩ := cut_follows lbf.fileId follows lbfContinues lbfFollows lbf2Follows.after_hash
    lbf2Follows.after_height lbf2Follows.after_work agrees past left
  have count : headers.length - lbf2Headers.length = vbf.count - ((some old).map (·.count)).getD 0 := by
    simp [follows.count, lbf2Follows.count, counts]
  rw [count] at cutContinues cutFollows
  have bfds : final.bfds = front ++ [vbf, cutFile world vbf lbf (vbf.count - ((some old).map (·.count)).getD 0) lbf.fileId
      lbfHeaders.flatten] := by
    simp [list, replaceBfdAtIndex, put, point, same]
  have truncated := files.truncate laws same (by simp) chain follows continues cdn cutContinues cutFollows
    (fun file member => chain.fresh laws lbf2Follows member)
    (fun file member => upTo.fresh laws lbfFollows (mem_append_left _ member)) apart bfds (by
      intro hash
      simp only [index hash, replaceBfdAtIndex, put, point]
      rfl)
  apply Ensures.bind
  apply Ensures.of_run run
  apply Ensures.bind
  apply ensures_pure.mpr
  apply Ensures.bind
  apply ensures_change.mpr
  apply finish_sound laws ⟨_, _, truncated⟩
  intro cut equal
  rw [bfds, ← equal]
  simp

end

omit laws in
theorem prefix_of_flatten {ones others : List Bytes} (sized : ∀ header ∈ ones, header.length = 80)
    (also : ∀ header ∈ others, header.length = 80) (starts : ones.flatten <+: others.flatten) : ∃ rest, others = ones ++ rest := by
  have long := flatten_length_sized sized
  have long' := flatten_length_sized also
  have few := starts.length_le
  have taken : ∀ header ∈ others.take ones.length, header.length = 80 := fun header member => also header (mem_of_mem_take member)
  have same : ones.flatten = (others.take ones.length).flatten := by
    obtain ⟨rest, split⟩ := starts
    have split' : ones.flatten ++ rest = (others.take ones.length).flatten ++ (others.drop ones.length).flatten := by
      rw [split, ← flatten_append, take_append_drop]
    apply (append_inj split' _).1
    rw [long, flatten_length_sized taken, length_take]
    omega
  exact ⟨others.drop ones.length, by rw [flatten_sized sized taken same, length_take, Nat.min_eq_left (by omega), take_append_drop]⟩

omit laws in
theorem FileChain.last_of_height
    (chain : FileChain world tip files rest last) (continues : Continues last lbf) (member : file ∈ files ++ [lbf])
    (height : file.firstHeight = lbf.firstHeight) : file = lbf := by
  rcases mem_append.mp member with early | late
  · have bounds := chain.bounds early
    have starts := continues.height
    omega
  · exact mem_singleton.mp late

structure ReadFrom (file hbf : BulkFileData) : Prop where
  firstHeight : file.firstHeight = hbf.firstHeight
  prevHash : file.prevHash = hbf.prevHash
  prevChainWork : file.prevChainWork = hbf.prevChainWork

omit laws in
theorem ReadFrom.continues (read : ReadFrom file hbf) (continues : Continues middle file)
    (starts : hbf.firstHeight = vbf.firstHeight ∧ hbf.prevChainWork = vbf.prevChainWork ∧ hbf.prevHash = vbf.prevHash) : Continues middle vbf := by
  constructor
  · rw [← starts.1, ← read.firstHeight, continues.height]
  · rw [← starts.2.1, ← starts.2.2, ← read.prevHash, ← read.prevChainWork]
    exact continues.named

theorem load_last (files : BulkFiles world manager contents tip) (same : manager.bfds = front ++ [lbf])
    (undamaged : Undamaged world manager (manager.bfds.length - 1)) :
    Ensures (ensureDataAt world (manager.bfds.length - 1)) manager
      (fun _ after => Kept world manager after ∧ ∃ front' lbf' data, after.bfds = front' ++ [lbf'] ∧
        List.Forall₂ (Restocked world) front front' ∧ Restocked world lbf lbf' ∧ lbf'.data = some data) (Sound world) := by
  rcases undamaged with ⟨after, loaded, data, run, at', held⟩ | ⟨error, after, run, unchanged⟩
  · apply Ensures.of_run run
    have kept := ensureDataAt_ok run
    have related := kept.files
    rw [same] at related
    obtain ⟨front', lbf', list, early, last⟩ := forall₂_concat related
    refine ⟨kept, front', lbf', data, list, early, last, ?_⟩
    have equal : lbf' = loaded := by
      have index : manager.bfds.length - 1 = front'.length := by simp [same, early.length_eq]
      rw [list, index, getElem?_append_right (Nat.le_refl _), Nat.sub_self, getElem?_cons_zero, Option.some.injEq] at at'
      exact at'
    rw [equal, held]
  · unfold Ensures
    rw [run]
    exact ⟨contents, tip, files.kept_of_same laws unchanged (ensureDataAt_index run)⟩

omit laws in
theorem second_to_last (same : manager.bfds = front ++ [lbf])
    (found : (if 2 ≤ manager.bfds.length then manager.bfds[manager.bfds.length - 1 - 1]? else none) = some lbf2) :
    ∃ front2, front = front2 ++ [lbf2] := by
  split at found
  · rcases eq_nil_or_concat front with rfl | ⟨front2, last, rfl⟩
    · simp_all
    · rw [concat_eq_append] at same ⊢
      refine ⟨front2, ?_⟩
      simp only [same, length_append, length_singleton, append_assoc] at found
      simpa using found
  · simp at found

theorem update_sound {hbf file : BulkFileData} (files : BulkFiles world manager contents tip) (member : file ∈ manager.bfds)
    (read : ReadFrom file hbf)
    (follows : ∀ front back before middle, manager.bfds = front ++ back → FileChain world origin front before middle →
      Continues middle vbf → ∃ headers, Follows world middle vbf headers)
    (overlapping : ∀ replaced lbf, Overlaps manager vbf replaced lbf →
      Agrees world vbf (replaced ++ [lbf]) ∧ Undamaged world manager (manager.bfds.length - 1)) :
    Ensures (update world vbf hbf r) manager (fun _ => Sound world) (Sound world) := by
  have sound : Sound world manager := ⟨contents, tip, files⟩
  unfold update
  apply Ensures.bind
  apply ensures_require _ fun _ => sound
  intro starts
  apply Ensures.bind
  apply ensures_require _ fun _ => sound
  intro _
  apply Ensures.bind
  unfold resolveUpdatePlan
  apply Ensures.bind
  apply ensures_current.mpr
  dsimp only
  split
  · exact sound
  next lbf at' =>
    obtain ⟨front, same⟩ := getLast_split (getLast?_eq_getElem? ▸ at')
    have index : manager.bfds.length - 1 = front.length := by simp [same]
    have cdn := files.cdn_front same (by simp)
    have chained := files.chain
    rw [same] at chained member
    obtain ⟨before, lbfHeaders, middle, -, chain, lbfContinues, lbfFollows, -⟩ := chained.concat_inv
    split
    next last =>
      have equal := chain.last_of_height lbfContinues member (read.firstHeight.trans last)
      subst equal
      have continues := read.continues lbfContinues starts
      obtain ⟨headers, vbfFollows⟩ := follows _ _ _ _ same chain continues
      have whole := applyPlan_whole (r := r) laws files chain continues vbfFollows same lbfFollows
      rw [← index] at whole
      split
      · apply Ensures.bind
        apply ensures_require _ fun _ => sound
        intro _
        exact whole
      next update =>
        split
        · apply Ensures.bind
          apply ensures_require _ fun _ => sound
          intro _
          exact whole
        next incremental =>
          split
          next shorter =>
            have overlaps : Overlaps manager vbf [] file := by
              refine ⟨⟨front, same⟩, Nat.zero_le _, ⟨file, rfl, ?_, ?_, ?_⟩, ?_, ?_, ?_, ?_⟩
              · exact read.firstHeight.trans starts.1
              · exact read.prevHash.trans starts.2.2
              · exact read.prevChainWork.trans starts.2.1
              · simpa [isBdfCdn] using update
              · simpa [isBdfCdn] using incremental
              · exact vbfFollows.count_pos
              · simpa using shorter
            obtain ⟨agrees, undamaged⟩ := overlapping _ _ overlaps
            apply Ensures.bind
            apply (load_last laws files same undamaged).mono _ fun _ => id
            intro _ after loaded
            obtain ⟨kept, front', lbf', data, list, early, restocked, held⟩ := loaded
            apply Ensures.bind
            apply ensures_current.mpr
            have long : front.length = front'.length := early.length_eq
            have found : after.bfds[manager.bfds.length - 1]? = some lbf' := by
              rw [list, index, long, getElem?_append_right (Nat.le_refl _), Nat.sub_self, getElem?_cons_zero]
            rw [found, index, long]
            have lbfFollows' := restocked.follows laws lbfFollows
            have starts' := agrees headers.flatten [lbfHeaders.flatten] vbfFollows.hash (.cons lbfFollows.hash .nil)
            rw [flatten_singleton] at starts'
            obtain ⟨rest, split⟩ := prefix_of_flatten vbfFollows.sized lbfFollows.sized starts'
            apply applyPlan_split laws (files.kept laws kept) (chain.restocked laws early) continues vbfFollows list (restocked.continues lbfContinues) lbfFollows'
              (held.trans (congrArg some (lbfFollows'.data data held))) _ split
            · intro none
              have longer := congrArg length split
              rw [none, append_nil, lbfFollows.count, vbfFollows.count] at longer
              omega
            · simpa using update
          next => exact whole
    next other =>
      split
      · exact sound
      next lbf2 at2 =>
        apply Ensures.bind
        apply ensures_require _ fun _ => sound
        intro same2
        apply Ensures.bind
        apply ensures_require _ fun _ => sound
        intro beside
        obtain ⟨update, cdn2, longer⟩ := beside
        apply Ensures.bind
        apply ensures_require _ fun _ => sound
        intro incremental
        obtain ⟨front2, rfl⟩ := second_to_last same at2
        obtain ⟨before2, lbf2Headers, middle2, -, chain2, lbf2Continues, lbf2Follows, rfl⟩ := chain.concat_inv
        have within : file ∈ front2 ++ [lbf2] := by
          rcases mem_append.mp member with early | late
          · exact early
          · have equal := mem_singleton.mp late
            exact absurd (equal ▸ read.firstHeight.symm) other
        have equal := chain2.last_of_height lbf2Continues within (read.firstHeight.trans same2)
        subst equal
        have pair : manager.bfds = front2 ++ [file, lbf] := by simp [same]
        have continues := read.continues lbf2Continues starts
        obtain ⟨headers, vbfFollows⟩ := follows _ _ _ _ pair chain2 continues
        have index2 : manager.bfds.length - 1 - 1 = front2.length := by simp [pair]
        generalize named : (if (truthyId vbf.fileId).isNone = true then { vbf with fileId := file.fileId } else vbf) = stored
        have restocked : Restocked world vbf stored := by
          rw [← named]
          split
          · exact ⟨rfl, fun _ => .inl⟩
          · exact .refl vbf
        have storedContinues := restocked.continues continues
        have storedFollows := restocked.follows laws vbfFollows
        have counts : stored.count = vbf.count := restocked.fields.2.1
        split
        next reaches =>
          rw [index2]
          exact applyPlan_drop laws files chain2 storedContinues storedFollows pair lbf2Continues lbf2Follows lbfFollows
        next within =>
          have overlaps : Overlaps manager vbf [file] lbf := by
            refine ⟨⟨front2, pair⟩, Nat.le_refl _, ⟨file, rfl, ?_, ?_, ?_⟩, update, incremental, ?_, ?_⟩
            · exact read.firstHeight.trans starts.1
            · exact read.prevHash.trans starts.2.2
            · exact read.prevChainWork.trans starts.2.1
            · simpa using longer
            · rw [counts] at within
              simpa using within
          obtain ⟨agrees, undamaged⟩ := overlapping _ _ overlaps
          apply Ensures.bind
          apply (load_last laws files same undamaged).mono _ fun _ => id
          intro _ after loaded
          obtain ⟨kept, front', lbf', data, list, early, lbfRestocked, held⟩ := loaded
          apply Ensures.bind
          apply ensures_current.mpr
          obtain ⟨front2', lbf2', rfl, early2, lbf2Restocked⟩ := forall₂_concat early
          have long : front2.length = front2'.length := early2.length_eq
          have list2 : after.bfds = front2' ++ [lbf2', lbf'] := by simp [list]
          have found : after.bfds[manager.bfds.length - 1]? = some lbf' := by
            have last : manager.bfds.length - 1 = front2'.length + 1 := by simp [pair, long]
            rw [list2, last]
            simp
          rw [found, index2, long]
          have lbfFollows' := lbfRestocked.follows laws lbfFollows
          have ends := lbf2Restocked.after middle2
          have starts' := agrees headers.flatten [lbf2Headers.flatten, lbfHeaders.flatten] vbfFollows.hash
            (.cons lbf2Follows.hash (.cons lbfFollows.hash .nil))
          have pieces : [lbf2Headers.flatten, lbfHeaders.flatten].flatten = (lbf2Headers ++ lbfHeaders).flatten := by simp
          rw [pieces] at starts'
          have sized : ∀ header ∈ lbf2Headers ++ lbfHeaders, header.length = 80 := by
            intro header held
            exact (mem_append.mp held).elim (lbf2Follows.sized header) (lbfFollows.sized header)
          obtain ⟨rest, split⟩ := prefix_of_flatten vbfFollows.sized sized starts'
          have lengths := congrArg length split
          rw [length_append, length_append, lbf2Follows.count, lbfFollows.count, vbfFollows.count] at lengths
          apply applyPlan_shift laws (files.kept laws kept) (chain2.restocked laws early2) storedContinues storedFollows list2 lbf2Restocked.fields.2.1.symm
            (lbf2Restocked.continues lbf2Continues) (lbf2Restocked.follows laws lbf2Follows) (ends ▸ lbfRestocked.continues lbfContinues)
            (ends ▸ lbfFollows') (held.trans (congrArg some (lbfFollows'.data data held))) _ split
          · rw [lbf2Follows.count, vbfFollows.count]
            omega
          · intro none
            rw [none, length_nil] at lengths
            omega
          · rw [restocked.incremental]
            simpa [isBdfCdn] using update

end Persist

end WalletToolbox.Chaintracks.Bulk
