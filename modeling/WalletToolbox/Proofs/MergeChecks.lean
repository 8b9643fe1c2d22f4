import WalletToolbox.Proofs.BulkReplacements

/-! A merge of one file as its checks and what it writes once they are passed. -/

namespace WalletToolbox.Chaintracks.Bulk

open Effects Fallible BulkFileDataManager

inductive BulkWrite where
  | unchanged (hbf : BulkFileData)
  | extend (lbf vbf : BulkFileData)
  | add (vbf : BulkFileData)
  /-- `update` takes the place of the file at `index`, and the last file may go. -/
  | replace (update : BulkFileData) (index : Nat) (drop : Option BulkFileData)
  /-- `update` also takes over the first headers of the last file, whose data is loaded first. -/
  | shift (update : BulkFileData) (index : Nat) (replaced : Option BulkFileData)

def planUpdate (manager : BulkFileDataManager) (update hbf : BulkFileData) : Except BulkError BulkWrite :=
  let index := manager.bfds.length - 1
  if ¬(hbf.firstHeight = update.firstHeight ∧ hbf.prevChainWork = update.prevChainWork ∧ hbf.prevHash = update.prevHash) then
    .error (.invalidParameter "file" "an existing file by height, prevChainWork and prevHash")
  else if ¬(isBdfCdn update.toBulkFileFields = isBdfCdn hbf.toBulkFileFields → hbf.count < update.count) then
    .error (.invalidParameter "file.count" s!"greater than the current count {hbf.count}")
  else
    match manager.bfds[index]? with
    | none => .error .typeError
    | some lbf =>
      if hbf.firstHeight = lbf.firstHeight then
        if isBdfIncremental update.toBulkFileFields then
          if isBdfIncremental lbf.toBulkFileFields then .ok (.replace update index none)
          else .error (.invalidParameter "file" "an incremental file to update an existing incremental file")
        else if isBdfCdn lbf.toBulkFileFields then
          if lbf.count < update.count then .ok (.replace update index none)
          else .error (.invalidParameter "update.count" s!"CDN update must have more headers. {update.count} <= {lbf.count}")
        else if update.count < lbf.count then .ok (.shift update index none)
        else .ok (.replace update index none)
      else
        match if 2 ≤ manager.bfds.length then manager.bfds[index - 1]? else none with
        | none => .error (.invalidParameter "file" "an update to last or second to last file")
        | some lbf2 =>
          if ¬hbf.firstHeight = lbf2.firstHeight then .error (.invalidParameter "file" "an update to last or second to last file")
          else if ¬(isBdfCdn update.toBulkFileFields ∧ isBdfCdn lbf2.toBulkFileFields ∧ lbf2.count < update.count) then
            .error (.invalidParameter "file" "a CDN file update with more headers than the current CDN file")
          else if ¬isBdfIncremental lbf.toBulkFileFields then
            .error (.invalidParameter "file" "a CDN file update followed by an incremental file")
          else
            let update := if (truthyId update.fileId).isNone then { update with fileId := lbf2.fileId } else update
            if lbf2.count + lbf.count ≤ update.count then .ok (.replace update (index - 1) (some lbf))
            else .ok (.shift update (index - 1) (some lbf2))

def planNew (manager : BulkFileDataManager) (vbf : BulkFileData) : Except BulkError BulkWrite :=
  match manager.getLastBfd.filter fun lbf => isBdfIncremental vbf.toBulkFileFields && isBdfIncremental lbf.toBulkFileFields with
  | some lbf => .ok (.extend lbf vbf)
  | none => (validateBfdForAdd manager vbf).map fun _ => .add vbf

variable (world : World)

/-- The part of a merge that changes no file but for the data at hand. -/
def checkFile (file : BulkHeaderFileInfo) : BulkM BulkWrite := do
  change (·.takeFileId file)
  let manager ← current
  match manager.getBfdForHeight file.firstHeight with
  | some hbf =>
    if unchanged hbf file then pure (.unchanged hbf)
    else
      let vbf ← validateFileInfo world file
      let manager ← current
      ofExcept (planUpdate manager vbf hbf)
  | none =>
    let vbf ← validateFileInfo world file
    let manager ← current
    ofExcept (planNew manager vbf)

def carryOut (r : BulkFileDataManagerMergeResult) : BulkWrite → BulkM BulkFileDataManagerMergeResult
  | .unchanged hbf => pure { r with unchanged := r.unchanged ++ [bfdToInfo hbf false] }
  | .extend lbf vbf => do
    let manager ← current
    mergeIncremental world (manager.bfds.length - 1) lbf vbf r
  | .add vbf => do
    let added ← add world vbf
    pure { r with inserted := r.inserted ++ [added] }
  | .replace update index drop => applyPlan world ⟨update, index, none, none, drop⟩ r
  | .shift update index replaced => do
    let manager ← current
    ensureDataAt world (manager.bfds.length - 1)
    let manager ← current
    applyPlan world ⟨update, index, manager.bfds[manager.bfds.length - 1]?, replaced, none⟩ r

section
variable {ε σ α β γ : Type} {state : σ}

theorem bind_assoc_apply (method) (next : α → Fallible ε σ β) (last : β → Fallible ε σ γ) :
    ((method >>= next) >>= last) state = (method >>= fun value => next value >>= last) state := by
  rw [bind_apply, bind_apply, bind_apply]
  cases method state with
  | mk outcome after =>
    cases outcome with
    | error _ => rfl
    | ok value => rfl

theorem bind_congr_apply {method : Fallible ε σ α}
    (same : ∀ value after, method state = (.ok value, after) → next value after = other value after) :
    (method >>= next) state = (method >>= other) state := by
  rw [bind_apply, bind_apply]
  cases ran : method state with
  | mk outcome after =>
    cases outcome with
    | error _ => rfl
    | ok value => exact same value after ran

end

theorem ensureDataAt_length (index : Nat) (manager) : (ensureDataAt world index manager).2.bfds.length = manager.bfds.length := by
  unfold ensureDataAt
  split
  · rfl
  · simp only
    split
    · simp
    · split
      · simp [ensureMaxRetained_length]
      · simp

variable {world} {manager : BulkFileDataManager}

theorem require_of [Decidable condition] (met : condition) (error : ε) (next : Unit → Fallible ε σ α) :
    (require condition error >>= next) state = next () state := by
  unfold require
  rw [if_pos met, pure_bind_apply]

theorem require_not [Decidable condition] (unmet : ¬condition) (error : ε) (next : Unit → Fallible ε σ α) :
    (require condition error >>= next) state = (.error error, state) := by
  unfold require
  rw [if_neg unmet]
  rfl

theorem shift_eq (update) (index : Nat) (replaced) (r) :
    ((do
      ensureDataAt world (manager.bfds.length - 1)
      let after ← current
      pure ⟨update, index, after.bfds[manager.bfds.length - 1]?, replaced, none⟩ : BulkM UpdatePlan) >>= fun plan => applyPlan world plan r) manager =
      carryOut world r (.shift update index replaced) manager := by
  rw [bind_assoc_apply]
  simp only [carryOut]
  rw [current_bind_apply]
  apply bind_congr_apply
  intro _ after ran
  have length := ensureDataAt_length world (manager.bfds.length - 1) manager
  rw [ran] at length
  rw [bind_assoc_apply, current_bind_apply, current_bind_apply, pure_bind_apply, length]

theorem update_eq (vbf hbf) (r) :
    update world vbf hbf r manager = (ofExcept (planUpdate manager vbf hbf) >>= carryOut world r) manager := by
  unfold update planUpdate
  by_cases starts : hbf.firstHeight = vbf.firstHeight ∧ hbf.prevChainWork = vbf.prevChainWork ∧ hbf.prevHash = vbf.prevHash
  · rw [require_of starts, if_neg (not_not.mpr starts)]
    by_cases longer : isBdfCdn vbf.toBulkFileFields = isBdfCdn hbf.toBulkFileFields → hbf.count < vbf.count
    · rw [require_of longer, if_neg (not_not.mpr longer)]
      unfold resolveUpdatePlan
      rw [bind_assoc_apply, current_bind_apply]
      dsimp only
      cases last : manager.bfds[manager.bfds.length - 1]? with
      | none => rfl
      | some lbf =>
        dsimp only
        by_cases here : hbf.firstHeight = lbf.firstHeight
        · rw [if_pos here, if_pos here]
          by_cases incremental : isBdfIncremental vbf.toBulkFileFields = true
          · rw [if_pos incremental, if_pos incremental, bind_assoc_apply]
            by_cases both : isBdfIncremental lbf.toBulkFileFields = true
            · rw [require_of both, if_pos both]
              rfl
            · rw [require_not both, if_neg both]
              rfl
          · rw [if_neg incremental, if_neg incremental]
            by_cases cdn : isBdfCdn lbf.toBulkFileFields = true
            · rw [if_pos cdn, if_pos cdn, bind_assoc_apply]
              by_cases grows : lbf.count < vbf.count
              · rw [require_of grows, if_pos grows]
                rfl
              · rw [require_not grows, if_neg grows]
                rfl
            · rw [if_neg cdn, if_neg cdn]
              by_cases part : vbf.count < lbf.count
              · rw [if_pos part, if_pos part, shift_eq]
                rfl
              · rw [if_neg part, if_neg part]
                rfl
        · rw [if_neg here, if_neg here]
          cases before : (if 2 ≤ manager.bfds.length then manager.bfds[manager.bfds.length - 1 - 1]? else none) with
          | none => rfl
          | some lbf2 =>
            dsimp only
            rw [bind_assoc_apply]
            by_cases second : hbf.firstHeight = lbf2.firstHeight
            · rw [require_of second, if_neg (not_not.mpr second), bind_assoc_apply]
              by_cases cdn : isBdfCdn vbf.toBulkFileFields = true ∧ isBdfCdn lbf2.toBulkFileFields = true ∧ lbf2.count < vbf.count
              · rw [require_of cdn, if_neg (not_not.mpr cdn), bind_assoc_apply]
                by_cases incremental : isBdfIncremental lbf.toBulkFileFields = true
                · rw [require_of incremental, if_neg (not_not.mpr incremental)]
                  by_cases whole : lbf2.count + lbf.count ≤ (if (truthyId vbf.fileId).isNone = true then { vbf with fileId := lbf2.fileId } else vbf).count
                  · rw [if_pos whole, if_pos whole]
                    rfl
                  · rw [if_neg whole, if_neg whole, shift_eq]
                    rfl
                · rw [require_not incremental, if_pos incremental]
                  rfl
              · rw [require_not cdn, if_pos cdn]
                rfl
            · rw [require_not second, if_pos second]
              rfl
    · rw [require_not longer, if_pos longer]
      rfl
  · rw [require_not starts, if_pos starts]
    rfl

theorem mergeFile_eq (file) (r) :
    mergeFile world file r manager = (checkFile world file >>= carryOut world r) manager := by
  unfold mergeFile checkFile
  rw [change_bind_apply, current_bind_apply, bind_assoc_apply, change_bind_apply, bind_assoc_apply, current_bind_apply]
  cases (manager.takeFileId file).getBfdForHeight file.firstHeight with
  | some hbf =>
    dsimp only
    by_cases same : unchanged hbf file = true
    · rw [if_pos same, if_pos same, pure_bind_apply]
      rfl
    · rw [if_neg same, if_neg same, bind_assoc_apply]
      apply bind_congr_apply
      intro vbf after _
      rw [bind_assoc_apply, current_bind_apply, update_eq]
  | none =>
    dsimp only
    rw [bind_assoc_apply]
    apply bind_congr_apply
    intro vbf after _
    rw [bind_assoc_apply, current_bind_apply, current_bind_apply]
    have added : (add world vbf >>= fun added => pure { r with inserted := r.inserted ++ [added] }) after =
        (ofExcept ((validateBfdForAdd after vbf).map fun _ => BulkWrite.add vbf) >>= carryOut world r) after := by
      cases valid : validateBfdForAdd after vbf with
      | ok _ => rfl
      | error error =>
        unfold add
        rw [bind_assoc_apply, current_bind_apply, valid]
        rfl
    unfold planNew
    cases last : after.getLastBfd with
    | none => exact added
    | some lbf =>
      by_cases both : (isBdfIncremental vbf.toBulkFileFields && isBdfIncremental lbf.toBulkFileFields) = true
      · simp only [Option.filter, both, if_true]
        rfl
      · simp only [Option.filter, both]
        exact added

end WalletToolbox.Chaintracks.Bulk
