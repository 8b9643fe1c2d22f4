import WalletToolbox.Proofs.MergeOutcomes

/-! What a rejected merge leaves of the bulk files. -/

namespace WalletToolbox.Chaintracks.Bulk

open Effects Fallible BulkFileDataManager

variable {world : World} {manager after : BulkFileDataManager} {r : BulkFileDataManagerMergeResult} {update old : BulkFileData} {index : Nat}

/-! What the checks leave -/

/-- What is known of a write whose checks are passed. -/
def Fits (manager : BulkFileDataManager) : BulkWrite → Prop
  | .unchanged _ => True
  | .extend lbf vbf => manager.bfds[manager.bfds.length - 1]? = some lbf ∧ 0 < vbf.count
  | .add vbf => validateBfdForAdd manager vbf = .ok ()
  | .replace _ index _ => ∃ old, manager.bfds[index]? = some old
  | .shift update index replaced => (∃ old, manager.bfds[index]? = some old ∧ old.count ≠ update.count) ∧
      (replaced.isSome = true → index + 1 < manager.bfds.length)

theorem planUpdate_fits (planned : planUpdate manager vbf hbf = .ok write) : Fits manager write := by
  unfold planUpdate at planned
  dsimp only at planned
  split at planned
  · simp at planned
  · split at planned
    · simp at planned
    · split at planned
      · simp at planned
      next lbf ends =>
        split at planned
        · split at planned
          · split at planned
            · cases planned
              exact ⟨lbf, ends⟩
            · simp at planned
          · split at planned
            · split at planned
              · cases planned
                exact ⟨lbf, ends⟩
              · simp at planned
            · split at planned
              next shorter =>
                cases planned
                exact ⟨⟨lbf, ends, by omega⟩, by simp⟩
              · cases planned
                exact ⟨lbf, ends⟩
        · split at planned
          · simp at planned
          next lbf2 before =>
            split at before
            next two =>
              split at planned
              · simp at planned
              · split at planned
                · simp at planned
                next longer =>
                  have grows := (not_not.mp longer).2.2
                  split at planned
                  · simp at planned
                  · have counts : (if (truthyId vbf.fileId).isNone = true then { vbf with fileId := lbf2.fileId } else vbf).count = vbf.count := by
                      split <;> rfl
                    generalize (if (truthyId vbf.fileId).isNone = true then { vbf with fileId := lbf2.fileId } else vbf) = update at planned counts
                    split at planned
                    · cases planned
                      exact ⟨lbf2, before⟩
                    · cases planned
                      exact ⟨⟨lbf2, before, by omega⟩, fun _ => by omega⟩
            · simp at before

theorem planNew_fits (some : 0 < vbf.count) (planned : planNew manager vbf = .ok write) : Fits manager write := by
  unfold planNew at planned
  split at planned
  next lbf last =>
    cases planned
    have ends := (Option.filter_eq_some_iff.mp last).1
    refine ⟨?_, some⟩
    rwa [getLastBfd, List.getLast?_eq_getElem?] at ends
  next =>
    cases valid : validateBfdForAdd manager vbf with
    | error _ =>
      rw [valid] at planned
      cases planned
    | ok _ =>
      rw [valid] at planned
      cases planned
      exact valid

theorem checkFile_ensures (file : BulkHeaderFileInfo) :
    Ensures (checkFile world file) manager (fun write after => Untouched world manager after ∧ Fits after write) (Untouched world manager) := by
  have taken : Kept world manager (manager.takeFileId file) := takeFileId_kept file
  unfold checkFile
  apply Ensures.bind
  apply ensures_change.mpr
  apply Ensures.bind
  apply ensures_current.mpr
  split
  next hbf _ =>
    split
    · exact ⟨taken.files, trivial⟩
    · apply Ensures.bind
      apply ensures_of_run
      · intro vbf after ran
        have kept := (validateFileInfo_ok ran).1
        apply Ensures.bind
        apply ensures_current.mpr
        cases planned : planUpdate after vbf hbf with
        | ok write => exact ⟨(taken.trans kept).files, planUpdate_fits planned⟩
        | error error => exact (taken.trans kept).files
      · intro error after ran
        exact (taken.trans (validateFileInfo_error ran)).files
  next =>
    apply Ensures.bind
    apply ensures_of_run
    · intro vbf after ran
      obtain ⟨kept, -, some, -⟩ := validateFileInfo_ok ran
      apply Ensures.bind
      apply ensures_current.mpr
      cases planned : planNew after vbf with
      | ok write => exact ⟨(taken.trans kept).files, planNew_fits some planned⟩
      | error error => exact (taken.trans kept).files
    · intro error after ran
      exact (taken.trans (validateFileInfo_error ran)).files

/-! A merge and its condition -/

theorem CarriedOut.mono
    (carried : CarriedOut world start manager r write failed) (weaker : ∀ after, failed after → other after) :
    CarriedOut world start manager r write other := by
  refine ⟨carried.1, fun fails => ?_⟩
  obtain ⟨error, after, run, holds⟩ := carried.2 fails
  exact ⟨error, after, run, weaker after holds⟩

theorem replace_carriedOut (untouched : Untouched world start manager)
    (at' : manager.bfds[index]? = some old) :
    CarriedOut world start manager r (.replace update index drop) fun after => ¬Untouched world start after := by
  have decides := @applyPlan_replace world manager r update old index drop at'
  have inside := (List.getElem?_eq_some_iff.mp at').1
  have length := untouched.length
  constructor
  · intro succeeds error after run
    by_cases persists : Persists world manager (planRequests ⟨update, index, none, none, drop⟩ none)
    · obtain ⟨_, _, done, _⟩ := decides.ok persists
      have same := run.symm.trans done
      cases (Prod.mk.inj same).1
    · obtain ⟨rfl, first, holds, rewrites⟩ := succeeds.resolve_left persists
      obtain ⟨_, last, failed, files⟩ := decides.error persists
      obtain rfl := (Prod.mk.inj (run.symm.trans failed)).2
      unfold Untouched
      rw [files, if_neg (by simp)]
      exact forall₂_set untouched holds rewrites
  · intro fails
    obtain ⟨error, after, run, files⟩ := decides.error fun persists => fails (.inl persists)
    refine ⟨error, after, run, fun still => ?_⟩
    cases drop with
    | some gone =>
      have shorter := still.length
      rw [files] at shorter
      simp at shorter
      omega
    | none =>
      obtain ⟨first, holds⟩ : ∃ first, start.bfds[index]? = some first := ⟨_, List.getElem?_eq_getElem (by omega)⟩
      obtain ⟨last, stands, rewrites⟩ := still.at holds
      rw [files] at stands
      obtain rfl : update = last := by simpa [inside] using stands
      exact fails (.inr ⟨rfl, first, holds, rewrites⟩)

theorem shift_carriedOut (untouched : Untouched world start manager)
    (fits : Fits manager (.shift update index replaced)) :
    CarriedOut world start manager r (.shift update index replaced) fun after => ¬Untouched world start after := by
  obtain ⟨⟨old, at', differs⟩, before⟩ := fits
  have inside := (List.getElem?_eq_some_iff.mp at').1
  unfold CarriedOut
  simp only [carryOut, current_bind_apply, Succeeds]
  cases run : ensureDataAt world (manager.bfds.length - 1) manager with
  | mk outcome loaded =>
    cases outcome with
    | error error =>
      rw [bind_of_error run]
      constructor
      · intro still _ _ same
        obtain rfl := (Prod.mk.inj same).2
        exact still
      · exact fun touched => ⟨error, loaded, rfl, touched⟩
    | ok _ =>
      rw [bind_of_ok run, current_bind_apply]
      have kept := (ensureDataAt_ok run).files
      have length : loaded.bfds.length = manager.bfds.length := kept.length_eq.symm
      obtain ⟨old', at'', restocked⟩ := @Untouched.at world _ _ kept _ _ at'
      obtain ⟨lbf, last⟩ : ∃ lbf, loaded.bfds[loaded.bfds.length - 1]? = some lbf := ⟨_, List.getElem?_eq_getElem (by omega)⟩
      simp only [last]
      rw [← length] at before ⊢
      have decides := @applyPlan_cut world loaded r update old' lbf index replaced at'' last before
      constructor
      · intro shifts error after failed
        obtain ⟨_, _, done, _⟩ := decides.ok shifts
        cases (Prod.mk.inj (failed.symm.trans done)).1
      · intro fails
        obtain ⟨error, after, failed, marked⟩ := decides.error fails
        refine ⟨error, after, failed, fun still => ?_⟩
        obtain ⟨first, holds⟩ : ∃ first, start.bfds[index]? = some first := ⟨_, List.getElem?_eq_getElem (by rw [← untouched.length]; exact inside)⟩
        exact differs ((untouched.count holds at').trans (still.count holds marked).symm)

theorem write_carriedOut {start write} (untouched : Untouched world start manager) (fits : Fits manager write) :
    CarriedOut world start manager r write fun after => ¬Untouched world start after := by
  cases write with
  | unchanged hbf => exact ⟨fun _ _ _ failed => by simp [carryOut] at failed, fun fails => (fails trivial).elim⟩
  | extend lbf vbf =>
    apply (extend_carriedOut fits.1).mono
    intro after grown still
    obtain ⟨file, at', count⟩ := grown
    obtain ⟨first, holds⟩ : ∃ first, start.bfds[manager.bfds.length - 1]? = some first :=
      ⟨_, List.getElem?_eq_getElem (by rw [← untouched.length]; exact (List.getElem?_eq_some_iff.mp fits.1).1)⟩
    have same := still.count holds at'
    have also := untouched.count holds fits.1
    have some := fits.2
    omega
  | add vbf =>
    apply (add_carriedOut fits).mono
    intro after longer still
    have same := still.length
    have also := untouched.length
    omega
  | replace update index drop =>
    obtain ⟨old, at'⟩ := fits
    exact replace_carriedOut untouched at'
  | shift update index replaced => exact shift_carriedOut untouched fits

variable (world) in
/-- If the method throws, the files are left as they were. -/
def Spares {α : Type} (manager : BulkFileDataManager) (method : BulkM α) : Prop :=
  ∀ error after, method manager = (.error error, after) → Untouched world manager after

theorem mergeFile_spares (file : BulkHeaderFileInfo) (r : BulkFileDataManagerMergeResult) (manager : BulkFileDataManager) :
    Spares world manager (mergeFile world file r) ↔ Careful world manager file := by
  have checks := @checkFile_ensures world manager file
  unfold Spares Careful
  rw [mergeFile_eq, bind_apply]
  unfold Ensures at checks
  cases ran : checkFile world file manager with
  | mk outcome checked =>
    rw [ran] at checks
    cases outcome with
    | error error =>
      refine iff_of_true (fun _ _ failed => ?_) trivial
      obtain rfl := (Prod.mk.inj failed).2
      exact checks
    | ok write =>
      obtain ⟨succeeded, failed⟩ := @write_carriedOut world checked r manager write checks.1 checks.2
      refine ⟨fun spares => ?_, succeeded⟩
      by_contra fails
      obtain ⟨error, after, run, touched⟩ := failed fails
      exact touched (spares error after run)

/-! Headers and lists of files -/

def builtFile (world : World) (manager : BulkFileDataManager) (newBulkHeaders : List BlockHeader) (incrementalChainWork : Option Int) : Option BulkHeaderFileInfo :=
  let nextHeight := (manager.getLastBfd.map fun lbf => lbf.firstHeight + lbf.count).getD 0
  let (newBulkHeaders, incrementalChainWork) := trimAlreadyStoredHeaders newBulkHeaders nextHeight incrementalChainWork
  match newBulkHeaders.head?, manager.getLastBfd with
  | some first, some lbf =>
    if nextHeight = first.height then (incrementalFile world manager.chain newBulkHeaders incrementalChainWork lbf).toOption else none
  | _, _ => none

theorem merge_single (file : BulkHeaderFileInfo) (manager after : BulkFileDataManager) (error : BulkError) :
    (merge world [file] >>= fun _ => pure ()) manager = (.error error, after) ↔ mergeFile world file ⟨[], [], [], []⟩ manager = (.error error, after) := by
  unfold merge mergeFiles
  rw [bind_apply, bind_apply]
  cases mergeFile world file ⟨[], [], [], []⟩ manager with
  | mk outcome last =>
    cases outcome with
    | error _ => simp
    | ok _ => simp [mergeFiles]

theorem mergeIncrementalBlockHeaders_spares (newBulkHeaders : List BlockHeader) (incrementalChainWork : Option Int) (manager : BulkFileDataManager) :
    Spares world manager (mergeIncrementalBlockHeaders world newBulkHeaders incrementalChainWork) ↔
      ∀ file, builtFile world manager newBulkHeaders incrementalChainWork = some file → Careful world manager file := by
  unfold Spares mergeIncrementalBlockHeaders builtFile
  rw [current_bind_apply]
  have same : Untouched world manager manager := restocked_refl _
  dsimp only
  generalize trimAlreadyStoredHeaders newBulkHeaders _ incrementalChainWork = trimmed
  cases trimmed.1.head? with
  | none => exact iff_of_true (fun _ _ failed => by simp at failed) (fun _ built => by simp at built)
  | some first =>
    cases manager.getLastBfd with
    | none =>
      refine iff_of_true (fun _ _ failed => ?_) (fun _ built => by simp at built)
      obtain rfl := (Prod.mk.inj failed).2
      exact same
    | some lbf =>
      dsimp only
      by_cases follows : lbf.firstHeight + lbf.count = first.height
      · rw [require_of (by simpa using follows), if_pos (by simpa using follows)]
        cases incrementalFile world manager.chain trimmed.1 trimmed.2 lbf with
        | error error =>
          refine iff_of_true (fun _ _ failed => ?_) (fun _ built => by simp [Except.toOption] at built)
          obtain rfl := (Prod.mk.inj failed).2
          exact same
        | ok file =>
          have spares := @mergeFile_spares world file ⟨[], [], [], []⟩ manager
          simp only [Except.toOption, Option.some.injEq, forall_eq']
          rw [← spares]
          simp only [merge_single]
          exact Iff.rfl
      · rw [require_not (by simpa using follows), if_neg (by simpa using follows)]
        refine iff_of_true (fun _ _ failed => ?_) (fun _ built => by simp at built)
        obtain rfl := (Prod.mk.inj failed).2
        exact same

theorem mergeFiles_error
    (run : mergeFiles world files r manager = (.error error, after)) : ∃ front file rest r' before, files = front ++ file :: rest ∧
      mergeFiles world front r manager = (.ok r', before) ∧ mergeFile world file r' before = (.error error, after) := by
  induction files generalizing r manager with
  | nil => cases (Prod.mk.inj run).1
  | cons file files ih =>
    unfold mergeFiles at run
    rw [bind_apply] at run
    cases ran : mergeFile world file r manager with
    | mk outcome middle =>
      rw [ran] at run
      cases outcome with
      | error thrown => exact ⟨[], file, files, r, manager, rfl, rfl, ran.trans run⟩
      | ok r' =>
        obtain ⟨front, last, rest, final, before, rfl, merged, failed⟩ := ih run
        refine ⟨file :: front, last, rest, final, before, rfl, ?_, failed⟩
        unfold mergeFiles
        rw [bind_of_ok ran, merged]

/-- From any state, a merge that throws leaves the files as they were before the file it
throws at exactly if that file is refused by its checks or nothing fails after them, and
new headers are merged as the file they make. -/
theorem rejectedMerge_iff (world : World) (manager : BulkFileDataManager) :
    (∀ file r, Spares world manager (mergeFile world file r) ↔ Careful world manager file) ∧
      (∀ newBulkHeaders incrementalChainWork, Spares world manager (mergeIncrementalBlockHeaders world newBulkHeaders incrementalChainWork) ↔
        ∀ file, builtFile world manager newBulkHeaders incrementalChainWork = some file → Careful world manager file) ∧
      ∀ files error after, merge world files manager = (.error error, after) → ∃ front file rest r before, files = front ++ file :: rest ∧
        merge world front manager = (.ok r, before) ∧ mergeFile world file r before = (.error error, after) := by
  refine ⟨fun file r => mergeFile_spares file r manager, fun headers work => mergeIncrementalBlockHeaders_spares headers work manager, ?_⟩
  intro files error after run
  exact mergeFiles_error run

/-- The first file is added, but the storage does not take it. -/
theorem rejectedMerge_adds :
    let manager := (create sampleWorld .main 100000 (some 2) true none).stored true fun _ => none
    (merge sampleWorld [firstFile] manager).1 = .error .rejected ∧ (merge sampleWorld [firstFile] manager).2.bfds.map (·.count) = [1] ∧
      ¬Spares sampleWorld manager (merge sampleWorld [firstFile]) := by
  intro manager
  have rejected : (merge sampleWorld [firstFile] manager).1 = .error .rejected := by decide +kernel
  have counts : (merge sampleWorld [firstFile] manager).2.bfds.map (·.count) = [1] := by decide +kernel
  refine ⟨rejected, counts, fun spares => ?_⟩
  have untouched := spares .rejected (merge sampleWorld [firstFile] manager).2 (Prod.ext rejected rfl)
  have length : [1].length = manager.bfds.length := by
    rw [← counts, List.length_map]
    exact untouched.length
  exact absurd length (by decide +kernel)

end WalletToolbox.Chaintracks.Bulk
