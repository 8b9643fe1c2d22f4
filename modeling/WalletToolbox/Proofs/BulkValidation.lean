import WalletToolbox.Proofs.BulkFiles

/-! What it means that a file passed validation: its headers follow the file before it,
or the file is one of the known ones. -/

namespace WalletToolbox.Chaintracks.Bulk

open Effects Fallible BulkFileDataManager

variable {world : World}

def chunks : Nat → Bytes → List Bytes
  | 0, _ => []
  | count + 1, buffer => buffer.take 80 :: chunks count (buffer.drop 80)

theorem chunks_length (count : Nat) (buffer) : (chunks count buffer).length = count := by
  induction count generalizing buffer with
  | zero => rfl
  | succ count ih => simp [chunks, ih]

theorem chunks_sized (long : buffer.length = count * 80) :
    ∀ header ∈ chunks count buffer, header.length = 80 := by
  induction count generalizing buffer with
  | zero => simp [chunks]
  | succ count ih =>
    intro header member
    rcases List.mem_cons.mp member with rfl | later
    · rw [List.length_take]
      omega
    · apply ih _ header later
      rw [List.length_drop]
      omega

theorem chunks_flatten (long : buffer.length = count * 80) : (chunks count buffer).flatten = buffer := by
  induction count generalizing buffer with
  | zero =>
    have empty := List.eq_nil_of_length_eq_zero (by omega)
    simp [chunks, empty]
  | succ count ih =>
    have rest : (buffer.drop 80).length = count * 80 := by
      rw [List.length_drop]
      omega
    rw [chunks, List.flatten_cons, ih rest, List.take_append_drop]

theorem validateBufferOfHeaders_ok
    (valid : validateBufferOfHeaders world count i buffer start work = .ok (last, after)) :
    LinkedHeaders world start (chunks count buffer) last ∧ after = work.map (· + totalWork (chunks count buffer)) := by
  induction count generalizing i buffer start work with
  | zero =>
    simp only [validateBufferOfHeaders, Except.ok.injEq, Prod.mk.injEq] at valid
    obtain ⟨rfl, rfl⟩ := valid
    exact ⟨.nil _, by simp [chunks]⟩
  | succ count ih =>
    simp only [validateBufferOfHeaders] at valid
    split at valid
    · simp at valid
    split at valid
    · simp at valid
    next same =>
      split at valid
      · simp at valid
      next =>
        obtain ⟨linked, sum⟩ := ih valid
        refine ⟨.cons (by simpa using (not_not.mp same).symm) linked, ?_⟩
        rw [sum, Option.map_map]
        congr 1
        funext before
        simp only [Function.comp_apply, addWork, chunks, totalWork_cons, headerWork]
        ring

def BulkHeaderFileInfo.record (file : BulkHeaderFileInfo) (fileHash : String) (mru : Nat) : BulkFileData :=
  { file.toBulkFileFields with fileHash, mru }

variable (world) in
/-- The contents of the known files are what the table says of them. -/
def KnownFiles : Prop := ∀ bf ∈ world.validBulkHeaderFiles, ∃ hash headers work,
  bf.fileHash = some hash ∧ bf.data = none ∧ bf.prevChainWork = some work ∧
    Follows world ⟨bf.firstHeight, bf.prevHash, work⟩ (bf.record hash 0) headers ∧ (bf.firstHeight = 0 → bf.prevHash = zeros ∧ work = 0)

/-! Loading data -/

variable (world) in
structure Kept (manager manager' : BulkFileDataManager) : Prop where
  files : List.Forall₂ (Restocked world) manager.bfds manager'.bfds
  index : manager'.fileHashToIndex = manager.fileHashToIndex

theorem restocked_refl (files) : List.Forall₂ (Restocked world) files files :=
  List.forall₂_same.mpr fun file _ => Restocked.refl file

theorem Kept.of_same (files : manager'.bfds = manager.bfds)
    (index : manager'.fileHashToIndex = manager.fileHashToIndex) : Kept world manager manager' :=
  ⟨files ▸ restocked_refl _, index⟩

theorem Kept.trans (first : Kept world manager manager')
    (second : Kept world manager' manager'') : Kept world manager manager'' := by
  refine ⟨?_, second.index.trans first.index⟩
  have files := first.files
  have files' := second.files
  generalize manager.bfds = ones at files
  generalize manager'.bfds = others at files files'
  generalize manager''.bfds = last at files'
  induction files generalizing last with
  | nil => cases files'; exact .nil
  | cons here _ ih =>
    cases files' with
    | cons also rest => exact .cons (here.trans also) (ih _ rest)

theorem ensureMaxRetained_kept (world) (manager) : Kept world manager manager.ensureMaxRetained := by
  unfold ensureMaxRetained
  split
  · exact .of_same rfl rfl
  · refine ⟨?_, rfl⟩
    apply List.forall₂_iff_get.mpr
    refine ⟨by simp, ?_⟩
    intro index inside inside'
    simp only [List.get_eq_getElem, List.getElem_mapIdx]
    split
    · exact ⟨rfl, by simp⟩
    · exact Restocked.refl _

theorem ensureMaxRetained_length (manager : BulkFileDataManager) : manager.ensureMaxRetained.bfds.length = manager.bfds.length := by
  unfold ensureMaxRetained
  split <;> simp

theorem load_restocked (ok : (load world manager bfd).outcome = .ok ()) :
    Restocked world bfd (load world manager bfd).bfd ∧ ((load world manager bfd).bfd.data).isSome = true := by
  unfold load at ok ⊢
  split at ok
  next data held => exact ⟨Restocked.refl _, by simp [held]⟩
  next none =>
    split at ok
    · simp at ok
    · split at ok
      next right =>
        simp only [if_pos right]
        refine ⟨⟨rfl, ?_⟩, rfl⟩
        intro data same
        simp only [Option.some.injEq] at same
        exact .inr (same ▸ right)
      · simp at ok

theorem ensureData_ok
    (run : ensureData world bfd manager = (.ok bfd', manager')) :
    Kept world manager manager' ∧ Restocked world bfd bfd' ∧ bfd'.data.isSome = true := by
  simp only [ensureData] at run
  split at run
  · simp at run
  next ok =>
    obtain ⟨same, left⟩ := Prod.mk.inj run
    cases Except.ok.inj same
    obtain ⟨restocked, held⟩ := load_restocked ok
    refine ⟨?_, restocked, held⟩
    subst left
    split
    · refine Kept.trans ?_ (ensureMaxRetained_kept _ _)
      exact .of_same rfl rfl
    · exact .of_same rfl rfl

theorem ensureData_error
    (run : ensureData world bfd manager = (.error error, manager')) : Kept world manager manager' := by
  simp only [ensureData] at run
  split at run
  · obtain ⟨-, rfl⟩ := Prod.mk.inj run
    exact .of_same rfl rfl
  · simp at run

/-! Passing validation -/

/-- The record still describes the same file; what is found out in validation may have been filled in. -/
structure Described (bfd bfd' : BulkFileData) : Prop where
  firstHeight : bfd'.firstHeight = bfd.firstHeight
  count : bfd'.count = bfd.count
  prevHash : bfd'.prevHash = bfd.prevHash
  prevChainWork : bfd'.prevChainWork = bfd.prevChainWork
  fileName : bfd'.fileName = bfd.fileName
  sourceUrl : bfd'.sourceUrl = bfd.sourceUrl
  fileHash : bfd'.fileHash = bfd.fileHash

variable (world) in
structure Linking (manager : BulkFileDataManager) (bfd : BulkFileData) (data : Bytes) : Prop where
  linked : ∃ last, LinkedHeaders world (manager.prevHashAt bfd.firstHeight) (chunks bfd.count data) last ∧ bfd.lastHash = some last
  work : bfd.lastChainWork = (manager.prevChainWorkAt bfd.firstHeight).map (· + totalWork (chunks bfd.count data))

theorem validateBfdHeaders_ok
    (long : data.length = bfd.count * 80) (valid : validateBfdHeaders world manager bfd data = .ok bfd') :
    Described bfd bfd' ∧ bfd'.data = bfd.data ∧ Linking world manager bfd' data := by
  unfold validateBfdHeaders at valid
  have many : data.length / 80 = bfd.count := by omega
  rw [many] at valid
  dsimp only at valid
  cases found : validateBufferOfHeaders world bfd.count 0 data (manager.prevHashAt bfd.firstHeight)
      (manager.prevChainWorkAt bfd.firstHeight) with
  | error error =>
    rw [found] at valid
    cases valid
  | ok ends =>
    obtain ⟨last, work⟩ := ends
    rw [found] at valid
    have same : bfd' = { bfd with lastHash := some last, lastChainWork := work } := by
      simp only [bind, Except.bind, pure, Except.pure, throw, throwThe, MonadExceptOf.throw] at valid
      repeat' split at valid
      all_goals first
        | exact (Except.ok.inj valid).symm
        | cases valid
    obtain ⟨linked, sum⟩ := validateBufferOfHeaders_ok found
    subst same
    exact ⟨⟨rfl, rfl, rfl, rfl, rfl, rfl, rfl⟩, rfl, ⟨last, linked, rfl⟩, sum⟩

theorem validateBfdData_ok
    (named : bfd.fileHash = fileHash) (run : validateBfdData world bfd fileHash manager = (.ok bfd', manager')) :
    Kept world manager manager' ∧ Described bfd bfd' ∧ ∃ data, bfd'.data = some data ∧ data.length = bfd'.count * 80 ∧
      world.fileHash data = bfd'.fileHash ∧
      (isKnownValidBulkHeaderFile world bfd' = true ∨ Linking world manager' bfd' data) := by
  unfold validateBfdData at run
  obtain ⟨loaded, middle, ran, run⟩ := bind_ok run
  obtain ⟨kept, restocked, held⟩ := ensureData_ok ran
  obtain ⟨data, held⟩ := Option.isSome_iff_exists.mp held
  simp only [held] at run
  obtain ⟨long, run⟩ := require_bind_ok run
  obtain ⟨right, run⟩ := require_bind_ok run
  have described : Described bfd { loaded with fileHash := world.fileHash data } := by
    rw [restocked.same]
    exact ⟨rfl, rfl, rfl, rfl, rfl, rfl, right.symm.trans named.symm⟩
  split at run
  next known =>
    obtain ⟨same, rfl⟩ := Prod.mk.inj run
    cases Except.ok.inj same
    exact ⟨kept, described, data, held, long, rfl, .inl known⟩
  next =>
    rw [current_bind_apply] at run
    cases valid : validateBfdHeaders world middle { loaded with fileHash := world.fileHash data } data with
    | error error =>
      rw [valid] at run
      simp at run
    | ok checked =>
      rw [valid] at run
      obtain ⟨same, rfl⟩ := Prod.mk.inj run
      cases Except.ok.inj same
      obtain ⟨also, kept', linking⟩ := validateBfdHeaders_ok (by simpa using long) valid
      refine ⟨kept, ?_, data, kept'.trans held, ?_, ?_, .inr linking⟩
      · exact ⟨also.firstHeight.trans described.firstHeight, also.count.trans described.count,
          also.prevHash.trans described.prevHash, also.prevChainWork.trans described.prevChainWork,
          also.fileName.trans described.fileName, also.sourceUrl.trans described.sourceUrl,
          also.fileHash.trans described.fileHash⟩
      · rw [also.count]
        exact long
      · rw [also.fileHash]

theorem validateFileInfo_ok
    (run : validateFileInfo world file manager = (.ok vbf, manager')) :
    Kept world manager manager' ∧ (∃ fileHash mru, file.fileHash = some fileHash ∧ Described (file.record fileHash mru) vbf) ∧ 0 < vbf.count ∧
      (file.validated = false → ∃ data, vbf.data = some data ∧ data.length = vbf.count * 80 ∧ world.fileHash data = vbf.fileHash ∧
        (isKnownValidBulkHeaderFile world vbf = true ∨ Linking world manager' vbf data)) := by
  unfold validateFileInfo at run
  rw [current_bind_apply] at run
  obtain ⟨-, run⟩ := require_bind_ok run
  obtain ⟨some, run⟩ := require_bind_ok run
  obtain ⟨-, run⟩ := require_bind_ok run
  cases named : truthyText file.fileHash with
  | none =>
    rw [named] at run
    simp at run
  | some fileHash =>
    have hash := truthyText_some named
    rw [named] at run
    obtain ⟨-, run⟩ := require_bind_ok run
    cases validated : file.validated with
    | true =>
      simp only [validated, if_true] at run
      obtain ⟨same, rfl⟩ := Prod.mk.inj run
      cases Except.ok.inj same
      exact ⟨.of_same rfl rfl, ⟨fileHash, manager.now world, hash, rfl, rfl, rfl, rfl, rfl, rfl, rfl⟩, some, by simp⟩
    | false =>
      simp only [validated, Bool.false_eq_true, if_false] at run
      obtain ⟨checked, middle, ran, run⟩ := bind_ok run
      obtain ⟨same, rfl⟩ := Prod.mk.inj run
      cases Except.ok.inj same
      obtain ⟨kept, described, data, held, long, right, valid⟩ := validateBfdData_ok rfl ran
      refine ⟨kept, ⟨fileHash, manager.now world, hash, ?_⟩, ?_, fun _ => ⟨data, held, long, right, ?_⟩⟩
      · exact ⟨described.firstHeight, described.count, described.prevHash, described.prevChainWork, described.fileName,
          described.sourceUrl, described.fileHash⟩
      · show 0 < checked.count
        rw [described.count]
        exact some
      · exact valid.imp id fun linking => ⟨linking.linked, linking.work⟩

theorem validateBfdData_error
    (run : validateBfdData world bfd fileHash manager = (.error error, manager')) : Kept world manager manager' := by
  have kept : Ensures (validateBfdData world bfd fileHash) manager (fun _ _ => True) (Kept world manager) := by
    unfold validateBfdData
    apply Ensures.bind
    apply ensures_of_run
    · intro loaded after ran
      obtain ⟨kept, -⟩ := ensureData_ok ran
      split
      · exact kept
      · apply Ensures.bind
        apply ensures_require _ fun _ => kept
        intro _
        apply Ensures.bind
        apply ensures_require _ fun _ => kept
        intro _
        split
        · exact trivial
        · apply Ensures.bind
          apply ensures_current.mpr
          split
          · exact kept
          · exact trivial
    · intro thrown after ran
      exact ensureData_error ran
  unfold Ensures at kept
  rwa [run] at kept

theorem validateFileInfo_error
    (run : validateFileInfo world file manager = (.error error, manager')) : Kept world manager manager' := by
  have same : Kept world manager manager := .of_same rfl rfl
  have kept : Ensures (validateFileInfo world file) manager (fun _ _ => True) (Kept world manager) := by
    unfold validateFileInfo
    apply Ensures.bind
    apply ensures_current.mpr
    apply Ensures.bind
    apply ensures_require _ fun _ => same
    intro _
    apply Ensures.bind
    apply ensures_require _ fun _ => same
    intro _
    apply Ensures.bind
    apply ensures_require _ fun _ => same
    intro _
    split
    · exact same
    · apply Ensures.bind
      apply ensures_require _ fun _ => same
      intro _
      dsimp only
      split
      · exact trivial
      · apply Ensures.bind
        apply ensures_of_run
        · intro _ _ _
          exact trivial
        · intro thrown after ran
          exact validateBfdData_error ran
  unfold Ensures at kept
  rwa [run] at kept

/-! What a file that passed adds to the chain -/

variable (world) in
def Honest (manager : BulkFileDataManager) (file : BulkFileData) : Prop := ∃ headers work,
  manager.prevChainWorkAt file.firstHeight = some work ∧
    Follows world ⟨file.firstHeight, manager.prevHashAt file.firstHeight, work⟩ file headers

theorem known_follows (laws : HashLaws world) (known : KnownFiles world) (held : vbf.data = some data)
    (right : world.fileHash data = vbf.fileHash) (valid : isKnownValidBulkHeaderFile world vbf = true) :
    ∃ headers work, vbf.prevChainWork = some work ∧ Follows world ⟨vbf.firstHeight, vbf.prevHash, work⟩ vbf headers ∧
      (vbf.firstHeight = 0 → vbf.prevHash = zeros ∧ work = 0) := by
  unfold isKnownValidBulkHeaderFile at valid
  split at valid
  · simp at valid
  next bf found =>
    have member := List.mem_reverse.mp (List.mem_of_find?_eq_some found)
    have hash := List.find?_some found
    simp only [decide_eq_true_eq] at hash
    simp only [Bool.and_eq_true, beq_iff_eq] at valid
    obtain ⟨⟨⟨⟨⟨⟨⟨-, firstHeight⟩, count⟩, prevWork⟩, prevHash⟩, lastWork⟩, lastHash⟩, -⟩ := valid
    obtain ⟨text, headers, work, named, -, before, follows, first⟩ := known bf member
    unfold BulkHeaderFileInfo.record at follows
    have same := Option.some.inj (named.symm.trans hash)
    refine ⟨headers, work, prevWork ▸ before, ?_, ?_⟩
    · have holds := follows.hash
      constructor
      · constructor
        · exact follows.sized
        · rw [holds, same]
        · intro given same'
          rw [held] at same'
          cases same'
          exact laws.file _ _ (right.trans (same ▸ holds.symm))
        · rw [follows.count, count]
        · exact follows.some
      · rw [← prevHash, ← lastHash]
        exact follows.linked
      · rw [← lastWork]
        exact follows.work
    · rw [← firstHeight, ← prevHash]
      exact first

/-- A file that passed validation follows the tip at its height, if it is honest about its validation and, where it is
known, about what it follows. -/
theorem validated_follows (laws : HashLaws world) (known : KnownFiles world) (run : validateFileInfo world file manager = (.ok vbf, manager'))
    (honest : file.validated = true → Honest world manager' vbf) (height : vbf.firstHeight = tip.height)
    (before : manager'.prevHashAt tip.height = tip.hash ∧ manager'.prevChainWorkAt tip.height = some tip.work)
    (root : tip.height = 0 → tip.hash = zeros ∧ tip.work = 0)
    (named : isKnownValidBulkHeaderFile world vbf = true → tip.height ≠ 0 → vbf.prevHash = tip.hash ∧ vbf.prevChainWork = some tip.work) :
    ∃ headers, Follows world tip vbf headers := by
  obtain ⟨-, -, positive, checked⟩ := validateFileInfo_ok run
  cases validated : file.validated with
  | true =>
    obtain ⟨headers, work, same, follows⟩ := honest validated
    rw [height, before.2, Option.some.injEq] at same
    have hash : manager'.prevHashAt vbf.firstHeight = tip.hash := by rw [height, before.1]
    exact ⟨headers, follows.of_same hash same.symm⟩
  | false =>
    obtain ⟨data, held, long, right, valid | linking⟩ := checked validated
    · obtain ⟨headers, work, same, follows, first⟩ := known_follows laws known held right valid
      by_cases start : tip.height = 0
      · obtain ⟨zero, none⟩ := root start
        obtain ⟨zero', none'⟩ := first (height.trans start)
        exact ⟨headers, follows.of_same (zero'.trans zero.symm) (none'.trans none.symm)⟩
      · obtain ⟨hash, sum⟩ := named valid start
        rw [same, Option.some.injEq] at sum
        exact ⟨headers, follows.of_same hash sum⟩
    · refine ⟨chunks vbf.count data, ⟨chunks_sized long, ?_, ?_, chunks_length _ _, ?_⟩, ?_, ?_⟩
      · rw [chunks_flatten long, right]
      · intro given same
        rw [held] at same
        cases same
        exact (chunks_flatten long).symm
      · intro empty
        have count := chunks_length vbf.count data
        rw [empty, List.length_nil] at count
        omega
      · have linked := linking.linked
        rw [height, before.1] at linked
        exact linked
      · rw [linking.work, height, before.2]
        rfl

end WalletToolbox.Chaintracks.Bulk
