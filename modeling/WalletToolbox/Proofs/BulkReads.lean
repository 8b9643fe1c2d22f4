import WalletToolbox.Async.Guarded
import WalletToolbox.Chaintracks.BulkFileDataReader
import WalletToolbox.Proofs.MergeOutcomes

/-! What concurrent readers of the bulk files get. -/

namespace WalletToolbox.Chaintracks.Bulk

open Async BulkFileDataManager

variable {world : ReadWorld} {headers : Nat → Bytes} {start current : BulkFileDataManager}

/-! The headers -/

def dataOf (headers : Nat → Bytes) (first count : Nat) : Bytes := (List.range' first count).flatMap headers

theorem dataOf_append (first count more : Nat) :
    dataOf headers first (count + more) = dataOf headers first count ++ dataOf headers (first + count) more := by
  unfold dataOf
  rw [← List.flatMap_append, ← List.range'_append_1]

theorem dataOf_length (sized : ∀ height, (headers height).length = 80) (first count : Nat) : (dataOf headers first count).length = count * 80 := by
  induction count generalizing first with
  | zero => rfl
  | succ count ih =>
    have one : dataOf headers first 1 = headers first := by simp [dataOf]
    rw [Nat.add_comm, dataOf_append, one, List.length_append, sized, ih]
    omega

theorem slice_dataOf (sized : ∀ height, (headers height).length = 80) (inside : skip + more ≤ count) :
    slice (dataOf headers first count) (skip * 80) (more * 80) = dataOf headers (first + skip) more := by
  obtain ⟨rest, rfl⟩ := Nat.exists_eq_add_of_le inside
  unfold slice
  rw [dataOf_append, dataOf_append, List.append_assoc, List.drop_left' (dataOf_length sized first skip), List.take_left' (dataOf_length sized _ more)]

/-! The files -/

/-- Each file starts where the one before it ends, and none is empty. -/
structure Contiguous (files : List BulkFileData) : Prop where
  counts : ∀ file ∈ files, 0 < file.count
  next : files.IsChain fun file next => next.firstHeight = file.firstHeight + file.count

def Covers (file : BulkFileData) (height : Nat) : Prop := file.firstHeight ≤ height ∧ height < file.firstHeight + file.count

theorem Contiguous.apart (contiguous : Contiguous files) :
    files.Pairwise fun file later => file.firstHeight + file.count ≤ later.firstHeight := by
  obtain ⟨counts, next⟩ := contiguous
  induction files with
  | nil => exact .nil
  | cons file files ih =>
    have rest := ih (fun other member => counts other (.tail _ member)) (List.isChain_of_isChain_cons next)
    apply List.Pairwise.cons _ rest
    intro later member
    cases files with
    | nil => cases member
    | cons second files =>
      have here := (List.isChain_cons_cons.mp next).1
      rcases List.mem_cons.mp member with rfl | member
      · omega
      · have onwards := List.rel_of_pairwise_cons rest member
        omega

theorem Contiguous.unique (contiguous : Contiguous files) {index other height : Nat}
    (at' : files[index]? = some file) (also : files[other]? = some file') (covers : Covers file height) (covers' : Covers file' height) : index = other := by
  have apart := List.pairwise_iff_getElem.mp contiguous.apart
  obtain ⟨inside, rfl⟩ := List.getElem?_eq_some_iff.mp at'
  obtain ⟨inside', rfl⟩ := List.getElem?_eq_some_iff.mp also
  unfold Covers at covers covers'
  rcases Nat.lt_trichotomy index other with before | same | after
  · have := apart _ _ inside inside' before
    omega
  · exact same
  · have := apart _ _ inside' inside after
    omega

theorem Contiguous.follows (contiguous : Contiguous files) {file next} (member : file ∈ files)
    (also : next ∈ files) (covers : Covers next (file.firstHeight + file.count)) : next.firstHeight = file.firstHeight + file.count := by
  have apart := List.pairwise_iff_getElem.mp contiguous.apart
  obtain ⟨index, inside, rfl⟩ := List.getElem_of_mem member
  obtain ⟨other, inside', rfl⟩ := List.getElem_of_mem also
  unfold Covers at covers
  rcases Nat.lt_trichotomy index other with before | rfl | after
  · have := apart _ _ inside inside' before
    omega
  · omega
  · have := apart _ _ inside' inside after
    omega

theorem Contiguous.covered (contiguous : Contiguous files)
    (head : files.head? = some first) (ends : files.getLast? = some last) (from' : first.firstHeight ≤ height)
    (before : height < last.firstHeight + last.count) : ∃ file ∈ files, Covers file height := by
  obtain ⟨counts, next⟩ := contiguous
  induction files generalizing first with
  | nil => cases head
  | cons file files ih =>
    obtain rfl := Option.some.inj head
    by_cases here : height < file.firstHeight + file.count
    · exact ⟨file, .head _, from', here⟩
    · cases files with
      | nil =>
        obtain rfl : file = last := Option.some.inj ends
        exact (here before).elim
      | cons second files =>
        have follows := (List.isChain_cons_cons.mp next).1
        obtain ⟨found, member, covers⟩ := @ih second rfl (by simpa using ends) (by omega) (fun other member => counts other (.tail _ member)) (List.isChain_of_isChain_cons next)
        exact ⟨found, .tail _ member, covers⟩

theorem bfdForHeight_some (found : start.bfdForHeight height = some index) :
    ∃ file, start.bfds[index]? = some file ∧ Covers file height := by
  obtain ⟨inside, covers, -⟩ := List.findIdx?_eq_some_iff_getElem.mp found
  refine ⟨_, List.getElem?_eq_getElem inside, ?_⟩
  simpa [Covers] using covers

theorem bfdForHeight_of (member : file ∈ start.bfds) (covers : Covers file height) :
    ∃ index, start.bfdForHeight height = some index := by
  cases found : start.bfdForHeight height with
  | some index => exact ⟨index, rfl⟩
  | none =>
    have missing := List.findIdx?_eq_none_iff.mp found file member
    unfold Covers at covers
    simp only [Bool.and_eq_false_iff, decide_eq_false_iff_not] at missing
    omega

theorem bfdForHeight_cached (cached : List.Forall₂ Cached start.bfds current.bfds) (height : Nat) :
    current.bfdForHeight height = start.bfdForHeight height := by
  unfold bfdForHeight
  generalize start.bfds = ones at cached
  generalize current.bfds = others at cached
  induction cached with
  | nil => rfl
  | @cons one other _ _ here _ ih =>
    have firstHeight : other.firstHeight = one.firstHeight := by rw [here]
    have count : other.count = one.count := by rw [here]
    rw [List.findIdx?_cons, List.findIdx?_cons, ih, firstHeight, count]

/-! What the readers share -/

variable (world headers) in
/-- The file's data can be had again whenever it is asked for: by its id from the storage,
or else from where it comes, though a first download may fail. -/
inductive Retrievable (manager : BulkFileDataManager) (file : BulkFileData) : Prop
  | stored {fileId : Nat} (storage : manager.storage = true) (id : truthyId file.fileId = some fileId)
      (part : ∀ clock offset length, world.getBulkFileDataPart clock fileId offset length =
        .ok (some (slice (dataOf headers file.firstHeight file.count) offset length)))
  | downloaded {sourceUrl : String} (unstored : manager.storage = true → truthyId file.fileId = none) (fetch : manager.fetch = true)
      (source : truthyText file.sourceUrl = some sourceUrl) (hash : world.fileHash (dataOf headers file.firstHeight file.count) = file.fileHash)
      (download : ∀ clock data, (world.replies clock).download (world.pathJoin sourceUrl file.fileName) = .ok data →
        data = dataOf headers file.firstHeight file.count)

variable (world headers) in
/-- `file'` is `file` with its own data or none, and data that cannot be had again is never released. -/
structure Serves (manager : BulkFileDataManager) (file file' : BulkFileData) : Prop where
  cached : Cached file file'
  data : ∀ data, file'.data = some data → data = dataOf headers file.firstHeight file.count
  supplied : Retrievable world headers manager file ∨
    file'.data.isSome = true ∧ truthyId file.fileId = none ∧ truthyText file.sourceUrl = none

variable (world headers) in
structure Stock (start current : BulkFileDataManager) : Prop where
  storage : current.storage = start.storage
  fetch : current.fetch = start.fetch
  files : List.Forall₂ (Serves world headers start) start.bfds current.bfds

section
variable (stock : Stock world headers start current)
include stock

theorem Stock.at {index : Nat} {file} (at' : start.bfds[index]? = some file) :
    ∃ file', current.bfds[index]? = some file' ∧ Serves world headers start file file' := by
  obtain ⟨file', held, serves⟩ := forall₂_getElem? stock.files.flip at'
  exact ⟨file', held, serves⟩

theorem Stock.cached : List.Forall₂ Cached start.bfds current.bfds :=
  stock.files.imp fun _ _ serves => serves.cached

omit stock in
theorem forall₂_mapIdx (related : List.Forall₂ R ones others)
    (keeps : ∀ index one other, ones[index]? = some one → others[index]? = some other → R one other → R one (f index other)) :
    List.Forall₂ R ones (others.mapIdx f) := by
  induction related generalizing f with
  | nil => exact .nil
  | cons here rest ih =>
    rw [List.mapIdx_cons]
    apply List.Forall₂.cons
    · exact keeps 0 _ _ rfl rfl here
    · exact ih fun index one other at' also => keeps (index + 1) one other (by simpa using at') (by simpa using also)

theorem Stock.ensureMaxRetained : Stock world headers start current.ensureMaxRetained := by
  unfold BulkFileDataManager.ensureMaxRetained
  split
  · exact stock
  · refine ⟨stock.storage, stock.fetch, ?_⟩
    apply forall₂_mapIdx stock.files
    intro index file file' _ also serves
    split
    next released =>
      have withData := (List.mem_insertionSort _).mp (List.mem_of_mem_take released)
      obtain ⟨-, releasable⟩ := List.mem_filter.mp withData
      simp only [also, Option.any_some, Bool.and_eq_true, Bool.or_eq_true] at releasable
      refine ⟨?_, by simp, ?_⟩
      · rw [serves.cached]
        rfl
      · apply serves.supplied.imp id
        intro ⟨_, unstored, unsourced⟩
        rw [serves.cached] at releasable
        simp [unstored, unsourced] at releasable
    · exact serves

theorem Stock.setData (at' : start.bfds[index]? = some file) (mru : Nat) :
    Stock world headers start (current.setData index (some (dataOf headers file.firstHeight file.count)) mru) := by
  refine ⟨stock.storage, stock.fetch, ?_⟩
  obtain ⟨file', held, serves⟩ := stock.at at'
  unfold BulkFileDataManager.setData
  simp only
  rw [List.modify_eq_set_getElem?, held]
  apply forall₂_set stock.files at'
  refine ⟨?_, ?_, ?_⟩
  · rw [serves.cached]
    rfl
  · intro data same
    exact (Option.some.inj same).symm
  · exact serves.supplied.imp id fun ⟨_, rest⟩ => ⟨rfl, rest⟩

theorem Stock.waited : Stock world headers start current.waited :=
  ⟨stock.storage, stock.fetch, stock.files⟩

theorem Stock.arrived (at' : start.bfds[index]? = some file)
    (hash : world.fileHash (dataOf headers file.firstHeight file.count) = file.fileHash) :
    (current.arrived world.toWorld index (dataOf headers file.firstHeight file.count)).1 = .ok () ∧
      Stock world headers start (current.arrived world.toWorld index (dataOf headers file.firstHeight file.count)).2 := by
  obtain ⟨file', held, serves⟩ := stock.at at'
  have same : file'.fileHash = file.fileHash := by rw [serves.cached]
  unfold BulkFileDataManager.arrived
  simp only [held, if_pos (hash.trans same.symm)]
  exact ⟨trivial, (stock.setData at' _).ensureMaxRetained⟩

theorem Stock.findBfd (found : start.bfdForHeight height = some index) :
    ∃ file file', start.bfds[index]? = some file ∧ Covers file height ∧ Serves world headers start file file' ∧
      current.findBfd height = .ok (some (index, file')) := by
  obtain ⟨file, at', covers⟩ := bfdForHeight_some found
  obtain ⟨file', held, serves⟩ := stock.at at'
  refine ⟨file, file', at', covers, serves, ?_⟩
  unfold BulkFileDataManager.findBfd
  rw [if_neg (by omega), Int.toNat_natCast, bfdForHeight_cached stock.cached, found]
  simp [held]

theorem Stock.findBfd_none (missing : start.bfdForHeight height = none) :
    current.findBfd height = .ok none := by
  unfold BulkFileDataManager.findBfd
  rw [if_neg (by omega), Int.toNat_natCast, bfdForHeight_cached stock.cached, missing]
  rfl

end

/-! The condition -/

def permitted (world : ReadWorld) (manager : BulkFileDataManager) : ReadOp → Bool
  | .resume index => (manager.bfds[index]?.bind (·.data)).isSome
  | .ensureDownloaded _ url true => ((world.replies manager.clock).download url).isOk
  | _ => true

def stepPermitted {ι α : Type} (world : ReadWorld) (pool : Pool bulkReads BulkError α BulkFileDataManager ι) (reader : ι) : Bool :=
  match (pool.task reader).program with
  | .await op _ => permitted world pool.store op
  | _ => true

variable (world headers start) in
def readContract : Contract bulkReads BulkFileDataManager where
  rely _ _ current := Stock world headers start current
  permitted _ op current := permitted world current op = true
  promises _ op current := Stock world headers start (readExec world op current).2

variable (world headers start) in
def Reads {α : Type} (program : ReadM α) (post : Except BulkError α → Prop) : Prop :=
  ∀ past current, program.Guarded (readExec world) (readContract world headers start) (fun _ outcome _ => post outcome) past current

variable {α β : Type} {program : ReadM α} {post : Except BulkError α → Prop}

theorem Reads.pure (holds : post (.ok value)) : Reads world headers start (pure value) post := fun _ _ => holds

theorem Reads.bind {value : α} {next : α → ReadM β} {post}
    (first : Reads world headers start program fun outcome => outcome = .ok value) (rest : Reads world headers start (next value) post) :
    Reads world headers start (program >>= next) post := by
  intro past current
  apply Program.Guarded.bind
  apply (first past current).mono
  rintro more _ after rfl
  exact rest more after

theorem Reads.seq {middle : α → Prop} {next : α → ReadM β} {post}
    (first : Reads world headers start program fun outcome => ∃ value, outcome = .ok value ∧ middle value)
    (rest : ∀ value, middle value → Reads world headers start (next value) post) : Reads world headers start (program >>= next) post := by
  intro past current
  apply Program.Guarded.bind
  apply (first past current).mono
  rintro more _ after ⟨value, rfl, holds⟩
  exact rest value holds more after

theorem Reads.await {op next}
    (rest : ∀ current, Stock world headers start current → permitted world current op = true →
      Stock world headers start (readExec world op current).2 ∧ Reads world headers start (next (readExec world op current).1) post) :
    Reads world headers start (awaits op >>= next) post := by
  intro _ _ current stock may
  obtain ⟨keeps, reads⟩ := rest current stock may
  exact ⟨keeps, reads _ _⟩

/-! One file -/

variable {index : Nat} {file : BulkFileData}

theorem look_reads (at' : start.bfds[index]? = some file)
    (rest : ∀ file', Serves world headers start file file' → Reads world headers start (next (some ⟨file', start.storage, start.fetch⟩)) post) :
    Reads world headers start (awaits (.look index) >>= next) post := by
  apply Reads.await
  intro current stock _
  obtain ⟨file', held, serves⟩ := stock.at at'
  refine ⟨stock, ?_⟩
  have seen : (readExec world (.look index) current).1 = some ⟨file', start.storage, start.fetch⟩ := by
    simp only [readExec, held, Option.map_some, stock.storage, stock.fetch]
  rw [seen]
  exact rest file' serves

/-- Data that is not at hand is loaded. -/
theorem ensureDataOf_reads (at' : start.bfds[index]? = some file) (name : seen.bfd.fileName = file.fileName)
    (unstored : seen.storage = true → truthyId seen.bfd.fileId = none) (fetch : seen.fetch = true)
    (source : truthyText seen.bfd.sourceUrl = some sourceUrl) (hash : world.fileHash (dataOf headers file.firstHeight file.count) = file.fileHash)
    (download : ∀ clock data, (world.replies clock).download (world.pathJoin sourceUrl file.fileName) = .ok data →
      data = dataOf headers file.firstHeight file.count) :
    Reads world headers start (ensureDataOf world index seen) fun outcome => outcome = .ok () := by
  unfold ensureDataOf
  split
  · exact .pure rfl
  · split
    next fileId stored id =>
      rw [unstored stored] at id
      cases id
    · simp only [fetch, source]
      rw [← name] at download
      -- What a download does, the first or the second.
      have arrives : ∀ again current, Stock world headers start current →
          ((readExec world (.ensureDownloaded index (world.pathJoin sourceUrl seen.bfd.fileName) again) current).1 = .ok (.ok ()) ∨
            ((world.replies current.clock).download (world.pathJoin sourceUrl seen.bfd.fileName)).isOk = false ∧
            ∃ error, (readExec world (.ensureDownloaded index (world.pathJoin sourceUrl seen.bfd.fileName) again) current).1 = .error error) ∧
          Stock world headers start (readExec world (.ensureDownloaded index (world.pathJoin sourceUrl seen.bfd.fileName) again) current).2 := by
        intro again current stock
        simp only [readExec]
        cases answer : (world.replies current.clock).download (world.pathJoin sourceUrl seen.bfd.fileName) with
        | error error => exact ⟨.inr ⟨rfl, error, rfl⟩, stock.waited⟩
        | ok data =>
          obtain rfl := download _ _ answer
          obtain ⟨outcome, stocked⟩ := stock.waited.arrived at' hash
          exact ⟨.inl (congrArg Except.ok outcome), stocked⟩
      apply Reads.await
      intro current stock _
      obtain ⟨reply, stocked⟩ := arrives false current stock
      refine ⟨stocked, ?_⟩
      rcases reply with reply | ⟨_, error, reply⟩
      · rw [reply]
        exact .pure rfl
      · rw [reply]
        apply Reads.await
        intro current stock may
        obtain ⟨reply, stocked⟩ := arrives true current stock
        refine ⟨stocked, ?_⟩
        rcases reply with reply | ⟨failed, _⟩
        · rw [reply]
          exact .pure rfl
        · simp only [permitted] at may
          rw [may] at failed
          cases failed

/-- A part of a file is read. -/
theorem getDataFromFileNoLock_reads (sized : ∀ height, (headers height).length = 80) (at' : start.bfds[index]? = some file)
    (positive : 0 < more) (inside : skip + more ≤ file.count) :
    Reads world headers start (getDataFromFileNoLock world index (skip * 80) (more * 80)) fun outcome =>
      outcome = .ok (some (dataOf headers (file.firstHeight + skip) more)) := by
  unfold getDataFromFileNoLock
  apply look_reads at'
  intro file' serves
  have count : file'.count = file.count := by rw [serves.cached]
  have length : min (if more * 80 = 0 then file'.count * 80 - skip * 80 else more * 80) (file'.count * 80 - skip * 80) = more * 80 := by
    rw [if_neg (by omega), count]
    omega
  dsimp only
  rw [if_neg (by omega), length]
  have right : slice (dataOf headers file.firstHeight file.count) (skip * 80) (more * 80) = dataOf headers (file.firstHeight + skip) more :=
    slice_dataOf sized inside
  cases held : file'.data with
  | some data =>
    obtain rfl := serves.data data held
    dsimp only
    apply Reads.pure
    rw [right]
  | none =>
    have retrievable : Retrievable world headers start file := by
      apply serves.supplied.resolve_right
      rw [held]
      simp
    cases retrievable with
    | stored storage id part =>
      simp only [storage, (show file'.fileId = file.fileId by rw [serves.cached]), id]
      apply Reads.await
      intro current stock _
      refine ⟨stock.waited, ?_⟩
      simp only [readExec, part]
      exact .pure (by rw [right])
    | downloaded unstored fetch source hash download =>
      have idle : start.storage = true → truthyId file'.fileId = none := by
        rw [serves.cached]
        exact unstored
      have loads : Reads world headers start (do
          ensureDataOf world index ⟨file', start.storage, start.fetch⟩
          let bfd ← awaits (.resume index)
          pure ((bfd.bind (·.data)).map (slice · (skip * 80) (more * 80))))
          fun outcome => outcome = .ok (some (dataOf headers (file.firstHeight + skip) more)) := by
        apply Reads.bind
        · apply ensureDataOf_reads at' (by rw [serves.cached]) idle fetch _ hash download
          rw [serves.cached]
          exact source
        · apply Reads.await
          intro current stock may
          refine ⟨stock, ?_⟩
          obtain ⟨last, still, kept⟩ := stock.at at'
          simp only [permitted, still, Option.bind_some] at may
          obtain ⟨data, held⟩ := Option.isSome_iff_exists.mp may
          obtain rfl := kept.data data held
          simp only [readExec, still, Option.bind_some, held, Option.map_some, right]
          exact .pure rfl
      -- The storage is not asked.
      cases stored : start.storage with
      | false =>
        rw [stored] at loads
        exact loads
      | true =>
        rw [stored] at loads
        rw [idle stored]
        exact loads

structure Told (file : BulkFileData) (info : BulkHeaderFileInfo) : Prop where
  firstHeight : info.firstHeight = file.firstHeight
  count : info.count = file.count

section
variable (sized : ∀ height, (headers height).length = 80) (contiguous : Contiguous start.bfds)
include sized contiguous

theorem getDataFromFile_reads {info : BulkHeaderFileInfo}
    (member : file ∈ start.bfds) (told : Told file info) {skip more : Nat} (positive : 0 < more) (inside : skip + more ≤ file.count) :
    Reads world headers start (getDataFromFile world info (skip * 80) (more * 80)) fun outcome =>
      outcome = .ok (some (dataOf headers (file.firstHeight + skip) more)) := by
  have covers : Covers file info.firstHeight := by
    rw [told.firstHeight]
    exact ⟨Nat.le_refl _, Nat.lt_add_of_pos_right (contiguous.counts file member)⟩
  obtain ⟨index, found⟩ := bfdForHeight_of member covers
  unfold getDataFromFile
  apply Reads.await
  intro current stock _
  refine ⟨stock, ?_⟩
  obtain ⟨other, file', at', also, serves, finds⟩ := stock.findBfd found
  obtain ⟨position, inside', rfl⟩ := List.getElem_of_mem member
  obtain rfl := contiguous.unique at' (List.getElem?_eq_getElem inside') also covers
  obtain rfl := Option.some.inj ((List.getElem?_eq_getElem inside').symm.trans at')
  have count : file'.count = start.bfds[index].count := by rw [serves.cached]
  simp only [readExec, finds, Program.ofExcept_ok_bind, told.count, count, Nat.lt_irrefl, if_false]
  exact getDataFromFileNoLock_reads sized at' positive inside

theorem readBufferFromFile_reads
    (member : file ∈ start.bfds) (told : Told file info) (left : done < many) (covers : Covers file (low + done))
    (begins : done = 0 ∨ file.firstHeight = low + done) :
    Reads world headers start (readBufferFromFile world info ⟨low, low + many - 1⟩) fun outcome =>
      outcome = .ok (some (dataOf headers (low + done) (min (file.firstHeight + file.count) (low + many) - (low + done)))) := by
  obtain ⟨from', before⟩ := covers
  have minHeight : max (info.firstHeight : Int) low = (low + done : Nat) := by
    rw [told.firstHeight]
    omega
  have maxHeight : min ((info.firstHeight : Int) + info.count - 1) (low + many - 1) = (min (file.firstHeight + file.count) (low + many) : Nat) - 1 := by
    rw [told.firstHeight, told.count]
    omega
  unfold readBufferFromFile HeightRange.intersect HeightRange.isEmpty HeightRange.length
  simp only [minHeight, maxHeight]
  rw [if_neg (by simp only [decide_eq_true_eq]; omega)]
  have offset : (((low + done : Nat) : Int) - info.firstHeight).toNat = low + done - file.firstHeight := by
    rw [told.firstHeight]
    omega
  have length : (((min (file.firstHeight + file.count) (low + many) : Nat) : Int) - 1 - (low + done : Nat) + 1).toNat =
      min (file.firstHeight + file.count) (low + many) - (low + done) := by omega
  rw [offset, length]
  have reads := @getDataFromFile_reads world headers start file sized contiguous info member told (low + done - file.firstHeight)
    (min (file.firstHeight + file.count) (low + many) - (low + done)) (by omega) (by omega)
  rwa [show file.firstHeight + (low + done - file.firstHeight) = low + done by omega] at reads

/-! One buffer -/

def Finds (files : List BulkFileData) (height : Nat) : Option BulkHeaderFileInfo → Prop
  | none => ∀ file ∈ files, ¬Covers file height
  | some info => ∃ file ∈ files, Told file info ∧ Covers file height

omit sized contiguous in
theorem getFileForHeight_reads
    (rest : ∀ info, Finds start.bfds height info → Reads world headers start (next (.ok info)) post) :
    Reads world headers start (awaits (.getFileForHeight height) >>= next) post := by
  apply Reads.await
  intro current stock _
  refine ⟨stock, ?_⟩
  cases found : start.bfdForHeight height with
  | none =>
    simp only [readExec, stock.findBfd_none found]
    apply rest none
    intro file member covers
    obtain ⟨index, here⟩ := bfdForHeight_of member covers
    rw [found] at here
    cases here
  | some index =>
    obtain ⟨file, file', at', covers, serves, finds⟩ := stock.findBfd found
    simp only [readExec, finds]
    apply rest (some (bfdToInfo file' false))
    refine ⟨file, List.mem_of_getElem? at', ⟨?_, ?_⟩, covers⟩
    · rw [serves.cached]
      rfl
    · rw [serves.cached]
      rfl

omit sized contiguous in
@[simp] theorem length_of_count (low many : Nat) : HeightRange.length ⟨low, low + many - 1⟩ = many := by
  unfold HeightRange.length
  dsimp only
  omega

def Onwards (files : List BulkFileData) (low many done : Nat) : Option BulkHeaderFileInfo → Prop
  | none => done = many
  | some info => ∃ file ∈ files, Told file info ∧ (done < many → Covers file (low + done) ∧ (done = 0 ∨ file.firstHeight = low + done)) ∧
      (done = many → low + many ≤ file.firstHeight)

theorem readFiles_reads {low many : Nat}
    (within : ∀ height, low ≤ height → height < low + many → ∃ file ∈ start.bfds, Covers file height) {rounds done : Nat}
    {info} (upTo : done ≤ many) (rest : many - done < rounds) (onwards : Onwards start.bfds low many done info) :
    Reads world headers start (readFiles world ⟨low, low + many - 1⟩ rounds info (dataOf headers low done)) fun outcome =>
      outcome = .ok (dataOf headers low many) := by
  induction rounds generalizing done info with
  | zero => omega
  | succ rounds ih =>
    cases info with
    | none =>
      obtain rfl : done = many := onwards
      exact .pure rfl
    | some info =>
      obtain ⟨file, member, told, next, past⟩ := onwards
      unfold readFiles
      rcases Nat.lt_or_eq_of_le upTo with left | rfl
      · obtain ⟨covers, begins⟩ := next left
        apply (readBufferFromFile_reads sized contiguous member told left covers begins).bind
        have covered : low + done < file.firstHeight + file.count := covers.2
        have grown : dataOf headers low done ++ dataOf headers (low + done) (min (file.firstHeight + file.count) (low + many) - (low + done)) =
            dataOf headers low (min (file.firstHeight + file.count) (low + many) - low) := by
          rw [← dataOf_append]
          congr 1
          omega
        dsimp only
        rw [if_neg (by rw [length_of_count, dataOf_length sized, dataOf_length sized]; omega), grown]
        have height : (info.firstHeight : Int) + info.count = (file.firstHeight + file.count : Nat) := by
          rw [told.firstHeight, told.count]
          omega
        rw [height]
        apply getFileForHeight_reads
        intro found finds
        rw [Program.ofExcept_ok_bind]
        apply ih (by omega) (by omega)
        cases found with
        | none =>
          by_contra short
          unfold Onwards at short
          obtain ⟨next, also, covers⟩ := within (file.firstHeight + file.count) (by omega) (by omega)
          exact finds next also covers
        | some info =>
          obtain ⟨next, also, told, covers⟩ := finds
          have starts := contiguous.follows member also covers
          refine ⟨next, also, told, fun more => ⟨?_, .inr ?_⟩, fun _ => ?_⟩
          · rwa [show low + (min (file.firstHeight + file.count) (low + many) - low) = file.firstHeight + file.count by omega]
          · omega
          · omega
      · have beyond := past rfl
        have empty : readBufferFromFile world info ⟨low, low + done - 1⟩ = pure none := by
          unfold readBufferFromFile HeightRange.intersect HeightRange.isEmpty
          simp only
          rw [if_pos]
          simp only [decide_eq_true_eq, told.firstHeight]
          omega
        rw [empty]
        exact .pure rfl

/-! All buffers -/

theorem read_reads {range : HeightRange}
    (within : ∀ height, low ≤ height → height ≤ top → ∃ file ∈ start.bfds, Covers file height) (ends : range.maxHeight = top)
    (some : range.isEmpty = false) (left : low ≤ top) (size : maxBufferSize / 80 = many) (positive : 0 < many) :
    Reads world headers start (read world ⟨range, maxBufferSize, low⟩) fun outcome =>
      outcome = .ok (.some (dataOf headers low (min many (top + 1 - low))), ⟨range, maxBufferSize, (low + min many (top + 1 - low) : Nat)⟩) := by
  have last : min ((low : Int) + many - 1) top = low + (min many (top + 1 - low) : Nat) - 1 := by omega
  unfold read
  rw [if_neg (by simp only [some, ends, Bool.false_eq_true, false_or]; omega)]
  simp only [size, ends, last]
  generalize taken : min many (top + 1 - low) = count
  apply getFileForHeight_reads
  intro found finds
  rw [Program.ofExcept_ok_bind]
  cases found with
  | none =>
    obtain ⟨file, member, covers⟩ := within low (Nat.le_refl _) left
    exact (finds file member covers).elim
  | some info =>
    obtain ⟨file, member, told, covers⟩ := finds
    dsimp only
    rw [length_of_count]
    have reads := @readFiles_reads world headers start sized contiguous low count (fun height from' before => within height from' (by omega)) (count + 1) 0
      (.some info) (Nat.zero_le _) (by omega) ⟨file, member, told, fun _ => ⟨covers, .inl rfl⟩, fun none => by omega⟩
    apply Reads.bind reads
    rw [if_neg (by rw [dataOf_length sized]; omega)]
    apply Reads.pure
    congr 3
    omega

structure Exact (headers : Nat → Bytes) (maxBufferSize low count : Nat) (buffers : List Bytes) : Prop where
  headers : buffers.flatten = dataOf headers low count
  sizes : ∀ buffer ∈ buffers, buffer.length ≤ maxBufferSize

theorem readAll_reads {range : HeightRange} {maxBufferSize low top times : Nat}
    (within : ∀ height, low ≤ height → height ≤ top → ∃ file ∈ start.bfds, Covers file height) (ends : range.maxHeight = top)
    (some : range.isEmpty = false) (size : 80 ∣ maxBufferSize) (positive : 0 < maxBufferSize) (upTo : low ≤ top + 1) (enough : top + 1 - low < times) :
    Reads world headers start (readAll world times ⟨range, maxBufferSize, low⟩) fun outcome =>
      ∃ buffers, outcome = .ok buffers ∧ Exact headers maxBufferSize low (top + 1 - low) buffers := by
  induction times generalizing low with
  | zero => omega
  | succ times ih =>
    unfold readAll
    rcases Nat.lt_or_ge top low with beyond | left
    · have ended : read world ⟨range, maxBufferSize, low⟩ = pure (none, ⟨range, maxBufferSize, low⟩) := by
        unfold read
        rw [if_pos (.inr (by simp only [ends]; omega))]
      rw [ended]
      apply Reads.pure
      rw [show top + 1 - low = 0 by omega]
      exact ⟨[], rfl, rfl, by simp⟩
    · obtain ⟨many, rfl⟩ := size
      have per : 80 * many / 80 = many := by omega
      apply (read_reads sized contiguous within ends some left per (by omega)).bind
      dsimp only
      apply Reads.seq
      · apply ih
        · exact fun height from' upTo => within height (by omega) upTo
        · omega
        · omega
      · intro rest ⟨same, sizes⟩
        apply Reads.pure
        refine ⟨_, rfl, ?_, ?_⟩
        · rw [List.flatten_cons, same, ← dataOf_append]
          congr 1
          omega
        · intro buffer member
          rcases List.mem_cons.mp member with rfl | member
          · rw [dataOf_length sized]
            omega
          · exact sizes buffer member

/-- A whole range is read, or nothing where there is none. -/
theorem readAll_new_reads
    (within : range.isEmpty = true ∨ start.getHeightRange.minHeight ≤ range.minHeight ∧ range.maxHeight ≤ start.getHeightRange.maxHeight)
    (size : 80 ∣ maxBufferSize) (positive : 0 < maxBufferSize) (enough : range.length < times) :
    Reads world headers start (readAll world times (.new range maxBufferSize)) fun outcome =>
      ∃ buffers, outcome = .ok buffers ∧ Exact headers maxBufferSize range.minHeight.toNat range.length buffers := by
  cases empty : range.isEmpty with
  | true =>
    obtain ⟨times, rfl⟩ : ∃ more, times = more + 1 := ⟨times - 1, by omega⟩
    have none : range.length = 0 := by
      simp only [HeightRange.isEmpty, decide_eq_true_eq] at empty
      unfold HeightRange.length
      omega
    unfold readAll
    have ended : read world (.new range maxBufferSize) = pure (.none, .new range maxBufferSize) := by
      unfold read
      rw [if_pos (.inl empty)]
    rw [ended, none]
    exact .pure ⟨[], rfl, rfl, by simp⟩
  | false =>
    obtain ⟨from', upTo⟩ := within.resolve_left (by simp [empty])
    simp only [HeightRange.isEmpty, decide_eq_false_iff_not] at empty
    unfold BulkFileDataManager.getHeightRange at from' upTo
    split at from'
    next first last head ends =>
      simp only [head, ends] at from' upTo
      obtain ⟨low, lowest⟩ := Int.eq_ofNat_of_zero_le (show 0 ≤ range.minHeight by omega)
      obtain ⟨top, highest⟩ := Int.eq_ofNat_of_zero_le (show 0 ≤ range.maxHeight by omega)
      have covered : ∀ height, low ≤ height → height ≤ top → ∃ file ∈ start.bfds, Covers file height := by
        intro height above below
        apply contiguous.covered head ends
        · omega
        · omega
      have count : range.length = top + 1 - low := by
        unfold HeightRange.length
        omega
      have reads := @readAll_reads world headers start sized contiguous range maxBufferSize low top times covered highest
        (by simp only [HeightRange.isEmpty, decide_eq_false_iff_not]; omega) size positive (by omega) (by omega)
      rw [count, lowest]
      unfold BulkFileDataReader.new
      rw [lowest]
      exact reads
    next missing =>
      split at upTo
      next first last head ends => exact (missing first last head ends).elim
      next =>
        simp only [HeightRange.empty] at from' upTo
        omega

end

/-! All readers -/

section
variable {ι : Type}

theorem readers_contracted (post : ι → Except BulkError α → Prop) :
    Pool.Contracted (readExec world) (fun pool reader => stepPermitted world pool reader = true) (Stock world headers start)
      (fun _ : ι => readContract world headers start) (fun reader _ outcome _ => post reader outcome) where
  steady _ _ _ stock := stock
  trans _ _ _ _ _ _ stock := stock
  stable _ _ _ _ _ holds _ := holds
  permits pool reader op next _ may awaiting := by
    unfold stepPermitted at may
    rw [awaiting] at may
    exact may
  keeps _ _ _ _ _ _ _ stock := stock
  spares _ _ _ _ _ _ _ _ stock _ := stock

end

/-- Any number of readers of contiguous files whose data can be had again each get the headers
of their range, as long as data that has been loaded is still at hand when its reader goes on. -/
theorem reads_exact {ι : Type} [DecidableEq ι] (world : ReadWorld) (headers : Nat → Bytes) (sized : ∀ height, (headers height).length = 80)
    (start : BulkFileDataManager) (contiguous : Contiguous start.bfds) (serves : ∀ file ∈ start.bfds, Serves world headers start file file)
    (ranges : ι → HeightRange) (maxBufferSize times : ι → Nat)
    (within : ∀ reader, (ranges reader).isEmpty = true ∨
      start.getHeightRange.minHeight ≤ (ranges reader).minHeight ∧ (ranges reader).maxHeight ≤ start.getHeightRange.maxHeight)
    (sizes : ∀ reader, 80 ∣ maxBufferSize reader ∧ 0 < maxBufferSize reader) (enough : ∀ reader, (ranges reader).length < times reader)
    (pool : Pool bulkReads BulkError (List Bytes) BulkFileDataManager ι)
    (reached : Pool.Reaches (readExec world) (fun pool reader => stepPermitted world pool reader = true)
      (Pool.start start fun reader => readAll world (times reader) (.new (ranges reader) (maxBufferSize reader))) pool)
    (reader : ι) (outcome : Except BulkError (List Bytes)) (settled : (pool.task reader).program.outcome = some outcome) :
    ∃ buffers, outcome = .ok buffers ∧
      Exact headers (maxBufferSize reader) (ranges reader).minHeight.toNat (ranges reader).length buffers := by
  have stock : Stock world headers start start := by
    refine ⟨rfl, rfl, List.forall₂_same.mpr serves⟩
  obtain ⟨-, guarded⟩ := reached.guarded (readers_contracted fun reader outcome => ∃ buffers, outcome = .ok buffers ∧
    Exact headers (maxBufferSize reader) (ranges reader).minHeight.toNat (ranges reader).length buffers) stock
    fun reader => readAll_new_reads sized contiguous (within reader) (sizes reader).1 (sizes reader).2 (enough reader) [] start
  have ended := guarded reader
  cases program : (pool.task reader).program with
  | await op next =>
    rw [program] at settled
    cases settled
  | done value =>
    rw [program] at settled ended
    cases settled
    exact ended
  | fail error =>
    rw [program] at settled ended
    cases settled
    exact ended

/-! Readers that meet -/

def sampleHeaders : Nat → Bytes
  | 0 => firstHeader
  | 1 => secondHeader
  | _ => thirdHeader

def sampleDownload : String → Except BulkError Bytes
  | "https://cdn/mainNet_0.headers" => .ok firstHeader
  | "https://cdn/mainNet_1.headers" => .ok secondHeader
  | _ => .error .rejected

def downloads : ReadWorld :=
  { sampleWorld with
    replies := fun clock => { sampleWorld.replies clock with download := sampleDownload }
    getBulkFileDataPart := fun _ _ _ _ => .error .rejected }

def downloaded (fileName : String) (firstHeight : Nat) (fileHash : String) : BulkFileData :=
  { fileName, firstHeight, count := 1, prevChainWork := none, lastChainWork := none, prevHash := "", lastHash := none, chain := some .main
    data := none, validated := true, fileId := none, sourceUrl := some "https://cdn", fileHash, mru := 0 }

def twoFiles : BulkFileDataManager :=
  { create sampleWorld .main 100000 (some 1) true none with bfds := [
      downloaded "mainNet_0.headers" 0 "r0IDHoBf9JOgc0Hi90/1gUnSKrm6GfYTQ+LIbHHF1m0=",
      downloaded "mainNet_1.headers" 1 "p23XN5De97V3dvIvohHRnPQxIacJo36u2hcjDqrCWPU="] }

theorem sampleHeaders_sized (height : Nat) : (sampleHeaders height).length = 80 := by
  unfold sampleHeaders
  split <;> decide +kernel

theorem twoFiles_contiguous : Contiguous twoFiles.bfds := ⟨by decide +kernel, by decide +kernel⟩

theorem twoFiles_serve : ∀ file ∈ twoFiles.bfds, Serves downloads sampleHeaders twoFiles file file := by
  have each : ∀ (fileName fileHash : String) (firstHeight : Nat), downloads.fileHash (sampleHeaders firstHeight) = fileHash →
      sampleDownload ("https://cdn" ++ "/" ++ fileName) = .ok (sampleHeaders firstHeight) →
      Serves downloads sampleHeaders twoFiles (downloaded fileName firstHeight fileHash) (downloaded fileName firstHeight fileHash) := by
    intro fileName fileHash firstHeight hash download
    have one : dataOf sampleHeaders firstHeight 1 = sampleHeaders firstHeight := by simp [dataOf]
    refine ⟨rfl, fun _ held => by simp [downloaded] at held, .inl (.downloaded (fun _ => rfl) rfl rfl ?_ ?_)⟩
    · exact (congrArg downloads.fileHash one).trans hash
    · intro _ data answered
      have same := download.symm.trans answered
      exact (Except.ok.inj same).symm.trans one.symm
  intro file member
  simp only [twoFiles, List.mem_cons, List.not_mem_nil, or_false] at member
  rcases member with rfl | rfl
  · exact each _ _ 0 (by decide +kernel) (by decide +kernel)
  · exact each _ _ 1 (by decide +kernel) (by decide +kernel)

/-- Readers with buffers for one header. -/
def twoReaders (ranges : Bool → HeightRange) : Pool bulkReads BulkError (List Bytes) BulkFileDataManager Bool :=
  Pool.start twoFiles fun reader => readAll downloads 3 (.new (ranges reader) 80)

/-- Both get both headers: the first reader reads its first header and turns to the second one,
then the other reader does all of its work, and the first one ends. -/
theorem reads_exact_twice : ∃ pool, Pool.Reaches (readExec downloads) (fun pool reader => stepPermitted downloads pool reader = true)
    (twoReaders fun _ => ⟨0, 1⟩) pool ∧ ∀ reader, ∃ buffers, (pool.task reader).program.outcome = some (.ok buffers) ∧
      Exact sampleHeaders 80 0 2 buffers := by
  have ends : (((twoReaders fun _ => ⟨0, 1⟩).followWhile (readExec downloads) (stepPermitted downloads)
      (List.replicate 7 false ++ List.replicate 10 true ++ List.replicate 3 false)).map fun pool =>
        (((pool.task false).program.outcome.map Except.toOption, (pool.task true).program.outcome.map Except.toOption))) =
      some (some (some [firstHeader, secondHeader]), some (some [firstHeader, secondHeader])) := by decide +kernel
  obtain ⟨pool, followed, outcomes⟩ := Option.map_eq_some_iff.mp ends
  have reached := Pool.reaches_followWhile (fun _ _ => id) followed
  refine ⟨pool, reached, fun reader => ?_⟩
  obtain ⟨outcome, settled⟩ : ∃ outcome, (pool.task reader).program.outcome = some outcome := by
    obtain ⟨first, second⟩ := Prod.mk.inj outcomes
    cases reader with
    | false =>
      obtain ⟨outcome, settled, -⟩ := Option.map_eq_some_iff.mp first
      exact ⟨outcome, settled⟩
    | true =>
      obtain ⟨outcome, settled, -⟩ := Option.map_eq_some_iff.mp second
      exact ⟨outcome, settled⟩
  obtain ⟨buffers, rfl, exact⟩ := reads_exact downloads sampleHeaders sampleHeaders_sized twoFiles twoFiles_contiguous twoFiles_serve
    (fun _ => ⟨0, 1⟩) (fun _ => 80) (fun _ => 3) (fun _ => .inr (by decide +kernel)) (fun _ => by decide) (fun _ => by decide) pool reached reader outcome settled
  exact ⟨buffers, settled, exact⟩

/-- The first reader has loaded the first file, and the other one loads the second file before
the first reader goes on: the data of the first file is released, and its reader ends with nothing. -/
theorem reads_end_early : Contiguous twoFiles.bfds ∧ (∀ file ∈ twoFiles.bfds, Serves downloads sampleHeaders twoFiles file file) ∧
    ((twoReaders fun reader => if reader then ⟨1, 1⟩ else ⟨0, 1⟩).follow (readExec downloads)
      (List.replicate 4 false ++ List.replicate 4 true ++ [false])).map (fun pool => (pool.task false).program.outcome.map Except.toOption) =
        some (some (some [])) ∧
    ¬Exact sampleHeaders 80 0 2 [] := by
  refine ⟨twoFiles_contiguous, twoFiles_serve, by decide +kernel, fun exact => ?_⟩
  have lengths := congrArg List.length exact.headers
  rw [dataOf_length sampleHeaders_sized] at lengths
  simp at lengths

end WalletToolbox.Chaintracks.Bulk
