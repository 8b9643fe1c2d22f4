import WalletToolbox.Proofs.StoredProofs
import WalletToolbox.Proving.ProofTimeouts

/-! What a proof timeout does to a request that was broadcast. While no row is written from a
copy that has been overtaken, and none is timed out on one, the flag and the count of resets
are those of the whole run. -/

namespace WalletToolbox
open Effects EntityProvenTxReq TaskCheckForProofs EntityProvenTx List

namespace EntityProvenTxReq

/-- The request told by itself that it was broadcast, whatever its status becomes. -/
def Marked (req : TableProvenTxReq) : Prop := req.wasBroadcast = true ∨ ReqRun.recorded req = true

section
variable {now : Clock} {note : ReqHistoryNote} {noDupes : Bool} {req after : TableProvenTxReq} {status : ProvenTxReqStatus}

theorem wasBroadcast_iff : wasBroadcast req = true ↔ req.wasBroadcast = true ∨ ReqRun.hadStatus req = true ∨ ReqRun.recorded req = true := by
  simp [wasBroadcast, ReqRun.hadStatus, ReqRun.recorded, or_assoc]

theorem Marked.wasBroadcast (marked : Marked req) : wasBroadcast req = true := by
  rcases marked with flag | recorded
  · exact wasBroadcast_iff.mpr (.inl flag)
  · exact wasBroadcast_iff.mpr (.inr (.inr recorded))

theorem recorded_iff : ReqRun.recorded req = true ↔ ∃ note ∈ req.history, saysBroadcast note = true := by
  simp [ReqRun.recorded]

theorem recorded_within (within : req.history ⊆ after.history) (recorded : ReqRun.recorded req = true) : ReqRun.recorded after = true := by
  obtain ⟨note, member, told⟩ := recorded_iff.mp recorded
  exact recorded_iff.mpr ⟨note, within member, told⟩

theorem saysBroadcast_what (told : saysBroadcast note = true) : note.what = "status" := by
  unfold saysBroadcast at told
  rw [Bool.and_eq_true, decide_eq_true_eq] at told
  exact told.1

@[simp] theorem saysBroadcast_stamped : saysBroadcast (note.stamped now) = saysBroadcast note := rfl

theorem lookup_statusNote : (statusNote was status).properties.lookup "status_now" = some (.text status.text) := by
  have other : ("status_now" == "status_was") = false := by decide +kernel
  show lookup "status_now" [("status_was", _), ("status_now", _)] = _
  rw [lookup_cons, other]
  exact lookup_cons_self

theorem saysBroadcast_statusNote : saysBroadcast (statusNote was status) = wasBroadcastStatuses.contains status := by
  have spec : saysBroadcast (statusNote was status) =
      (decide ("status" = "status") &&
        wasBroadcastStatuses.any fun set => (statusNote was status).properties.lookup "status_now" = some (.text set.text)) := rfl
  rw [spec, lookup_statusNote, decide_eq_true rfl, Bool.true_and]
  cases status <;> decide +kernel

theorem addHistoryNote_history :
    (∀ other ∈ (addHistoryNote now note noDupes req).history, other ∈ req.history ∨ other = note.stamped now) ∧
      ∀ other ∈ req.history, other.what ≠ note.what ∨ noDupes = false → other ∈ (addHistoryNote now note noDupes req).history := by
  obtain ⟨kept, is⟩ : ∃ kept, kept = if noDupes then withoutOlder (note.stamped now) req.history else req.history := ⟨_, rfl⟩
  have sub : ∀ other ∈ kept, other ∈ req.history := by
    intro other member
    rw [is] at member
    split at member
    · exact (mem_filter.mp member).1
    · exact member
  have stays : ∀ other ∈ req.history, other.what ≠ note.what ∨ noDupes = false → other ∈ kept := by
    rintro other member (different | all)
    · rw [is]
      split
      · apply mem_filter.mpr
        refine ⟨member, ?_⟩
        rw [Bool.or_eq_true, decide_eq_true_eq]
        exact .inl different
      · exact member
    · rw [is, all]
      exact member
  have shape : addHistoryNote now note noDupes req =
      if kept.any fun existing => existing.coveredBy (note.stamped now) then { req with history := kept }
      else { req with history := (kept ++ [note.stamped now]).insertionSort fun first second => first.sortKey ≤ second.sortKey } := by
    rw [is]
    rfl
  rw [shape]
  split
  · exact ⟨fun other member => .inl (sub other member), stays⟩
  · constructor
    · intro other member
      rcases mem_append.mp ((mem_insertionSort _).mp member) with old | new
      · exact .inl (sub other old)
      · exact .inr (mem_singleton.mp new)
    · intro other member kind
      exact (mem_insertionSort _).mpr (mem_append_left _ (stays other member kind))

structure Keeps (req after : TableProvenTxReq) : Prop where
  flag : after.wasBroadcast = req.wasBroadcast
  status : after.status = req.status
  rebroadcastAttempts : after.rebroadcastAttempts = req.rebroadcastAttempts
  history : ReqRun.recorded after = ReqRun.recorded req

theorem Keeps.refl (req) : Keeps req req := ⟨rfl, rfl, rfl, rfl⟩

theorem Keeps.trans (first : Keeps req after) (second : Keeps after last) : Keeps req last :=
  ⟨second.flag.trans first.flag, second.status.trans first.status, second.rebroadcastAttempts.trans first.rebroadcastAttempts,
    second.history.trans first.history⟩

theorem Keeps.marked (keeps : Keeps req after) (marked : Marked req) : Marked after := by
  unfold Marked
  rw [keeps.flag, keeps.history]
  exact marked

theorem Keeps.wasBroadcast (keeps : Keeps req after) : wasBroadcast after = wasBroadcast req := by
  rw [Bool.eq_iff_iff, wasBroadcast_iff, wasBroadcast_iff, keeps.flag, keeps.history]
  unfold ReqRun.hadStatus
  rw [keeps.status]

theorem addHistoryNote_keeps (kind : note.what ≠ "status") : Keeps req (addHistoryNote now note noDupes req) := by
  obtain ⟨from', stays⟩ := @addHistoryNote_history now note noDupes req
  obtain ⟨history, same⟩ := addHistoryNote_eq now note noDupes req
  refine ⟨by rw [same], by rw [same], by rw [same], ?_⟩
  rw [Bool.eq_iff_iff, recorded_iff, recorded_iff]
  constructor
  · rintro ⟨other, member, told⟩
    rcases from' other member with old | rfl
    · exact ⟨other, old, told⟩
    · rw [saysBroadcast_stamped] at told
      exact absurd (saysBroadcast_what told) kind
  · rintro ⟨other, member, told⟩
    refine ⟨other, stays other member (.inl fun same => ?_), told⟩
    exact kind (same.symm.trans (saysBroadcast_what told))

theorem noteResult_keeps {options notes} (kinds : ∀ note ∈ notes, note.what ≠ "status") :
    Keeps req (noteResult options notes req) := by
  unfold noteResult
  induction notes generalizing req with
  | nil => exact .refl req
  | cons first rest ih =>
    exact (addHistoryNote_keeps (kinds first (.head _))).trans (ih fun note member => kinds note (.tail _ member))

theorem foldl_addHistoryNote_eq (now : Clock) (noDupes : Bool) (notes : List ReqHistoryNote) (req) :
    ∃ history, notes.foldl (fun req note => addHistoryNote now note noDupes req) req = { req with history } := by
  induction notes generalizing req with
  | nil => exact ⟨_, rfl⟩
  | cons first rest ih =>
    obtain ⟨one, is⟩ := addHistoryNote_eq now first noDupes req
    obtain ⟨last, same⟩ := ih (addHistoryNote now first noDupes req)
    rw [is] at same
    refine ⟨last, ?_⟩
    rw [foldl_cons, is, same]

theorem setStatus_marked (now : Clock) (status) (had : Marked req ∨ wasBroadcastStatuses.contains status = true) :
    Marked (setStatus now status req) := by
  rcases had with (flag | recorded) | contains
  · exact .inl (by show (req.wasBroadcast || _) = true; rw [flag]; rfl)
  · exact .inr (recorded_within (setStatus_within now status req).history recorded)
  · exact .inl (by show (req.wasBroadcast || wasBroadcastStatuses.contains status) = true; rw [contains, Bool.or_true])

theorem setStatus_rebroadcastAttempts (now : Clock) (status) (req) :
    (setStatus now status req).rebroadcastAttempts = req.rebroadcastAttempts := by
  unfold setStatus
  dsimp only
  split
  · obtain ⟨history, same⟩ := addHistoryNote_eq now (statusNote req.status status) false req
    rw [same]
  · rfl

theorem mem_setStatus (member : note ∈ (setStatus now status req).history) :
    note ∈ req.history ∨ note = (statusNote req.status status).stamped now := by
  unfold setStatus at member
  dsimp only at member
  split at member
  · exact addHistoryNote_history.1 note member
  · exact .inl member

theorem setStatus_wasBroadcast (set : wasBroadcast (setStatus now status req) = true) :
    wasBroadcast req = true ∨ wasBroadcastStatuses.contains status = true := by
  rcases wasBroadcast_iff.mp set with flag | here | recorded
  · replace flag : (req.wasBroadcast || wasBroadcastStatuses.contains status) = true := flag
    rcases Bool.or_eq_true_iff.mp flag with old | new
    · exact .inl (wasBroadcast_iff.mpr (.inl old))
    · exact .inr new
  · exact .inr here
  · obtain ⟨other, member, told⟩ := recorded_iff.mp recorded
    rcases mem_setStatus member with old | rfl
    · exact .inl (wasBroadcast_iff.mpr (.inr (.inr (recorded_iff.mpr ⟨other, old, told⟩))))
    · rw [saysBroadcast_stamped, saysBroadcast_statusNote] at told
      exact .inr told

theorem applyProofTimeout_eq (now : Clock) (maxRebroadcastAttempts : Nat) (req) : applyProofTimeout now maxRebroadcastAttempts req =
    if wasBroadcast req = false then setStatus now .invalid { req with notified := false }
    else if 0 < maxRebroadcastAttempts ∧ maxRebroadcastAttempts ≤ req.rebroadcastAttempts then setStatus now .invalid { req with notified := false }
    else { setStatus now .unsent { req with notified := false, rebroadcastAttempts := req.rebroadcastAttempts + 1 } with attempts := 0 } := rfl

/-- What a timeout does. -/
theorem applyProofTimeout_cases (now : Clock) (maxRebroadcastAttempts : Nat) (req) :
    ((wasBroadcast req = false ∨ 0 < maxRebroadcastAttempts ∧ maxRebroadcastAttempts ≤ req.rebroadcastAttempts) ∧
        (applyProofTimeout now maxRebroadcastAttempts req).status = .invalid ∧
        (applyProofTimeout now maxRebroadcastAttempts req).rebroadcastAttempts = req.rebroadcastAttempts) ∨
      (wasBroadcast req = true ∧ (0 < maxRebroadcastAttempts → req.rebroadcastAttempts < maxRebroadcastAttempts) ∧
        (applyProofTimeout now maxRebroadcastAttempts req).status = .unsent ∧
        (applyProofTimeout now maxRebroadcastAttempts req).rebroadcastAttempts = req.rebroadcastAttempts + 1) := by
  rw [applyProofTimeout_eq]
  split
  · next never => exact .inl ⟨.inl never, rfl, setStatus_rebroadcastAttempts ..⟩
  · next was =>
    split
    · next reached => exact .inl ⟨.inr reached, rfl, setStatus_rebroadcastAttempts ..⟩
    · next short =>
      refine .inr ⟨by simpa using was, fun some => ?_, rfl, setStatus_rebroadcastAttempts ..⟩
      by_contra reached
      exact short ⟨some, by omega⟩

/-- It neither makes nor takes away the mark. -/
theorem applyProofTimeout_marks (now : Clock) (maxRebroadcastAttempts : Nat) :
    (Marked req → Marked (applyProofTimeout now maxRebroadcastAttempts req)) ∧
      (wasBroadcast (applyProofTimeout now maxRebroadcastAttempts req) = true → wasBroadcast req = true) := by
  have invalid (set : wasBroadcast (setStatus now .invalid { req with notified := false }) = true) : wasBroadcast req = true := by
    rcases setStatus_wasBroadcast set with was | here
    · exact was
    · cases here
  rw [applyProofTimeout_eq]
  split
  · exact ⟨fun marked => setStatus_marked now .invalid (.inl marked), invalid⟩
  · split
    · exact ⟨fun marked => setStatus_marked now .invalid (.inl marked), invalid⟩
    · next was short =>
      refine ⟨fun marked => ?_, fun _ => by simpa using was⟩
      have set : Marked (setStatus now .unsent { req with notified := false, rebroadcastAttempts := req.rebroadcastAttempts + 1 }) :=
        setStatus_marked now .unsent (.inl marked)
      exact set

end
end EntityProvenTxReq

namespace ReqRun

def Waits : CopyPhase → Prop
  | .listed | .asking => True
  | _ => False

def Stores : CopyPhase → Prop
  | .storing _ => True
  | _ => False

/-- A timeout as it should be: a request that was broadcast is reset until it has been reset
as often as allowed, any other is invalid. -/
structure TimeoutKept (maxRebroadcastAttempts : Nat) (timeout : ProofTimeout) : Prop where
  unlimited : timeout.had = true → maxRebroadcastAttempts = 0 → timeout.status ≠ .invalid
  limited : timeout.had = true → 0 < maxRebroadcastAttempts → timeout.status = .invalid → timeout.cycles = maxRebroadcastAttempts
  never : timeout.had = false → timeout.status ≠ .unsent

structure TimeoutsKept (maxRebroadcastAttempts : Nat) (run : ReqRun) : Prop where
  each : ∀ timeout ∈ run.timeouts, TimeoutKept maxRebroadcastAttempts timeout
  once : (run.timeouts.map (·.copy)).Nodup

structure RowKept (maxRebroadcastAttempts : Nat) (run : ReqRun) : Prop where
  marked : run.had = true → Marked run.stored
  had : wasBroadcast run.stored = true → run.had = true
  cycles : run.stored.rebroadcastAttempts = run.cycles
  bound : 0 < maxRebroadcastAttempts → run.cycles ≤ maxRebroadcastAttempts

structure CopyKept (maxRebroadcastAttempts : Nat) (run : ReqRun) (number : Nat) (copy : ReqCopy) : Prop where
  marked : copy.had = true → Marked copy.req
  had : wasBroadcast copy.req = true → copy.had = true
  past : copy.read ≤ run.version
  current : copy.read = run.version → (run.had = true → copy.had = true) ∧ copy.req.rebroadcastAttempts = run.cycles + copy.resets
  bound : 0 < maxRebroadcastAttempts → copy.req.rebroadcastAttempts ≤ maxRebroadcastAttempts
  untimed : Waits copy.phase → number ∉ run.timeouts.map (·.copy)
  stores : Stores copy.phase → copy.read = run.version →
    copy.req.wasBroadcast = run.stored.wasBroadcast ∧ (copy.had = true → run.had = true)

structure Kept (maxRebroadcastAttempts : Nat) (run : ReqRun) : Prop where
  row : RowKept maxRebroadcastAttempts run
  copies : ∀ number copy, run.copies[number]? = some copy → CopyKept maxRebroadcastAttempts run number copy
  timeouts : TimeoutsKept maxRebroadcastAttempts run
  within : ∀ timeout ∈ run.timeouts, timeout.copy < run.copies.length

section
variable {sdk : MerklePaths} {now : Clock} {maxRebroadcastAttempts number : Nat} {run : ReqRun} {copy after : ReqCopy}
  {stored : TableProvenTxReq}

theorem RowKept.beside {copies timeouts} (kept : RowKept maxRebroadcastAttempts run) :
    RowKept maxRebroadcastAttempts { run with copies, timeouts } :=
  ⟨kept.marked, kept.had, kept.cycles, kept.bound⟩

theorem CopyKept.beside {copies} (kept : CopyKept maxRebroadcastAttempts run number copy) :
    CopyKept maxRebroadcastAttempts { run with copies } number copy :=
  ⟨kept.marked, kept.had, kept.past, kept.current, kept.bound, kept.untimed, kept.stores⟩

theorem TimeoutsKept.beside {version cycles had copies} (kept : TimeoutsKept maxRebroadcastAttempts run) :
    TimeoutsKept maxRebroadcastAttempts { run with stored, version, copies, had, cycles } :=
  ⟨kept.each, kept.once⟩

theorem setCopy_kept_of (row : RowKept maxRebroadcastAttempts run)
    (others : ∀ other copy, other ≠ number → run.copies[other]? = some copy → CopyKept maxRebroadcastAttempts run other copy)
    (timeouts : TimeoutsKept maxRebroadcastAttempts run) (within : ∀ timeout ∈ run.timeouts, timeout.copy < run.copies.length)
    (changed : CopyKept maxRebroadcastAttempts run number after) : Kept maxRebroadcastAttempts (setCopy number after run) := by
  refine ⟨row.beside, ?_, timeouts.beside, ?_⟩
  · intro other copy found
    replace found : (run.copies.set number after)[other]? = some copy := found
    rw [getElem?_set] at found
    split at found
    · next same =>
      split at found
      · cases found
        subst same
        exact changed.beside
      · cases found
    · next differs => exact (others other copy (Ne.symm differs) found).beside
  · intro timeout member
    show timeout.copy < (run.copies.set number after).length
    rw [length_set]
    exact within timeout member

theorem setCopy_kept (kept : Kept maxRebroadcastAttempts run) (changed : CopyKept maxRebroadcastAttempts run number after) :
    Kept maxRebroadcastAttempts (setCopy number after run) :=
  setCopy_kept_of kept.row (fun other copy _ found => kept.copies other copy found) kept.timeouts kept.within changed

theorem CopyKept.changed {req had phase} (kept : CopyKept maxRebroadcastAttempts run number copy)
    (marked : had = true → Marked req) (told : wasBroadcast req = true → had = true) (grows : copy.had = true → had = true)
    (count : req.rebroadcastAttempts = copy.req.rebroadcastAttempts) (waits : Waits phase → Waits copy.phase) (stores : ¬ Stores phase) :
    CopyKept maxRebroadcastAttempts run number { copy with req, phase, had } := by
  refine ⟨marked, told, kept.past, ?_, ?_, fun waiting => kept.untimed (waits waiting), fun storing => absurd storing stores⟩
  · intro current
    obtain ⟨same, cycles⟩ := kept.current current
    exact ⟨fun was => grows (same was), count.trans cycles⟩
  · intro limited
    exact count.trans_le (kept.bound limited)

theorem CopyKept.keeps {req phase} (kept : CopyKept maxRebroadcastAttempts run number copy)
    (keeps : Keeps copy.req req) (waits : Waits phase → Waits copy.phase) (stores : ¬ Stores phase) :
    CopyKept maxRebroadcastAttempts run number { copy with req, phase } := by
  refine kept.changed (fun had => keeps.marked (kept.marked had)) (fun told => ?_) id keeps.rebroadcastAttempts waits stores
  rw [keeps.wasBroadcast] at told
  exact kept.had told

theorem written_kept {had cycles} (kept : Kept maxRebroadcastAttempts run)
    (row : RowKept maxRebroadcastAttempts { run with stored, version := run.version + 1, had, cycles }) :
    Kept maxRebroadcastAttempts { run with stored, version := run.version + 1, had, cycles } := by
  refine ⟨row, ?_, kept.timeouts.beside, kept.within⟩
  intro other copy found
  have before := kept.copies other copy found
  have past : copy.read ≠ run.version + 1 := by
    have := before.past
    omega
  exact ⟨before.marked, before.had, Nat.le_succ_of_le before.past, fun current => absurd current past, before.bound, before.untimed,
    fun _ current => absurd current past⟩

theorem fresh_kept (phase) (kept : Kept maxRebroadcastAttempts run) (untimed : Waits phase → number ∉ run.timeouts.map (·.copy)) :
    CopyKept maxRebroadcastAttempts run number { req := ofApi run.stored, read := run.version, phase, had := run.had } where
  marked := kept.row.marked
  had := kept.row.had
  past := Nat.le_refl _
  current _ := ⟨id, kept.row.cycles⟩
  bound limited := kept.row.cycles.trans_le (kept.row.bound limited)
  untimed := untimed
  stores _ _ := ⟨rfl, id⟩

theorem take_kept (phase) (kept : Kept maxRebroadcastAttempts run) : Kept maxRebroadcastAttempts (run.take phase) := by
  refine ⟨kept.row.beside, ?_, kept.timeouts.beside, ?_⟩
  · intro other copy found
    replace found : (run.copies ++ [_])[other]? = some copy := found
    rw [getElem?_append] at found
    split at found
    · exact (kept.copies other copy found).beside
    · next late =>
      rw [getElem?_singleton] at found
      split at found
      swap
      · cases found
      cases found
      apply CopyKept.beside
      apply fresh_kept phase kept
      intro _ member
      obtain ⟨timeout, listed, same⟩ := mem_map.mp member
      have := kept.within timeout listed
      omega
  · intro timeout member
    have within := kept.within timeout member
    show timeout.copy < (run.copies ++ [_]).length
    rw [length_append]
    omega

/-- A row is written from a copy of the row as it is. -/
theorem store_kept (kept : Kept maxRebroadcastAttempts run) (found : run.copies[number]? = some copy)
    (current : copy.read = run.version) (quiet : ¬ Waits phase ∧ ¬ Stores phase)
    (marked : copy.had = true → Marked stored) (told : wasBroadcast stored = true → copy.had = true)
    (count : stored.rebroadcastAttempts = copy.req.rebroadcastAttempts) :
    Kept maxRebroadcastAttempts (store number copy phase stored run) := by
  have before := kept.copies number copy found
  obtain ⟨same, cycles⟩ := before.current current
  have grown : (run.had || copy.had) = true → copy.had = true := by
    intro had
    rcases Bool.or_eq_true_iff.mp had with row | mine
    · exact same row
    · exact mine
  have row : RowKept maxRebroadcastAttempts { run with
      stored, version := run.version + 1, had := run.had || copy.had, cycles := run.cycles + copy.resets } := by
    refine ⟨fun had => marked (grown had), fun was => ?_, count.trans cycles, fun limited => ?_⟩
    · show (run.had || copy.had) = true
      rw [told was, Bool.or_true]
    · rw [← cycles]
      exact before.bound limited
  apply setCopy_kept (written_kept kept row)
  exact ⟨before.marked, before.had, Nat.le_refl _, fun _ => ⟨grown, cycles⟩, before.bound, fun waits => absurd waits quiet.1,
    fun storing => absurd storing quiet.2⟩

theorem timeOut_kept (kept : Kept maxRebroadcastAttempts run) (found : run.copies[number]? = some copy)
    (current : copy.read = run.version) (waits : Waits copy.phase) (quiet : ¬ Waits phase ∧ ¬ Stores phase) (keeps : Keeps copy.req noted) :
    Kept maxRebroadcastAttempts (timeOut number copy phase (applyProofTimeout now maxRebroadcastAttempts noted) run) := by
  have before := kept.copies number copy found
  obtain ⟨same, cycles⟩ := before.current current
  obtain ⟨marks, unmarks⟩ := @applyProofTimeout_marks noted now maxRebroadcastAttempts
  have count := keeps.rebroadcastAttempts.trans cycles
  have within := (List.getElem?_eq_some_iff.mp found).1
  have grown : (run.had || copy.had) = copy.had := by
    cases had : run.had
    · rfl
    · rw [same had]
      rfl
  have was : wasBroadcast noted = copy.had := by
    rw [keeps.wasBroadcast, Bool.eq_iff_iff]
    exact ⟨before.had, fun had => (before.marked had).wasBroadcast⟩
  -- What the timeout did, with the number of resets that it saw.
  have did := applyProofTimeout_cases now maxRebroadcastAttempts noted
  generalize applyProofTimeout now maxRebroadcastAttempts noted = req at did marks unmarks
  rw [was, count] at did
  have entry : TimeoutKept maxRebroadcastAttempts
      { copy := number, had := run.had || copy.had, cycles := run.cycles + copy.resets, status := req.status } := by
    have bound := before.bound
    rw [cycles] at bound
    rw [grown]
    rcases did with ⟨why, invalid, _⟩ | ⟨had, _, unsent, _⟩
    · refine ⟨fun had unlimited => ?_, fun had limited _ => ?_, fun _ => ?_⟩
      · rcases why with never | ⟨limited, _⟩
        · exact absurd (had.symm.trans never) (by decide)
        · omega
      · rcases why with never | ⟨_, reached⟩
        · exact absurd (had.symm.trans never) (by decide)
        · exact Nat.le_antisymm (bound limited) reached
      · show req.status ≠ .unsent
        rw [invalid]
        decide
    · refine ⟨fun _ _ => ?_, fun _ _ invalid => ?_, fun never => absurd (never.symm.trans had) (by decide)⟩
      · show req.status ≠ .invalid
        rw [unsent]
        decide
      · exact absurd (unsent.symm.trans invalid) (by decide)
  apply setCopy_kept_of
  · exact kept.row.beside
  · intro other copy differs there
    have beside := kept.copies other copy there
    refine ⟨beside.marked, beside.had, beside.past, beside.current, beside.bound, fun waiting member => ?_, beside.stores⟩
    rw [List.map_append, List.mem_append, List.map_singleton, List.mem_singleton] at member
    rcases member with old | new
    · exact beside.untimed waiting old
    · exact differs new
  · constructor
    · intro timeout member
      rcases List.mem_append.mp member with old | new
      · exact kept.timeouts.each timeout old
      · rw [List.mem_singleton.mp new]
        exact entry
    · rw [List.map_append, List.map_singleton, List.nodup_append_comm]
      exact List.nodup_cons.mpr ⟨before.untimed waits, kept.timeouts.once⟩
  · intro timeout member
    rcases List.mem_append.mp member with old | new
    · exact kept.within timeout old
    · rw [List.mem_singleton.mp new]
      exact within
  · refine ⟨fun had => marks (keeps.marked (before.marked had)), fun told => ?_, before.past, fun _ => ⟨same, ?_⟩, fun limited => ?_,
      fun waiting => absurd waiting quiet.1, fun storing => absurd storing quiet.2⟩
    · exact was.symm.trans (unmarks told)
    · show req.rebroadcastAttempts = run.cycles + (copy.resets + if req.status = .unsent then 1 else 0)
      rcases did with ⟨_, invalid, left⟩ | ⟨_, _, unsent, reset⟩
      · rw [left, invalid, if_neg (by decide), Nat.add_zero]
      · rw [reset, unsent, if_pos rfl, Nat.add_assoc]
    · have bound := before.bound limited
      rw [cycles] at bound
      show req.rebroadcastAttempts ≤ maxRebroadcastAttempts
      rcases did with ⟨_, _, left⟩ | ⟨_, short, _, reset⟩
      · rw [left]
        exact bound
      · have := short limited
        rw [reset]
        omega

theorem takenOver_kept {r provenTxId version had} (kept : Kept maxRebroadcastAttempts run)
    (found : run.copies[number]? = some copy) (current : copy.read = run.version) (stores : Stores copy.phase)
    (within : run.stored.history ⊆ r.history) (shape : hadStatus r = true ∨ r = ofApi run.stored)
    (grown : had = true → run.had = true ∨ hadStatus r = true) :
    CopyKept maxRebroadcastAttempts { run with stored, version, had } number
      { copy with req := takenOver now r copy.req provenTxId, read := version, phase := .settling, had := copy.had || hadStatus r } := by
  have before := kept.copies number copy found
  obtain ⟨same, cycles⟩ := before.current current
  obtain ⟨flag, told⟩ := before.stores stores current
  have count : (takenOver now r copy.req provenTxId).rebroadcastAttempts = copy.req.rebroadcastAttempts := setStatus_rebroadcastAttempts ..
  constructor
  · intro broadcast
    rcases Bool.or_eq_true_iff.mp broadcast with mine | status
    · rcases kept.row.marked (told mine) with flagged | recorded
      · left
        show (copy.req.wasBroadcast || _) = true
        rw [flag, flagged, Bool.true_or]
      · exact .inr (recorded_within within recorded)
    · left
      show (copy.req.wasBroadcast || wasBroadcastStatuses.contains r.status) = true
      rw [show wasBroadcastStatuses.contains r.status = true from status, Bool.or_true]
  · intro was
    apply Bool.or_eq_true_iff.mpr
    rcases wasBroadcast_iff.mp was with flagged | status | recorded
    · rcases Bool.or_eq_true_iff.mp flagged with mine | status
      · exact .inl (before.had (wasBroadcast_iff.mpr (.inl mine)))
      · exact .inr status
    · exact .inr status
    · rcases shape with status | is
      · exact .inr status
      · left
        apply same
        apply kept.row.had
        rw [is] at recorded
        exact wasBroadcast_iff.mpr (.inr (.inr recorded))
  · exact Nat.le_refl _
  · intro _
    refine ⟨fun broadcast => ?_, count.trans cycles⟩
    show (copy.had || hadStatus r) = true
    rcases grown broadcast with old | status
    · rw [same old, Bool.true_or]
    · rw [status, Bool.or_true]
  · exact fun limited => count.trans_le (before.bound limited)
  · exact fun waits => waits.elim
  · exact fun storing => storing.elim

theorem storeProof_kept (kept : Kept maxRebroadcastAttempts run)
    (found : run.copies[number]? = some copy) (current : copy.read = run.version) (stores : Stores copy.phase) :
    Kept maxRebroadcastAttempts (storeProof now number copy provenTxId isNew notes run) := by
  by_cases completes : run.stored.provenTxId = none ∧ isNew = true
  · obtain ⟨r, is⟩ : ∃ r, r = addHistoryNotes now notes (EntityProvenTxReq.setStatus now .completed { ofApi run.stored with provenTxId := some provenTxId }) := ⟨_, rfl⟩
    have shape : storeProof now number copy provenTxId isNew notes run =
        takeOver now number copy r provenTxId
          { run with stored := (dynamics r).spread run.stored, version := run.version + 1, had := run.had || hadStatus r } := by
      rw [is]
      exact if_pos completes
    obtain ⟨history, same⟩ : ∃ history, r = { EntityProvenTxReq.setStatus now .completed { ofApi run.stored with provenTxId := some provenTxId } with history } :=
      is ▸ foldl_addHistoryNote_eq ..
    have status : hadStatus r = true := by
      rw [same]
      show wasBroadcastStatuses.contains .completed = true
      decide
    have count : r.rebroadcastAttempts = run.stored.rebroadcastAttempts := by
      rw [same]
      exact setStatus_rebroadcastAttempts ..
    have within : run.stored.history ⊆ r.history := by
      rw [is]
      intro note member
      apply (addHistoryNotes_spec now notes _).1.history
      exact (setStatus_within now .completed _).history member
    have row : RowKept maxRebroadcastAttempts
        { run with stored := (dynamics r).spread run.stored, version := run.version + 1, had := run.had || hadStatus r } := by
      refine ⟨fun _ => .inl ?_, fun _ => ?_, count.trans kept.row.cycles, kept.row.bound⟩
      · exact wasBroadcast_iff.mpr (.inr (.inl status))
      · show (run.had || hadStatus r) = true
        rw [status, Bool.or_true]
    rw [shape]
    apply setCopy_kept (written_kept kept row)
    exact takenOver_kept kept found current stores within (.inl status) fun broadcast => Bool.or_eq_true_iff.mp broadcast
  · have shape : storeProof now number copy provenTxId isNew notes run = takeOver now number copy (ofApi run.stored) provenTxId run := if_neg completes
    rw [shape]
    apply setCopy_kept kept
    exact takenOver_kept kept found current stores (List.Subset.refl _) (.inr rfl) .inl

theorem fromReq_cases (kinds : ∀ note ∈ result.notes, note.what ≠ "status")
    (ran : fromReq sdk options req result countsAsAttempt = .ok (proven, tried)) :
    (givesUp options req result = false ∨ proven.isSome = true) ∧ Keeps req tried ∨
      givesUp options req result = true ∧ proven = none ∧
        ∃ noted, Keeps req noted ∧ tried = applyProofTimeout options.now options.maxRebroadcastAttempts noted := by
  have noted := @noteResult_keeps req options result.notes kinds
  have provenError (error : WalletError) {req after : TableProvenTxReq} (keeps : Keeps req after) : Keeps req (noteProvenError options error after) :=
    keeps.trans (addHistoryNote_keeps (by show "getMerklePathProvenError" ≠ "status"; decide +kernel))
  unfold fromReq at ran
  split at ran
  · cases ran
  cases path : result.merklePath with
  | none =>
    rw [path] at ran
    dsimp only at ran
    split at ran
    · next nothing =>
      cases ran
      refine .inl ⟨.inl ?_, noted⟩
      unfold givesUp
      rw [decide_eq_true nothing, Bool.not_true, Bool.and_false, Bool.false_and]
    · next something =>
      cases ran
      obtain ⟨history, same⟩ : ∃ history, noteResult options result.notes req = { req with history } := foldl_addHistoryNote_eq ..
      have attempts : (noteResult options result.notes req).attempts = req.attempts := by rw [same]
      unfold giveUp givesUp
      rw [path, decide_eq_false something, attempts]
      by_cases old : getProofAttemptsLimit < req.attempts ∧
          getProofMinutes < options.ageInMinutes (noteResult options result.notes req)
      · refine .inr ⟨by rw [decide_eq_true old]; rfl, rfl, _, ?_, if_pos old⟩
        exact noted.trans (addHistoryNote_keeps (by show "getMerklePathGiveUp" ≠ "status"; decide +kernel))
      · refine .inl ⟨.inl (by rw [decide_eq_false old, Bool.and_false]), ?_⟩
        dsimp only
        rw [if_neg old]
        exact noted
  | some path' =>
    have kept : givesUp options req result = false := by
      unfold givesUp
      rw [path]
      rfl
    rw [path] at ran
    dsimp only at ran
    refine .inl ⟨.inl kept, ?_⟩
    have counted : Keeps req (countAttempt countsAsAttempt (noteResult options result.notes req)) := by
      unfold countAttempt
      split
      · exact noted.trans ⟨rfl, rfl, rfl, rfl⟩
      · exact noted
    replace ran := congrArg Prod.snd (Except.ok.inj ran)
    show Keeps req (proven, tried).2
    rw [← ran]
    unfold fromPath
    split
    · exact provenError _ counted
    · exact provenError _ (counted.trans (addHistoryNote_keeps (by show "getMerklePathTxidNotFound" ≠ "status"; decide +kernel)))
    · exact provenError _ counted
    · exact counted

theorem answer_kept {options : ProofOptions} (kept : Kept maxRebroadcastAttempts run)
    (found : run.copies[number]? = some copy) (asking : copy.phase = .asking) (kinds : ∀ note ∈ result.notes, note.what ≠ "status")
    (current : givesUp { options with now, maxRebroadcastAttempts } copy.req result = true → copy.read = run.version) :
    Kept maxRebroadcastAttempts (answer sdk { options with now, maxRebroadcastAttempts } result number copy run) := by
  have before := kept.copies number copy found
  unfold answer
  split
  · exact setCopy_kept kept (before.keeps (.refl _) (fun waits => waits.elim) id)
  split
  · exact setCopy_kept kept (before.keeps (.refl _) (fun waits => waits.elim) id)
  · next proven req ran =>
    rcases fromReq_cases kinds ran with ⟨_, keeps⟩ | ⟨_, none, _⟩
    · exact setCopy_kept kept (before.keeps keeps (fun waits => waits.elim) id)
    · cases none
  · next req ran =>
    rcases fromReq_cases kinds ran with ⟨not | proven, keeps⟩ | ⟨gives, _, noted, keeps, is⟩
    · rw [not]
      apply setCopy_kept kept
      refine before.keeps ?_ (fun waits => waits.elim) id
      split
      · exact keeps.trans ⟨rfl, rfl, rfl, rfl⟩
      · exact keeps
    · cases proven
    · -- A timeout leaves no status that counts as an attempt.
      have settled : ¬ (options.countsAsAttempt = true ∧ req.status ∈ attemptStatuses) := by
        rintro ⟨_, member⟩
        rw [is] at member
        rcases applyProofTimeout_cases now maxRebroadcastAttempts noted with ⟨_, invalid, _⟩ | ⟨_, _, unsent, _⟩
        · rw [invalid] at member
          revert member
          decide
        · rw [unsent] at member
          revert member
          decide
      dsimp only
      rw [if_pos gives, if_neg settled, is]
      exact timeOut_kept kept found (current gives) (by rw [asking]; trivial) ⟨id, id⟩ keeps

theorem checkReq_cases (is : checkReq sdk options req = check) :
    check = .notReady ∨ (∃ status before, Keeps req before ∧ check = .finish (EntityProvenTxReq.setStatus options.now status before)) ∨
      (options.unprovenAttemptsLimit < req.attempts ∧
        ∃ before, Keeps req before ∧ check = .timeout (applyProofTimeout options.now options.maxRebroadcastAttempts before)) ∨
      ∃ after, Keeps req after ∧ check = .ask after := by
  have parsed : Keeps req (ofApi req) := ⟨rfl, rfl, rfl, rfl⟩
  unfold checkReq at is
  dsimp only at is
  split at is
  · exact .inl is.symm
  split at is
  · exact .inr (.inl ⟨.completed, { ofApi req with notified := false }, ⟨rfl, rfl, rfl, rfl⟩, is.symm⟩)
  split at is
  · exact .inr (.inl ⟨.invalid, { ofApi req with notified := false }, ⟨rfl, rfl, rfl, rfl⟩, is.symm⟩)
  split at is
  · next many => exact .inr (.inr (.inl ⟨many.2, _, parsed, is.symm⟩))
  · exact .inr (.inr (.inr ⟨_, parsed, is.symm⟩))

def Current (number : Nat) (run : ReqRun) : Prop := ∀ copy, run.copies[number]? = some copy → copy.read = run.version

/-- A row is written only from a copy of the row as it is, a timeout is not applied to a copy
of an earlier one, and the status notes are left to the changes of the status. -/
def Undisturbed (run : ReqRun) : ReqEvent → Prop
  | .write number | .writeWhole number | .proofStored number .. => Current number run
  | .check number options => ∀ copy, run.copies[number]? = some copy → options.unprovenAttemptsLimit < copy.req.attempts → copy.read = run.version
  | .answered number _ result => (∀ note ∈ result.notes, note.what ≠ "status") ∧
      ∀ copy, run.copies[number]? = some copy → result.merklePath = none → getProofAttemptsLimit < copy.req.attempts → copy.read = run.version
  | .addHistoryNote _ note noDupes => noDupes = true → note.what ≠ "status"
  | _ => True

theorem CopyKept.setStatus (status : ProvenTxReqStatus)
    (kept : CopyKept maxRebroadcastAttempts run number copy) (keeps : Keeps copy.req req) (waits : Waits phase → Waits copy.phase) (stores : ¬ Stores phase) :
    CopyKept maxRebroadcastAttempts run number { copy with
      req := EntityProvenTxReq.setStatus now status req, phase, had := copy.had || hadStatus (EntityProvenTxReq.setStatus now status req) } := by
  refine kept.changed (fun had => ?_) (fun told => ?_) (fun had => by rw [had]; rfl) ?_ waits stores
  · apply setStatus_marked
    rcases Bool.or_eq_true_iff.mp had with old | new
    · exact .inl (keeps.marked (kept.marked old))
    · exact .inr new
  · apply Bool.or_eq_true_iff.mpr
    rcases setStatus_wasBroadcast told with old | new
    · rw [keeps.wasBroadcast] at old
      exact .inl (kept.had old)
    · exact .inr new
  · exact (setStatus_rebroadcastAttempts ..).trans keeps.rebroadcastAttempts

theorem CopyKept.noted (kept : CopyKept maxRebroadcastAttempts run number copy)
    (recorded' : recorded copy.req = true → recorded { copy.req with history } = true)
    (waits : Waits phase → Waits copy.phase) (stores : ¬ Stores phase) :
    CopyKept maxRebroadcastAttempts run number { copy with
      req := { copy.req with history }, phase, had := copy.had || recorded { copy.req with history } } := by
  refine kept.changed (fun had => ?_) (fun told => ?_) (fun had => by rw [had]; rfl) rfl waits stores
  · rcases Bool.or_eq_true_iff.mp had with old | new
    · rcases kept.marked old with flag | told
      · exact .inl flag
      · exact .inr (recorded' told)
    · exact .inr new
  · apply Bool.or_eq_true_iff.mpr
    rcases wasBroadcast_iff.mp told with flag | status | told
    · exact .inl (kept.had (wasBroadcast_iff.mpr (.inl flag)))
    · exact .inl (kept.had (wasBroadcast_iff.mpr (.inr (.inl status))))
    · exact .inr told

theorem dynamics_kept (kept : CopyKept maxRebroadcastAttempts run number copy) (existing) :
    (copy.had = true → Marked ((dynamics copy.req).spread existing)) ∧
      (wasBroadcast ((dynamics copy.req).spread existing) = true → copy.had = true) := by
  constructor
  · intro had
    exact .inl (kept.marked had).wasBroadcast
  · intro told
    rcases wasBroadcast_iff.mp told with flag | status | recorded
    · exact kept.had flag
    · exact kept.had (wasBroadcast_iff.mpr (.inr (.inl status)))
    · exact kept.had (wasBroadcast_iff.mpr (.inr (.inr recorded)))

/-- An event about a copy. -/
theorem actOn_kept {next} (kept : Kept maxRebroadcastAttempts run) (about : copyOf event = some number)
    (found : run.copies[number]? = some copy) (calm : Undisturbed run event)
    (acts : actOn sdk now maxRebroadcastAttempts number copy run event = some next) : Kept maxRebroadcastAttempts next := by
  have before := kept.copies number copy found
  cases event with
  | load | list | storeUnsent | storeBatch | storeUnfail => cases about
  | refresh _ =>
    unfold actOn at acts
    dsimp only at acts
    split at acts <;> cases acts <;> exact setCopy_kept kept (fresh_kept _ kept fun waits => waits.elim)
  | write _ =>
    cases about
    obtain ⟨marked, told⟩ := dynamics_kept before run.stored
    unfold actOn at acts
    dsimp only at acts
    split at acts <;> cases acts <;> exact store_kept kept found (calm copy found) ⟨id, id⟩ marked told rfl
  | writeWhole _ =>
    cases about
    unfold actOn at acts
    dsimp only at acts
    split at acts
    · cases acts
      exact store_kept kept found (calm copy found) ⟨id, id⟩ before.marked before.had rfl
    · cases acts
  | setStatus _ status =>
    unfold actOn at acts
    dsimp only at acts
    split at acts
    · next free =>
      cases acts
      apply setCopy_kept kept
      exact before.setStatus status (.refl _) id (by rw [free]; exact id)
    · cases acts
  | addHistoryNote _ note noDupes =>
    unfold actOn at acts
    dsimp only at acts
    split at acts
    · next free =>
      cases acts
      apply setCopy_kept kept
      obtain ⟨history, same⟩ := addHistoryNote_eq now note noDupes copy.req
      have kinds : recorded copy.req = true → recorded (EntityProvenTxReq.addHistoryNote now note noDupes copy.req) = true := by
        cases noDupes with
        | false => exact recorded_within (addHistoryNote_within now note copy.req).history
        | true =>
          intro told
          rw [(addHistoryNote_keeps (calm rfl)).history]
          exact told
      rw [same] at kinds ⊢
      exact before.noted kinds id (by rw [free]; exact id)
    · cases acts
  | mergeHistory _ ei =>
    unfold actOn at acts
    dsimp only at acts
    split at acts
    · next free =>
      cases acts
      apply setCopy_kept kept
      obtain ⟨history, same⟩ : ∃ history, EntityProvenTxReq.mergeHistory now ei copy.req = { copy.req with history } := foldl_addHistoryNote_eq ..
      have kinds : recorded copy.req = true → recorded (EntityProvenTxReq.mergeHistory now ei copy.req) = true :=
        recorded_within (mergeHistory_spec now ei copy.req).1.history
      rw [same] at kinds ⊢
      exact before.noted kinds id (by rw [free]; exact id)
    · cases acts
  | assign _ provenTxId attempts notified batch notify =>
    unfold actOn at acts
    dsimp only at acts
    split at acts
    · next free =>
      cases acts
      apply setCopy_kept kept
      exact before.keeps ⟨rfl, rfl, rfl, rfl⟩ id (by rw [free]; exact id)
    · cases acts
  | check _ options =>
    cases about
    unfold actOn at acts
    dsimp only at acts
    split at acts
    · next listed =>
      have waits : Waits copy.phase := by
        rw [listed]
        trivial
      cases is : checkReq sdk { options with now, maxRebroadcastAttempts } copy.req with
      | notReady =>
        rw [is] at acts
        cases acts
        exact setCopy_kept kept (before.keeps (.refl _) (fun waits => waits.elim) id)
      | finish req =>
        rw [is] at acts
        cases acts
        rcases checkReq_cases is with none | ⟨status, noted, keeps, same⟩ | ⟨_, _, _, same⟩ | ⟨_, _, same⟩
        · cases none
        · cases same
          exact setCopy_kept kept (before.setStatus status keeps (fun waits => waits.elim) id)
        · cases same
        · cases same
      | timeout req =>
        rw [is] at acts
        cases acts
        rcases checkReq_cases is with none | ⟨_, _, _, same⟩ | ⟨many, noted, keeps, same⟩ | ⟨_, _, same⟩
        · cases none
        · cases same
        · cases same
          exact timeOut_kept kept found (calm copy found many) waits ⟨id, id⟩ keeps
        · cases same
      | ask req =>
        rw [is] at acts
        cases acts
        rcases checkReq_cases is with none | ⟨_, _, _, same⟩ | ⟨_, _, _, same⟩ | ⟨_, keeps, same⟩
        · cases none
        · cases same
        · cases same
        · cases same
          exact setCopy_kept kept (before.keeps keeps (fun _ => waits) id)
    · cases acts
  | answered _ options result =>
    cases about
    unfold actOn at acts
    dsimp only at acts
    split at acts
    · next asking =>
      cases acts
      obtain ⟨kinds, current⟩ := calm
      refine answer_kept kept found asking kinds fun gives => ?_
      unfold givesUp at gives
      rw [Bool.and_eq_true, Bool.and_eq_true, decide_eq_true_eq] at gives
      exact current copy found (Option.isNone_iff_eq_none.mp gives.1.1) gives.2.1
    · cases acts
  | proofStored _ provenTxId isNew notes =>
    cases about
    unfold actOn at acts
    dsimp only at acts
    split at acts
    · next storing =>
      cases acts
      exact storeProof_kept kept found (calm copy found) (by rw [storing]; trivial)
    · cases acts

theorem storePart_kept (kept : Kept maxRebroadcastAttempts run)
    (columns : Marked run.stored → Marked (update.spread run.stored))
    (told : wasBroadcast (update.spread run.stored) = true → wasBroadcast run.stored = true)
    (count : (update.spread run.stored).rebroadcastAttempts = run.stored.rebroadcastAttempts) :
    Kept maxRebroadcastAttempts (storePart update run) :=
  written_kept kept ⟨fun had => columns (kept.row.marked had), fun was => kept.row.had (told was), count.trans kept.row.cycles, kept.row.bound⟩

theorem wasBroadcast_of_status (quiet : wasBroadcastStatuses.contains status = false) (was : wasBroadcast { req with status, batch } = true) : wasBroadcast req = true := by
  rcases wasBroadcast_iff.mp was with flag | here | recorded
  · exact wasBroadcast_iff.mpr (.inl flag)
  · exact absurd (quiet.symm.trans here) (by decide)
  · exact wasBroadcast_iff.mpr (.inr (.inr recorded))

theorem step_of_copy (about : copyOf event = some number) :
    step sdk now maxRebroadcastAttempts run event =
      match run.copies[number]? with
      | some copy => actOn sdk now maxRebroadcastAttempts number copy run event
      | none => none := by
  cases event <;> cases about <;> rfl

theorem step_kept {next} (kept : Kept maxRebroadcastAttempts run) (calm : Undisturbed run event)
    (stepped : step sdk now maxRebroadcastAttempts run event = some next) : Kept maxRebroadcastAttempts next := by
  cases about : copyOf event with
  | some number =>
    rw [step_of_copy about] at stepped
    cases found : run.copies[number]? with
    | none =>
      rw [found] at stepped
      cases stepped
    | some copy =>
      rw [found] at stepped
      exact actOn_kept kept about found calm stepped
  | none =>
    cases event with
    | load => exact Option.some.inj stepped ▸ take_kept .free kept
    | list => exact Option.some.inj stepped ▸ take_kept .listed kept
    | storeUnsent | storeUnfail =>
      exact Option.some.inj stepped ▸ storePart_kept kept id (fun was => wasBroadcast_of_status rfl was) rfl
    | storeBatch batch =>
      cases stepped
      refine ⟨⟨kept.row.marked, kept.row.had, kept.row.cycles, kept.row.bound⟩, fun number copy found => ?_, kept.timeouts.beside, kept.within⟩
      have before := kept.copies number copy found
      exact ⟨before.marked, before.had, before.past, before.current, before.bound, before.untimed, before.stores⟩
    | refresh | setStatus | addHistoryNote | mergeHistory | assign | write | writeWhole | check | answered | proofStored => cases about

theorem start_kept (marked : hadStatus stored = true → Marked stored)
    (bound : 0 < maxRebroadcastAttempts → stored.rebroadcastAttempts ≤ maxRebroadcastAttempts) :
    Kept maxRebroadcastAttempts (start stored) := by
  have had : (start stored).had = true ↔ wasBroadcast stored = true := by
    rw [wasBroadcast_iff, ← Bool.or_eq_true_iff, ← Bool.or_eq_true_iff, ← Bool.or_assoc]
    exact Iff.rfl
  refine ⟨⟨fun was => ?_, had.mpr, rfl, bound⟩, ?_, ⟨?_, nodup_nil⟩, ?_⟩
  · rcases wasBroadcast_iff.mp (had.mp was) with flag | status | recorded
    · exact .inl flag
    · exact marked status
    · exact .inr recorded
  · intro number copy found
    cases found
  · intro timeout member
    cases member
  · intro timeout member
    cases member

/-- Where the timeouts and the writes are those of copies that nothing has overtaken, a request
that was broadcast is invalid by a timeout only after all its resets. -/
theorem timeouts_kept {events : List ReqEvent} {last : ReqRun}
    (marked : hadStatus stored = true → Marked stored)
    (bound : 0 < maxRebroadcastAttempts → stored.rebroadcastAttempts ≤ maxRebroadcastAttempts)
    (calm : EveryStep (step sdk now maxRebroadcastAttempts) Undisturbed (start stored) events)
    (ran : runEvents (step sdk now maxRebroadcastAttempts) (start stored) events = some last) : TimeoutsKept maxRebroadcastAttempts last := by
  have kept := runEvents_keeps (fun _ _ _ kept calm stepped => step_kept kept calm stepped) (start_kept marked bound) calm ran
  exact kept.timeouts

end

def sendingReq : TableProvenTxReq where
  provenTxReqId := 1
  provenTxId := none
  status := .sending
  attempts := 20
  notified := false
  txid := "t"
  batch := none
  history := []
  notify := [1]
  rawTx := [1]
  inputBEEF := none
  wasBroadcast := false
  rebroadcastAttempts := 0

def sampleSteps (events : List ReqEvent) : Option ReqRun :=
  runEvents (step samplePaths sampleProofOptions.now 0) (start sendingReq) events

/-- A request is broadcast, and then its timeout resets it. -/
def resetEvents : List ReqEvent := [.load, .setStatus 0 .unmined, .write 0, .list, .check 1 sampleProofOptions, .write 1]

theorem timeouts_kept_reset : TimeoutsKept 0 ((sampleSteps resetEvents).get (by decide +kernel)) := by
  apply @timeouts_kept samplePaths sampleProofOptions.now 0 sendingReq resetEvents
  · exact fun had => absurd had (by decide +kernel)
  · exact fun _ => Nat.zero_le _
  · refine ⟨trivial, fun _ loaded => ⟨trivial, fun _ set => ⟨?_, fun _ written => ⟨trivial, fun _ listed => ⟨?_, fun _ checked => ⟨?_, fun _ _ => trivial⟩⟩⟩⟩⟩⟩
    · cases loaded
      cases set
      intro copy found
      cases found
      rfl
    · cases loaded
      cases set
      cases written
      cases listed
      intro copy found _
      cases found
      rfl
    · cases loaded
      cases set
      cases written
      cases listed
      cases checked
      intro copy found
      cases found
      rfl
  · exact (Option.some_get _).symm

/-- A request is listed before it is broadcast, and its timeout is applied to what was listed. -/
def overtakenEvents : List ReqEvent := [.list, .load, .setStatus 1 .unmined, .write 1, .check 0 sampleProofOptions, .write 0]

theorem broadcast_written_off :
    ∃ last, sampleSteps overtakenEvents = some last ∧ last.stored.status = .invalid ∧ ¬ TimeoutsKept 0 last := by
  refine ⟨(sampleSteps overtakenEvents).get (by decide +kernel), (Option.some_get _).symm, by decide +kernel, fun kept => ?_⟩
  have invalid := (kept.each ⟨0, true, 0, .invalid⟩ (by decide +kernel)).unlimited rfl rfl
  exact invalid rfl

end ReqRun
end WalletToolbox
