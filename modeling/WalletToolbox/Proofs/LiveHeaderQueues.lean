import WalletToolbox.Chaintracks.Chaintracks

/-! When the live header queue drains. A call walks from the head back to a header that
storage can place; the headers on the way go back on the queue. -/

namespace WalletToolbox.Chaintracks
open List

inductive Verdict where
  | placed
  | missing
  | refused
deriving DecidableEq, Repr

def Verdict.of {Err : Type} : Except Err InsertHeaderResult → Verdict
  | .error _ => .refused
  | .ok ihr => if invalidInsertHeaderResult ihr then .refused else if ihr.noPrev then .missing else .placed

namespace ChaintracksBase

variable {Data : Type} (tracks : ChaintracksBase Data)

def verdict (storage : Data) (header : BlockHeader) : Verdict := .of (tracks.addLiveHeader header storage).1

/-- What the queue relies on, whatever the storage engine: a header without its parent is
not placed, a placed one is stored, and only a placed one changes what storage answers. -/
structure Places (Sound : Data → Prop) (holds : Data → String → Bool) : Prop where
  keeps : ∀ {storage} header, Sound storage → Sound (tracks.addLiveHeader header storage).2
  missing : ∀ {storage header}, Sound storage → tracks.verdict storage header = .missing → holds storage header.previousHash = false
  placed : ∀ {storage header}, Sound storage → tracks.verdict storage header = .placed → holds (tracks.addLiveHeader header storage).2 header.hash = true
  grows : ∀ {storage} header {hash}, Sound storage → holds storage hash = true → holds (tracks.addLiveHeader header storage).2 hash = true
  unchanged : ∀ {storage header}, Sound storage → tracks.verdict storage header ≠ .placed →
    tracks.verdict (tracks.addLiveHeader header storage).2 = tracks.verdict storage

inductive Walk (storage : Data) : BlockHeader → List BlockHeader → BlockHeader → Prop
  | stop (header) : Walk storage header [] header
  | back {header parent path last} : tracks.verdict storage header = .missing → tracks.getMissingBlockHeader header.previousHash = some parent →
      Walk storage parent path last → Walk storage header (header :: path) last

inductive Resolves (storage : Data) : Nat → BlockHeader → Prop
  | placed {header} : tracks.verdict storage header = .placed → Resolves storage 0 header
  | back {steps header parent} : tracks.verdict storage header = .missing → tracks.getMissingBlockHeader header.previousHash = some parent →
      Resolves storage steps parent → Resolves storage (steps + 1) header

def EndsItself (storage : Data) (header : BlockHeader) : Prop :=
  tracks.verdict storage header = .refused ∨
    tracks.verdict storage header = .missing ∧ (tracks.getMissingBlockHeader header.previousHash = none ∨ tracks.addLiveRecursionLimit = 0)

def Leads (storage : Data) (header : BlockHeader) : Prop :=
  tracks.EndsItself storage header ∨
    ∃ steps, tracks.Resolves storage steps header ∧ (steps ≤ tracks.addLiveRecursionLimit ∨ 2 ≤ tracks.addLiveRecursionLimit)

def Clear (queue : LiveHeaderQueue Data) : Prop := ∀ header ∈ queue.liveHeaders.head?, tracks.Leads queue.storage header

/-- The calls empty the queue; every header in it has its turn; and one that leads back to
a header storage can place within the limit is stored in the end, unless it is refused
itself. -/
structure Drains (holds : Data → String → Bool) (queue : LiveHeaderQueue Data) : Prop where
  empties : ∃ calls, (tracks.processed queue calls).liveHeaders = []
  turns : ∀ header ∈ queue.liveHeaders, ∃ calls, (tracks.processed queue calls).liveHeaders.head? = some header
  inserted : ∀ calls header steps, (tracks.processed queue calls).liveHeaders.head? = some header →
    tracks.Resolves (tracks.processed queue calls).storage steps header → steps ≤ tracks.addLiveRecursionLimit →
    ∃ later, calls ≤ later ∧ (tracks.processed queue later).liveHeaders.head? = some header ∧
      (tracks.verdict (tracks.processed queue later).storage header = .refused ∨
        holds (tracks.processed queue (later + 1)).storage header.hash = true)

end ChaintracksBase

namespace ChaintracksBase

section
variable {Data : Type} {tracks : ChaintracksBase Data} {storage other : Data} {header parent last : BlockHeader} {path : List BlockHeader}

theorem getMissing_hash {hash} (found : tracks.getMissingBlockHeader hash = some parent) :
    parent ∈ tracks.liveIngestors.flatten ∧ parent.hash = hash := by
  obtain ⟨live, its, found⟩ := exists_of_findSome?_eq_some found
  have this := find?_some found
  exact ⟨mem_flatten.mpr ⟨live, its, mem_of_find?_eq_some found⟩, by simpa using this⟩

theorem Walk.same (walk : tracks.Walk storage header path last) (same : tracks.verdict other = tracks.verdict storage) :
    tracks.Walk other header path last := by
  induction walk with
  | stop => exact .stop _
  | back missing found _ ih => exact .back (same ▸ missing) found ih

theorem Resolves.same {steps} (resolves : tracks.Resolves storage steps header) (same : tracks.verdict other = tracks.verdict storage) :
    tracks.Resolves other steps header := by
  induction resolves with
  | placed placed => exact .placed (same ▸ placed)
  | back missing found _ ih => exact .back (same ▸ missing) found ih

theorem Walk.resolves (walk : tracks.Walk storage header path last) (resolves : tracks.Resolves storage steps last) :
    tracks.Resolves storage (steps + path.length) header := by
  induction walk with
  | stop => exact resolves
  | back missing found _ ih => exact .back missing found (ih resolves)

theorem Resolves.walked (resolves : tracks.Resolves storage steps header) (walk : tracks.Walk storage header path last) :
    ∃ left, steps = left + path.length ∧ tracks.Resolves storage left last := by
  induction walk generalizing steps with
  | stop => exact ⟨steps, rfl, resolves⟩
  | back missing found _ ih =>
    cases resolves with
    | placed placed =>
      rw [missing] at placed
      contradiction
    | back _ asked rest =>
      obtain rfl := Option.some.inj (found.symm.trans asked)
      obtain ⟨left, count, resolves⟩ := ih rest
      exact ⟨left, by rw [count, length_cons, Nat.add_assoc], resolves⟩

theorem Walk.child (walk : tracks.Walk storage header path last) (moved : path ≠ []) :
    ∃ front child, path = front ++ [child] ∧ tracks.Walk storage header front child ∧ tracks.verdict storage child = .missing ∧
      tracks.getMissingBlockHeader child.previousHash = some last := by
  induction walk with
  | stop => exact absurd rfl moved
  | @back header parent path last missing found walk ih =>
    cases path with
    | nil =>
      cases walk
      exact ⟨[], header, rfl, .stop _, missing, found⟩
    | cons next path =>
      obtain ⟨front, child, shape, walked, rest⟩ := ih (cons_ne_nil _ _)
      exact ⟨header :: front, child, by rw [shape, cons_append], .back missing found walked, rest⟩

/-- How a call ends: it has walked back to a header, and put the ones on the way back on
the queue. -/
structure Ended (tracks : ChaintracksBase Data) (Sound : Data → Prop) (holds : Data → String → Bool) (limit : Nat) (header : BlockHeader) (queue after : LiveHeaderQueue Data)
    (path : List BlockHeader) (last : BlockHeader) (before : Data) : Prop where
  walk : tracks.Walk queue.storage header path last
  short : path.length ≤ limit
  sound : Sound before
  grown : ∀ hash, holds queue.storage hash = true → holds before hash = true
  same : tracks.verdict before = tracks.verdict queue.storage
  storage : after.storage = (tracks.addLiveHeader last before).2
  liveHeaders : after.liveHeaders = path.reverse ++ queue.liveHeaders
  ends : tracks.verdict queue.storage last ≠ .missing ∨ tracks.getMissingBlockHeader last.previousHash = none ∨ path.length = limit

variable {Sound : Data → Prop} {holds : Data → String → Bool}

theorem processOneLiveHeader_stops
    (stops : tracks.verdict queue.storage header ≠ .missing ∨ tracks.getMissingBlockHeader header.previousHash = none ∨ recursions = 0) :
    (tracks.processOneLiveHeader recursions header queue).2 = { queue with storage := (tracks.addLiveHeader header queue.storage).2 } := by
  unfold processOneLiveHeader
  unfold verdict Verdict.of at stops
  cases outcome : tracks.addLiveHeader header queue.storage with
  | mk reply storage =>
    rw [outcome] at stops
    cases reply with
    | error err => rfl
    | ok ihr =>
      by_cases invalid : invalidInsertHeaderResult ihr = true
      · simp [invalid]
      · by_cases noPrev : ihr.noPrev = true
        · cases recursions with
          | zero => simp [invalid, noPrev]
          | succ recursions =>
            have unknown : tracks.getMissingBlockHeader header.previousHash = none := by simpa [invalid, noPrev] using stops
            simp [invalid, noPrev, unknown]
        · simp [invalid, noPrev]

theorem processOneLiveHeader_back (missing : tracks.verdict queue.storage header = .missing)
    (found : tracks.getMissingBlockHeader header.previousHash = some parent) :
    tracks.processOneLiveHeader (recursions + 1) header queue =
      tracks.processOneLiveHeader recursions parent ⟨(tracks.addLiveHeader header queue.storage).2, header :: queue.liveHeaders⟩ := by
  rw [processOneLiveHeader]
  unfold verdict Verdict.of at missing
  cases outcome : tracks.addLiveHeader header queue.storage with
  | mk reply storage =>
    rw [outcome] at missing
    cases reply with
    | error err => contradiction
    | ok ihr =>
      by_cases invalid : invalidInsertHeaderResult ihr = true
      · simp [invalid] at missing
      · by_cases noPrev : ihr.noPrev = true
        · simp [invalid, noPrev, found]
        · simp [invalid, noPrev] at missing

theorem processOneLiveHeader_ended (places : tracks.Places Sound holds) (limit : Nat) :
    ∀ (header : BlockHeader) (queue : LiveHeaderQueue Data), Sound queue.storage →
      ∃ path last before, Ended tracks Sound holds limit header queue (tracks.processOneLiveHeader limit header queue).2 path last before := by
  have stopped : ∀ limit header (queue : LiveHeaderQueue Data), Sound queue.storage →
      (tracks.verdict queue.storage header ≠ .missing ∨ tracks.getMissingBlockHeader header.previousHash = none ∨ limit = 0) →
      ∃ path last before, Ended tracks Sound holds limit header queue (tracks.processOneLiveHeader limit header queue).2 path last before := by
    intro limit header queue sound stops
    rw [processOneLiveHeader_stops stops]
    exact ⟨[], header, queue.storage, .stop _, Nat.zero_le _, sound, fun _ held => held, rfl, rfl, rfl,
      stops.imp_right fun rest => rest.imp_right Eq.symm⟩
  induction limit with
  | zero => exact fun header queue sound => stopped 0 header queue sound (.inr (.inr rfl))
  | succ limit ih =>
    intro header queue sound
    by_cases missing : tracks.verdict queue.storage header = .missing
    · cases found : tracks.getMissingBlockHeader header.previousHash with
      | none => exact stopped (limit + 1) header queue sound (.inr (.inl found))
      | some parent =>
        rw [processOneLiveHeader_back missing found]
        have same := places.unchanged sound (by simp [missing] : tracks.verdict queue.storage header ≠ .placed)
        obtain ⟨path, last, before, ended⟩ := ih parent ⟨(tracks.addLiveHeader header queue.storage).2, header :: queue.liveHeaders⟩ (places.keeps header sound)
        refine ⟨header :: path, last, before, .back missing found (ended.walk.same same.symm), Nat.succ_le_succ ended.short, ended.sound, ?_, ?_, ended.storage, ?_, ?_⟩
        · intro hash held
          exact ended.grown hash (places.grows header sound held)
        · rw [ended.same]
          exact same
        · rw [ended.liveHeaders, reverse_cons, append_assoc, singleton_append]
        · have ends := ended.ends
          simp only [same] at ends
          exact ends.imp_right fun rest => rest.imp_right fun count => by rw [length_cons, count]
    · exact stopped (limit + 1) header queue sound (.inl missing)

def unheld (tracks : ChaintracksBase Data) (holds : Data → String → Bool) (storage : Data) : Nat :=
  tracks.liveIngestors.flatten.countP fun header => !holds storage header.hash

theorem unheld_le (grown : ∀ hash, holds storage hash = true → holds other hash = true) : tracks.unheld holds other ≤ tracks.unheld holds storage := by
  apply countP_mono_left
  intro header _ lacks
  by_contra held
  rw [grown header.hash (by simpa using held)] at lacks
  contradiction

theorem unheld_lt (grown : ∀ hash, holds storage hash = true → holds other hash = true) (known : parent ∈ tracks.liveIngestors.flatten)
    (lacked : holds storage parent.hash = false) (held : holds other parent.hash = true) : tracks.unheld holds other < tracks.unheld holds storage := by
  obtain ⟨before, after, split⟩ := append_of_mem known
  have fewer : ∀ headers : List BlockHeader, headers.countP (fun header => !holds other header.hash) ≤ headers.countP fun header => !holds storage header.hash := by
    intro headers
    apply countP_mono_left
    intro header _ lacks
    by_contra held
    rw [grown header.hash (by simpa using held)] at lacks
    contradiction
  have first := fewer before
  have second := fewer after
  simp only [unheld, split, countP_append, countP_cons, lacked, held, Bool.not_false, Bool.not_true, ↓reduceIte, Bool.false_eq_true]
  omega

namespace Ended

variable {limit : Nat} {queue after : LiveHeaderQueue Data} {before : Data}

variable (ended : Ended tracks Sound holds limit header queue after path last before) (places : tracks.Places Sound holds)
include ended places

theorem grows (hash : String)
    (held : holds queue.storage hash = true) : holds after.storage hash = true := by
  rw [ended.storage]
  exact places.grows last ended.sound (ended.grown hash held)

theorem keeps : Sound after.storage := by
  rw [ended.storage]
  exact places.keeps last ended.sound

theorem unchanged
    (other : tracks.verdict queue.storage last ≠ .placed) : tracks.verdict after.storage = tracks.verdict queue.storage := by
  rw [ended.storage, places.unchanged ended.sound (ended.same ▸ other), ended.same]

theorem placed
    (placed : tracks.verdict queue.storage last = .placed) : holds after.storage last.hash = true := by
  rw [ended.storage]
  exact places.placed ended.sound (ended.same ▸ placed)

theorem fewer
    (placed : tracks.verdict queue.storage last = .placed) (moved : path ≠ []) : tracks.unheld holds after.storage < tracks.unheld holds queue.storage := by
  obtain ⟨front, child, _, _, missing, found⟩ := ended.walk.child moved
  obtain ⟨known, hash⟩ := getMissing_hash found
  have lacked : holds before last.hash = false := by
    rw [hash]
    exact places.missing ended.sound (ended.same ▸ missing)
  have lacked' : holds queue.storage last.hash = false := by
    by_contra held
    rw [ended.grown _ (by simpa using held)] at lacked
    contradiction
  exact unheld_lt (ended.grows places) known lacked' (ended.placed places placed)

end Ended

theorem processed_next (queue) (calls : Nat) :
    tracks.processed queue (calls + 1) = tracks.processNext (tracks.processed queue calls) :=
  Function.iterate_succ_apply' _ _ _

theorem processed_add (queue) (calls more : Nat) :
    tracks.processed (tracks.processed queue calls) more = tracks.processed queue (calls + more) := by
  unfold processed
  rw [← Function.iterate_add_apply, Nat.add_comm]

section
variable (places : tracks.Places Sound holds)
include places

theorem processNext_ended (sound : Sound queue.storage)
    (queued : queue.liveHeaders = header :: rest) :
    ∃ path last before, Ended tracks Sound holds tracks.addLiveRecursionLimit header ⟨queue.storage, rest⟩ (tracks.processNext queue) path last before := by
  unfold processNext
  rw [queued]
  exact processOneLiveHeader_ended places tracks.addLiveRecursionLimit header ⟨queue.storage, rest⟩ sound

theorem sound_next (sound : Sound queue.storage) :
    Sound (tracks.processNext queue).storage := by
  cases queued : queue.liveHeaders with
  | nil =>
    unfold processNext
    rw [queued]
    exact sound
  | cons header rest =>
    obtain ⟨path, last, before, ended⟩ := processNext_ended places sound queued
    exact ended.keeps places

theorem sound_processed (sound : Sound queue.storage) (calls : Nat) :
    Sound (tracks.processed queue calls).storage := by
  induction calls with
  | zero => exact sound
  | succ calls ih =>
    rw [processed_next]
    exact sound_next places ih

theorem not_clear_next (sound : Sound queue.storage)
    (stuck : ¬tracks.Clear queue) : ¬tracks.Clear (tracks.processNext queue) := by
  obtain ⟨header, first, stuck⟩ : ∃ header, queue.liveHeaders.head? = some header ∧ ¬tracks.Leads queue.storage header := by
    unfold Clear at stuck
    push Not at stuck
    exact stuck
  obtain ⟨rest, queued⟩ := head?_eq_some_iff.mp first
  obtain ⟨path, last, before, ended⟩ := processNext_ended places sound queued
  -- The head is missing a parent that is known, so the call goes back.
  have missing : tracks.verdict queue.storage header = .missing := by
    cases verdict : tracks.verdict queue.storage header with
    | placed => exact absurd (.inr ⟨0, .placed verdict, .inl (Nat.zero_le _)⟩) stuck
    | refused => exact absurd (.inl (.inl verdict)) stuck
    | missing => rfl
  have asks : tracks.getMissingBlockHeader header.previousHash ≠ none ∧ tracks.addLiveRecursionLimit ≠ 0 := by
    constructor
    · exact fun unknown => stuck (.inl (.inr ⟨missing, .inl unknown⟩))
    · exact fun never => stuck (.inl (.inr ⟨missing, .inr never⟩))
  have moved : path ≠ [] := by
    intro empty
    have walk := ended.walk
    have ends := ended.ends
    subst empty
    cases walk
    cases ends with
    | inl other => exact other missing
    | inr rest => exact rest.elim asks.1 fun count => asks.2 count.symm
  have unplaced : tracks.verdict queue.storage last ≠ .placed := by
    intro placed
    have resolves := ended.walk.resolves (.placed placed)
    rw [Nat.zero_add] at resolves
    exact stuck (.inr ⟨path.length, resolves, .inl ended.short⟩)
  have same := ended.unchanged places unplaced
  obtain ⟨front, child, shape, walked, childMissing, found⟩ := ended.walk.child moved
  intro clear
  have head : (tracks.processNext queue).liveHeaders.head? = some child := by
    rw [ended.liveHeaders, shape, reverse_append, reverse_singleton, singleton_append, cons_append, head?_cons]
  cases clear child head with
  | inl itself =>
    unfold EndsItself at itself
    simp only [same, childMissing, found, reduceCtorEq, true_and, false_or] at itself
    exact asks.2 itself
  | inr leads =>
    obtain ⟨steps, resolves, few⟩ := leads
    have whole := walked.resolves (resolves.same same.symm)
    cases few with
    | inr two => exact stuck (.inr ⟨_, whole, .inr two⟩)
    | inl few =>
      -- With a limit of one the child is the head itself.
      by_cases two : 2 ≤ tracks.addLiveRecursionLimit
      · exact stuck (.inr ⟨_, whole, .inr two⟩)
      · have short := ended.short
        rw [shape, length_append, length_singleton] at short
        exact stuck (.inr ⟨_, whole, .inl (by omega)⟩)

theorem stores_known (asks : tracks.addLiveRecursionLimit ≠ 0) (steps : Nat) :
    ∀ (queue : LiveHeaderQueue Data) (header : BlockHeader) (rest : List BlockHeader), Sound queue.storage → queue.liveHeaders = header :: rest →
      tracks.Resolves queue.storage (steps + 1) header → (∀ calls, tracks.Clear (tracks.processed queue calls)) →
      ∃ calls, tracks.unheld holds (tracks.processed queue calls).storage < tracks.unheld holds queue.storage := by
  induction steps using Nat.strong_induction_on with
  | _ steps ih =>
    intro queue header rest sound queued resolves clear
    obtain ⟨path, last, before, ended⟩ := processNext_ended places sound queued
    obtain ⟨left, count, remaining⟩ := resolves.walked ended.walk
    have queued' : (tracks.processed queue 0).liveHeaders.head? = some header := by
      rw [show tracks.processed queue 0 = queue from rfl, queued, head?_cons]
    cases remaining with
    | placed placed =>
      have moved : path ≠ [] := by
        intro empty
        rw [empty] at count
        simp at count
      exact ⟨1, ended.fewer places placed moved⟩
    | @back left _ parent lastMissing found resolved =>
      -- The limit has ended the call, and the next one starts nearer.
      have limit : path.length = tracks.addLiveRecursionLimit := by
        cases ended.ends with
        | inl other => exact absurd lastMissing other
        | inr rest => exact rest.resolve_left (by simp [found])
      have two : 2 ≤ tracks.addLiveRecursionLimit := by
        cases clear 0 header queued' with
        | inl itself =>
          cases resolves with
          | back missing known _ =>
            unfold EndsItself at itself
            rw [show tracks.processed queue 0 = queue from rfl] at itself
            simp only [missing, known, reduceCtorEq, true_and, false_or] at itself
            exact absurd itself asks
        | inr leads =>
          obtain ⟨others, led, few⟩ := leads
          obtain ⟨far, total, onward⟩ := led.walked ended.walk
          cases onward with
          | placed placed =>
            have missing : tracks.verdict queue.storage last = .missing := lastMissing
            rw [show tracks.verdict queue.storage last = .placed from placed] at missing
            contradiction
          | back _ _ _ => exact few.resolve_left (by omega)
      have moved : path ≠ [] := by
        intro empty
        rw [empty, length_nil] at limit
        omega
      obtain ⟨front, child, shape, _, childMissing, asked⟩ := ended.walk.child moved
      have same := ended.unchanged places (by simpa using fun placed => by rw [lastMissing] at placed; contradiction)
      have requeued : (tracks.processNext queue).liveHeaders = child :: (front.reverse ++ rest) := by
        rw [ended.liveHeaders, shape, reverse_append, reverse_singleton, singleton_append, cons_append]
      have nearer := (Resolves.back childMissing asked (.back lastMissing found resolved)).same same
      have later : ∀ calls, tracks.processed (tracks.processNext queue) calls = tracks.processed queue (1 + calls) := fun calls =>
        processed_add queue 1 calls
      obtain ⟨calls, fewer⟩ := ih (left + 1) (by omega) (tracks.processNext queue) child _ (ended.keeps places) requeued nearer fun calls => by
        rw [later]
        exact clear _
      rw [later] at fewer
      exact ⟨1 + calls, fewer.trans_le (unheld_le (ended.grows places))⟩

theorem empties (few : Nat) :
    ∀ (length : Nat) (queue : LiveHeaderQueue Data), Sound queue.storage → tracks.unheld holds queue.storage ≤ few → queue.liveHeaders.length = length →
      (∀ calls, tracks.Clear (tracks.processed queue calls)) → ∃ calls, (tracks.processed queue calls).liveHeaders = [] := by
  induction few using Nat.strong_induction_on with
  | _ few known =>
    intro length
    induction length with
    | zero => exact fun queue _ _ empty _ => ⟨0, eq_nil_of_length_eq_zero empty⟩
    | succ length shorter =>
      intro queue sound bound size clear
      obtain ⟨header, rest, queued⟩ := exists_cons_of_length_eq_add_one size
      have first : (tracks.processed queue 0).liveHeaders.head? = some header := by
        rw [show tracks.processed queue 0 = queue from rfl, queued, head?_cons]
      have later : ∀ start calls, tracks.Clear (tracks.processed (tracks.processed queue start) calls) := by
        intro start calls
        rw [processed_add]
        exact clear _
      obtain ⟨path, last, before, ended⟩ := processNext_ended places sound queued
      -- A call that does not go back leaves a shorter queue.
      have stayed : path = [] → ∃ calls, (tracks.processed queue calls).liveHeaders = [] := by
        intro empty
        have left : (tracks.processed queue 1).liveHeaders = rest := by
          rw [show tracks.processed queue 1 = tracks.processNext queue from rfl, ended.liveHeaders, empty, reverse_nil, nil_append]
        obtain ⟨calls, done⟩ := shorter (tracks.processed queue 1) (sound_processed places sound 1) ((unheld_le (ended.grows places)).trans bound)
          (by rw [left]; simpa [queued] using size) (later 1)
        rw [processed_add] at done
        exact ⟨1 + calls, done⟩
      have back : path ≠ [] → tracks.verdict queue.storage header = .missing ∧ tracks.getMissingBlockHeader header.previousHash ≠ none ∧
          tracks.addLiveRecursionLimit ≠ 0 := by
        intro moved
        have walk := ended.walk
        have short := ended.short
        cases walk with
        | stop => exact absurd rfl moved
        | back missing found _ =>
          rw [length_cons] at short
          exact ⟨missing, by simp [found], by omega⟩
      by_cases moved : path = []
      · exact stayed moved
      · obtain ⟨missing, asked, asks⟩ := back moved
        cases clear 0 header first with
        | inl itself =>
          cases itself with
          | inl refused =>
            rw [show tracks.verdict (tracks.processed queue 0).storage header = .missing from missing] at refused
            contradiction
          | inr ends => exact (ends.2.elim asked asks).elim
        | inr leads =>
          obtain ⟨steps, resolves, _⟩ := leads
          cases resolves with
          | placed placed =>
            rw [show tracks.verdict (tracks.processed queue 0).storage header = .missing from missing] at placed
            contradiction
          | @back steps _ parent missing found rest' =>
            obtain ⟨calls, fewer⟩ := stores_known places asks steps queue header rest sound queued (.back missing found rest') clear
            obtain ⟨more, done⟩ := known _ (fewer.trans_le bound) _ (tracks.processed queue calls) (sound_processed places sound calls) le_rfl rfl (later calls)
            rw [processed_add] at done
            exact ⟨calls + more, done⟩

omit places in
theorem processed_empty (empty : queue.liveHeaders = []) (calls : Nat) : tracks.processed queue calls = queue := by
  induction calls with
  | zero => rfl
  | succ calls ih =>
    rw [processed_next, ih]
    unfold processNext
    rw [empty]

theorem stays_queued (sound : Sound queue.storage)
    (queued : header ∈ queue.liveHeaders) (waits : queue.liveHeaders.head? ≠ some header) : header ∈ (tracks.processNext queue).liveHeaders := by
  obtain ⟨first, rest, shape⟩ := exists_cons_of_ne_nil (ne_nil_of_mem queued)
  obtain ⟨path, last, before, ended⟩ := processNext_ended places sound shape
  rw [shape] at queued waits
  rw [ended.liveHeaders]
  cases queued with
  | head => simp at waits
  | tail _ behind => exact mem_append_right _ behind

theorem has_turn (sound : Sound queue.storage)
    (ends : ∃ calls, (tracks.processed queue calls).liveHeaders = []) (start : Nat) (queued : header ∈ (tracks.processed queue start).liveHeaders) :
    ∃ calls, start ≤ calls ∧ (tracks.processed queue calls).liveHeaders.head? = some header := by
  by_contra never
  push Not at never
  have always : ∀ more, header ∈ (tracks.processed queue (start + more)).liveHeaders := by
    intro more
    induction more with
    | zero => exact queued
    | succ more ih =>
      rw [← Nat.add_assoc, processed_next]
      exact stays_queued places (sound_processed places sound _) ih (never _ (Nat.le_add_right _ _))
  obtain ⟨calls, done⟩ := ends
  have last := always calls
  rw [Nat.add_comm, ← processed_add, processed_empty done, done] at last
  exact not_mem_nil last

theorem placed_next (sound : Sound queue.storage)
    (first : queue.liveHeaders.head? = some header) (placed : tracks.verdict queue.storage header = .placed) :
    holds (tracks.processNext queue).storage header.hash = true := by
  obtain ⟨rest, queued⟩ := head?_eq_some_iff.mp first
  obtain ⟨path, last, before, ended⟩ := processNext_ended places sound queued
  have walk := ended.walk
  cases walk with
  | stop => exact ended.placed places placed
  | back missing _ _ =>
    rw [show tracks.verdict queue.storage header = .missing from missing] at placed
    contradiction

theorem requeued_next (asks : tracks.addLiveRecursionLimit ≠ 0)
    (sound : Sound queue.storage) (first : queue.liveHeaders.head? = some header) (missing : tracks.verdict queue.storage header = .missing)
    (found : tracks.getMissingBlockHeader header.previousHash = some parent) : header ∈ (tracks.processNext queue).liveHeaders := by
  obtain ⟨rest, queued⟩ := head?_eq_some_iff.mp first
  obtain ⟨path, last, before, ended⟩ := processNext_ended places sound queued
  have walk := ended.walk
  have ends := ended.ends
  cases walk with
  | stop => exact (ends.elim (fun other => other missing) fun rest => rest.elim (by simp [found]) fun count => asks count.symm).elim
  | back _ _ _ =>
    rw [ended.liveHeaders]
    simp

theorem drains_iff (sound : Sound queue.storage) :
    tracks.Drains holds queue ↔ ∀ calls, tracks.Clear (tracks.processed queue calls) := by
  constructor
  · intro drains calls
    by_contra stuck
    have always : ∀ more, ¬tracks.Clear (tracks.processed queue (calls + more)) := by
      intro more
      induction more with
      | zero => exact stuck
      | succ more ih =>
        rw [← Nat.add_assoc, processed_next]
        exact not_clear_next places (sound_processed places sound _) ih
    obtain ⟨last, done⟩ := drains.empties
    have unclear := always last
    rw [Nat.add_comm, ← processed_add, processed_empty done] at unclear
    exact unclear (by simp [Clear, done])
  · intro clear
    have ends := empties places _ _ queue sound le_rfl rfl clear
    refine ⟨ends, ?_, ?_⟩
    · intro header queued
      obtain ⟨calls, _, first⟩ := has_turn places sound ends 0 queued
      exact ⟨calls, first⟩
    · intro calls header steps first resolves few
      cases resolves with
      | placed placed =>
        refine ⟨calls, le_rfl, first, .inr ?_⟩
        rw [processed_next]
        exact placed_next places (sound_processed places sound calls) first placed
      | @back steps _ parent missing found _ =>
        have asks : tracks.addLiveRecursionLimit ≠ 0 := by omega
        -- While it is neither placed nor refused, it goes back on the queue, which ends.
        by_contra never
        push Not at never
        have always : ∀ more, header ∈ (tracks.processed queue (calls + more)).liveHeaders := by
          intro more
          induction more with
          | zero => exact mem_of_head? first
          | succ more ih =>
            have sound := sound_processed places sound (calls + more)
            rw [← Nat.add_assoc, processed_next]
            by_cases turn : (tracks.processed queue (calls + more)).liveHeaders.head? = some header
            · obtain ⟨accepted, lost⟩ := never _ (Nat.le_add_right _ _) turn
              cases verdict : tracks.verdict (tracks.processed queue (calls + more)).storage header with
              | refused => exact absurd verdict accepted
              | placed =>
                rw [processed_next] at lost
                exact absurd (placed_next places sound turn verdict) lost
              | missing => exact requeued_next places asks sound turn verdict found
            · exact stays_queued places sound ih turn
        obtain ⟨last, done⟩ := ends
        have member := always last
        rw [Nat.add_comm, ← processed_add, processed_empty done, done] at member
        exact not_mem_nil member

end

end

end ChaintracksBase

end WalletToolbox.Chaintracks
