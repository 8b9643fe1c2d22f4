import WalletToolbox.Proofs.CachedHeaders

/-! The cache of headers against the active chain. A notice drops what its change of the chain
has deactivated. What is stored after it may be from before, or may never have been active. -/

namespace WalletToolbox
open Chaintracks Effects List

def OnChain (chain : List BlockHeader) (header : BlockHeader) : Prop := chain[header.height]? = some header

namespace BlockHeaderCache
variable {cache : BlockHeaderCache} {expired : HeaderKey → Bool} {before after : List BlockHeader} {header : BlockHeader}

theorem onChain_of_take (same : after.take height = before.take height) (low : header.height < height)
    (on : OnChain before header) : OnChain after header := by
  have there := congrArg (fun headers : List BlockHeader => headers[header.height]?) same
  simp only [getElem?_take_of_lt low] at there
  exact there.trans on

theorem handle_agrees (agrees : cache.Agrees) : (cache.handle expired notice).Agrees := by
  cases notice with
  | blockMined header blockHeight =>
    cases header with
    | some mined =>
      have low := (@invalidateFromHeight_drops cache expired agrees mined.height).1
      exact (set_agrees (low.agrees agrees)).1
    | none => exact (@invalidateFromHeight_drops cache expired agrees blockHeight).1.agrees agrees
  | reorg depth oldTip deactivatedHeaders =>
    show (cache.onReorg expired depth oldTip deactivatedHeaders).Agrees
    unfold onReorg
    split
    · exact (@foldl_invalidateHash cache expired deactivatedHeaders agrees).1.agrees agrees
    · split
      next tip depth => exact (@invalidateFromHeight_drops cache expired agrees (tip.height + 1 - depth)).1.agrees agrees
      next => exact clear_drops.agrees agrees

theorem handle_keeps (agrees : cache.Agrees) (tells : notice.Tells before after) (key) (header)
    (held : (cache.handle expired notice).data key = some header) :
    OnChain after header ∨ cache.data key = some header ∧ (OnChain before header → OnChain after header) := by
  cases notice with
  | blockMined mined blockHeight =>
    cases mined with
    | some mined =>
      obtain ⟨here, same⟩ := tells
      obtain ⟨drops, low⟩ := @invalidateFromHeight_drops cache expired agrees mined.height
      obtain ⟨-, from'⟩ := @set_agrees (cache.invalidateFromHeight expired mined.height) expired mined (drops.agrees agrees)
      rcases from' key header held with rfl | old
      · exact .inl here
      · exact .inr ⟨drops.held old, onChain_of_take same (low key header old)⟩
    | none =>
      obtain ⟨drops, low⟩ := @invalidateFromHeight_drops cache expired agrees blockHeight
      exact .inr ⟨drops.held held, onChain_of_take tells (low key header held)⟩
  | reorg depth oldTip deactivatedHeaders =>
    cases deactivatedHeaders with
    | cons first rest =>
      obtain ⟨drops, apart⟩ := @foldl_invalidateHash cache expired (first :: rest) agrees
      refine .inr ⟨drops.held held, fun on => ?_⟩
      rcases tells header (mem_of_getElem? on) with still | listed
      · exact still
      · exact absurd listed (apart key header held)
    | nil =>
      cases depth with
      | none =>
        cases oldTip <;> cases held
      | some depth =>
        cases oldTip with
        | none => cases held
        | some oldTip =>
          obtain ⟨drops, low⟩ := @invalidateFromHeight_drops cache expired agrees (oldTip.height + 1 - depth)
          exact .inr ⟨drops.held held, onChain_of_take tells (low key header held)⟩

end BlockHeaderCache

namespace HeaderRun
open BlockHeaderCache
variable {run next : HeaderRun}

def Since (run : HeaderRun) (notice : Nat) (header : BlockHeader) : Prop :=
  ∃ number chain, notice ≤ number ∧ run.chains[number]? = some chain ∧ OnChain chain header

/-- What is returned for a height is the header there, in a chain that was active when the last
notice before the call was handled or after that. -/
def FollowsChain (run : HeaderRun) : Prop :=
  ∀ request ∈ run.requests, ∀ height header, request.query = .height height → request.phase = .returned header →
    ∃ number chain, request.handled ≤ number ∧ run.chains[number]? = some chain ∧ chain[height]? = some header

def Undisturbed (run : HeaderRun) : HeaderEvent → Prop
  | .stored number _ => ∀ request header, run.requests[number]? = some request → request.phase = .answered header →
      run.Since run.handled header
  | .getHeaderForHeight _ _ | .hashToHeader _ _ | .replied _ _ | .chainChanged _ _ | .noticed _ | .expire _ => True

def RequestKept (run : HeaderRun) (request : HeaderRequest) : Prop :=
  ∀ height, request.query = .height height → request.phase ≠ .askedElsewhere ∧
    ∀ header, request.phase = .answered header ∨ request.phase = .returned header → header.height = height ∧ run.Since request.handled header

structure Kept (run : HeaderRun) : Prop where
  current : ∀ key header, run.cache.data key = some header → run.Since run.handled header
  length : run.chains.length = run.handled + 1 + run.pending.length
  tells : ∀ place notice, run.pending[place]? = some notice → ∃ before after, run.chains[run.handled + place]? = some before ∧
    run.chains[run.handled + place + 1]? = some after ∧ notice.Tells before after
  requests : ∀ request ∈ run.requests, run.RequestKept request
  past : ∀ request ∈ run.requests, request.handled ≤ run.handled

theorem Kept.followsChain (kept : run.Kept) : run.FollowsChain := by
  intro request member height header query phase
  obtain ⟨rfl, number, chain, le, is, on⟩ := (kept.requests request member height query).2 header (.inr phase)
  exact ⟨number, chain, le, is, on⟩

theorem Kept.active (kept : run.Kept) : run.chains[run.handled + run.pending.length]? = some run.active := by
  have filled : run.chains ≠ [] := by
    intro none
    have length := kept.length
    rw [none, length_nil] at length
    omega
  have last : run.chains.length - 1 = run.handled + run.pending.length := by
    have length := kept.length
    omega
  rw [HeaderRun.active, getLastD_eq_getLast?, getLast?_eq_getElem?, last]
  have inside : run.handled + run.pending.length < run.chains.length := by
    have length := kept.length
    omega
  rw [getElem?_eq_getElem inside]
  rfl

theorem Kept.withCache {cache} (kept : run.Kept)
    (current : ∀ key header, cache.data key = some header → run.Since run.handled header) : Kept { run with cache } :=
  ⟨current, kept.length, kept.tells, kept.requests, kept.past⟩

theorem Kept.drops {cache} (kept : run.Kept) (drops : Drops run.cache cache) : Kept { run with cache } :=
  kept.withCache fun key header held => kept.current key header (drops.held held)

theorem Kept.add (kept : run.Kept) (of : run.RequestKept request) (past : request.handled ≤ run.handled) :
    Kept { run with requests := run.requests ++ [request] } := by
  refine ⟨kept.current, kept.length, kept.tells, ?_, ?_⟩
  · intro other member
    rcases mem_append.mp member with old | new
    · exact kept.requests other old
    · rw [mem_singleton.mp new]
      exact of
  · intro other member
    rcases mem_append.mp member with old | new
    · exact kept.past other old
    · rw [mem_singleton.mp new]
      exact past

theorem Kept.setPhase (kept : run.Kept)
    (is : run.requests[number]? = some request) (of : run.RequestKept { request with phase }) : (run.setPhase number request phase).Kept := by
  refine ⟨kept.current, kept.length, kept.tells, ?_, ?_⟩
  · intro other member
    rcases mem_or_eq_of_mem_set member with old | rfl
    · exact kept.requests other old
    · exact of
  · intro other member
    rcases mem_or_eq_of_mem_set member with old | rfl
    · exact kept.past other old
    · exact kept.past request (mem_of_getElem? is)

theorem checked_answered (by_height : query = .height height)
    (answers : checked query header = .answered found ∨ checked query header = .returned found) : found = header ∧ header.height = height := by
  subst by_height
  unfold checked at answers
  by_cases fits : header.height = height
  · simp only [fits, decide_true, if_true] at answers
    rcases answers with answered | returned
    · cases answered
      exact ⟨rfl, fits⟩
    · cases returned
  · simp only [fits, decide_false, if_false, Bool.false_eq_true] at answers
    rcases answers with answered | returned
    · cases answered
    · cases returned

theorem Kept.call {query key expired} (kept : run.Kept) (agrees : run.cache.Agrees)
    (names : ∀ height, query = .height height → key = .height height) : (run.call query key expired).Kept := by
  unfold HeaderRun.call
  cases got : run.cache.get expired key with
  | mk found cache =>
    have reads := @get_reads run.cache expired agrees key
    rw [got] at reads
    simp only
    cases reads with
    | found header held =>
      refine kept.add ?_ (Nat.le_refl _)
      intro height is
      refine ⟨HeaderPhase.noConfusion, fun other answers => ?_⟩
      rcases answers with answered | returned
      · cases answered
      · cases returned
        cases names height is
        exact ⟨(agrees.height _ _ held).1, kept.current _ _ held⟩
    | missed _ drops none =>
      refine (kept.drops drops).add ?_ (Nat.le_refl _)
      intro height is
      refine ⟨HeaderPhase.noConfusion, fun other answers => ?_⟩
      rcases answers with answered | returned
      · cases answered
      · cases returned

theorem answer_height (height retry : Nat) (reply) :
    (∃ header, reply = .header header ∧ answer (.height height) retry reply = checked (.height height) header) ∨
      (∃ again, answer (.height height) retry reply = .asked again) ∨ answer (.height height) retry reply = .rejected := by
  cases reply with
  | header header => exact .inl ⟨header, rfl, rfl⟩
  | missing => exact .inr (.inr rfl)
  | connectionReset =>
    by_cases more : retry + 1 < 3
    · exact .inr (.inl ⟨_, if_pos more⟩)
    · exact .inr (.inr (if_neg more))
  | threw => exact .inr (.inr rfl)

theorem checked_ne (query : HeaderQuery) (header) : checked query header ≠ .askedElsewhere := by
  have either : ∀ fits : Bool, (if fits = true then HeaderPhase.answered header else .rejected) ≠ .askedElsewhere := by
    intro fits
    cases fits with
    | true => exact HeaderPhase.noConfusion
    | false => exact HeaderPhase.noConfusion
  exact either _

theorem Kept.replied (kept : run.Kept)
    (is : run.requests[number]? = some request) (right : right run.active request.query reply = true) :
    (run.setPhase number request (answer request.query retry reply)).Kept := by
  apply kept.setPhase is
  intro height query
  replace query : request.query = .height height := query
  show answer request.query retry reply ≠ .askedElsewhere ∧ ∀ header,
    answer request.query retry reply = .answered header ∨ answer request.query retry reply = .returned header →
      header.height = height ∧ run.Since request.handled header
  rw [query] at right ⊢
  rcases answer_height height retry reply with ⟨header, rfl, same⟩ | ⟨again, same⟩ | same
  · rw [same]
    refine ⟨checked_ne _ _, fun found answers => ?_⟩
    obtain ⟨rfl, fits⟩ := checked_answered rfl answers
    have on := of_decide_eq_true right
    have past := kept.past request (mem_of_getElem? is)
    refine ⟨fits, _, _, ?_, kept.active, ?_⟩
    · omega
    · rw [OnChain, fits]
      exact on
  · rw [same]
    refine ⟨HeaderPhase.noConfusion, fun found answers => ?_⟩
    rcases answers with answered | returned
    · cases answered
    · cases returned
  · rw [same]
    refine ⟨HeaderPhase.noConfusion, fun found answers => ?_⟩
    rcases answers with answered | returned
    · cases answered
    · cases returned

/-- The entries agree after every step, whatever is stored. -/
theorem step_agrees (agrees : run.cache.Agrees) (stepped : run.step event = some next) : next.cache.Agrees := by
  have reads : ∀ (expired : HeaderKey → Bool) (key : HeaderKey), (run.cache.get expired key).2.Agrees := by
    intro expired key
    cases got : run.cache.get expired key with
    | mk found cache =>
      have reads := @get_reads run.cache expired agrees key
      rw [got] at reads
      cases reads with
      | found _ _ => exact agrees
      | missed _ drops _ => exact drops.agrees agrees
  cases event with
  | getHeaderForHeight height expired =>
    cases stepped
    exact reads expired _
  | hashToHeader hash expired =>
    cases stepped
    exact reads expired _
  | replied number reply =>
    simp only [HeaderRun.step] at stepped
    split at stepped
    · split at stepped
      · split at stepped
        · cases stepped
          exact agrees
        · cases stepped
      · cases stepped
        exact agrees
      all_goals cases stepped
    · cases stepped
  | stored number expired =>
    simp only [HeaderRun.step] at stepped
    split at stepped
    · split at stepped
      next header _ =>
        cases stepped
        exact (@set_agrees run.cache expired header agrees).1
      all_goals cases stepped
    · cases stepped
  | chainChanged chain notice =>
    simp only [HeaderRun.step] at stepped
    split at stepped
    · cases stepped
      exact agrees
    · cases stepped
  | noticed expired =>
    simp only [HeaderRun.step] at stepped
    split at stepped
    · cases stepped
      exact handle_agrees agrees
    · cases stepped
  | expire key =>
    simp only [HeaderRun.step] at stepped
    split at stepped
    next header held =>
      cases stepped
      exact (removeHeaderIndexes_keeps agrees held).agrees agrees
    next => cases stepped

theorem Kept.stored {number request header expired} (kept : run.Kept)
    (agrees : run.cache.Agrees) (is : run.requests[number]? = some request) (phase : request.phase = .answered header)
    (since : run.Since run.handled header) :
    ({ run with cache := run.cache.set expired header }.setPhase number request (.returned header)).Kept := by
  obtain ⟨-, from'⟩ := @set_agrees run.cache expired header agrees
  have settled : Kept { run with cache := run.cache.set expired header } := by
    apply kept.withCache
    intro key other held
    rcases from' key other held with rfl | old
    · exact since
    · exact kept.current key other old
  apply settled.setPhase is
  intro height query
  refine ⟨HeaderPhase.noConfusion, fun other answers => ?_⟩
  rcases answers with answered | returned
  · cases answered
  · cases returned
    exact (kept.requests request (mem_of_getElem? is) height query).2 header (.inl phase)

theorem Kept.changed (kept : run.Kept) (tells : notice.Tells run.active chain) :
    Kept { run with chains := run.chains ++ [chain], pending := run.pending ++ [notice] } := by
  have stays : ∀ {number : Nat} {other : List BlockHeader}, run.chains[number]? = some other → (run.chains ++ [chain])[number]? = some other := by
    intro number other is
    rw [List.getElem?_append_left (List.getElem?_eq_some_iff.mp is).1]
    exact is
  have since : ∀ {first : Nat} {header : BlockHeader}, run.Since first header →
      Since { run with chains := run.chains ++ [chain], pending := run.pending ++ [notice] } first header := by
    rintro first header ⟨number, other, le, is, on⟩
    exact ⟨number, other, le, stays is, on⟩
  refine ⟨fun key header held => since (kept.current key header held), ?_, ?_, ?_, kept.past⟩
  · have length := kept.length
    simp only [List.length_append, List.length_singleton]
    omega
  · intro place told is
    by_cases last : place = run.pending.length
    · subst last
      rw [List.getElem?_concat_length] at is
      cases is
      refine ⟨run.active, chain, stays kept.active, ?_, tells⟩
      have length : run.chains.length = run.handled + run.pending.length + 1 := by
        have length := kept.length
        omega
      show (run.chains ++ [chain])[run.handled + run.pending.length + 1]? = some chain
      rw [← length]
      exact List.getElem?_concat_length
    · have old : run.pending[place]? = some told := by
        rw [List.getElem?_append] at is
        split at is
        · exact is
        · rw [List.getElem?_singleton] at is
          split at is
          · omega
          · cases is
      obtain ⟨before, after, isBefore, isAfter, tells⟩ := kept.tells place told old
      exact ⟨before, after, stays isBefore, stays isAfter, tells⟩
  · intro request member height query
    obtain ⟨here, found⟩ := kept.requests request member height query
    exact ⟨here, fun header phase => ⟨(found header phase).1, since (found header phase).2⟩⟩

theorem Kept.noticed (kept : run.Kept) (agrees : run.cache.Agrees)
    (first : run.pending = notice :: rest) :
    Kept { run with cache := run.cache.handle expired notice, pending := rest, handled := run.handled + 1 } := by
  obtain ⟨before, after, isBefore, isAfter, tells⟩ := kept.tells 0 notice (by rw [first]; rfl)
  refine ⟨?_, ?_, ?_, kept.requests, fun request member => Nat.le_succ_of_le (kept.past request member)⟩
  · intro key header held
    rcases handle_keeps agrees tells key header held with on | ⟨was, stays⟩
    · exact ⟨_, after, Nat.le_refl _, isAfter, on⟩
    · obtain ⟨number, chain, le, is, on⟩ := kept.current key header was
      by_cases here : number = run.handled
      · subst here
        cases isBefore.symm.trans is
        exact ⟨_, after, Nat.le_refl _, isAfter, stays on⟩
      · exact ⟨number, chain, by show run.handled + 1 ≤ number; omega, is, on⟩
  · have length := kept.length
    rw [first, length_cons] at length
    show run.chains.length = run.handled + 1 + 1 + rest.length
    omega
  · intro place told is
    obtain ⟨old, new, isOld, isNew, tells⟩ := kept.tells (place + 1) told (by rw [first]; exact is)
    rw [show run.handled + (place + 1) = run.handled + 1 + place by omega] at isOld isNew
    exact ⟨old, new, isOld, isNew, tells⟩

theorem Kept.step {event} (kept : run.Kept) (agrees : run.cache.Agrees) (undisturbed : run.Undisturbed event)
    (stepped : run.step event = some next) : next.Kept := by
  cases event with
  | getHeaderForHeight height expired =>
    cases stepped
    exact kept.call agrees fun _ is => by cases is; rfl
  | hashToHeader hash expired =>
    cases stepped
    exact kept.call agrees fun _ is => by cases is
  | replied number reply =>
    simp only [HeaderRun.step] at stepped
    split at stepped
    next request is =>
      split at stepped
      · split at stepped
        next fits =>
          cases stepped
          exact kept.replied is fits
        next => cases stepped
      next elsewhere =>
        cases stepped
        apply kept.setPhase is
        intro height query
        exact absurd elsewhere (kept.requests request (mem_of_getElem? is) height query).1
      all_goals cases stepped
    next => cases stepped
  | stored number expired =>
    simp only [HeaderRun.step] at stepped
    split at stepped
    next request is =>
      split at stepped
      next header phase =>
        cases stepped
        exact kept.stored agrees is phase (undisturbed request header is phase)
      all_goals cases stepped
    next => cases stepped
  | chainChanged chain notice =>
    simp only [HeaderRun.step] at stepped
    split at stepped
    next tells =>
      cases stepped
      exact kept.changed tells
    next => cases stepped
  | noticed expired =>
    simp only [HeaderRun.step] at stepped
    split at stepped
    next notice rest first =>
      cases stepped
      exact kept.noticed agrees first
    next => cases stepped
  | expire key =>
    simp only [HeaderRun.step] at stepped
    split at stepped
    next header held =>
      cases stepped
      exact kept.drops ⟨_, removeHeaderIndexes_keeps agrees held⟩
    next => cases stepped

theorem Kept.new (maxEntries : Nat) (chain) : Kept { cache := { maxEntries }, chains := [chain] } := by
  constructor
  · intro _ _ held
    cases held
  · rfl
  · intro _ _ is
    cases is
  · intro _ member
    cases member
  · intro _ member
    cases member

def headerNamed (hash : String) (height : Nat) : BlockHeader :=
  { version := 1, previousHash := "", merkleRoot := "", time := 0, bits := 0, nonce := 0, height, hash }

def orphanRun : Option HeaderRun :=
  runEvents HeaderRun.step { cache := {}, chains := [[headerNamed "genesis" 0, headerNamed "active" 1]] }
    [.hashToHeader "orphan" fun _ => false, .replied 0 (.header (headerNamed "orphan" 1)), .stored 0 fun _ => false,
      .getHeaderForHeight 1 fun _ => false]

end HeaderRun
end WalletToolbox
