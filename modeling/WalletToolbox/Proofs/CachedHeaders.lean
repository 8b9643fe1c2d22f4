import WalletToolbox.Cache.BlockHeaderCache

/-! The two keys of a cached header. Whatever expires in the middle of a call, a header is
held under its height just when it is held under its hash. -/

namespace WalletToolbox
open Chaintracks

namespace BlockHeaderCache

structure Agrees (cache : BlockHeaderCache) : Prop where
  height : ∀ height header, cache.data (.height height) = some header → header.height = height ∧ cache.data (.hash header.hash) = some header
  hash : ∀ hash header, cache.data (.hash hash) = some header → header.hash = hash ∧ cache.data (.height header.height) = some header
  hashes : ∀ hash, hash ∈ cache.headerHashes ↔ (cache.data (.hash hash)).isSome = true

structure Keeps (kept : BlockHeader → Prop) (before after : BlockHeaderCache) : Prop where
  data : ∀ key header, after.data key = some header ↔ before.data key = some header ∧ kept header
  hashes : ∀ hash, hash ∈ after.headerHashes ↔ ∃ header, before.data (.hash hash) = some header ∧ kept header

section
variable {cache before after : BlockHeaderCache} {expired : HeaderKey → Bool} {header : BlockHeader} {kept : BlockHeader → Prop}

theorem Agrees.by_hash {key} (agrees : cache.Agrees) (held : cache.data key = some header) :
    cache.data (.hash header.hash) = some header := by
  cases key with
  | height height => exact (agrees.height height header held).2
  | hash hash => rw [(agrees.hash hash header held).1, held]

theorem Agrees.by_height {key} (agrees : cache.Agrees) (held : cache.data key = some header) :
    cache.data (.height header.height) = some header := by
  cases key with
  | height height => rw [(agrees.height height header held).1, held]
  | hash hash => exact (agrees.hash hash header held).2

theorem Agrees.key (agrees : cache.Agrees) {key} (held : cache.data key = some header) :
    key = .height header.height ∨ key = .hash header.hash := by
  cases key with
  | height height => exact .inl (congrArg _ (agrees.height height header held).1.symm)
  | hash hash => exact .inr (congrArg _ (agrees.hash hash header held).1.symm)

theorem Agrees.same_hash (agrees : cache.Agrees) {key other second} (held : cache.data key = some header)
    (also : cache.data other = some second) (same : header.hash = second.hash) : header = second := by
  have first := agrees.by_hash held
  rw [same, agrees.by_hash also] at first
  exact (Option.some.inj first).symm

theorem Agrees.same_height (agrees : cache.Agrees) {key other second} (held : cache.data key = some header)
    (also : cache.data other = some second) (same : header.height = second.height) : header = second := by
  have first := agrees.by_height held
  rw [same, agrees.by_height also] at first
  exact (Option.some.inj first).symm

theorem Agrees.new (maxEntries : Nat) : Agrees { maxEntries } := by
  constructor
  · intro _ _ held
    cases held
  · intro _ _ held
    cases held
  · intro hash
    constructor
    · intro member
      cases member
    · intro held
      cases held

theorem Keeps.agrees (keeps : Keeps kept before after) (agrees : before.Agrees) : after.Agrees := by
  constructor
  · intro height header held
    obtain ⟨was, right⟩ := (keeps.data _ _).mp held
    obtain ⟨same, there⟩ := agrees.height height header was
    exact ⟨same, (keeps.data _ _).mpr ⟨there, right⟩⟩
  · intro hash header held
    obtain ⟨was, right⟩ := (keeps.data _ _).mp held
    obtain ⟨same, there⟩ := agrees.hash hash header was
    exact ⟨same, (keeps.data _ _).mpr ⟨there, right⟩⟩
  · intro hash
    rw [keeps.hashes, Option.isSome_iff_exists]
    simp only [keeps.data]

theorem Keeps.refl (agrees : cache.Agrees) : Keeps (fun _ => True) cache cache := by
  constructor
  · intro key header
    exact ⟨fun held => ⟨held, trivial⟩, And.left⟩
  · intro hash
    rw [agrees.hashes, Option.isSome_iff_exists]
    simp only [and_true]

def Drops (before after : BlockHeaderCache) : Prop := ∃ kept, Keeps kept before after

theorem Drops.refl (agrees : cache.Agrees) : Drops cache cache := ⟨_, .refl agrees⟩

theorem Drops.trans : Drops before middle → Drops middle after → Drops before after := by
  rintro ⟨first, keeps⟩ ⟨second, rest⟩
  refine ⟨fun header => first header ∧ second header, ?_, ?_⟩
  · intro key header
    rw [rest.data, keeps.data, and_assoc]
  · intro hash
    rw [rest.hashes]
    simp only [keeps.data, and_assoc]

theorem Drops.agrees (drops : Drops before after) (agrees : before.Agrees) : after.Agrees := by
  obtain ⟨_, keeps⟩ := drops
  exact keeps.agrees agrees

theorem Drops.held (drops : Drops before after) (held : after.data key = some header) : before.data key = some header := by
  obtain ⟨_, keeps⟩ := drops
  exact ((keeps.data _ _).mp held).1

theorem Keeps.without (agrees : before.Agrees) {hash}
    (data : ∀ key, after.data key =
      if key = .hash hash ∨ ∃ header, before.data (.hash hash) = some header ∧ key = .height header.height then none else before.data key)
    (hashes : ∀ other, other ∈ after.headerHashes ↔ other ∈ before.headerHashes ∧ other ≠ hash) :
    Keeps (fun header => header.hash ≠ hash) before after := by
  constructor
  · intro key header
    rw [data]
    constructor
    · intro held
      split at held
      · cases held
      next apart =>
        refine ⟨held, fun same => apart ?_⟩
        subst same
        rcases agrees.key held with height | own
        · exact .inr ⟨header, agrees.by_hash held, height⟩
        · exact .inl own
    · rintro ⟨held, ne⟩
      rw [if_neg]
      · exact held
      · rintro (rfl | ⟨other, there, rfl⟩)
        · exact ne (agrees.hash _ _ held).1
        · obtain ⟨same, also⟩ := agrees.hash _ _ there
          cases held.symm.trans also
          exact ne same
  · intro other
    rw [hashes, agrees.hashes, Option.isSome_iff_exists]
    constructor
    · rintro ⟨⟨header, held⟩, ne⟩
      exact ⟨header, held, (agrees.hash _ _ held).1 ▸ ne⟩
    · rintro ⟨header, held, ne⟩
      exact ⟨⟨header, held⟩, (agrees.hash _ _ held).1 ▸ ne⟩

theorem removeHeaderIndexes_keeps (agrees : cache.Agrees) (held : cache.data key = some header) :
    Keeps (fun other => other.hash ≠ header.hash) cache (removeHeaderIndexes key header (cache.del key)) := by
  apply Keeps.without agrees
  · intro other
    have hash := agrees.by_hash held
    simp only [hash, Option.some.injEq, exists_eq_left']
    rcases agrees.key held with rfl | rfl
    · simp only [removeHeaderIndexes, deleteHash, del, Function.update_apply]
      by_cases first : other = .hash header.hash
      · simp [first]
      · by_cases second : other = .height header.height <;> simp [first, second]
    · simp only [removeHeaderIndexes, deleteHash, del, Function.update_apply]
      by_cases first : other = .hash header.hash
      · simp [first]
      · by_cases second : other = .height header.height <;> simp [first, second]
  · intro other
    cases key <;> simp [removeHeaderIndexes, deleteHash, del]

inductive ReadOf (before : BlockHeaderCache) (key : HeaderKey) : Option BlockHeader × BlockHeaderCache → Prop where
  | found (header : BlockHeader) (held : before.data key = some header) : ReadOf before key (some header, before)
  | missed (after : BlockHeaderCache) (drops : Drops before after) (gone : after.data key = none) : ReadOf before key (none, after)

theorem get_reads (agrees : cache.Agrees) (key : HeaderKey) : ReadOf cache key (cache.get expired key) := by
  unfold get
  split
  next none => exact .missed cache (.refl agrees) none
  next header held =>
    split
    · have keeps := removeHeaderIndexes_keeps agrees held
      refine .missed _ ⟨_, keeps⟩ ?_
      rw [Option.eq_none_iff_forall_ne_some]
      intro other there
      obtain ⟨was, ne⟩ := (keeps.data _ _).mp there
      cases held.symm.trans was
      exact ne rfl
    · exact .found header held

theorem invalidateHash_keeps (agrees : cache.Agrees) (hash : String) :
    Drops cache (cache.invalidateHash expired hash) ∧ ∀ key header, (cache.invalidateHash expired hash).data key = some header → header.hash ≠ hash := by
  have without : ∀ read : BlockHeaderCache, Drops cache read → read.data (.hash hash) = none →
      Drops cache (deleteHash hash (read.del (.hash hash))) ∧
        ∀ key header, (deleteHash hash (read.del (.hash hash))).data key = some header → header.hash ≠ hash := by
    intro read drops none
    have settled := drops.agrees agrees
    have keeps : Keeps (fun header => header.hash ≠ hash) read (deleteHash hash (read.del (.hash hash))) := by
      apply Keeps.without settled
      · intro key
        simp only [deleteHash, del, Function.update_apply, none, reduceCtorEq, false_and, exists_false, or_false]
      · intro other
        simp [deleteHash, del]
    exact ⟨drops.trans ⟨_, keeps⟩, fun key header held => ((keeps.data _ _).mp held).2⟩
  unfold invalidateHash
  cases got : cache.get expired (.hash hash) with
  | mk found read =>
    have reads := @get_reads cache expired agrees (.hash hash)
    rw [got] at reads
    cases reads with
    | missed _ drops none => exact without read drops none
    | found header held =>
      have keeps : Keeps (fun header => header.hash ≠ hash) cache ((deleteHash hash (cache.del (.hash hash))).del (.height header.height)) := by
        apply Keeps.without agrees
        · intro key
          simp only [deleteHash, del, Function.update_apply, held, Option.some.injEq, exists_eq_left']
          by_cases first : key = .height header.height
          · simp [first]
          · simp [first]
        · intro other
          simp [deleteHash, del]
      exact ⟨⟨_, keeps⟩, fun key header held => ((keeps.data _ _).mp held).2⟩

theorem dropFrom_drops (agrees : cache.Agrees) (height : Nat) (hash : String) :
    Drops cache (dropFrom expired height cache hash) ∧
      ∀ key header, (dropFrom expired height cache hash).data key = some header → header.hash = hash → header.height < height := by
  unfold dropFrom
  cases got : cache.get expired (.hash hash) with
  | mk found read =>
    have reads := @get_reads cache expired agrees (.hash hash)
    rw [got] at reads
    cases reads with
    | missed _ drops none =>
      refine ⟨drops, fun key header held same => ?_⟩
      have there := (drops.agrees agrees).by_hash held
      rw [same, none] at there
      cases there
    | found header held =>
      simp only
      split
      · obtain ⟨drops, apart⟩ := @invalidateHash_keeps cache expired agrees hash
        exact ⟨drops, fun key other there same => absurd same (apart key other there)⟩
      next low =>
        refine ⟨.refl agrees, fun key other there same => ?_⟩
        have own := agrees.by_hash there
        rw [same] at own
        cases held.symm.trans own
        omega

theorem foldl_dropFrom (hashes : List String) (height : Nat) (agrees : cache.Agrees) :
    Drops cache (hashes.foldl (dropFrom expired height) cache) ∧
      ∀ key header, (hashes.foldl (dropFrom expired height) cache).data key = some header → header.hash ∈ hashes → header.height < height := by
  induction hashes generalizing cache with
  | nil => exact ⟨.refl agrees, fun _ _ _ member => nomatch member⟩
  | cons first rest ih =>
    obtain ⟨here, low⟩ := @dropFrom_drops cache expired agrees height first
    obtain ⟨later, others⟩ := ih (here.agrees agrees)
    refine ⟨here.trans later, fun key header held member => ?_⟩
    rcases List.mem_cons.mp member with same | there
    · exact low key header (later.held held) same
    · exact others key header held there

theorem invalidateFromHeight_drops (agrees : cache.Agrees) (height : Nat) :
    Drops cache (cache.invalidateFromHeight expired height) ∧
      ∀ key header, (cache.invalidateFromHeight expired height).data key = some header → header.height < height := by
  obtain ⟨drops, low⟩ := @foldl_dropFrom cache expired cache.headerHashes height agrees
  refine ⟨drops, fun key header held => low key header held ?_⟩
  rw [agrees.hashes, agrees.by_hash (drops.held held)]
  rfl

theorem foldl_invalidateHash (headers : List BlockHeader) (agrees : cache.Agrees) :
    Drops cache (headers.foldl (fun cache header => cache.invalidateHash expired header.hash) cache) ∧
      ∀ key header, (headers.foldl (fun cache header => cache.invalidateHash expired header.hash) cache).data key = some header →
        header.hash ∉ headers.map (·.hash) := by
  induction headers generalizing cache with
  | nil => exact ⟨.refl agrees, fun _ _ _ member => nomatch member⟩
  | cons first rest ih =>
    obtain ⟨here, apart⟩ := @invalidateHash_keeps cache expired agrees first.hash
    obtain ⟨later, others⟩ := ih (here.agrees agrees)
    refine ⟨here.trans later, fun key header held member => ?_⟩
    rcases List.mem_cons.mp member with same | there
    · exact apart key header (later.held held) same
    · exact others key header held there

theorem clear_drops : Drops cache cache.clear := by
  refine ⟨fun _ => False, ?_, ?_⟩
  · intro key header
    simp [clear]
  · intro hash
    simp [clear]

structure Frees (header : BlockHeader) (before after : BlockHeaderCache) : Prop where
  data : ∀ key other, key ≠ .height header.height → key ≠ .hash header.hash →
    (after.data key = some other ↔ before.data key = some other ∧ other.height ≠ header.height ∧ other.hash ≠ header.hash)
  hashes : ∀ hash, hash ≠ header.hash →
    (hash ∈ after.headerHashes ↔ ∃ other, before.data (.hash hash) = some other ∧ other.height ≠ header.height)

theorem dropAtHeight_frees (agrees : cache.Agrees) : ∃ read : BlockHeaderCache, Drops cache read ∧
    (∀ key, (dropAtHeight expired header cache).data key =
      if ∃ previous, read.data (.height header.height) = some previous ∧ previous.hash ≠ header.hash ∧ key = .hash previous.hash then none
      else read.data key) ∧
    ∀ hash, hash ∈ (dropAtHeight expired header cache).headerHashes ↔ hash ∈ read.headerHashes ∧
      ¬∃ previous, read.data (.height header.height) = some previous ∧ previous.hash ≠ header.hash ∧ hash = previous.hash := by
  unfold dropAtHeight
  cases got : cache.get expired (.height header.height) with
  | mk found read =>
    have reads := @get_reads cache expired agrees (.height header.height)
    rw [got] at reads
    refine ⟨read, ?_⟩
    cases reads with
    | missed _ drops none => exact ⟨drops, by simp [none], by simp [none]⟩
    | found previous held =>
      refine ⟨.refl agrees, ?_, ?_⟩
      · intro key
        simp only [held, Option.some.injEq, exists_eq_left']
        by_cases ne : previous.hash = header.hash
        · simp [ne]
        · simp [ne, deleteHash, del, Function.update_apply]
      · intro hash
        simp only [held, Option.some.injEq, exists_eq_left']
        by_cases ne : previous.hash = header.hash
        · simp [ne]
        · simp [ne, deleteHash, del]

theorem dropAtHash_data (own : ∀ previous, cache.data (.hash header.hash) = some previous → previous.hash = header.hash)
    (height : key ≠ .height header.height) (hash : key ≠ .hash header.hash) :
    (dropAtHash expired header cache).data key =
      if ∃ previous, cache.data (.hash header.hash) = some previous ∧ key = .height previous.height then none else cache.data key := by
  unfold dropAtHash get
  cases held : cache.data (.hash header.hash) with
  | none => simp
  | some previous =>
    simp only [Option.some.injEq, exists_eq_left']
    by_cases late : expired (.hash header.hash) = true
    · simp [late, removeHeaderIndexes, deleteHash, del, Function.update_apply, hash]
    · by_cases low : previous.height = header.height
      · simp [late, low, height]
      · simp [late, low, del, Function.update_apply]

theorem dropAtHash_hashes {hash} (own : ∀ previous, cache.data (.hash header.hash) = some previous → previous.hash = header.hash)
    (ne : hash ≠ header.hash) : hash ∈ (dropAtHash expired header cache).headerHashes ↔ hash ∈ cache.headerHashes := by
  unfold dropAtHash get
  cases held : cache.data (.hash header.hash) with
  | none => simp
  | some previous =>
    simp only
    by_cases late : expired (.hash header.hash) = true
    · simp [late, removeHeaderIndexes, deleteHash, del, own previous held, ne]
    · by_cases low : previous.height = header.height
      · simp [late, low]
      · simp [late, low, del]

theorem drop_frees (agrees : cache.Agrees) :
    ∃ read : BlockHeaderCache, Drops cache read ∧ Frees header read (dropAtHash expired header (dropAtHeight expired header cache)) := by
  obtain ⟨read, drops, data, hashes⟩ := @dropAtHeight_frees cache expired header agrees
  have settled := drops.agrees agrees
  refine ⟨read, drops, ?_⟩
  have untouched : (dropAtHeight expired header cache).data (.hash header.hash) = read.data (.hash header.hash) := by
    rw [data, if_neg]
    rintro ⟨previous, -, ne, same⟩
    exact ne (HeaderKey.hash.inj same).symm
  have own : ∀ previous, (dropAtHeight expired header cache).data (.hash header.hash) = some previous → previous.hash = header.hash := by
    intro previous held
    rw [untouched] at held
    exact (settled.hash _ _ held).1
  constructor
  · intro key other height hash
    rw [dropAtHash_data own height hash, untouched, data]
    constructor
    · intro held
      split at held
      · cases held
      next apart =>
        split at held
        · cases held
        next clear =>
          refine ⟨held, fun same => ?_, fun same => ?_⟩
          · -- A header at the height is held there, and what is left of it is its hash.
            have there := settled.by_height held
            rw [same] at there
            rcases settled.key held with rfl | rfl
            · exact height (congrArg _ same)
            · exact clear ⟨other, there, fun named => hash (congrArg _ named), rfl⟩
          · have there := settled.by_hash held
            rw [same] at there
            rcases settled.key held with rfl | rfl
            · exact apart ⟨other, there, rfl⟩
            · exact hash (congrArg _ same)
    · rintro ⟨held, low, ne⟩
      rw [if_neg, if_neg]
      · exact held
      · rintro ⟨previous, there, -, rfl⟩
        have same := settled.same_hash held there (settled.hash _ _ held).1
        exact low (same ▸ (settled.height _ _ there).1)
      · rintro ⟨previous, there, rfl⟩
        have same := settled.same_height held there (settled.height _ _ held).1
        exact ne (same ▸ (settled.hash _ _ there).1)
  · intro hash ne
    rw [dropAtHash_hashes own ne, hashes, settled.hashes, Option.isSome_iff_exists]
    constructor
    · rintro ⟨⟨other, held⟩, apart⟩
      refine ⟨other, held, fun same => apart ⟨other, ?_, ?_, ?_⟩⟩
      · rw [← same]
        exact settled.by_height held
      · rw [(settled.hash _ _ held).1]
        exact ne
      · exact (settled.hash _ _ held).1.symm
    · rintro ⟨other, held, low⟩
      refine ⟨⟨other, held⟩, ?_⟩
      rintro ⟨previous, there, -, rfl⟩
      have same := settled.same_hash held there (settled.hash _ _ held).1
      exact low (same ▸ (settled.height _ _ there).1)

theorem evictRounds_drops (rounds : Nat) (agrees : cache.Agrees) : Drops cache (evictRounds expired rounds cache) := by
  induction rounds generalizing cache with
  | zero => exact .refl agrees
  | succ rounds ih =>
    unfold evictRounds
    split
    next oldHash _ _ =>
      split
      · have drops := (@invalidateHash_keeps cache expired agrees oldHash).1
        exact drops.trans (ih (drops.agrees agrees))
      · exact .refl agrees
    next => exact .refl agrees

theorem set_agrees (agrees : cache.Agrees) :
    (cache.set expired header).Agrees ∧ ∀ key other, (cache.set expired header).data key = some other → other = header ∨ cache.data key = some other := by
  obtain ⟨read, drops, frees⟩ := @drop_frees cache expired header agrees
  have settled := drops.agrees agrees
  obtain ⟨full, placed⟩ : ∃ full, full = place header (dropAtHash expired header (dropAtHeight expired header cache)) := ⟨_, rfl⟩
  have data : ∀ key, full.data key =
      if key = .hash header.hash then some header
      else if key = .height header.height then some header
      else (dropAtHash expired header (dropAtHeight expired header cache)).data key := by
    intro key
    rw [placed]
    simp only [place, put, Function.update_apply]
  have hashes : ∀ hash, hash ∈ full.headerHashes ↔
      hash = header.hash ∨ hash ≠ header.hash ∧ hash ∈ (dropAtHash expired header (dropAtHeight expired header cache)).headerHashes := by
    intro hash
    rw [placed]
    simp only [place, put, deleteHash, List.mem_append, List.mem_filter, decide_eq_true_eq, List.mem_singleton]
    constructor
    · rintro (⟨member, ne⟩ | same)
      · exact .inr ⟨ne, member⟩
      · exact .inl same
    · rintro (same | ⟨ne, member⟩)
      · exact .inr same
      · exact .inl ⟨member, ne⟩
  -- Every other header that is left has another height and another hash.
  have others : ∀ key other, key ≠ .hash header.hash → key ≠ .height header.height → full.data key = some other →
      read.data key = some other ∧ other.height ≠ header.height ∧ other.hash ≠ header.hash := by
    intro key other hash height held
    rw [data, if_neg hash, if_neg height] at held
    exact (frees.data key other height hash).mp held
  have stays : ∀ key other, read.data key = some other → other.height ≠ header.height → other.hash ≠ header.hash → full.data key = some other := by
    intro key other held low ne
    have hash : key ≠ .hash header.hash := by
      rintro rfl
      exact ne (settled.hash _ _ held).1
    have height : key ≠ .height header.height := by
      rintro rfl
      exact low (settled.height _ _ held).1
    rw [data, if_neg hash, if_neg height]
    exact (frees.data key other height hash).mpr ⟨held, low, ne⟩
  have whole : full.Agrees := by
    constructor
    · intro height other held
      by_cases here : height = header.height
      · subst here
        rw [data, if_neg HeaderKey.noConfusion, if_pos rfl] at held
        cases held
        exact ⟨rfl, by rw [data, if_pos rfl]⟩
      · obtain ⟨was, low, ne⟩ := others _ other HeaderKey.noConfusion (fun same => here (HeaderKey.height.inj same)) held
        exact ⟨(settled.height _ _ was).1, stays _ other (settled.by_hash was) low ne⟩
    · intro hash other held
      by_cases here : hash = header.hash
      · subst here
        rw [data, if_pos rfl] at held
        cases held
        exact ⟨rfl, by rw [data, if_neg HeaderKey.noConfusion, if_pos rfl]⟩
      · obtain ⟨was, low, ne⟩ := others _ other (fun same => here (HeaderKey.hash.inj same)) HeaderKey.noConfusion held
        exact ⟨(settled.hash _ _ was).1, stays _ other (settled.by_height was) low ne⟩
    · intro hash
      rw [hashes, Option.isSome_iff_exists]
      by_cases here : hash = header.hash
      · subst here
        simp [data]
      · have keys : (HeaderKey.hash hash) ≠ .hash header.hash := fun same => here (HeaderKey.hash.inj same)
        rw [frees.hashes hash here]
        constructor
        · rintro (same | ⟨-, other, held, low⟩)
          · exact absurd same here
          · refine ⟨other, stays _ other held low ?_⟩
            rw [(settled.hash _ _ held).1]
            exact here
        · rintro ⟨other, held⟩
          obtain ⟨was, low, -⟩ := others _ other keys HeaderKey.noConfusion held
          exact .inr ⟨here, other, was, low⟩
  have evicted := @evictRounds_drops full expired full.headerHashes.length whole
  rw [set, ← placed]
  refine ⟨evicted.agrees whole, fun key other held => ?_⟩
  have there := evicted.held held
  by_cases hash : key = .hash header.hash
  · rw [data, if_pos hash] at there
    exact .inl (Option.some.inj there).symm
  · by_cases height : key = .height header.height
    · rw [data, if_neg hash, if_pos height] at there
      exact .inl (Option.some.inj there).symm
    · exact .inr (drops.held (others key other hash height there).1)

end
end BlockHeaderCache
end WalletToolbox
