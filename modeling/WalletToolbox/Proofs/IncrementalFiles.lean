import WalletToolbox.Proofs.BulkChains

/-! Headers moved to a bulk file: their bytes are written as they were read, and pass the check of such a file. -/

namespace WalletToolbox.Chaintracks

theorem hexValue_hexDigit : ∀ value < 16, hexValue (hexDigit value) = some value := by decide

def digitsOf (bytes : Bytes) : List Nat := bytes.flatMap fun byte => [byte.toNat / 16, byte.toNat % 16]

theorem pairs_digitsOf (bytes : Bytes) : pairs (digitsOf bytes) = bytes := by
  induction bytes with
  | nil => rfl
  | cons byte bytes ih =>
    have whole : 16 * (byte.toNat / 16) + byte.toNat % 16 = byte.toNat := Nat.div_add_mod ..
    show UInt8.ofNat _ :: pairs (digitsOf bytes) = _
    rw [whole, UInt8.ofNat_toNat, ih]

theorem asArray_asString (bytes : Bytes) : asArray (asString bytes) = some bytes := by
  have digits : (asString bytes).toList.mapM hexValue = some (digitsOf bytes) := by
    rw [asString, String.toList_ofList]
    induction bytes with
    | nil => rfl
    | cons byte bytes ih =>
      have high := hexValue_hexDigit (byte.toNat / 16) (Nat.div_lt_of_lt_mul byte.toNat_lt)
      have low := hexValue_hexDigit (byte.toNat % 16) (Nat.mod_lt _ (by decide))
      simp [ih, high, low, digitsOf]
  have even : (digitsOf bytes).length % 2 = 0 := by simp [digitsOf]
  simp [asArray, digits, even, pairs_digitsOf]

theorem writeUInt32LE_readUInt32LE (long : 4 ≤ data.length) : writeUInt32LE (readUInt32LE data) = data.take 4 := by
  rcases data with _ | ⟨one, _ | ⟨two, _ | ⟨three, _ | ⟨four, rest⟩⟩⟩⟩
  iterate 4 simp at long
  have bound := one.toNat_lt
  have bound' := two.toNat_lt
  have bound'' := three.toNat_lt
  have bound''' := four.toNat_lt
  simp only [readUInt32LE, writeUInt32LE, List.take_succ_cons, List.take_zero, List.foldr_cons, List.foldr_nil, List.cons.injEq, and_true,
    ← UInt8.toNat_inj, UInt8.toNat_ofNat']
  omega

theorem serialize_deserialize (whole : data.length = 80) :
    serializeBaseBlockHeader (deserializeBaseBlockHeader data) = some data := by
  have parts : data.take (4 + 32 + 32 + 4 + 4 + 4) = data := List.take_of_length_le whole.le
  simp only [List.take_add] at parts
  simp only [serializeBaseBlockHeader, deserializeBaseBlockHeader, hashPrev, asArray_asString, Option.bind_eq_bind, Option.bind_some,
    List.reverse_reverse]
  iterate 4 rw [writeUInt32LE_readUInt32LE (by simp [whole])]
  exact congrArg some parts

namespace Bulk
variable {world : World} {headers : List BlockHeader} {stored : List Bytes} {lbf : BulkFileData} {file : BulkHeaderFileInfo}

variable (world) in
/-- A header as it is read from its bytes. -/
structure KeptAs (header : BlockHeader) (data : Bytes) : Prop where
  whole : data.length = 80
  fields : header.toBaseBlockHeader = deserializeBaseBlockHeader data
  hash : header.hash = world.blockHash data

theorem writeHeaders_keptAs (read : List.Forall₂ (KeptAs world) headers stored) (front rest : Bytes)
    (room : rest.length = headers.length * 80) : writeHeaders front.length headers (front ++ rest) = some (front ++ stored.flatten) := by
  induction read generalizing front rest with
  | nil =>
    obtain rfl := List.eq_nil_of_length_eq_zero (room.trans (Nat.zero_mul _))
    rfl
  | @cons header data headers _ here _ ih =>
    rw [List.length_cons] at room
    have fits : ¬(front ++ rest).length < front.length + 80 := by
      rw [List.length_append]
      omega
    have next := ih (front ++ data) (rest.drop 80) (by rw [List.length_drop]; omega)
    rw [List.length_append, here.whole] at next
    simp only [writeHeaders, here.fields, serialize_deserialize here.whole, Option.bind_eq_bind, Option.bind_some, here.whole, if_neg fits]
    rw [List.take_left, List.drop_append, List.drop_of_length_le (Nat.le_add_right ..), Nat.add_sub_cancel_left, List.nil_append, next,
      List.flatten_cons, List.append_assoc]

theorem validates_keptAs (read : List.Forall₂ (KeptAs world) headers stored)
    (clean : ∀ data ∈ stored, dirtyHashes.lookup (world.blockHash data) = none)
    (sums : computeChainWorkFromHeaders headers height start work = .ok total) (i : Nat) :
    validateBufferOfHeaders world headers.length i stored.flatten start (some work) =
      .ok ((headers.getLast?.map (·.hash)).getD start, some total) := by
  induction read generalizing height start work i with
  | nil =>
    cases sums
    rfl
  | @cons header data headers _ here _ ih =>
    rw [computeChainWorkFromHeaders] at sums
    split at sums
    · cases sums
    next follows =>
      have previous : hashPrev data = header.previousHash := by
        rw [here.fields]
        rfl
      have bits : (deserializeBaseBlockHeader data).bits = header.bits := by rw [here.fields]
      have later := ih (fun data among => clean data (.tail _ among)) sums (i + 1)
      have plain : dirtyHashes.lookup header.hash = none := here.hash ▸ clean data (.head _)
      obtain ⟨-, same⟩ := not_or.mp follows
      rw [List.length_cons, List.flatten_cons, validateBufferOfHeaders, List.take_left' here.whole, List.drop_left' here.whole]
      simp only [here.whole, Nat.lt_irrefl, if_false, previous, ← not_not.mp same, ne_eq, not_true_eq_false, ← here.hash, plain, bits,
        Option.map_some, later, List.getLast?_cons]
      cases headers.getLast? <;> rfl

/-- The file of such headers holds their bytes, and the check of its data comes to the last hash and the chain work that it states. -/
theorem incrementalFile_validates (read : List.Forall₂ (KeptAs world) headers stored)
    (clean : ∀ data ∈ stored, dirtyHashes.lookup (world.blockHash data) = none) (recorded : lbf.lastChainWork = some work)
    (made : incrementalFile world chain headers none lbf = .ok file) :
    file.data = some stored.flatten ∧ file.fileHash = some (world.fileHash stored.flatten) ∧ ∃ last, file.lastHash = some last ∧
      validateBufferOfHeaders world file.count 0 stored.flatten file.prevHash file.prevChainWork = .ok (last, file.lastChainWork) := by
  have bytes : serializeBaseBlockHeaders headers = some stored.flatten := writeHeaders_keptAs read [] _ List.length_replicate
  unfold incrementalFile at made
  split at made
  next first last lastHash _ ends _ =>
    obtain ⟨total, sums, made⟩ := Effects.bind_eq_ok.mp made
    simp only [recorded, Option.getD_some] at sums
    rw [bytes] at made
    cases made
    refine ⟨rfl, rfl, last.hash, rfl, ?_⟩
    rw [recorded, validates_keptAs read clean sums, ends]
    rfl
  · cases made

/-- The second header, after a file of the first. -/
theorem incrementalFile_validates_sample :
    let file := incrementalFile sampleWorld .main [⟨deserializeBaseBlockHeader secondHeader, 1, secondHash⟩] none (firstFile.record "" 0)
    ∃ made, file = .ok made ∧ made.data = some secondHeader := by
  intro file
  obtain ⟨made, same⟩ : ∃ made, file = .ok made := ⟨_, rfl⟩
  have validates := incrementalFile_validates (.cons ⟨rfl, rfl, by decide +kernel⟩ .nil) (by decide +kernel) rfl same
  exact ⟨made, same, validates.1⟩

end Bulk
end WalletToolbox.Chaintracks
