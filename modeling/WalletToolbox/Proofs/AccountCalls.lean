import WalletToolbox.Proofs.SealedTokens

/-! The methods of the wallet manager, each run alone on an account. A method that asks
for factors gets those that the current token seals and leaves the account as it is; the
update publishes a token that seals the factors it was given. -/

namespace WalletToolbox
open Async Effects CWIStyleWalletManager

variable {W : Type}

/-- The world outside, with the tokens it has published and the recovery keys it was given to save. -/
structure AccountRecord (W : Type) where
  world : W
  published : List UMPToken
  saved : List Octets

def AccountRecord.note (record : AccountRecord W) (op : WalletManagerOp) (reply : op.Reply) : AccountRecord W :=
  match op, reply with
  | .buildAndSend _ token _, .ok outpoint =>
    { record with published := record.published ++ [{ token with currentOutpoint := some outpoint }] }
  | .recoveryKeySaver key, .ok _ => { record with saved := record.saved ++ [key] }
  | _, _ => record

def recording (world : Machine outsideManager W) : Machine outsideManager (AccountRecord W) := fun op record =>
  ((world op record.world).1, { record with world := (world op record.world).2 }.note op (world op record.world).1)

abbrev ManagerState (W : Type) := CWIStyleWalletManager × AccountRecord W

structure Unaffected (before after : ManagerState W) : Prop where
  token : after.1.currentUMPToken = before.1.currentUMPToken
  profiles : after.1.profiles = before.1.profiles
  published : after.2.published = before.2.published
  saved : after.2.saved = before.2.saved

theorem Unaffected.refl (state : ManagerState W) : Unaffected state state := ⟨rfl, rfl, rfl, rfl⟩

theorem Unaffected.trans (left : Unaffected first second) (right : Unaffected second third) :
    Unaffected first third :=
  ⟨right.token.trans left.token, right.profiles.trans left.profiles, right.published.trans left.published, right.saved.trans left.saved⟩

structure CWIStyleWalletManager.OpenTo (crypto : Cryptography) (factors : AuthFactors) (fields : CWIStyleWalletManager) : Prop where
  long : factors.Long
  token : ∃ token, fields.currentUMPToken = some token ∧ token.Seals crypto factors
  primary : fields.rootPrimaryKey = some factors.rootPrimaryKey
  keys : ∀ manager, fields.rootPrivilegedKeyManager = some manager → ∀ key,
    manager.retained = some key ∨ manager.oneTimePrivilegedKey = some key → key = crypto.privateKey factors.rootPrivilegedKey

section
variable {config : WalletManagerConfig} {world : Machine outsideManager W} {factors : AuthFactors} {α β : Type}

theorem CWIStyleWalletManager.OpenTo.same {crypto : Cryptography} {fields other : CWIStyleWalletManager} (opened : fields.OpenTo crypto factors)
    (token : other.currentUMPToken = fields.currentUMPToken) (primary : other.rootPrimaryKey = fields.rootPrimaryKey)
    (keys : other.rootPrivilegedKeyManager = fields.rootPrivilegedKeyManager) : other.OpenTo crypto factors :=
  ⟨opened.long, token ▸ opened.token, primary.trans opened.primary, keys ▸ opened.keys⟩

structure AccountKept (crypto : Cryptography) (world : Machine outsideManager W) (factors : AuthFactors) (program : WalletManagerM α)
    (post : α → Prop) : Prop where
  resolves : ∀ state : ManagerState W, state.1.OpenTo crypto factors →
    program.Resolves (recording world).withFields state fun value after =>
      after.1.OpenTo crypto factors ∧ Unaffected state after ∧ post value

variable {crypto : Cryptography} {post : α → Prop} {last : β → Prop}

namespace AccountKept

theorem done (holds : post value) : AccountKept crypto world factors (.done value) post :=
  ⟨fun state opened => .done ⟨opened, .refl state, holds⟩⟩

theorem ofExcept (holds : ∀ value, result = .ok value → post value) :
    AccountKept crypto world factors (.ofExcept result) post :=
  ⟨fun state opened => .ofExcept fun value ok => ⟨opened, .refl state, holds value ok⟩⟩

theorem ofAny (result : Except WalletManagerError α) : AccountKept crypto world factors (.ofExcept result) fun _ => True :=
  .ofExcept fun _ _ => trivial

theorem bind {program : WalletManagerM α} {next} (first : AccountKept crypto world factors program post)
    (rest : ∀ value, post value → AccountKept crypto world factors (next value) last) :
    AccountKept crypto world factors (program.bind next) last := by
  constructor
  intro state opened
  apply Program.Resolves.bind
  refine (first.resolves state opened).mono fun value middle ⟨still, same, holds⟩ => ?_
  refine ((rest value holds).resolves middle still).mono fun result after ⟨ends, more, reached⟩ => ?_
  exact ⟨ends, same.trans more, reached⟩

theorem seq {next : α → WalletManagerM β} {state last}
    (first : AccountKept crypto world factors program post) (opened : state.1.OpenTo crypto factors)
    (rest : ∀ value after, after.1.OpenTo crypto factors → Unaffected state after → post value →
      (next value).Resolves (recording world).withFields after last) :
    (program.bind next).Resolves (recording world).withFields state last := by
  apply Program.Resolves.bind
  refine (first.resolves state opened).mono fun value after ⟨still, same, holds⟩ => ?_
  exact rest value after still same holds

theorem rethrow (first : AccountKept crypto world factors program post)
    (wrap : WalletManagerError → WalletManagerError) : AccountKept crypto world factors (program.handle fun error => .fail (wrap error)) post :=
  ⟨fun state opened => (first.resolves state opened).rethrow wrap⟩

theorem await {op} (plain : ∀ (record : AccountRecord W) reply, record.note op reply = record) :
    AccountKept crypto world factors op.await fun _ => True := by
  constructor
  intro (fields, record) opened
  apply Program.Resolves.await
  apply Program.Resolves.done
  have noted : (recording world op record).2 = { record with world := (world op record.world).2 } := plain _ _
  have published : (recording world op record).2.published = record.published := by rw [noted]
  have saved : (recording world op record).2.saved = record.saved := by rw [noted]
  exact ⟨opened, ⟨rfl, rfl, published, saved⟩, trivial⟩

theorem enter (leaves : ∀ fields after, fields.OpenTo crypto factors → body fields = (.ok (), after) →
      after.OpenTo crypto factors ∧ after.currentUMPToken = fields.currentUMPToken ∧ after.profiles = fields.profiles) :
    AccountKept crypto world factors (Program.enter body) fun fields => fields.OpenTo crypto factors := by
  constructor
  intro (fields, record) opened
  apply Program.Resolves.enter
  intro after ran
  obtain ⟨still, token, profiles⟩ := leaves fields after opened ran
  exact ⟨still, ⟨token, profiles, rfl, rfl⟩, opened⟩

theorem look (looks : ∀ fields after, body fields = (.ok (), after) → after = fields) :
    AccountKept crypto world factors (Program.enter body) fun fields => fields.OpenTo crypto factors := by
  apply enter
  intro fields after opened ran
  rw [looks fields after ran]
  exact ⟨opened, rfl, rfl⟩

theorem change {f}
    (leaves : ∀ fields, fields.OpenTo crypto factors → (f fields).OpenTo crypto factors)
    (token : ∀ fields, (f fields).currentUMPToken = fields.currentUMPToken) (profiles : ∀ fields, (f fields).profiles = fields.profiles) :
    AccountKept crypto world factors (Program.enter (Fallible.change f)) fun fields => fields.OpenTo crypto factors := by
  apply enter
  intro fields after opened ran
  obtain ⟨-, rfl⟩ := Prod.mk.inj ran
  exact ⟨leaves fields opened, token fields, profiles fields⟩

theorem read : AccountKept crypto world factors CWIStyleWalletManager.read fun fields => fields.OpenTo crypto factors := by
  apply look
  intro fields after ran
  exact ((Prod.mk.inj ran).2).symm

theorem resolved (holds : ∀ result, value = .ok result → post result) :
    AccountKept crypto world factors (CWIStyleWalletManager.resolved value) post :=
  read.bind fun _ _ => ofExcept holds

theorem resolvedAny (value : Except WalletManagerError α) :
    AccountKept crypto world factors (CWIStyleWalletManager.resolved value) fun _ => True :=
  .resolved fun _ _ => trivial

end AccountKept

theorem throwing_ok
    (ran : throwing result fields = (.ok value, after)) : result = .ok value ∧ after = fields := by
  cases result with
  | ok other =>
    obtain ⟨same, rfl⟩ := Prod.mk.inj ran
    exact ⟨same, rfl⟩
  | error error => cases (Prod.mk.inj ran).1

theorem present_ok (is : present value = .ok found) : value = some found := by
  cases value with
  | none => cases is
  | some other => rw [Except.ok.inj is]

theorem CWIStyleWalletManager.OpenTo.askKeyGetter (opened : fields.OpenTo crypto factors) (kept : Bool) :
    (askKeyGetter kept fields).OpenTo crypto factors := by
  refine ⟨opened.long, opened.token, opened.primary, fun manager is key holds => ?_⟩
  obtain ⟨before, was, rfl⟩ := Option.map_eq_some_iff.mp is
  apply opened.keys before was key
  split at holds
  · exact holds
  · exact holds.imp_right fun none => nomatch none

theorem CWIStyleWalletManager.OpenTo.retainKey (opened : fields.OpenTo crypto factors) (number : Nat) :
    (retainKey number (crypto.privateKey factors.rootPrivilegedKey) fields).OpenTo crypto factors := by
  refine ⟨opened.long, opened.token, opened.primary, fun manager is key holds => ?_⟩
  obtain ⟨before, was, rfl⟩ := Option.map_eq_some_iff.mp is
  split at holds
  · obtain retained | once := holds
    · exact (Option.some.inj retained).symm
    · exact opened.keys before was key (.inr once)
  · exact opened.keys before was key holds

theorem privilegedKeyFromPassword_kept (sound : config.crypto.Sound) (reason : String) :
    AccountKept config.crypto world factors (privilegedKeyFromPassword config reason)
      fun key => key = config.crypto.privateKey factors.rootPrivilegedKey := by
  refine (AccountKept.await (fun _ _ => rfl)).bind fun reply _ => ?_
  refine (AccountKept.ofAny _).bind fun password _ => ?_
  refine AccountKept.read.bind fun _ _ => ?_
  refine (AccountKept.ofAny _).bind fun _ _ => ?_
  refine (AccountKept.resolvedAny _).bind fun derived _ => ?_
  refine AccountKept.read.bind fun fields opened => ?_
  refine (AccountKept.ofExcept fun _ => present_ok).bind fun primary isPrimary => ?_
  refine (AccountKept.ofExcept fun _ => present_ok).bind fun token isToken => ?_
  refine (AccountKept.ofExcept fun _ ok => ok).bind fun decryptor xored => ?_
  refine (AccountKept.ofExcept fun _ ok => ok).bind fun privileged decrypted => ?_
  apply AccountKept.done
  obtain ⟨current, isCurrent, seals⟩ := opened.token
  cases isToken.symm.trans isCurrent
  cases isPrimary.symm.trans opened.primary
  obtain ⟨_, sealed⟩ := seals.passwordPrivileged
  obtain ⟨lengths, rfl⟩ := xorBytes_ok xored
  have long := length_xor opened.long.primary (opened.long.keys .passwordKey)
  have derivedLong := length_xor opened.long.primary (lengths.symm.trans opened.long.primary)
  rw [sealed] at decrypted
  obtain ⟨-, rfl⟩ := Cryptography.decryptOrThrow_ok sound long derivedLong decrypted
  rfl

theorem keyGetter_kept (sound : config.crypto.Sound) (reason : String)
    (once : ∀ key, manager.oneTimePrivilegedKey = some key → key = config.crypto.privateKey factors.rootPrivilegedKey) :
    AccountKept config.crypto world factors (keyGetter config manager reason)
      fun key => key = config.crypto.privateKey factors.rootPrivilegedKey := by
  unfold keyGetter
  split
  next key is => exact .done (once key is)
  next => exact privilegedKeyFromPassword_kept sound reason

theorem getPrivilegedKey_kept (sound : config.crypto.Sound) (reason : String) :
    AccountKept config.crypto world factors (getPrivilegedKey config reason)
      fun key => key = config.crypto.privateKey factors.rootPrivilegedKey := by
  refine (AccountKept.await (fun _ _ => rfl)).bind fun kept _ => ?_
  refine (AccountKept.change (fun _ opened => opened.askKeyGetter kept) (fun _ => rfl) fun _ => rfl).bind fun fields opened => ?_
  refine (AccountKept.ofExcept fun _ => present_ok).bind fun manager is => ?_
  cases found : (if kept = true then manager.retained else none) with
  | some key =>
    apply AccountKept.done
    apply opened.keys manager is
    split at found
    · exact .inl found
    · cases found
  | none =>
    refine (keyGetter_kept sound reason fun key once => opened.keys manager is key (.inr once)).bind fun key same => ?_
    subst same
    refine (AccountKept.change (fun _ opened => opened.retainKey manager.number) (fun _ => rfl) fun _ => rfl).bind fun _ _ => ?_
    exact .done rfl

theorem factorReady_kept (factor : String) :
    AccountKept crypto world factors (factorReady factor) fun fields => fields.OpenTo crypto factors := by
  apply AccountKept.look
  intro fields after ran
  rw [Fallible.current_bind_apply] at ran
  exact (Fallible.require_ok ran).2

theorem getFactor_kept (sound : config.crypto.Sound) (factor : Factor) :
    AccountKept config.crypto world factors (getFactor config factor) fun key => key = factors.key factor := by
  refine (factorReady_kept factor.text).bind fun fields opened => ?_
  apply AccountKept.rethrow
  refine (AccountKept.ofExcept fun _ => present_ok).bind fun token is => ?_
  refine (getPrivilegedKey_kept sound "").bind fun privilegedKey isKey => ?_
  apply AccountKept.ofExcept
  intro plaintext unwrapped
  obtain ⟨current, isCurrent, seals⟩ := opened.token
  cases is.symm.trans isCurrent
  obtain ⟨_, wrapped⟩ := seals.wrapped factor
  rw [isKey, unwrapOrThrow, wrapped, sound.unwrap_wrap] at unwrapped
  exact (Except.ok.inj unwrapped).symm

theorem getRootPrivilegedKey_kept (sound : config.crypto.Sound) :
    AccountKept config.crypto world factors (getRootPrivilegedKey config)
      fun bytes => config.crypto.privateKey bytes = config.crypto.privateKey factors.rootPrivilegedKey := by
  refine (factorReady_kept _).bind fun fields opened => ?_
  apply AccountKept.rethrow
  refine (getPrivilegedKey_kept sound _).bind fun privilegedKey isKey => ?_
  apply AccountKept.done
  rw [isKey, sound.key_of_bytes]

theorem chooseProfile_kept (choose : CWIStyleWalletManager → Octets) :
    AccountKept crypto world factors (Program.enter (chooseProfile choose)) fun fields => fields.OpenTo crypto factors := by
  apply AccountKept.enter
  intro fields after opened ran
  rw [chooseProfile, Fallible.current_bind_apply] at ran
  obtain ⟨-, rest⟩ := Fallible.require_bind_ok ran
  obtain ⟨wallet, middle, thrown, chosen⟩ := Fallible.bind_ok rest
  obtain ⟨-, rfl⟩ := throwing_ok thrown
  obtain ⟨-, rfl⟩ := Prod.mk.inj chosen
  exact ⟨⟨opened.long, opened.token, opened.primary, opened.keys⟩, rfl, rfl⟩

theorem switchTo_kept (choose : CWIStyleWalletManager → Octets) :
    AccountKept crypto world factors (switchTo choose) fun _ => True := by
  refine (chooseProfile_kept choose).bind fun _ _ => ?_
  refine (AccountKept.ofAny _).bind fun wallet _ => ?_
  refine (AccountKept.await (fun _ _ => rfl)).bind fun built _ => ?_
  refine (AccountKept.ofAny _).bind fun _ _ => ?_
  have placed : AccountKept crypto world factors (Program.enter (Fallible.change fun fields => { fields with underlying := some wallet }))
      fun fields : CWIStyleWalletManager => fields.OpenTo crypto factors :=
    AccountKept.change (fun _ opened => ⟨opened.long, opened.token, opened.primary, opened.keys⟩) (fun _ => rfl) fun _ => rfl
  exact placed.bind fun _ _ => .done trivial

structure TokenUpdated (crypto : Cryptography) (factors : AuthFactors) (before after : ManagerState W) : Prop where
  opened : after.1.OpenTo crypto factors
  published : ∃ token, after.1.currentUMPToken = some token ∧ after.2.published = before.2.published ++ [token] ∧
    ∀ old, before.1.currentUMPToken = some old → token.passwordKdf = old.passwordKdf
  profiles : after.1.profiles = before.1.profiles
  saved : after.2.saved = before.2.saved

theorem TokenUpdated.after {before middle after : ManagerState W} (updated : TokenUpdated crypto factors middle after) (same : Unaffected before middle) :
    TokenUpdated crypto factors before after := by
  obtain ⟨token, current, published, kdf⟩ := updated.published
  refine ⟨updated.opened, ⟨token, current, ?_, ?_⟩, updated.profiles.trans same.profiles, updated.saved.trans same.saved⟩
  · rw [published, same.published]
  · intro old was
    exact kdf old (same.token.trans was)

theorem TokenUpdated.kept {before middle after : ManagerState W} (updated : TokenUpdated crypto factors before middle)
    (opened : after.1.OpenTo crypto factors) (same : Unaffected middle after) : TokenUpdated crypto factors before after := by
  obtain ⟨token, current, published, kdf⟩ := updated.published
  refine ⟨opened, ⟨token, ?_, ?_, kdf⟩, same.profiles.trans updated.profiles, same.saved.trans updated.saved⟩
  · rw [same.token, current]
  · rw [same.published, published]

theorem publishToken_updates (wallet : ProfileWallet)
    (opened : state.1.OpenTo crypto old) (long : factors.Long) (seals : newToken.Seals crypto factors)
    (primary : factors.rootPrimaryKey = old.rootPrimaryKey)
    (privileged : crypto.privateKey factors.rootPrivilegedKey = crypto.privateKey old.rootPrivilegedKey)
    (kdf : ∀ token, state.1.currentUMPToken = some token → newToken.passwordKdf = token.passwordKdf) :
    (publishToken wallet newToken oldToken).Resolves (recording world).withFields state fun _ after => TokenUpdated crypto factors state after := by
  obtain ⟨fields, record⟩ := state
  apply Program.Resolves.bind
  apply Program.Resolves.await
  apply Program.Resolves.done
  apply Program.Resolves.bind
  apply Program.Resolves.ofExcept
  intro outpoint sent
  apply Program.Resolves.bind
  apply Program.Resolves.enter
  intro after ran
  obtain ⟨-, rfl⟩ := Prod.mk.inj ran
  apply Program.Resolves.done
  have noted : (recording world (.buildAndSend wallet newToken (some oldToken)) record).2 =
      { record with
        world := (world (.buildAndSend wallet newToken (some oldToken)) record.world).2
        published := record.published ++ [{ newToken with currentOutpoint := some outpoint }] } := by
    have reply : (world (.buildAndSend wallet newToken (some oldToken)) record.world).1 = .ok outpoint := sent
    rw [recording, reply]
    rfl
  have published : (recording world (.buildAndSend wallet newToken (some oldToken)) record).2.published =
      record.published ++ [{ newToken with currentOutpoint := some outpoint }] := by rw [noted]
  have saved : (recording world (.buildAndSend wallet newToken (some oldToken)) record).2.saved = record.saved := by rw [noted]
  refine ⟨⟨long, ⟨_, rfl, seals.published _⟩, ?_, ?_⟩, ⟨_, rfl, published, kdf⟩, rfl, saved⟩
  · exact opened.primary.trans (congrArg some primary.symm)
  · intro manager is key holds
    rw [privileged]
    exact opened.keys manager is key holds

theorem startUpdate_ok (ran : startUpdate fields = (.ok (), after)) :
    after = { fields with draws := fields.draws + sealDraws } := by
  rw [startUpdate, Fallible.current_bind_apply] at ran
  obtain ⟨-, outpoint⟩ := Fallible.require_bind_ok ran
  obtain ⟨-, drawn⟩ := Fallible.require_bind_ok outpoint
  exact ((Prod.mk.inj drawn).2).symm

theorem updateAuthFactors_updates (sound : config.crypto.Sound) {state : ManagerState W} {old : AuthFactors}
    (opened : state.1.OpenTo config.crypto old) (primary : factors.rootPrimaryKey = old.rootPrimaryKey)
    (privileged : config.crypto.privateKey factors.rootPrivilegedKey = config.crypto.privateKey old.rootPrivilegedKey) :
    (updateAuthFactors config factors).Resolves (recording world).withFields state fun _ after =>
      TokenUpdated config.crypto factors state after := by
  obtain ⟨fields, record⟩ := state
  apply Program.Resolves.bind
  apply Program.Resolves.enter
  intro started ran
  have drawn := startUpdate_ok ran
  have stillOpen : started.OpenTo config.crypto old := drawn ▸ ⟨opened.long, opened.token, opened.primary, opened.keys⟩
  have same : Unaffected (fields, record) (started, record) := drawn ▸ ⟨rfl, rfl, rfl, rfl⟩
  apply Program.Resolves.bind
  apply Program.Resolves.ofExcept
  intro oldToken isOld
  apply Program.Resolves.bind
  apply Program.Resolves.ofExcept
  intro newToken made
  obtain ⟨seals, kdf, -, long⟩ := Cryptography.sealToken_seals sound made
  replace long := long (primary ▸ opened.long.primary)
  -- Publishing, wherever it happens.
  have publishes : ∀ (wallet : ProfileWallet) (middle : ManagerState W), middle.1.OpenTo config.crypto old → Unaffected (fields, record) middle →
      (publishToken wallet newToken oldToken).Resolves (recording world).withFields middle fun _ after =>
        TokenUpdated config.crypto factors (fields, record) after := by
    intro wallet middle open' affected
    have current : middle.1.currentUMPToken = some oldToken := affected.token.trans (present_ok isOld)
    refine (publishToken_updates wallet open' long seals primary privileged fun token is => ?_).mono fun _ after updated => updated.after affected
    cases current.symm.trans is
    exact kdf
  refine (AccountKept.resolvedAny _).seq stillOpen fun _ _ open1 same1 _ => ?_
  refine (AccountKept.resolvedAny _).seq open1 fun _ _ open2 same2 _ => ?_
  refine (AccountKept.resolvedAny _).seq open2 fun _ _ open3 same3 _ => ?_
  refine AccountKept.read.seq open3 fun here middle open4 same4 _ => ?_
  have affected : Unaffected (fields, record) middle := ((((same.trans same1).trans same2).trans same3).trans same4)
  split
  · split
    · exact .fail _
    · exact publishes _ _ open4 affected
  · refine (switchTo_kept _).seq open4 fun _ _ open5 same5 _ => ?_
    refine AccountKept.read.seq open5 fun default middle open6 same6 _ => ?_
    split
    · exact .fail _
    · apply Program.Resolves.ensuring
      refine (publishes _ _ open6 ((affected.trans same5).trans same6)).mono fun _ published updated => ?_
      refine ((switchTo_kept _).resolves published updated.opened).mono fun _ after ⟨open7, same7, _⟩ => ?_
      exact updated.kept open7 same7

end
end WalletToolbox
