import WalletToolbox.Proofs.AccountCalls

/-! The life of an account: it is registered or found, and its factors and profiles are
changed by calls that complete, one after the other. After each of them the token that
was published last opens with every two current factors. A token without KDF metadata
keeps none when the password is changed, but the new key is derived as the manager's own
configuration says; so such a password opens the account only where the two agree. -/

namespace WalletToolbox
open Async Effects CWIStyleWalletManager AccountKept
open Fallible (bind_ok current_bind_apply require_bind_ok require_ok)

variable {W : Type}

inductive AccountCall where
  | changePassword (newPassword : Octets)
  | changeRecoveryKey
  | changePresentationKey (newPresentationKey : Octets)
  | addProfile (name : String)
  | deleteProfile (profileId : Octets)

namespace AccountCall

def program (config : WalletManagerConfig) : AccountCall → WalletManagerM Unit
  | .changePassword newPassword => CWIStyleWalletManager.changePassword config newPassword
  | .changeRecoveryKey => CWIStyleWalletManager.changeRecoveryKey config
  | .changePresentationKey newPresentationKey => CWIStyleWalletManager.changePresentationKey config newPresentationKey
  | .addProfile name => (CWIStyleWalletManager.addProfile config name).bind fun _ => .done ()
  | .deleteProfile profileId => CWIStyleWalletManager.deleteProfile config profileId

/-- The account as the user knows it once the call has completed. -/
def effect (config : WalletManagerConfig) (before after : ManagerState W) (account : Account) : AccountCall → Account
  | .changePassword newPassword => { account with password := newPassword }
  | .changeRecoveryKey => { account with recoveryKey := after.2.saved.getLastD [] }
  | .changePresentationKey newPresentationKey => { account with presentationKey := newPresentationKey }
  | .addProfile name => { account with profiles := account.profiles ++ [newProfile config before.1 name] }
  | .deleteProfile profileId => { account with profiles := removeProfile account.profiles profileId }

def KeepsKdf (config : WalletManagerConfig) (fields : CWIStyleWalletManager) : AccountCall → Prop
  | .changePassword _ => ∀ token, fields.currentUMPToken = some token → token.passwordKdf = none →
    config.kdfConfig.algorithm = .pbkdf2Sha512 ∧ config.kdfConfig.iterations.getD PBKDF2_NUM_ROUNDS = PBKDF2_NUM_ROUNDS
  | _ => True

end AccountCall

structure LoggedIn (crypto : Cryptography) (account : Account) (state : ManagerState W) : Prop where
  factors : ∃ factors token, state.1.OpenTo crypto factors ∧ state.1.currentUMPToken = some token ∧
    state.2.published.getLast? = some token ∧ account.HasFactors crypto token factors
  profiles : state.1.profiles = account.profiles

section
variable {config : WalletManagerConfig} {world : Machine outsideManager W} {account : Account} {state after : ManagerState W}
  {factors : AuthFactors} {α : Type} {last : α → ManagerState W → Prop}

theorem resolves_enter {body : SectionM Unit} {next}
    (rest : ∀ fields, body state.1 = (.ok (), fields) → (next state.1).Resolves (recording world).withFields (fields, state.2) last) :
    ((Program.enter body).bind next).Resolves (recording world).withFields state last := by
  obtain ⟨fields, record⟩ := state
  apply Program.Resolves.bind
  apply Program.Resolves.enter
  exact rest

theorem resolves_read {next}
    (rest : (next state.1).Resolves (recording world).withFields state last) :
    (CWIStyleWalletManager.read.bind next).Resolves (recording world).withFields state last := by
  apply resolves_enter
  intro fields ran
  obtain ⟨-, rfl⟩ := Prod.mk.inj ran
  exact rest

theorem resolves_await {op : WalletManagerOp} {next}
    (rest : (next (recording world op state.2).1).Resolves (recording world).withFields (state.1, (recording world op state.2).2) last) :
    (op.await.bind next).Resolves (recording world).withFields state last := rest

theorem TokenUpdated.loggedIn (updated : TokenUpdated config.crypto factors state after)
    (current : state.1.currentUMPToken = some oldToken)
    (passwordKey : config.crypto.derivePasswordKey factors.passwordSalt oldToken.passwordKdf account.password = .ok factors.passwordKey)
    (presentationKey : factors.presentationKey = account.presentationKey) (recoveryKey : factors.recoveryKey = account.recoveryKey)
    (primary : factors.rootPrimaryKey = account.rootPrimaryKey)
    (privileged : config.crypto.privateKey factors.rootPrivilegedKey = account.rootPrivilegedKey)
    (profiles : factors.profiles = account.profiles) (kept : state.1.profiles = account.profiles) :
    LoggedIn config.crypto account after := by
  obtain ⟨token, is, published, kdf⟩ := updated.published
  obtain ⟨sealed, isSealed, seals⟩ := updated.opened.token
  cases is.symm.trans isSealed
  refine ⟨⟨factors, token, updated.opened, is, ?_, ?_⟩, updated.profiles.trans kept⟩
  · rw [published]
    exact List.getLast?_concat
  · refine ⟨updated.opened.long, seals, ?_, presentationKey, recoveryKey, primary, privileged, profiles⟩
    rw [seals.salt, kdf oldToken current]
    exact passwordKey

theorem updateProfiles_loggedIn (sound : config.crypto.Sound) (opened : state.1.OpenTo config.crypto factors)
    (current : state.1.currentUMPToken = some token) (has : account.HasFactors config.crypto token factors) :
    (updateProfiles config token.passwordSalt).Resolves (recording world).withFields state fun _ after =>
      LoggedIn config.crypto { account with profiles := state.1.profiles } after := by
  refine (getFactor_kept sound .passwordKey).seq opened fun passwordKey _ open1 same1 isPassword => ?_
  refine (getFactor_kept sound .presentationKey).seq open1 fun presentationKey _ open2 same2 isPresentation => ?_
  refine (getFactor_kept sound .recoveryKey).seq open2 fun recoveryKey _ open3 same3 isRecovery => ?_
  refine AccountKept.read.seq open3 fun here _ open4 same4 openHere => ?_
  refine (ofExcept fun _ => present_ok).seq open4 fun primary _ open5 same5 isPrimary => ?_
  refine (getRootPrivilegedKey_kept sound).seq open5 fun privileged middle open6 same6 isPrivileged => ?_
  apply resolves_read
  cases isPrimary.symm.trans openHere.primary
  have affected := ((((same1.trans same2).trans same3).trans same4).trans same5).trans same6
  refine Program.Resolves.mono (updateAuthFactors_updates sound open6 rfl isPrivileged) fun _ after updated => ?_
  refine updated.loggedIn (affected.token.trans current) ?_ ?_ ?_ has.primary ?_ ?_ ?_
  · rw [isPassword]
    exact has.passwordKey
  · rw [isPresentation]
    exact has.presentationKey
  · rw [isRecovery]
    exact has.recoveryKey
  · exact isPrivileged.trans has.privileged
  · exact affected.profiles
  · exact affected.profiles

section
variable (sound : config.crypto.Sound) (loggedIn : LoggedIn config.crypto account state)
include sound loggedIn

theorem addProfile_loggedIn (name : String) :
    (CWIStyleWalletManager.addProfile config name).Resolves (recording world).withFields state fun _ after =>
      LoggedIn config.crypto { account with profiles := account.profiles ++ [newProfile config state.1 name] } after := by
  obtain ⟨factors, token, opened, current, -, has⟩ := loggedIn.factors
  apply resolves_enter
  intro fields ran
  rw [current_bind_apply] at ran
  obtain ⟨-, fresh⟩ := require_bind_ok ran
  obtain ⟨-, added⟩ := require_bind_ok fresh
  have is := ((Prod.mk.inj added).2).symm
  have token' : fields.currentUMPToken = state.1.currentUMPToken := by rw [is]
  have profiles : fields.profiles = account.profiles ++ [newProfile config state.1 name] := by rw [is, ← loggedIn.profiles]
  apply Program.Resolves.bind
  apply Program.Resolves.ofExcept
  intro found isFound
  cases (present_ok isFound).symm.trans current
  apply Program.Resolves.bind
  have stillOpen := opened.same token' (by rw [is]) (by rw [is])
  refine Program.Resolves.mono (updateProfiles_loggedIn sound stillOpen (token'.trans current) has) fun _ after ends => ?_
  apply Program.Resolves.done
  rw [← profiles]
  exact ends

theorem deleteProfile_loggedIn (profileId) :
    (CWIStyleWalletManager.deleteProfile config profileId).Resolves (recording world).withFields state fun _ after =>
      LoggedIn config.crypto { account with profiles := removeProfile account.profiles profileId } after := by
  obtain ⟨factors, token, opened, current, -, has⟩ := loggedIn.factors
  apply resolves_enter
  intro fields ran
  rw [current_bind_apply] at ran
  obtain ⟨-, notDefault⟩ := require_bind_ok ran
  obtain ⟨-, found⟩ := require_bind_ok notDefault
  obtain ⟨-, removed⟩ := require_bind_ok found
  have is : fields = _ := ((Prod.mk.inj removed).2).symm
  have sameToken : fields.currentUMPToken = some token := by rw [is, ← current]
  have profiles : fields.profiles = removeProfile account.profiles profileId := by rw [is, ← loggedIn.profiles]
  have stillOpen : fields.OpenTo config.crypto factors := opened.same (by rw [is]) (by rw [is]) (by rw [is])
  rw [← profiles]
  -- The update, once the wallet of the active profile is built.
  have updates : ∀ middle : ManagerState W, middle.1.OpenTo config.crypto factors → Unaffected (fields, state.2) middle →
      (CWIStyleWalletManager.read.bind fun here => (Program.ofExcept (present here.currentUMPToken)).bind fun token =>
        updateProfiles config token.passwordSalt).Resolves (recording world).withFields middle fun _ after =>
          LoggedIn config.crypto { account with profiles := fields.profiles } after := by
    intro middle opened affected
    apply resolves_read
    apply Program.Resolves.bind
    apply Program.Resolves.ofExcept
    intro found isFound
    cases (present_ok isFound).symm.trans (affected.token.trans sameToken)
    rw [← show middle.1.profiles = fields.profiles from affected.profiles]
    exact updateProfiles_loggedIn sound opened (affected.token.trans sameToken) has
  split
  · refine (switchTo_kept _).seq stillOpen fun _ middle opened affected _ => ?_
    exact updates middle opened affected
  · exact updates _ stillOpen (.refl _)

theorem changePassword_loggedIn (newPassword : Octets)
    (keepsKdf : AccountCall.KeepsKdf config state.1 (.changePassword newPassword)) :
    (CWIStyleWalletManager.changePassword config newPassword).Resolves (recording world).withFields state fun _ after =>
      LoggedIn config.crypto { account with password := newPassword } after := by
  obtain ⟨factors, token, opened, current, -, has⟩ := loggedIn.factors
  apply resolves_enter
  intro fields ran
  rw [current_bind_apply] at ran
  obtain ⟨-, drawn⟩ := require_bind_ok ran
  have is : fields = _ := ((Prod.mk.inj drawn).2).symm
  have stillOpen : fields.OpenTo config.crypto factors := opened.same (by rw [is]) (by rw [is]) (by rw [is])
  have same : Unaffected state (fields, state.2) := ⟨by rw [is], by rw [is], rfl, rfl⟩
  apply Program.Resolves.bind
  apply Program.Resolves.ofExcept
  intro found isFound
  cases (present_ok isFound).symm.trans current
  refine (AccountKept.resolved fun _ ok => ok).seq stillOpen fun passwordKey _ open1 same1 derived => ?_
  refine (getFactor_kept sound .recoveryKey).seq open1 fun recoveryKey _ open2 same2 isRecovery => ?_
  refine (getFactor_kept sound .presentationKey).seq open2 fun presentationKey _ open3 same3 isPresentation => ?_
  refine (getRootPrivilegedKey_kept sound).seq open3 fun privileged middle open4 same4 isPrivileged => ?_
  have affected : Unaffected state middle := (((same.trans same1).trans same2).trans same3).trans same4
  apply resolves_read
  apply Program.Resolves.bind
  apply Program.Resolves.ofExcept
  intro primary isPrimary
  cases (present_ok isPrimary).symm.trans open4.primary
  refine Program.Resolves.mono (updateAuthFactors_updates sound open4 rfl isPrivileged) fun _ after updated => ?_
  refine updated.loggedIn (affected.token.trans current) ?_ ?_ ?_ has.primary (isPrivileged.trans has.privileged) ?_ ?_
  · -- The next login derives the key as the change did.
    cases kdf : token.passwordKdf with
    | some kept =>
      rw [kdf] at derived
      exact derived
    | none =>
      obtain ⟨algorithm, iterations⟩ := keepsKdf token current kdf
      rw [kdf] at derived
      rw [← derived, Option.getD_none, Cryptography.derivePasswordKey, Cryptography.derivePasswordKey, algorithm, iterations]
  · rw [isPresentation]
    exact has.presentationKey
  · rw [isRecovery]
    exact has.recoveryKey
  · exact affected.profiles.trans loggedIn.profiles
  · exact affected.profiles.trans loggedIn.profiles

omit sound loggedIn in
theorem recoveryKeySaver_saves
    (rest : ∀ after : AccountRecord W, after.saved = record.saved ++ [key] → after.published = record.published →
      (next ()).Resolves (recording world).withFields (fields, after) last) :
    ((WalletManagerOp.recoveryKeySaver key).await.bind fun reply => (Program.ofExcept reply).bind next).Resolves (recording world).withFields
      (fields, record) last := by
  apply resolves_await
  apply Program.Resolves.bind
  apply Program.Resolves.ofExcept
  intro _ answered
  have replied : (world (.recoveryKeySaver key) record.world).1 = .ok () := answered
  have noted : (recording world (.recoveryKeySaver key) record).2 =
      { record with world := (world (.recoveryKeySaver key) record.world).2, saved := record.saved ++ [key] } := by
    rw [recording, replied]
    rfl
  apply rest
  · rw [noted]
  · rw [noted]

theorem changeRecoveryKey_loggedIn :
    (CWIStyleWalletManager.changeRecoveryKey config).Resolves (recording world).withFields state fun _ after =>
      LoggedIn config.crypto { account with recoveryKey := after.2.saved.getLastD [] } after := by
  obtain ⟨factors, token, opened, current, -, has⟩ := loggedIn.factors
  refine (look fun fields after ran => ?_).seq opened fun _ _ open1 same1 _ => ?_
  · rw [current_bind_apply] at ran
    exact (require_ok ran).2
  refine (getFactor_kept sound .passwordKey).seq open1 fun passwordKey _ open2 same2 isPassword => ?_
  refine (getFactor_kept sound .presentationKey).seq open2 fun presentationKey _ open3 same3 isPresentation => ?_
  refine (getRootPrivilegedKey_kept sound).seq open3 fun privileged middle open4 same4 isPrivileged => ?_
  have affected : Unaffected state middle := ((same1.trans same2).trans same3).trans same4
  apply resolves_enter
  intro fields ran
  have is : fields = _ := ((Prod.mk.inj ran).2).symm
  have open5 : fields.OpenTo config.crypto factors := open4.same (by rw [is]) (by rw [is]) (by rw [is])
  have current' : fields.currentUMPToken = some token := by rw [is, ← current, ← affected.token]
  have profiles : fields.profiles = account.profiles := by rw [is, ← loggedIn.profiles, ← affected.profiles]
  apply recoveryKeySaver_saves
  intro record saved published
  apply resolves_read
  apply Program.Resolves.bind
  apply Program.Resolves.ofExcept
  intro found isFound
  cases (present_ok isFound).symm.trans current'
  apply Program.Resolves.bind
  apply Program.Resolves.ofExcept
  intro primary isPrimary
  cases (present_ok isPrimary).symm.trans open5.primary
  refine Program.Resolves.mono (updateAuthFactors_updates sound open5 rfl isPrivileged) fun _ after updated => ?_
  refine updated.loggedIn current' ?_ ?_ ?_ has.primary (isPrivileged.trans has.privileged) profiles profiles
  · rw [isPassword]
    exact has.passwordKey
  · rw [isPresentation]
    exact has.presentationKey
  · rw [updated.saved, saved, List.getLastD_concat]

theorem changePresentationKey_loggedIn
    (newPresentationKey) :
    (CWIStyleWalletManager.changePresentationKey config newPresentationKey).Resolves (recording world).withFields state fun _ after =>
      LoggedIn config.crypto { account with presentationKey := newPresentationKey } after := by
  obtain ⟨factors, token, opened, current, -, has⟩ := loggedIn.factors
  refine (look fun fields after ran => ?_).seq opened fun _ _ open1 same1 _ => ?_
  · rw [current_bind_apply] at ran
    obtain ⟨-, long⟩ := require_bind_ok ran
    exact (require_ok long).2
  refine (getFactor_kept sound .recoveryKey).seq open1 fun recoveryKey _ open2 same2 isRecovery => ?_
  refine (getFactor_kept sound .passwordKey).seq open2 fun passwordKey _ open3 same3 isPassword => ?_
  refine (getRootPrivilegedKey_kept sound).seq open3 fun privileged middle open4 same4 isPrivileged => ?_
  have affected := ((same1.trans same2).trans same3).trans same4
  apply resolves_read
  apply Program.Resolves.bind
  apply Program.Resolves.ofExcept
  intro found isFound
  cases (present_ok isFound).symm.trans (affected.token.trans current)
  apply Program.Resolves.bind
  apply Program.Resolves.ofExcept
  intro primary isPrimary
  cases (present_ok isPrimary).symm.trans open4.primary
  apply Program.Resolves.bind
  refine Program.Resolves.mono (updateAuthFactors_updates sound open4 rfl isPrivileged) fun _ after updated => ?_
  have ends : LoggedIn config.crypto { account with presentationKey := newPresentationKey } after := by
    refine updated.loggedIn (affected.token.trans current) ?_ rfl ?_ has.primary (isPrivileged.trans has.privileged) ?_ ?_
    · rw [isPassword]
      exact has.passwordKey
    · rw [isRecovery]
      exact has.recoveryKey
    · exact affected.profiles.trans loggedIn.profiles
    · exact affected.profiles.trans loggedIn.profiles
  apply resolves_enter
  intro fields ran
  have is := ((Prod.mk.inj ran).2).symm
  apply Program.Resolves.done
  obtain ⟨factors, token, opened, current, published, has⟩ := ends.factors
  refine ⟨⟨factors, token, opened.same ?_ ?_ ?_, ?_, published, has⟩, ?_⟩
  · rw [is]
  · rw [is]
  · rw [is]
  · rw [is]
    exact current
  · rw [is]
    exact ends.profiles

end

theorem resolves_resolved {value : Except WalletManagerError β} {next}
    (rest : ∀ result, value = .ok result → (next result).Resolves (recording world).withFields state last) :
    ((CWIStyleWalletManager.resolved value).bind next).Resolves (recording world).withFields state last := by
  show (CWIStyleWalletManager.read >>= fun _ => Program.ofExcept value >>= next).Resolves _ state last
  apply resolves_read
  apply Program.Resolves.bind
  exact .ofExcept rest

theorem setupRootInfrastructure_ok {fields after rootPrimaryKey ephemeral}
    (ran : setupRootInfrastructure config rootPrimaryKey ephemeral fields = (.ok (), after)) :
    ∃ token profiles, fields.currentUMPToken = some token ∧ config.crypto.readProfiles token rootPrimaryKey = .ok profiles ∧
      after = { fields with
        rootPrimaryKey := some rootPrimaryKey
        rootPrivilegedKeyManager := some ⟨fields.managers, ephemeral.map config.crypto.privateKey, none⟩
        managers := fields.managers + 1
        profiles := profiles
        authenticated := true } := by
  rw [setupRootInfrastructure, current_bind_apply] at ran
  obtain ⟨-, present⟩ := require_bind_ok ran
  obtain ⟨token, _, thrown, changed⟩ := bind_ok present
  obtain ⟨is, rfl⟩ := throwing_ok thrown
  rw [Fallible.change_bind_apply] at changed
  obtain ⟨profiles, _, loaded, ended⟩ := bind_ok changed
  obtain ⟨reads, rfl⟩ := throwing_ok loaded
  exact ⟨token, profiles, present_ok is, reads, ((Prod.mk.inj ended).2).symm⟩

theorem providePresentationKey_ok {key} :
    (CWIStyleWalletManager.providePresentationKey config key).Resolves (recording world).withFields state fun _ after =>
      after.1.authenticationFlow = .newUser → after.1.presentationKey = some key ∧ after.1.draws = state.1.draws := by
  apply resolves_enter
  intro fields ran
  rw [current_bind_apply] at ran
  obtain ⟨-, mode⟩ := require_bind_ok ran
  obtain ⟨-, rfl⟩ := require_ok mode
  apply resolves_await
  apply Program.Resolves.bind
  apply Program.Resolves.ofExcept
  intro found _
  apply resolves_enter
  intro after changed
  have is := ((Prod.mk.inj changed).2).symm
  apply Program.Resolves.done
  intro newUser
  cases found with
  | none =>
    rw [is]
    exact ⟨rfl, rfl⟩
  | some token =>
    rw [is] at newUser
    cases newUser

theorem fundNewWallet_kept : AccountKept config.crypto world factors (fundNewWallet config) fun _ => True := by
  refine AccountKept.read.bind fun fields _ => ?_
  split
  · refine rethrow ?_ _
    refine (await (fun _ _ => rfl)).bind fun _ _ => ?_
    exact .ofExcept fun _ _ => trivial
  · exact .done trivial

theorem publishNewToken_loggedIn (opened : state.1.OpenTo config.crypto factors)
    (current : state.1.currentUMPToken = some newToken) (has : account.HasFactors config.crypto newToken factors)
    (profiles : state.1.profiles = account.profiles) :
    (publishNewToken newToken).Resolves (recording world).withFields state fun _ after =>
      LoggedIn config.crypto account after ∧ after.2.saved = state.2.saved := by
  apply resolves_read
  split
  next => exact .fail _
  next wallet _ =>
    apply resolves_await
    apply Program.Resolves.bind
    apply Program.Resolves.ofExcept
    intro outpoint sent
    have replied : (world (.buildAndSend wallet newToken none) state.2.world).1 = .ok outpoint := sent
    have noted : (recording world (.buildAndSend wallet newToken none) state.2).2 =
        { state.2 with
          world := (world (.buildAndSend wallet newToken none) state.2.world).2
          published := state.2.published ++ [{ newToken with currentOutpoint := some outpoint }] } := by
      rw [recording, replied]
      rfl
    apply Program.Resolves.bind
    apply Program.Resolves.ofExcept
    intro token is
    cases (present_ok is).symm.trans current
    apply resolves_enter
    intro fields changed
    have placed : fields = { state.1 with currentUMPToken := some { newToken with currentOutpoint := some outpoint } } := by
      rw [← (Prod.mk.inj changed).2, withOutpoint, if_pos current]
    apply Program.Resolves.done
    have seals := has.seals.published (some outpoint)
    refine ⟨⟨⟨factors, { newToken with currentOutpoint := some outpoint }, ?_, ?_, ?_, ?_⟩, ?_⟩, ?_⟩
    · rw [placed]
      exact ⟨opened.long, ⟨_, rfl, seals⟩, opened.primary, opened.keys⟩
    · rw [placed]
    · rw [noted]
      exact List.getLast?_concat
    · exact ⟨has.long, seals, has.passwordKey, has.presentationKey, has.recoveryKey, has.primary, has.privileged, has.profiles⟩
    · rw [placed]
      exact profiles
    · rw [noted]

theorem handleNewUserPassword_loggedIn (sound : config.crypto.Sound) {presentationKey} (password)
    (presented : state.1.presentationKey = some presentationKey) :
    (handleNewUserPassword config password).Resolves (recording world).withFields state fun _ after =>
      LoggedIn config.crypto
        { password, presentationKey
          recoveryKey := after.2.saved.getLastD []
          rootPrimaryKey := config.crypto.random (state.1.draws + 2) 32
          rootPrivilegedKey := config.crypto.privateKey (config.crypto.random (state.1.draws + 3) 32)
          profiles := [] } after := by
  apply resolves_enter
  intro first ran
  rw [current_bind_apply] at ran
  obtain ⟨-, given⟩ := require_bind_ok ran
  obtain ⟨-, drawn⟩ := require_bind_ok given
  have isFirst := ((Prod.mk.inj drawn).2).symm
  apply recoveryKeySaver_saves
  intro record saved _
  apply resolves_enter
  intro second drawn
  have isSecond : second = { state.1 with draws := state.1.draws + 2 } := by
    rw [← (Prod.mk.inj drawn).2, isFirst]
  apply resolves_resolved
  intro passwordKey derived
  apply resolves_enter
  intro third drawn
  have isThird := ((Prod.mk.inj drawn).2).symm
  apply Program.Resolves.bind
  apply Program.Resolves.ofExcept
  intro key isKey
  have same : key = presentationKey := by
    have found := present_ok isKey
    rw [isSecond] at found
    exact Option.some.inj (found.symm.trans presented)
  apply Program.Resolves.bind
  apply Program.Resolves.ofExcept
  intro newToken made
  obtain ⟨seals, kdf, outpoint, long⟩ := Cryptography.sealToken_seals sound made
  have draws : second.draws = state.1.draws + 2 := by rw [isSecond]
  apply resolves_resolved
  intro _ _
  apply resolves_resolved
  intro _ _
  apply resolves_resolved
  intro _ _
  apply resolves_enter
  intro fields ran
  rw [Fallible.change_bind_apply] at ran
  obtain ⟨token, profiles, is, reads, placed⟩ := setupRootInfrastructure_ok ran
  cases is
  have loaded : profiles = [] := Except.ok.inj (reads.symm.trans seals.profiles)
  have opened : fields.OpenTo config.crypto (newFactors config key (config.crypto.random state.1.draws 32)
      (config.crypto.random first.draws 32) passwordKey second.draws) := by
    rw [placed]
    refine ⟨long (sound.random_length _ _), ⟨_, rfl, seals⟩, rfl, fun manager isManager key holds => ?_⟩
    cases isManager
    obtain retained | once := holds
    · cases retained
    · cases once
  have current : fields.currentUMPToken = some newToken := by rw [placed]
  have empty : fields.profiles = [] := by rw [placed, loaded]
  refine (switchTo_kept _).seq opened fun _ _ open1 same1 _ => ?_
  refine fundNewWallet_kept.seq open1 fun _ middle open2 same2 _ => ?_
  have affected := same1.trans same2
  have told : middle.2.saved.getLastD [] = config.crypto.random state.1.draws 32 := by
    rw [affected.saved, saved, List.getLastD_concat]
  have has : Account.HasFactors config.crypto
      { password, presentationKey
        recoveryKey := middle.2.saved.getLastD []
        rootPrimaryKey := config.crypto.random (state.1.draws + 2) 32
        rootPrivilegedKey := config.crypto.privateKey (config.crypto.random (state.1.draws + 3) 32)
        profiles := [] }
      newToken (newFactors config key (config.crypto.random state.1.draws 32) (config.crypto.random first.draws 32) passwordKey second.draws) := by
    refine ⟨long (sound.random_length _ _), seals, ?_, same, told.symm, ?_, ?_, rfl⟩
    · rw [seals.salt, kdf]
      exact derived
    · rw [← draws]
      rfl
    · rw [show state.1.draws + 3 = second.draws + 1 by omega]
      rfl
  refine Program.Resolves.mono (publishNewToken_loggedIn open2 (affected.token.trans current) has (affected.profiles.trans empty))
    fun _ after ⟨ends, kept⟩ => ?_
  rw [kept]
  exact ends

inductive AccountRun (config : WalletManagerConfig) (world : Machine outsideManager W)
    (meets : CWIStyleWalletManager → AccountCall → Prop) : ManagerState W → Account → Prop
  | found {state : ManagerState W} {account : Account} (loggedIn : LoggedIn config.crypto account state) :
      AccountRun config world meets state account
  | registered {start presented state : ManagerState W} {presentationKey password : Octets}
      (presents : (providePresentationKey config presentationKey).run (recording world).withFields start = (.ok (), presented))
      (newUser : presented.1.authenticationFlow = .newUser)
      (provides : (providePassword config password).run (recording world).withFields presented = (.ok (), state)) :
      AccountRun config world meets state
        { password, presentationKey
          recoveryKey := state.2.saved.getLastD []
          rootPrimaryKey := config.crypto.random (start.1.draws + 2) 32
          rootPrivilegedKey := config.crypto.privateKey (config.crypto.random (start.1.draws + 3) 32)
          profiles := [] }
  | called {state after : ManagerState W} {account : Account} (call : AccountCall) (run : AccountRun config world meets state account)
      (met : meets state.1 call) (resolves : (call.program config).run (recording world).withFields state = (.ok (), after)) :
      AccountRun config world meets after (call.effect config state after account)

theorem AccountCall.loggedIn (call : AccountCall) (sound : config.crypto.Sound) (loggedIn : LoggedIn config.crypto account state)
    (met : call.KeepsKdf config state.1) :
    (call.program config).Resolves (recording world).withFields state fun _ after =>
      LoggedIn config.crypto (call.effect config state after account) after := by
  cases call with
  | changePassword newPassword => exact changePassword_loggedIn sound loggedIn newPassword met
  | changeRecoveryKey => exact changeRecoveryKey_loggedIn sound loggedIn
  | changePresentationKey newPresentationKey => exact changePresentationKey_loggedIn sound loggedIn newPresentationKey
  | addProfile name =>
    apply Program.Resolves.bind
    exact (addProfile_loggedIn sound loggedIn name).mono fun _ after ends => .done ends
  | deleteProfile profileId => exact deleteProfile_loggedIn sound loggedIn profileId

theorem registered_loggedIn (sound : config.crypto.Sound) {start presented presentationKey password}
    (presents : (providePresentationKey config presentationKey).run (recording world).withFields start = (.ok (), presented))
    (newUser : presented.1.authenticationFlow = .newUser)
    (provides : (providePassword config password).run (recording world).withFields presented = (.ok (), state)) :
    LoggedIn config.crypto
      { password, presentationKey
        recoveryKey := state.2.saved.getLastD []
        rootPrimaryKey := config.crypto.random (start.1.draws + 2) 32
        rootPrivilegedKey := config.crypto.privateKey (config.crypto.random (start.1.draws + 3) 32)
        profiles := [] } state := by
  obtain ⟨given, draws⟩ := providePresentationKey_ok () presented presents newUser
  rw [← draws]
  have resolves : (providePassword config password).Resolves (recording world).withFields presented fun _ after =>
      LoggedIn config.crypto
        { password, presentationKey
          recoveryKey := after.2.saved.getLastD []
          rootPrimaryKey := config.crypto.random (presented.1.draws + 2) 32
          rootPrivilegedKey := config.crypto.privateKey (config.crypto.random (presented.1.draws + 3) 32)
          profiles := [] } after := by
    apply resolves_enter
    intro fields ran
    rw [current_bind_apply] at ran
    obtain ⟨-, mode⟩ := require_bind_ok ran
    obtain ⟨-, rfl⟩ := require_ok mode
    rw [newUser]
    exact handleNewUserPassword_loggedIn sound password given
  exact resolves () state provides

theorem AccountRun.loggedIn (sound : config.crypto.Sound) (run : AccountRun config world (fun fields call => call.KeepsKdf config fields) state account) :
    LoggedIn config.crypto account state := by
  induction run with
  | found loggedIn => exact loggedIn
  | registered presents newUser provides => exact registered_loggedIn sound presents newUser provides
  | called call _ met resolves ih => exact call.loggedIn sound ih met () _ resolves

/-- Where no password of a token without KDF metadata is changed to a key derived otherwise,
every two current factors open the token that was published last, and no replaced factor does. -/
theorem factors_open (sound : config.crypto.Sound)
    (run : AccountRun config world (fun fields call => call.KeepsKdf config fields) state account) :
    ∃ token, state.2.published.getLast? = some token ∧ state.1.currentUMPToken = some token ∧
      token.Opens config.crypto account ∧ token.Locked config.crypto account := by
  obtain ⟨factors, token, -, current, published, has⟩ := (run.loggedIn sound).factors
  exact ⟨token, published, current, has.opens sound, has.locked sound⟩

end

def sampleConfig : WalletManagerConfig where
  crypto := transparent
  adminOriginator := "admin.com"
  kdfConfig := .required none none none none none
  hasNewWalletFunder := false

/-- Nothing fails, no token is found, and the user gives the password `p`. -/
def sampleWorld : Machine outsideManager Unit
  | .findByPresentationKeyHash _, world | .findByRecoveryKeyHash _, world => (.ok none, world)
  | .buildAndSend _ _ _, world => (.ok "txid.0", world)
  | .passwordRetriever _, world => (.ok [112], world)
  | .recoveryKeySaver _, world | .newWalletFunder _ _, world | .walletBuilder _, world | .walletCall _, world => (.ok (), world)
  | .keyRetained, world => (false, world)

theorem ran_ok {result : Except WalletManagerError Unit × ManagerState W} (ok : result.1 = .ok ()) : result = (.ok (), result.2) :=
  Prod.ext ok rfl

def samplePresented : ManagerState Unit :=
  ((providePresentationKey sampleConfig (List.replicate 32 7)).run (recording sampleWorld).withFields ({}, ⟨(), [], []⟩)).2

def sampleRegistered : ManagerState Unit :=
  ((providePassword sampleConfig [112]).run (recording sampleWorld).withFields samplePresented).2

def sampleChanged : ManagerState Unit :=
  ((AccountCall.changePassword [113]).program sampleConfig |>.run (recording sampleWorld).withFields sampleRegistered).2

/-- An account is registered, and its password is changed. -/
theorem factors_open_registered : ∃ token, sampleChanged.2.published.getLast? = some token ∧ sampleChanged.1.currentUMPToken = some token ∧
    token.Opens transparent
      { password := [113], presentationKey := List.replicate 32 7
        recoveryKey := sampleRegistered.2.saved.getLastD []
        rootPrimaryKey := transparent.random 2 32
        rootPrivilegedKey := transparent.privateKey (transparent.random 3 32)
        profiles := [] } ∧
    token.Locked transparent
      { password := [113], presentationKey := List.replicate 32 7
        recoveryKey := sampleRegistered.2.saved.getLastD []
        rootPrimaryKey := transparent.random 2 32
        rootPrivilegedKey := transparent.privateKey (transparent.random 3 32)
        profiles := [] } := by
  have registered : AccountRun sampleConfig sampleWorld (fun fields call => call.KeepsKdf sampleConfig fields) sampleRegistered _ :=
    .registered (ran_ok (by decide +kernel)) (by decide +kernel) (ran_ok (by decide +kernel))
  have keeps : (AccountCall.changePassword [113]).KeepsKdf sampleConfig sampleRegistered.1 := by
    intro token current none
    have kept : sampleRegistered.1.currentUMPToken.bind UMPToken.passwordKdf = some sampleConfig.kdfConfig := by decide +kernel
    rw [current, Option.bind_some, none] at kept
    cases kept
  exact factors_open transparent_sound (.called (.changePassword [113]) registered keeps (ran_ok (by decide +kernel)))

/-- The token of an account without KDF metadata. -/
def legacyFactors : AuthFactors where
  passwordSalt := []
  passwordKey := transparent.pbkdf2 [112] [] PBKDF2_NUM_ROUNDS
  presentationKey := List.replicate 32 7
  recoveryKey := List.replicate 32 8
  rootPrimaryKey := List.replicate 32 9
  rootPrivilegedKey := List.replicate 32 10
  profiles := []

def legacyToken : UMPToken :=
  match transparent.sealToken none legacyFactors 0 with
  | .ok token => { token with currentOutpoint := some "txid.1" }
  | .error _ => ⟨[], [], [], [], [], [], [], [], [], [], [], none, none, none, none⟩

def legacyAccount : Account where
  password := [112]
  presentationKey := List.replicate 32 7
  recoveryKey := List.replicate 32 8
  rootPrimaryKey := List.replicate 32 9
  rootPrivilegedKey := transparent.privateKey (List.replicate 32 10)
  profiles := []

def legacyState : ManagerState Unit :=
  ({ authenticated := true
     authenticationFlow := .existingUser
     currentUMPToken := some legacyToken
     rootPrimaryKey := some legacyFactors.rootPrimaryKey
     underlying := some ⟨legacyFactors.rootPrimaryKey, none, DEFAULT_PROFILE_ID⟩
     rootPrivilegedKeyManager := some ⟨0, none, none⟩ },
   ⟨(), [legacyToken], []⟩)

theorem legacy_loggedIn : LoggedIn transparent legacyAccount legacyState := by
  have made : ∃ token, transparent.sealToken none legacyFactors 0 = .ok token ∧ legacyToken = { token with currentOutpoint := some "txid.1" } :=
    ⟨_, rfl, rfl⟩
  obtain ⟨token, sealed, is⟩ := made
  obtain ⟨seals, kdf, -, long⟩ := Cryptography.sealToken_seals transparent_sound sealed
  have sealsLegacy := is ▸ seals.published _
  have lengths := long (by decide +kernel)
  refine ⟨⟨legacyFactors, legacyToken, ⟨lengths, ⟨_, rfl, sealsLegacy⟩, rfl, ?_⟩, rfl, rfl, ?_⟩, rfl⟩
  · intro manager isManager key holds
    cases isManager
    obtain retained | once := holds
    · cases retained
    · cases once
  · exact ⟨lengths, sealsLegacy, rfl, rfl, rfl, rfl, rfl, rfl⟩

def legacyChanged : ManagerState Unit :=
  ((AccountCall.changePassword [113]).program sampleConfig |>.run (recording sampleWorld).withFields legacyState).2

/-- The new password of such an account, derived as login does, opens nothing. -/
theorem legacy_password_locked_out :
    AccountRun sampleConfig sampleWorld (fun _ _ => True) legacyChanged { legacyAccount with password := [113] } ∧
      ¬ ∃ token, legacyChanged.2.published.getLast? = some token ∧ token.Opens transparent { legacyAccount with password := [113] } := by
  constructor
  · exact .called (.changePassword [113]) (.found legacy_loggedIn) trivial (ran_ok (by decide +kernel))
  · intro ⟨token, is, opens⟩
    obtain ⟨keys, -, -, opened, -, -⟩ := opens.keys
    have fails : (legacyChanged.2.published.getLast?.map fun token =>
        (transparent.openPresentationPassword token (List.replicate 32 7) [113]).toOption) = some none := by decide +kernel
    rw [is, Option.map_some] at fails
    have none := Option.some.inj fails
    have some := congrArg Except.toOption opened
    cases none.symm.trans some

end WalletToolbox
