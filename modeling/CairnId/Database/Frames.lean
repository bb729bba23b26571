import CairnId.Database.Provisioning

/-!
# What a method writes

The tables that each method of `Database` writes. It leaves all others as they are.

## Main definitions

- `DbCall.writes` — the tables a method writes

## Main results

- `DbCall.exec_frame` — the other tables
-/

namespace CairnId

open Concurrency Concurrency.Sql Prog

namespace DbCall

/-- The tables that a method writes. -/
def writes : DbCall → List Tab
  | .insertAccessToken .. | .revokeAccessToken .. => [.accessTokens]
  | .insertAuthorizationCode .. => [.authorizationCodes]
  | .consumeAuthorizationCodeAndInsertTokens .. =>
    [.authorizationCodes, .accessTokens, .refreshTokens]
  | .rotateRefreshTokenAndInsertTokens .. | .revokeRefreshTokenFamilyAndAccessTokens .. =>
    [.accessTokens, .refreshTokens]
  | .createOidcClient .. | .rotateOidcClientSecret .. => [.oidcClients]
  | .updateOidcClientStatus .. | .updateOidcClientDetails .. =>
    [.oidcClients, .authorizationCodes, .accessTokens, .refreshTokens]
  | .createConsentGrant .. => [.consentGrants]
  | .createConsentAuthorization .. | .markConsentAuthorizationConsumed .. =>
    [.consentAuthorizations]
  | .revokeUserClientConsentAndTokens .. | .revokeCurrentUserConsentAndTokens .. =>
    [.consentGrants, .authorizationCodes, .accessTokens, .refreshTokens]
  | .createOrganization .. => [.organizations]
  | .createUser .. | .setUserLastLogin .. => [.users]
  | .createBootstrapAdmin .. => [.users, .groups, .memberships]
  | .updateUserStatus .. => [.users, .authSessions, .accessTokens, .refreshTokens]
  | .updateUserFromScim .. =>
    [.users, .accountTokens, .authSessions, .accessTokens, .refreshTokens]
  | .revokeAuthSession .. | .revokeUserBrowserSession .. | .rotateAuthSessionWithContext .. =>
    [.authSessions]
  | .createAuthSessionWithNewContextNotification .. => [.authSessions, .emailOutbox]
  | .insertAccountTokenAndEmailOutboxMessage .. => [.accountTokens, .emailOutbox]
  | .consumeAccountTokenAndSetUserEmailVerified .. => [.accountTokens, .users]
  | .consumeAccountTokenAndSetUserPassword .. => [.accountTokens, .users, .authSessions]
  | .consumePasswordRecoveryTokenAndResetUserPassword ..
  | .changeUserPasswordAndRotateSession .. =>
    [.accountTokens, .users, .authSessions, .accessTokens, .refreshTokens, .emailOutbox]
  | .createGroup .. => [.groups]
  | .upsertGroupMembership .. | .deleteGroupMembership .. => [.memberships]
  | .createScimGroup .. | .replaceScimGroup .. | .deleteScimGroup .. => [.groups, .memberships]
  | .breakGlassGrantAdminOwner .. => [.groups, .memberships, .users, .auditEvents]
  | .createMfaCredential .. | .markMfaCredentialUsed .. | .updateMfaCredentialMetadata ..
  | .consumeActiveRecoveryCode .. | .revokeMfaCredential ..
  | .revokeActiveMfaCredentialsByKind .. => [.mfaCredentials]
  | .insertWebauthnChallenge .. | .consumeWebauthnChallenge .. => [.webauthnChallenges]
  | .recordRateLimitFailure .. | .clearRateLimitBucket .. => [.rateLimitBuckets]
  | .insertAuditEvent .. => [.auditEvents]
  | .applyKeyEncryptionRotation .. => [.signingKeys, .emailOutbox]
  | .upsertSigningKeyMaterial .. | .retireSigningKey .. => [.signingKeys]
  | _ => []

end DbCall

namespace Database

/-- The statement writes none but these tables. -/
abbrev Within (tabs : List Tab) (e : Stmt Row) : Prop := ∀ t ∈ e.target, t ∈ tabs

variable {tabs : List Tab} {t : Tab}

theorem within_of_reads {α : Type} {p : Statements α} (hp : p.All Reads) :
    p.All (Within tabs) := by
  refine hp.mono fun e he t ht => ?_
  rw [he] at ht
  cases ht

theorem within_update (ht : t ∈ tabs) (p : Db → Row t → Bool) (f : Row t → Row t) :
    (update t p f).All (Within tabs) := .perform fun _ h => Option.some.inj h ▸ ht

theorem within_insert (ht : t ∈ tabs) (r : Row t) : (insert t r).All (Within tabs) :=
  .perform fun _ h => Option.some.inj h ▸ ht

theorem within_delete (ht : t ∈ tabs) (p : Db → Row t → Bool) : (delete t p).All (Within tabs) :=
  .perform fun _ h => Option.some.inj h ▸ ht

theorem within_upsert (ht : t ∈ tabs) (r : Row t) (f : Row t → Row t) :
    (upsert t r f).All (Within tabs) := .perform fun _ h => Option.some.inj h ▸ ht

theorem within_updateEach {κ : Type} (ht : t ∈ tabs) (p : κ → Row t → Bool)
    (f : κ → Row t → Row t) (ks : List κ) : (updateEach t p f ks).All (Within tabs) := by
  induction ks with
  | nil => trivial
  | cons k ks ih => exact .bind (within_update ht ..) fun _ => ih

/-- The tables that statements do not write. -/
theorem run_frame_of_within {α : Type} {p : Statements α} (hp : p.All (Within tabs)) (ht : t ∉ tabs)
    {s s' : Store} {a : α} (h : Stmts.run DatabaseError.sqlx p s = .ok (a, s')) :
    s'.tables t = s.tables t :=
  Stmts.run_frame (hp.mono fun e he htarget => ht (he t htarget)) h

-- oauth

section oauth

variable (hcodes : .authorizationCodes ∈ tabs) (haccess : .accessTokens ∈ tabs)
  (hrefresh : .refreshTokens ∈ tabs)

include hrefresh in
theorem within_insertRefreshTokenRecords (refresh : Option RefreshToken) :
    (insertRefreshTokenRecords refresh).All (Within tabs) := by
  cases refresh with
  | none => trivial
  | some t => exact within_insert hrefresh t

include hcodes in
theorem within_invalidatePendingAuthorizationCodes (o : OrganizationId) (c : ClientId)
    (i : OffsetDateTime) : (invalidatePendingAuthorizationCodes o c i).All (Within tabs) :=
  .bind (within_update hcodes ..) fun _ => .ret _

include haccess hrefresh

theorem within_revokeActiveTokens (o : OrganizationId) (c : ClientId) (i : OffsetDateTime) :
    (revokeActiveTokens o c i).All (Within tabs) :=
  .bind (within_update haccess ..) fun _ => .bind (within_update hrefresh ..) fun _ => .ret _

theorem within_revokeLiveUserTokens (o : OrganizationId) (u : UserId) (i : OffsetDateTime) :
    (revokeLiveUserTokens o u i).All (Within tabs) :=
  .bind (within_update haccess ..) fun _ => .bind (within_update hrefresh ..) fun _ => .ret _

theorem within_revokeUserRuntimeCredentials (hsessions : .authSessions ∈ tabs)
    (o : OrganizationId) (u : UserId) (i : OffsetDateTime) :
    (revokeUserRuntimeCredentials o u i).All (Within tabs) :=
  .bind (within_update hsessions ..) fun _ => .bind (within_update haccess ..) fun _ =>
    .bind (within_update hrefresh ..) fun _ => .ret _

include hcodes

theorem within_revokeConsentGrantAndTokens (hgrants : .consentGrants ∈ tabs) (o : OrganizationId)
    (c : Option ClientId) (u : Option UserId) (g : Uuid) (i : OffsetDateTime) :
    (revokeConsentGrantAndTokens o c u g i).All (Within tabs) := by
  refine .bind (within_of_reads (reads_lock ..)) fun locked => ?_
  split
  · exact .bind (within_update hgrants ..) fun _ => .bind (within_update hcodes ..) fun _ =>
      .bind (within_update haccess ..) fun _ => .bind (within_update hrefresh ..) fun _ => .ret _
  · trivial

theorem within_updateOidcClientStatus (hclients : .oidcClients ∈ tabs) (o : OrganizationId)
    (c : ClientId) (status : OidcClientStatus) (i : OffsetDateTime) :
    (updateOidcClientStatus o c status i).All (Within tabs) := by
  refine .bind (within_of_reads (reads_lock ..)) fun locked => ?_
  split
  · trivial
  refine .bind (within_update hclients ..) fun _ => .bind (all_fetchOne _) fun _ =>
    .bind ?_ fun _ => .ret _
  split
  · exact .bind (within_invalidatePendingAuthorizationCodes hcodes ..) fun _ =>
      .bind (within_revokeActiveTokens haccess hrefresh ..) fun _ => .ret _
  · trivial

theorem within_updateOidcClientDetails (hclients : .oidcClients ∈ tabs) (o : OrganizationId)
    (c : ClientId) (details : OidcClientDetailsUpdate) (i : OffsetDateTime) :
    (updateOidcClientDetails o c details i).All (Within tabs) := by
  refine .bind (within_of_reads (reads_lock ..)) fun locked => ?_
  split
  · refine .bind (within_update hclients ..) fun _ => .bind (all_fetchOne _) fun _ =>
      .bind ?_ fun _ => .bind ?_ fun _ => .ret _
    · split
      · exact within_invalidatePendingAuthorizationCodes hcodes ..
      · trivial
    · split
      · exact within_revokeActiveTokens haccess hrefresh ..
      · trivial
  · trivial

end oauth

-- users and account tokens

section users

variable (husers : .users ∈ tabs) (htokens : .accountTokens ∈ tabs)
  (hsessions : .authSessions ∈ tabs) (haccess : .accessTokens ∈ tabs)
  (hrefresh : .refreshTokens ∈ tabs) (hemails : .emailOutbox ∈ tabs)

include hemails in
theorem within_insertNotification (notification : Option EmailOutboxMessage) :
    (insertNotification notification).All (Within tabs) := by
  cases notification with
  | none => trivial
  | some m => exact within_insert hemails m

include hsessions in
theorem within_revokeLiveUserSessions (o : OrganizationId) (u : UserId) (i : OffsetDateTime) :
    (revokeLiveUserSessions o u i).All (Within tabs) :=
  .bind (within_update hsessions ..) fun _ => .ret _

include husers in
theorem within_createBootstrapAdmin (hgroups : .groups ∈ tabs) (hmembers : .memberships ∈ tabs)
    (user : User) (hash : String) (group : Group) (membership : Membership) :
    (createBootstrapAdmin user hash group membership).All (Within tabs) := by
  refine .bind (within_of_reads (reads_lock ..)) fun org => .bind (.when (.fail _)) fun _ =>
    .bind (within_of_reads reads_select) fun db => ?_
  split
  · trivial
  · exact .bind (within_insert husers _) fun _ => .bind (within_insert hgroups _) fun _ =>
      .bind (within_insert hmembers _) fun _ => .ret _

include husers hsessions haccess hrefresh in
theorem within_updateUserStatus (o : OrganizationId) (u : UserId) (status : UserStatus)
    (slug : String) (i : OffsetDateTime) :
    (updateUserStatus o u status slug i).All (Within tabs) := by
  refine .bind (within_of_reads (reads_lockedUserForUpdate ..)) fun existing => ?_
  split
  · refine .bind (within_of_reads (reads_deactivationWouldRemoveLastOwner ..)) fun refused => ?_
    split
    · trivial
    · exact .bind (within_update husers ..) fun _ => .bind (all_fetchOne _) fun _ =>
        .bind (.when (within_revokeUserRuntimeCredentials haccess hrefresh hsessions ..))
          fun _ => .ret _
  · trivial

include husers htokens hsessions haccess hrefresh in
theorem within_updateUserFromScim (input : ScimUserUpdateInput) :
    (updateUserFromScim input).All (Within tabs) := by
  refine .bind (within_of_reads (reads_lockedUserForUpdate ..)) fun existing => ?_
  split
  · refine .bind (within_of_reads (.bind reads_select fun _ => .ret _)) fun taken => ?_
    split
    · trivial
    refine .bind (within_of_reads (reads_userExternalIdTaken ..)) fun taken => ?_
    split
    · trivial
    refine .bind (within_of_reads (reads_deactivationWouldRemoveLastOwner ..)) fun refused => ?_
    split
    · trivial
    exact .bind (within_update husers ..) fun _ => .bind (all_fetchOne _) fun _ =>
      .bind (.when (.bind (within_update htokens ..) fun _ => .ret _)) fun _ =>
        .bind (.when (within_revokeUserRuntimeCredentials haccess hrefresh hsessions ..))
          fun _ => .ret _
  · trivial

include htokens husers in
theorem within_consumeAccountTokenAndSetUserEmailVerified (t : Uuid) (u : UserId)
    (i : OffsetDateTime) :
    (consumeAccountTokenAndSetUserEmailVerified t u i).All (Within tabs) := by
  refine .bind (within_update htokens ..) fun consumed => ?_
  split
  · trivial
  refine .bind (within_update husers ..) fun updated => ?_
  split <;> trivial

include htokens husers hsessions in
theorem within_consumeAccountTokenAndSetUserPassword (t : Uuid) (u : UserId) (hash : String)
    (verified revoke : Bool) (i : OffsetDateTime) :
    (consumeAccountTokenAndSetUserPassword t u hash verified revoke i).All (Within tabs) := by
  refine .bind (within_update htokens ..) fun consumed => ?_
  split
  · trivial
  refine .bind (within_update husers ..) fun updated => ?_
  split
  · trivial
  · exact .bind (.when (.bind (within_update hsessions ..) fun _ => .ret _)) fun _ => .ret _

include htokens husers hsessions haccess hrefresh hemails

theorem within_consumePasswordRecoveryTokenAndResetUserPassword (input : PasswordRecoveryInput) :
    (consumePasswordRecoveryTokenAndResetUserPassword input).All (Within tabs) := by
  refine .bind (within_update htokens ..) fun consumed => ?_
  split
  · trivial
  refine .bind (within_update husers ..) fun updated => ?_
  split
  · trivial
  exact .bind (within_update htokens ..) fun _ =>
    .bind (within_revokeLiveUserSessions hsessions ..) fun _ =>
    .bind (within_revokeLiveUserTokens haccess hrefresh ..) fun _ =>
    .bind (within_insertNotification hemails _) fun _ => .ret _

theorem within_changeUserPasswordAndRotateSession (input : PasswordChangeInput) :
    (changeUserPasswordAndRotateSession input).All (Within tabs) := by
  refine .bind (within_of_reads (reads_lock ..)) fun locked => ?_
  split
  · trivial
  exact .bind (within_update husers ..) fun _ =>
    .bind (within_revokeLiveUserSessions hsessions ..) fun _ =>
    .bind (within_insert hsessions _) fun _ =>
    .bind (within_revokeLiveUserTokens haccess hrefresh ..) fun _ =>
    .bind (within_update htokens ..) fun _ =>
    .bind (within_insertNotification hemails _) fun _ => .ret _

end users

-- groups

section groups

variable (hgroups : .groups ∈ tabs) (hmembers : .memberships ∈ tabs)

include hmembers

theorem within_upsertMembership (m : Membership) : (upsertMembership m).All (Within tabs) :=
  .bind (within_upsert hmembers ..) fun _ => .ret _

theorem within_upsertGroupMembership (m : Membership) (slug : String) :
    (upsertGroupMembership m slug).All (Within tabs) := by
  refine .bind (within_of_reads (reads_lockedGroup ..)) fun group => ?_
  split
  · refine .bind (within_of_reads (reads_userExists ..)) fun found => ?_
    split
    · trivial
    refine .bind (within_of_reads (reads_lockedMembershipRole ..)) fun role =>
      .bind (within_of_reads (reads_lastOwnerCheck ..)) fun refused => ?_
    split
    · trivial
    · exact .bind (within_upsertMembership hmembers m) fun _ => .ret _
  · trivial

theorem within_deleteGroupMembership (o : OrganizationId) (g : GroupId) (u : UserId)
    (slug : String) : (deleteGroupMembership o g u slug).All (Within tabs) := by
  refine .bind (within_of_reads (reads_lockedGroup ..)) fun group => ?_
  split
  · refine .bind (within_of_reads (reads_lockedMembershipRole ..)) fun role => ?_
    split
    · refine .bind (within_of_reads (reads_lastOwnerCheck ..)) fun refused => ?_
      split
      · trivial
      · exact .bind (within_delete hmembers _) fun _ => .ret _
    · trivial
  · trivial

theorem within_insertScimGroupMemberIds (o : OrganizationId) (g : GroupId) (i : OffsetDateTime)
    (us : List UserId) : (insertScimGroupMemberIds o g i us).All (Within tabs) := by
  induction us with
  | nil => trivial
  | cons u us ih => exact .bind (within_upsertMembership hmembers _) fun _ => ih

include hgroups

theorem within_createScimGroup (g : Group) (us : List UserId) :
    (createScimGroup g us).All (Within tabs) := by
  refine .bind (within_of_reads (.bind reads_select fun _ => .ret _)) fun taken => ?_
  split
  · trivial
  refine .bind (within_of_reads (reads_groupExternalIdTaken ..)) fun taken => ?_
  split
  · trivial
  refine .bind (within_of_reads (reads_allUsersExist ..)) fun found => ?_
  split
  · trivial
  · exact .bind (within_insert hgroups _) fun _ =>
      .bind (within_insertScimGroupMemberIds hmembers ..) fun _ => .ret _

theorem within_replaceScimGroup (input : ScimGroupReplaceInput) :
    (replaceScimGroup input).All (Within tabs) := by
  refine .bind (within_of_reads (reads_lockedGroup ..)) fun group => ?_
  split
  · split
    · trivial
    refine .bind (within_of_reads (reads_groupExternalIdTaken ..)) fun taken => ?_
    split
    · trivial
    refine .bind (within_of_reads (reads_allUsersExist ..)) fun found => ?_
    split
    · trivial
    · exact .bind (within_update hgroups ..) fun _ => .bind (all_fetchOne _) fun _ =>
        .bind (within_delete hmembers _) fun _ =>
        .bind (within_insertScimGroupMemberIds hmembers ..) fun _ => .ret _
  · trivial

theorem within_deleteScimGroup (o : OrganizationId) (g : GroupId) (slug : String) :
    (deleteScimGroup o g slug).All (Within tabs) := by
  refine .bind (within_of_reads (reads_lockedGroup ..)) fun group => ?_
  split
  · split
    · trivial
    · exact .bind (within_delete hgroups _) fun _ => .bind (within_delete hmembers _) fun _ =>
        .ret _
  · trivial

theorem within_breakGlassGrantAdminOwner (husers : .users ∈ tabs) (haudit : .auditEvents ∈ tabs)
    (o : OrganizationId) (u : UserId) (g : Group) (i : OffsetDateTime) (event : AuditEvent) :
    (breakGlassGrantAdminOwner o u g i event).All (Within tabs) := by
  refine .bind (within_of_reads (reads_lock ..)) fun org => .bind (.when (.fail _)) fun _ =>
    .bind (within_of_reads (reads_lockedUserForUpdate ..)) fun user => ?_
  split
  · refine .bind (within_of_reads (reads_lock ..)) fun rows => .bind ?_ fun group => ?_
    · split
      · trivial
      · exact .bind (within_insert hgroups _) fun _ => .ret _
    · exact .bind (within_of_reads (reads_lockedMembershipRole ..)) fun _ =>
        .bind (within_upsertMembership hmembers _) fun _ =>
        .bind (within_update husers ..) fun _ => .bind (all_fetchOne _) fun _ =>
        .bind (within_insert haudit _) fun _ => .ret _
  · trivial

end groups

end Database

open Database

/-- A method writes no table but those named for it. -/
theorem DbCall.tx_writes (c : DbCall) : c.tx.All (Within c.writes) := by
  cases c with
  -- queries
  | getAccessToken | getAuthorizationCode | getRefreshToken | getOidcClientByPublicId
  | getOidcClient | findUserByEmail | findUserByScimExternalId | getUserWithPassword | getUser
  | getAuthSession | getAccountTokenByHash | getGroup | listUserGroupSlugs | getGroupMembership
  | listScimGroupMembersForGroups | findActiveWebauthnCredentialByCredentialId | listMfaCredentials
  | getRateLimitBucket | activeJwks | activeSigningKey | listEncryptedSigningKeyMaterials
  | listEmailOutboxDeliveryTokens | getConsentPolicyTemplate | pendingConsentAuthorizations
  | hasActiveConsentGrant =>
    exact within_of_reads (.bind reads_select fun _ => .ret _)
  | userHasGroupRole o u slug roles =>
    cases roles with
    | nil => trivial
    | cons role roles => exact within_of_reads (.bind reads_select fun _ => .ret _)
  -- one insert
  | insertAccessToken | insertAuthorizationCode | createOidcClient | createConsentGrant
  | createConsentAuthorization | createUser | createMfaCredential | insertWebauthnChallenge
  | insertAuditEvent | createGroup =>
    exact .bind (within_insert (by simp [writes]) _) fun _ => .ret _
  -- one update
  | revokeAccessToken | revokeAuthSession | revokeUserBrowserSession
  | markConsentAuthorizationConsumed | rotateOidcClientSecret | setUserLastLogin
  | markMfaCredentialUsed | updateMfaCredentialMetadata | consumeActiveRecoveryCode
  | revokeActiveMfaCredentialsByKind | retireSigningKey =>
    exact .bind (within_update (by simp [writes]) ..) fun _ => .ret _
  -- transactions
  | consumeAuthorizationCodeAndInsertTokens | rotateRefreshTokenAndInsertTokens =>
    refine .bind (within_update (by simp [writes]) ..) fun claimed => ?_
    split
    · trivial
    · exact .bind (within_insert (by simp [writes]) _) fun _ =>
        .bind (within_insertRefreshTokenRecords (by simp [writes]) _) fun _ => .ret _
  | revokeRefreshTokenFamilyAndAccessTokens =>
    exact .bind (within_update (by simp [writes]) ..) fun _ =>
      .bind (within_update (by simp [writes]) ..) fun _ => .ret _
  | updateOidcClientStatus =>
    apply within_updateOidcClientStatus <;> simp [writes]
  | updateOidcClientDetails =>
    apply within_updateOidcClientDetails <;> simp [writes]
  | revokeUserClientConsentAndTokens | revokeCurrentUserConsentAndTokens =>
    apply within_revokeConsentGrantAndTokens <;> simp [writes]
  | createOrganization =>
    refine .bind (within_of_reads reads_select) fun db => ?_
    split
    · trivial
    · exact .bind (within_insert (by simp [writes]) _) fun _ => .ret _
  | createBootstrapAdmin =>
    apply within_createBootstrapAdmin <;> simp [writes]
  | updateUserStatus =>
    apply within_updateUserStatus <;> simp [writes]
  | updateUserFromScim =>
    apply within_updateUserFromScim <;> simp [writes]
  | createAuthSessionWithNewContextNotification session context notification =>
    refine .bind ?_ fun known => .bind (within_insert (by simp [writes]) _) fun _ => ?_
    · split
      · exact within_of_reads (.bind (reads_lock ..) fun _ => .bind reads_select fun _ => .ret _)
      · trivial
    · split
      · trivial
      cases notification with
      | none => trivial
      | some m => exact .bind (within_insert (by simp [writes]) _) fun _ => .ret _
  | rotateAuthSessionWithContext =>
    exact .bind (within_update (by simp [writes]) ..) fun _ => .bind (.when (.fail _)) fun _ =>
      .bind (within_insert (by simp [writes]) _) fun _ => .ret _
  | insertAccountTokenAndEmailOutboxMessage =>
    exact .bind (within_insert (by simp [writes]) _) fun _ =>
      .bind (within_insert (by simp [writes]) _) fun _ => .ret _
  | consumeAccountTokenAndSetUserEmailVerified =>
    apply within_consumeAccountTokenAndSetUserEmailVerified <;> simp [writes]
  | consumeAccountTokenAndSetUserPassword =>
    apply within_consumeAccountTokenAndSetUserPassword <;> simp [writes]
  | consumePasswordRecoveryTokenAndResetUserPassword =>
    apply within_consumePasswordRecoveryTokenAndResetUserPassword <;> simp [writes]
  | changeUserPasswordAndRotateSession =>
    apply within_changeUserPasswordAndRotateSession <;> simp [writes]
  | upsertGroupMembership => exact within_upsertGroupMembership (by simp [writes]) ..
  | deleteGroupMembership => exact within_deleteGroupMembership (by simp [writes]) ..
  | createScimGroup => apply within_createScimGroup <;> simp [writes]
  | replaceScimGroup => apply within_replaceScimGroup <;> simp [writes]
  | deleteScimGroup => apply within_deleteScimGroup <;> simp [writes]
  | breakGlassGrantAdminOwner =>
    apply within_breakGlassGrantAdminOwner <;> simp [writes]
  | revokeMfaCredential | consumeWebauthnChallenge =>
    refine .bind (within_of_reads (reads_lock ..)) fun rows => ?_
    split
    · exact .bind (within_update (by simp [writes]) ..) fun _ => .ret _
    · trivial
  | recordRateLimitFailure =>
    exact .bind (within_of_reads (reads_lock ..)) fun _ =>
      .bind (within_upsert (by simp [writes]) ..) fun _ => .ret _
  | clearRateLimitBucket => exact .bind (within_delete (by simp [writes]) _) fun _ => .ret _
  | applyKeyEncryptionRotation =>
    exact .bind (within_updateEach (t := .signingKeys) (by simp [writes]) ..) fun _ =>
      .bind (within_updateEach (t := .emailOutbox) (by simp [writes]) ..) fun _ => .ret _
  | upsertSigningKeyMaterial =>
    exact .bind (.when (.bind (within_update (by simp [writes]) ..) fun _ => .ret _)) fun _ =>
      .bind (within_upsert (by simp [writes]) ..) fun _ => .ret _

/-- **Frame rule**: a method leaves the other tables as they are. -/
theorem DbCall.exec_frame {c : DbCall} {t : Tab} (ht : t ∉ c.writes) (s : Store) :
    (c.exec s).2.tables t = s.tables t := by
  refine Tx.atomic_frame ?_ (rfl : Tx.atomic DatabaseError.sqlx c.tx s = _)
  exact c.tx_writes.mono fun e he htarget => ht (he t htarget)

end CairnId
