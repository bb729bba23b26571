import CairnId.Database.Calls

/-!
# What no method undoes

Rows keep their identity, and marks such as `revoked_at` are never cleared. This
is stated once for every table and shown once for every method; the results on
tokens, codes and sessions rest on it.
-/

namespace CairnId

open Concurrency Concurrency.Sql

/-- What a method may make of a row. -/
def RowStep : (t : Tab) → Row t → Row t → Prop
  | .users, a, b => b.user.id = a.user.id ∧ b.user.organizationId = a.user.organizationId
  | .oidcClients, a, b => b.id = a.id ∧ b.organizationId = a.organizationId ∧
      b.clientId = a.clientId
  | .authSessions, a, b =>
      { b.session with revokedAt := a.session.revokedAt } = a.session ∧
        (b.session.revokedAt = none → a.session.revokedAt = none)
  | .consentGrants, a, b =>
      { b with revokedAt := a.revokedAt } = a ∧ (b.revokedAt = none → a.revokedAt = none)
  | .consentAuthorizations, a, b =>
      { b with consumedAt := a.consumedAt } = a ∧ (b.consumedAt = none → a.consumedAt = none)
  | .authorizationCodes, a, b =>
      { b with usedAt := a.usedAt } = a ∧ (b.usedAt = none → a.usedAt = none)
  | .accessTokens, a, b =>
      { b with revokedAt := a.revokedAt } = a ∧ (b.revokedAt = none → a.revokedAt = none)
  | .refreshTokens, a, b =>
      { b with rotatedAt := a.rotatedAt, revokedAt := a.revokedAt } = a ∧
        (b.rotatedAt = none → a.rotatedAt = none) ∧ (b.revokedAt = none → a.revokedAt = none)
  | .accountTokens, a, b =>
      { b with consumedAt := a.consumedAt } = a ∧ (b.consumedAt = none → a.consumedAt = none)
  | .mfaCredentials, a, b =>
      { b with secretMetadata := a.secretMetadata, lastUsedAt := a.lastUsedAt } = a
  | .webauthnChallenges, a, b =>
      { b with consumedAt := a.consumedAt } = a ∧ (b.consumedAt = none → a.consumedAt = none)
  | _, _, _ => True

theorem RowStep.refl (t : Tab) (r : Row t) : RowStep t r r := by
  cases t <;> simp [RowStep]

theorem RowStep.trans (t : Tab) (a b c : Row t) (h : RowStep t a b) (h' : RowStep t b c) :
    RowStep t a c := by
  cases t with
  | users => exact ⟨h'.1.trans h.1, h'.2.trans h.2⟩
  | oidcClients => exact ⟨h'.1.trans h.1, h'.2.1.trans h.2.1, h'.2.2.trans h.2.2⟩
  | authSessions =>
    obtain ⟨⟨s⟩, _⟩ := a
    obtain ⟨⟨s'⟩, _⟩ := b
    obtain ⟨⟨s''⟩, _⟩ := c
    simp only [RowStep, AuthSession.mk.injEq] at h h' ⊢
    grind
  | consentGrants =>
    cases a; cases b; cases c
    simp only [RowStep, ConsentGrant.mk.injEq] at h h' ⊢
    grind
  | consentAuthorizations =>
    cases a; cases b; cases c
    simp only [RowStep, ConsentAuthorization.mk.injEq] at h h' ⊢
    grind
  | authorizationCodes =>
    cases a; cases b; cases c
    simp only [RowStep, AuthorizationCode.mk.injEq] at h h' ⊢
    grind
  | accessTokens =>
    cases a; cases b; cases c
    simp only [RowStep, AccessTokenRecord.mk.injEq] at h h' ⊢
    grind
  | refreshTokens =>
    cases a; cases b; cases c
    simp only [RowStep, RefreshToken.mk.injEq] at h h' ⊢
    grind
  | accountTokens =>
    cases a; cases b; cases c
    simp only [RowStep, AccountToken.mk.injEq] at h h' ⊢
    grind
  | mfaCredentials =>
    cases a; cases b; cases c
    simp only [RowStep, MfaCredential.mk.injEq] at h h' ⊢
    grind
  | webauthnChallenges =>
    cases a; cases b; cases c
    simp only [RowStep, WebAuthnChallenge.mk.injEq] at h h' ⊢
    grind
  | _ => trivial

/-- Rows of the other tables are never deleted. -/
def evolution : Evolution Row where
  step := RowStep
  refl := RowStep.refl
  trans := RowStep.trans
  durable t := t ≠ .groups ∧ t ≠ .memberships ∧ t ≠ .rateLimitBuckets

namespace DbCall

/-- The rows that a method may insert into a durable table. -/
def inserts : DbCall → (t : Tab) → List (Row t)
  | .insertAccessToken token, .accessTokens => [token]
  | .insertAuthorizationCode code, .authorizationCodes => [code]
  | .consumeAuthorizationCodeAndInsertTokens _ access _ _, .accessTokens => [access]
  | .consumeAuthorizationCodeAndInsertTokens _ _ refresh _, .refreshTokens => refresh.toList
  | .rotateRefreshTokenAndInsertTokens _ access _ _, .accessTokens => [access]
  | .rotateRefreshTokenAndInsertTokens _ _ refresh _, .refreshTokens => refresh.toList
  | .createOidcClient client, .oidcClients => [client]
  | .createConsentGrant grant, .consentGrants => [grant]
  | .createConsentAuthorization authorization, .consentAuthorizations => [authorization]
  | .createOrganization organization, .organizations => [organization]
  | .createUser user passwordHash, .users => [⟨user, passwordHash⟩]
  | .createBootstrapAdmin user passwordHash _ _, .users => [⟨user, some passwordHash⟩]
  | .createAuthSessionWithNewContextNotification session context _, .authSessions =>
    [⟨session, context⟩]
  | .createAuthSessionWithNewContextNotification _ _ notification, .emailOutbox =>
    notification.toList
  | .rotateAuthSessionWithContext _ session _ context, .authSessions => [⟨session, context⟩]
  | .insertAccountTokenAndEmailOutboxMessage token _, .accountTokens => [token]
  | .insertAccountTokenAndEmailOutboxMessage _ message, .emailOutbox => [message]
  | .consumePasswordRecoveryTokenAndResetUserPassword input, .emailOutbox =>
    input.notification.toList
  | .changeUserPasswordAndRotateSession input, .authSessions =>
    [⟨input.newSession, input.context⟩]
  | .changeUserPasswordAndRotateSession input, .emailOutbox => input.notification.toList
  | .breakGlassGrantAdminOwner _ _ _ _ event, .auditEvents => [event]
  | .createMfaCredential credential, .mfaCredentials => [credential]
  | .insertWebauthnChallenge challenge, .webauthnChallenges => [challenge]
  | .insertAuditEvent event, .auditEvents => [event]
  | .upsertSigningKeyMaterial key, .signingKeys => [key.row]
  | _, _ => []

end DbCall

variable {ins : Tables Row}

/-- The statement keeps to the evolution and inserts only rows of `ins`. -/
abbrev Respects (ins : Tables Row) (e : Stmt Row) : Prop := e.Respects schema evolution ins

namespace Database

theorem rowStep_refreshToken_revoke (i : OffsetDateTime) (t : RefreshToken) :
    RowStep .refreshTokens t (RefreshToken.revoke i t) := by
  simp [RowStep, RefreshToken.revoke]

theorem rowStep_accessToken_revoke (i : OffsetDateTime) (t : AccessTokenRecord) :
    RowStep .accessTokens t (AccessTokenRecord.revoke i t) := by
  simp [RowStep, AccessTokenRecord.revoke]

theorem rowStep_authorizationCode_use (i : OffsetDateTime) (c : AuthorizationCode) :
    RowStep .authorizationCodes c (AuthorizationCode.use i c) := by
  simp [RowStep, AuthorizationCode.use]

theorem rowStep_authSession_revoke (i : OffsetDateTime) (r : AuthSessionRow) :
    RowStep .authSessions r (AuthSessionRow.revoke i r) := by
  simp [RowStep, AuthSessionRow.revoke]

theorem all_update {t : Tab} {p : Db → Row t → Bool} {f : Row t → Row t}
    (h : ∀ db r, p db r = true → RowStep t r (f r)) : (update t p f).All (Respects ins) :=
  .perform fun _ => h

theorem all_insert {t : Tab} {r : Row t} (h : r ∈ ins t) : (insert t r).All (Respects ins) :=
  .perform fun _ => h

theorem all_lock (t : Tab) (m : LockMode) (p : Db → Row t → Bool) :
    (lock t m p).All (Respects ins) := .perform trivial

theorem all_select : select.All (Respects ins) := .perform trivial

theorem all_fetchOne {α : Type} {P : Stmt Row → Prop} (rows : List α) : (fetchOne rows).All P := by
  cases rows <;> trivial

theorem all_insertTokens {access : AccessTokenRecord} {refresh : Option RefreshToken}
    (ha : access ∈ ins .accessTokens) (hr : ∀ t ∈ refresh, t ∈ ins .refreshTokens) :
    (insertAccessTokenRecord access).All (Respects ins) ∧
      (insertRefreshTokenRecords refresh).All (Respects ins) := by
  refine ⟨all_insert ha, ?_⟩
  cases refresh with
  | none => trivial
  | some t => exact all_insert (hr t rfl)

theorem all_consumeAuthorizationCodeAndInsertTokens {h access refresh i}
    (ha : access ∈ ins .accessTokens) (hr : ∀ t ∈ refresh, t ∈ ins .refreshTokens) :
    (consumeAuthorizationCodeAndInsertTokens h access refresh i).All (Respects ins) := by
  refine .bind (all_update fun _ c _ => ⟨rfl, nofun⟩) fun consumed => ?_
  split
  · trivial
  · exact .bind (all_insertTokens ha hr).1 fun _ => .bind (all_insertTokens ha hr).2 fun _ => trivial

theorem all_rotateRefreshTokenAndInsertTokens {h access refresh i}
    (ha : access ∈ ins .accessTokens) (hr : ∀ t ∈ refresh, t ∈ ins .refreshTokens) :
    (rotateRefreshTokenAndInsertTokens h access refresh i).All (Respects ins) := by
  refine .bind (all_update fun _ t _ => ⟨rfl, nofun, id⟩) fun rotated => ?_
  split
  · trivial
  · exact .bind (all_insertTokens ha hr).1 fun _ => .bind (all_insertTokens ha hr).2 fun _ => trivial

theorem all_revokeRefreshTokenFamilyAndAccessTokens (f : Uuid) (i : OffsetDateTime) :
    (revokeRefreshTokenFamilyAndAccessTokens f i).All (Respects ins) :=
  .bind (all_update fun _ t _ => rowStep_refreshToken_revoke i t) fun _ =>
    .bind (all_update fun _ t _ => rowStep_accessToken_revoke i t) fun _ => trivial

theorem all_invalidatePendingAuthorizationCodes (o : OrganizationId) (c : ClientId)
    (i : OffsetDateTime) : (invalidatePendingAuthorizationCodes o c i).All (Respects ins) :=
  .bind (all_update fun _ c _ => rowStep_authorizationCode_use i c) fun _ => trivial

theorem all_revokeActiveTokens (o : OrganizationId) (c : ClientId) (i : OffsetDateTime) :
    (revokeActiveTokens o c i).All (Respects ins) :=
  .bind (all_update fun _ t _ => rowStep_accessToken_revoke i t) fun _ =>
    .bind (all_update fun _ t _ => rowStep_refreshToken_revoke i t) fun _ => trivial

theorem all_updateOidcClientStatus (o : OrganizationId) (c : ClientId) (s : OidcClientStatus)
    (i : OffsetDateTime) : (updateOidcClientStatus o c s i).All (Respects ins) := by
  refine .bind (all_lock ..) fun locked => ?_
  split
  · trivial
  refine .bind (all_update fun _ _ _ => ⟨rfl, rfl, rfl⟩) fun _ =>
    .bind (all_fetchOne _) fun _ => .bind ?_ fun _ => .ret _
  split
  · exact .bind (all_invalidatePendingAuthorizationCodes ..) fun _ =>
      .bind (all_revokeActiveTokens ..) fun _ => .ret _
  · trivial

theorem all_updateOidcClientDetails (o : OrganizationId) (c : ClientId)
    (d : OidcClientDetailsUpdate) (i : OffsetDateTime) :
    (updateOidcClientDetails o c d i).All (Respects ins) := by
  refine .bind (all_lock ..) fun locked => ?_
  split
  · refine .bind (all_update fun _ _ _ => ⟨rfl, rfl, rfl⟩) fun _ =>
      .bind (all_fetchOne _) fun _ => .bind ?_ fun _ => .bind ?_ fun _ => .ret _
    · split
      · exact all_invalidatePendingAuthorizationCodes ..
      · trivial
    · split
      · exact all_revokeActiveTokens ..
      · trivial
  · trivial

theorem all_revokeConsentGrantAndTokens (o : OrganizationId) (c : Option ClientId)
    (u : Option UserId) (g : Uuid) (i : OffsetDateTime) :
    (revokeConsentGrantAndTokens o c u g i).All (Respects ins) := by
  refine .bind (all_lock ..) fun locked => ?_
  split
  · exact .bind (all_update fun _ g hg => ⟨rfl, fun _ => (of_decide_eq_true hg).2.2.2⟩) fun _ =>
      .bind (all_update fun _ c _ => rowStep_authorizationCode_use i c) fun _ =>
      .bind (all_update fun _ t _ => rowStep_accessToken_revoke i t) fun _ =>
      .bind (all_update fun _ t _ => rowStep_refreshToken_revoke i t) fun _ => trivial
  · trivial

theorem all_createOrganization {o : Organization} (ho : o ∈ ins .organizations) :
    (createOrganization o).All (Respects ins) := by
  refine .bind all_select fun db => ?_
  split
  · trivial
  · exact .bind (all_insert ho) fun _ => trivial

theorem all_activeGroupOwnerCountExcludingUser (o : OrganizationId) (g : GroupId) (u : UserId) :
    (activeGroupOwnerCountExcludingUser o g u).All (Respects ins) :=
  .bind all_select fun _ => trivial

theorem all_deactivationWouldRemoveLastOwner (o : OrganizationId) (u : UserId)
    (current next : UserStatus) (slug : String) :
    (deactivationWouldRemoveLastOwner o u current next slug).All (Respects ins) := by
  unfold deactivationWouldRemoveLastOwner
  split
  · trivial
  refine .bind (.bind (all_lock ..) fun _ => trivial) fun g => ?_
  split
  · refine .bind (.bind all_select fun _ => trivial) fun owner => ?_
    split
    · trivial
    · exact .bind (all_activeGroupOwnerCountExcludingUser ..) fun _ => trivial
  · trivial

theorem all_lockedUserForUpdate (o : OrganizationId) (u : UserId) :
    (lockedUserForUpdate o u).All (Respects ins) := .bind (all_lock ..) fun _ => trivial

theorem all_revokeUserRuntimeCredentials (o : OrganizationId) (u : UserId) (i : OffsetDateTime) :
    (revokeUserRuntimeCredentials o u i).All (Respects ins) :=
  .bind (all_update fun _ r _ => rowStep_authSession_revoke i r) fun _ =>
    .bind (all_update fun _ t _ => rowStep_accessToken_revoke i t) fun _ =>
    .bind (all_update fun _ t _ => rowStep_refreshToken_revoke i t) fun _ => trivial

theorem all_updateUserStatus (o : OrganizationId) (u : UserId) (s : UserStatus) (slug : String)
    (i : OffsetDateTime) : (updateUserStatus o u s slug i).All (Respects ins) := by
  refine .bind (all_lockedUserForUpdate ..) fun existing => ?_
  split
  · refine .bind (all_deactivationWouldRemoveLastOwner ..) fun refused => ?_
    split
    · trivial
    exact .bind (all_update fun _ _ _ => ⟨rfl, rfl⟩) fun _ => .bind (all_fetchOne _) fun _ =>
      .bind (.when (all_revokeUserRuntimeCredentials ..)) fun _ => trivial
  · trivial

theorem all_updateUserFromScim (input : ScimUserUpdateInput) :
    (updateUserFromScim input).All (Respects ins) := by
  refine .bind (all_lockedUserForUpdate ..) fun existing => ?_
  split
  · refine .bind (.bind all_select fun _ => trivial) fun taken => ?_
    split
    · trivial
    refine .bind ?_ fun externalIdTaken => ?_
    · split
      · exact .bind all_select fun _ => trivial
      · trivial
    split
    · trivial
    refine .bind (all_deactivationWouldRemoveLastOwner ..) fun refused => ?_
    split
    · trivial
    exact .bind (all_update fun _ _ _ => ⟨rfl, rfl⟩) fun _ => .bind (all_fetchOne _) fun _ =>
      .bind (.when (.bind (all_update fun _ t _ => by simp [RowStep]) fun _ => .ret _)) fun _ =>
      .bind (.when (all_revokeUserRuntimeCredentials ..)) fun _ => trivial
  · trivial

theorem all_createBootstrapAdmin {user : User} {hash : String} {group : Group}
    {membership : Membership} (hu : ⟨user, some hash⟩ ∈ ins .users) :
    (createBootstrapAdmin user hash group membership).All (Respects ins) := by
  refine .bind (all_lock ..) fun org => .bind (.when (.fail _)) fun _ =>
    .bind all_select fun db => ?_
  split
  · trivial
  · exact .bind (all_insert hu) fun _ => .bind (.perform fun h => absurd rfl h.1) fun _ =>
      .bind (.perform fun h => absurd rfl h.2.1) fun _ => trivial

theorem all_createAuthSessionWithNewContextNotification {session : AuthSession}
    {context : SessionRequestContext} {notification : Option EmailOutboxMessage}
    (hs : ⟨session, context⟩ ∈ ins .authSessions)
    (hn : ∀ m ∈ notification, m ∈ ins .emailOutbox) :
    (createAuthSessionWithNewContextNotification session context notification).All
      (Respects ins) := by
  refine .bind ?_ fun known => .bind (all_insert hs) fun _ => ?_
  · split
    · exact .bind (all_lock ..) fun _ => .bind all_select fun _ => trivial
    · trivial
  · split
    · trivial
    cases notification with
    | none => trivial
    | some m => exact .bind (all_insert (hn m rfl)) fun _ => trivial

theorem all_rotateAuthSessionWithContext {old : SessionId} {session : AuthSession}
    {i : OffsetDateTime} {context : SessionRequestContext}
    (hs : ⟨session, context⟩ ∈ ins .authSessions) :
    (rotateAuthSessionWithContext old session i context).All (Respects ins) := by
  refine .bind (all_update fun _ _ _ => ⟨rfl, nofun⟩) fun revoked => ?_
  exact .bind (.when (.fail _)) fun _ => .bind (all_insert hs) fun _ => trivial

theorem all_consumeAccountTokenAndSetUserEmailVerified (t : Uuid) (u : UserId)
    (i : OffsetDateTime) :
    (consumeAccountTokenAndSetUserEmailVerified t u i).All (Respects ins) := by
  refine .bind (all_update fun _ _ _ => ⟨rfl, nofun⟩) fun consumed => ?_
  split
  · trivial
  refine .bind (all_update fun _ _ _ => ⟨rfl, rfl⟩) fun updated => ?_
  split
  · trivial
  · trivial

theorem all_consumeAccountTokenAndSetUserPassword (t : Uuid) (u : UserId) (hash : String)
    (verified revoke : Bool) (i : OffsetDateTime) :
    (consumeAccountTokenAndSetUserPassword t u hash verified revoke i).All (Respects ins) := by
  refine .bind (all_update fun _ _ _ => ⟨rfl, nofun⟩) fun consumed => ?_
  split
  · trivial
  refine .bind (all_update fun _ _ _ => ⟨rfl, rfl⟩) fun updated => ?_
  split
  · trivial
  · exact .bind (.when (.bind (all_update fun _ r _ => rowStep_authSession_revoke i r) fun _ =>
      .ret _)) fun _ => trivial

theorem all_revokeLiveUserSessions (o : OrganizationId) (u : UserId) (i : OffsetDateTime) :
    (revokeLiveUserSessions o u i).All (Respects ins) :=
  .bind (all_update fun _ r _ => rowStep_authSession_revoke i r) fun _ => trivial

theorem all_revokeLiveUserTokens (o : OrganizationId) (u : UserId) (i : OffsetDateTime) :
    (revokeLiveUserTokens o u i).All (Respects ins) :=
  .bind (all_update fun _ t _ => rowStep_accessToken_revoke i t) fun _ =>
    .bind (all_update fun _ t _ => rowStep_refreshToken_revoke i t) fun _ => trivial

theorem all_insertNotification {notification : Option EmailOutboxMessage}
    (hn : ∀ m ∈ notification, m ∈ ins .emailOutbox) :
    (insertNotification notification).All (Respects ins) := by
  cases notification with
  | none => trivial
  | some m => exact all_insert (hn m rfl)

theorem all_consumePasswordRecoveryTokenAndResetUserPassword {input : PasswordRecoveryInput}
    (hn : ∀ m ∈ input.notification, m ∈ ins .emailOutbox) :
    (consumePasswordRecoveryTokenAndResetUserPassword input).All (Respects ins) := by
  refine .bind (all_update fun _ _ _ => ⟨rfl, nofun⟩) fun consumed => ?_
  split
  · trivial
  refine .bind (all_update fun _ _ _ => ⟨rfl, rfl⟩) fun updated => ?_
  split
  · trivial
  exact .bind (all_update fun _ _ _ => ⟨rfl, nofun⟩) fun _ =>
    .bind (all_revokeLiveUserSessions ..) fun _ => .bind (all_revokeLiveUserTokens ..) fun _ =>
    .bind (all_insertNotification hn) fun _ => trivial

theorem all_changeUserPasswordAndRotateSession {input : PasswordChangeInput}
    (hs : ⟨input.newSession, input.context⟩ ∈ ins .authSessions)
    (hn : ∀ m ∈ input.notification, m ∈ ins .emailOutbox) :
    (changeUserPasswordAndRotateSession input).All (Respects ins) := by
  refine .bind (all_lock ..) fun locked => ?_
  split
  · trivial
  exact .bind (all_update fun _ _ _ => ⟨rfl, rfl⟩) fun _ =>
    .bind (all_revokeLiveUserSessions ..) fun _ => .bind (all_insert hs) fun _ =>
    .bind (all_revokeLiveUserTokens ..) fun _ =>
    .bind (all_update fun _ t _ => by simp [RowStep]) fun _ =>
    .bind (all_insertNotification hn) fun _ => trivial

theorem all_userHasGroupRole (o : OrganizationId) (u : UserId) (slug : String)
    (roles : List MembershipRole) : (userHasGroupRole o u slug roles).All (Respects ins) := by
  unfold userHasGroupRole
  split
  · trivial
  · exact .bind all_select fun _ => trivial

theorem all_lockedGroup (o : OrganizationId) (g : GroupId) :
    (lockedGroup o g).All (Respects ins) := .bind (all_lock ..) fun _ => trivial

theorem all_lockedMembershipRole (o : OrganizationId) (g : GroupId) (u : UserId) :
    (lockedMembershipRole o g u).All (Respects ins) := .bind (all_lock ..) fun _ => trivial

theorem all_wouldRemoveLastActiveOwner (o : OrganizationId) (g : GroupId) (u : UserId) :
    (wouldRemoveLastActiveOwner o g u).All (Respects ins) :=
  .bind all_select fun _ => .bind (all_activeGroupOwnerCountExcludingUser ..) fun _ => trivial

theorem all_upsertMembership (m : Membership) : (upsertMembership m).All (Respects ins) :=
  .bind (.perform fun h => absurd rfl h.2.1) fun _ => trivial

theorem all_deleteMemberships (p : Db → Membership → Bool) :
    (delete .memberships p).All (Respects ins) := .perform fun h => absurd rfl h.2.1

theorem all_upsertGroupMembership (m : Membership) (slug : String) :
    (upsertGroupMembership m slug).All (Respects ins) := by
  refine .bind (all_lockedGroup ..) fun group => ?_
  split
  · refine .bind (.bind all_select fun _ => trivial) fun found => ?_
    split
    · trivial
    refine .bind (all_lockedMembershipRole ..) fun role => .bind ?_ fun refused => ?_
    · split
      · exact all_wouldRemoveLastActiveOwner ..
      · trivial
    split
    · trivial
    · exact .bind (all_upsertMembership m) fun _ => trivial
  · trivial

theorem all_deleteGroupMembership (o : OrganizationId) (g : GroupId) (u : UserId)
    (slug : String) : (deleteGroupMembership o g u slug).All (Respects ins) := by
  refine .bind (all_lockedGroup ..) fun group => ?_
  split
  · refine .bind (all_lockedMembershipRole ..) fun role => ?_
    split
    · refine .bind ?_ fun refused => ?_
      · split
        · exact all_wouldRemoveLastActiveOwner ..
        · trivial
      split
      · trivial
      · exact .bind (all_deleteMemberships _) fun _ => trivial
    · trivial
  · trivial

theorem all_groupExternalIdTaken (o : OrganizationId) (g : Option GroupId)
    (externalId : Option String) :
    (match externalId with
      | some externalId => groupExternalIdExists o externalId g
      | none => pure false).All (Respects ins) := by
  split
  · exact .bind all_select fun _ => trivial
  · trivial

theorem all_allUsersExist (o : OrganizationId) (us : List UserId) :
    (allUsersExist o us).All (Respects ins) := by
  unfold allUsersExist
  split
  · trivial
  · exact .bind all_select fun _ => trivial

theorem all_insertScimGroupMemberIds (o : OrganizationId) (g : GroupId) (i : OffsetDateTime)
    (us : List UserId) : (insertScimGroupMemberIds o g i us).All (Respects ins) := by
  induction us with
  | nil => trivial
  | cons u us ih => exact .bind (all_upsertMembership _) fun _ => ih

theorem all_createScimGroup (g : Group) (us : List UserId) :
    (createScimGroup g us).All (Respects ins) := by
  refine .bind (.bind all_select fun _ => trivial) fun taken => ?_
  split
  · trivial
  refine .bind (all_groupExternalIdTaken ..) fun taken => ?_
  split
  · trivial
  refine .bind (all_allUsersExist ..) fun found => ?_
  split
  · trivial
  · exact .bind (.perform fun h => absurd rfl h.1) fun _ =>
      .bind (all_insertScimGroupMemberIds ..) fun _ => trivial

theorem all_replaceScimGroup (input : ScimGroupReplaceInput) :
    (replaceScimGroup input).All (Respects ins) := by
  refine .bind (all_lockedGroup ..) fun group => ?_
  split
  · split
    · trivial
    refine .bind (all_groupExternalIdTaken ..) fun taken => ?_
    split
    · trivial
    refine .bind (all_allUsersExist ..) fun found => ?_
    split
    · trivial
    · exact .bind (all_update fun _ _ _ => trivial) fun _ => .bind (all_fetchOne _) fun _ =>
        .bind (all_deleteMemberships _) fun _ =>
        .bind (all_insertScimGroupMemberIds ..) fun _ => trivial
  · trivial

theorem all_deleteScimGroup (o : OrganizationId) (g : GroupId) (slug : String) :
    (deleteScimGroup o g slug).All (Respects ins) := by
  refine .bind (all_lockedGroup ..) fun group => ?_
  split
  · split
    · trivial
    · exact .bind (.perform fun h => absurd rfl h.1) fun _ =>
        .bind (all_deleteMemberships _) fun _ => trivial
  · trivial

theorem all_breakGlassGrantAdminOwner {o : OrganizationId} {u : UserId} {g : Group}
    {i : OffsetDateTime} {event : AuditEvent} (he : event ∈ ins .auditEvents) :
    (breakGlassGrantAdminOwner o u g i event).All (Respects ins) := by
  refine .bind (all_lock ..) fun org => .bind (.when (.fail _)) fun _ =>
    .bind (all_lockedUserForUpdate ..) fun user => ?_
  split
  · refine .bind (all_lock ..) fun rows => .bind ?_ fun group => ?_
    · split
      · trivial
      · exact .bind (.perform fun h => absurd rfl h.1) fun _ => trivial
    · exact .bind (all_lockedMembershipRole ..) fun _ => .bind (all_upsertMembership _) fun _ =>
        .bind (all_update fun _ _ _ => ⟨rfl, rfl⟩) fun _ => .bind (all_fetchOne _) fun _ =>
        .bind (all_insert he) fun _ => trivial
  · trivial

theorem all_updateEach {κ : Type} {t : Tab} {p : κ → Row t → Bool} {f : κ → Row t → Row t}
    (h : ∀ k r, RowStep t r (f k r)) (ks : List κ) : (updateEach t p f ks).All (Respects ins) := by
  induction ks with
  | nil => trivial
  | cons k ks ih => exact .bind (all_update fun _ r _ => h k r) fun _ => ih

end Database

open Database

/-- Every method keeps to the evolution and inserts only what it was given. -/
theorem DbCall.tx_respects (c : DbCall) : c.tx.All (Respects c.inserts) := by
  cases c with
  -- queries
  | getAccessToken | getAuthorizationCode | getRefreshToken | getOidcClientByPublicId
  | getOidcClient | findUserByEmail | findUserByScimExternalId | getUserWithPassword | getUser
  | getAuthSession
  | getAccountTokenByHash | getGroup | listUserGroupSlugs | getGroupMembership
  | listScimGroupMembersForGroups | findActiveWebauthnCredentialByCredentialId | listMfaCredentials
  | getRateLimitBucket | activeJwks | activeSigningKey | listEncryptedSigningKeyMaterials
  | listEmailOutboxDeliveryTokens | getConsentPolicyTemplate | pendingConsentAuthorizations
  | hasActiveConsentGrant => exact .bind all_select fun _ => trivial
  | userHasGroupRole => exact all_userHasGroupRole ..
  -- one insert
  | insertAccessToken | insertAuthorizationCode | createOidcClient | createConsentGrant
  | createConsentAuthorization
  | createUser | createMfaCredential | insertWebauthnChallenge | insertAuditEvent =>
    exact .bind (all_insert (List.mem_singleton_self _)) fun _ => trivial
  | createGroup => exact .bind (.perform fun h => absurd rfl h.1) fun _ => trivial
  -- one update
  | revokeAccessToken | revokeAuthSession | revokeUserBrowserSession =>
    exact .bind (all_update fun _ _ _ => ⟨rfl, nofun⟩) fun _ => trivial
  | markConsentAuthorizationConsumed =>
    exact .bind (all_update fun _ _ _ => ⟨rfl, nofun⟩) fun _ => trivial
  | rotateOidcClientSecret =>
    exact .bind (all_update fun _ _ _ => ⟨rfl, rfl, rfl⟩) fun _ => trivial
  | setUserLastLogin => exact .bind (all_update fun _ _ _ => ⟨rfl, rfl⟩) fun _ => trivial
  | markMfaCredentialUsed | updateMfaCredentialMetadata | consumeActiveRecoveryCode
  | revokeActiveMfaCredentialsByKind => exact .bind (all_update fun _ _ _ => rfl) fun _ => trivial
  | retireSigningKey => exact .bind (all_update fun _ _ _ => trivial) fun _ => trivial
  -- transactions
  | consumeAuthorizationCodeAndInsertTokens =>
    exact all_consumeAuthorizationCodeAndInsertTokens (by simp [inserts]) (by simp [inserts])
  | rotateRefreshTokenAndInsertTokens =>
    exact all_rotateRefreshTokenAndInsertTokens (by simp [inserts]) (by simp [inserts])
  | revokeRefreshTokenFamilyAndAccessTokens =>
    exact all_revokeRefreshTokenFamilyAndAccessTokens ..
  | updateOidcClientStatus => exact all_updateOidcClientStatus ..
  | updateOidcClientDetails => exact all_updateOidcClientDetails ..
  | revokeUserClientConsentAndTokens => exact all_revokeConsentGrantAndTokens ..
  | revokeCurrentUserConsentAndTokens => exact all_revokeConsentGrantAndTokens ..
  | createOrganization => exact all_createOrganization (by simp [inserts])
  | createBootstrapAdmin => exact all_createBootstrapAdmin (by simp [inserts])
  | updateUserStatus => exact all_updateUserStatus ..
  | updateUserFromScim => exact all_updateUserFromScim _
  | createAuthSessionWithNewContextNotification =>
    exact all_createAuthSessionWithNewContextNotification (by simp [inserts]) (by simp [inserts])
  | rotateAuthSessionWithContext => exact all_rotateAuthSessionWithContext (by simp [inserts])
  | insertAccountTokenAndEmailOutboxMessage =>
    exact .bind (all_insert (by simp [inserts])) fun _ =>
      .bind (all_insert (by simp [inserts])) fun _ => trivial
  | consumeAccountTokenAndSetUserEmailVerified =>
    exact all_consumeAccountTokenAndSetUserEmailVerified ..
  | consumeAccountTokenAndSetUserPassword => exact all_consumeAccountTokenAndSetUserPassword ..
  | consumePasswordRecoveryTokenAndResetUserPassword =>
    exact all_consumePasswordRecoveryTokenAndResetUserPassword (by simp [inserts])
  | changeUserPasswordAndRotateSession =>
    exact all_changeUserPasswordAndRotateSession (by simp [inserts]) (by simp [inserts])
  | upsertGroupMembership => exact all_upsertGroupMembership ..
  | deleteGroupMembership => exact all_deleteGroupMembership ..
  | createScimGroup => exact all_createScimGroup ..
  | replaceScimGroup => exact all_replaceScimGroup _
  | deleteScimGroup => exact all_deleteScimGroup ..
  | breakGlassGrantAdminOwner => exact all_breakGlassGrantAdminOwner (by simp [inserts])
  | revokeMfaCredential =>
    refine .bind (all_lock ..) fun rows => ?_
    split
    · exact .bind (all_update fun _ _ _ => rfl) fun _ => trivial
    · trivial
  | consumeWebauthnChallenge =>
    refine .bind (all_lock ..) fun rows => ?_
    split
    · exact .bind (all_update fun _ _ _ => ⟨rfl, nofun⟩) fun _ => trivial
    · trivial
  | recordRateLimitFailure =>
    exact .bind (all_lock ..) fun _ => .bind (.perform fun h => absurd rfl h.2.2) fun _ => trivial
  | clearRateLimitBucket => exact .bind (.perform fun h => absurd rfl h.2.2) fun _ => trivial
  | applyKeyEncryptionRotation =>
    exact .bind (all_updateEach (t := .signingKeys) (fun _ _ => trivial) _) fun _ =>
      .bind (all_updateEach (t := .emailOutbox) (fun _ _ => trivial) _) fun _ => trivial
  | upsertSigningKeyMaterial key =>
    exact .bind (.when (.bind (all_update fun _ _ _ => trivial) fun _ => .ret _)) fun _ =>
      .bind (.perform fun _ => ⟨by simp [inserts], fun _ _ => trivial⟩) fun _ => trivial

/-- The methods that only read. -/
def DbCall.isQuery : DbCall → Bool
  | .getAccessToken _ | .getAuthorizationCode _ | .getRefreshToken _ | .getOidcClientByPublicId _
  | .getOidcClient _ | .findUserByEmail _ _ | .findUserByScimExternalId _ _
  | .getUserWithPassword _ _ | .getUser _
  | .getAuthSession _ | .getAccountTokenByHash _ _ | .getGroup _ _ | .userHasGroupRole ..
  | .listUserGroupSlugs _ _ | .getGroupMembership .. | .listScimGroupMembersForGroups ..
  | .findActiveWebauthnCredentialByCredentialId .. | .listMfaCredentials .. | .getRateLimitBucket _ | .activeJwks
  | .activeSigningKey | .listEncryptedSigningKeyMaterials | .listEmailOutboxDeliveryTokens
  | .getConsentPolicyTemplate .. | .pendingConsentAuthorizations _ | .hasActiveConsentGrant .. => true
  | _ => false

theorem DbCall.exec_of_isQuery {c : DbCall} (hc : c.isQuery = true) (s : Store) :
    (c.exec s).2 = s := by
  cases c with
  | userHasGroupRole o u slug roles => cases roles <;> rfl
  | _ => first | rfl | cases hc

/-- What one method can make of the durable tables. -/
theorem DbCall.exec_grows (c : DbCall) (s : Store) :
    Grows evolution c.inserts s.tables (c.exec s).2.tables :=
  Tx.atomic_grows c.tx_respects rfl

end CairnId
