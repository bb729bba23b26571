import CairnId.Database.Groups
import CairnId.Database.Mfa
import CairnId.Database.SigningKeys

/-!
# The methods of `Database`

Every method as a call with its answer, and as one atomic step on the store.
-/

namespace CairnId

open Concurrency Concurrency.Sql

open Database in
/-- The methods of `Database` that the handlers use. -/
inductive DbCall where
  -- oauth_tokens
  | insertAccessToken (token : AccessTokenRecord)
  | getAccessToken (tokenHash : String)
  | revokeAccessToken (tokenHash : String) (instant : OffsetDateTime)
  | insertAuthorizationCode (code : AuthorizationCode)
  | getAuthorizationCode (codeHash : String)
  | consumeAuthorizationCodeAndInsertTokens (codeHash : String) (accessToken : AccessTokenRecord)
      (refreshToken : Option RefreshToken) (instant : OffsetDateTime)
  | getRefreshToken (tokenHash : String)
  | rotateRefreshTokenAndInsertTokens (tokenHash : String) (accessToken : AccessTokenRecord)
      (refreshToken : Option RefreshToken) (instant : OffsetDateTime)
  | revokeRefreshTokenFamilyAndAccessTokens (familyId : Uuid) (instant : OffsetDateTime)
  -- oidc_clients
  | createOidcClient (client : OidcClient)
  | getOidcClientByPublicId (clientId : String)
  | getOidcClient (id : ClientId)
  | updateOidcClientStatus (organizationId : OrganizationId) (clientId : ClientId)
      (status : OidcClientStatus) (instant : OffsetDateTime)
  | updateOidcClientDetails (organizationId : OrganizationId) (clientId : ClientId)
      (details : OidcClientDetailsUpdate) (instant : OffsetDateTime)
  | rotateOidcClientSecret (organizationId : OrganizationId) (clientId : ClientId)
      (clientSecretHash : String)
  | getConsentPolicyTemplate (organizationId : OrganizationId) (id : Uuid)
  -- consent_grants; the two statements of `consume_consent_authorization` are calls
  -- of their own, since nothing joins them in a transaction
  | createConsentGrant (grant : ConsentGrant)
  | createConsentAuthorization (authorization : ConsentAuthorization)
  | pendingConsentAuthorizations (request : ConsentAuthorizationConsumption)
  | markConsentAuthorizationConsumed (id : Uuid) (instant : OffsetDateTime)
  | hasActiveConsentGrant (organizationId : OrganizationId) (userId : UserId) (clientId : ClientId)
      (scopes : List String)
  | revokeUserClientConsentAndTokens (organizationId : OrganizationId) (clientId : ClientId)
      (grantId : Uuid) (instant : OffsetDateTime)
  | revokeCurrentUserConsentAndTokens (organizationId : OrganizationId) (userId : UserId)
      (grantId : Uuid) (instant : OffsetDateTime)
  -- users
  | createOrganization (organization : Organization)
  | createUser (user : User) (passwordHash : Option String)
  | createBootstrapAdmin (user : User) (passwordHash : String) (adminGroup : Group)
      (adminMembership : Membership)
  | setUserLastLogin (id : UserId) (instant : OffsetDateTime)
  | findUserByEmail (organizationId : OrganizationId) (email : String)
  | findUserByScimExternalId (organizationId : OrganizationId) (externalId : String)
  | getUserWithPassword (organizationId : OrganizationId) (userId : UserId)
  | getUser (id : UserId)
  | updateUserStatus (organizationId : OrganizationId) (userId : UserId) (status : UserStatus)
      (protectedOwnerGroupSlug : String) (instant : OffsetDateTime)
  | updateUserFromScim (input : ScimUserUpdateInput)
  -- auth_sessions
  | getAuthSession (id : SessionId)
  | revokeAuthSession (id : SessionId) (instant : OffsetDateTime)
  | revokeUserBrowserSession (organizationId : OrganizationId) (userId : UserId)
      (sessionId : SessionId) (instant : OffsetDateTime)
  | createAuthSessionWithNewContextNotification (session : AuthSession)
      (context : SessionRequestContext) (notification : Option EmailOutboxMessage)
  | rotateAuthSessionWithContext (oldSessionId : SessionId) (newSession : AuthSession)
      (instant : OffsetDateTime) (context : SessionRequestContext)
  -- account_tokens
  | insertAccountTokenAndEmailOutboxMessage (token : AccountToken) (message : EmailOutboxMessage)
  | getAccountTokenByHash (tokenHash : String) (kind : AccountTokenKind)
  | consumeAccountTokenAndSetUserEmailVerified (tokenId : Uuid) (userId : UserId)
      (instant : OffsetDateTime)
  | consumeAccountTokenAndSetUserPassword (tokenId : Uuid) (userId : UserId)
      (passwordHash : String) (emailVerified revokeSessions : Bool) (instant : OffsetDateTime)
  | consumePasswordRecoveryTokenAndResetUserPassword (input : PasswordRecoveryInput)
  | changeUserPasswordAndRotateSession (input : PasswordChangeInput)
  -- groups
  | createGroup (group : Group)
  | getGroup (organizationId : OrganizationId) (groupId : GroupId)
  | userHasGroupRole (organizationId : OrganizationId) (userId : UserId) (groupSlug : String)
      (roles : List MembershipRole)
  | listUserGroupSlugs (organizationId : OrganizationId) (userId : UserId)
  | getGroupMembership (organizationId : OrganizationId) (groupId : GroupId) (userId : UserId)
  | listScimGroupMembersForGroups (organizationId : OrganizationId) (groupIds : List GroupId)
  | upsertGroupMembership (membership : Membership) (protectedOwnerGroupSlug : String)
  | deleteGroupMembership (organizationId : OrganizationId) (groupId : GroupId) (userId : UserId)
      (protectedOwnerGroupSlug : String)
  | createScimGroup (group : Group) (memberUserIds : List UserId)
  | replaceScimGroup (input : ScimGroupReplaceInput)
  | deleteScimGroup (organizationId : OrganizationId) (groupId : GroupId)
      (protectedGroupSlug : String)
  | breakGlassGrantAdminOwner (organizationId : OrganizationId) (userId : UserId)
      (adminGroup : Group) (instant : OffsetDateTime) (auditEvent : AuditEvent)
  -- mfa
  | findActiveWebauthnCredentialByCredentialId (organizationId : OrganizationId)
      (credentialId : String)
  | listMfaCredentials (organizationId : OrganizationId) (userId : UserId) (kind : MfaKind)
  | createMfaCredential (credential : MfaCredential)
  | markMfaCredentialUsed (id : Uuid) (instant : OffsetDateTime)
  | updateMfaCredentialMetadata (id : Uuid) (secretMetadata : Json)
      (lastUsedAt : Option OffsetDateTime)
  | consumeActiveRecoveryCode (organizationId : OrganizationId) (userId : UserId)
      (codeHash : String) (instant : OffsetDateTime)
  | revokeMfaCredential (organizationId : OrganizationId) (userId : UserId) (credentialId : Uuid)
      (instant : OffsetDateTime)
  | revokeActiveMfaCredentialsByKind (organizationId : OrganizationId) (userId : UserId)
      (kind : MfaKind) (instant : OffsetDateTime)
  | insertWebauthnChallenge (challenge : WebAuthnChallenge)
  | consumeWebauthnChallenge (id : Uuid) (organizationId : OrganizationId) (userId : UserId)
      (kind : WebAuthnChallengeKind) (instant : OffsetDateTime)
  -- rate_limit, audit
  | getRateLimitBucket (key : String)
  | recordRateLimitFailure (key purpose : String) (now : OffsetDateTime) (window : Duration)
      (maxAttempts : Int) (blockFor : Duration)
  | clearRateLimitBucket (key : String)
  | insertAuditEvent (event : AuditEvent)
  -- signing_keys
  | activeJwks
  | activeSigningKey
  | listEncryptedSigningKeyMaterials
  | listEmailOutboxDeliveryTokens
  | applyKeyEncryptionRotation (signingKeys : List SigningKeyMaterial)
      (emailDeliveryTokens : List ReencryptedEmailOutboxDeliveryToken) (now : OffsetDateTime)
  | upsertSigningKeyMaterial (key : SigningKeyMaterial)
  | retireSigningKey (kid : String) (retiredAt : OffsetDateTime)

namespace DbCall

open Database in
/-- What a method returns when it does not fail. -/
abbrev Result : DbCall → Type
  | .insertAccessToken .. | .revokeAccessToken .. | .insertAuthorizationCode ..
  | .revokeRefreshTokenFamilyAndAccessTokens .. | .createOidcClient .. | .createConsentGrant ..
  | .createConsentAuthorization ..
  | .createOrganization .. | .createUser .. | .setUserLastLogin .. | .revokeAuthSession ..
  | .rotateAuthSessionWithContext .. | .insertAccountTokenAndEmailOutboxMessage ..
  | .createGroup .. | .createMfaCredential .. | .markMfaCredentialUsed ..
  | .updateMfaCredentialMetadata .. | .insertWebauthnChallenge .. | .clearRateLimitBucket ..
  | .insertAuditEvent .. | .applyKeyEncryptionRotation .. | .upsertSigningKeyMaterial .. => Unit
  | .consumeAuthorizationCodeAndInsertTokens .. | .rotateRefreshTokenAndInsertTokens ..
  | .rotateOidcClientSecret .. | .createBootstrapAdmin ..
  | .consumeAccountTokenAndSetUserEmailVerified .. | .consumeAccountTokenAndSetUserPassword ..
  | .userHasGroupRole .. | .consumeActiveRecoveryCode .. | .retireSigningKey ..
  | .markConsentAuthorizationConsumed .. | .hasActiveConsentGrant .. => Bool
  | .getConsentPolicyTemplate .. => Option ConsentPolicyTemplate
  | .pendingConsentAuthorizations .. => List ConsentAuthorization
  | .getAccessToken .. => Option AccessTokenRecord
  | .getAuthorizationCode .. => Option AuthorizationCode
  | .getRefreshToken .. => Option RefreshToken
  | .getOidcClientByPublicId .. | .getOidcClient .. => Option OidcClient
  | .updateOidcClientStatus .. => Option OidcClientStatusMutation
  | .updateOidcClientDetails .. => Option OidcClientDetailsMutation
  | .revokeUserClientConsentAndTokens .. | .revokeCurrentUserConsentAndTokens .. =>
    Option ConsentGrantRevocation
  | .findUserByEmail .. | .getUserWithPassword .. => Option UserWithPassword
  | .getUser .. | .findUserByScimExternalId .. => Option User
  | .updateUserStatus .. => UserStatusMutationOutcome
  | .updateUserFromScim .. => ScimUserUpdateOutcome
  | .getAuthSession .. | .revokeUserBrowserSession .. => Option AuthSession
  | .createAuthSessionWithNewContextNotification .. => Option Uuid
  | .getAccountTokenByHash .. => Option AccountToken
  | .consumePasswordRecoveryTokenAndResetUserPassword .. => Option PasswordMutation
  | .changeUserPasswordAndRotateSession .. => Option (AuthSession × PasswordMutation)
  | .getGroup .. => Option Group
  | .listUserGroupSlugs .. => List String
  | .getGroupMembership .. => Option Membership
  | .listScimGroupMembersForGroups .. => List ScimGroupMember
  | .upsertGroupMembership .. | .deleteGroupMembership .. => MembershipMutationOutcome
  | .createScimGroup .. | .replaceScimGroup .. | .deleteScimGroup .. => ScimGroupMutationOutcome
  | .breakGlassGrantAdminOwner .. => Option BreakGlassAdminRecovery
  | .listMfaCredentials .. => List MfaCredential
  | .revokeMfaCredential .. | .findActiveWebauthnCredentialByCredentialId .. => Option MfaCredential
  | .revokeActiveMfaCredentialsByKind .. => Nat
  | .consumeWebauthnChallenge .. => Option WebAuthnChallenge
  | .getRateLimitBucket .. => Option RateLimitBucket
  | .recordRateLimitFailure .. => RateLimitBucket
  | .activeJwks => List SigningKeyRow
  | .activeSigningKey => Option SigningKeyMaterial
  | .listEncryptedSigningKeyMaterials => List SigningKeyMaterial
  | .listEmailOutboxDeliveryTokens => List EmailOutboxDeliveryToken

/-- The transaction a method runs. -/
def tx : (c : DbCall) → Statements (End c.Result)
  | .insertAccessToken t => Database.insertAccessToken t
  | .getAccessToken h => Database.getAccessToken h
  | .revokeAccessToken h i => Database.revokeAccessToken h i
  | .insertAuthorizationCode c => Database.insertAuthorizationCode c
  | .getAuthorizationCode h => Database.getAuthorizationCode h
  | .consumeAuthorizationCodeAndInsertTokens h a r i =>
    Database.consumeAuthorizationCodeAndInsertTokens h a r i
  | .getRefreshToken h => Database.getRefreshToken h
  | .rotateRefreshTokenAndInsertTokens h a r i =>
    Database.rotateRefreshTokenAndInsertTokens h a r i
  | .revokeRefreshTokenFamilyAndAccessTokens f i =>
    Database.revokeRefreshTokenFamilyAndAccessTokens f i
  | .createOidcClient c => Database.createOidcClient c
  | .getOidcClientByPublicId c => Database.getOidcClientByPublicId c
  | .getOidcClient c => Database.getOidcClient c
  | .updateOidcClientStatus o c s i => Database.updateOidcClientStatus o c s i
  | .updateOidcClientDetails o c d i => Database.updateOidcClientDetails o c d i
  | .rotateOidcClientSecret o c h => Database.rotateOidcClientSecret o c h
  | .getConsentPolicyTemplate o t => Database.getConsentPolicyTemplate o t
  | .createConsentGrant g => Database.createConsentGrant g
  | .createConsentAuthorization a => Database.createConsentAuthorization a
  | .pendingConsentAuthorizations r => Database.pendingConsentAuthorizations r
  | .markConsentAuthorizationConsumed a i => Database.markConsentAuthorizationConsumed a i
  | .hasActiveConsentGrant o u c s => Database.hasActiveConsentGrant o u c s
  | .revokeUserClientConsentAndTokens o c g i =>
    Database.revokeUserClientConsentAndTokens o c g i
  | .revokeCurrentUserConsentAndTokens o u g i =>
    Database.revokeCurrentUserConsentAndTokens o u g i
  | .createOrganization o => Database.createOrganization o
  | .createUser u p => Database.createUser u p
  | .createBootstrapAdmin u p g m => Database.createBootstrapAdmin u p g m
  | .setUserLastLogin u i => Database.setUserLastLogin u i
  | .findUserByEmail o e => Database.findUserByEmail o e
  | .findUserByScimExternalId o e => Database.findUserByScimExternalId o e
  | .getUserWithPassword o u => Database.getUserWithPassword o u
  | .getUser u => Database.getUser u
  | .updateUserStatus o u s p i => Database.updateUserStatus o u s p i
  | .updateUserFromScim i => Database.updateUserFromScim i
  | .getAuthSession s => Database.getAuthSession s
  | .revokeAuthSession s i => Database.revokeAuthSession s i
  | .revokeUserBrowserSession o u s i => Database.revokeUserBrowserSession o u s i
  | .createAuthSessionWithNewContextNotification s c n =>
    Database.createAuthSessionWithNewContextNotification s c n
  | .rotateAuthSessionWithContext o s i c => Database.rotateAuthSessionWithContext o s i c
  | .insertAccountTokenAndEmailOutboxMessage t m =>
    Database.insertAccountTokenAndEmailOutboxMessage t m
  | .getAccountTokenByHash h k => Database.getAccountTokenByHash h k
  | .consumeAccountTokenAndSetUserEmailVerified t u i =>
    Database.consumeAccountTokenAndSetUserEmailVerified t u i
  | .consumeAccountTokenAndSetUserPassword t u p e r i =>
    Database.consumeAccountTokenAndSetUserPassword t u p e r i
  | .consumePasswordRecoveryTokenAndResetUserPassword i =>
    Database.consumePasswordRecoveryTokenAndResetUserPassword i
  | .changeUserPasswordAndRotateSession i => Database.changeUserPasswordAndRotateSession i
  | .createGroup g => Database.createGroup g
  | .getGroup o g => Database.getGroup o g
  | .userHasGroupRole o u s r => Database.userHasGroupRole o u s r
  | .listUserGroupSlugs o u => Database.listUserGroupSlugs o u
  | .getGroupMembership o g u => Database.getGroupMembership o g u
  | .listScimGroupMembersForGroups o g => Database.listScimGroupMembersForGroups o g
  | .upsertGroupMembership m p => Database.upsertGroupMembership m p
  | .deleteGroupMembership o g u p => Database.deleteGroupMembership o g u p
  | .createScimGroup g m => Database.createScimGroup g m
  | .replaceScimGroup i => Database.replaceScimGroup i
  | .deleteScimGroup o g p => Database.deleteScimGroup o g p
  | .breakGlassGrantAdminOwner o u g i a => Database.breakGlassGrantAdminOwner o u g i a
  | .findActiveWebauthnCredentialByCredentialId o c =>
    Database.findActiveWebauthnCredentialByCredentialId o c
  | .listMfaCredentials o u k => Database.listMfaCredentials o u k
  | .createMfaCredential c => Database.createMfaCredential c
  | .markMfaCredentialUsed c i => Database.markMfaCredentialUsed c i
  | .updateMfaCredentialMetadata c m l => Database.updateMfaCredentialMetadata c m l
  | .consumeActiveRecoveryCode o u h i => Database.consumeActiveRecoveryCode o u h i
  | .revokeMfaCredential o u c i => Database.revokeMfaCredential o u c i
  | .revokeActiveMfaCredentialsByKind o u k i => Database.revokeActiveMfaCredentialsByKind o u k i
  | .insertWebauthnChallenge c => Database.insertWebauthnChallenge c
  | .consumeWebauthnChallenge c o u k i => Database.consumeWebauthnChallenge c o u k i
  | .getRateLimitBucket k => Database.getRateLimitBucket k
  | .recordRateLimitFailure k p n w m b => Database.recordRateLimitFailure k p n w m b
  | .clearRateLimitBucket k => Database.clearRateLimitBucket k
  | .insertAuditEvent e => Database.insertAuditEvent e
  | .activeJwks => Database.activeJwks
  | .activeSigningKey => Database.activeSigningKey
  | .listEncryptedSigningKeyMaterials => Database.listEncryptedSigningKeyMaterials
  | .listEmailOutboxDeliveryTokens => Database.listEmailOutboxDeliveryTokens
  | .applyKeyEncryptionRotation k t n => Database.applyKeyEncryptionRotation k t n
  | .upsertSigningKeyMaterial k => Database.upsertSigningKeyMaterial k
  | .retireSigningKey k i => Database.retireSigningKey k i

/-- A method as one atomic step. -/
def exec (c : DbCall) (s : Store) : Except DatabaseError c.Result × Store :=
  Tx.atomic DatabaseError.sqlx c.tx s

end DbCall

end CairnId
