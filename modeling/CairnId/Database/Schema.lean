import CairnId.Concurrency.Sql
import CairnId.Domain

/-!
# The database schema

The tables of `infra/migrations` with their primary keys, unique indexes and
foreign keys.
-/

namespace CairnId

open Concurrency Concurrency.Sql

inductive Tab where
  | organizations
  | users
  | groups
  | memberships
  | consentPolicyTemplates
  | oidcClients
  | authSessions
  | consentGrants
  | consentAuthorizations
  | authorizationCodes
  | accessTokens
  | refreshTokens
  | accountTokens
  | mfaCredentials
  | webauthnChallenges
  | signingKeys
  | emailOutbox
  | auditEvents
  | rateLimitBuckets
  deriving DecidableEq

/-- The rows of a table. -/
abbrev Row : Tab → Type
  | .organizations => Organization
  | .users => UserWithPassword
  | .groups => Group
  | .memberships => Membership
  | .consentPolicyTemplates => ConsentPolicyTemplate
  | .oidcClients => OidcClient
  | .authSessions => AuthSessionRow
  | .consentGrants => ConsentGrant
  | .consentAuthorizations => ConsentAuthorization
  | .authorizationCodes => AuthorizationCode
  | .accessTokens => AccessTokenRecord
  | .refreshTokens => RefreshToken
  | .accountTokens => AccountToken
  | .mfaCredentials => MfaCredential
  | .webauthnChallenges => WebAuthnChallenge
  | .signingKeys => SigningKeyRow
  | .emailOutbox => EmailOutboxMessage
  | .auditEvents => AuditEvent
  | .rateLimitBuckets => RateLimitBucket

/-- Entries of unique indexes, one constructor for each shape of index. -/
inductive Key where
  | id (id : Uuid)
  | text (name : String)
  /-- `(user_id, group_id)` -/
  | pair (a b : Uuid)
  /-- `(id, organization_id)` -/
  | tenant (id organizationId : Uuid)
  /-- `(id, user_id, organization_id)` -/
  | tenantUser (id userId organizationId : Uuid)
  /-- A text that is unique in its organization: an email address, a slug. -/
  | named (organizationId : Uuid) (name : String)
  | scimExternalId (organizationId : Uuid) (externalId : String)
  | webauthnCredentialId (organizationId : Uuid) (credentialId : String)
  /-- The partial index `signing_keys_single_active_idx`. -/
  | signingActive
  deriving DecidableEq

private def tenantUserRef (userId : Option UserId) (organizationId : OrganizationId) :
    List (Tab × Key) :=
  (userId.map fun id => (Tab.users, Key.tenant id organizationId)).toList

def schema : Schema Row Key where
  key
    | .organizations, r => .id r.id
    | .users, r => .id r.user.id
    | .groups, r => .id r.id
    | .memberships, r => .pair r.userId r.groupId
    | .consentPolicyTemplates, r => .id r.id
    | .oidcClients, r => .id r.id
    | .authSessions, r => .id r.session.id
    | .consentGrants, r => .id r.id
    | .consentAuthorizations, r => .id r.id
    | .authorizationCodes, r => .text r.codeHash
    | .accessTokens, r => .text r.tokenHash
    | .refreshTokens, r => .id r.id
    | .accountTokens, r => .id r.id
    | .mfaCredentials, r => .id r.id
    | .webauthnChallenges, r => .id r.id
    | .signingKeys, r => .text r.kid
    | .emailOutbox, r => .id r.id
    | .auditEvents, r => .id r.id
    | .rateLimitBuckets, r => .text r.key
  indexes
    | .organizations, r => [.text r.slug]
    | .users, r =>
      [.tenant r.user.id r.user.organizationId, .named r.user.organizationId r.user.email] ++
        (r.user.scimExternalId.map (.scimExternalId r.user.organizationId)).toList
    | .groups, r =>
      [.tenant r.id r.organizationId, .named r.organizationId r.slug] ++
        (r.scimExternalId.map (.scimExternalId r.organizationId)).toList
    | .consentPolicyTemplates, r =>
      [.tenant r.id r.organizationId, .named r.organizationId r.slug]
    | .oidcClients, r => [.tenant r.id r.organizationId, .text r.clientId]
    | .authSessions, r =>
      [.tenant r.session.id r.session.organizationId,
        .tenantUser r.session.id r.session.userId r.session.organizationId]
    | .refreshTokens, r => [.text r.tokenHash]
    | .accountTokens, r => [.text r.tokenHash]
    | .mfaCredentials, r =>
      if r.kind = .webAuthn ∧ r.secretMetadata.text? "status" = some "active" then
        ((r.secretMetadata.text? "credential_id").map
          (.webauthnCredentialId r.organizationId)).toList
      else []
    | .signingKeys, r => if r.signingActive then [.signingActive] else []
    | _, _ => []
  refs
    | .users, r => [(.organizations, .id r.user.organizationId)]
    | .groups, r => [(.organizations, .id r.organizationId)]
    | .memberships, r =>
      [(.organizations, .id r.organizationId), (.users, .tenant r.userId r.organizationId),
        (.groups, .tenant r.groupId r.organizationId)]
    | .consentPolicyTemplates, r => [(.organizations, .id r.organizationId)]
    | .oidcClients, r =>
      (.organizations, .id r.organizationId) :: (r.consentPolicyTemplateId.map fun id =>
        (Tab.consentPolicyTemplates, Key.tenant id r.organizationId)).toList
    | .authSessions, r =>
      [(.organizations, .id r.session.organizationId),
        (.users, .tenant r.session.userId r.session.organizationId)]
    | .consentGrants, r =>
      [(.organizations, .id r.organizationId), (.users, .tenant r.userId r.organizationId),
        (.oidcClients, .tenant r.clientId r.organizationId)]
    | .consentAuthorizations, r =>
      [(.authSessions, .tenantUser r.sessionId r.userId r.organizationId),
        (.oidcClients, .tenant r.clientId r.organizationId)]
    | .authorizationCodes, r =>
      [(.organizations, .id r.organizationId), (.users, .tenant r.userId r.organizationId),
        (.authSessions, .tenantUser r.sessionId r.userId r.organizationId),
        (.oidcClients, .tenant r.clientId r.organizationId)]
    | .accessTokens, r =>
      [(.organizations, .id r.organizationId), (.oidcClients, .tenant r.clientId r.organizationId)]
        ++ tenantUserRef r.userId r.organizationId
    | .refreshTokens, r =>
      [(.organizations, .id r.organizationId), (.oidcClients, .tenant r.clientId r.organizationId)]
        ++ tenantUserRef r.userId r.organizationId
    | .accountTokens, r =>
      (.organizations, .id r.organizationId) :: tenantUserRef r.userId r.organizationId ++
        tenantUserRef r.createdByUserId r.organizationId
    | .mfaCredentials, r =>
      [(.organizations, .id r.organizationId), (.users, .tenant r.userId r.organizationId)]
    | .webauthnChallenges, r => [(.users, .tenant r.userId r.organizationId)]
    | .emailOutbox, r => [(.organizations, .id r.organizationId)]
    | .auditEvents, r => [(.organizations, .id r.organizationId)]
    | _, _ => []

/-- Tokens refer to organizations, clients and users only. -/
theorem ref_of_token {t : Tab} (ht : t = .accessTokens ∨ t = .refreshTokens) {r : Row t}
    {x : Tab × Key} (hx : x ∈ schema.refs t r) :
    x.1 = .organizations ∨ x.1 = .oidcClients ∨ x.1 = .users := by
  rcases ht with rfl | rfl
  all_goals
    simp only [schema, tenantUserRef, List.mem_append, List.mem_cons, List.not_mem_nil, or_false,
      Option.mem_toList, Option.map_eq_some_iff] at hx
    rcases hx with (rfl | rfl) | ⟨_, -, rfl⟩ <;> simp

theorem user_ref_of_accessToken {token : AccessTokenRecord} {userId : UserId}
    (h : token.userId = some userId) :
    (.users, .tenant userId token.organizationId) ∈ schema.refs .accessTokens token := by
  simp [schema, tenantUserRef, h]

abbrev Store := Sql.Store schema
abbrev Db := Tables Row

/-- Errors of a `Database` method. -/
inductive DatabaseError where
  | sqlx (e : SqlError)
  | notFound
  deriving DecidableEq

/-- Statements of a transaction in progress; a whole method ends it. -/
abbrev Statements := Sql.Stmts Row DatabaseError

namespace Database

def select : Statements Db := Prog.perform Stmt.select

def lock (t : Tab) (m : LockMode) (p : Db → Row t → Bool) : Statements (List (Row t)) :=
  Prog.perform (Stmt.lock t m p)

def update (t : Tab) (p : Db → Row t → Bool) (f : Row t → Row t) : Statements (List (Row t)) :=
  Prog.perform (Stmt.update t p f)

def insert (t : Tab) (r : Row t) : Statements Unit := Prog.perform (Stmt.insert t r)

def upsert (t : Tab) (r : Row t) (f : Row t → Row t) : Statements (Row t) :=
  Prog.perform (Stmt.upsert t r f)

def delete (t : Tab) (p : Db → Row t → Bool) : Statements (List (Row t)) :=
  Prog.perform (Stmt.delete t p)

/-- The first row, or the error of `fetch_one` when there is none. -/
def fetchOne {α : Type} (rows : List α) : Statements α := match rows with
  | r :: _ => .ret r
  | [] => .fail (.sqlx .rowNotFound)

section run

variable {t : Tab} {s s' : Store}

theorem run_update_eq_ok {p : Db → Row t → Bool} {f : Row t → Row t} {rows : List (Row t)}
    (h : Stmts.run DatabaseError.sqlx (update t p f) s = .ok (rows, s')) :
    rows = ((s.tables t).filter (p s.tables)).map f ∧
      s'.tables = Function.update s.tables t (Stmt.updated t p f s.tables) := by
  rw [update, Stmts.run_perform_eq_ok] at h
  simp only [Stmt.exec, bind, Except.bind] at h
  split at h
  · cases h
  · rename_i s₁ hs
    cases h
    exact ⟨rfl, Store.replace_eq_ok hs⟩

theorem run_insert_eq_ok {r : Row t} {a : Unit}
    (h : Stmts.run DatabaseError.sqlx (insert t r) s = .ok (a, s')) :
    s'.tables = Function.update s.tables t (s.tables t ++ [r]) := by
  rw [insert, Stmts.run_perform_eq_ok] at h
  simp only [Stmt.exec, bind, Except.bind] at h
  split at h
  · cases h
  · rename_i s₁ hs
    split at h
    · cases h
      exact Store.replace_eq_ok hs
    · cases h

/-- An upsert changes the row with its key, or adds one. -/
theorem run_upsert_eq_ok {r a : Row t} {f : Row t → Row t}
    (h : Stmts.run DatabaseError.sqlx (upsert t r f) s = .ok (a, s')) :
    (∃ old ∈ s.tables t, schema.key t old = schema.key t r ∧ a = f old ∧
      s'.tables = Function.update s.tables t
        (Stmt.updated t (fun _ r' => schema.key t r' = schema.key t r) f s.tables)) ∨
    ((∀ old ∈ s.tables t, schema.key t old ≠ schema.key t r) ∧ a = r ∧
      s'.tables = Function.update s.tables t (s.tables t ++ [r])) := by
  rw [upsert, Stmts.run_perform_eq_ok] at h
  simp only [Stmt.exec, bind, Except.bind] at h
  split at h
  · rename_i old hold
    split at h
    · cases h
    · rename_i s₁ hs
      cases h
      exact .inl ⟨old, List.mem_of_find?_eq_some hold, by simpa using List.find?_some hold, rfl,
        Store.replace_eq_ok hs⟩
  · rename_i hnone
    split at h
    · cases h
    · rename_i s₁ hs
      split at h
      · cases h
        exact .inr ⟨by simpa using List.find?_eq_none.mp hnone, rfl, Store.replace_eq_ok hs⟩
      · cases h

theorem run_delete_eq_ok {p : Db → Row t → Bool} {rows : List (Row t)}
    (h : Stmts.run DatabaseError.sqlx (delete t p) s = .ok (rows, s')) :
    s'.tables = Function.update s.tables t ((s.tables t).filter fun r => !p s.tables r) := by
  rw [delete, Stmts.run_perform_eq_ok] at h
  simp only [Stmt.exec, bind, Except.bind] at h
  split at h
  · cases h
  · rename_i s₁ hs
    cases h
    exact Store.replace_eq_ok hs

/-- An update that leaves the index entries of rows alone succeeds. -/
theorem run_update_of_entries {p : Db → Row t → Bool} {f : Row t → Row t}
    (hf : ∀ r, schema.entries t (f r) = schema.entries t r) (s : Store) :
    ∃ s', Stmts.run DatabaseError.sqlx (update t p f) s =
      .ok (((s.tables t).filter (p s.tables)).map f, s') := by
  have hunique : schema.Unique t (Stmt.updated t p f s.tables) := (s.unique t).map fun r _ => by
    split
    · exact hf r
    · rfl
  refine ⟨s.set t _ hunique, Stmts.run_perform_eq_ok.mpr ?_⟩
  simp only [Stmt.exec, Store.replace_of_unique hunique, bind, Except.bind]
  rfl

/-- An insert succeeds when its entries are new and what it refers to is there. -/
theorem run_insert_of_compatible {r : Row t} {s : Store}
    (hnew : ∀ r' ∈ s.tables t, schema.Compatible t r' r)
    (hrefs : schema.RefsPresent (Function.update s.tables t (s.tables t ++ [r])) t r) :
    ∃ s', Stmts.run DatabaseError.sqlx (insert t r) s = .ok ((), s') := by
  have hunique : schema.Unique t (s.tables t ++ [r]) := (s.unique t).append hnew
  refine ⟨s.set t _ hunique, Stmts.run_perform_eq_ok.mpr ?_⟩
  simp only [Stmt.exec, Store.replace_of_unique hunique, bind, Except.bind]
  exact if_pos hrefs

end run

end Database

end CairnId
