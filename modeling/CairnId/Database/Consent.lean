import CairnId.Database.Issue

/-!
# Reads and writes of the authorization endpoint

What the answers of its queries say about the tables, and what spending a consent
does to them.
-/

namespace CairnId

open Concurrency Concurrency.Sql Database

variable {s : Store}

theorem getOidcClientByPublicId_eq_ok {clientId : String} {client : OidcClient}
    (h : ((DbCall.getOidcClientByPublicId clientId).exec s).1 = .ok (some client)) :
    client ∈ s.tables .oidcClients ∧ client.clientId = clientId := by
  have hfind : (s.tables .oidcClients).find? (fun c => c.clientId = clientId) = some client :=
    Except.ok.inj h
  exact ⟨List.mem_of_find?_eq_some hfind, by simpa using List.find?_some hfind⟩

theorem getOidcClientByPublicId_of_mem {client : OidcClient} (h : client ∈ s.tables .oidcClients) :
    (DbCall.getOidcClientByPublicId client.clientId).exec s = (.ok (some client), s) := by
  have hfind : (s.tables .oidcClients).find? (fun c => c.clientId = client.clientId) =
      some client :=
    (s.unique .oidcClients).find?_eq_some h (by simp) (k := .text client.clientId)
      (by intro c hc; simp only [decide_eq_true_eq] at hc; simp [schema, Schema.entries, hc])
  exact congrArg (fun a => (Except.ok a, s)) hfind

theorem getAuthSession_eq_ok {id : SessionId} {session : AuthSession}
    (h : ((DbCall.getAuthSession id).exec s).1 = .ok (some session)) :
    (∃ row ∈ s.tables .authSessions, row.session = session) ∧ session.id = id := by
  have hfind : ((s.tables .authSessions).find? fun r => r.session.id = id).map (·.session) =
      some session := Except.ok.inj h
  obtain ⟨row, hrow, rfl⟩ := Option.map_eq_some_iff.mp hfind
  exact ⟨⟨row, List.mem_of_find?_eq_some hrow, rfl⟩, by simpa using List.find?_some hrow⟩

theorem getUser_eq_ok {id : UserId} {user : User}
    (h : ((DbCall.getUser id).exec s).1 = .ok (some user)) :
    (∃ row ∈ s.tables .users, row.user = user) ∧ user.id = id := by
  have hfind : ((s.tables .users).find? fun u => u.user.id = id).map (·.user) = some user :=
    Except.ok.inj h
  obtain ⟨row, hrow, rfl⟩ := Option.map_eq_some_iff.mp hfind
  exact ⟨⟨row, List.mem_of_find?_eq_some hrow, rfl⟩, by simpa using List.find?_some hrow⟩

/-- The consent grant that the query found. -/
theorem hasActiveConsentGrant_eq_ok {organizationId : OrganizationId} {userId : UserId}
    {clientId : ClientId} {scopes : List String}
    (h : ((DbCall.hasActiveConsentGrant organizationId userId clientId scopes).exec s).1 =
      .ok true) :
    ∃ grant ∈ s.tables .consentGrants, grant.organizationId = organizationId ∧
      grant.userId = userId ∧ grant.clientId = clientId ∧ grant.revokedAt = none ∧
      scopes ⊆ grant.scopes := by
  have hany : (s.tables .consentGrants).any (fun g => g.organizationId = organizationId ∧
      g.userId = userId ∧ g.clientId = clientId ∧ g.revokedAt = none ∧
      scopes.all (g.scopes.contains ·)) = true := Except.ok.inj h
  obtain ⟨grant, hgrant, hp⟩ := List.any_eq_true.mp hany
  simp only [decide_eq_true_eq, List.all_eq_true, List.contains_iff_mem] at hp
  obtain ⟨horg, huser, hclient, hrevoked, hscopes⟩ := hp
  exact ⟨grant, hgrant, horg, huser, hclient, hrevoked, fun scope => hscopes scope⟩

theorem getConsentPolicyTemplate_eq_ok {organizationId : OrganizationId} {id : Uuid}
    {template : ConsentPolicyTemplate}
    (h : ((DbCall.getConsentPolicyTemplate organizationId id).exec s).1 = .ok (some template)) :
    template ∈ s.tables .consentPolicyTemplates ∧ template.organizationId = organizationId ∧
      template.id = id := by
  have hfind : (s.tables .consentPolicyTemplates).find? (fun t =>
      t.organizationId = organizationId ∧ t.id = id) = some template := Except.ok.inj h
  exact ⟨List.mem_of_find?_eq_some hfind, by simpa using List.find?_some hfind⟩

/-- The consent authorizations that the query found. -/
theorem pendingConsentAuthorizations_eq_ok {request : ConsentAuthorizationConsumption}
    {rows : List ConsentAuthorization}
    (h : ((DbCall.pendingConsentAuthorizations request).exec s).1 = .ok rows)
    {row : ConsentAuthorization} (hrow : row ∈ rows) :
    row ∈ s.tables .consentAuthorizations ∧ row.organizationId = request.organizationId ∧
      row.userId = request.userId ∧ row.sessionId = request.sessionId ∧
      row.clientId = request.clientId ∧
      row.authorizationRequestHash = request.authorizationRequestHash ∧ row.consumedAt = none ∧
      request.instant < row.expiresAt := by
  cases h
  simpa using (List.mem_insertionSort _).mp hrow

/-- The row after the attempt to spend it. -/
def ConsentAuthorization.spend (id : Uuid) (instant : OffsetDateTime) (a : ConsentAuthorization) :
    ConsentAuthorization :=
  if a.id = id ∧ a.consumedAt = none then { a with consumedAt := some instant } else a

/-- An attempt to spend a consent, which answers `true` only if it was not spent. -/
theorem exec_markConsentAuthorizationConsumed {id : Uuid} {instant : OffsetDateTime}
    {o : Except DatabaseError Bool} {s' : Store}
    (h : (DbCall.markConsentAuthorizationConsumed id instant).exec s = (o, s')) :
    (o ≠ .ok true ∧ s' = s) ∨
      s'.tables = Function.update s.tables .consentAuthorizations
        ((s.tables .consentAuthorizations).map (ConsentAuthorization.spend id instant)) ∧
      (o = .ok true → ∃ a ∈ s.tables .consentAuthorizations, a.id = id ∧ a.consumedAt = none) := by
  rcases Tx.atomic_cases h with ⟨a, rfl, hrun⟩ | ⟨a, s₁, rfl, hrun, rfl⟩ | ⟨e, rfl, rfl⟩
  · obtain ⟨updated, s₁, hu, hrun⟩ := Stmts.run_bind_eq_ok.mp hrun
    obtain ⟨hrows, htables⟩ := run_update_eq_ok hu
    cases hrun
    refine .inr ⟨?_, fun htrue => ?_⟩
    · rw [htables]
      congr 1
      refine List.map_congr_left fun a _ => ?_
      simp [ConsentAuthorization.spend]
    · simp only [Except.ok.injEq, decide_eq_true_eq, hrows, List.length_map] at htrue
      obtain ⟨a, ha⟩ := List.exists_mem_of_length_pos (htrue ▸ Nat.one_pos)
      exact ⟨a, by simpa using ha⟩
  · obtain ⟨updated, s₂, hu, hrun⟩ := Stmts.run_bind_eq_ok.mp hrun
    cases hrun
  · exact .inl ⟨nofun, rfl⟩

end CairnId
