import CairnId.Http.Quiet
import CairnId.Http.Token

/-!
# What the token handlers ensure

For each handler: what is known when it makes its writing call, and what its
answer says about the calls it made. Nothing is assumed about the answers of
the database here.
-/

namespace CairnId

open Concurrency Prog App

variable (P : Primitives) (state : AppState)

/-- What a handler has checked, with the calls `h` made so far, before it redeems
    the code `stored` as `client`. -/
structure CodeChecked (request : TokenRequest) (auth : OAuthClientAuth) (h : List Ev)
    (hash : String) (now : OffsetDateTime) (stored : AuthorizationCode) (client : OidcClient)
    (session : AuthSession) : Prop where
  presented : ∃ code, request.code = some code ∧ hash = hashToken P code
  code_read : ⟨.db (.getAuthorizationCode hash), .ok (some stored)⟩ ∈ h
  now_read : ⟨.nowUtc, now⟩ ∈ h
  redirectUri : request.redirectUri = some stored.redirectUri
  client_read : ∃ clientId, auth.clientId = some clientId ∧
    ⟨.db (.getOidcClientByPublicId clientId), .ok (some client)⟩ ∈ h
  client_authenticates : clientAuthenticates P client auth = true
  client_active : client.status = .active
  client_bound : client.organizationId = stored.organizationId ∧ client.id = stored.clientId
  verifier : ∃ verifier, request.codeVerifier = some verifier ∧
    verifyPkce P verifier stored.codeChallenge stored.codeChallengeMethod = true
  session_read : ⟨.db (.getAuthSession stored.sessionId), .ok (some session)⟩ ∈ h
  session_live : session.organizationId = stored.organizationId ∧
    session.userId = stored.userId ∧ session.revokedAt = none ∧ now < session.expiresAt

/-- Later calls do not undo the checks. -/
theorem CodeChecked.mono {P : Primitives} {request : TokenRequest} {auth : OAuthClientAuth}
    {h h' : List Ev} {hash : String} {now : OffsetDateTime} {stored : AuthorizationCode}
    {client : OidcClient} {session : AuthSession}
    (hc : CodeChecked P request auth h hash now stored client session) (hsub : h ⊆ h') :
    CodeChecked P request auth h' hash now stored client session where
  presented := hc.presented
  code_read := hsub hc.code_read
  now_read := hsub hc.now_read
  redirectUri := hc.redirectUri
  client_read := hc.client_read.imp fun _ h => ⟨h.1, hsub h.2⟩
  client_authenticates := hc.client_authenticates
  client_active := hc.client_active
  client_bound := hc.client_bound
  verifier := hc.verifier
  session_read := hsub hc.session_read
  session_live := hc.session_live

/-- A handler about to redeem a code for the given tokens. -/
structure CodeRedemption (request : TokenRequest) (auth : OAuthClientAuth) (h : List Ev)
    (hash : String) (access : AccessTokenRecord) (refresh : Option RefreshToken)
    (now : OffsetDateTime) (stored : AuthorizationCode) (client : OidcClient)
    (session : AuthSession) : Prop where
  checked : CodeChecked P request auth h hash now stored client session
  access_eq : ∃ tokenHash,
    access = codeAccessRecord stored tokenHash (refresh.map (·.familyId)) now
  refresh_eq : if shouldIssueRefreshToken stored.scopes client then
      ∃ secret familyId, ⟨.newV4, familyId⟩ ∈ h ∧
        refresh = some (codeRefreshRecord stored secret familyId now)
    else refresh = none

/-- A code request reads until it redeems the code, which is its last call. -/
def codePre (request : TokenRequest) (auth : OAuthClientAuth) (h : List Ev) (e : Call) : Prop :=
  Quiet h ∧ (e.isQuiet = true ∨ ∃ hash access refresh now stored client session,
    e = .db (.consumeAuthorizationCodeAndInsertTokens hash access refresh now) ∧
    CodeRedemption P request auth h hash access refresh now stored client session)

/-- It answers with tokens exactly when it redeemed the code. -/
def codePost (request : TokenRequest) (auth : OAuthClientAuth) (h : List Ev) :
    Except ApiError TokenResponse → Prop
  | .ok _ => ∃ hash access refresh now stored client session h',
      h = ⟨.db (.consumeAuthorizationCodeAndInsertTokens hash access refresh now), .ok true⟩ :: h' ∧
      CodeRedemption P request auth h' hash access refresh now stored client session
  | .error _ => ∀ hash access refresh now,
      ⟨.db (.consumeAuthorizationCodeAndInsertTokens hash access refresh now), .ok true⟩ ∉ h

section rules

variable {P state} {β : Type} {pre : List Ev → Call → Prop}
  {post : List Ev → Except ApiError β → Prop} {h : List Ev} (hs : AllowsQuiet pre post)

include hs

theorem quietSat_requiredOauthFormParameter {value : Option String} {parameter : String}
    {f : String → App β} (hf : ∀ v, value = some v → QuietSat pre post h (f v)) :
    QuietSat pre post h (requiredOauthFormParameter value parameter >>= f) := by
  unfold requiredOauthFormParameter
  split
  · rename_i v hv
    exact hf v (Option.eq_some_of_filter_eq_some hv)
  · exact .fail hs _

theorem quietSat_authenticatedClientFromRequest {auth : OAuthClientAuth} {f : OidcClient → App β}
    (hf : ∀ clientId client, auth.clientId = some clientId →
      clientAuthenticates P client auth = true → client.status = .active →
      client.organizationId = state.organizationId →
      QuietSat pre post (⟨.db (.getOidcClientByPublicId clientId), .ok (some client)⟩ :: h)
        (f client)) :
    QuietSat pre post h (authenticatedClientFromRequest P state auth >>= f) := by
  unfold authenticatedClientFromRequest
  split
  · rename_i clientId hid
    rw [Prog.bind_assoc]
    refine .db hs rfl fun found => ?_
    split
    · rename_i client
      rw [Prog.bind_assoc]
      refine .refuseIf hs fun horg => ?_
      rw [Prog.bind_assoc]
      refine .refuseIf hs fun hactive => ?_
      rw [Prog.bind_assoc]
      refine .refuseIf hs fun hauth => ?_
      exact hf clientId client hid (by simpa using hauth) (by simpa [oidcClientIsActive] using hactive)
        (by simpa using horg)
    · exact .fail hs _
  · exact .fail hs _

end rules

section quiet

theorem all_groupsClaimForUser (o : OrganizationId) (u : UserId) (scopes : List String) :
    (groupsClaimForUser o u scopes).All fun e => e.isQuiet = true := by
  unfold groupsClaimForUser
  split
  · exact .bind (all_db rfl) fun _ => .ret _
  · trivial

theorem all_resolveSigningMaterial :
    (resolveSigningMaterial P state).All fun e => e.isQuiet = true := by
  refine .bind ?_ fun stored => ?_
  · split
    · exact .bind (all_db rfl) fun _ => .ret _
    · trivial
  · split
    · split <;> trivial
    · split <;> trivial

theorem all_tokenSubjectIsActive (o : OrganizationId) (u : Option UserId) :
    (tokenSubjectIsActive o u).All fun e => e.isQuiet = true := by
  unfold tokenSubjectIsActive
  split
  · refine .bind (all_db rfl) fun user => ?_
    split <;> trivial
  · trivial

end quiet

theorem codePre_allowsQuiet (request : TokenRequest) (auth : OAuthClientAuth) :
    AllowsQuiet (codePre P request auth) (codePost P request auth) where
  call _ _ hq he := ⟨hq, .inl he⟩
  fail h _ hq hash access refresh now hmem := by simpa [Call.isQuiet, DbCall.isQuery] using hq _ hmem

variable {P} in
/-- The last call of a code request and what follows it. -/
theorem sat_consume {request : TokenRequest} {auth : OAuthClientAuth} {h : List Ev} {hash : String}
    {access : AccessTokenRecord} {refresh : Option RefreshToken} {now : OffsetDateTime}
    {stored : AuthorizationCode} {client : OidcClient} {session : AuthSession} (hq : Quiet h)
    (hr : CodeRedemption P request auth h hash access refresh now stored client session)
    (body : OAuthErrorBody) (response : TokenResponse) :
    (do
      let consumed ← db (.consumeAuthorizationCodeAndInsertTokens hash access refresh now)
      refuseIf (!consumed) 400 body
      return response : App TokenResponse).Sat (codePre P request auth) (codePost P request auth)
        h := by
  refine sat_db_bind ⟨hq, .inr ⟨_, _, _, _, _, _, _, rfl, hr⟩⟩ (fun consumed => ?_) fun e => ?_
  · refine sat_when_bind (fun hc => ?_) fun hc => ?_
    · rw [Bool.not_eq_true'] at hc
      subst hc
      intro hash' access' refresh' now' hmem
      simp at hmem
      simpa [Call.isQuiet, DbCall.isQuery] using hq _ hmem
    · obtain rfl : consumed = true := by simpa using hc
      exact ⟨_, _, _, _, _, _, _, h, rfl, hr⟩
  · intro hash' access' refresh' now' hmem
    simp at hmem
    simpa [Call.isQuiet, DbCall.isQuery] using hq _ hmem

variable {P} in
/-- The part of a code request after its checks. -/
theorem quietSat_issue {request : TokenRequest} {auth : OAuthClientAuth} {h : List Ev}
    {hash : String} {now : OffsetDateTime} {stored : AuthorizationCode} {client : OidcClient}
    {session : AuthSession} (hc : CodeChecked P request auth h hash now stored client session)
    (body : OAuthErrorBody)
    (response : GeneratedSecret → Option (GeneratedSecret × RefreshToken) → TokenResponse) :
    QuietSat (codePre P request auth) (codePost P request auth) h (do
      let refresh ← (if shouldIssueRefreshToken stored.scopes client then do
          let refresh ← generateHashedSecret P 32
          let familyId ← newV4
          pure (some (refresh, codeRefreshRecord stored refresh familyId now))
        else pure none)
      let access ← generateHashedSecret P 32
      let consumed ← db (.consumeAuthorizationCodeAndInsertTokens hash
        (codeAccessRecord stored access.hash (refresh.map (·.2.familyId)) now)
        (refresh.map (·.2)) now)
      refuseIf (!consumed) 400 body
      return response access refresh) := by
  have hs := codePre_allowsQuiet P request auth
  split
  case isTrue hissue =>
    rw [Prog.bind_assoc]
    refine .skip hs (all_generateHashedSecret ..) fun l₁ secret => ?_
    rw [Prog.bind_assoc]
    refine .perform hs rfl fun familyId => ?_
    rw [pure_eq, ret_bind]
    refine .skip hs (all_generateHashedSecret ..) fun l₂ access hq => ?_
    have hr : CodeRedemption P request auth (l₂ ++ ⟨.newV4, familyId⟩ :: (l₁ ++ h)) hash
        (codeAccessRecord stored access.hash (some familyId) now)
        (some (codeRefreshRecord stored secret familyId now)) now stored client session := by
      refine ⟨hc.mono fun _ hev => by simp [hev], ⟨_, rfl⟩, ?_⟩
      rw [if_pos hissue]
      exact ⟨secret, familyId, by simp, rfl⟩
    exact sat_consume hq hr _ _
  case isFalse hissue =>
    rw [pure_eq, ret_bind]
    refine .skip hs (all_generateHashedSecret ..) fun l₁ access hq => ?_
    exact sat_consume hq ⟨hc.mono (by simp), ⟨_, rfl⟩, by rw [if_neg hissue]⟩ _ _

theorem sat_authorizationCodeToken (request : TokenRequest) (auth : OAuthClientAuth) :
    (authorizationCodeToken P state request auth).Sat (codePre P request auth)
      (codePost P request auth) [] := by
  have hs := codePre_allowsQuiet P request auth
  suffices QuietSat (codePre P request auth) (codePost P request auth) []
    (authorizationCodeToken P state request auth) from this (by simp)
  refine quietSat_requiredOauthFormParameter hs fun code hcode => ?_
  refine .db hs rfl fun found => ?_
  split
  case _ stored =>
    refine .perform hs rfl fun now => .refuseIf hs fun _ => ?_
    unfold validateAuthorizationCodeRedirectUri
    rw [Prog.bind_assoc]
    refine quietSat_requiredOauthFormParameter hs fun redirectUri huri => ?_
    refine .refuseIf hs fun hredirect => ?_
    refine quietSat_authenticatedClientFromRequest hs fun clientId client hid hauth hactive _ => ?_
    refine .refuseIf hs fun hbound => .refuseIf hs fun hgrant => ?_
    refine quietSat_requiredOauthFormParameter hs fun verifier hverifier => ?_
    refine .refuseIf hs fun hpkce => .db hs rfl fun user => ?_
    split
    case _ user =>
      refine .refuseIf hs fun _ => .db hs rfl fun found => ?_
      split
      case _ session =>
        refine .refuseIf hs fun hsession => ?_
        refine .skip hs (all_groupsClaimForUser ..) fun l₁ groups => ?_
        refine .skip hs (all_resolveSigningMaterial ..) fun l₂ signing => ?_
        refine .perform hs rfl fun issuedAt => ?_
        split
        case _ idToken _ =>
          have hlive : session.organizationId = stored.organizationId ∧
              session.userId = stored.userId ∧ session.revokedAt = none ∧
              now < session.expiresAt := by simpa using hsession
          exact quietSat_issue
            { presented := ⟨code, hcode, rfl⟩
              code_read := by simp
              now_read := by simp
              redirectUri := by rw [huri, not_not.mp hredirect]
              client_read := ⟨clientId, hid, by simp⟩
              client_authenticates := hauth
              client_active := hactive
              client_bound := by simpa using hbound
              verifier := ⟨verifier, hverifier, by simpa using hpkce⟩
              session_read := by simp
              session_live := hlive } _ _
        case _ => exact .fail hs _
      case _ => exact .fail hs _
    case _ => exact .fail hs _
  case _ => exact .fail hs _

/-- What a handler has checked, with the calls `h` made so far, before it rotates
    the refresh token `stored` of `client`. -/
structure RefreshChecked (request : TokenRequest) (auth : OAuthClientAuth) (h : List Ev)
    (hash : String) (now : OffsetDateTime) (stored : RefreshToken) (client : OidcClient) :
    Prop where
  presented : ∃ token, request.refreshToken = some token ∧ hash = hashToken P token
  token_read : ⟨.db (.getRefreshToken hash), .ok (some stored)⟩ ∈ h
  now_read : ⟨.nowUtc, now⟩ ∈ h
  token_live : stored.rotatedAt = none ∧ stored.revokedAt = none ∧ now < stored.expiresAt
  client_read : ⟨.db (.getOidcClient stored.clientId), .ok (some client)⟩ ∈ h
  client_authenticates : clientAuthenticates P client auth = true
  client_active : client.status = .active

theorem RefreshChecked.mono {P : Primitives} {request : TokenRequest} {auth : OAuthClientAuth}
    {h h' : List Ev} {hash : String} {now : OffsetDateTime} {stored : RefreshToken}
    {client : OidcClient} (hc : RefreshChecked P request auth h hash now stored client)
    (hsub : h ⊆ h') : RefreshChecked P request auth h' hash now stored client where
  presented := hc.presented
  token_read := hsub hc.token_read
  now_read := hsub hc.now_read
  token_live := hc.token_live
  client_read := hsub hc.client_read
  client_authenticates := hc.client_authenticates
  client_active := hc.client_active

/-- A handler about to rotate a refresh token for tokens with `scopes`. -/
structure RefreshRotation (request : TokenRequest) (auth : OAuthClientAuth) (h : List Ev)
    (hash : String) (access : AccessTokenRecord) (refresh : Option RefreshToken)
    (now : OffsetDateTime) (stored : RefreshToken) (client : OidcClient) (scopes : List String) :
    Prop where
  checked : RefreshChecked P request auth h hash now stored client
  narrowed : scopes ⊆ stored.scopes
  access_eq : ∃ tokenHash, access = nextAccessRecord stored tokenHash scopes now
  refresh_eq : if shouldIssueRefreshToken scopes client then
      ∃ secret, refresh = some (nextRefreshRecord stored secret scopes now)
    else refresh = none

/-- No refresh token has been rotated by these calls. -/
def NoRotation (h : List Ev) : Prop := ∀ hash access refresh now,
  ⟨.db (.rotateRefreshTokenAndInsertTokens hash access refresh now), .ok true⟩ ∉ h

/-- A refresh request reads until it rotates the token or, on a reuse, revokes
    the family of the token it read. -/
def refreshPre (request : TokenRequest) (auth : OAuthClientAuth) (h : List Ev) (e : Call) : Prop :=
  (Quiet h ∧ (e.isQuiet = true ∨ ∃ hash access refresh now stored client scopes,
      e = .db (.rotateRefreshTokenAndInsertTokens hash access refresh now) ∧
      RefreshRotation P request auth h hash access refresh now stored client scopes)) ∨
    (NoRotation h ∧ ∃ hash stored now,
      e = .db (.revokeRefreshTokenFamilyAndAccessTokens stored.familyId now) ∧
      ⟨.db (.getRefreshToken hash), .ok (some stored)⟩ ∈ h)

/-- It answers with tokens exactly when it rotated the token. -/
def refreshPost (request : TokenRequest) (auth : OAuthClientAuth) (h : List Ev) :
    Except ApiError TokenResponse → Prop
  | .ok _ => ∃ hash access refresh now stored client scopes h',
      h = ⟨.db (.rotateRefreshTokenAndInsertTokens hash access refresh now), .ok true⟩ :: h' ∧
      RefreshRotation P request auth h' hash access refresh now stored client scopes
  | .error _ => NoRotation h

theorem Quiet.noRotation {h : List Ev} (hq : Quiet h) : NoRotation h := by
  intro hash access refresh now hmem
  simpa [Call.isQuiet, DbCall.isQuery] using hq _ hmem

theorem refreshPre_allowsQuiet (request : TokenRequest) (auth : OAuthClientAuth) :
    AllowsQuiet (refreshPre P request auth) (refreshPost P request auth) where
  call _ _ hq he := .inl ⟨hq, .inl he⟩
  fail _ _ hq := hq.noRotation

variable {P}

/-- Reuse: the family is revoked and the request refused. -/
theorem sat_reuse {request : TokenRequest} {auth : OAuthClientAuth} {h : List Ev} {hash : String}
    {stored : RefreshToken} {now : OffsetDateTime} (hn : NoRotation h)
    (hr : ⟨.db (.getRefreshToken hash), .ok (some stored)⟩ ∈ h) {body : OAuthErrorBody}
    {f : Unit → App TokenResponse} :
    ((do
      db (.revokeRefreshTokenFamilyAndAccessTokens stored.familyId now)
      oauthError 400 body : App Unit) >>= f).Sat (refreshPre P request auth)
        (refreshPost P request auth) h := by
  rw [Prog.bind_assoc]
  refine sat_db_bind (.inr ⟨hn, hash, stored, now, rfl, hr⟩) (fun _ => ?_) fun _ => ?_
  · intro hash access refresh now hmem
    exact hn _ _ _ _ (by simpa using hmem)
  · intro hash access refresh now hmem
    exact hn _ _ _ _ (by simpa using hmem)

/-- The scopes a refresh request is granted are among those of the token. -/
theorem quietSat_refreshTokenGrantedScopes {β : Type} {pre : List Ev → Call → Prop}
    {post : List Ev → Except ApiError β → Prop} {h : List Ev} (hs : AllowsQuiet pre post)
    {requested : Option String} {original : List String} {f : List String → App β}
    (hf : ∀ scopes, scopes ⊆ original → QuietSat pre post h (f scopes)) :
    QuietSat pre post h (refreshTokenGrantedScopes requested original >>= f) := by
  cases requested with
  | none => exact hf original (List.Subset.refl _)
  | some scope =>
    unfold refreshTokenGrantedScopes tokenRequestScopes
    dsimp only
    cases parseScopes scope with
    | none => exact .fail hs _
    | some scopes =>
      simp only [pure_eq, ret_bind]
      split
      · exact .fail hs _
      · rename_i hsub
        exact hf scopes fun scope hmem => by simp_all

/-- The last calls of a refresh request and what follows them. -/
theorem sat_rotate {request : TokenRequest} {auth : OAuthClientAuth} {h : List Ev} {hash : String}
    {access : AccessTokenRecord} {refresh : Option RefreshToken} {now : OffsetDateTime}
    {stored : RefreshToken} {client : OidcClient} {scopes : List String} (hq : Quiet h)
    (hr : RefreshRotation P request auth h hash access refresh now stored client scopes)
    (body : OAuthErrorBody) (response : TokenResponse) :
    (do
      let rotated ← db (.rotateRefreshTokenAndInsertTokens hash access refresh now)
      Prog.when (!rotated) do
        db (.revokeRefreshTokenFamilyAndAccessTokens stored.familyId now)
        oauthError 400 body
      return response : App TokenResponse).Sat (refreshPre P request auth)
        (refreshPost P request auth) h := by
  have hn : ∀ r : Except DatabaseError Bool, r ≠ .ok true → NoRotation
      (⟨.db (.rotateRefreshTokenAndInsertTokens hash access refresh now), r⟩ :: h) := by
    intro r hr hash' access' refresh' now' hmem
    rcases List.mem_cons.mp hmem with heq | hmem
    · cases heq
      exact hr rfl
    · exact hq.noRotation _ _ _ _ hmem
  refine sat_db_bind (.inl ⟨hq, .inr ⟨_, _, _, _, _, _, _, rfl, hr⟩⟩) (fun rotated => ?_) fun e => ?_
  · refine sat_when_bind (fun hc => ?_) fun hc => ?_
    · obtain rfl : rotated = false := by simpa using hc
      exact sat_reuse (hn _ (by simp)) (List.mem_cons_of_mem _ hr.checked.token_read)
    · obtain rfl : rotated = true := by simpa using hc
      exact ⟨_, _, _, _, _, _, _, h, rfl, hr⟩
  · exact hn _ (by simp)

theorem sat_refreshToken (request : TokenRequest) (auth : OAuthClientAuth) :
    (refreshToken P state request auth).Sat (refreshPre P request auth)
      (refreshPost P request auth) [] := by
  have hs := refreshPre_allowsQuiet P request auth
  suffices QuietSat (refreshPre P request auth) (refreshPost P request auth) []
    (refreshToken P state request auth) from this (by simp)
  refine quietSat_requiredOauthFormParameter hs fun token htoken => ?_
  refine .db hs rfl fun found => ?_
  split
  case _ stored =>
    refine .perform hs rfl fun now => .refuseIf hs fun _ hq => ?_
    refine sat_when_bind (fun _ => sat_reuse hq.noRotation (.tail _ (.head _))) fun hrotated => ?_
    suffices h : QuietSat (refreshPre P request auth) (refreshPost P request auth) _ _ from h hq
    refine .refuseIf hs fun hlive => ?_
    refine .skip hs (all_tokenSubjectIsActive ..) fun l₁ active => ?_
    refine .refuseIf hs fun _ => .db hs rfl fun found => ?_
    split
    case _ client =>
      refine .refuseIf hs fun hactive => .refuseIf hs fun hauth => .refuseIf hs fun _ => ?_
      refine quietSat_refreshTokenGrantedScopes hs fun scopes hsub => ?_
      refine .skip hs (all_generateHashedSecret ..) fun l₂ access => ?_
      have hc : RefreshChecked P request auth
          (⟨.db (.getOidcClient stored.clientId), .ok (some client)⟩ :: (l₁ ++
            [⟨.nowUtc, now⟩, ⟨.db (.getRefreshToken (hashToken P token)), .ok (some stored)⟩]))
          (hashToken P token) now stored client :=
        { presented := ⟨token, htoken, rfl⟩
          token_read := by simp
          now_read := by simp
          token_live := ⟨by simpa using hrotated, by simpa using hlive⟩
          client_read := by simp
          client_authenticates := by simpa using hauth
          client_active := by simpa [oidcClientIsActive] using hactive }
      split
      case isTrue hissue =>
        rw [Prog.bind_assoc]
        refine .skip hs (all_generateHashedSecret ..) fun l₃ secret hq => ?_
        refine sat_rotate hq ⟨hc.mono fun _ hev => by simp_all, hsub, ⟨access.hash, rfl⟩, ?_⟩ _ _
        rw [if_pos hissue]
        exact ⟨secret, rfl⟩
      case isFalse hissue =>
        exact fun hq => sat_rotate hq ⟨hc.mono fun _ hev => by simp_all, hsub, ⟨access.hash, rfl⟩,
          by rw [if_neg hissue]; rfl⟩ _ _
    case _ => exact .fail hs _
  case _ => exact .fail hs _

end CairnId
