import CairnId.Grounds

/-!
# Requests with an ambiguous redirect target

A request that gives `client_id` or `redirect_uri` more than once does not say
where its answer is to go. The handler refuses it when one of the two is the first
parameter to be repeated; when another one is, it follows the values given last.

## Main definitions

* `AmbiguousTarget` — the client or the redirect URI is given more than once.
* `FirstRepeated` — the parameter that is the first one to be given again.
* `FollowsLast` — the requests that the handler answers with a redirect all the same.
-/

namespace CairnId

open Concurrency Prog App Database

/-- The client or the redirect URI is given more than once. -/
def AmbiguousTarget (pairs : List (String × String)) : Prop :=
  1 < (pairs.map Prod.fst).count "client_id" ∨ 1 < (pairs.map Prod.fst).count "redirect_uri"

instance (pairs : List (String × String)) : Decidable (AmbiguousTarget pairs) :=
  inferInstanceAs (Decidable (_ ∨ _))

/-- The known parameter is given again before any other one is. -/
def FirstRepeated (pairs : List (String × String)) (name : String) : Prop :=
  ∃ before value after, pairs = before ++ (name, value) :: after ∧
    name ∈ authorizationRequestParameters ∧ name ∈ before.map Prod.fst ∧
      ((before.map Prod.fst).filter (· ∈ authorizationRequestParameters)).Nodup

/-- Another parameter is repeated first, and the client that is given last has the
    redirect URI that is given last, which a `Location` header can carry. -/
def FollowsLast (db : Db) (pairs : List (String × String)) : Prop :=
  (∃ name, FirstRepeated pairs name ∧ name ≠ "client_id" ∧ name ≠ "redirect_uri") ∧
    isHeaderValue ((parameter pairs "redirect_uri").getD "") = true ∧
    ∃ client ∈ db .oidcClients, client.clientId = (parameter pairs "client_id").getD "" ∧
      client.allowsRedirectUri ((parameter pairs "redirect_uri").getD "") = true

/-- An answer that sends the browser nowhere. -/
def isDirectError : Except ApiError RedirectResponse → Bool
  | .ok (.temporary _) => false
  | .ok .internalServerError | .error _ => true

-- the first repeated parameter

theorem firstDuplicate_eq_some {seen : List String} {pairs : List (String × String)}
    {name : String} (hseen : seen.Nodup) (hknown : ∀ n ∈ seen, n ∈ authorizationRequestParameters)
    (h : firstDuplicate seen pairs = some name) :
    ∃ before value after, pairs = before ++ (name, value) :: after ∧
      name ∈ authorizationRequestParameters ∧ name ∈ seen ++ before.map Prod.fst ∧
        (seen ++ (before.map Prod.fst).filter (· ∈ authorizationRequestParameters)).Nodup := by
  induction pairs generalizing seen with
  | nil => cases h
  | cons p pairs ih =>
    obtain ⟨n, v⟩ := p
    rw [firstDuplicate] at h
    split at h
    · rename_i hunknown
      obtain ⟨before, value, after, rfl, hname, hmem, hnodup⟩ := ih hseen hknown h
      refine ⟨(n, v) :: before, value, after, rfl, hname, ?_, ?_⟩
      · simp only [List.map_cons, List.mem_append, List.mem_cons] at hmem ⊢
        exact hmem.imp_right .inr
      · rwa [List.map_cons, List.filter_cons_of_neg (by simpa using hunknown)]
    · rename_i hn
      rw [not_not] at hn
      split at h
      · rename_i hagain
        obtain rfl : n = name := Option.some.inj h
        exact ⟨[], v, pairs, rfl, hn, by simpa using hagain, by simpa using hseen⟩
      · rename_i hnew
        have hnew : n ∉ seen := by simpa using hnew
        obtain ⟨before, value, after, rfl, hname, hmem, hnodup⟩ := @ih
          (seen ++ [n]) (List.nodup_append.mpr ⟨hseen, List.nodup_singleton n, by
            rintro a ha b hb rfl
            exact hnew (List.mem_singleton.mp hb ▸ ha)⟩)
          (by
            intro m hm
            rcases List.mem_append.mp hm with hm | hm
            · exact hknown m hm
            · rwa [List.mem_singleton.mp hm]) h
        refine ⟨(n, v) :: before, value, after, rfl, hname, ?_, ?_⟩
        · simpa using hmem
        · rw [List.map_cons, List.filter_cons_of_pos (by simpa using hn)]
          simpa using hnodup

theorem firstDuplicate_append {before rest : List (String × String)} {seen : List String}
    (h : (seen ++ (before.map Prod.fst).filter (· ∈ authorizationRequestParameters)).Nodup) :
    firstDuplicate seen (before ++ rest) =
      firstDuplicate (seen ++ (before.map Prod.fst).filter (· ∈ authorizationRequestParameters))
        rest := by
  induction before generalizing seen with
  | nil => simp
  | cons p before ih =>
    obtain ⟨n, v⟩ := p
    rw [List.cons_append, firstDuplicate]
    by_cases hn : n ∈ authorizationRequestParameters
    · rw [List.map_cons, List.filter_cons_of_pos (by simpa using hn)] at h ⊢
      have hnew : n ∉ seen := by
        intro hmem
        exact List.disjoint_of_nodup_append h hmem (.head _)
      rw [if_neg (not_not.mpr hn), if_neg (by simpa using hnew), ih (by simpa using h)]
      simp
    · rw [List.map_cons, List.filter_cons_of_neg (by simpa using hn)] at h ⊢
      rw [if_pos hn, ih h]

/-- The duplicate that the handler looks at is the first repeated parameter. -/
theorem duplicateAuthorizationRequestParameter_eq_some_iff {pairs : List (String × String)}
    {name : String} :
    duplicateAuthorizationRequestParameter pairs = some name ↔ FirstRepeated pairs name := by
  constructor
  · intro h
    have hfirst := firstDuplicate_eq_some List.nodup_nil (by simp) h
    simpa only [FirstRepeated, List.nil_append] using hfirst
  · rintro ⟨before, value, after, rfl, hknown, hmem, hnodup⟩
    rw [duplicateAuthorizationRequestParameter, firstDuplicate_append (by simpa using hnodup),
      firstDuplicate, if_neg (not_not.mpr hknown), if_pos]
    simpa [hknown] using hmem

/-- Something is repeated in a request with an ambiguous target. -/
theorem AmbiguousTarget.exists_duplicate {pairs : List (String × String)}
    (h : AmbiguousTarget pairs) :
    ∃ name, duplicateAuthorizationRequestParameter pairs = some name := by
  refine Option.ne_none_iff_exists'.mp fun hnone => ?_
  have hclient := count_of_duplicate_eq_none hnone
    (show "client_id" ∈ authorizationRequestParameters by decide)
  have huri := count_of_duplicate_eq_none hnone
    (show "redirect_uri" ∈ authorizationRequestParameters by decide)
  exact h.elim (fun h => absurd hclient (Nat.not_le.mpr h)) fun h => absurd huri (Nat.not_le.mpr h)

-- the request and its answer

/-- The client and the redirect URI of a request are those that were given last. -/
theorem target_authorizationRequestFromQueryPairs (pairs : List (String × String)) :
    (authorizationRequestFromQueryPairs pairs).1.clientId =
        (parameter pairs "client_id").getD "" ∧
      (authorizationRequestFromQueryPairs pairs).1.redirectUri =
        (parameter pairs "redirect_uri").getD "" := by
  induction pairs using List.reverseRecOn with
  | nil => exact ⟨rfl, rfl⟩
  | append_singleton pairs p ih =>
    obtain ⟨name, value⟩ := p
    obtain ⟨hclient, huri⟩ := ih
    simp only [authorizationRequestFromQueryPairs, List.foldl_append, List.foldl_cons,
      List.foldl_nil, parameter_concat] at hclient huri ⊢
    generalize pairs.foldl AuthorizationRequest.assign (.blank, none) = r at hclient huri ⊢
    simp only [apply_ite (Option.getD · ""), Option.getD_some]
    rw [← hclient, ← huri]
    unfold AuthorizationRequest.assign
    dsimp only
    split
    case h_7 => split <;> exact ⟨rfl, rfl⟩
    case h_20 => simp_all
    all_goals exact ⟨rfl, rfl⟩

/-- What is appended to a redirect URI for an error can stand in a header. -/
theorem isHeaderValue_appendAuthorizationErrorResponseParams
    (redirectUri error : String) (errorDescription state : Option String) (issuer : String) :
    isHeaderValue (appendAuthorizationErrorResponseParams redirectUri error errorDescription state
      issuer) = isHeaderValue redirectUri := by
  have hseparator : isHeaderValue (querySeparator redirectUri) = true := by
    unfold querySeparator
    split <;> decide
  have hstate : isHeaderValue (stateParameter state) = true := by
    cases state with
    | none => decide
    | some state =>
      show isHeaderValue ("&state=" ++ percentEncodeMinimal state) = true
      rw [isHeaderValue_append, isHeaderValue_percentEncodeMinimal]
      decide
  have hdescription : isHeaderValue (descriptionParameter errorDescription) = true := by
    cases errorDescription with
    | none => decide
    | some description =>
      show isHeaderValue ("&error_description=" ++
        percentEncodeMinimal (oauthErrorDescription description)) = true
      rw [isHeaderValue_append, isHeaderValue_percentEncodeMinimal]
      decide
  have htexts : isHeaderValue "error=" = true ∧ isHeaderValue "&iss=" = true := by decide
  simp only [appendAuthorizationErrorResponseParams, isHeaderValue_append,
    isHeaderValue_percentEncodeMinimal, hseparator, hstate, hdescription, htexts, Bool.and_true]

variable {P : Primitives} {state : AppState} {headers : RequestHeaders}
  {pairs : List (String × String)} {w w' : World}

/-- An error redirect goes to the redirect URI of the request, if a header can carry it. -/
theorem isDirectError_authorizationErrorRedirectWithCode (request : AuthorizationRequest)
    (errorCode errorDescription : String) :
    isDirectError (.ok (authorizationErrorRedirectWithCode state request errorCode
      errorDescription)) = !isHeaderValue request.redirectUri := by
  unfold authorizationErrorRedirectWithCode oauthRedirectResponse
  rw [isHeaderValue_appendAuthorizationErrorResponseParams]
  cases isHeaderValue request.redirectUri <;> rfl

/-- A redirect in answer to an ambiguous request follows the values that were given last. -/
theorem followsLast_of_redirect (hambiguous : AmbiguousTarget pairs)
    {o : Except ApiError RedirectResponse}
    (h : (authorizeWithPairs P state headers pairs).Runs (Call.exec P) w o w')
    (ho : isDirectError o = false) : FollowsLast w.store.tables pairs := by
  obtain ⟨name, hname⟩ := hambiguous.exists_duplicate
  obtain ⟨hclientId, huri⟩ := target_authorizationRequestFromQueryPairs pairs
  unfold authorizeWithPairs at h
  dsimp only at h
  rw [hname] at h
  rcases runs_bind.mp h with ⟨_, w₁, hguard, hrest⟩ | ⟨e, rfl, -⟩
  swap
  · cases ho
  rcases runs_failIf.mp hguard with ⟨-, he, -⟩ | ⟨hother, -, rfl⟩
  · cases he
  rcases runs_bind.mp hrest with ⟨found, w₂, hread, hanswer⟩ | ⟨e, rfl, -⟩
  swap
  · cases ho
  have hexec := App.runs_db_ok hread
  cases found with
  | none =>
    obtain ⟨rfl, -⟩ := runs_fail.mp hanswer
    cases ho
  | some client =>
    obtain ⟨hstored, hid⟩ := getOidcClientByPublicId_eq_ok (congrArg Prod.fst hexec)
    rcases runs_bind.mp hanswer with ⟨_, w₃, hallowed, hredirect⟩ | ⟨e, rfl, -⟩
    swap
    · cases ho
    rcases runs_failIf.mp hallowed with ⟨-, he, -⟩ | ⟨hregistered, -, rfl⟩
    · cases he
    have hheader : isHeaderValue (authorizationRequestFromQueryPairs pairs).1.redirectUri = true := by
      by_cases hactive : oidcClientIsActive client = true
      · simp only [hactive, Bool.not_true, Bool.false_eq_true, if_false, Option.isSome_some,
          if_true] at hredirect
        obtain ⟨rfl, -⟩ := runs_ret.mp hredirect
        simpa [isDirectError_authorizationErrorRedirectWithCode] using ho
      · simp only [Bool.not_eq_true] at hactive
        simp only [hactive, Bool.not_false, if_true] at hredirect
        obtain ⟨rfl, -⟩ := runs_ret.mp hredirect
        simpa [isDirectError_authorizationErrorRedirectWithCode] using ho
    simp only [Option.some.injEq, not_or] at hother
    rw [huri] at hheader hregistered
    rw [hclientId] at hid
    exact ⟨⟨name, duplicateAuthorizationRequestParameter_eq_some_iff.mp hname, hother⟩, hheader,
      client, hstored, hid, by simpa using hregistered⟩

/-- The handler does follow them. -/
theorem exists_redirect_of_followsLast (h : FollowsLast w.store.tables pairs) :
    ∃ o, (authorizeWithPairs P state headers pairs).Runs (Call.exec P) w o w ∧
      isDirectError o = false := by
  obtain ⟨⟨name, hfirst, hclient, hredirect⟩, hheader, client, hstored, hid, hallowed⟩ := h
  obtain ⟨hclientId, huri⟩ := target_authorizationRequestFromQueryPairs pairs
  rw [← huri] at hheader hallowed
  rw [← hclientId] at hid
  have hname := duplicateAuthorizationRequestParameter_eq_some_iff.mpr hfirst
  have hread : (db (.getOidcClientByPublicId (authorizationRequestFromQueryPairs pairs).1.clientId)).Runs
      (Call.exec P) w (.ok (some client)) w := by
    rw [← hid]
    exact runs_db_of_exec (getOidcClientByPublicId_of_mem hstored)
  refine ⟨.ok (authorizationErrorRedirectWithCode state (authorizationRequestFromQueryPairs pairs).1
    (if oidcClientIsActive client then "invalid_request" else "unauthorized_client")
    (if oidcClientIsActive client then "duplicate authorization request parameter"
      else "client is disabled")), ?_, ?_⟩
  swap
  · rw [isDirectError_authorizationErrorRedirectWithCode, hheader]
    rfl
  unfold authorizeWithPairs
  dsimp only
  rw [hname]
  refine runs_bind.mpr (.inl ⟨(), w, runs_failIf.mpr (.inr ⟨by simp [hclient, hredirect], rfl, rfl⟩),
    runs_bind.mpr (.inl ⟨_, w, hread, runs_bind.mpr (.inl ⟨(), w,
      runs_failIf.mpr (.inr ⟨by simp [hallowed], rfl, rfl⟩), ?_⟩)⟩)⟩)
  cases oidcClientIsActive client with
  | true => exact runs_ret.mpr ⟨rfl, rfl⟩
  | false => exact runs_ret.mpr ⟨rfl, rfl⟩

/-- **An ambiguous target.** Every answer to an ambiguous request is a direct error
    unless another parameter is repeated first and the values that were given last
    name a client with that redirect URI. -/
theorem ambiguous_target_refused_iff (hambiguous : AmbiguousTarget pairs) :
    (∀ o w', (authorizeWithPairs P state headers pairs).Runs (Call.exec P) w o w' →
      isDirectError o = true) ↔ ¬FollowsLast w.store.tables pairs := by
  constructor
  · intro hdirect hfollows
    obtain ⟨o, hrun, ho⟩ := @exists_redirect_of_followsLast P state headers _ _ hfollows
    exact absurd (hdirect o w hrun) (by simp [ho])
  · intro hrefused o w' hrun
    cases ho : isDirectError o with
    | true => rfl
    | false => exact absurd (followsLast_of_redirect hambiguous hrun ho) hrefused

namespace Sample

/-- The state comes twice before the client does. -/
def stateFirst : List (String × String) :=
  [("state", "a"), ("state", "b"), ("client_id", "other"), ("client_id", "app"),
    ("redirect_uri", "https://app/callback")]

def clientFirst : List (String × String) :=
  [("client_id", "app"), ("client_id", "app"), ("redirect_uri", "https://app/callback"),
    ("state", "a"), ("state", "b")]

end Sample

open Sample in
/-- The client that is given last gets the answer. -/
theorem redirect_stateFirst :
    AmbiguousTarget stateFirst ∧
      ∃ o w', (authorizeWithPairs primitives appState cookies stateFirst).Runs
        (Call.exec primitives) browser o w' ∧ isDirectError o = false := by
  refine ⟨by decide, ?_⟩
  have hplay : (play (Call.exec primitives) ([{}] : List Choice)
      (authorizeWithPairs primitives appState cookies stateFirst) browser).map
        (fun x => isDirectError x.1) = some false := by decide +kernel
  obtain ⟨⟨o, w'⟩, hw, ho⟩ := Option.map_eq_some_iff.mp hplay
  exact ⟨o, w', ⟨_, hw⟩, ho⟩

open Sample in
theorem ambiguous_target_refused_iff_clientFirst :
    AmbiguousTarget clientFirst ∧
      ∀ o w', (authorizeWithPairs primitives appState cookies clientFirst).Runs
        (Call.exec primitives) browser o w' → isDirectError o = true := by
  have hambiguous : AmbiguousTarget clientFirst := by decide
  refine ⟨hambiguous, (ambiguous_target_refused_iff hambiguous).mpr ?_⟩
  rintro ⟨⟨name, hfirst, hne, -⟩, -⟩
  have hname := duplicateAuthorizationRequestParameter_eq_some_iff.mpr hfirst
  exact hne (Option.some.inj (hname.symm.trans (by decide)))

end CairnId
