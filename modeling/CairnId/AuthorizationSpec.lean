import Mathlib.Data.List.Nodup
import CairnId.Authorization
import CairnId.Concurrency.Prog

/-!
# What a valid authorization request is

The exact conditions under which `validate` accepts a request.
-/

namespace CairnId

open Concurrency Prog

@[simp] theorem mem_collectUnique {value : String} {parsed values : List String} :
    value ∈ collectUnique parsed values ↔ value ∈ parsed ∨ value ∈ values := by
  induction values generalizing parsed with
  | nil => simp [collectUnique]
  | cons v values ih =>
    simp only [collectUnique, ih]
    split <;> simp_all <;> grind

theorem nodup_collectUnique {parsed values : List String} (h : parsed.Nodup) :
    (collectUnique parsed values).Nodup := by
  induction values generalizing parsed with
  | nil => exact h
  | cons v values ih =>
    rw [collectUnique]
    split
    · exact ih h
    · rename_i hv
      exact ih (List.concat_eq_append ▸ h.concat (by simpa using hv))

theorem nodup_of_collectScopes {scopes rest found : List String} (h : scopes.Nodup)
    (hf : collectScopes scopes rest = some found) : found.Nodup := by
  induction rest generalizing scopes with
  | nil =>
    cases hf
    exact h
  | cons scope rest ih =>
    simp only [collectScopes] at hf
    split at hf
    · cases hf
    · split at hf
      · exact ih h hf
      · rename_i hscope
        exact ih (List.concat_eq_append ▸ h.concat (by simpa using hscope)) hf

theorem nodup_of_parseScopes {scope : String} {scopes : List String}
    (h : parseScopes scope = some scopes) : scopes.Nodup := nodup_of_collectScopes .nil h

theorem AuthorizationError.refuseIf_bind_eq_ok {α : Type} {c : Prop} [Decidable c]
    {e : AuthorizationError} {f : Unit → Except AuthorizationError α} {a : α} :
    (AuthorizationError.refuseIf c e >>= f) = .ok a ↔ ¬c ∧ f () = .ok a := by
  unfold refuseIf
  split <;> simp [*, Bind.bind, Except.bind]

theorem trimmedNonempty_some (value : String) :
    trimmedNonempty (some value) = if trim value = "" then none else some (trim value) := by
  by_cases h : trim value = "" <;> simp [trimmedNonempty, Option.filter, h]

theorem trim_of_not_present {parameter : Option String}
    (h : optionalParameterIsPresent parameter = false) {value : String}
    (hvalue : parameter = some value) : trim value = "" := by
  subst hvalue
  rw [optionalParameterIsPresent, trimmedNonempty_some] at h
  split at h
  · assumption
  · cases h

theorem trim_of_parseResponseMode {parameter : Option String} {mode : AuthorizationResponseMode}
    (h : parseResponseMode parameter = .ok mode) {value : String}
    (hvalue : parameter = some value) : trim value = "" ∨ trim value = "query" := by
  subst hvalue
  rw [parseResponseMode, trimmedNonempty_some] at h
  split at h
  · exact .inl (by simp_all)
  · exact .inr (by simp_all)
  · cases h

/-- A prompt that asks for neither login nor consent names neither. -/
theorem not_mem_of_parsePrompt {parameter : Option String} {prompt : AuthorizationPrompt}
    (h : parsePrompt parameter = .ok prompt) (hlogin : prompt.requiresLogin = false)
    (hconsent : prompt.requiresConsent = false) {value : String} (hvalue : parameter = some value) :
    "login" ∉ splitWhitespace (trim value) ∧ "consent" ∉ splitWhitespace (trim value) := by
  subst hvalue
  rw [parsePrompt, trimmedNonempty_some] at h
  by_cases hempty : trim value = ""
  · rw [hempty]
    decide
  · rw [if_neg hempty] at h
    dsimp only at h
    split at h
    · cases h
    split at h
    · cases h
    split at h
    · cases h
    split at h
    · simp_all
    · split at h
      · cases h
        cases hlogin
      · cases h
        cases hlogin
      · cases h
        cases hconsent
      · cases h

/-- What it takes to validate `request` as `validated`. -/
structure Validated (P : Primitives) (request : AuthorizationRequest) (client : OidcClient)
    (validated : ValidatedAuthorizationRequest) : Prop where
  responseType : request.responseType = "code"
  grantType : client.allowsGrant .authorizationCode = true
  redirectUri : client.allowsRedirectUri request.redirectUri = true
  request_blank : optionalParameterIsPresent request.request = false
  requestUri_blank : optionalParameterIsPresent request.requestUri = false
  scopes_eq : ∃ parsed additional, parseScopes request.scope = some parsed ∧
    additionalScopesForSupportedClaims P request.claims = .ok additional ∧
    validated.scopes = collectUnique parsed additional
  openid : "openid" ∈ validated.scopes
  scopes_allowed : validated.scopes ⊆ client.allowedScopes
  offline_access : "offline_access" ∈ validated.scopes → client.allowsGrant .refreshToken = true
  maxAge : ∀ maxAge ∈ request.maxAge, 0 ≤ maxAge
  responseMode : parseResponseMode request.responseMode = .ok validated.responseMode
  prompt : parsePrompt request.prompt = .ok validated.prompt
  display : parseDisplay request.display = .ok validated.display
  codeChallenge : request.codeChallenge = some validated.codeChallenge
  codeChallenge_valid : validatePkceUnreserved validated.codeChallenge = true
  codeChallengeMethod : request.codeChallengeMethod = some "S256"
  kept : validated =
    { validated with
      clientId := request.clientId
      redirectUri := request.redirectUri
      state := request.state
      nonce := request.nonce
      maxAge := request.maxAge
      acrValues := parseSpaceDelimitedUnique request.acrValues
      uiLocales := parseSpaceDelimitedUnique request.uiLocales
      claimsLocales := parseSpaceDelimitedUnique request.claimsLocales
      loginHint := request.loginHint
      codeChallengeMethod := .s256 }

theorem AuthorizationRequest.validate_eq_ok {P : Primitives} {request : AuthorizationRequest}
    {client : OidcClient} {validated : ValidatedAuthorizationRequest} :
    request.validate P client = .ok validated ↔ Validated P request client validated := by
  unfold AuthorizationRequest.validate
  constructor
  · intro h
    simp only [AuthorizationError.refuseIf_bind_eq_ok] at h
    obtain ⟨-, htype, hgrant, hredirect, h⟩ := h
    split at h
    · rename_i parsed hparsed
      simp only [AuthorizationError.refuseIf_bind_eq_ok] at h
      obtain ⟨hrequest, huri, h⟩ := h
      obtain ⟨additional, hadditional, h⟩ := except_bind_eq_ok.mp h
      simp only [AuthorizationError.refuseIf_bind_eq_ok] at h
      obtain ⟨hopenid, hallowed, hoffline, hmax, h⟩ := h
      obtain ⟨mode, hmode, h⟩ := except_bind_eq_ok.mp h
      obtain ⟨prompt, hprompt, h⟩ := except_bind_eq_ok.mp h
      obtain ⟨display, hdisplay, h⟩ := except_bind_eq_ok.mp h
      split at h
      · rename_i challenge hchallenge
        simp only [AuthorizationError.refuseIf_bind_eq_ok] at h
        obtain ⟨hvalid, hmethod, h⟩ := h
        cases h
        exact
          { responseType := not_not.mp htype
            grantType := by simpa using hgrant
            redirectUri := by simpa using hredirect
            request_blank := by simpa using hrequest
            requestUri_blank := by simpa using huri
            scopes_eq := ⟨parsed, additional, hparsed, hadditional, rfl⟩
            openid := by simpa [imp_iff_not_or] using hopenid
            scopes_allowed := fun scope hscope => by
              simp only [List.any_eq_true, not_exists, not_and] at hallowed
              simpa using hallowed scope hscope
            offline_access := by simpa using hoffline
            maxAge := by simpa [Option.any_eq_true] using hmax
            responseMode := hmode
            prompt := hprompt
            display := hdisplay
            codeChallenge := hchallenge
            codeChallenge_valid := by simpa using hvalid
            codeChallengeMethod := not_not.mp hmethod
            kept := rfl }
      · cases h
    · cases h
  · intro h
    obtain ⟨parsed, additional, hparsed, hadditional, hscopes⟩ := h.scopes_eq
    have hok {α β : Type} (a : α) (f : α → Except AuthorizationError β) :
        (Except.ok a >>= f) = f a := rfl
    simp only [AuthorizationError.refuseIf_bind_eq_ok, hparsed, hadditional, h.responseMode,
      h.prompt, h.display, h.codeChallenge, hok, ← hscopes]
    refine ⟨by simp [h.responseType], by simp [h.responseType], by simp [h.grantType],
      by simp [h.redirectUri], by simp [h.request_blank], by simp [h.requestUri_blank],
      by simp [h.openid], ?_, ?_, ?_, by simp [h.codeChallenge_valid],
      by simp [h.codeChallengeMethod], congrArg Except.ok h.kept.symm⟩
    · simpa using fun scope hscope => h.scopes_allowed hscope
    · simpa using h.offline_access
    · simpa [Option.any_eq_true] using h.maxAge

end CairnId
