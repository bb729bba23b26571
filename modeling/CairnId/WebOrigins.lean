import CairnId.Http.Security
import CairnId.Http.TokenRuns

/-!
# Which web origins work

The start accepts every spelling of an origin that is read as one. Each request is compared
with the setting as it was written, so a page of the origin is let through exactly if the
setting is the serialization of its own origin.

## Main definitions

- `IsWebOrigin` — the settings that the start accepts
- `Admits` — the pages of an origin may change something and no others

## Main results

- `validatePublicOrigin_ok_iff`
- `admits_iff_serialized`
- `accepted_origin_locked_out`
-/

namespace CairnId

variable (P : Primitives)

-- the start

/-- The URL is a bare origin that the environment allows. -/
structure IsWebOrigin (environment : Environment) (url : Url) : Prop where
  base : url.cannotBeABase = false
  host : url.host.isSome
  anonymous : url.username = "" ∧ url.password = none
  bare : url.path = "/" ∧ url.query = none ∧ url.fragment = none
  scheme : url.scheme = "https" ∨
    url.scheme = "http" ∧ environment = .development ∧ isLoopbackHost url = true

theorem refuse_eq_ok_iff {c : Prop} [Decidable c] {e : ConfigError}
    {rest : Except ConfigError Unit} :
    (if c then .error e else rest) = .ok () ↔ ¬c ∧ rest = .ok () := by
  by_cases h : c
  · rw [if_pos h]
    exact ⟨fun heq => (by cases heq), fun heq => absurd h heq.1⟩
  · rw [if_neg h]
    exact ⟨fun heq => ⟨h, heq⟩, fun heq => heq.2⟩

theorem validatePublicOrigin_ok_iff (environment : Environment) (name value : String) :
    validatePublicOrigin P environment name value = .ok () ↔
      ∃ url, P.parseUrl value = some url ∧ IsWebOrigin environment url := by
  rw [validatePublicOrigin]
  cases P.parseUrl value with
  | none =>
    constructor
    · intro h
      cases h
    · rintro ⟨url, h, -⟩
      cases h
  | some parsed =>
    have hscheme : (if parsed.scheme = "https" then (.ok () : Except ConfigError Unit)
        else if parsed.scheme = "http" then
          if environment = .development && isLoopbackHost parsed then .ok ()
          else .error (.invalidOrigin name value
            "http is allowed only for localhost development origins")
        else .error (.invalidOrigin name value "must use http or https")) = .ok () ↔
        (parsed.scheme = "https" ∨ parsed.scheme = "http" ∧ environment = .development ∧
          isLoopbackHost parsed = true) := by
      by_cases hhttps : parsed.scheme = "https"
      · simp [hhttps]
      · by_cases hhttp : parsed.scheme = "http"
        · by_cases hlocal : environment = .development ∧ isLoopbackHost parsed = true
          · simp [hhttp, hlocal]
          · simp [hhttp, hlocal]
        · simp [hhttps, hhttp]
    have hhost : ¬(parsed.cannotBeABase || parsed.host.isNone) = true ↔
        parsed.cannotBeABase = false ∧ parsed.host.isSome := by
      cases parsed.host <;> simp
    have hanonymous : ¬(parsed.username ≠ "" || parsed.password.isSome) = true ↔
        parsed.username = "" ∧ parsed.password = none := by
      cases parsed.password <;> simp
    have hbare : ¬(parsed.path ≠ "/" || parsed.query.isSome || parsed.fragment.isSome) = true ↔
        parsed.path = "/" ∧ parsed.query = none ∧ parsed.fragment = none := by
      cases parsed.query <;> cases parsed.fragment <;> simp
    dsimp only
    rw [refuse_eq_ok_iff, refuse_eq_ok_iff, refuse_eq_ok_iff, hhost, hanonymous, hbare, hscheme]
    constructor
    · rintro ⟨⟨hbase, hhost⟩, hanonymous, hbare, hscheme⟩
      exact ⟨parsed, rfl, hbase, hhost, hanonymous, hbare, hscheme⟩
    · rintro ⟨url, heq, hurl⟩
      obtain rfl := Option.some.inj heq
      exact ⟨⟨hurl.base, hurl.host⟩, hurl.anonymous, hurl.bare, hurl.scheme⟩

/-- A refusal names the setting it is about and repeats its value. -/
theorem validatePublicOrigin_error {environment : Environment} {name value : String}
    {e : ConfigError} (h : validatePublicOrigin P environment name value = .error e) :
    ∃ reason, e = .invalidOrigin name value reason := by
  rw [validatePublicOrigin] at h
  repeat' split at h
  all_goals first
    | exact ⟨_, (Except.error.inj h).symm⟩
    | cases h

theorem validateOriginConfiguration_ok_iff (environment : Environment) (issuer origin : String) :
    validateOriginConfiguration P environment issuer origin = .ok () ↔
      validatePublicOrigin P environment "CAIRN_ISSUER" issuer = .ok () ∧
      validatePublicOrigin P environment "CAIRN_PUBLIC_WEB_ORIGIN" origin = .ok () := by
  rw [validateOriginConfiguration]
  cases validatePublicOrigin P environment "CAIRN_ISSUER" issuer with
  | error e =>
    constructor
    · intro h
      cases h
    · rintro ⟨h, -⟩
      cases h
  | ok u => exact ⟨fun h => ⟨rfl, h⟩, fun h => h.2⟩

-- each request

variable (config : ApiConfig)

/-- What changes something is let through from the pages of the origin and refused from
    those of others. -/
structure Admits (origin : String) : Prop where
  ofOrigin : ∀ method path headers line, unsafeApiRequestPath method path = true →
    HeaderMap.get headers "origin" = some line → line.toStr = some origin →
    validateApiBrowserOrigin P config method path headers = .ok ()
  ofReferer : ∀ method path headers line, unsafeApiRequestPath method path = true →
    HeaderMap.get headers "origin" = none → HeaderMap.get headers "referer" = some line →
    line.toStr.bind (refererOrigin P) = some origin →
    validateApiBrowserOrigin P config method path headers = .ok ()
  notOtherOrigin : ∀ method path headers line, unsafeApiRequestPath method path = true →
    HeaderMap.get headers "origin" = some line → line.toStr ≠ some origin →
    validateApiBrowserOrigin P config method path headers = .error invalidRequestOrigin
  notOtherReferer : ∀ method path headers line, unsafeApiRequestPath method path = true →
    HeaderMap.get headers "origin" = none → HeaderMap.get headers "referer" = some line →
    line.toStr.bind (refererOrigin P) ≠ some origin →
    validateApiBrowserOrigin P config method path headers = .error invalidRequestOrigin

section request

variable {P config} {method : Method} {path : String} {headers : HeaderMap} {line : HeaderValue}

theorem validateApiBrowserOrigin_of_origin (hguarded : unsafeApiRequestPath method path = true)
    (horigin : headers.get "origin" = some line) :
    validateApiBrowserOrigin P config method path headers =
      if line.toStr = some config.publicWebOrigin then .ok () else .error invalidRequestOrigin := by
  rw [validateApiBrowserOrigin, hguarded, horigin, if_neg (by decide)]
  dsimp only
  cases line.toStr with
  | none => rw [if_neg (by simp)]
  | some origin =>
    show (if origin ≠ config.publicWebOrigin then Except.error invalidRequestOrigin else .ok ()) = _
    by_cases heq : origin = config.publicWebOrigin
    · rw [if_neg (not_not.mpr heq), if_pos (congrArg some heq)]
    · rw [if_pos heq, if_neg fun h => heq (Option.some.inj h)]

theorem validateApiBrowserOrigin_of_referer (hguarded : unsafeApiRequestPath method path = true)
    (horigin : headers.get "origin" = none) (hreferer : headers.get "referer" = some line) :
    validateApiBrowserOrigin P config method path headers =
      if line.toStr.bind (refererOrigin P) = some config.publicWebOrigin then .ok ()
      else .error invalidRequestOrigin := by
  rw [validateApiBrowserOrigin, hguarded, horigin, hreferer, if_neg (by decide)]
  dsimp only
  cases line.toStr with
  | none => rw [Option.bind_none, if_neg (by simp)]
  | some referer =>
    show (if refererOrigin P referer ≠ some config.publicWebOrigin then
      Except.error invalidRequestOrigin else .ok ()) =
        if refererOrigin P referer = some config.publicWebOrigin then .ok ()
        else .error invalidRequestOrigin
    by_cases heq : refererOrigin P referer = some config.publicWebOrigin
    · rw [if_neg (not_not.mpr heq), if_pos heq]
    · rw [if_pos heq, if_neg heq]

end request

/-- The pages of the setting itself, as it is written. -/
theorem admits_publicWebOrigin : Admits P config config.publicWebOrigin where
  ofOrigin _ _ _ _ hguarded horigin htext := by
    rw [validateApiBrowserOrigin_of_origin hguarded horigin, if_pos htext]
  ofReferer _ _ _ _ hguarded horigin hreferer htext := by
    rw [validateApiBrowserOrigin_of_referer hguarded horigin hreferer, if_pos htext]
  notOtherOrigin _ _ _ _ hguarded horigin htext := by
    rw [validateApiBrowserOrigin_of_origin hguarded horigin, if_neg htext]
  notOtherReferer _ _ _ _ hguarded horigin hreferer htext := by
    rw [validateApiBrowserOrigin_of_referer hguarded horigin hreferer, if_neg htext]

-- header lines of an origin

/-- Printable ASCII without the blank. -/
def IsGraphic (text : String) : Prop := ∀ c ∈ text.toList, 0x21 ≤ c.toNat ∧ c.toNat ≤ 0x7E

def headerLine (text : String) : HeaderValue := text.toList.map fun c => UInt8.ofNat c.toNat

theorem graphicByte : ∀ n < 256, 0x21 ≤ n → n ≤ 0x7E →
    isVisibleByte (UInt8.ofNat n) = true ∧ (UInt8.ofNat n).toNat = n := by
  decide +kernel

theorem headerLine_toStr {text : String} (h : IsGraphic text) :
    (headerLine text).toStr = some text := by
  have hbyte : ∀ c ∈ text.toList, isVisibleByte (UInt8.ofNat c.toNat) = true ∧
      (UInt8.ofNat c.toNat).toNat = c.toNat := by
    intro c hc
    obtain ⟨hlow, hhigh⟩ := h c hc
    exact graphicByte c.toNat (by omega) hlow hhigh
  have hvisible : (headerLine text).all isVisibleByte = true := by
    rw [headerLine, List.all_map, List.all_eq_true]
    exact fun c hc => (hbyte c hc).1
  have htext : (headerLine text).map (fun b => Char.ofNat b.toNat) = text.toList := by
    rw [headerLine, List.map_map]
    refine (List.map_congr_left fun c hc => ?_).trans (List.map_id _)
    show Char.ofNat (UInt8.ofNat c.toNat).toNat = c
    rw [(hbyte c hc).2, Char.ofNat_toNat]
  rw [HeaderValue.toStr, if_pos hvisible, htext, String.ofList_toList]

/-- An accepted setting works for the pages of its origin exactly if it is that origin's
    serialization. -/
theorem admits_iff_serialized
    (hgraphic : ∀ text url, P.parseUrl text = some url → IsGraphic url.origin)
    (haccepted : validateOriginConfiguration P config.environment config.issuer
      config.publicWebOrigin = .ok ()) :
    ∃ url, P.parseUrl config.publicWebOrigin = some url ∧
      IsWebOrigin config.environment url ∧
      (Admits P config url.origin ↔ url.origin = config.publicWebOrigin) := by
  obtain ⟨-, horigin⟩ := (validateOriginConfiguration_ok_iff P config.environment config.issuer
    config.publicWebOrigin).mp haccepted
  obtain ⟨url, hurl, hweb⟩ := (validatePublicOrigin_ok_iff P _ _ _).mp horigin
  refine ⟨url, hurl, hweb, ?_, ?_⟩
  · intro hadmits
    have hline := headerLine_toStr (hgraphic _ url hurl)
    have hguarded : unsafeApiRequestPath .post "/api/v1/users" = true := by decide
    have hget : HeaderMap.get [("origin", headerLine url.origin)] "origin" =
      some (headerLine url.origin) := rfl
    have hok := hadmits.ofOrigin .post "/api/v1/users" [("origin", headerLine url.origin)]
      (headerLine url.origin) hguarded hget hline
    rw [validateApiBrowserOrigin_of_origin hguarded hget, hline] at hok
    by_contra hne
    rw [if_neg fun h => hne (Option.some.inj h)] at hok
    cases hok
  · intro heq
    rw [heq]
    exact admits_publicWebOrigin P config

namespace Sample

def webUrl (origin : String) : Url where
  scheme := "https"
  origin := origin
  cannotBeABase := false
  host := some "app.example.org"
  username := ""
  password := none
  path := "/"
  query := none
  fragment := none

/-- Three spellings of one origin are read as the same URL. -/
def urlPrimitives : Primitives :=
  { primitives with
    parseUrl := fun text =>
      if text = "https://app.example.org" ∨ text = "https://app.example.org/" ∨
        text = "HTTPS://App.Example.org:443" then some (webUrl "https://app.example.org")
      else none }

def webConfig (publicWebOrigin : String) : ApiConfig :=
  { appState.config with
    environment := .production, issuer := "https://app.example.org",
    publicWebOrigin := publicWebOrigin }

theorem graphic_urlPrimitives (text : String) (url : Url)
    (h : urlPrimitives.parseUrl text = some url) : IsGraphic url.origin := by
  have hurl : url = webUrl "https://app.example.org" := by
    rw [urlPrimitives] at h
    dsimp only at h
    split at h
    · exact (Option.some.inj h).symm
    · cases h
  have hall : ("https://app.example.org".toList.all fun c =>
      0x21 ≤ c.toNat && c.toNat ≤ 0x7E) = true := by decide
  rw [hurl]
  intro c hc
  simpa using List.all_eq_true.mp hall c hc

end Sample

open Sample

theorem admits_iff_serialized_webConfig :
    ∃ url, urlPrimitives.parseUrl "https://app.example.org" = some url ∧
      IsWebOrigin .production url ∧
      (Admits urlPrimitives (webConfig "https://app.example.org") url.origin ↔
        url.origin = "https://app.example.org") :=
  admits_iff_serialized urlPrimitives (webConfig "https://app.example.org")
    graphic_urlPrimitives (by decide)

/-- With a slash at the end the setting is accepted and the pages of the origin are
    refused. -/
theorem accepted_origin_locked_out :
    validateOriginConfiguration urlPrimitives .production "https://app.example.org"
      "https://app.example.org/" = .ok () ∧
    (urlPrimitives.parseUrl "https://app.example.org/").map (·.origin) =
      some "https://app.example.org" ∧
    validateApiBrowserOrigin urlPrimitives (webConfig "https://app.example.org/") .post
      "/api/v1/auth/login" [("origin", headerLine "https://app.example.org")] =
        .error invalidRequestOrigin ∧
    validateApiBrowserOrigin urlPrimitives (webConfig "https://app.example.org/") .post
      "/api/v1/auth/login" [("referer", headerLine "https://app.example.org/")] =
        .error invalidRequestOrigin := by
  refine ⟨by decide, by decide, ?_, ?_⟩
  · rw [validateApiBrowserOrigin_of_origin (by decide) rfl]
    exact if_neg (by decide)
  · rw [validateApiBrowserOrigin_of_referer (by decide) rfl rfl]
    exact if_neg (by decide)

end CairnId
