import CairnId.Operations.Commands

/-!
# What signs and what is published

An installation over its life: the API starts with some configuration, and the
operator rotates and retires signing keys. `resolveSigningMaterial` and `jwks`
choose between database keys and the static key by rules of their own; the
conditions under which they agree, and under which a retired key stays away, are
those of `Deployment.Safe`.
-/

namespace CairnId

open Concurrency Concurrency.Sql Prog Database

/-- A running installation, with the keys that have been retired in its life. -/
structure Deployment where
  organizationId : OrganizationId
  config : ApiConfig
  world : World
  retired : List String

namespace Deployment

def state (d : Deployment) : AppState := ⟨d.organizationId, d.config⟩

def signingKeys (d : Deployment) : List SigningKeyRow := d.world.store.tables .signingKeys

end Deployment

inductive KeyOperation where
  /-- The API starts with a configuration, and keeps the former one if it fails;
      `signing-key ensure` does the same check. -/
  | start (config : ApiConfig)
  | rotate
  | retire (kid : String)

variable (P : Primitives)

/-- One operation, run without interruption under the given choices. -/
def Deployment.step (d : Deployment) (cs : List Choice) : KeyOperation → Option Deployment
  | .start config =>
    (play (Call.exec P) cs (ensureStartupSigningKey P config) d.world).map fun x =>
      { d with world := x.2, config := if x.1.isOk then config else d.config }
  | .rotate =>
    (play (Call.exec P) cs (rotateSigningKey P d.config) d.world).map fun x =>
      { d with world := x.2 }
  | .retire kid =>
    (play (Call.exec P) cs (retireSigningKey kid) d.world).map fun x =>
      { d with
        world := x.2
        retired := match x.1 with
          | .ok true => kid :: d.retired
          | _ => d.retired }

/-- The static key can stand in for a database key: it was not retired, and the
    JWK set made of these rows would list it. -/
def SigningMaterial.StandsIn (m : SigningMaterial) (rows : List SigningKeyRow)
    (retired : List String) : Prop :=
  m.keyId ∉ retired ∧
    ((∀ k ∈ rows, k.retiredAt ≠ none) ∨ ∃ k ∈ rows, k.retiredAt = none ∧ k.publicJwk = m.publicJwk)

/-- Where the static key is in use, it stands in for a database key. -/
def ApiConfig.Fallback (config : ApiConfig) (rows : List SigningKeyRow) (retired : List String) :
    Prop :=
  ∀ m ∈ config.signing,
    (config.keyEncryptionKey = none ∨ ∀ k ∈ rows, k.signs = false) → m.StandsIn rows retired

/-- No retired key has the name of a key that can still be generated. -/
def Deployment.NamesFree (d : Deployment) : Prop :=
  ∀ u ∉ d.world.uuids, generatedKeyId u ∉ d.retired

/-- An operation that the choice rules of the code are prepared for. -/
def Deployment.Safe (d : Deployment) : KeyOperation → Prop
  -- a start imports the static key when no database key signs
  | .start config => d.NamesFree ∧
      ∀ m ∈ config.signing, m.publicJwk.text? "kid" = some m.keyId ∧
        if config.keyEncryptionKey.isSome then
          (∀ k ∈ d.signingKeys, k.signs = false) → m.keyId ∉ d.retired
        else m.StandsIn d.signingKeys d.retired
  | .rotate => d.NamesFree
  | .retire kid =>
    d.config.Fallback (d.signingKeys.filter fun k => k.kid ≠ kid)
      (if d.signingKeys.any fun k => k.kid = kid ∧ k.retiredAt = none then kid :: d.retired
        else d.retired)

/-- Nothing has been started yet, and the key table is empty. -/
structure Deployment.Fresh (d : Deployment) : Prop where
  rows : d.signingKeys = []
  retired : d.retired = []
  config : d.config.signing = none

/-- The installations that runs of allowed operations reach. -/
inductive Deployment.Reachable (Allowed : Deployment → KeyOperation → Prop) : Deployment → Prop
  | fresh {d : Deployment} : d.Fresh → Reachable Allowed d
  | step {d d' : Deployment} {op : KeyOperation} {cs : List Choice} :
      Reachable Allowed d → Allowed d op → d.step P cs op = some d' → Reachable Allowed d'

/-- The signing material in use. -/
def Deployment.Resolves (d : Deployment) (m : SigningMaterial) : Prop :=
  ∃ w, (resolveSigningMaterial P d.state).Runs (Call.exec P) d.world (.ok m) w

/-- The answer of the JWKS endpoint. -/
def Deployment.Publishes (d : Deployment) (set : List Json) : Prop :=
  ∃ w, (jwks d.state).Runs (Call.exec P) d.world (.ok set) w

/-- What signs is published, and what was retired does neither. -/
structure Deployment.Published (d : Deployment) : Prop where
  one_active : (d.signingKeys.filter (·.signingActive)).length ≤ 1
  published : ∀ m set, d.Resolves P m → d.Publishes P set → m.publicJwk ∈ set
  retired_silent : ∀ kid ∈ d.retired, ∀ m, d.Resolves P m → m.keyId ≠ kid
  retired_unlisted : ∀ kid ∈ d.retired, ∀ set, d.Publishes P set →
    ∀ jwk ∈ set, jwk.text? "kid" ≠ some kid

section reads

variable {P} {d : Deployment}

/-- Signing material comes from a database key that signs, or is the static key
    where there is none. -/
theorem Deployment.Resolves.source {m : SigningMaterial} (h : d.Resolves P m) :
    (∃ k ∈ d.signingKeys, k.signs = true ∧ m.keyId = k.kid ∧ m.publicJwk = k.publicJwk) ∨
      (d.config.signing = some m ∧
        (d.config.keyEncryptionKey = none ∨ ∀ k ∈ d.signingKeys, k.signs = false)) := by
  obtain ⟨w, h⟩ := h
  rcases runs_bind.mp h with ⟨stored, w₁, hread, h⟩ | ⟨e, he, -⟩
  · have hstatic : stored = none → d.config.signing = some m := by
      rintro rfl
      cases hs : d.config.signing with
      | none => simp [Deployment.state, hs, App.oauthError] at h
      | some m' =>
        simp only [Deployment.state, hs, pure_eq, runs_ret, Except.ok.injEq] at h
        rw [h.1]
    cases hkey : d.config.keyEncryptionKey with
    | none =>
      simp only [Deployment.state, hkey, pure_eq, runs_ret, Except.ok.injEq] at hread
      exact .inr ⟨hstatic hread.1, .inl rfl⟩
    | some key =>
      simp only [Deployment.state, hkey] at hread
      rcases runs_bind.mp hread with ⟨found, w₂, hdb, hread⟩ | ⟨e, he, -⟩
      · simp only [pure_eq, runs_ret, Except.ok.injEq] at hread
        obtain ⟨hsome, hnone⟩ := atomic_activeSigningKey (App.runs_db_ok hdb)
        cases found with
        | none => exact .inr ⟨hstatic hread.1, .inr (hnone rfl)⟩
        | some stored =>
          obtain ⟨k, hk, hsigns, hm⟩ := hsome stored rfl
          have hrow := material?_eq_some hm
          obtain ⟨rfl, -⟩ := hread
          simp only [Option.map_some] at h
          cases hdec : decryptSigningMaterial P stored key with
          | error e => simp [hdec, App.oauthError] at h
          | ok m' =>
            simp only [hdec, pure_eq, runs_ret, Except.ok.injEq] at h
            obtain ⟨hid, hpub, -⟩ := decryptSigningMaterial_eq_ok hdec
            refine .inl ⟨k, hk, hsigns, ?_, ?_⟩
            · rw [h.1, hid, ← hrow]
              rfl
            · rw [h.1, hpub, ← hrow]
              rfl
      · cases he
  · cases he

/-- The JWK set lists the unretired keys, or the static key where there is none. -/
theorem Deployment.Publishes.keys {set : List Json} (h : d.Publishes P set) :
    ((∃ k ∈ d.signingKeys, k.retiredAt = none) ∧
      ∀ jwk, jwk ∈ set ↔ ∃ k ∈ d.signingKeys, k.retiredAt = none ∧ k.publicJwk = jwk) ∨
    ((∀ k ∈ d.signingKeys, k.retiredAt ≠ none) ∧
      ∀ jwk, jwk ∈ set ↔ ∃ m, d.config.signing = some m ∧ m.publicJwk = jwk) := by
  obtain ⟨w, h⟩ := h
  rcases runs_bind.mp h with ⟨rows, w₁, hread, h⟩ | ⟨e, he, -⟩
  · simp only [pure_eq, runs_ret, Except.ok.injEq] at h
    obtain ⟨rfl, -⟩ := h
    have hmem := atomic_activeJwks (App.runs_db_ok hread)
    cases rows with
    | nil =>
      refine .inr ⟨fun k hk hnone => ?_, fun jwk => by simp [jwkSetFromSources, Deployment.state]⟩
      have := (hmem k).mpr ⟨hk, hnone⟩
      cases this
    | cons k ks =>
      refine .inl ⟨⟨k, (hmem k).mp (by simp)⟩, fun jwk => ?_⟩
      have : ∀ k', k' ∈ k :: ks ↔ k' ∈ d.signingKeys ∧ k'.retiredAt = none := hmem
      simp only [jwkSetFromSources, List.isEmpty_cons, Bool.not_false, if_true, List.mem_map, this,
        and_assoc]
  · cases he

end reads

section commands

variable {P} {w w' : World}

theorem all_encryptSigningMaterial (m : SigningMaterial) (key : KeyEncryptionKey) :
    (encryptSigningMaterial P m key).All fun e => e.isQuiet = true := by
  refine .bind (.perform rfl) fun nonce => ?_
  split
  · exact .bind (.perform rfl) fun _ => .ret _
  · trivial

theorem all_generateEncryptedSigningKey (key : KeyEncryptionKey) :
    (generateEncryptedSigningKey P key).All fun e => e.isQuiet = true := by
  refine .bind (.perform rfl) fun pem => ?_
  split
  · refine .bind (.perform rfl) fun id => ?_
    dsimp only
    split
    · exact all_encryptSigningMaterial ..
    · trivial
  · trivial

/-- A key ready to be made the active one. -/
structure SigningKeyMaterial.Ready (k : SigningKeyMaterial) : Prop where
  jwk_kid : k.publicJwk.text? "kid" = some k.kid
  active : k.signingActive = true
  unretired : k.retiredAt = none

theorem runs_encryptSigningMaterial {m : SigningMaterial} {key : KeyEncryptionKey}
    {k : SigningKeyMaterial} (hm : m.publicJwk.text? "kid" = some m.keyId)
    (h : (encryptSigningMaterial P m key).Runs (Call.exec P) w (.ok k) w') :
    k.Ready ∧ k.kid = m.keyId := by
  rcases runs_bind.mp h with ⟨nonce, w₁, -, h⟩ | ⟨e, he, -⟩
  · split at h
    · rcases runs_bind.mp h with ⟨now, w₂, -, h⟩ | ⟨e, he, -⟩
      · simp only [pure_eq, runs_ret, Except.ok.injEq] at h
        obtain ⟨rfl, -⟩ := h
        exact ⟨⟨hm, rfl, rfl⟩, rfl⟩
      · cases he
    · simp at h
  · cases he

theorem text?_kid_rsaPublicJwk {keyId pem : String} {jwk : Json}
    (h : rsaPublicJwk P keyId pem = some jwk) : jwk.text? "kid" = some keyId := by
  unfold rsaPublicJwk at h
  cases hc : P.rsaComponents pem with
  | none => simp [hc] at h
  | some x =>
    simp only [hc, Option.bind_eq_bind, Option.bind_some, Option.pure_def, Option.some.injEq] at h
    subst h
    rfl

theorem runs_generateEncryptedSigningKey {key : KeyEncryptionKey} {k : SigningKeyMaterial}
    (h : (generateEncryptedSigningKey P key).Runs (Call.exec P) w (.ok k) w') :
    k.Ready ∧ ∃ u ∉ w.uuids, k.kid = generatedKeyId u := by
  rcases runs_bind.mp h with ⟨pem, w₁, hpem, h⟩ | ⟨e, he, -⟩
  · split at h
    · rcases runs_bind.mp h with ⟨u, w₂, hdraw, h⟩ | ⟨e, he, -⟩
      · dsimp only at h
        split at h
        · rename_i jwk hjwk
          obtain ⟨hready, hkid⟩ := runs_encryptSigningMaterial (text?_kid_rsaPublicJwk hjwk) h
          refine ⟨hready, u, ?_, hkid⟩
          obtain ⟨_, _, hx, -⟩ := runs_perform.mp hpem
          obtain ⟨_, _, hu, hret⟩ := runs_perform.mp hdraw
          simp only [Call.exec, Option.some.injEq, Prod.mk.injEq] at hx
          obtain ⟨-, rfl⟩ := hx
          simp only [Call.exec] at hu
          split at hu
          · cases hu
          · cases hu
            cases hret
            assumption
        · simp at h
      · cases he
    · simp at h
  · cases he

theorem SigningKeyMaterial.Ready.signs {k : SigningKeyMaterial} (h : k.Ready) :
    k.row.signs = true := by
  simp [SigningKeyRow.signs, SigningKeyMaterial.row, h.active, h.unretired]

theorem all_startupKey (config : ApiConfig) (key : KeyEncryptionKey) :
    ((match config.signing with
      | some signing => encryptSigningMaterial P signing key
      | none => generateEncryptedSigningKey P key).mapError CommandError.oidc).All
        fun e : Call => e.isQuiet = true := by
  refine .mapError ?_
  split
  · exact all_encryptSigningMaterial ..
  · exact all_generateEncryptedSigningKey ..

theorem runs_startupKey {config : ApiConfig} {key : KeyEncryptionKey} {k : SigningKeyMaterial}
    (hstatic : ∀ m ∈ config.signing, m.publicJwk.text? "kid" = some m.keyId)
    (h : (match config.signing with
      | some signing => encryptSigningMaterial P signing key
      | none => generateEncryptedSigningKey P key).Runs (Call.exec P) w (.ok k) w') :
    k.Ready ∧
      ((∃ m ∈ config.signing, k.kid = m.keyId) ∨ ∃ u ∉ w.uuids, k.kid = generatedKeyId u) := by
  cases hs : config.signing with
  | some m =>
    rw [hs] at h
    obtain ⟨hready, hkid⟩ := runs_encryptSigningMaterial (hstatic m hs) h
    exact ⟨hready, .inl ⟨m, rfl, hkid⟩⟩
  | none =>
    rw [hs] at h
    exact (runs_generateEncryptedSigningKey h).imp_right .inr

/-- Making a key the active one, as the commands do it. -/
theorem runs_upsertSigningKeyMaterial {k : SigningKeyMaterial} (hk : k.Ready)
    {o : Except CommandError Unit}
    (h : (Command.db (.upsertSigningKeyMaterial k)).Runs (Call.exec P) w o w') :
    (o = .ok () ∧
      Activated k (w.store.tables .signingKeys) (w'.store.tables .signingKeys)) ∨
      ((∃ e, o = .error e) ∧ w'.store = w.store) := by
  rcases Command.runs_db h with ⟨e, rfl, hs⟩ | ⟨r, hx, rfl⟩
  · exact .inr ⟨⟨e, rfl⟩, hs⟩
  · rcases atomic_upsertSigningKeyMaterial hk.active hx with ⟨rfl, ha⟩ | ⟨⟨e, rfl⟩, hs⟩
    · exact .inl ⟨rfl, ha⟩
    · exact .inr ⟨⟨_, rfl⟩, hs⟩

/-- The table is as it was, or a new key has become the active one. -/
def KeysChanged (w w' : World) (Named : SigningKeyMaterial → Prop) : Prop :=
  w'.store.tables .signingKeys = w.store.tables .signingKeys ∨
    ∃ k : SigningKeyMaterial, k.Ready ∧ Named k ∧
      Activated k (w.store.tables .signingKeys) (w'.store.tables .signingKeys)

/-- A start that succeeds leaves a key that signs, unless there is no
    key-encryption key; one that fails leaves the table as it was. -/
theorem runs_ensureStartupSigningKey {config : ApiConfig}
    (hstatic : ∀ m ∈ config.signing, m.publicJwk.text? "kid" = some m.keyId)
    {o : Except CommandError Unit}
    (h : (ensureStartupSigningKey P config).Runs (Call.exec P) w o w') :
    KeysChanged w w' (fun k => config.keyEncryptionKey.isSome ∧
      (∀ k ∈ w.store.tables .signingKeys, k.signs = false) ∧
      ((∃ m ∈ config.signing, k.kid = m.keyId) ∨ ∃ u ∉ w.uuids, k.kid = generatedKeyId u)) ∧
    (o = .ok () → config.keyEncryptionKey.isSome →
      ∃ k ∈ w'.store.tables .signingKeys, k.signs = true) ∧
    ((∃ e, o = .error e) →
      w'.store.tables .signingKeys = w.store.tables .signingKeys) := by
  rcases runs_bind.mp h with ⟨_, w₁, hfail, hrest⟩ | ⟨e, rfl, hfail⟩
  swap
  · rcases runs_failIf.mp hfail with ⟨-, -, rfl⟩ | ⟨-, he, -⟩
    · exact ⟨.inl rfl, (by rintro ⟨⟩), fun _ => rfl⟩
    · cases he
  obtain rfl : w₁ = w := by
    rcases runs_failIf.mp hfail with ⟨-, he, -⟩ | ⟨-, -, hw⟩
    · cases he
    · exact hw
  cases hkey : config.keyEncryptionKey with
  | none =>
    simp only [hkey, pure_eq, runs_ret] at hrest
    rw [hrest.2]
    exact ⟨.inl rfl, by simp, fun _ => rfl⟩
  | some key =>
    simp only [hkey] at hrest
    rcases runs_bind.mp hrest with ⟨active, w₂, hread, hrest⟩ | ⟨e, rfl, hread⟩
    swap
    · have hs := runs_quiet (Command.all_db rfl) hread
      exact ⟨.inl (by rw [hs]), (by rintro ⟨⟩), fun _ => by rw [hs]⟩
    have hs₂ : w₂.store = w₁.store := runs_quiet (Command.all_db rfl) hread
    obtain ⟨hsome, hnone⟩ := atomic_activeSigningKey (Command.runs_db_ok hread)
    cases active with
    | some m =>
      simp only [Option.isSome_some, if_true, pure_eq, runs_ret] at hrest
      obtain ⟨k, hk, hsigns, -⟩ := hsome m rfl
      rw [KeysChanged, hrest.2, hs₂]
      exact ⟨.inl rfl, fun _ _ => ⟨k, hk, hsigns⟩, fun _ => rfl⟩
    | none =>
      simp only [Option.isSome_none, Bool.false_eq_true, if_false] at hrest
      rcases runs_bind.mp hrest with ⟨k, w₃, hkey, hup⟩ | ⟨e, rfl, hkey⟩
      · obtain ⟨hready, hnamed⟩ := runs_startupKey hstatic (runs_mapError_ok.mp hkey)
        have hs₃ : w₃.store = w₂.store := runs_quiet (all_startupKey ..) hkey
        rw [Command.runs_db_uuids hread] at hnamed
        rcases runs_upsertSigningKeyMaterial hready hup with ⟨rfl, ha⟩ | ⟨⟨e, rfl⟩, hs⟩
        · rw [hs₃, hs₂] at ha
          exact ⟨.inr ⟨k, hready, ⟨rfl, hnone rfl, hnamed⟩, ha⟩, fun _ _ =>
            ⟨k.row, ha.active, hready.signs⟩, (by rintro ⟨_, ⟨⟩⟩)⟩
        · have hs' : w'.store = w₁.store := by rw [hs, hs₃, hs₂]
          exact ⟨.inl (by rw [hs']), (by rintro ⟨⟩), fun _ => by rw [hs']⟩
      · have hs₃ : w'.store = w₂.store := runs_quiet (all_startupKey ..) hkey
        exact ⟨.inl (by rw [hs₃, hs₂]), (by rintro ⟨⟩), fun _ => by rw [hs₃, hs₂]⟩

theorem runs_rotateSigningKey {config : ApiConfig} {o : Except CommandError SigningKeyRotationReport}
    (h : (rotateSigningKey P config).Runs (Call.exec P) w o w') :
    KeysChanged w w' (fun k => config.keyEncryptionKey.isSome ∧
      ∃ u ∉ w.uuids, k.kid = generatedKeyId u) := by
  unfold rotateSigningKey at h
  cases hkey : config.keyEncryptionKey with
  | none =>
    simp only [hkey, throw_eq, runs_fail] at h
    exact .inl (by rw [h.2])
  | some key =>
    simp only [hkey] at h
    have hquiet : ((generateEncryptedSigningKey P key).mapError CommandError.oidc).All
        fun e => e.isQuiet = true := .mapError (all_generateEncryptedSigningKey ..)
    rcases runs_bind.mp h with ⟨k, w₁, hgen, hrest⟩ | ⟨e, rfl, hgen⟩
    swap
    · exact .inl (by rw [runs_quiet hquiet hgen])
    obtain ⟨hready, hnamed⟩ := runs_generateEncryptedSigningKey (runs_mapError_ok.mp hgen)
    have hs₁ := runs_quiet hquiet hgen
    rcases runs_bind.mp hrest with ⟨now, w₂, hnow, hrest⟩ | ⟨e, rfl, hnow⟩
    swap
    · exact .inl (by rw [runs_quiet (All.perform rfl) hnow, hs₁])
    have hs₂ : w₂.store = w.store := (runs_quiet (All.perform rfl) hnow).trans hs₁
    rcases runs_bind.mp hrest with ⟨_, w₃, hup, hrest⟩ | ⟨e, rfl, hup⟩
    · obtain ⟨-, rfl⟩ := runs_ret.mp hrest
      rcases runs_upsertSigningKeyMaterial hready hup with ⟨-, ha⟩ | ⟨⟨e, he⟩, -⟩
      · rw [hs₂] at ha
        exact .inr ⟨k, hready, ⟨rfl, hnamed⟩, ha⟩
      · cases he
    · rcases runs_upsertSigningKeyMaterial hready hup with ⟨he, -⟩ | ⟨-, hs⟩
      · cases he
      · exact .inl (by rw [hs, hs₂])

/-- A retirement that reaches the database marks the key's row. -/
theorem runs_retireSigningKey {kid : String} {o : Except CommandError Bool}
    (h : (retireSigningKey kid).Runs (Call.exec P) w o w') :
    ((∃ b, o = .ok b ∧ (b = true → ∃ k ∈ w.store.tables .signingKeys, k.kid = kid ∧
        k.retiredAt = none)) ∧
      ∃ instant, w'.store.tables .signingKeys =
        (w.store.tables .signingKeys).map (SigningKeyRow.retire kid instant)) ∨
      ((∃ e, o = .error e) ∧ w'.store = w.store) := by
  rcases runs_bind.mp h with ⟨now, w₁, hnow, hrest⟩ | ⟨e, rfl, hnow⟩
  · have hs₁ := runs_quiet (All.perform rfl) hnow
    rcases Command.runs_db hrest with ⟨e, rfl, hs⟩ | ⟨r, hx, rfl⟩
    · exact .inr ⟨⟨e, rfl⟩, hs.trans hs₁⟩
    · rcases atomic_retireSigningKey hx with ⟨⟨b, rfl, hb⟩, hrows⟩ | ⟨⟨e, rfl⟩, hs⟩
      · rw [hs₁] at hb hrows
        exact .inl ⟨⟨b, rfl, hb⟩, now, hrows⟩
      · exact .inr ⟨⟨_, rfl⟩, hs.trans hs₁⟩
  · exact .inr ⟨⟨e, rfl⟩, runs_quiet (All.perform rfl) hnow⟩

end commands

/-- What holds of an installation in every safe run. -/
structure Deployment.KeyInv (d : Deployment) : Prop where
  jwk_kid : ∀ k ∈ d.signingKeys, k.publicJwk.text? "kid" = some k.kid
  static_kid : ∀ m ∈ d.config.signing, m.publicJwk.text? "kid" = some m.keyId
  retired_rows : ∀ k ∈ d.signingKeys, k.kid ∈ d.retired → k.retiredAt ≠ none
  fallback : d.config.Fallback d.signingKeys d.retired

section invariant

variable {P} {d d' : Deployment}

theorem ApiConfig.fallback_of_signs {config : ApiConfig} {rows : List SigningKeyRow}
    {retired : List String} (hkey : config.keyEncryptionKey.isSome)
    (hsigns : ∃ k ∈ rows, k.signs = true) : config.Fallback rows retired := by
  rintro m - (hnone | hnone)
  · simp [hnone] at hkey
  · obtain ⟨k, hk, hk'⟩ := hsigns
    simp [hnone k hk] at hk'

/-- A new active key keeps the rows as the invariant has them. -/
theorem Deployment.KeyInv.rows_of_changed (hinv : d.KeyInv) {Named : SigningKeyMaterial → Prop}
    {w : World} (hnamed : ∀ k, Named k → k.kid ∉ d.retired) (h : KeysChanged d.world w Named) :
    (∀ k ∈ w.store.tables .signingKeys, k.publicJwk.text? "kid" = some k.kid) ∧
      ∀ k ∈ w.store.tables .signingKeys, k.kid ∈ d.retired → k.retiredAt ≠ none := by
  rcases h with h | ⟨key, hready, hname, ha⟩
  · rw [h]
    exact ⟨hinv.jwk_kid, hinv.retired_rows⟩
  · constructor
    · intro k hk
      rcases ha.others k hk with rfl | ⟨k₀, hk₀, -, rfl⟩
      · exact hready.jwk_kid
      · exact hinv.jwk_kid k₀ hk₀
    · intro k hk hret
      rcases ha.others k hk with rfl | ⟨k₀, hk₀, -, rfl⟩
      · exact absurd hret (hnamed key hname)
      · exact hinv.retired_rows k₀ hk₀ hret

theorem Deployment.KeyInv.start (hinv : d.KeyInv) {config : ApiConfig} {cs : List Choice}
    (hsafe : d.Safe (.start config))
    (h : d.step P cs (.start config) = some d') : d'.KeyInv := by
  obtain ⟨⟨o, w⟩, hplay, rfl⟩ := Option.map_eq_some_iff.mp h
  obtain ⟨hfree, hsafe⟩ := hsafe
  have hruns := runs_ensureStartupSigningKey (fun m hm => (hsafe m hm).1) ⟨cs, hplay⟩
  obtain ⟨hchanged, hsigns, hfailed⟩ := hruns
  obtain ⟨hjwk, hret⟩ := hinv.rows_of_changed (fun k hk => by
    obtain ⟨hkey, hnone, ⟨m, hm, hkid⟩ | ⟨u, hu, hkid⟩⟩ := hk
    · have := (hsafe m hm).2
      rw [if_pos hkey] at this
      rw [hkid]
      exact this hnone
    · rw [hkid]
      exact hfree u hu) hchanged
  -- without a key-encryption key nothing was written
  have hsame : config.keyEncryptionKey.isSome = false →
      w.store.tables .signingKeys = d.signingKeys := by
    intro hnone
    rcases hchanged with hs | ⟨k, -, ⟨hkey, -⟩, -⟩
    · exact hs
    · simp [hnone] at hkey
  cases o with
  | error e =>
    refine ⟨hjwk, hinv.static_kid, hret, ?_⟩
    have := hinv.fallback
    rwa [Deployment.signingKeys, ← hfailed ⟨e, rfl⟩] at this
  | ok _ =>
    refine ⟨hjwk, fun m hm => (hsafe m hm).1, hret, ?_⟩
    cases hkey : config.keyEncryptionKey with
    | some key =>
      have hsome : config.keyEncryptionKey.isSome := by simp [hkey]
      exact ApiConfig.fallback_of_signs hsome (hsigns rfl hsome)
    | none =>
      intro m hm _
      have := (hsafe m hm).2
      simp only [hkey, Option.isSome_none, Bool.false_eq_true, if_false] at this
      simpa [Deployment.signingKeys, hsame (by simp [hkey])] using this

theorem Deployment.KeyInv.rotate (hinv : d.KeyInv) {cs : List Choice}
    (hsafe : d.Safe .rotate) (h : d.step P cs .rotate = some d') : d'.KeyInv := by
  obtain ⟨⟨o, w⟩, hplay, rfl⟩ := Option.map_eq_some_iff.mp h
  have hchanged := runs_rotateSigningKey ⟨cs, hplay⟩
  obtain ⟨hjwk, hret⟩ := hinv.rows_of_changed (fun k hk => by
    obtain ⟨-, u, hu, hkid⟩ := hk
    rw [hkid]
    exact hsafe u hu) hchanged
  refine ⟨hjwk, hinv.static_kid, hret, ?_⟩
  rcases hchanged with hs | ⟨k, hready, ⟨hkey, -⟩, ha⟩
  · have := hinv.fallback
    rwa [Deployment.signingKeys, ← hs] at this
  · exact ApiConfig.fallback_of_signs hkey ⟨k.row, ha.active, hready.signs⟩

/-- The static key stands in for the rows left after a retirement when it does
    for those of the other keys. -/
theorem ApiConfig.Fallback.retire {config : ApiConfig} {rows : List SigningKeyRow}
    {retired retired' : List String} {kid : String} (instant : OffsetDateTime)
    (hsub : retired' ⊆ retired)
    (h : config.Fallback (rows.filter fun k => k.kid ≠ kid) retired) :
    config.Fallback (rows.map (SigningKeyRow.retire kid instant)) retired' := by
  have hkeep : ∀ k ∈ rows, k.kid ≠ kid → k ∈ rows.map (SigningKeyRow.retire kid instant) := by
    intro k hk hne
    exact List.mem_map.mpr ⟨k, hk, retire_of_ne hne⟩
  intro m hm hnone
  obtain ⟨hfresh, hlisted⟩ := h m hm (hnone.imp_right fun hnone k hk => by
    have hk := List.mem_filter.mp hk
    exact hnone k (hkeep k hk.1 (by simpa using hk.2)))
  refine ⟨fun hmem => hfresh (hsub hmem), hlisted.imp (fun hall k hk hret => ?_) ?_⟩
  · obtain ⟨k₀, hk₀, rfl⟩ := List.mem_map.mp hk
    obtain ⟨hne, heq⟩ := retire_unretired hret
    rw [heq] at hret
    exact hall k₀ (List.mem_filter.mpr ⟨hk₀, by simpa using hne⟩) hret
  · rintro ⟨k, hk, hret, hjwk⟩
    have hk := List.mem_filter.mp hk
    exact ⟨k, hkeep k hk.1 (by simpa using hk.2), hret, hjwk⟩

theorem Deployment.KeyInv.retire (hinv : d.KeyInv) {kid : String} {cs : List Choice}
    (hsafe : d.Safe (.retire kid)) (h : d.step P cs (.retire kid) = some d') :
    d'.KeyInv := by
  obtain ⟨⟨o, w⟩, hplay, rfl⟩ := Option.map_eq_some_iff.mp h
  rcases runs_retireSigningKey ⟨cs, hplay⟩ with ⟨⟨b, rfl, hb⟩, instant, hrows⟩ | ⟨⟨e, rfl⟩, hs⟩
  · have hretired : ∀ k ∈ w.store.tables .signingKeys, k.kid = kid ∨ k.kid ∈ d.retired →
        k.retiredAt ≠ none := by
      rw [hrows]
      rintro _ hk hkid hret
      obtain ⟨k₀, hk₀, rfl⟩ := List.mem_map.mp hk
      obtain ⟨hne, heq⟩ := retire_unretired hret
      rw [heq] at hkid hret
      exact hinv.retired_rows k₀ hk₀ (hkid.resolve_left hne) hret
    constructor
    case jwk_kid =>
      simp only [Deployment.signingKeys, hrows]
      intro k hk
      obtain ⟨k₀, hk₀, rfl⟩ := List.mem_map.mp hk
      obtain ⟨hkid, hjwk⟩ := retire_kid kid instant k₀
      rw [hkid, hjwk]
      exact hinv.jwk_kid k₀ hk₀
    case static_kid => exact hinv.static_kid
    case retired_rows =>
      intro k hk hmem
      refine hretired k hk ?_
      cases b with
      | true => simpa using hmem
      | false => exact .inr hmem
    case fallback =>
      simp only [Deployment.signingKeys, hrows]
      refine ApiConfig.Fallback.retire instant ?_ hsafe
      cases b with
      | true =>
        obtain ⟨k, hk, hk'⟩ := hb rfl
        have hany : (d.signingKeys.any fun k => k.kid = kid ∧ k.retiredAt = none) = true :=
          List.any_eq_true.mpr ⟨k, hk, by simpa using hk'⟩
        rw [if_pos hany]
        exact List.Subset.refl _
      | false =>
        show d.retired ⊆ _
        split
        · exact List.subset_cons_self ..
        · exact List.Subset.refl _
  · have hs' : (w.store.tables .signingKeys) = d.signingKeys := by rw [hs]; rfl
    constructor
    case jwk_kid => simpa only [Deployment.signingKeys, hs'] using hinv.jwk_kid
    case static_kid => exact hinv.static_kid
    case retired_rows => simpa only [Deployment.signingKeys, hs'] using hinv.retired_rows
    case fallback => simpa only [Deployment.signingKeys, hs'] using hinv.fallback

theorem Deployment.Reachable.keyInv (h : d.Reachable P Deployment.Safe) : d.KeyInv := by
  induction h with
  | fresh hd =>
    refine ⟨by simp [hd.rows], by simp [hd.config], by simp [hd.rows], fun m hm => ?_⟩
    simp [hd.config] at hm
  | @step d d' op cs _ hsafe hstep ih =>
    cases op with
    | start config => exact ih.start hsafe hstep
    | rotate => exact ih.rotate hsafe hstep
    | retire kid => exact ih.retire hsafe hstep

/-- The partial unique index leaves room for one active key. -/
theorem Deployment.one_active (d : Deployment) :
    (d.signingKeys.filter (·.signingActive)).length ≤ 1 := by
  have hunique : d.signingKeys.Pairwise (schema.Compatible .signingKeys) :=
    d.world.store.unique .signingKeys
  have hpair := hunique.filter (·.signingActive)
  have hactive : ∀ k ∈ d.signingKeys.filter (·.signingActive),
      Key.signingActive ∈ schema.entries .signingKeys k := by
    intro k hk
    have hk : k.signingActive = true := (List.mem_filter.mp hk).2
    simp [Schema.entries, schema, hk]
  generalize d.signingKeys.filter (·.signingActive) = active at hpair hactive
  rcases active with _ | ⟨a, _ | ⟨b, rest⟩⟩
  · simp
  · simp
  · have hne := (List.pairwise_cons.mp hpair).1 b (by simp) .signingActive (hactive a (by simp))
    exact absurd (hactive b (by simp)) hne

end invariant

namespace Sample

/-- A cipher whose ciphertexts are the key, for one private key. -/
def keyPrimitives : Primitives :=
  { Primitives.inert with
    encrypt := fun key _ _ _ => some key
    decrypt := fun key _ _ ciphertext => if ciphertext = key then some "pem" else none
    rsaComponents := fun _ => some ("n", "e") }

def staticKey : SigningMaterial := ⟨"static", "pem", .object [("kid", .string "static")]⟩

def keyConfig (keyEncryptionKey : Option KeyEncryptionKey) (signing : Option SigningMaterial) :
    ApiConfig where
  environment := .development
  issuer := "https://id"
  publicWebOrigin := "https://id"
  bootstrapSetupSecretHash := none
  signing := signing
  keyEncryptionKey := keyEncryptionKey

def fresh : Deployment := ⟨1, keyConfig none none, World.initial 0, []⟩

theorem fresh_fresh : fresh.Fresh := ⟨rfl, rfl, rfl⟩

def kek : KeyEncryptionKey := List.replicate 32 7

def nonce : Bytes := List.replicate 12 0

/-- A start that imports the static key or, without one, generates a key. -/
def importing : List Choice := [{}, { bytes := nonce }, {}, {}]

def generating (id : Uuid) : List Choice := [{}, {}, { uuid := id }, { bytes := nonce }, {}, {}]

/-- A rotation to the key with the given identifier. -/
def rotating (id : Uuid) : List Choice := [{}, { uuid := id }, { bytes := nonce }, {}, {}, {}]

/-- The key ids that `resolveSigningMaterial` and `jwks` answer with. -/
def resolvedKid (d : Deployment) : Option String :=
  (play (Call.exec keyPrimitives) [{}] (resolveSigningMaterial keyPrimitives d.state) d.world).bind
    fun x => x.1.toOption.map (·.publicJwk.text? "kid") |>.join

def listedKids (d : Deployment) : Option (List (Option String)) :=
  (play (Call.exec keyPrimitives) [{}] (jwks d.state) d.world).bind
    fun x => x.1.toOption.map (·.map (·.text? "kid"))

theorem resolves_of_resolvedKid {d : Deployment} {kid : String} (h : resolvedKid d = some kid) :
    ∃ m, d.Resolves keyPrimitives m ∧ m.publicJwk.text? "kid" = some kid := by
  obtain ⟨⟨o, w⟩, hplay, ho⟩ := Option.bind_eq_some_iff.mp h
  cases o with
  | error e => cases ho
  | ok m => exact ⟨m, ⟨w, [{}], hplay⟩, ho⟩

theorem publishes_of_listedKids {d : Deployment} {kids : List (Option String)}
    (h : listedKids d = some kids) :
    ∃ set, d.Publishes keyPrimitives set ∧ set.map (·.text? "kid") = kids := by
  obtain ⟨⟨o, w⟩, hplay, ho⟩ := Option.bind_eq_some_iff.mp h
  cases o with
  | error e => cases ho
  | ok set => exact ⟨set, ⟨w, [{}], hplay⟩, Option.some.inj ho⟩

/-- The imported static key is retired. -/
def staticRetired : Option Deployment := do
  let d ← fresh.step keyPrimitives importing (.start (keyConfig (some kek) (some staticKey)))
  d.step keyPrimitives [{}, {}] (.retire "static")

/-- The key-encryption key is taken away from an installation with a generated key. -/
def keyless : Option Deployment := do
  let d ← fresh.step keyPrimitives (generating 5) (.start (keyConfig (some kek) none))
  d.step keyPrimitives [] (.start (keyConfig none (some staticKey)))

def rotatedAndRetired : Option Deployment := do
  let d ← fresh.step keyPrimitives (generating 5) (.start (keyConfig (some kek) none))
  let d ← d.step keyPrimitives (rotating 6) .rotate
  d.step keyPrimitives [{}, {}] (.retire (generatedKeyId 5))

end Sample

end CairnId
