import CairnId.Http.Mfa
import CairnId.Operations.Email

/-!
# Rotation of the key-encryption key

`cairn-api key-encryption rotate` reads the encrypted secrets of two tables,
re-encrypts them one by one and writes them back in one transaction. A run that
succeeds leaves each of them readable under the new key, by the code that reads
it, as the text it was before; a run that fails leaves the store as it was.
-/

namespace CairnId

open Concurrency Prog Database

variable (P : Primitives) (old new : KeyEncryptionKey)

/-- Every secret that the rotation re-encrypts is readable under the key. -/
structure Readable (key : KeyEncryptionKey) (s : Store) : Prop where
  keys : ∀ k ∈ s.tables .signingKeys, ∀ m, k.material? = some m →
    ∃ pem, decryptSigningPrivateKeyPem P m key = .ok pem
  tokens : ∀ m ∈ s.tables .emailOutbox, m.deliveryToken?.isSome →
    ∃ token, m.deliveryToken P key = .ok token

/-- The same key, with its private part under the new key. -/
structure ReencryptedKey (k k' : SigningKeyRow) : Prop where
  same : k' = { k with
    privateKeyCiphertext := k'.privateKeyCiphertext, privateKeyNonce := k'.privateKeyNonce }
  bare : k.material? = none → k' = k
  secret : ∀ m, k.material? = some m → ∃ m' pem, k'.material? = some m' ∧
    decryptSigningPrivateKeyPem P m old = .ok pem ∧ decryptSigningPrivateKeyPem P m' new = .ok pem

/-- The same message, with its delivery token under the new key since `now`. -/
structure ReencryptedMessage (now : OffsetDateTime) (m m' : EmailOutboxMessage) : Prop where
  same : m' = { m with
    deliveryTokenCiphertext := m'.deliveryTokenCiphertext
    deliveryTokenNonce := m'.deliveryTokenNonce
    updatedAt := m'.updatedAt }
  bare : m.deliveryToken? = none → m' = m
  secret : m.deliveryToken?.isSome → m'.updatedAt = now ∧
    ∃ token, m.deliveryToken P old = .ok token ∧ m'.deliveryToken P new = .ok token

/-- What a rotation makes of the store; nothing is said of the metadata of MFA
    credentials. -/
structure Reencrypted (now : OffsetDateTime) (s s' : Store) : Prop where
  signingKeys : List.Forall₂ (ReencryptedKey P old new) (s.tables .signingKeys)
    (s'.tables .signingKeys)
  emailOutbox : List.Forall₂ (ReencryptedMessage P old new now) (s.tables .emailOutbox)
    (s'.tables .emailOutbox)
  mfaCredentials : List.Forall₂ (fun c c' => c' = { c with secretMetadata := c'.secretMetadata })
    (s.tables .mfaCredentials) (s'.tables .mfaCredentials)
  others : ∀ t, t ≠ .signingKeys → t ≠ .emailOutbox → t ≠ .mfaCredentials →
    s'.tables t = s.tables t

/-- One key before and after its re-encryption. -/
structure KeyStep (m m' : SigningKeyMaterial) : Prop where
  kid : m'.kid = m.kid
  nonce : m'.privateKeyNonce.length = 12
  secret : ∃ pem, decryptSigningPrivateKeyPem P m old = .ok pem ∧
    P.encrypt new m'.privateKeyNonce (signingKeyAad m.kid) pem = some m'.privateKeyCiphertext

/-- One delivery token before and after its re-encryption. -/
structure TokenStep (t : EmailOutboxDeliveryToken) (t' : ReencryptedEmailOutboxDeliveryToken) :
    Prop where
  id : t'.id = t.id
  nonce : t'.deliveryTokenNonce.length = 12
  secret : ∃ kind accountTokenId value, metadataStr t.metadata "kind" = some kind ∧
    metadataStr t.metadata "account_token_id" = some accountTokenId ∧
    decryptSecret P ⟨t.deliveryTokenCiphertext, t.deliveryTokenNonce⟩ old
      (accountTokenDeliveryAad kind accountTokenId) = .ok value ∧
    P.encrypt new t'.deliveryTokenNonce (accountTokenDeliveryAad kind accountTokenId) value =
      some t'.deliveryTokenCiphertext

section parts

variable {P old new} {w w' : World}

theorem runs_encryptSecret {secret aad : String} {key : KeyEncryptionKey} {e : EncryptedSecret}
    (h : (encryptSecret P secret key aad).Runs (Call.exec P) w (.ok e) w') :
    e.nonce.length = 12 ∧ P.encrypt key e.nonce aad secret = some e.ciphertext := by
  obtain ⟨nonce, w₁, hnonce, hrest⟩ := runs_bind_ok.mp h
  have hlen := runs_generateNonce hnonce
  split at hrest
  · rename_i ciphertext henc
    simp only [pure_eq, runs_ret, Except.ok.injEq] at hrest
    obtain ⟨rfl, -⟩ := hrest
    exact ⟨hlen, henc⟩
  · simp at hrest

theorem runs_reencryptSigningKeyMaterial {m m' : SigningKeyMaterial}
    (h : (reencryptSigningKeyMaterial P old new m).Runs (Call.exec P) w (.ok m') w') :
    KeyStep P old new m m' := by
  obtain ⟨_, w₁, -, hrest⟩ := runs_bind_ok.mp h
  obtain ⟨pem, w₂, hdec, hrest⟩ := runs_bind_ok.mp hrest
  obtain ⟨nonce, w₃, hnonce, hrest⟩ := runs_bind_ok.mp hrest
  have hlen := runs_generateNonce hnonce
  split at hrest
  · rename_i ciphertext henc
    simp only [pure_eq, runs_ret, Except.ok.injEq] at hrest
    obtain ⟨rfl, -⟩ := hrest
    exact ⟨rfl, hlen, pem, (runs_ofExcept.mp hdec).1.symm, henc⟩
  · simp at hrest

theorem runs_requiredMetadataStr {metadata : Json} {field value : String} {id : Uuid}
    (h : (requiredMetadataStr metadata field id).Runs (Call.exec P) w (.ok value) w') :
    metadataStr metadata field = some value := by
  unfold requiredMetadataStr at h
  split at h
  · rename_i found hfound
    simp only [pure_eq, runs_ret, Except.ok.injEq] at h
    rw [hfound, h.1]
  · simp at h

theorem runs_reencryptEmailOutboxDeliveryToken {t : EmailOutboxDeliveryToken}
    {t' : ReencryptedEmailOutboxDeliveryToken}
    (h : (reencryptEmailOutboxDeliveryToken P old new t).Runs (Call.exec P) w (.ok t') w') :
    TokenStep P old new t t' := by
  obtain ⟨kind, w₁, hkind, hrest⟩ := runs_bind_ok.mp h
  obtain ⟨accountTokenId, w₂, hid, hrest⟩ := runs_bind_ok.mp hrest
  obtain ⟨value, w₃, hdec, hrest⟩ := runs_bind_ok.mp hrest
  obtain ⟨e, w₄, henc, hrest⟩ := runs_bind_ok.mp hrest
  obtain ⟨hlen, henc⟩ := runs_encryptSecret (runs_mapError_ok.mp henc)
  have hdec := (runs_ofExcept.mp (runs_mapError_ok.mp hdec)).1
  simp only [pure_eq, runs_ret, Except.ok.injEq] at hrest
  obtain ⟨rfl, -⟩ := hrest
  exact ⟨rfl, hlen, kind, accountTokenId, value, runs_requiredMetadataStr hkind,
    runs_requiredMetadataStr hid, hdec.symm, henc⟩

theorem all_requiredMetadataStr (metadata : Json) (field : String) (id : Uuid) :
    (requiredMetadataStr metadata field id).All fun e => e.isQuiet = true := by
  unfold requiredMetadataStr
  split <;> trivial

theorem all_encryptSecret (secret aad : String) (key : KeyEncryptionKey) :
    (encryptSecret P secret key aad).All fun e => e.isQuiet = true := by
  refine .bind (.perform rfl) fun nonce => ?_
  split <;> trivial

theorem all_reencryptSigningKeyMaterial (m : SigningKeyMaterial) :
    (reencryptSigningKeyMaterial P old new m).All fun e => e.isQuiet = true := by
  refine .bind (.when (.fail _)) fun _ => .bind (.ofExcept _) fun _ =>
    .bind (.perform rfl) fun _ => ?_
  split <;> trivial

theorem all_reencryptEmailOutboxDeliveryToken (t : EmailOutboxDeliveryToken) :
    (reencryptEmailOutboxDeliveryToken P old new t).All fun e => e.isQuiet = true :=
  .bind (all_requiredMetadataStr ..) fun _ => .bind (all_requiredMetadataStr ..) fun _ =>
    .bind (.mapError (.ofExcept _)) fun _ => .bind (.mapError (all_encryptSecret ..)) fun _ => .ret _

end parts

section rows

variable {P old new} (hP : P.Aead)

include hP

theorem decryptSecret_of_encrypt {nonce c : Bytes} {key : KeyEncryptionKey} {aad m : String}
    (hnonce : nonce.length = 12) (h : P.encrypt key nonce aad m = some c) :
    decryptSecret P ⟨c, nonce⟩ key aad = .ok m := by
  simp [decryptSecret, hnonce, hP.decrypt_encrypt _ _ _ _ _ hnonce h]

theorem KeyStep.reencrypted {m m' : SigningKeyMaterial} (h : KeyStep P old new m m')
    {k : SigningKeyRow} (hk : k.material? = some m) :
    ReencryptedKey P old new k (storeMaterial m' k) := by
  have hrow := material?_eq_some hk
  subst hrow
  obtain ⟨pem, hold, henc⟩ := h.secret
  refine ⟨rfl, fun hnone => (by rw [hk] at hnone; cases hnone), fun m₀ hm₀ => ?_⟩
  cases hk.symm.trans hm₀
  refine ⟨{ m with
    privateKeyCiphertext := m'.privateKeyCiphertext, privateKeyNonce := m'.privateKeyNonce },
    pem, rfl, hold, ?_⟩
  simp [decryptSigningPrivateKeyPem, h.nonce, hP.decrypt_encrypt _ _ _ _ _ h.nonce henc]

theorem TokenStep.reencrypted {t : EmailOutboxDeliveryToken}
    {t' : ReencryptedEmailOutboxDeliveryToken} (h : TokenStep P old new t t')
    {m : EmailOutboxMessage} (hm : m.deliveryToken? = some t) (now : OffsetDateTime) :
    ReencryptedMessage P old new now m (storeDeliveryToken now t' m) := by
  obtain ⟨kind, accountTokenId, value, hkind, hid, hold, henc⟩ := h.secret
  have hmeta : t.metadata = m.metadata := by
    unfold EmailOutboxMessage.deliveryToken? at hm
    split at hm <;> cases hm
    rfl
  have hnew : (storeDeliveryToken now t' m).deliveryToken? =
      some ⟨m.id, t'.deliveryTokenCiphertext, t'.deliveryTokenNonce, m.metadata⟩ := rfl
  refine ⟨rfl, fun hnone => (by rw [hm] at hnone; cases hnone), fun _ => ⟨rfl, value, ?_, ?_⟩⟩
  · rw [EmailOutboxMessage.deliveryToken_eq hm hkind hid, hold]
    rfl
  · rw [EmailOutboxMessage.deliveryToken_eq hnew (hmeta ▸ hkind) (hmeta ▸ hid),
      decryptSecret_of_encrypt hP h.nonce henc]
    rfl

/-- The table of signing keys after every key was re-encrypted and stored. -/
theorem reencrypted_signingKeys {s : Store} {ms ms' : List SigningKeyMaterial}
    (hlisted : ∀ m, m ∈ ms ↔ ∃ k ∈ s.tables .signingKeys, k.material? = some m)
    (hsteps : List.Forall₂ (KeyStep P old new) ms ms') :
    List.Forall₂ (ReencryptedKey P old new) (s.tables .signingKeys)
      ((s.tables .signingKeys).map
        (changeEach (fun key k => decide (k.kid = key.kid)) storeMaterial ms')) := by
  rw [List.forall₂_map_right_iff, List.forall₂_same]
  intro k hk
  rcases changeEach_of_forall₂ SigningKeyRow.material? (fun key k => decide (k.kid = key.kid))
      storeMaterial SigningKeyRow.kid SigningKeyMaterial.kid SigningKeyMaterial.kid
      (fun _ _ => decide_eq_true_iff) (fun _ _ => rfl) (fun _ _ _ => rfl)
      (fun a _ m hm => congrArg SigningKeyRow.kid (material?_eq_some hm))
      (fun a ha b hb hab => (s.unique .signingKeys).eq_of_key ha hb (congrArg Key.text hab))
      hlisted hsteps (fun _ _ h => h.kid) hk with ⟨hnone, hsame⟩ | ⟨m, m', hm, hstep, hchanged⟩
  · rw [hsame]
    exact ⟨rfl, fun _ => rfl, fun m hm => by rw [hnone] at hm; cases hm⟩
  · rw [hchanged]
    exact hstep.reencrypted hP hm

theorem reencrypted_emailOutbox {s : Store} {ts : List EmailOutboxDeliveryToken}
    {ts' : List ReencryptedEmailOutboxDeliveryToken} (now : OffsetDateTime)
    (hlisted : ∀ t, t ∈ ts ↔ ∃ m ∈ s.tables .emailOutbox, m.deliveryToken? = some t)
    (hsteps : List.Forall₂ (TokenStep P old new) ts ts') :
    List.Forall₂ (ReencryptedMessage P old new now) (s.tables .emailOutbox)
      ((s.tables .emailOutbox).map
        (changeEach (fun token m => decide (m.id = token.id)) (storeDeliveryToken now) ts')) := by
  rw [List.forall₂_map_right_iff, List.forall₂_same]
  intro m hm
  have hid : ∀ a : EmailOutboxMessage, ∀ t, a.deliveryToken? = some t → t.id = a.id := by
    intro a t ha
    unfold EmailOutboxMessage.deliveryToken? at ha
    split at ha <;> cases ha
    rfl
  rcases changeEach_of_forall₂ EmailOutboxMessage.deliveryToken?
      (fun token m => decide (m.id = token.id)) (storeDeliveryToken now) EmailOutboxMessage.id
      EmailOutboxDeliveryToken.id ReencryptedEmailOutboxDeliveryToken.id
      (fun _ _ => decide_eq_true_iff) (fun _ _ => rfl) (fun _ _ _ => rfl)
      (fun a _ t ha => hid a t ha)
      (fun a ha b hb hab => (s.unique .emailOutbox).eq_of_key ha hb (congrArg Key.id hab))
      hlisted hsteps (fun _ _ h => h.id) hm with ⟨hnone, hsame⟩ | ⟨t, t', ht, hstep, hchanged⟩
  · rw [hsame]
    exact ⟨rfl, fun _ => rfl, fun h => by rw [hnone] at h; cases h⟩
  · rw [hchanged]
    exact hstep.reencrypted hP ht now

end rows

section rotation

variable {P old new} {w w' : World} {o : Except CommandError KeyEncryptionRotationReport}

theorem all_reencryptedKeys (ms : List SigningKeyMaterial) :
    (Prog.traverse (fun key => (reencryptSigningKeyMaterial P old new key).mapError
      CommandError.oidc) ms).All fun e => e.isQuiet = true :=
  .traverse (fun m => .mapError (all_reencryptSigningKeyMaterial m)) ms

theorem all_reencryptedTokens (ts : List EmailOutboxDeliveryToken) :
    (Prog.traverse (reencryptEmailOutboxDeliveryToken P old new) ts).All
      fun e => e.isQuiet = true :=
  .traverse (fun t => all_reencryptEmailOutboxDeliveryToken t) ts

/-- A rotation ends with everything re-encrypted in one step, or fails with no
    effect. -/
theorem runs_rotateKeyEncryption (hP : P.Aead)
    (h : (rotateKeyEncryption P old new).Runs (Call.exec P) w o w') :
    (∃ e, o = .error e ∧ w'.store = w.store) ∨
      ((∃ report, o = .ok report) ∧ ∃ now, w.clock ≤ now ∧ now ≤ w'.clock ∧
        Reencrypted P old new now w.store w'.store) := by
  -- the reads and the re-encryption, with the store as it is at the start
  rcases runs_bind.mp h with ⟨ms, w₁, hms, hrest⟩ | ⟨e, rfl, hms⟩
  rotate_left
  · exact .inl ⟨e, rfl, runs_quiet (Command.all_db rfl) hms⟩
  have hs₁ : w₁.store = w.store := runs_quiet (Command.all_db rfl) hms
  rcases runs_bind.mp hrest with ⟨ms', w₂, hms', hrest⟩ | ⟨e, rfl, hms'⟩
  rotate_left
  · exact .inl ⟨e, rfl, (runs_quiet (all_reencryptedKeys ms) hms').trans hs₁⟩
  have hs₂ : w₂.store = w.store := (runs_quiet (all_reencryptedKeys ms) hms').trans hs₁
  rcases runs_bind.mp hrest with ⟨ts, w₃, hts, hrest⟩ | ⟨e, rfl, hts⟩
  rotate_left
  · exact .inl ⟨e, rfl, (runs_quiet (Command.all_db rfl) hts).trans hs₂⟩
  have hs₃ : w₃.store = w.store := (runs_quiet (Command.all_db rfl) hts).trans hs₂
  rcases runs_bind.mp hrest with ⟨ts', w₄, hts', hrest⟩ | ⟨e, rfl, hts'⟩
  rotate_left
  · exact .inl ⟨e, rfl, (runs_quiet (all_reencryptedTokens ts) hts').trans hs₃⟩
  have hs₄ : w₄.store = w.store := (runs_quiet (all_reencryptedTokens ts) hts').trans hs₃
  rcases runs_bind.mp hrest with ⟨now, w₅, hnow, hrest⟩ | ⟨e, rfl, hnow⟩
  rotate_left
  · exact .inl ⟨e, rfl, (runs_quiet (.perform rfl) hnow).trans hs₄⟩
  have hs₅ : w₅.store = w.store := (runs_quiet (.perform rfl) hnow).trans hs₄
  -- the transaction, after which nothing can fail
  rcases runs_bind.mp hrest with ⟨_, w₆, hdb, hrest⟩ | ⟨e, rfl, hdb⟩
  rotate_left
  · rcases Command.runs_db hdb with ⟨e', -, hs₆⟩ | ⟨r, hx, hr⟩
    · exact .inl ⟨e, rfl, hs₆.trans hs₅⟩
    · cases r with
      | error e' => exact .inl ⟨e, rfl, (Sql.Tx.atomic_error hx).trans hs₅⟩
      | ok _ => cases hr
  obtain ⟨completedAt, w₇, hcompleted, hret⟩ | ⟨e, rfl, hcompleted⟩ := runs_bind.mp hrest
  rotate_left
  · obtain ⟨_, _, -, he⟩ := runs_perform.mp hcompleted
    cases he
  obtain ⟨rfl, rfl⟩ := runs_ret.mp hret
  have hs₇ : w'.store = w₆.store := runs_quiet (.perform rfl) hcompleted
  have hx := Command.runs_db_ok hdb
  rw [hs₅] at hx
  obtain ⟨hkeys, htokens, hothers⟩ := atomic_applyKeyEncryptionRotation hx
  have hlistedKeys := atomic_listEncryptedSigningKeyMaterials (Command.runs_db_ok hms)
  have hlistedTokens := atomic_listEmailOutboxDeliveryTokens (Command.runs_db_ok hts)
  rw [hs₂] at hlistedTokens
  have hkeySteps : List.Forall₂ (KeyStep P old new) ms ms' := runs_traverse_ok
    (fun m m' _ _ hm => runs_reencryptSigningKeyMaterial (runs_mapError_ok.mp hm)) hms'
  have htokenSteps : List.Forall₂ (TokenStep P old new) ts ts' := runs_traverse_ok
    (fun t t' _ _ ht => runs_reencryptEmailOutboxDeliveryToken ht) hts'
  have hnow' : w₄.clock ≤ now ∧ now = w₅.clock := runs_nowUtc hnow
  refine .inr ⟨⟨_, rfl⟩, now, ?_, ?_, ?_⟩
  · calc w.clock ≤ w₁.clock := runs_clock hms
      _ ≤ w₂.clock := runs_clock hms'
      _ ≤ w₃.clock := runs_clock hts
      _ ≤ w₄.clock := runs_clock hts'
      _ ≤ now := hnow'.1
  · rw [hnow'.2]
    exact le_trans (runs_clock hdb) (runs_clock hcompleted)
  · rw [hs₇]
    exact {
      signingKeys := hkeys ▸ reencrypted_signingKeys hP hlistedKeys hkeySteps
      emailOutbox := htokens ▸ reencrypted_emailOutbox hP now hlistedTokens htokenSteps
      mfaCredentials := by
        rw [hothers .mfaCredentials nofun nofun, List.forall₂_same]
        exact fun _ _ => rfl
      others := fun t hk ho _ => hothers t hk ho }

theorem Reencrypted.readable {now : OffsetDateTime} {s s' : Store}
    (h : Reencrypted P old new now s s') : Readable P old s where
  keys k hk m hm := by
    obtain ⟨k', -, hkk'⟩ := forall₂_exists_right h.signingKeys.flip hk
    obtain ⟨-, pem, -, hold, -⟩ := hkk'.secret m hm
    exact ⟨pem, hold⟩
  tokens m hm hsome := by
    obtain ⟨m', -, hmm'⟩ := forall₂_exists_right h.emailOutbox.flip hm
    obtain ⟨-, token, hold, -⟩ := hmm'.secret hsome
    exact ⟨token, hold⟩

end rotation

namespace Sample

/-- One encryption that a cipher was asked for. -/
structure Sealing where
  key : KeyEncryptionKey
  aad : String
  plaintext : String
  ciphertext : Bytes
  deriving DecidableEq

/-- A cipher for the encryptions of a list. -/
def sealingPrimitives (sealings : List Sealing) : Primitives :=
  { Primitives.inert with
    encrypt := fun key _ aad m =>
      (sealings.find? fun e => e.key = key ∧ e.aad = aad ∧ e.plaintext = m).map (·.ciphertext)
    decrypt := fun key _ aad c =>
      (sealings.find? fun e => e.key = key ∧ e.aad = aad ∧ e.ciphertext = c).map (·.plaintext)
    base64Decode := fun text =>
      if text = "AAAAAAAAAAAAAAAA" then some (List.replicate 12 0)
      else if text = "BQ" then some [5] else none }

theorem sealingPrimitives_aead {sealings : List Sealing}
    (h : ∀ e ∈ sealings, ∀ e' ∈ sealings, e.ciphertext = e'.ciphertext → e = e') :
    (sealingPrimitives sealings).Aead := by
  have hsealed : ∀ {key aad m c}, (sealingPrimitives sealings).encrypt key [] aad m = some c →
      ⟨key, aad, m, c⟩ ∈ sealings := by
    intro key aad m c hc
    obtain ⟨e, he, rfl⟩ := Option.map_eq_some_iff.mp hc
    have hmem := List.mem_of_find?_eq_some he
    have hkey := List.find?_some he
    simp only [decide_eq_true_eq] at hkey
    obtain ⟨rfl, rfl, rfl⟩ := hkey
    exact hmem
  constructor
  · intro key nonce aad m c _ hc
    have hmem := hsealed hc
    obtain ⟨e, he⟩ := Option.isSome_iff_exists.mp (List.find?_isSome (p := fun e : Sealing =>
      decide (e.key = key ∧ e.aad = aad ∧ e.ciphertext = c)) |>.mpr ⟨_, hmem, by simp⟩)
    have hkey := List.find?_some he
    simp only [decide_eq_true_eq] at hkey
    have heq := h e (List.mem_of_find?_eq_some he) _ hmem hkey.2.2
    exact Option.map_eq_some_iff.mpr ⟨e, he, by rw [heq]⟩
  · intro key nonce aad m c key' aad' _ hc hne
    have hmem := hsealed hc
    refine Option.map_eq_none_iff.mpr (List.find?_eq_none.mpr fun e he => ?_)
    simp only [decide_eq_true_eq]
    rintro ⟨rfl, rfl, rfl⟩
    have heq := h e he _ hmem rfl
    rw [heq] at hne
    simp at hne

def oldKek : KeyEncryptionKey := List.replicate 32 1

def newKek : KeyEncryptionKey := List.replicate 32 2

def deliveryAad : String := accountTokenDeliveryAad "password_recovery" "token-id"

def sealings : List Sealing :=
  [⟨oldKek, signingKeyAad "k", "pem", [1]⟩, ⟨newKek, signingKeyAad "k", "pem", [2]⟩,
    ⟨oldKek, deliveryAad, "token", [3]⟩, ⟨newKek, deliveryAad, "token", [4]⟩,
    ⟨oldKek, totpCredentialAad 1 2, "secret", [5]⟩, ⟨newKek, totpCredentialAad 1 2, "secret", [6]⟩]

def sealedKey : SigningKeyRow :=
  ⟨"k", "RS256", .null, some [1], some (List.replicate 12 0), true, 0, none⟩

def sealedMessage : EmailOutboxMessage where
  id := 3
  organizationId := 1
  recipientEmail := "a@b.c"
  subject := ""
  bodyText := ""
  template := "password_recovery"
  actionPath := some "/recover"
  deliveryTokenCiphertext := some [3]
  deliveryTokenNonce := some (List.replicate 12 0)
  status := "pending"
  attempts := 0
  lastError := none
  providerMessageId := none
  metadata := .object
    [("kind", .string "password_recovery"), ("account_token_id", .string "token-id")]
  createdAt := 0
  updatedAt := 0
  nextAttemptAt := none
  sentAt := none

def sealedTotp : MfaCredential where
  id := 4
  organizationId := 1
  userId := 2
  kind := .totp
  label := "phone"
  secretMetadata := .object
    [("status", .string "active"), ("secret_ciphertext", .string "BQ"),
      ("secret_nonce", .string "AAAAAAAAAAAAAAAA")]
  createdAt := 0
  lastUsedAt := none

def sealedTables : Db
  | .signingKeys => [sealedKey]
  | .emailOutbox => [sealedMessage]
  | .mfaCredentials => [sealedTotp]
  | _ => []

/-- A store with one secret of each kind under the old key. -/
def sealedWorld : World where
  store := ⟨sealedTables, fun t => by cases t <;> decide⟩
  clock := 0
  uuids := []

def reencrypting : List Choice :=
  [{}, { bytes := List.replicate 12 0 }, {}, { bytes := List.replicate 12 0 }, { time := 9 }, {},
    { time := 9 }]

/-- The API with the given key-encryption key. -/
def stateWith (key : KeyEncryptionKey) : AppState where
  organizationId := 1
  config :=
    { environment := .production
      issuer := "https://id"
      publicWebOrigin := "https://id"
      bootstrapSetupSecretHash := none
      signing := none
      keyEncryptionKey := some key }

def cipher : Primitives := sealingPrimitives sealings

theorem cipher_aead : cipher.Aead := sealingPrimitives_aead (by decide)

theorem sealedWorld_readable : Readable cipher oldKek sealedWorld.store where
  keys := by
    intro k hk m hm
    rw [List.mem_singleton.mp (hk : k ∈ [sealedKey])] at hm
    cases hm
    exact ⟨"pem", by decide⟩
  tokens := by
    intro m hm _
    rw [List.mem_singleton.mp (hm : m ∈ [sealedMessage])]
    exact ⟨"token", by decide⟩

/-- The rotation of the sample store, with the secrets that are in it afterwards:
    the instant each message was updated and the texts under the new key. -/
theorem sealedWorld_rotated : ∃ report w',
    (rotateKeyEncryption cipher oldKek newKek).Runs (Call.exec cipher) sealedWorld (.ok report) w' ∧
      (w'.store.tables .emailOutbox).map (·.updatedAt) = [9] ∧
      (w'.store.tables .emailOutbox).map (·.deliveryToken cipher newKek) = [.ok "token"] ∧
      (w'.store.tables .mfaCredentials).map (totpSecret cipher (stateWith newKek)) =
        [.error (.status 500 "MFA decryption failed")] := by
  have hrun : ((play (Call.exec cipher) reencrypting (rotateKeyEncryption cipher oldKek newKek)
      sealedWorld).bind fun x => x.1.toOption.map fun _ =>
        ((x.2.store.tables .emailOutbox).map (·.updatedAt),
          (x.2.store.tables .emailOutbox).map (·.deliveryToken cipher newKek),
          (x.2.store.tables .mfaCredentials).map (totpSecret cipher (stateWith newKek)))) =
      some ([9], [.ok "token"], [.error (.status 500 "MFA decryption failed")]) := by
    decide
  obtain ⟨⟨o, w'⟩, hplay, ho⟩ := Option.bind_eq_some_iff.mp hrun
  cases o with
  | error e => cases ho
  | ok report =>
    simp only [Except.toOption, Option.map_some, Option.some.injEq, Prod.mk.injEq] at ho
    exact ⟨report, w', ⟨reencrypting, hplay⟩, ho⟩

end Sample

end CairnId
