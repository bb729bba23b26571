import CairnId.ClientAddress
import CairnId.Http.AccountLifecycle
import CairnId.KeyRotation

/-!
# The emails in the queue and what is sent of them

A message is rendered when it is sent: if its text has the marker of a link, a link is put in
its place. The notices have no link but repeat what the client said of itself, so they can be
rendered exactly if the marker is not in that text.

## Main definitions

- `RendersAsWritten` — the message is sent with the text it was queued with
- `RendersWithLink` — the message is sent with one link in the place of each marker

## Main results

- `notice_renders_iff`
- `queued_emails_deliverable_iff`
- `marker_in_user_agent_is_not_sent`
-/

namespace CairnId

open Concurrency Prog App Database

variable (P : Primitives)

def RendersAsWritten (message : EmailOutboxMessage) : Prop :=
  ∀ config, renderEmail P message config = .ok (message.payload message.bodyText)

/-- The link of a message leads to the web application with the secret. -/
def IsLink (config : ApiConfig) (message : EmailOutboxMessage) (secret link : String) : Prop :=
  ∃ actionPath encoded, message.actionPath = some actionPath ∧
    link = trimEndMatches '/' config.publicWebOrigin ++ actionPath ++ "?token=" ++ encoded ∧
    decodeComponent encoded = some secret

/-- The markers of a text, of which there is one, are replaced by the link, and nothing
    else. -/
def ReplacesMarkers (body link text : String) : Prop :=
  ∃ pieces : List (List Char), 1 < pieces.length ∧
    (∀ piece ∈ pieces, ¬actionUrlMarker.toList <:+: piece) ∧
    body.toList = actionUrlMarker.toList.intercalate pieces ∧
    text.toList = link.toList.intercalate pieces

def RendersWithLink (key : KeyEncryptionKey) (token : AccountToken)
    (message : EmailOutboxMessage) : Prop :=
  ∃ secret, hashToken P secret = token.tokenHash ∧
    ∀ config, config.keyEncryptionKey = some key → ∃ link text,
      IsLink config message secret link ∧ ReplacesMarkers message.bodyText link text ∧
      renderEmail P message config = .ok (message.payload text)

-- rendering

variable {P}

theorem renderEmail_of_marker {message : EmailOutboxMessage} {config : ApiConfig}
    (h : actionUrlMarker.toList <:+: message.bodyText.toList) :
    renderEmail P message config = (message.actionUrl P config).map fun link =>
      message.payload (replaceText message.bodyText actionUrlMarker link) := by
  have hcontains : containsText message.bodyText actionUrlMarker = true := decide_eq_true h
  rw [renderEmail, if_pos hcontains]
  cases message.actionUrl P config <;> rfl

theorem renderEmail_of_plain {message : EmailOutboxMessage} {config : ApiConfig}
    (h : ¬actionUrlMarker.toList <:+: message.bodyText.toList) :
    renderEmail P message config = .ok (message.payload message.bodyText) := by
  rw [renderEmail, if_neg (by rw [containsText, decide_eq_true_eq]; exact h)]

theorem renderEmail_without_key {message : EmailOutboxMessage} {config : ApiConfig}
    (hkey : config.keyEncryptionKey = none)
    (hmarker : actionUrlMarker.toList <:+: message.bodyText.toList) :
    renderEmail P message config = .error .missingKeyEncryptionKey := by
  rw [renderEmail_of_marker hmarker, EmailOutboxMessage.actionUrl, hkey]
  rfl

theorem renderEmail_without_path {message : EmailOutboxMessage} {config : ApiConfig}
    {key : KeyEncryptionKey} (hkey : config.keyEncryptionKey = some key)
    (hpath : message.actionPath = none)
    (hmarker : actionUrlMarker.toList <:+: message.bodyText.toList) :
    renderEmail P message config = .error (.missingMessageField message.id "action_path") := by
  rw [renderEmail_of_marker hmarker, EmailOutboxMessage.actionUrl, hkey, hpath]
  rfl

/-- A message without a path is sent as it is, or not at all. -/
theorem renderEmail_of_no_path {message : EmailOutboxMessage} (hpath : message.actionPath = none)
    (config : ApiConfig) :
    renderEmail P message config = .ok (message.payload message.bodyText) ↔
      ¬actionUrlMarker.toList <:+: message.bodyText.toList := by
  constructor
  · intro hrenders hmarker
    cases hkey : config.keyEncryptionKey with
    | none =>
      rw [renderEmail_without_key hkey hmarker] at hrenders
      cases hrenders
    | some key =>
      rw [renderEmail_without_path hkey hpath hmarker] at hrenders
      cases hrenders
  · exact renderEmail_of_plain

theorem marker_ne_nil : actionUrlMarker.toList ≠ [] := by decide

theorem replaceText_replacesMarkers {body : String} (link : String)
    (h : actionUrlMarker.toList <:+: body.toList) :
    ReplacesMarkers body link (replaceText body actionUrlMarker link) := by
  obtain ⟨pieces, hne, hfree, hbody, hreplace⟩ :=
    Replace.exists_pieces marker_ne_nil body.toList
  refine ⟨pieces, ?_, hfree, hbody, ?_⟩
  · cases pieces with
    | nil => exact absurd rfl hne
    | cons piece pieces =>
      cases pieces with
      | nil =>
        rw [List.intercalate_singleton] at hbody
        exact absurd (hbody ▸ h) (hfree piece List.mem_cons_self)
      | cons other pieces =>
        rw [List.length_cons, List.length_cons]
        omega
  · rw [replaceText, String.toList_ofList]
    exact hreplace link.toList

-- notices

section notice

variable {context : SessionRequestContext} {instant : OffsetDateTime}

theorem marker_eq : ∃ others, actionUrlMarker.toList = '\x7b' :: others := ⟨_, rfl⟩

theorem lineEnd_notMem_marker : '\n' ∉ actionUrlMarker.toList := by decide

/-- A line with a label before its text. -/
theorem marker_in_line {label text rest : List Char} (h : '\x7b' ∉ label) :
    actionUrlMarker.toList <:+: label ++ (text ++ '\n' :: rest) ↔
      actionUrlMarker.toList <:+: text ∨ actionUrlMarker.toList <:+: rest := by
  obtain ⟨others, hmarker⟩ := marker_eq
  rw [hmarker, Replace.isInfix_append_iff h, ← hmarker]
  exact Replace.isInfix_append_cons_iff marker_ne_nil lineEnd_notMem_marker

theorem not_marker_of_notMem {text : List Char} (h : '\x7b' ∉ text) :
    ¬actionUrlMarker.toList <:+: text := by
  obtain ⟨others, hmarker⟩ := marker_eq
  rw [hmarker]
  exact Replace.not_isInfix_of_notMem h

/-- The marker is in the notice exactly if the client sent it. -/
theorem marker_in_notice_iff {opening closing : String} (hopening : '\x7b' ∉ opening.toList)
    (hclosing : '\x7b' ∉ closing.toList)
    (htime : '\x7b' ∉ (P.formatRfc3339 instant).toList)
    (haddress : '\x7b' ∉ (context.ipAddress.getD "Unknown").toList) :
    actionUrlMarker.toList <:+: (opening ++ contextLines P context instant ++ closing).toList ↔
      actionUrlMarker.toList <:+: (context.userAgent.getD "Unknown").toList := by
  have hlines : (opening ++ contextLines P context instant ++ closing).toList =
      (opening.toList ++ "\n\nTime: ".toList) ++ ((P.formatRfc3339 instant).toList ++ '\n' ::
        ("IP address: ".toList ++ ((context.ipAddress.getD "Unknown").toList ++ '\n' ::
          ("Browser: ".toList ++ ((context.userAgent.getD "Unknown").toList ++ '\n' ::
            ('\n' :: closing.toList)))))) := by
    have haddressLine : "\nIP address: ".toList = '\n' :: "IP address: ".toList := rfl
    have hbrowserLine : "\nBrowser: ".toList = '\n' :: "Browser: ".toList := rfl
    have hend : "\n\n".toList = ['\n', '\n'] := rfl
    simp only [contextLines, String.toList_append, haddressLine, hbrowserLine, hend,
      List.append_assoc, List.cons_append, List.nil_append]
  have hlabel : '\x7b' ∉ opening.toList ++ "\n\nTime: ".toList := by
    rw [List.mem_append, not_or]
    exact ⟨hopening, by decide⟩
  have hend : '\x7b' ∉ '\n' :: closing.toList := by
    rw [List.mem_cons, not_or]
    exact ⟨by decide, hclosing⟩
  rw [hlines, marker_in_line hlabel, marker_in_line (by decide),
    marker_in_line (by decide)]
  constructor
  · rintro (h | h | h | h)
    · exact absurd h (not_marker_of_notMem htime)
    · exact absurd h (not_marker_of_notMem haddress)
    · exact h
    · exact absurd h (not_marker_of_notMem hend)
  · exact fun h => .inr (.inr (.inl h))

theorem rendersAsWritten_notice_iff {message : EmailOutboxMessage} {opening closing : String}
    (config : ApiConfig) (hpath : message.actionPath = none)
    (hbody : message.bodyText = opening ++ contextLines P context instant ++ closing)
    (hopening : '\x7b' ∉ opening.toList) (hclosing : '\x7b' ∉ closing.toList)
    (htime : '\x7b' ∉ (P.formatRfc3339 instant).toList)
    (haddress : '\x7b' ∉ (context.ipAddress.getD "Unknown").toList) :
    RendersAsWritten P message ↔
      ¬actionUrlMarker.toList <:+: (context.userAgent.getD "Unknown").toList := by
  rw [← marker_in_notice_iff hopening hclosing htime haddress, ← hbody]
  constructor
  · exact fun hrenders => (renderEmail_of_no_path hpath config).mp (hrenders config)
  · exact fun hplain config' => (renderEmail_of_no_path hpath config').mpr hplain

end notice

/-- The three notices of an account are sent as they were written. -/
structure NoticesRender (P : Primitives) (state : AppState) (user : User) (session : AuthSession)
    (token : AccountToken) (userId : UserId) (context : SessionRequestContext)
    (instant : OffsetDateTime) : Prop where
  newLogin : (newLoginNotificationEmail P state user session context instant).Gives
    (RendersAsWritten P)
  passwordChange : (passwordChangeNotificationEmail P state user session context instant).Gives
    (RendersAsWritten P)
  passwordRecovery : (passwordRecoveryCompletedNotificationEmail P state token userId context
    instant).Gives (RendersAsWritten P)

section context

variable (identity : RequestIdentityConfig) (headers : HeaderMap) (peer : Option SocketAddr)

theorem brace_notMem_address : '\x7b' ∉ ((auditRequestContext
    (requestHeaders identity headers peer)).ipAddress.getD "Unknown").toList := by
  show '\x7b' ∉ ((((sourceIp identity headers peer).map IpAddr.toString).map
    truncateAuditRequestContextValue).getD "Unknown").toList
  cases sourceIp identity headers peer with
  | none => decide
  | some addr =>
    intro hmem
    have hchar := IpAddr.isAddressChar_toString addr '\x7b' (by
      rw [Option.map_some, Option.map_some, Option.getD_some, truncateAuditRequestContextValue,
        String.toList_ofList] at hmem
      exact List.mem_of_mem_take hmem)
    exact absurd hchar (by decide)

/-- The text that the notices repeat of the header. -/
theorem marker_in_userAgent_iff : actionUrlMarker.toList <:+: ((auditRequestContext
    (requestHeaders identity headers peer)).userAgent.getD "Unknown").toList ↔
      actionUrlMarker.toList <:+:
        ((headerFirstValue headers "user-agent").getD "").toList.take 512 := by
  show actionUrlMarker.toList <:+: (((headerFirstValue headers "user-agent").map
    truncateAuditRequestContextValue).getD "Unknown").toList ↔ _
  cases headerFirstValue headers "user-agent" with
  | none =>
    have hunknown : ¬actionUrlMarker.toList <:+: "Unknown".toList := by decide
    have hempty : ¬actionUrlMarker.toList <:+: ("".toList.take 512) := by decide
    exact iff_of_false hunknown hempty
  | some userAgent =>
    rw [Option.map_some, Option.getD_some, truncateAuditRequestContextValue,
      String.toList_ofList, Option.getD_some]

end context

theorem gives_newV4_iff {α : Type} {Q : α → Prop} {f : Uuid → α} :
    (newV4 >>= fun id => pure (f id) : App α).Gives Q ↔ ∀ id, Q (f id) := by
  have hcall : (newV4 >>= fun id => pure (f id) : App α) =
    .call Call.newV4 fun id => .ret (f id) := rfl
  rw [hcall, gives_call]
  exact forall_congr' fun id => gives_ret (f id)

/-- The notices are sent as they were written exactly if the client did not send the
    marker. -/
theorem noticesRender_iff (hformat : ∀ instant, '\x7b' ∉ (P.formatRfc3339 instant).toList)
    (state : AppState) (user : User) (session : AuthSession) (token : AccountToken)
    (userId : UserId) (identity : RequestIdentityConfig) (headers : HeaderMap)
    (peer : Option SocketAddr) (instant : OffsetDateTime) :
    NoticesRender P state user session token userId
        (auditRequestContext (requestHeaders identity headers peer)) instant ↔
      ¬actionUrlMarker.toList <:+:
        ((headerFirstValue headers "user-agent").getD "").toList.take 512 := by
  rw [← marker_in_userAgent_iff identity headers peer]
  have haddress := brace_notMem_address identity headers peer
  generalize auditRequestContext (requestHeaders identity headers peer) = context at haddress ⊢
  have hone : ∀ {f : Uuid → EmailOutboxMessage} (opening closing : String),
      (∀ id, (f id).actionPath = none) →
      (∀ id, (f id).bodyText = opening ++ contextLines P context instant ++ closing) →
      '\x7b' ∉ opening.toList → '\x7b' ∉ closing.toList →
      ((newV4 >>= fun id => pure (f id) : App EmailOutboxMessage).Gives (RendersAsWritten P) ↔
        ¬actionUrlMarker.toList <:+: (context.userAgent.getD "Unknown").toList) := by
    intro f opening closing hpath hbody hopening hclosing
    have heach : ∀ id, RendersAsWritten P (f id) ↔ _ := fun id =>
      rendersAsWritten_notice_iff state.config (hpath id) (hbody id) hopening hclosing
        (hformat instant) haddress
    rw [gives_newV4_iff]
    constructor
    · exact fun hgives => (heach 0).mp (hgives 0)
    · exact fun hplain id => (heach id).mpr hplain
  have hnewLogin : (newLoginNotificationEmail P state user session context instant).Gives
      (RendersAsWritten P) ↔ _ :=
    hone "A new Cairn Identity sign-in was detected."
      ("If this was you, no action is needed. If this was not you, change your password " ++
        "immediately and contact your administrator.")
      (fun _ => rfl) (fun _ => String.append_assoc) (by decide +kernel) (by decide +kernel)
  have hpasswordChange : (passwordChangeNotificationEmail P state user session context
      instant).Gives (RendersAsWritten P) ↔ _ :=
    hone "Your Cairn Identity password was changed."
      ("If this was you, no action is needed. If this was not you, reset your password " ++
        "immediately and contact your administrator.")
      (fun _ => rfl) (fun _ => String.append_assoc) (by decide +kernel) (by decide +kernel)
  have hrecovery : (passwordRecoveryCompletedNotificationEmail P state token userId context
      instant).Gives (RendersAsWritten P) ↔ _ :=
    hone "Your Cairn Identity password was reset using account recovery."
      ("If this was you, no action is needed. If this was not you, contact your " ++
        "administrator immediately.")
      (fun _ => rfl) (fun _ => String.append_assoc) (by decide) (by decide)
  constructor
  · exact fun h => hnewLogin.mp h.newLogin
  · exact fun h => ⟨hnewLogin.mpr h, hpasswordChange.mpr h, hrecovery.mpr h⟩

-- emails with a link

/-- What the records of an email with a link have in common. -/
structure LinkRecords (P : Primitives) (key : KeyEncryptionKey) (request : AccountLifecycleEmail)
    (token : AccountToken) (message : EmailOutboxMessage) (secret : String)
    (encrypted : EncryptedSecret) : Prop where
  hash : hashToken P secret = token.tokenHash
  nonce : encrypted.nonce.length = 12
  encrypts : P.encrypt key encrypted.nonce (accountTokenAad request.kind token.id) secret =
    some encrypted.ciphertext
  body : message.bodyText = lifecycleBody request.bodyIntro
  path : message.actionPath = some request.actionPath
  ciphertext : message.deliveryTokenCiphertext = some encrypted.ciphertext
  storedNonce : message.deliveryTokenNonce = some encrypted.nonce
  metadata : message.metadata = .object
    [("account_token_id", .string (Uuid.hyphenated token.id)),
      ("kind", .string (accountTokenKindLabel request.kind)),
      ("encrypted_delivery_token", .bool true)]

section records

variable {state : AppState} {key : KeyEncryptionKey} {request : AccountLifecycleEmail}
  {token : AccountToken} {message : EmailOutboxMessage} {w w' : World}

theorem runs_encryptedDelivery {secret aad : String} {delivery : Option EncryptedSecret}
    (hkey : state.config.keyEncryptionKey = some key)
    (h : (encryptedDelivery P state secret aad).Runs (Call.exec P) w (.ok delivery) w') :
    ∃ encrypted, delivery = some encrypted ∧ encrypted.nonce.length = 12 ∧
      P.encrypt key encrypted.nonce aad secret = some encrypted.ciphertext := by
  rw [encryptedDelivery, hkey] at h
  obtain ⟨encrypted, w₁, hencrypt, hret⟩ := runs_bind_ok.mp h
  obtain ⟨hnonce, hencrypts⟩ := runs_encryptSecret (runs_mapError_ok.mp hencrypt)
  simp only [pure_eq, runs_ret, Except.ok.injEq] at hret
  exact ⟨encrypted, hret.1, hnonce, hencrypts⟩

theorem runs_accountLifecycleRecords (hkey : state.config.keyEncryptionKey = some key)
    (h : (accountLifecycleRecords P state request).Runs (Call.exec P) w (.ok (token, message)) w') :
    ∃ secret encrypted, LinkRecords P key request token message secret encrypted := by
  obtain ⟨secret, w₁, hsecret, h⟩ := runs_bind_ok.mp h
  obtain ⟨now, w₂, -, h⟩ := runs_bind_ok.mp h
  obtain ⟨delivery, w₃, hdelivery, h⟩ := runs_bind_ok.mp h
  obtain ⟨id, w₄, -, hret⟩ := runs_bind_ok.mp h
  obtain ⟨value, w₅, -, hsecret⟩ := runs_bind_ok.mp hsecret
  obtain ⟨tokenId, w₆, -, hsecret⟩ := runs_bind_ok.mp hsecret
  obtain ⟨encrypted, rfl, hnonce, hencrypts⟩ := runs_encryptedDelivery hkey hdelivery
  simp only [pure_eq, runs_ret, Except.ok.injEq] at hret hsecret
  obtain ⟨rfl, -⟩ := hsecret
  obtain ⟨hpair, -⟩ := hret
  obtain ⟨rfl, rfl⟩ := Prod.mk.inj hpair
  exact ⟨value, encrypted, rfl, hnonce, hencrypts, rfl, rfl, rfl, rfl, rfl⟩

theorem all_accountLifecycleRecords :
    (accountLifecycleRecords P state request).All fun e => e.isQuiet = true := by
  have hdelivery : ∀ secret aad, (encryptedDelivery P state secret aad).All
      fun e => e.isQuiet = true := by
    intro secret aad
    rw [encryptedDelivery]
    cases state.config.keyEncryptionKey with
    | some key => exact .bind (.mapError (all_encryptSecret ..)) fun _ => .ret _
    | none =>
      dsimp only
      split
      · exact .ret _
      · exact .fail _
  exact .bind (.bind (.perform rfl) fun _ => .bind (.perform rfl) fun _ => .ret _) fun _ =>
    .bind (.perform rfl) fun _ => .bind (hdelivery _ _) fun _ => .bind (.perform rfl) fun _ =>
      .ret _

theorem hyphenated_ne_empty (id : Uuid) : (Uuid.hyphenated id).isEmpty = false := by
  have hdash : '-' ∈ (Uuid.hyphenated id).toList := by
    rw [Uuid.hyphenated, String.toList_ofList]
    simp
  rw [Bool.eq_false_iff]
  intro hempty
  rw [String.isEmpty_iff.mp hempty] at hdash
  exact absurd hdash List.not_mem_nil

theorem kindLabel_ne_empty (kind : AccountTokenKind) :
    (accountTokenKindLabel kind).isEmpty = false := by
  cases kind <;> rfl

variable {secret : String} {encrypted : EncryptedSecret}
  (hdecrypt : ∀ key nonce aad m c, nonce.length = 12 → P.encrypt key nonce aad m = some c →
    P.decrypt key nonce aad c = some m)

include hdecrypt

/-- The same key gives back the secret of the token. -/
theorem LinkRecords.actionUrl (h : LinkRecords P key request token message secret encrypted)
    {config : ApiConfig} (hkey : config.keyEncryptionKey = some key) :
    message.actionUrl P config = .ok (trimEndMatches '/' config.publicWebOrigin ++
      request.actionPath ++ "?token=" ++ percentEncodeMinimal secret) := by
  have hid : metadataStr message.metadata "account_token_id" =
      some (Uuid.hyphenated token.id) := by
    rw [h.metadata, metadataStr]
    show Option.filter _ (some (Uuid.hyphenated token.id)) = _
    rw [Option.filter_some, hyphenated_ne_empty]
    rfl
  have hkind : metadataStr message.metadata "kind" =
      some (accountTokenKindLabel request.kind) := by
    rw [h.metadata, metadataStr]
    show Option.filter _ (some (accountTokenKindLabel request.kind)) = _
    rw [Option.filter_some, kindLabel_ne_empty]
    rfl
  have hsecret : decryptSecret P ⟨encrypted.ciphertext, encrypted.nonce⟩ key
      (accountTokenDeliveryAad (accountTokenKindLabel request.kind) (Uuid.hyphenated token.id)) =
        .ok secret := by
    have hplain := hdecrypt key encrypted.nonce _ secret encrypted.ciphertext h.nonce h.encrypts
    have haad : accountTokenDeliveryAad (accountTokenKindLabel request.kind)
      (Uuid.hyphenated token.id) = accountTokenAad request.kind token.id := rfl
    rw [decryptSecret, if_neg (not_not.mpr h.nonce), haad, hplain]
  have htoken : message.deliveryToken P key = .ok secret := by
    rw [EmailOutboxMessage.deliveryToken, h.ciphertext, h.storedNonce]
    simp only [EmailOutboxMessage.requiredField, EmailOutboxMessage.metadataField, hid, hkind,
      Bind.bind, Except.bind]
    rw [hsecret]
    rfl
  rw [EmailOutboxMessage.actionUrl, hkey, h.path]
  simp only [EmailOutboxMessage.requiredField, htoken, Bind.bind, Except.bind]
  rfl

/-- What a client did not write is sent with its link. -/
theorem LinkRecords.rendersWithLink
    (h : LinkRecords P key request token message secret encrypted) :
    RendersWithLink P key token message := by
  refine ⟨secret, h.hash, fun config hkey => ?_⟩
  have hmarker : actionUrlMarker.toList <:+: message.bodyText.toList := by
    rw [h.body, lifecycleBody, String.toList_append, String.toList_append, String.toList_append]
    exact ((List.prefix_append _ _).isInfix.trans (List.suffix_append _ _).isInfix).trans
      (List.suffix_append _ _).isInfix
  refine ⟨_, _, ⟨request.actionPath, percentEncodeMinimal secret, h.path, rfl,
    decodeComponent_percentEncodeMinimal secret⟩, replaceText_replacesMarkers _ hmarker, ?_⟩
  rw [renderEmail_of_marker hmarker, h.actionUrl hdecrypt hkey]
  rfl

/-- The message that a run puts into the queue, with the token beside it. -/
theorem queued_rendersWithLink (hkey : state.config.keyEncryptionKey = some key)
    {o : Except ApiError QueuedDelivery}
    (h : (queueAccountLifecycleEmail P state request).Runs (Call.exec P) w o w')
    (hmem : message ∈ w'.store.tables .emailOutbox)
    (hnew : message ∉ w.store.tables .emailOutbox) :
    ∃ token ∈ w'.store.tables .accountTokens, RendersWithLink P key token message := by
  obtain ⟨⟨token, queued⟩, w₁, hrecords, h⟩ | ⟨e, -, hfail⟩ := runs_bind.mp h
  · obtain ⟨secret, encrypted, hlink⟩ := runs_accountLifecycleRecords hkey hrecords
    have hstore : w₁.store = w.store := runs_quiet all_accountLifecycleRecords hrecords
    rw [← hstore] at hnew
    obtain ⟨ch, r, w₂, hexec, h⟩ := runs_call.mp h
    have hend : w' = w₂ := by
      cases r with
      | ok a => exact (runs_ret.mp h).2
      | error e => exact (runs_fail.mp h).2
    subst hend
    obtain ⟨-, -, ⟨-, hsame⟩ | hcall⟩ := Call.exec_db hexec
    · rw [hsame] at hmem
      exact absurd hmem hnew
    · obtain ⟨_, -, hrun⟩ | ⟨_, _, -, -, hsame⟩ | ⟨_, -, hsame⟩ := Sql.Tx.atomic_cases hcall
      · obtain ⟨_, s₁, htoken, hrun⟩ := Sql.Stmts.run_bind_eq_ok.mp hrun
        obtain ⟨_, s₂, hmessage, hrun⟩ := Sql.Stmts.run_bind_eq_ok.mp hrun
        cases hrun
        have htables := run_insert_eq_ok hmessage
        rw [run_insert_eq_ok htoken] at htables
        rw [htables, Function.update_self, Function.update_of_ne (by decide), List.mem_append,
          List.mem_singleton] at hmem
        obtain rfl := hmem.resolve_left hnew
        refine ⟨token, ?_, hlink.rendersWithLink hdecrypt⟩
        rw [htables, Function.update_of_ne (by decide), Function.update_self]
        exact List.mem_append_right _ List.mem_cons_self
      · rw [hsame] at hmem
        exact absurd hmem hnew
      · rw [hsame] at hmem
        exact absurd hmem hnew
  · rw [runs_quiet all_accountLifecycleRecords hfail] at hmem
    exact absurd hmem hnew

end records

/-- The emails of an account are sent as they were queued exactly if the text that the
    notices repeat of the client is without the marker. Those with a link always are. -/
theorem queued_emails_deliverable_iff
    (hdecrypt : ∀ key nonce aad m c, nonce.length = 12 → P.encrypt key nonce aad m = some c →
      P.decrypt key nonce aad c = some m)
    (hformat : ∀ instant, '\x7b' ∉ (P.formatRfc3339 instant).toList)
    (state : AppState) (user : User) (session : AuthSession) (recovered : AccountToken)
    (userId : UserId) (identity : RequestIdentityConfig) (headers : HeaderMap)
    (peer : Option SocketAddr) (instant : OffsetDateTime) :
    (NoticesRender P state user session recovered userId
        (auditRequestContext (requestHeaders identity headers peer)) instant ∧
      ∀ key, state.config.keyEncryptionKey = some key → ∀ request w o w',
        (queueAccountLifecycleEmail P state request).Runs (Call.exec P) w o w' →
        ∀ message ∈ w'.store.tables .emailOutbox, message ∉ w.store.tables .emailOutbox →
          ∃ token ∈ w'.store.tables .accountTokens, RendersWithLink P key token message) ↔
      ¬actionUrlMarker.toList <:+:
        ((headerFirstValue headers "user-agent").getD "").toList.take 512 := by
  rw [noticesRender_iff hformat]
  constructor
  · exact fun h => h.1
  · intro hplain
    refine ⟨hplain, ?_⟩
    intro key hkey request w o w' hruns message hmem hnew
    exact queued_rendersWithLink hdecrypt hkey hruns hmem hnew

namespace Sample

/-- A request whose browser calls itself by a text. -/
def browsing (userAgent : String) : HeaderMap := [("user-agent", ascii userAgent)]

def recoveredToken : AccountToken :=
  ⟨9, 1, .passwordRecovery, some 2, "ada@example.org", "hash", none, 0, 1, none, .object []⟩

end Sample

open Sample

theorem queued_emails_deliverable_curl :
    NoticesRender cipher appState user Sample.session recoveredToken 2
      (auditRequestContext (requestHeaders behindProxy (browsing "curl/8.7.1") (some proxy))) 0 :=
  ((queued_emails_deliverable_iff cipher_aead.decrypt_encrypt (fun _ => List.not_mem_nil) appState user
    Sample.session recoveredToken 2 behindProxy (browsing "curl/8.7.1") (some proxy) 0).mpr
      (by decide)).1

def Sample.markerContext : SessionRequestContext :=
  auditRequestContext (requestHeaders behindProxy (browsing actionUrlMarker) (some proxy))

/-- The owner of the account gets no notice of a login whose browser calls itself by the
    marker, with a key or without. -/
theorem marker_in_user_agent_is_not_sent :
    (newLoginNotificationEmail cipher appState user Sample.session markerContext 0).Gives
      (fun message =>
        renderEmail cipher message appState.config = .error .missingKeyEncryptionKey ∧
        renderEmail cipher message { appState.config with keyEncryptionKey := some oldKek } =
          .error (.missingMessageField message.id "action_path")) ∧
    ¬NoticesRender cipher appState user Sample.session recoveredToken 2 markerContext 0 := by
  refine ⟨?_, ?_⟩
  · refine gives_newV4_iff.mpr fun id => ?_
    have hmarker : actionUrlMarker.toList <:+: ("A new Cairn Identity sign-in was detected." ++
        contextLines cipher markerContext 0 ++
        "If this was you, no action is needed. If this was not you, change your password " ++
        "immediately and contact your administrator.").toList := by decide +kernel
    exact ⟨renderEmail_without_key rfl hmarker, renderEmail_without_path rfl rfl hmarker⟩
  · rw [markerContext, noticesRender_iff fun _ => List.not_mem_nil]
    decide

end CairnId
