import CairnId.Operations.Commands
import CairnId.Text.Replace

/-!
# Reading the outbox

`apps/api/src/email/rendering.rs`: from the encrypted delivery token of an outbox
message to the link that its recipient follows, and from its text to what is sent.
-/

namespace CairnId

/-- The errors of rendering a message. -/
inductive EmailDeliveryError where
  | missingKeyEncryptionKey
  | missingMessageField (id : Uuid) (field : String)
  | invalidMetadata (id : Uuid) (field : String)
  | tokenDecryption (e : OidcError)
  deriving DecidableEq

variable (P : Primitives)

namespace EmailOutboxMessage

def requiredField {α : Type} (message : EmailOutboxMessage) (field : String) (value : Option α) :
    Except EmailDeliveryError α := match value with
  | some a => .ok a
  | none => .error (.missingMessageField message.id field)

def metadataField (message : EmailOutboxMessage) (field : String) :
    Except EmailDeliveryError String := match metadataStr message.metadata field with
  | some value => .ok value
  | none => .error (.invalidMetadata message.id field)

/-- The delivery token, as `action_url` reads it. -/
def deliveryToken (message : EmailOutboxMessage) (key : KeyEncryptionKey) :
    Except EmailDeliveryError String := do
  let ciphertext ← message.requiredField "delivery_token_ciphertext" message.deliveryTokenCiphertext
  let nonce ← message.requiredField "delivery_token_nonce" message.deliveryTokenNonce
  let accountTokenId ← message.metadataField "account_token_id"
  let kind ← message.metadataField "kind"
  (decryptSecret P ⟨ciphertext, nonce⟩ key (accountTokenDeliveryAad kind accountTokenId)).mapError
    .tokenDecryption

def actionUrl (message : EmailOutboxMessage) (config : ApiConfig) :
    Except EmailDeliveryError String := do
  let some key := config.keyEncryptionKey | .error .missingKeyEncryptionKey
  let actionPath ← message.requiredField "action_path" message.actionPath
  let token ← message.deliveryToken P key
  return trimEndMatches '/' config.publicWebOrigin ++ actionPath ++ "?token=" ++
    percentEncodeMinimal token

variable {P}

/-- A message whose parts are there is read by decrypting its token. -/
theorem deliveryToken_eq {message : EmailOutboxMessage} {key : KeyEncryptionKey}
    {token : EmailOutboxDeliveryToken} {kind accountTokenId : String}
    (h : message.deliveryToken? = some token)
    (hkind : metadataStr token.metadata "kind" = some kind)
    (hid : metadataStr token.metadata "account_token_id" = some accountTokenId) :
    message.deliveryToken P key =
      (decryptSecret P ⟨token.deliveryTokenCiphertext, token.deliveryTokenNonce⟩ key
        (accountTokenDeliveryAad kind accountTokenId)).mapError .tokenDecryption := by
  unfold EmailOutboxMessage.deliveryToken? at h
  split at h
  · rename_i ciphertext nonce hc hn
    cases h
    simp [deliveryToken, requiredField, metadataField, hc, hn, hkind, hid, bind, Except.bind]
  · cases h

end EmailOutboxMessage

-- the text

/-- What is put in the place of the link, with the braces of a template. -/
def actionUrlMarker : String := "\x7b\x7baction_url\x7d\x7d"

/-- `str::contains`. -/
def containsText (text pattern : String) : Bool := decide (pattern.toList <:+: text.toList)

/-- `str::replace`. -/
def replaceText (text pattern replacement : String) : String :=
  String.ofList (Replace.replace pattern.toList replacement.toList text.toList)

structure EmailCommandPayload where
  id : Uuid
  recipient : String
  subject : String
  text : String
  template : String
  metadata : Json

def EmailOutboxMessage.payload (message : EmailOutboxMessage) (text : String) :
    EmailCommandPayload where
  id := message.id
  recipient := message.recipientEmail
  subject := message.subject
  text := text
  template := message.template
  metadata := message.metadata

def renderEmail (message : EmailOutboxMessage) (config : ApiConfig) :
    Except EmailDeliveryError EmailCommandPayload :=
  if containsText message.bodyText actionUrlMarker then do
    let actionUrl ← message.actionUrl P config
    return message.payload (replaceText message.bodyText actionUrlMarker actionUrl)
  else .ok (message.payload message.bodyText)

end CairnId
