import CairnId.Concurrency.Pool
import CairnId.Database.Calls
import CairnId.Oidc

/-!
# The application monad

A handler is a program over the calls it makes: methods of `Database`, the
clock, and the random sources. `exec` says what each call does to the world
when every `Database` method is one atomic step.
-/

namespace CairnId

open Concurrency Concurrency.Sql

structure OAuthErrorBody where
  error : String
  errorDescription : Option String
  deriving DecidableEq

namespace OAuthErrorBody

/-- Characters outside the `error_description` alphabet become blanks. -/
def description (text : String) : String :=
  String.ofList (text.toList.map fun c =>
    let n := c.toNat
    if (0x20 ≤ n && n ≤ 0x21) || (0x23 ≤ n && n ≤ 0x5B) || (0x5D ≤ n && n ≤ 0x7E) then c else ' ')

def invalidRequest (text : String) : OAuthErrorBody := ⟨"invalid_request", some (description text)⟩
def invalidGrant (text : String) : OAuthErrorBody := ⟨"invalid_grant", some (description text)⟩
def invalidScope (text : String) : OAuthErrorBody := ⟨"invalid_scope", some (description text)⟩
def invalidClient : OAuthErrorBody := ⟨"invalid_client", some "client authentication failed"⟩
def unauthorizedClient (text : String) : OAuthErrorBody :=
  ⟨"unauthorized_client", some (description text)⟩

end OAuthErrorBody

/-- Status codes are numbers; of the headers an error can carry only the delay
    of `Retry-After` is kept. -/
inductive ApiError where
  | status (code : Nat) (message : String)
  | rateLimited (retryAfterSeconds : Int)
  | oauth (code : Nat) (body : OAuthErrorBody)
  deriving DecidableEq

namespace ApiError

def badRequest (message : String) : ApiError := .status 400 message

/-- `From<DatabaseError>`. -/
def ofDatabase (_ : DatabaseError) : ApiError := .status 500 "database error"

end ApiError

inductive Environment where
  | development
  | production
  deriving DecidableEq

structure ApiConfig where
  environment : Environment
  issuer : String
  publicWebOrigin : String
  bootstrapSetupSecretHash : Option String
  signing : Option SigningMaterial
  keyEncryptionKey : Option KeyEncryptionKey

structure AppState where
  organizationId : OrganizationId
  config : ApiConfig

inductive Call where
  | db (c : DbCall)
  | nowUtc
  | newV4
  /-- `generate_secret`: random bytes in URL-safe base64. -/
  | generateSecret (byteLen : Nat)
  | hashPassword (password : String)
  /-- A random AEAD nonce. -/
  | generateNonce
  /-- A new RSA private key in PEM. -/
  | generateRsaKey
  /-- A challenge for passkeys: what the browser gets and the state to keep. -/
  | startPasskeyAuthentication (passkeys : List Json)
  /-- A challenge for a new passkey, which must be none of the excluded ones. -/
  | startPasskeyRegistration (userId : UserId) (email displayName : String) (exclude : List String)

abbrev Call.Answer : Call → Type
  | .db c => Except DatabaseError c.Result
  | .nowUtc => OffsetDateTime
  | .newV4 => Uuid
  | .generateSecret _ => String
  | .hashPassword _ => Option String
  | .generateNonce => Bytes
  | .generateRsaKey => Option String
  | .startPasskeyAuthentication _ => Option (Json × Json)
  | .startPasskeyRegistration .. => Option (Json × Json)

abbrev App := Prog Call Call.Answer ApiError

namespace App

/-- Call a `Database` method with `?`: a database error ends the request. -/
def db (c : DbCall) : App c.Result := .call (.db c) fun r => match r with
  | .ok a => .ret a
  | .error e => .fail (ApiError.ofDatabase e)

def nowUtc : App OffsetDateTime := Prog.perform Call.nowUtc

def newV4 : App Uuid := Prog.perform Call.newV4

def oauthError {α : Type} (code : Nat) (body : OAuthErrorBody) : App α := .fail (.oauth code body)

/-- `if … { return Err(…) }`. -/
def refuseIf (c : Prop) [Decidable c] (code : Nat) (body : OAuthErrorBody) : App Unit :=
  Prog.failIf c (.oauth code body)

structure GeneratedSecret where
  id : Uuid
  value : String
  hash : String

def generateHashedSecret (P : Primitives) (byteLen : Nat) : App GeneratedSecret := do
  let value ← Prog.perform (Call.generateSecret byteLen)
  let id ← newV4
  return ⟨id, value, hashToken P value⟩

/-- `From<AuthnError>` on a failed hash. -/
def hashPassword (password : String) : App String := do
  match ← Prog.perform (Call.hashPassword password) with
  | some hash => return hash
  | none => throw (.status 400 "authentication error")

section sat

variable {α β : Type} {pre : List (Event Call.Answer) → Call → Prop}
  {post : List (Event Call.Answer) → Except ApiError β → Prop} {h : List (Event Call.Answer)}

/-- **Database rule**: a method either answers or ends the request. -/
theorem sat_db_bind {c : DbCall} {f : c.Result → App β} (hpre : pre h (.db c))
    (hok : ∀ a, (f a).Sat pre post (⟨.db c, .ok a⟩ :: h))
    (herr : ∀ e, post (⟨.db c, .error e⟩ :: h) (.error (.ofDatabase e))) :
    (db c >>= f).Sat pre post h := by
  refine ⟨hpre, fun r => ?_⟩
  cases r with
  | ok a => exact hok a
  | error e => exact herr e

end sat

end App

/-- The store, the latest time read from the clock, and the identifiers that
    `Uuid::new_v4` has given out. -/
structure World where
  store : Store
  clock : OffsetDateTime
  uuids : List Uuid

/-- What the surroundings decide in one step. -/
structure Choice where
  /-- The database fails, with no effect on the store. -/
  fail : Bool := false
  time : OffsetDateTime := 0
  uuid : Uuid := 0
  text : String := ""
  bytes : Bytes := []
  json : Json × Json := (.null, .null)

/-- The clock does not run backwards, and `Uuid::new_v4` never repeats itself. -/
def Call.exec (P : Primitives) : (e : Call) → Choice → World → Option (e.Answer × World)
  | .db c, ch, w =>
    if ch.fail then some (.error (.sqlx .connection), w)
    else some ((c.exec w.store).1, { w with store := (c.exec w.store).2 })
  | .nowUtc, ch, w =>
    if w.clock ≤ ch.time then some (ch.time, { w with clock := ch.time }) else none
  | .newV4, ch, w =>
    if ch.uuid ∈ w.uuids then none else some (ch.uuid, { w with uuids := ch.uuid :: w.uuids })
  | .generateSecret _, ch, w => some (ch.text, w)
  | .hashPassword password, ch, w =>
    if ch.fail then some (none, w)
    else if P.verifyPassword password ch.text then some (some ch.text, w) else none
  | .generateNonce, ch, w => if ch.bytes.length = 12 then some (ch.bytes, w) else none
  | .generateRsaKey, ch, w => some (if ch.fail then none else some ch.text, w)
  | .startPasskeyAuthentication _, ch, w => some (if ch.fail then none else some ch.json, w)
  | .startPasskeyRegistration .., ch, w => some (if ch.fail then none else some ch.json, w)

/-- The calls while nothing outside fails. -/
def Call.execReliably (P : Primitives) (e : Call) (ch : Choice) (w : World) :
    Option (e.Answer × World) :=
  if ch.fail then none else Call.exec P e ch w

/-- The machine of a family of requests. -/
def machine (P : Primitives) {Q α : Type} (handler : Q → App α) :
    Machine Call Call.Answer Q World Choice ApiError α where
  handler := handler
  exec _ := Call.exec P

/-- The world before the first request. -/
def World.initial (clock : OffsetDateTime) : World := ⟨Sql.Store.empty schema, clock, []⟩

end CairnId
