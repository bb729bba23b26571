import CairnId.Http.Network
import CairnId.Http.TokenRuns
import CairnId.Http.UrlencodedSpec

/-!
# Who chooses the address a client is throttled by

A trusted proxy appends the address it was contacted from to what it received. The
handlers take the first address, as documented for trusted proxies, so a client that sends
no `X-Forwarded-For` is throttled by the appended address, and one that sends it by what
it wrote.

## Main definitions

- `ForwardedEntry` — an address as a proxy appends it
- `claimedIp` — what a client's own lines are read as
- `SameBuckets`

## Main results

- `client_address`
- `forwarded_for_chooses_the_buckets`
-/

namespace CairnId

/-- An address as a proxy writes it: one entry of the list, read as that address. -/
structure ForwardedEntry where
  value : HeaderValue
  addr : IpAddr
  reads : value.toStr.bind parseIp = some addr
  single : 44 ∉ value

/-- The values of the client's own `X-Forwarded-For` lines. -/
def receivedForwardedFor (sent : HeaderMap) : List HeaderValue :=
  (sent.filter fun line => line.1 = "x-forwarded-for").map (·.2)

/-- One line, of the values that came and the entry, with a comma and a blank between. -/
def ForwardedEntry.appendTo (entry : ForwardedEntry) (sent : HeaderMap) : HeaderMap :=
  ("x-forwarded-for", List.intercalate [44, 32] (receivedForwardedFor sent ++ [entry.value])) ::
    sent.filter fun line => line.1 ≠ "x-forwarded-for"

/-- What a client's own lines are read as, once an entry stands after them. -/
def claimedIp (sent : HeaderMap) : Option IpAddr :=
  if (receivedForwardedFor sent).all fun value => value.toStr.isSome then
    ((receivedForwardedFor sent).head?.bind HeaderValue.toStr).bind firstForwardedForIp
  else none

def realIp (headers : HeaderMap) : Option IpAddr :=
  (headerFirstValue headers "x-real-ip").bind parseIp

/-- Two requests are counted together by login and by the recovery of an account. -/
structure SameBuckets (P : Primitives) (organizationId : OrganizationId)
    (headers headers' : RequestHeaders) : Prop where
  login : loginPreCredentialRateLimitKeys P organizationId headers =
    loginPreCredentialRateLimitKeys P organizationId headers'
  verified : ∀ userId, loginVerifiedUserRateLimitKeys P organizationId userId headers =
    loginVerifiedUserRateLimitKeys P organizationId userId headers'
  recovery : accountRecoveryRateLimitKeys P organizationId headers =
    accountRecoveryRateLimitKeys P organizationId headers'

-- header values

theorem toStr_append (v w : HeaderValue) :
    (v ++ w : HeaderValue).toStr = v.toStr.bind fun a => w.toStr.map (a ++ ·) := by
  simp only [HeaderValue.toStr, List.all_append]
  by_cases hv : v.all isVisibleByte = true
  · by_cases hw : w.all isVisibleByte = true
    · simp only [hv, hw, Bool.and_self, if_true, Option.bind_some, Option.map_some,
        List.map_append, String.ofList_append]
    · simp only [hv, hw, Bool.and_false, Bool.false_eq_true, if_false, if_true, Option.bind_some,
        Option.map_none]
  · simp only [hv, Bool.false_and, Bool.false_eq_true, if_false, Option.bind_none]

theorem toStr_isSome (value : HeaderValue) : value.toStr.isSome = value.all isVisibleByte := by
  rw [HeaderValue.toStr]
  cases value.all isVisibleByte <;> rfl

theorem toStr_separator : HeaderValue.toStr [44, 32] = some ", " := by decide

/-- The comma after the first value ends the first entry. -/
theorem firstForwardedForIp_append (first rest : String) :
    firstForwardedForIp (first ++ (", " ++ rest)) = firstForwardedForIp first := by
  have htext : (first ++ (", " ++ rest)).toList = first.toList ++ ',' :: (' ' :: rest.toList) := by
    rw [String.toList_append, String.toList_append]
    rfl
  have hhead : (splitAt ',' (first ++ (", " ++ rest))).head? = (splitAt ',' first).head? := by
    rw [splitAt, splitAt, htext, splitChars_append_cons, List.map_append]
    apply List.head?_append_of_ne_nil
    simpa using splitChars_ne_nil ',' first.toList
  rw [firstForwardedForIp, firstForwardedForIp, hhead]

theorem commaByte : ∀ n < 256, Char.ofNat n = ',' → n = 44 := by decide +kernel

theorem firstForwardedForIp_of_single {value : HeaderValue} {text : String}
    (h : value.toStr = some text) (hsingle : 44 ∉ value) :
    firstForwardedForIp text = parseIp text := by
  have hcomma : ',' ∉ text.toList := by
    rw [HeaderValue.toStr] at h
    split at h
    · obtain rfl := Option.some.inj h
      rw [String.toList_ofList, List.mem_map]
      rintro ⟨b, hb, heq⟩
      have hbyte : b = 44 := UInt8.toNat_inj.mp (commaByte b.toNat b.toNat_lt heq)
      exact hsingle (hbyte ▸ hb)
    · cases h
  rw [firstForwardedForIp, splitAt, splitChars_of_notMem hcomma]
  simp

theorem toStr_intercalate_isSome (values : List HeaderValue) :
    (HeaderValue.toStr (List.intercalate [44, 32] values)).isSome =
      values.all fun value => value.toStr.isSome := by
  induction values with
  | nil => rfl
  | cons value values ih =>
    by_cases hne : values = []
    · subst hne
      rw [List.intercalate_singleton, List.all_cons, List.all_nil, Bool.and_true]
    · have hsep : ([44, 32] : HeaderValue).all isVisibleByte = true := by decide
      rw [toStr_isSome] at ih ⊢
      rw [List.intercalate_cons_of_ne_nil hne, List.all_append, List.all_append, hsep,
        Bool.and_true, ih, List.all_cons, toStr_isSome]

/-- The line is read as its first value, if every value is text. -/
theorem toStr_intercalate (first : HeaderValue) {rest : List HeaderValue} (hne : rest ≠ []) :
    (HeaderValue.toStr (List.intercalate [44, 32] (first :: rest))).bind firstForwardedForIp =
      if (first :: rest).all fun value => value.toStr.isSome then
        first.toStr.bind firstForwardedForIp
      else none := by
  have hsome := toStr_intercalate_isSome rest
  rw [List.intercalate_cons_of_ne_nil hne, List.append_assoc, toStr_append, toStr_append,
    toStr_separator, List.all_cons]
  cases htext : first.toStr with
  | none => rfl
  | some text =>
    cases hrest : HeaderValue.toStr (List.intercalate [44, 32] rest) with
    | none =>
      rw [hrest] at hsome
      rw [← hsome]
      rfl
    | some others =>
      rw [hrest] at hsome
      rw [← hsome]
      exact firstForwardedForIp_append text others

-- what the proxy passes on

variable (entry : ForwardedEntry) (sent : HeaderMap)

theorem ForwardedEntry.get_appendTo : (entry.appendTo sent).get "x-forwarded-for" =
    some (List.intercalate [44, 32] (receivedForwardedFor sent ++ [entry.value])) := rfl

theorem ForwardedEntry.realIp_appendTo : realIp (entry.appendTo sent) = realIp sent := by
  have hfind : (entry.appendTo sent).find? (fun line => line.1 = "x-real-ip") =
      sent.find? fun line => line.1 = "x-real-ip" := by
    rw [ForwardedEntry.appendTo, List.find?_cons_of_neg (by simp), List.find?_filter]
    congr 1
    funext line
    by_cases hname : line.1 = "x-real-ip"
    · simp [hname]
    · simp [hname]
  rw [realIp, realIp, headerFirstValue, headerFirstValue, HeaderMap.get, HeaderMap.get, hfind]

theorem forwardedIp_eq (headers : HeaderMap) : forwardedIp headers =
    (((headers.get "x-forwarded-for").bind HeaderValue.toStr).bind firstForwardedForIp).or
      (realIp headers) := rfl

/-- The entry counts only if the client sent no line of its own. -/
theorem ForwardedEntry.forwardedIp_appendTo : forwardedIp (entry.appendTo sent) =
    if receivedForwardedFor sent = [] then some entry.addr
    else (claimedIp sent).or (realIp sent) := by
  rw [forwardedIp_eq, entry.get_appendTo, entry.realIp_appendTo, Option.bind_some]
  cases hreceived : receivedForwardedFor sent with
  | nil =>
    obtain ⟨text, htext, hparse⟩ := Option.bind_eq_some_iff.mp entry.reads
    rw [if_pos rfl, List.nil_append, List.intercalate_singleton, htext, Option.bind_some,
      firstForwardedForIp_of_single htext entry.single, hparse]
    rfl
  | cons first rest =>
    have hentry : entry.value.toStr.isSome = true := by
      obtain ⟨text, htext, -⟩ := Option.bind_eq_some_iff.mp entry.reads
      rw [htext]
      rfl
    rw [if_neg (List.cons_ne_nil first rest), List.cons_append,
      toStr_intercalate first (by simp), claimedIp, hreceived, ← List.cons_append]
    simp only [List.all_append, List.all_cons, List.all_nil, hentry, Bool.and_true]
    rfl

-- the address of a request

variable (config : RequestIdentityConfig) (peer : SocketAddr)

theorem sourceIp_of_untrusted {peer : SocketAddr} (h : peer.ip ∉ config.trustedProxyIps)
    (headers : HeaderMap) : sourceIp config headers (some peer) = some peer.ip := by
  show (if peer.ip ∈ config.trustedProxyIps then some ((forwardedIp headers).getD peer.ip)
    else some peer.ip) = _
  exact if_neg h

theorem sourceIp_of_trusted {peer : SocketAddr} (h : peer.ip ∈ config.trustedProxyIps)
    (headers : HeaderMap) :
    sourceIp config headers (some peer) = some ((forwardedIp headers).getD peer.ip) := by
  show (if peer.ip ∈ config.trustedProxyIps then some ((forwardedIp headers).getD peer.ip)
    else some peer.ip) = _
  exact if_pos h

/-- The keys of the throttle depend on nothing but the address. -/
theorem SameBuckets.of_sourceIp (P : Primitives) (organizationId : OrganizationId)
    {headers headers' : RequestHeaders} (h : headers.sourceIp = headers'.sourceIp) :
    SameBuckets P organizationId headers headers' := by
  have hkey : ∀ kind purpose, sourceRateLimitKey P organizationId kind headers purpose =
      sourceRateLimitKey P organizationId kind headers' purpose := by
    intro kind purpose
    rw [sourceRateLimitKey, sourceRateLimitKey, h]
  constructor
  · rw [loginPreCredentialRateLimitKeys, hkey, loginPreCredentialRateLimitKeys]
  · intro userId
    rw [loginVerifiedUserRateLimitKeys, hkey, loginVerifiedUserRateLimitKeys]
  · rw [accountRecoveryRateLimitKeys, hkey, accountRecoveryRateLimitKeys]

/-- What a peer hands over of what a client sent. -/
def handedOver (config : RequestIdentityConfig) (peer : SocketAddr) (entry : ForwardedEntry)
    (sent : HeaderMap) : HeaderMap :=
  if peer.ip ∈ config.trustedProxyIps then entry.appendTo sent else sent

/-- A client is throttled by the address of its peer, or by the one a trusted proxy appends
    to a request without `X-Forwarded-For`. With one, the proxy is trusted with its first
    entry, then with `X-Real-IP`. -/
theorem client_address (P : Primitives) (organizationId : OrganizationId) :
    (peer.ip ∉ config.trustedProxyIps → ∀ headers,
      sourceIp config headers (some peer) = some peer.ip) ∧
    (peer.ip ∈ config.trustedProxyIps → ∀ sent,
      sourceIp config (entry.appendTo sent) (some peer) = some
        (if receivedForwardedFor sent = [] then entry.addr
        else ((claimedIp sent).or (realIp sent)).getD peer.ip)) ∧
    (∀ sent sent', (peer.ip ∈ config.trustedProxyIps →
        receivedForwardedFor sent = [] ∧ receivedForwardedFor sent' = []) →
      SameBuckets P organizationId
        (requestHeaders config (handedOver config peer entry sent) (some peer))
        (requestHeaders config (handedOver config peer entry sent') (some peer))) := by
  have htrusted : peer.ip ∈ config.trustedProxyIps → ∀ sent,
      sourceIp config (entry.appendTo sent) (some peer) = some
        (if receivedForwardedFor sent = [] then entry.addr
        else ((claimedIp sent).or (realIp sent)).getD peer.ip) := by
    intro hmem sent
    rw [sourceIp_of_trusted config hmem, entry.forwardedIp_appendTo]
    by_cases hnone : receivedForwardedFor sent = []
    · rw [if_pos hnone, if_pos hnone, Option.getD_some]
    · rw [if_neg hnone, if_neg hnone]
  refine ⟨fun hmem headers => sourceIp_of_untrusted config hmem headers, htrusted, ?_⟩
  intro sent sent' hnone
  apply SameBuckets.of_sourceIp
  show (sourceIp config _ (some peer)).map IpAddr.toString =
    (sourceIp config _ (some peer)).map IpAddr.toString
  by_cases hmem : peer.ip ∈ config.trustedProxyIps
  · obtain ⟨hsent, hsent'⟩ := hnone hmem
    rw [handedOver, if_pos hmem, handedOver, if_pos hmem, htrusted hmem, htrusted hmem,
      if_pos hsent, if_pos hsent']
  · rw [sourceIp_of_untrusted config hmem, sourceIp_of_untrusted config hmem]

namespace Sample

def ascii (text : String) : HeaderValue := text.toList.map fun c => UInt8.ofNat c.toNat

def behindProxy : RequestIdentityConfig := ⟨[.v4 #v[10, 0, 0, 1]]⟩

def proxy : SocketAddr := ⟨.v4 #v[10, 0, 0, 1], 443⟩

def contactedFrom : ForwardedEntry where
  value := ascii "198.51.100.7"
  addr := .v4 #v[198, 51, 100, 7]
  reads := by decide
  single := by decide

def claiming (address : String) : HeaderMap := [("x-forwarded-for", ascii address)]

end Sample

open Sample

theorem client_address_behindProxy :
    sourceIp behindProxy (contactedFrom.appendTo [("user-agent", ascii "curl")]) (some proxy) =
      some contactedFrom.addr ∧
    SameBuckets primitives 1
      (requestHeaders behindProxy (handedOver behindProxy proxy contactedFrom []) (some proxy))
      (requestHeaders behindProxy (handedOver behindProxy proxy contactedFrom
        [("user-agent", ascii "curl")]) (some proxy)) :=
  ⟨((client_address contactedFrom behindProxy proxy primitives 1).2.1
      (List.mem_singleton.mpr rfl) [("user-agent", ascii "curl")]).trans rfl,
    (client_address contactedFrom behindProxy proxy primitives 1).2.2 _ _ fun _ => ⟨rfl, rfl⟩⟩

/-- One client, two headers, two buckets, and neither is that of the appended address. -/
theorem forwarded_for_chooses_the_buckets :
    proxy.ip ∈ behindProxy.trustedProxyIps ∧
    sourceIp behindProxy (contactedFrom.appendTo (claiming "203.0.113.10")) (some proxy) =
      some (.v4 #v[203, 0, 113, 10]) ∧
    contactedFrom.addr ≠ .v4 #v[203, 0, 113, 10] ∧
    (loginPreCredentialRateLimitKeys primitives 1
      (requestHeaders behindProxy (contactedFrom.appendTo (claiming "203.0.113.10"))
        (some proxy))).map (·.key) ≠
      (loginPreCredentialRateLimitKeys primitives 1
        (requestHeaders behindProxy (contactedFrom.appendTo (claiming "203.0.113.11"))
          (some proxy))).map (·.key) ∧
    (accountRecoveryRateLimitKeys primitives 1
      (requestHeaders behindProxy (contactedFrom.appendTo (claiming "203.0.113.10"))
        (some proxy))).map (·.key) ≠
      (accountRecoveryRateLimitKeys primitives 1
        (requestHeaders behindProxy (contactedFrom.appendTo (claiming "203.0.113.11"))
          (some proxy))).map (·.key) := by
  refine ⟨List.mem_singleton.mpr rfl, ?_, ?_, ?_, ?_⟩
  all_goals decide

end CairnId
