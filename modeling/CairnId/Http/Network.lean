import CairnId.Http.Request

/-!
# The address a request comes from

IP addresses as the standard library reads and writes them, and the address that
stands for the client: the peer of the socket, or what a trusted proxy forwards.

## Main definitions

- `IpAddr`, `IpAddr.parse`, `IpAddr.toString`
- `HeaderMap`, `headerFirstValue`
- `sourceIp`, `requestHeaders`
-/

namespace CairnId

inductive IpAddr where
  | v4 (octets : Vector UInt8 4)
  | v6 (segments : Vector UInt16 8)
  deriving DecidableEq

structure SocketAddr where
  ip : IpAddr
  port : UInt16

-- core::net::parser

namespace IpAddr

/-- What is read and what is left of the text. -/
abbrev Parsed (α : Type) := Option (α × List Char)

/-- `char::to_digit`. -/
def toDigit (radix : Nat) (c : Char) : Option Nat :=
  let n := c.toNat
  let digit :=
    if 0x30 ≤ n ∧ n ≤ 0x39 then some (n - 0x30)
    else if 0x61 ≤ n ∧ n ≤ 0x7A then some (n - 0x61 + 10)
    else if 0x41 ≤ n ∧ n ≤ 0x5A then some (n - 0x41 + 10)
    else none
  digit.filter (· < radix)

/-- At most `maxDigits` digits of a number below `bound`. -/
def readNumber (radix maxDigits bound : Nat) (allowZeroPrefix : Bool) (cs : List Char) :
    Parsed Nat :=
  let digits := cs.takeWhile fun c => (toDigit radix c).isSome
  let value := digits.foldl (fun n c => n * radix + (toDigit radix c).getD 0) 0
  if digits = [] ∨ maxDigits < digits.length then none
  else if !allowZeroPrefix && digits.head? = some '0' && 1 < digits.length then none
  else if value < bound then some (value, cs.drop digits.length)
  else none

/-- No separator stands before the first item. -/
def readSeparator {α : Type} (sep : Char) (index : Nat) (inner : List Char → Parsed α)
    (cs : List Char) : Parsed α :=
  if index = 0 then inner cs
  else match cs with
    | c :: rest => if c = sep then inner rest else none
    | [] => none

/-- Octal numbers are not allowed. -/
def readOctet (index : Nat) : List Char → Parsed Nat :=
  readSeparator '.' index (readNumber 10 3 256 false)

def readIpv4Addr (cs : List Char) : Parsed (Vector UInt8 4) :=
  (readOctet 0 cs).bind fun (first, cs) =>
  (readOctet 1 cs).bind fun (second, cs) =>
  (readOctet 2 cs).bind fun (third, cs) =>
  (readOctet 3 cs).map fun (fourth, cs) =>
  (#v[first.toUInt8, second.toUInt8, third.toUInt8, fourth.toUInt8], cs)

def readGroup (index : Nat) : List Char → Parsed Nat :=
  readSeparator ':' index (readNumber 16 4 65536 true)

/-- `u16::from_be_bytes`. -/
def fromBeBytes (high low : UInt8) : UInt16 := UInt16.ofNat (high.toNat * 256 + low.toNat)

/-- The groups read, whether the last two were an IPv4 address, and what is left. The
    second argument counts the groups there is still room for. -/
def readGroups (limit : Nat) : Nat → List Char → List UInt16 × Bool × List Char
  | 0, cs => ([], false, cs)
  | room + 1, cs =>
    let index := limit - (room + 1)
    match if 0 < room then readSeparator ':' index readIpv4Addr cs else none with
    | some (octets, rest) =>
      ([fromBeBytes octets[0] octets[1], fromBeBytes octets[2] octets[3]], true, rest)
    | none =>
      match readGroup index cs with
      | some (group, rest) =>
        let (groups, isIpv4, rest) := readGroups limit room rest
        (group.toUInt16 :: groups, isIpv4, rest)
      | none => ([], false, cs)

def ofGroups (groups : List UInt16) : Vector UInt16 8 :=
  Vector.ofFn fun i => groups.getD i 0

def readIpv6Addr (cs : List Char) : Parsed (Vector UInt16 8) :=
  let (head, headIpv4, cs) := readGroups 8 8 cs
  if head.length = 8 then some (ofGroups head, cs)
  -- the IPv4 part is not allowed before `::`
  else if headIpv4 then none
  else match cs with
    | ':' :: ':' :: cs =>
      let limit := 8 - (head.length + 1)
      let (tail, _, cs) := readGroups limit limit cs
      some (ofGroups (head ++ List.replicate (8 - head.length - tail.length) 0 ++ tail), cs)
    | _ => none

def readIpAddr (cs : List Char) : Parsed IpAddr :=
  match readIpv4Addr cs with
  | some (octets, rest) => some (.v4 octets, rest)
  | none => (readIpv6Addr cs).map fun read => (.v6 read.1, read.2)

/-- `IpAddr::from_str`. -/
def parse (value : String) : Option IpAddr :=
  match readIpAddr value.toList with
  | some (addr, []) => some addr
  | _ => none

-- core::fmt::Display

def dotted (octets : List Nat) : String := ".".intercalate (octets.map fun n => toString n)

/-- `fmt_subslice`. -/
def colons (segments : List UInt16) : String :=
  ":".intercalate (segments.map fun s => String.ofList (Nat.toDigits 16 s.toNat))

/-- The start and the length of the first of the longest runs of zeros. -/
def zeroSpan (segments : List UInt16) : Nat × Nat :=
  let runs := (List.range segments.length).map fun i =>
    (i, ((segments.drop i).takeWhile (· = 0)).length)
  runs.foldl (fun longest run => if longest.2 < run.2 then run else longest) (0, 0)

def ipv6ToString (segments : List UInt16) : String :=
  if segments.take 6 = [0, 0, 0, 0, 0, 0xFFFF] then
    "::ffff:" ++ dotted ((segments.drop 6).flatMap fun s => [s.toNat / 256, s.toNat % 256])
  else
    let (start, length) := zeroSpan segments
    if 1 < length then
      colons (segments.take start) ++ "::" ++ colons (segments.drop (start + length))
    else colons segments

def toString : IpAddr → String
  | .v4 octets => dotted (octets.toList.map (·.toNat))
  | .v6 segments => ipv6ToString segments.toList

/-- Hexadecimal digits and the two separators. -/
def isAddressChar (c : Char) : Bool := (toDigit 16 c).isSome || c = '.' || c = ':'

theorem isAddressChar_toDigits {b : ℕ} (hb : 1 < b) (hbound : b ≤ 16) (n : ℕ) :
    ∀ c ∈ Nat.toDigits b n, isAddressChar c = true := by
  have hdigit : ∀ d < 16, isAddressChar d.digitChar = true := by decide
  induction n using Nat.strong_induction_on with
  | _ n ih =>
    intro c hc
    rw [Nat.toDigits_eq_if hb] at hc
    by_cases hn : n < b
    · rw [if_pos hn, List.mem_singleton] at hc
      rw [hc]
      exact hdigit n (by omega)
    · rw [if_neg hn, List.mem_append, List.mem_singleton] at hc
      rcases hc with hc | rfl
      · exact ih (n / b) (Nat.div_lt_self (by omega) hb) c hc
      · exact hdigit (n % b) (by have := Nat.mod_lt n (show 0 < b by omega); omega)

theorem isAddressChar_intercalate {sep : String} {parts : List String}
    (hsep : ∀ c ∈ sep.toList, isAddressChar c = true)
    (hparts : ∀ part ∈ parts, ∀ c ∈ part.toList, isAddressChar c = true) :
    ∀ c ∈ (sep.intercalate parts).toList, isAddressChar c = true := by
  induction parts with
  | nil =>
    intro c hc
    rw [String.intercalate_nil] at hc
    exact absurd hc List.not_mem_nil
  | cons part parts ih =>
    have hpart := hparts part List.mem_cons_self
    have hrest := ih fun other hother => hparts other (List.mem_cons_of_mem part hother)
    intro c hc
    by_cases hne : parts = []
    · rw [hne, String.intercalate_singleton] at hc
      exact hpart c hc
    · rw [String.intercalate_cons_of_ne_nil hne, String.toList_append, String.toList_append,
        List.mem_append, List.mem_append] at hc
      rcases hc with (hc | hc) | hc
      · exact hpart c hc
      · exact hsep c hc
      · exact hrest c hc

theorem isAddressChar_dotted (octets : List ℕ) :
    ∀ c ∈ (dotted octets).toList, isAddressChar c = true := by
  refine isAddressChar_intercalate (List.all_eq_true.mp (by decide)) fun part hpart => ?_
  obtain ⟨n, -, rfl⟩ := List.mem_map.mp hpart
  have hdigits : (ToString.toString n).toList = Nat.toDigits 10 n := Nat.toList_repr
  rw [hdigits]
  exact isAddressChar_toDigits (by decide) (by decide) n

theorem isAddressChar_colons (segments : List UInt16) :
    ∀ c ∈ (colons segments).toList, isAddressChar c = true := by
  refine isAddressChar_intercalate (List.all_eq_true.mp (by decide)) fun part hpart => ?_
  obtain ⟨segment, -, rfl⟩ := List.mem_map.mp hpart
  rw [String.toList_ofList]
  exact isAddressChar_toDigits (by decide) (by decide) segment.toNat

theorem isAddressChar_toString (addr : IpAddr) :
    ∀ c ∈ addr.toString.toList, isAddressChar c = true := by
  cases addr with
  | v4 octets => exact isAddressChar_dotted _
  | v6 segments =>
    have hbegins : ∀ c ∈ "::ffff:".toList, isAddressChar c = true :=
      List.all_eq_true.mp (by decide)
    have hgap : ∀ c ∈ "::".toList, isAddressChar c = true := List.all_eq_true.mp (by decide)
    intro c hc
    rw [toString, ipv6ToString] at hc
    dsimp only at hc
    split at hc
    · rw [String.toList_append, List.mem_append] at hc
      exact hc.elim (hbegins c) (isAddressChar_dotted _ c)
    · split at hc
      · rw [String.toList_append, String.toList_append, List.mem_append, List.mem_append] at hc
        rcases hc with (hc | hc) | hc
        · exact isAddressChar_colons _ c hc
        · exact hgap c hc
        · exact isAddressChar_colons _ c hc
      · exact isAddressChar_colons _ c hc

end IpAddr

-- http

/-- The bytes of a header line. -/
abbrev HeaderValue := List UInt8

/-- The lines in their order, under the names in lower case. -/
abbrev HeaderMap := List (String × HeaderValue)

def isVisibleByte (b : UInt8) : Bool := (32 ≤ b && b < 127) || b = 9

/-- `HeaderValue::to_str`. -/
def HeaderValue.toStr (value : HeaderValue) : Option String :=
  if value.all isVisibleByte then
    some (String.ofList (value.map fun b => Char.ofNat b.toNat))
  else none

/-- `HeaderMap::get` gives the first line of that name. -/
def HeaderMap.get (headers : HeaderMap) (name : String) : Option HeaderValue :=
  (headers.find? fun line => line.1 = name).map (·.2)

def headerFirstValue (headers : HeaderMap) (name : String) : Option String :=
  (headers.get name).bind HeaderValue.toStr

-- request_context/network

structure RequestIdentityConfig where
  trustedProxyIps : List IpAddr

def parseIp (value : String) : Option IpAddr := IpAddr.parse (trim value)

def firstForwardedForIp (value : String) : Option IpAddr :=
  (splitAt ',' value).head?.bind parseIp

def forwardedIp (headers : HeaderMap) : Option IpAddr :=
  ((headerFirstValue headers "x-forwarded-for").bind firstForwardedForIp).or
    ((headerFirstValue headers "x-real-ip").bind parseIp)

def sourceIp (config : RequestIdentityConfig) (headers : HeaderMap)
    (peerAddr : Option SocketAddr) : Option IpAddr := do
  let peerIp ← peerAddr.map (·.ip)
  if peerIp ∈ config.trustedProxyIps then return (forwardedIp headers).getD peerIp
  else return peerIp

/-- What the handlers read of a request. -/
def requestHeaders (config : RequestIdentityConfig) (headers : HeaderMap)
    (peerAddr : Option SocketAddr) : RequestHeaders where
  cookie := headerFirstValue headers "cookie"
  csrf := headerFirstValue headers "x-cairn-csrf"
  userAgent := headerFirstValue headers "user-agent"
  sourceIp := (sourceIp config headers peerAddr).map IpAddr.toString

def accountRecoveryRateLimitKeys (P : Primitives) (organizationId : OrganizationId)
    (headers : RequestHeaders) : List RateLimitKey :=
  [sourceRateLimitKey P organizationId "account-recovery" headers "account.recovery.ip"]

end CairnId
