import CairnId.Http.Authorize
import CairnId.Http.UrlencodedSpec

/-!
# What a redirect carries to the client

The parameters of an authorization response are read back from the query of the
redirect target, after those of the redirect URI's own query.

## Main definitions

- `responseParameters`, `errorParameters` — what a response should carry
- `Carries` — what the query of a target is decoded to

## Main results

- `redirect_responses_carry`
-/

namespace CairnId

/-- Visible ASCII and the blank, without the quote and the backslash. -/
def IsErrorText (c : Char) : Prop := 0x20 ≤ c.toNat ∧ c.toNat ≤ 0x7E ∧ c ≠ '"' ∧ c ≠ '\\'

instance (c : Char) : Decidable (IsErrorText c) := inferInstanceAs (Decidable (_ ∧ _))

def sanitized (description : String) : String :=
  String.ofList (description.toList.map fun c => if IsErrorText c then c else ' ')

def responseParameters (code : String) (state : Option String) (issuer : String) :
    List (String × String) :=
  [("code", code), ("iss", issuer)] ++ (state.map fun value => ("state", value)).toList

def errorParameters (error : String) (description state : Option String) (issuer : String) :
    List (String × String) :=
  [("error", error), ("iss", issuer)] ++
    (description.map fun text => ("error_description", sanitized text)).toList ++
    (state.map fun value => ("state", value)).toList

/-- The target is the redirect URI with more of a query, without a fragment, and the
    query is decoded to the pairs `own` and the parameters after them. -/
structure Carries (own : Option (List (String × String))) (redirectUri target : String)
    (parameters : List (String × String)) : Prop where
  starts : redirectUri.toList <+: target.toList
  noFragment : '#' ∉ target.toList
  decoded : ∀ pairs, own = some pairs →
    parseUrlEncodedPairs (uriQuery target) = some (pairs ++ parameters)

/-- The pairs before the parameters. An empty query counts as a pair. -/
def pairsBefore (redirectUri : String) : Option (List (String × String)) :=
  if '?' ∈ redirectUri.toList ∧ uriQuery redirectUri = "" then some [("", "")]
  else parseUrlEncodedPairs (uriQuery redirectUri)

theorem isOauthErrorTextCharacter_iff {c : Char} :
    isOauthErrorTextCharacter c = true ↔ IsErrorText c := by
  have hquote : c ≠ '"' ↔ c.toNat ≠ 0x22 := not_congr Char.toNat_inj.symm
  have hbackslash : c ≠ '\\' ↔ c.toNat ≠ 0x5C := not_congr Char.toNat_inj.symm
  simp only [isOauthErrorTextCharacter, IsErrorText, Bool.or_eq_true, Bool.and_eq_true,
    decide_eq_true_eq, hquote, hbackslash]
  omega

theorem oauthErrorDescription_eq (description : String) :
    oauthErrorDescription description = sanitized description := by
  have hchar : ∀ c : Char, (if isOauthErrorTextCharacter c then c else ' ') =
      if IsErrorText c then c else ' ' := fun c =>
    if_congr isOauthErrorTextCharacter_iff rfl rfl
  simp only [oauthErrorDescription, sanitized, hchar]

-- what is appended

theorem encodePair_eq {name : String} (h : name.toList.all isPkceUnreserved = true)
    (value : String) : encodePair (name, value) = name ++ "=" ++ percentEncodeMinimal value := by
  rw [encodePair, percentEncodeMinimal_of_unreserved h]

/-- One more parameter, if it is given. -/
theorem intercalate_optional {name : String} (h : name.toList.all isPkceUnreserved = true)
    {pairs : List (String × String)} (hne : pairs ≠ []) (value : Option String) :
    "&".intercalate ((pairs ++ (value.map fun v => (name, v)).toList).map encodePair) =
      "&".intercalate (pairs.map encodePair) ++
        (value.map fun v => "&" ++ name ++ "=" ++ percentEncodeMinimal v).getD "" := by
  cases value with
  | none => simp
  | some v =>
    have hmap : pairs.map encodePair ≠ [] := by simpa using hne
    show "&".intercalate ((pairs ++ [(name, v)]).map encodePair) = _
    rw [List.map_append, List.map_singleton, String.intercalate_append_of_ne_nil hmap (by simp),
      String.intercalate_singleton, encodePair_eq h]
    simp only [Option.map_some, Option.getD_some, String.append_assoc]

theorem intercalate_pair {name : String} (h : name.toList.all isPkceUnreserved = true)
    (value issuer : String) :
    "&".intercalate ([(name, value), ("iss", issuer)].map encodePair) =
      name ++ "=" ++ percentEncodeMinimal value ++ "&iss=" ++ percentEncodeMinimal issuer := by
  have hiss : encodePair ("iss", issuer) = "iss" ++ "=" ++ percentEncodeMinimal issuer :=
    encodePair_eq (by decide) issuer
  rw [List.map_cons, List.map_singleton, String.intercalate_cons_cons,
    String.intercalate_singleton, encodePair_eq h, hiss]
  simp only [String.append_assoc]
  rfl

theorem appendAuthorizationResponseParams_eq {code : String}
    (hcode : code.toList.all isPkceUnreserved = true) (redirectUri : String)
    (state : Option String) (issuer : String) :
    appendAuthorizationResponseParams redirectUri code state issuer =
      redirectUri ++ querySeparator redirectUri ++
        "&".intercalate ((responseParameters code state issuer).map encodePair) := by
  rw [responseParameters, intercalate_optional (by decide) (by simp), intercalate_pair (by decide),
    percentEncodeMinimal_of_unreserved hcode]
  simp only [appendAuthorizationResponseParams, stateParameter, String.append_assoc]
  rfl

theorem appendAuthorizationErrorResponseParams_eq (redirectUri error : String)
    (description state : Option String) (issuer : String) :
    appendAuthorizationErrorResponseParams redirectUri error description state issuer =
      redirectUri ++ querySeparator redirectUri ++
        "&".intercalate ((errorParameters error description state issuer).map encodePair) := by
  have hdescription : (description.map fun text => ("error_description", sanitized text)) =
      (description.map oauthErrorDescription).map fun text => ("error_description", text) := by
    rw [Option.map_map]
    exact congrArg (Option.map · description)
      (funext fun text => by rw [Function.comp_apply, oauthErrorDescription_eq])
  rw [errorParameters, hdescription, intercalate_optional (by decide) (by simp),
    intercalate_optional (by decide) (by simp), intercalate_pair (by decide), Option.map_map]
  simp only [appendAuthorizationErrorResponseParams, stateParameter, descriptionParameter,
    String.append_assoc]
  rfl

-- what is decoded

/-- The query of a target, with what stands before it. -/
theorem decoded_of_query {redirectUri text : String} {parameters pairs : List (String × String)}
    (htext : text.toList ≠ []) (hparameters : parsePairs text.toList = some parameters)
    (hpairs : pairsBefore redirectUri = some pairs) :
    parseUrlEncodedPairs (uriQuery (redirectUri ++ querySeparator redirectUri ++ text)) =
      some (pairs ++ parameters) := by
  by_cases hquery : '?' ∈ redirectUri.toList
  · obtain ⟨before, query, hsplit, hbefore⟩ := List.eq_append_cons_of_mem hquery
    have huri : uriQuery redirectUri = String.ofList query := by
      rw [uriQuery, hsplit, splitOnceChars_append hbefore]
      rfl
    have hseparator : querySeparator redirectUri = "&" :=
      if_pos (List.contains_iff_mem.mpr hquery)
    have htarget : (redirectUri ++ querySeparator redirectUri ++ text).toList =
        before ++ '?' :: (query ++ '&' :: text.toList) := by
      rw [hseparator, String.toList_append, String.toList_append, hsplit]
      simp
    have hquery' : uriQuery (redirectUri ++ querySeparator redirectUri ++ text) =
        String.ofList (query ++ '&' :: text.toList) := by
      rw [uriQuery, htarget, splitOnceChars_append hbefore]
      rfl
    have hown : parsePairs query = some pairs := by
      rw [pairsBefore, huri] at hpairs
      by_cases hempty : query = []
      · subst hempty
        rw [if_pos ⟨hquery, rfl⟩] at hpairs
        rw [parsePairs_nil, hpairs]
      · have hne : String.ofList query ≠ "" := fun heq => hempty (by
          rw [← String.toList_ofList (l := query), heq]
          rfl)
        rw [if_neg fun h => hne h.2, parseUrlEncodedPairs_of_ne_nil
          (by rwa [String.toList_ofList]), String.toList_ofList] at hpairs
        exact hpairs
    rw [hquery', parseUrlEncodedPairs_of_ne_nil (by simp), String.toList_ofList,
      parsePairs_append, hown, hparameters]
    rfl
  · have hseparator : querySeparator redirectUri = "?" :=
      if_neg fun h => hquery (List.contains_iff_mem.mp h)
    have hown : pairs = [] := by
      rw [pairsBefore, if_neg fun h => hquery h.1, uriQuery_of_notMem hquery] at hpairs
      exact (Option.some.inj hpairs).symm
    rw [hseparator, uriQuery_append hquery, hown, List.nil_append,
      parseUrlEncodedPairs_of_ne_nil htext, hparameters]

theorem carries_intercalate {redirectUri : String} (hfragment : '#' ∉ redirectUri.toList)
    {parameters : List (String × String)} (hne : parameters ≠ []) :
    Carries (pairsBefore redirectUri) redirectUri
      (redirectUri ++ querySeparator redirectUri ++
        "&".intercalate (parameters.map encodePair)) parameters where
  starts := by
    rw [String.append_assoc, String.toList_append]
    exact List.prefix_append _ _
  noFragment := by
    have htext := notMem_intercalate_encodePair (c := '#') (by decide) (by decide) (by decide)
      parameters
    have hseparator : '#' ∉ (querySeparator redirectUri).toList := by
      unfold querySeparator
      split <;> decide
    simp only [String.toList_append, List.mem_append, not_or]
    exact ⟨⟨hfragment, hseparator⟩, htext⟩
  decoded _ hpairs :=
    decoded_of_query (intercalate_encodePair_ne_nil hne) (parsePairs_intercalate hne) hpairs

theorem carries_response {redirectUri code : String} (hfragment : '#' ∉ redirectUri.toList)
    (hcode : code.toList.all isPkceUnreserved = true) (state : Option String) (issuer : String) :
    Carries (pairsBefore redirectUri) redirectUri
      (appendAuthorizationResponseParams redirectUri code state issuer)
      (responseParameters code state issuer) := by
  rw [appendAuthorizationResponseParams_eq hcode]
  exact carries_intercalate hfragment (by simp [responseParameters])

/-- **Redirects carry exactly their parameters**, after the pairs of the redirect URI's
    own query, or after an empty pair where that query is empty. -/
theorem redirect_responses_carry {redirectUri code : String}
    (hfragment : '#' ∉ redirectUri.toList) (hcode : code.toList.all isPkceUnreserved = true)
    (error issuer : String) (description state : Option String) :
    Carries (pairsBefore redirectUri) redirectUri
      (appendAuthorizationResponseParams redirectUri code state issuer)
      (responseParameters code state issuer) ∧
    Carries (pairsBefore redirectUri) redirectUri
      (appendAuthorizationErrorResponseParams redirectUri error description state issuer)
      (errorParameters error description state issuer) := by
  refine ⟨carries_response hfragment hcode state issuer, ?_⟩
  rw [appendAuthorizationErrorResponseParams_eq]
  exact carries_intercalate hfragment (by simp [errorParameters])

namespace Sample

/-- A redirect URI with a query of its own. -/
def callback : String := "https://app.example.com/callback?x=1"

/-- A redirect URI with an empty query. -/
def emptyQueryCallback : String := "https://app.example.com/callback?"

def identityIssuer : String := "https://id.example.com"

end Sample

open Sample in
theorem redirect_responses_carry_callback :
    Carries (pairsBefore callback) callback
      (appendAuthorizationResponseParams callback "code" (some "a&b") identityIssuer)
      (responseParameters "code" (some "a&b") identityIssuer) ∧
    Carries (pairsBefore callback) callback
      (appendAuthorizationErrorResponseParams callback "invalid_scope" (some "invalid scope")
        (some "a&b") identityIssuer)
      (errorParameters "invalid_scope" (some "invalid scope") (some "a&b") identityIssuer) :=
  redirect_responses_carry (by decide) (by decide) "invalid_scope" identityIssuer
    (some "invalid scope") (some "a&b")

open Sample in
/-- The empty query has no pairs, but one comes before the parameters. -/
theorem empty_query_gives_a_pair :
    parseUrlEncodedPairs (uriQuery emptyQueryCallback) = some [] ∧
      ¬Carries (parseUrlEncodedPairs (uriQuery emptyQueryCallback)) emptyQueryCallback
        (appendAuthorizationResponseParams emptyQueryCallback "code" none identityIssuer)
        (responseParameters "code" none identityIssuer) := by
  have hempty : uriQuery emptyQueryCallback = "" := by decide
  have hown : parseUrlEncodedPairs (uriQuery emptyQueryCallback) = some [] := by
    rw [hempty]
    rfl
  refine ⟨hown, fun hcarries => ?_⟩
  have hclaimed := hcarries.decoded _ hown
  have hbefore : pairsBefore emptyQueryCallback = some [("", "")] :=
    if_pos ⟨by decide, hempty⟩
  have hdecoded := (carries_response (by decide : '#' ∉ emptyQueryCallback.toList)
    (by decide : "code".toList.all isPkceUnreserved = true) none identityIssuer).decoded _ hbefore
  rw [hclaimed] at hdecoded
  exact absurd (congrArg List.length (Option.some.inj hdecoded)) (by decide)

end CairnId
