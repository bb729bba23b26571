import CairnId.Http.AuthorizeSpec
import CairnId.Http.Pagination
import CairnId.Http.UrlencodedSpec

/-!
# The URL that leads back to a request

The authorize URL of a request is parsed back to the request, so two requests with the
same URL are the same up to blanks around the prompt.

## Main definitions

- `AuthorizationRequest.returned` — a request after the detour over the URL

## Main results

- `authorize_url_faithful`
-/

namespace CairnId

-- words

/-- `split_whitespace` on lists of characters. -/
def words (cs : List Char) : List (List Char) :=
  if (splitWords cs).1.isEmpty then (splitWords cs).2 else (splitWords cs).1 :: (splitWords cs).2

theorem splitWhitespace_eq (value : String) :
    splitWhitespace value = (words value.toList).map String.ofList := rfl

theorem words_cons_blank {c : Char} (hc : isWhiteSpace c = true) (cs : List Char) :
    words (c :: cs) = words cs := by
  have hsplit : splitWords (c :: cs) = ([], words cs) := if_pos hc
  rw [words, hsplit]
  rfl

theorem splitWords_append_blank {c : Char} (hc : isWhiteSpace c = true) (cs : List Char) :
    splitWords (cs ++ [c]) = splitWords cs := by
  induction cs with
  | nil => exact if_pos hc
  | cons d cs ih => rw [List.cons_append, splitWords, splitWords, ih]

theorem splitWords_append {word : List Char} (hword : ∀ c ∈ word, isWhiteSpace c = false)
    {c : Char} (hc : isWhiteSpace c = true) (cs : List Char) :
    splitWords (word ++ c :: cs) = (word, words cs) := by
  induction word with
  | nil => exact if_pos hc
  | cons d word ih =>
    have hd : ¬isWhiteSpace d = true := by simp [hword d (.head _)]
    rw [List.cons_append, splitWords, ih fun e he => hword e (.tail _ he)]
    exact if_neg hd

theorem splitWords_of_word {word : List Char} (hword : ∀ c ∈ word, isWhiteSpace c = false) :
    splitWords word = (word, []) := by
  induction word with
  | nil => rfl
  | cons d word ih =>
    have hd : ¬isWhiteSpace d = true := by simp [hword d (.head _)]
    rw [splitWords, ih fun e he => hword e (.tail _ he)]
    exact if_neg hd

/-- A word has characters, and none of them is blank. -/
def IsWord (word : String) : Prop := word ≠ "" ∧ ∀ c ∈ word.toList, isWhiteSpace c = false

theorem mem_words {cs word : List Char} (h : word ∈ words cs) :
    (word = (splitWords cs).1 ∧ word ≠ []) ∨ word ∈ (splitWords cs).2 := by
  unfold words at h
  by_cases hempty : (splitWords cs).1 = []
  · rw [hempty] at h
    exact .inr h
  · rw [if_neg (by simpa using hempty)] at h
    obtain rfl | h := List.mem_cons.mp h
    · exact .inl ⟨rfl, hempty⟩
    · exact .inr h

/-- What `split_words` has found so far is free of blanks. -/
theorem notBlank_splitWords (cs : List Char) :
    (∀ c ∈ (splitWords cs).1, isWhiteSpace c = false) ∧
      ∀ word ∈ (splitWords cs).2, word ≠ [] ∧ ∀ c ∈ word, isWhiteSpace c = false := by
  induction cs with
  | nil => simp [splitWords]
  | cons c cs ih =>
    obtain ⟨hfirst, hrest⟩ := ih
    by_cases hc : isWhiteSpace c = true
    · have hsplit : splitWords (c :: cs) = ([], words cs) := if_pos hc
      rw [hsplit]
      refine ⟨by simp, fun word hword => ?_⟩
      obtain ⟨rfl, hne⟩ | hword := mem_words hword
      · exact ⟨hne, hfirst⟩
      · exact hrest word hword
    · have hsplit : splitWords (c :: cs) = (c :: (splitWords cs).1, (splitWords cs).2) :=
        if_neg hc
      rw [hsplit]
      exact ⟨List.forall_mem_cons.mpr ⟨by simpa using hc, hfirst⟩, hrest⟩

theorem isWord_of_mem {value word : String} (h : word ∈ splitWhitespace value) : IsWord word := by
  rw [splitWhitespace_eq, List.mem_map] at h
  obtain ⟨chars, hchars, rfl⟩ := h
  obtain ⟨hfirst, hrest⟩ := notBlank_splitWords value.toList
  have hword : chars ≠ [] ∧ ∀ c ∈ chars, isWhiteSpace c = false := by
    obtain ⟨rfl, hne⟩ | hmem := mem_words hchars
    · exact ⟨hne, hfirst⟩
    · exact hrest chars hmem
  refine ⟨fun hnil => hword.1 ?_, ?_⟩
  · rw [← String.toList_ofList (l := chars), hnil]
    rfl
  · rw [String.toList_ofList]
    exact hword.2

/-- Words with a blank between them are found again. -/
theorem splitWhitespace_intercalate {values : List String} (h : ∀ word ∈ values, IsWord word) :
    splitWhitespace (" ".intercalate values) = values := by
  induction values with
  | nil => rfl
  | cons word values ih =>
    obtain ⟨hne, hchars⟩ := h word (.head _)
    have hlist : word.toList ≠ [] := fun hnil => hne (String.toList_eq_nil_iff.mp hnil)
    by_cases hvalues : values = []
    · subst hvalues
      rw [String.intercalate_singleton, splitWhitespace_eq, words, splitWords_of_word hchars,
        if_neg (by simpa using hlist), List.map_singleton, String.ofList_toList]
    · have htext : (" ".intercalate (word :: values)).toList =
          word.toList ++ ' ' :: (" ".intercalate values).toList := by
        rw [String.intercalate_cons_of_ne_nil hvalues, String.toList_append, String.toList_append,
          List.append_assoc]
        rfl
      rw [splitWhitespace_eq, words, htext, splitWords_append hchars (by decide),
        if_neg (by simpa using hlist), List.map_cons, String.ofList_toList, ← splitWhitespace_eq,
        ih fun w hw => h w (.tail _ hw)]

theorem words_dropWhile (cs : List Char) : words (cs.dropWhile isWhiteSpace) = words cs := by
  induction cs with
  | nil => rfl
  | cons c cs ih =>
    by_cases hc : isWhiteSpace c = true
    · rw [List.dropWhile_cons_of_pos hc, ih, words_cons_blank hc]
    · rw [List.dropWhile_cons_of_neg hc]

theorem words_rdropWhile (cs : List Char) :
    words (cs.reverse.dropWhile isWhiteSpace).reverse = words cs := by
  induction cs using List.reverseRecOn with
  | nil => rfl
  | append_singleton cs c ih =>
    rw [List.reverse_append, List.reverse_singleton, List.singleton_append]
    by_cases hc : isWhiteSpace c = true
    · rw [List.dropWhile_cons_of_pos hc, ih, words, words, splitWords_append_blank hc]
    · rw [List.dropWhile_cons_of_neg hc, List.reverse_cons, List.reverse_reverse]

/-- Trimming leaves the words. -/
theorem splitWhitespace_trim (value : String) :
    splitWhitespace (trim value) = splitWhitespace value := by
  rw [splitWhitespace_eq, splitWhitespace_eq, trim_toList, words_rdropWhile, words_dropWhile]

-- the prompt

/-- The words of a prompt that need not be there. -/
def promptWords (prompt : Option String) : List String := splitWhitespace (prompt.getD "")

/-- Words as a prompt, which is left out without any. -/
def joinedWords (values : List String) : Option String :=
  if values = [] then none else some (" ".intercalate values)

theorem promptWords_joinedWords {values : List String} (h : ∀ word ∈ values, IsWord word) :
    promptWords (joinedWords values) = values := by
  by_cases hnil : values = []
  · subst hnil
    rfl
  · rw [joinedWords, if_neg hnil]
    exact splitWhitespace_intercalate h

theorem authorizeUrlPrompt_preserve (prompt : Option String) :
    authorizeUrlPrompt prompt .preserve = trimmedNonempty prompt := by
  unfold authorizeUrlPrompt
  cases trimmedNonempty prompt <;> rfl

theorem promptWords_trimmedNonempty (prompt : Option String) :
    promptWords (trimmedNonempty prompt) = promptWords prompt := by
  cases prompt with
  | none => rfl
  | some value =>
    rw [trimmedNonempty_some]
    have htrim : promptWords (some value) = splitWhitespace (trim value) :=
      (splitWhitespace_trim value).symm
    by_cases hblank : trim value = ""
    · rw [if_pos hblank, htrim, hblank]
      rfl
    · rw [if_neg hblank, htrim]
      rfl

theorem authorizeUrlPrompt_removed {mode : AuthorizeUrlPromptMode} {removed : String}
    (hmode : mode.removed = some removed) (prompt : Option String) :
    authorizeUrlPrompt prompt mode = joinedWords ((promptWords prompt).filter (· ≠ removed)) := by
  rw [← promptWords_trimmedNonempty]
  unfold authorizeUrlPrompt
  rw [hmode]
  cases htrimmed : trimmedNonempty prompt with
  | none => rfl
  | some value =>
    show (if ((splitWhitespace value).filter (· ≠ removed)).isEmpty then none
      else some (" ".intercalate ((splitWhitespace value).filter (· ≠ removed)))) = _
    simp only [List.isEmpty_iff]
    rfl

-- the parameters

/-- From -2⁶³ to 2⁶³ - 1. -/
def IsI64 (n : Int) : Prop := -2 ^ 63 ≤ n ∧ n < 2 ^ 63

theorem parseI64_eq (value : String) :
    parseI64 value = (parseSigned value.toList).bind fun n : Int =>
      if -2 ^ 63 ≤ n ∧ n < 2 ^ 63 then some n else none := by
  unfold parseI64
  split
  rename_i negative digits hsign
  have hparse : parseSigned value.toList = if digits.isEmpty then none
      else (parseDigits 0 digits).map fun n => if negative then -(n : Int) else n := by
    unfold parseSigned
    split
    rename_i negative' digits' hsign'
    have hsame : (negative, digits) = (negative', digits') := hsign.symm.trans hsign'
    obtain ⟨rfl, rfl⟩ := Prod.mk.inj hsame
    rfl
  rw [hparse]
  by_cases hempty : digits.isEmpty = true
  · rw [if_pos hempty, if_pos hempty]
    rfl
  · rw [if_neg hempty, if_neg hempty]
    cases parseDigits 0 digits <;> rfl

theorem parseI64_toString {n : Int} (h : IsI64 n) : parseI64 (toString n) = some n := by
  rw [parseI64_eq, parseSigned_toString]
  exact if_pos h

theorem parameter_append_optional (pairs : List (String × String)) (key : String)
    (value : Option String) (name : String) :
    parameter (pairs ++ (value.map fun value => (key, value)).toList) name =
      if key = name then value.or (parameter pairs name) else parameter pairs name := by
  cases value with
  | none =>
    rw [Option.map_none, Option.toList_none, List.append_nil, Option.none_or, ite_self]
  | some v => exact parameter_concat pairs (key, v) name

/-- A request after the detour over its URL. -/
def AuthorizationRequest.returned (request : AuthorizationRequest) (prompt : Option String) :
    AuthorizationRequest :=
  { request with prompt := prompt, request := none, requestUri := none }

theorem ofParameters_authorizeUrlParameters {request : AuthorizationRequest}
    (hmax : ∀ n, request.maxAge = some n → IsI64 n) (mode : AuthorizeUrlPromptMode) :
    AuthorizationRequest.ofParameters (parameter (authorizeUrlParameters request mode)) =
      request.returned (authorizeUrlPrompt request.prompt mode) := by
  have hage : ((request.maxAge.map toString).bind parseI64) = request.maxAge := by
    cases hn : request.maxAge with
    | none => rfl
    | some n => exact parseI64_toString (hmax n hn)
  have hbase : ∀ name, parameter [("response_type", request.responseType),
      ("client_id", request.clientId), ("redirect_uri", request.redirectUri),
      ("scope", request.scope)] name =
      if "scope" = name then some request.scope
      else if "redirect_uri" = name then some request.redirectUri
      else if "client_id" = name then some request.clientId
      else if "response_type" = name then some request.responseType else none := by
    intro name
    simp only [parameter, List.reverse_cons, List.reverse_nil, List.nil_append, List.cons_append,
      List.find?_cons, List.find?_nil]
    split_ifs <;> simp_all
  have hparameter : ∀ name, parameter (authorizeUrlParameters request mode) name = _ := fun name => by
    simp only [authorizeUrlParameters, parameter_append_optional, hbase]
    rfl
  simp only [AuthorizationRequest.ofParameters, hparameter]
  simp [AuthorizationRequest.returned, hage]

-- reading the parameters

/-- The names in the order of the URL. -/
def authorizeUrlNames : List String :=
  ["response_type", "client_id", "redirect_uri", "scope"] ++ ["state"] ++ ["nonce"] ++
    ["display"] ++ ["acr_values"] ++ ["ui_locales"] ++ ["claims_locales"] ++ ["max_age"] ++
    ["response_mode"] ++ ["prompt"] ++ ["login_hint"] ++ ["claims"] ++ ["code_challenge"] ++
    ["code_challenge_method"]

theorem sublist_authorizeUrlNames (request : AuthorizationRequest)
    (mode : AuthorizeUrlPromptMode) :
    ((authorizeUrlParameters request mode).map Prod.fst).Sublist authorizeUrlNames := by
  have hoptional : ∀ (name : String) (value : Option String),
      ((value.map fun value => (name, value)).toList.map Prod.fst).Sublist [name] := by
    intro name value
    cases value with
    | none => exact List.nil_sublist _
    | some v => exact List.Sublist.refl _
  have hbase : [("response_type", request.responseType), ("client_id", request.clientId),
      ("redirect_uri", request.redirectUri), ("scope", request.scope)].map Prod.fst =
      ["response_type", "client_id", "redirect_uri", "scope"] := rfl
  simp only [authorizeUrlParameters, authorizeUrlNames, List.map_append, hbase]
  repeat' apply List.Sublist.append
  · exact List.Sublist.refl _
  all_goals exact hoptional _ _

theorem firstDuplicate_of_nodup {seen : List String} {pairs : List (String × String)}
    (hnodup : (pairs.map Prod.fst).Nodup) (hseen : ∀ p ∈ pairs, p.1 ∉ seen) :
    firstDuplicate seen pairs = none := by
  induction pairs generalizing seen with
  | nil => rfl
  | cons p pairs ih =>
    obtain ⟨name, value⟩ := p
    rw [List.map_cons, List.nodup_cons] at hnodup
    have hrest : ∀ p ∈ pairs, p.1 ∉ seen := fun p hp => hseen p (.tail _ hp)
    rw [firstDuplicate]
    by_cases hname : name ∉ authorizationRequestParameters
    · rw [if_pos hname]
      exact ih hnodup.2 hrest
    · have hnew : ¬seen.contains name = true := by simpa using hseen (name, value) (.head _)
      rw [if_neg hname, if_neg hnew]
      refine ih hnodup.2 fun p hp hmem => ?_
      obtain hmem | heq := List.mem_append.mp hmem
      · exact hrest p hp hmem
      · exact hnodup.1 (List.mem_map.mpr ⟨p, hp, List.mem_singleton.mp heq⟩)

/-- The only parameter that may be unreadable is a `max_age`. -/
theorem AuthorizationRequest.assign_readable
    {r : AuthorizationRequest × Option AuthorizationError} {p : String × String} (hr : r.2 = none)
    (h : p.1 = "max_age" → (parseI64 p.2).isSome) : (assign r p).2 = none := by
  obtain ⟨name, value⟩ := p
  unfold assign
  dsimp only
  split
  case h_7 =>
    obtain ⟨n, hn⟩ := Option.isSome_iff_exists.mp (h rfl)
    rw [hn]
    exact hr
  all_goals exact hr

theorem authorizationRequestFromQueryPairs_readable {pairs : List (String × String)}
    (h : ∀ p ∈ pairs, p.1 = "max_age" → (parseI64 p.2).isSome) :
    (authorizationRequestFromQueryPairs pairs).2 = none := by
  have hfold : ∀ r : AuthorizationRequest × Option AuthorizationError, r.2 = none →
      (pairs.foldl AuthorizationRequest.assign r).2 = none := by
    induction pairs with
    | nil => exact fun r hr => hr
    | cons p pairs ih =>
      intro r hr
      exact ih (fun q hq => h q (.tail _ hq)) _
        (AuthorizationRequest.assign_readable hr (h p (.head _)))
  exact hfold _ rfl

theorem maxAge_of_mem {request : AuthorizationRequest} {mode : AuthorizeUrlPromptMode}
    {p : String × String} (h : p ∈ authorizeUrlParameters request mode) (hp : p.1 = "max_age") :
    ∃ n, request.maxAge = some n ∧ p.2 = toString n := by
  obtain ⟨name, value⟩ := p
  dsimp only at hp ⊢
  subst hp
  simp [authorizeUrlParameters] at h
  obtain ⟨n, hn, rfl⟩ := h
  exact ⟨n, hn, rfl⟩

/-- **The parameters of the URL** are read back as the request. -/
theorem authorizationRequestFromQueryPairs_authorizeUrlParameters {request : AuthorizationRequest}
    (hmax : ∀ n, request.maxAge = some n → IsI64 n) (mode : AuthorizeUrlPromptMode) :
    authorizationRequestFromQueryPairs (authorizeUrlParameters request mode) =
      (request.returned (authorizeUrlPrompt request.prompt mode), none) := by
  have hnone : (authorizationRequestFromQueryPairs (authorizeUrlParameters request mode)).2 = none := by
    apply authorizationRequestFromQueryPairs_readable
    intro p hp hname
    obtain ⟨n, hn, hvalue⟩ := maxAge_of_mem hp hname
    rw [hvalue, parseI64_toString (hmax n hn)]
    rfl
  have hrequest := (authorizationRequestFromQueryPairs_eq hnone).1
  rw [ofParameters_authorizeUrlParameters hmax] at hrequest
  exact Prod.ext hrequest hnone

theorem parseUrlEncodedPairs_authorizeUrlQuery (request : AuthorizationRequest)
    (mode : AuthorizeUrlPromptMode) :
    parseUrlEncodedPairs (authorizeUrlQuery request mode) =
      some (authorizeUrlParameters request mode) := by
  have hne : authorizeUrlParameters request mode ≠ [] := by simp [authorizeUrlParameters]
  have hquery : authorizeUrlQuery request mode =
      "&".intercalate ((authorizeUrlParameters request mode).map encodePair) := rfl
  rw [hquery, parseUrlEncodedPairs_of_ne_nil (intercalate_encodePair_ne_nil hne)]
  exact parsePairs_intercalate hne

theorem currentAuthorizeUrl_eq (issuer : String) (request : AuthorizationRequest)
    (mode : AuthorizeUrlPromptMode) : currentAuthorizeUrl issuer request mode =
      trimEndMatches '/' issuer ++ "/oauth2/authorize?" ++ authorizeUrlQuery request mode := rfl

theorem mem_of_mem_trimEndMatches {c d : Char} {value : String}
    (h : d ∈ (trimEndMatches c value).toList) : d ∈ value.toList := by
  rw [trimEndMatches, String.toList_ofList, List.mem_reverse] at h
  exact List.mem_reverse.mp ((List.dropWhile_sublist _).subset h)

theorem uriQuery_currentAuthorizeUrl {issuer : String} (hissuer : '?' ∉ issuer.toList)
    (request : AuthorizationRequest) (mode : AuthorizeUrlPromptMode) :
    uriQuery (currentAuthorizeUrl issuer request mode) = authorizeUrlQuery request mode := by
  have hbefore : '?' ∉ (trimEndMatches '/' issuer ++ "/oauth2/authorize").toList := by
    rw [String.toList_append, List.mem_append, not_or]
    exact ⟨fun hmem => hissuer (mem_of_mem_trimEndMatches hmem), by decide⟩
  have hurl : currentAuthorizeUrl issuer request mode =
      trimEndMatches '/' issuer ++ "/oauth2/authorize" ++ "?" ++ authorizeUrlQuery request mode := by
    have hpath : "/oauth2/authorize?" = "/oauth2/authorize" ++ "?" := rfl
    rw [currentAuthorizeUrl_eq, hpath, ← String.append_assoc]
  rw [hurl, uriQuery_append hbefore]

/-- **The authorize URL leads back to the request**: its query is parsed to the request
    without `request` and `request_uri`, the prompt trimmed or without the removed word,
    and requests with one URL are the same up to these. -/
theorem authorize_url_faithful {request : AuthorizationRequest}
    (hmax : ∀ n, request.maxAge = some n → IsI64 n) (issuer : String) :
    (∀ mode, ∃ query pairs,
      currentAuthorizeUrl issuer request mode =
        trimEndMatches '/' issuer ++ "/oauth2/authorize?" ++ query ∧
      ('?' ∉ issuer.toList → uriQuery (currentAuthorizeUrl issuer request mode) = query) ∧
      parseUrlEncodedPairs query = some pairs ∧
      duplicateAuthorizationRequestParameter pairs = none ∧
      authorizationRequestFromQueryPairs pairs =
        (request.returned (authorizeUrlPrompt request.prompt mode), none)) ∧
    authorizeUrlPrompt request.prompt .preserve = trimmedNonempty request.prompt ∧
    (∀ mode removed, mode.removed = some removed →
      promptWords (authorizeUrlPrompt request.prompt mode) =
        (promptWords request.prompt).filter (· ≠ removed) ∧
      authorizeUrlPrompt request.prompt mode =
        joinedWords ((promptWords request.prompt).filter (· ≠ removed))) ∧
    ∀ other : AuthorizationRequest, (∀ n, other.maxAge = some n → IsI64 n) →
      currentAuthorizeUrl issuer other .preserve = currentAuthorizeUrl issuer request .preserve →
      other.returned (trimmedNonempty other.prompt) =
        request.returned (trimmedNonempty request.prompt) := by
  refine ⟨fun mode => ?_, authorizeUrlPrompt_preserve _, fun mode removed hmode => ?_,
    fun other hother hurl => ?_⟩
  · have hnodup : ((authorizeUrlParameters request mode).map Prod.fst).Nodup :=
      (sublist_authorizeUrlNames request mode).nodup (by decide)
    exact ⟨authorizeUrlQuery request mode, authorizeUrlParameters request mode,
      currentAuthorizeUrl_eq issuer request mode,
      fun hissuer => uriQuery_currentAuthorizeUrl hissuer request mode,
      parseUrlEncodedPairs_authorizeUrlQuery request mode,
      firstDuplicate_of_nodup hnodup fun p _ => List.not_mem_nil,
      authorizationRequestFromQueryPairs_authorizeUrlParameters hmax mode⟩
  · have hprompt := authorizeUrlPrompt_removed hmode request.prompt
    have hwords : ∀ word ∈ (promptWords request.prompt).filter (· ≠ removed), IsWord word :=
      fun word hword => isWord_of_mem (List.mem_filter.mp hword).1
    exact ⟨by rw [hprompt, promptWords_joinedWords hwords], hprompt⟩
  · rw [currentAuthorizeUrl_eq, currentAuthorizeUrl_eq, String.append_right_inj] at hurl
    have hparse := parseUrlEncodedPairs_authorizeUrlQuery other .preserve
    rw [hurl, parseUrlEncodedPairs_authorizeUrlQuery] at hparse
    have hpairs := congrArg authorizationRequestFromQueryPairs (Option.some.inj hparse)
    rw [authorizationRequestFromQueryPairs_authorizeUrlParameters hmax,
      authorizationRequestFromQueryPairs_authorizeUrlParameters hother,
      authorizeUrlPrompt_preserve, authorizeUrlPrompt_preserve] at hpairs
    exact (Prod.mk.inj hpairs).1.symm

namespace Sample

/-- A prompt with blanks, a `max_age` below zero and an empty `request`. -/
def emptyRequestObject : AuthorizationRequest :=
  { AuthorizationRequest.blank with
    responseType := "code"
    clientId := "shop"
    redirectUri := "https://shop.example/back?lang=é&x=1"
    scope := "openid profile"
    maxAge := some (-1)
    prompt := some " login consent "
    request := some "" }

end Sample

theorem authorize_url_faithful_emptyRequestObject :
    ∃ query pairs,
      currentAuthorizeUrl "https://id.example/" Sample.emptyRequestObject .removeLogin =
        trimEndMatches '/' "https://id.example/" ++ "/oauth2/authorize?" ++ query ∧
      parseUrlEncodedPairs query = some pairs ∧
      duplicateAuthorizationRequestParameter pairs = none ∧
      authorizationRequestFromQueryPairs pairs =
        (Sample.emptyRequestObject.returned (some "consent"), none) := by
  have hmax : ∀ n, Sample.emptyRequestObject.maxAge = some n → IsI64 n := by
    intro n hn
    obtain rfl := Option.some.inj hn
    exact ⟨by decide, by decide⟩
  obtain ⟨query, pairs, hurl, -, hparse, hduplicate, hrequest⟩ :=
    (authorize_url_faithful hmax "https://id.example/").1 .removeLogin
  have hprompt : authorizeUrlPrompt Sample.emptyRequestObject.prompt .removeLogin =
      some "consent" := by decide
  rw [hprompt] at hrequest
  exact ⟨query, pairs, hurl, hparse, hduplicate, hrequest⟩

/-- An empty `request` is blank, but it does not come back, and the URL does not tell
    it from none. -/
theorem empty_request_object_is_lost :
    trimmedNonempty Sample.emptyRequestObject.request = none ∧
    trimmedNonempty Sample.emptyRequestObject.requestUri = none ∧
    (∃ pairs, parseUrlEncodedPairs (authorizeUrlQuery Sample.emptyRequestObject .preserve) =
        some pairs ∧
      (authorizationRequestFromQueryPairs pairs).1 ≠
        { Sample.emptyRequestObject with
          prompt := trimmedNonempty Sample.emptyRequestObject.prompt }) ∧
    currentAuthorizeUrl "https://id.example/" Sample.emptyRequestObject .preserve =
      currentAuthorizeUrl "https://id.example/" { Sample.emptyRequestObject with request := none }
        .preserve := by
  have hmax : ∀ n, Sample.emptyRequestObject.maxAge = some n → IsI64 n := by
    intro n hn
    obtain rfl := Option.some.inj hn
    exact ⟨by decide, by decide⟩
  refine ⟨by decide, rfl, ⟨_, parseUrlEncodedPairs_authorizeUrlQuery _ _, ?_⟩, rfl⟩
  rw [authorizationRequestFromQueryPairs_authorizeUrlParameters hmax]
  intro heq
  have hrequest := congrArg AuthorizationRequest.request heq
  cases hrequest

end CairnId
