import CairnId.Http.Token
import CairnId.Http.UrlencodedSpec

/-!
# Scope strings

What `parse_scopes` accepts and returns, said by the grammar of a scope string over the
bytes of the text, and its round trip through the `scope` of a token response.

## Main definitions

- `WrittenScopes` — the text is scope tokens with single spaces in between
- `FirstOccurrences` — each token once, in the order of its first occurrence

## Main results

- `exists_parseScopes_iff` — the accepted texts are the written ones
- `scope_strings` — acceptance, order and round trip
-/

namespace CairnId

-- the grammar

def IsScopeByte (byte : UInt8) : Prop :=
  byte.toNat = 0x21 ∨ (0x23 ≤ byte.toNat ∧ byte.toNat ≤ 0x5B) ∨
    (0x5D ≤ byte.toNat ∧ byte.toNat ≤ 0x7E)

/-- A `scope-token`. -/
def IsScopeToken (token : String) : Prop :=
  token ≠ "" ∧ ∀ byte ∈ token.toUTF8.toList, IsScopeByte byte

/-- One or more scope tokens with single spaces in between. -/
def WrittenScopes (text : String) (tokens : List String) : Prop :=
  tokens ≠ [] ∧ (∀ token ∈ tokens, IsScopeToken token) ∧ text = " ".intercalate tokens

/-- Each token once, in the order of its first occurrence. -/
structure FirstOccurrences (tokens scopes : List String) : Prop where
  nodup : scopes.Nodup
  mem_iff : ∀ token, token ∈ scopes ↔ token ∈ tokens
  order : scopes.Pairwise fun a b => tokens.idxOf a < tokens.idxOf b

-- bytes and characters

def isScopeChar (c : Char) : Bool :=
  let n := c.toNat
  n = 0x21 || (0x23 ≤ n && n ≤ 0x5B) || (0x5D ≤ n && n ≤ 0x7E)

theorem scopeTokenIsValid_eq (scope : String) :
    scopeTokenIsValid scope = (!scope.isEmpty && scope.toList.all isScopeChar) := rfl

theorem isScopeChar_iff {c : Char} : isScopeChar c = true ↔ c.toNat = 0x21 ∨
    (0x23 ≤ c.toNat ∧ c.toNat ≤ 0x5B) ∨ (0x5D ≤ c.toNat ∧ c.toNat ≤ 0x7E) := by
  simp [isScopeChar, or_assoc]

theorem toNat_lt_of_isScopeChar {c : Char} (h : isScopeChar c = true) : c.toNat < 128 := by
  have hc := isScopeChar_iff.mp h
  omega

theorem not_isScopeByte_or (byte : UInt8) : ¬IsScopeByte (byte ||| 0x80) := by
  have hle : 0x80 ≤ (byte ||| 0x80).toNat := by
    rw [UInt8.toNat_or]
    exact Nat.right_le_or
  intro h
  unfold IsScopeByte at h
  omega

/-- The last byte of a longer encoding is not in ASCII. -/
theorem exists_continuation {c : Char} (h : c.utf8Size ≠ 1) :
    ∃ byte, byte ||| 0x80 ∈ String.utf8EncodeChar c := by
  have hpos := c.utf8Size_pos
  have hle := c.utf8Size_le_four
  have hcases : c.utf8Size = 2 ∨ c.utf8Size = 3 ∨ c.utf8Size = 4 := by omega
  obtain h2 | h3 | h4 := hcases
  · rw [String.utf8EncodeChar_eq_cons_cons h2]
    exact ⟨_, .tail _ (.head _)⟩
  · rw [String.utf8EncodeChar_eq_cons_cons_cons h3]
    exact ⟨_, .tail _ (.head _)⟩
  · rw [String.utf8EncodeChar_eq_cons_cons_cons_cons h4]
    exact ⟨_, .tail _ (.head _)⟩

theorem isScopeByte_utf8EncodeChar {c : Char} :
    (∀ byte ∈ String.utf8EncodeChar c, IsScopeByte byte) ↔ isScopeChar c = true := by
  by_cases hsize : c.utf8Size = 1
  · have hlt : c.toNat < 128 := by
      rw [Char.utf8Size_eq_one_iff, UInt32.le_iff_toNat_le] at hsize
      exact Nat.lt_succ_of_le hsize
    have hbyte : c.val.toUInt8.toNat = c.toNat := by
      rw [UInt32.toNat_toUInt8]
      exact Nat.mod_eq_of_lt (by show c.toNat < 256; omega)
    rw [String.utf8EncodeChar_eq_singleton hsize, List.forall_mem_singleton, isScopeChar_iff,
      IsScopeByte, hbyte]
  · obtain ⟨byte, hbyte⟩ := exists_continuation hsize
    constructor
    · intro h
      exact absurd (h _ hbyte) (not_isScopeByte_or byte)
    · intro h
      have hlt := toNat_lt_of_isScopeChar h
      refine absurd ?_ hsize
      rw [Char.utf8Size_eq_one_iff, UInt32.le_iff_toNat_le]
      exact Nat.le_of_lt_succ hlt

theorem isScopeToken_iff {token : String} :
    IsScopeToken token ↔ scopeTokenIsValid token = true := by
  have hbytes : token.toUTF8.toList = token.toList.flatMap String.utf8EncodeChar := by
    have h : token.toUTF8.toList = token.toByteArray.data.toList := byteArray_toList _
    rw [h, ← String.utf8Encode_toList, List.utf8Encode, List.data_toByteArray]
  have hall : (∀ byte ∈ token.toUTF8.toList, IsScopeByte byte) ↔
      ∀ c ∈ token.toList, isScopeChar c = true := by
    rw [hbytes]
    constructor
    · intro h c hc
      exact isScopeByte_utf8EncodeChar.mp fun byte hbyte =>
        h byte (List.mem_flatMap_of_mem hc hbyte)
    · intro h byte hbyte
      obtain ⟨c, hc, hmem⟩ := List.mem_flatMap.mp hbyte
      exact isScopeByte_utf8EncodeChar.mpr (h c hc) byte hmem
  rw [IsScopeToken, hall, scopeTokenIsValid_eq, Bool.and_eq_true, List.all_eq_true]
  simp

-- splitting at the spaces

theorem notMem_of_mem_splitChars {sep : Char} {cs part : List Char}
    (h : part ∈ splitChars sep cs) : sep ∉ part := by
  induction cs generalizing part with
  | nil =>
    rw [splitChars, List.mem_singleton] at h
    exact h ▸ List.not_mem_nil
  | cons c cs ih =>
    rw [splitChars] at h
    cases hcs : splitChars sep cs with
    | nil => exact absurd hcs (splitChars_ne_nil sep cs)
    | cons first parts =>
      have hfirst : sep ∉ first := ih (hcs ▸ .head _)
      have hparts : ∀ q ∈ parts, sep ∉ q := fun q hq => ih (hcs ▸ .tail _ hq)
      rw [hcs] at h
      dsimp only at h
      by_cases hc : c = sep
      · rw [if_pos hc, List.mem_cons, List.mem_cons] at h
        obtain rfl | rfl | hq := h
        · exact List.not_mem_nil
        · exact hfirst
        · exact hparts part hq
      · rw [if_neg hc, List.mem_cons] at h
        obtain rfl | hq := h
        · rw [List.mem_cons, not_or]
          exact ⟨fun heq => hc heq.symm, hfirst⟩
        · exact hparts part hq

theorem intercalate_splitChars (sep : Char) (cs : List Char) :
    List.intercalate [sep] (splitChars sep cs) = cs := by
  induction cs with
  | nil => rfl
  | cons c cs ih =>
    rw [splitChars]
    cases hcs : splitChars sep cs with
    | nil => exact absurd hcs (splitChars_ne_nil sep cs)
    | cons first parts =>
      rw [hcs] at ih
      dsimp only
      by_cases hc : c = sep
      · rw [if_pos hc, List.intercalate_cons_cons, ih, hc]
        rfl
      · rw [if_neg hc]
        cases parts with
        | nil =>
          rw [List.intercalate_singleton] at ih ⊢
          rw [ih]
        | cons next parts =>
          rw [List.intercalate_cons_cons] at ih ⊢
          rw [← ih]
          rfl

theorem notMem_of_isScopeToken {token : String} (h : IsScopeToken token) : ' ' ∉ token.toList := by
  intro hmem
  have hvalid := isScopeToken_iff.mp h
  rw [scopeTokenIsValid_eq, Bool.and_eq_true, List.all_eq_true] at hvalid
  exact absurd (hvalid.2 ' ' hmem) (by decide)

theorem intercalate_splitAt (text : String) : " ".intercalate (splitAt ' ' text) = text := by
  apply String.toList_injective
  have hparts : (splitAt ' ' text).map String.toList = splitChars ' ' text.toList := by
    rw [splitAt, List.map_map]
    exact (List.map_congr_left fun part _ => String.toList_ofList).trans (List.map_id _)
  rw [String.toList_intercalate, hparts]
  exact intercalate_splitChars ' ' text.toList

-- the loop

namespace FirstOccurrences

variable {tokens scopes : List String} {token : String}

theorem again (h : FirstOccurrences tokens scopes) (hmem : token ∈ scopes) :
    FirstOccurrences (tokens ++ [token]) scopes where
  nodup := h.nodup
  mem_iff t := by
    rw [h.mem_iff, List.mem_append, List.mem_singleton]
    constructor
    · exact .inl
    · rintro (ht | rfl)
      · exact ht
      · exact (h.mem_iff t).mp hmem
  order := by
    refine h.order.imp_of_mem ?_
    intro a b ha hb hlt
    rwa [List.idxOf_append_of_mem ((h.mem_iff a).mp ha),
      List.idxOf_append_of_mem ((h.mem_iff b).mp hb)]

theorem first (h : FirstOccurrences tokens scopes) (hnew : token ∉ scopes) :
    FirstOccurrences (tokens ++ [token]) (scopes ++ [token]) where
  nodup := List.concat_eq_append ▸ h.nodup.concat hnew
  mem_iff t := by rw [List.mem_append, List.mem_append, h.mem_iff]
  order := by
    have hold : token ∉ tokens := fun hmem => hnew ((h.mem_iff token).mpr hmem)
    rw [List.pairwise_append]
    refine ⟨?_, List.pairwise_singleton _ _, ?_⟩
    · refine h.order.imp_of_mem ?_
      intro a b ha hb hlt
      rwa [List.idxOf_append_of_mem ((h.mem_iff a).mp ha),
        List.idxOf_append_of_mem ((h.mem_iff b).mp hb)]
    · intro a ha b hb
      have ha' : a ∈ tokens := (h.mem_iff a).mp ha
      obtain rfl := List.mem_singleton.mp hb
      rw [List.idxOf_append_of_mem ha', List.idxOf_append_of_notMem hold]
      have hlt := List.idxOf_lt_length_of_mem ha'
      omega

end FirstOccurrences

theorem collectScopes_some {before scopes tokens : List String}
    (h : FirstOccurrences before scopes)
    (hvalid : ∀ token ∈ tokens, scopeTokenIsValid token = true) :
    ∃ found, collectScopes scopes tokens = some found ∧
      FirstOccurrences (before ++ tokens) found := by
  induction tokens generalizing before scopes with
  | nil => exact ⟨scopes, rfl, (List.append_nil before).symm ▸ h⟩
  | cons token tokens ih =>
    have htoken : ¬(!scopeTokenIsValid token) = true := by simp [hvalid token (.head _)]
    have hrest : ∀ t ∈ tokens, scopeTokenIsValid t = true := fun t ht => hvalid t (.tail _ ht)
    have happend : before ++ token :: tokens = before ++ [token] ++ tokens := by simp
    rw [collectScopes, if_neg htoken, happend]
    by_cases hmem : token ∈ scopes
    · rw [if_pos (List.contains_iff_mem.mpr hmem)]
      exact ih (h.again hmem) hrest
    · rw [if_neg fun hc => hmem (List.contains_iff_mem.mp hc)]
      exact ih (h.first hmem) hrest

theorem valid_of_collectScopes {scopes tokens found : List String}
    (h : collectScopes scopes tokens = some found) :
    ∀ token ∈ tokens, scopeTokenIsValid token = true := by
  induction tokens generalizing scopes with
  | nil => exact fun token hmem => absurd hmem List.not_mem_nil
  | cons token tokens ih =>
    rw [collectScopes] at h
    by_cases hvalid : scopeTokenIsValid token = true
    · rw [if_neg (by simp [hvalid])] at h
      have hrest : ∀ t ∈ tokens, scopeTokenIsValid t = true := by
        split at h
        · exact ih h
        · exact ih h
      exact List.forall_mem_cons.mpr ⟨hvalid, hrest⟩
    · rw [if_pos (by simp [hvalid])] at h
      cases h

theorem splitAt_ne_nil (sep : Char) (text : String) : splitAt sep text ≠ [] := by
  intro h
  exact splitChars_ne_nil sep text.toList (List.map_eq_nil_iff.mp h)

theorem firstOccurrences_nil : FirstOccurrences [] [] where
  nodup := .nil
  mem_iff _ := Iff.rfl
  order := .nil

theorem parseScopes_of_written {text : String} {tokens : List String}
    (h : WrittenScopes text tokens) :
    ∃ scopes, parseScopes text = some scopes ∧ FirstOccurrences tokens scopes := by
  obtain ⟨hne, htokens, rfl⟩ := h
  rw [parseScopes, splitAt_intercalate rfl hne fun token htoken =>
    notMem_of_isScopeToken (htokens token htoken)]
  exact collectScopes_some firstOccurrences_nil fun token hmem =>
    isScopeToken_iff.mp (htokens token hmem)

theorem written_of_parseScopes {text : String} {scopes : List String}
    (h : parseScopes text = some scopes) : WrittenScopes text (splitAt ' ' text) :=
  ⟨splitAt_ne_nil ' ' text,
    fun token hmem => isScopeToken_iff.mpr (valid_of_collectScopes h token hmem),
    (intercalate_splitAt text).symm⟩

theorem exists_parseScopes_iff {text : String} :
    (∃ scopes, parseScopes text = some scopes) ↔ ∃ tokens, WrittenScopes text tokens := by
  constructor
  · rintro ⟨scopes, h⟩
    exact ⟨_, written_of_parseScopes h⟩
  · rintro ⟨tokens, h⟩
    obtain ⟨scopes, hparse, -⟩ := parseScopes_of_written h
    exact ⟨scopes, hparse⟩

-- the round trip

/-- A list without repetition is its own list of first occurrences, and the only one. -/
theorem FirstOccurrences.eq_of_nodup {tokens scopes : List String}
    (h : FirstOccurrences tokens scopes) (hnodup : tokens.Nodup) : scopes = tokens := by
  have hperm : scopes.Perm tokens := (List.perm_ext_iff_of_nodup h.nodup hnodup).mpr h.mem_iff
  have hsorted : tokens.Pairwise fun a b => tokens.idxOf a < tokens.idxOf b := by
    rw [List.pairwise_iff_getElem]
    intro i j hi hj hij
    rwa [hnodup.idxOf_getElem i hi, hnodup.idxOf_getElem j hj]
  exact hperm.eq_of_pairwise (fun a b _ _ hab hba => absurd hab (by omega)) h.order hsorted

theorem parseScopes_tokenResponseScope {text : String} {scopes : List String}
    (h : parseScopes text = some scopes) :
    ∃ sent, tokenResponseScope scopes = some sent ∧ parseScopes sent = some scopes := by
  obtain ⟨hne, htokens, htext⟩ := written_of_parseScopes h
  obtain ⟨found, hfound, hfirst⟩ := parseScopes_of_written ⟨hne, htokens, htext⟩
  obtain rfl : found = scopes := Option.some.inj (hfound.symm.trans h)
  have hscopes : found ≠ [] := by
    obtain ⟨token, hmem⟩ := List.exists_mem_of_ne_nil _ hne
    exact List.ne_nil_of_mem ((hfirst.mem_iff token).mpr hmem)
  have hwritten : WrittenScopes (" ".intercalate found) found :=
    ⟨hscopes, fun token hmem => htokens token ((hfirst.mem_iff token).mp hmem), rfl⟩
  obtain ⟨again, hagain, hfirst'⟩ := parseScopes_of_written hwritten
  refine ⟨" ".intercalate found, ?_, ?_⟩
  · rw [tokenResponseScope, if_neg (by simpa using hscopes)]
  · rw [hagain, hfirst'.eq_of_nodup hfirst.nodup]

/-- A text is accepted exactly when it is written as the grammar says; the result is
each of its tokens once in order of first occurrence, and what a token response says of
the result is read back as the result. -/
theorem scope_strings (text : String) :
    ((∃ scopes, parseScopes text = some scopes) ↔ ∃ tokens, WrittenScopes text tokens) ∧
    (∀ tokens scopes, WrittenScopes text tokens → parseScopes text = some scopes →
      FirstOccurrences tokens scopes) ∧
    ∀ scopes, parseScopes text = some scopes →
      ∃ sent, tokenResponseScope scopes = some sent ∧ parseScopes sent = some scopes := by
  refine ⟨exists_parseScopes_iff, ?_, fun scopes h => parseScopes_tokenResponseScope h⟩
  intro tokens scopes hwritten hparse
  obtain ⟨found, hfound, hfirst⟩ := parseScopes_of_written hwritten
  obtain rfl : found = scopes := Option.some.inj (hfound.symm.trans hparse)
  exact hfirst

theorem scope_strings_repeated :
    FirstOccurrences ["openid", "profile", "openid"] ["openid", "profile"] ∧
      ∃ sent, tokenResponseScope ["openid", "profile"] = some sent ∧
        parseScopes sent = some ["openid", "profile"] := by
  have hparse : parseScopes "openid profile openid" = some ["openid", "profile"] := by
    decide
  have hwritten : WrittenScopes "openid profile openid" ["openid", "profile", "openid"] :=
    ⟨List.cons_ne_nil _ _, fun token hmem => isScopeToken_iff.mpr (by
      simp only [List.mem_cons, List.not_mem_nil, or_false] at hmem
      obtain rfl | rfl | rfl := hmem <;> decide), by decide⟩
  obtain ⟨-, hfirst, hround⟩ := scope_strings "openid profile openid"
  exact ⟨hfirst _ _ hwritten hparse, hround _ hparse⟩

end CairnId
