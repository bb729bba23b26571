import CairnId.Http.Urlencoded

/-!
# Form encoding is exact

A text that `percent_encode_minimal` has encoded is decoded to itself, whatever is in
it, and encoded pairs between `&` are parsed to these pairs.

## Main results

* `decodeComponent_percentEncodeMinimal` — one text
* `parsePairs_intercalate` — a query made of encoded pairs
* `parsePairs_append` — two queries with `&` in between
-/

namespace CairnId

-- bytes and characters

theorem byteArray_toList (bytes : ByteArray) : bytes.toList = bytes.data.toList := by
  have hloop : ∀ (n i : ℕ) (r : Bytes), bytes.size - i = n →
      ByteArray.toList.loop bytes i r = r.reverse ++ bytes.data.toList.drop i := by
    intro n
    induction n with
    | zero =>
      intro i r hn
      have hi : bytes.data.toList.length ≤ i := by
        rw [Array.length_toList]
        exact Nat.sub_eq_zero_iff_le.mp hn
      rw [ByteArray.toList.loop, if_neg (by simpa using hi), List.drop_of_length_le hi,
        List.append_nil]
    | succ n ih =>
      intro i r hn
      have hi : i < bytes.size := by omega
      have hget : bytes.get! i = bytes.data.toList.get ⟨i, by simpa using hi⟩ := by
        simp [ByteArray.get!, hi]
      have hdrop : bytes.data.toList.drop i = bytes.get! i :: bytes.data.toList.drop (i + 1) := by
        rw [hget]
        exact List.drop_eq_getElem_cons _
      rw [ByteArray.toList.loop, if_pos hi, ih (i + 1) _ (by omega), List.reverse_cons,
        List.append_assoc, hdrop]
      rfl
  exact hloop _ 0 [] rfl

theorem fromUTF8?_toByteArray (s : String) :
    String.fromUTF8? ⟨s.toByteArray.data.toList.toArray⟩ = some s := by
  rw [Array.toArray_toList, String.fromUTF8?, dif_pos s.isValidUTF8]
  rfl

theorem fromUTF8?_toUTF8 (s : String) : String.fromUTF8? ⟨s.toUTF8.toList.toArray⟩ = some s := by
  have hbytes : s.toUTF8.toList = s.toByteArray.data.toList := byteArray_toList s.toByteArray
  rw [hbytes]
  exact fromUTF8?_toByteArray s

/-- The bytes of a text in ASCII. -/
theorem toUTF8_ofList {cs : List Char} (h : ∀ c ∈ cs, c.toNat < 128) :
    (String.ofList cs).toUTF8.toList = cs.map fun c => UInt8.ofNat c.toNat := by
  have hbytes : (String.ofList cs).toUTF8.toList = (String.ofList cs).toByteArray.data.toList :=
    byteArray_toList _
  rw [hbytes, String.toByteArray_ofList, List.utf8Encode, List.data_toByteArray]
  clear hbytes
  induction cs with
  | nil => rfl
  | cons c cs ih =>
    have hc : c.toNat < 128 := h c (.head _)
    have hsize : c.utf8Size = 1 := by
      rw [Char.utf8Size_eq_one_iff, UInt32.le_iff_toNat_le]
      exact Nat.le_of_lt_succ hc
    have hchar : String.utf8EncodeChar c = [UInt8.ofNat c.toNat] := by
      rw [String.utf8EncodeChar_eq_singleton hsize]
      rfl
    rw [List.flatMap_cons, hchar, List.map_cons]
    exact congrArg (_ :: ·) (ih fun d hd => h d (.tail _ hd))

-- one byte

def percentEncodeByte (byte : UInt8) : List Char :=
  let c := Char.ofNat byte.toNat
  if ('A' ≤ c && c ≤ 'Z') || ('a' ≤ c && c ≤ 'z') || ('0' ≤ c && c ≤ '9') || c = '-' ||
      c = '.' || c = '_' || c = '~' then [c]
  else ['%', upperHexDigit (byte.toNat / 16), upperHexDigit (byte.toNat % 16)]

theorem percentEncodeMinimal_toList (value : String) :
    (percentEncodeMinimal value).toList = value.toUTF8.toList.flatMap percentEncodeByte :=
  String.toList_ofList

/-- The characters that an encoded text is made of. -/
def isPercentText (c : Char) : Bool := isPkceUnreserved c || c = '%'

theorem isPercentText_of_mem {byte : UInt8} {c : Char} (h : c ∈ percentEncodeByte byte) :
    isPercentText c = true := by
  have hall : ∀ n < 256, (percentEncodeByte (.ofNat n)).all isPercentText = true := by
    decide +kernel
  have hbyte := hall byte.toNat byte.toNat_lt
  rw [UInt8.ofNat_toNat] at hbyte
  exact List.all_eq_true.mp hbyte c h

theorem toNat_lt_of_isPercentText {c : Char} (h : isPercentText c = true) : c.toNat < 128 := by
  simp only [isPercentText, isPkceUnreserved, Bool.or_eq_true, Bool.and_eq_true,
    decide_eq_true_eq, Char.le_def, UInt32.le_iff_toNat_le] at h
  have hle : ∀ {d : Char}, c.val.toNat ≤ d.val.toNat → d.toNat < 128 → c.toNat < 128 :=
    fun hcd hd => lt_of_le_of_lt hcd hd
  rcases h with ((((((h | h) | h) | h) | h) | h) | h) | h
  · exact hle h.2 (by decide)
  · exact hle h.2 (by decide)
  · exact hle h.2 (by decide)
  all_goals
    subst h
    decide

theorem decodeBytes_cons {byte : UInt8} (hpercent : byte ≠ 0x25) (hplus : byte ≠ 0x2B)
    (bytes : Bytes) : decodeBytes (byte :: bytes) = (decodeBytes bytes).map (byte :: ·) := by
  rw [decodeBytes]
  · cases decodeBytes bytes <;> rfl
  · exact fun _ _ _ h => absurd h hpercent
  · exact hpercent
  · exact hplus

theorem decodeBytes_percent {high low h l : UInt8} (hhigh : hexNibble high = some h)
    (hlow : hexNibble low = some l) (bytes : Bytes) :
    decodeBytes (0x25 :: high :: low :: bytes) =
      (decodeBytes bytes).map ((h <<< 4 ||| l) :: ·) := by
  rw [decodeBytes, hhigh, hlow]
  cases decodeBytes bytes <;> rfl

/-- An encoded byte is decoded to itself. -/
theorem decodeBytes_percentEncodeByte (byte : UInt8) (bytes : Bytes) :
    decodeBytes ((percentEncodeByte byte).map (fun c => UInt8.ofNat c.toNat) ++ bytes) =
      (decodeBytes bytes).map (byte :: ·) := by
  by_cases hunreserved : isPkceUnreserved (.ofNat byte.toNat) = true
  · have hall : ∀ n < 256, isPkceUnreserved (.ofNat n) = true →
        UInt8.ofNat n ≠ 0x25 ∧ UInt8.ofNat n ≠ 0x2B ∧ (Char.ofNat n).toNat = n := by
      decide +kernel
    obtain ⟨hpercent, hplus, hchar⟩ := hall byte.toNat byte.toNat_lt hunreserved
    rw [UInt8.ofNat_toNat] at hpercent hplus
    have henc : percentEncodeByte byte = [Char.ofNat byte.toNat] := if_pos hunreserved
    rw [henc, List.map_singleton, hchar, UInt8.ofNat_toNat, List.singleton_append,
      decodeBytes_cons hpercent hplus]
  · have hall : ∀ n < 256, hexNibble (.ofNat (upperHexDigit (n / 16)).toNat) =
          some (.ofNat (n / 16)) ∧
        hexNibble (.ofNat (upperHexDigit (n % 16)).toNat) = some (.ofNat (n % 16)) ∧
        UInt8.ofNat (n / 16) <<< 4 ||| UInt8.ofNat (n % 16) = UInt8.ofNat n := by
      decide +kernel
    obtain ⟨hhigh, hlow, hvalue⟩ := hall byte.toNat byte.toNat_lt
    rw [UInt8.ofNat_toNat] at hvalue
    have henc : percentEncodeByte byte =
        ['%', upperHexDigit (byte.toNat / 16), upperHexDigit (byte.toNat % 16)] :=
      if_neg hunreserved
    rw [henc]
    show decodeBytes (0x25 :: _ :: _ :: bytes) = _
    rw [decodeBytes_percent hhigh hlow, hvalue]

-- one text

theorem isPercentText_of_mem_percentEncodeMinimal {value : String} {c : Char}
    (h : c ∈ (percentEncodeMinimal value).toList) : isPercentText c = true := by
  rw [percentEncodeMinimal_toList, List.mem_flatMap] at h
  obtain ⟨byte, -, hc⟩ := h
  exact isPercentText_of_mem hc

/-- No separator is left in an encoded text. -/
theorem notMem_percentEncodeMinimal {c : Char} (hc : isPercentText c = false) (value : String) :
    c ∉ (percentEncodeMinimal value).toList := by
  intro hmem
  rw [isPercentText_of_mem_percentEncodeMinimal hmem] at hc
  cases hc

theorem decodeBytes_flatMap (bytes : Bytes) :
    decodeBytes ((bytes.flatMap percentEncodeByte).map fun c => UInt8.ofNat c.toNat) =
      some bytes := by
  induction bytes with
  | nil => rfl
  | cons byte bytes ih =>
    rw [List.flatMap_cons, List.map_append, decodeBytes_percentEncodeByte, ih]
    rfl

@[simp] theorem decodeComponent_percentEncodeMinimal (value : String) :
    decodeComponent (percentEncodeMinimal value) = some value := by
  have hbytes : (percentEncodeMinimal value).toUTF8.toList =
      (value.toUTF8.toList.flatMap percentEncodeByte).map fun c => UInt8.ofNat c.toNat := by
    have hascii : ∀ c ∈ value.toUTF8.toList.flatMap percentEncodeByte, c.toNat < 128 := by
      intro c hc
      obtain ⟨byte, -, hc⟩ := List.mem_flatMap.mp hc
      exact toNat_lt_of_isPercentText (isPercentText_of_mem hc)
    exact toUTF8_ofList hascii
  rw [decodeComponent, hbytes, decodeBytes_flatMap]
  exact fromUTF8?_toUTF8 value

/-- Unreserved characters stand for themselves. -/
theorem percentEncodeMinimal_of_unreserved {value : String}
    (h : value.toList.all isPkceUnreserved = true) : percentEncodeMinimal value = value := by
  have hchars : ∀ c ∈ value.toList, isPkceUnreserved c = true := List.all_eq_true.mp h
  have hlt : ∀ c ∈ value.toList, c.toNat < 128 := fun c hc =>
    toNat_lt_of_isPercentText (by simp [isPercentText, hchars c hc])
  have hbytes : value.toUTF8.toList = value.toList.map fun c => UInt8.ofNat c.toNat := by
    conv_lhs => rw [← String.ofList_toList (s := value)]
    exact toUTF8_ofList hlt
  have hbyte : ∀ c ∈ value.toList, percentEncodeByte (.ofNat c.toNat) = [c] := by
    intro c hc
    have hc' : Char.ofNat (UInt8.ofNat c.toNat).toNat = c := by
      rw [UInt8.toNat_ofNat', Nat.mod_eq_of_lt (lt_of_lt_of_le (hlt c hc) (by decide)),
        Char.ofNat_toNat]
    rw [percentEncodeByte, hc']
    exact if_pos (hchars c hc)
  apply String.toList_injective
  rw [percentEncodeMinimal_toList, hbytes, List.flatMap_map]
  clear hbytes h
  generalize value.toList = cs at hchars hlt hbyte
  induction cs with
  | nil => rfl
  | cons c cs ih =>
    rw [List.flatMap_cons, hbyte c (.head _), ih (fun d hd => hchars d (.tail _ hd))
      (fun d hd => hlt d (.tail _ hd)) fun d hd => hbyte d (.tail _ hd)]
    rfl

-- pairs

theorem splitChars_of_notMem {sep : Char} {cs : List Char} (h : sep ∉ cs) :
    splitChars sep cs = [cs] := by
  induction cs with
  | nil => rfl
  | cons c cs ih =>
    rw [List.mem_cons, not_or] at h
    obtain ⟨hc, hcs⟩ := h
    rw [splitChars, ih hcs]
    exact if_neg fun heq => hc heq.symm

theorem splitChars_ne_nil (sep : Char) (cs : List Char) : splitChars sep cs ≠ [] := by
  cases cs with
  | nil => simp [splitChars]
  | cons c cs =>
    rw [splitChars]
    split
    · simp
    · split <;> simp

theorem splitChars_append_cons (sep : Char) (before after : List Char) :
    splitChars sep (before ++ sep :: after) = splitChars sep before ++ splitChars sep after := by
  induction before with
  | nil =>
    have hnil : splitChars sep [] = [[]] := rfl
    rw [List.nil_append, hnil, splitChars]
    cases hafter : splitChars sep after with
    | nil => exact absurd hafter (splitChars_ne_nil sep after)
    | cons part parts =>
      show (if sep = sep then [] :: part :: parts else (sep :: part) :: parts) = _
      rw [if_pos rfl]
      rfl
  | cons c before ih =>
    rw [List.cons_append, splitChars, ih, splitChars]
    cases hbefore : splitChars sep before with
    | nil => exact absurd hbefore (splitChars_ne_nil sep before)
    | cons part parts =>
      show (if c = sep then [] :: part :: (parts ++ splitChars sep after)
        else (c :: part) :: (parts ++ splitChars sep after)) =
        (if c = sep then [] :: part :: parts else (c :: part) :: parts) ++ splitChars sep after
      by_cases hc : c = sep
      · rw [if_pos hc, if_pos hc]
        rfl
      · rw [if_neg hc, if_neg hc]
        rfl

theorem splitChars_intercalate {sep : Char} {parts : List (List Char)} (hne : parts ≠ [])
    (h : ∀ part ∈ parts, sep ∉ part) : splitChars sep (List.intercalate [sep] parts) = parts := by
  induction parts with
  | nil => exact absurd rfl hne
  | cons part parts ih =>
    have hpart := splitChars_of_notMem (h part (.head _))
    cases parts with
    | nil => rw [List.intercalate_singleton, hpart]
    | cons next parts =>
      have hrest := ih (List.cons_ne_nil _ _) fun q hq => h q (.tail _ hq)
      rw [List.intercalate_cons_cons, List.append_assoc, List.singleton_append,
        splitChars_append_cons, hpart, hrest]
      rfl

theorem splitAt_intercalate {sep : Char} {text : String} {parts : List String}
    (htext : text.toList = [sep]) (hne : parts ≠ []) (h : ∀ part ∈ parts, sep ∉ part.toList) :
    splitAt sep (text.intercalate parts) = parts := by
  have hchars : ∀ part ∈ parts.map String.toList, sep ∉ part := by
    intro part hpart
    obtain ⟨name, hname, rfl⟩ := List.mem_map.mp hpart
    exact h name hname
  have hne' : parts.map String.toList ≠ [] := fun heq => hne (List.map_eq_nil_iff.mp heq)
  rw [splitAt, String.toList_intercalate, htext, splitChars_intercalate hne' hchars, List.map_map]
  exact (List.map_congr_left fun part _ => String.ofList_toList).trans (List.map_id _)

theorem splitOnceChars_append {sep : Char} {before after : List Char} (h : sep ∉ before) :
    splitOnceChars sep (before ++ sep :: after) = some (before, after) := by
  have hne : ∀ c ∈ before, decide (c ≠ sep) = true := fun c hc =>
    decide_eq_true fun heq => h (heq ▸ hc)
  rw [splitOnceChars, List.dropWhile_append_of_pos hne, List.takeWhile_append_of_pos hne]
  simp

theorem splitOnceChars_of_notMem {sep : Char} {cs : List Char} (h : sep ∉ cs) :
    splitOnceChars sep cs = none := by
  have hne : ∀ c ∈ cs, decide (c ≠ sep) = true := fun c hc =>
    decide_eq_true fun heq => h (heq ▸ hc)
  have hdrop : cs.dropWhile (· ≠ sep) = [] := List.dropWhile_eq_nil_iff.mpr hne
  rw [splitOnceChars, hdrop]

/-- `name=value`, both encoded. -/
def encodePair (pair : String × String) : String :=
  percentEncodeMinimal pair.1 ++ "=" ++ percentEncodeMinimal pair.2

theorem parseUrlEncodedPair_encodePair (pair : String × String) :
    parseUrlEncodedPair (encodePair pair).toList = some pair := by
  have hlist : (encodePair pair).toList = (percentEncodeMinimal pair.1).toList ++
      '=' :: (percentEncodeMinimal pair.2).toList := by
    rw [encodePair, String.toList_append, String.toList_append, List.append_assoc]
    rfl
  have hname : '=' ∉ (percentEncodeMinimal pair.1).toList :=
    notMem_percentEncodeMinimal (by decide) pair.1
  rw [parseUrlEncodedPair, hlist, splitOnceChars_append hname]
  show ((decodeComponent (.ofList (percentEncodeMinimal pair.1).toList)).bind fun name =>
    (decodeComponent (.ofList (percentEncodeMinimal pair.2).toList)).bind fun value =>
      some (name, value)) = _
  rw [String.ofList_toList, String.ofList_toList, decodeComponent_percentEncodeMinimal,
    decodeComponent_percentEncodeMinimal]
  rfl

theorem notMem_encodePair {c : Char} (hc : isPercentText c = false) (hne : c ≠ '=')
    (pair : String × String) : c ∉ (encodePair pair).toList := by
  intro hmem
  simp only [encodePair, String.toList_append, List.mem_append] at hmem
  obtain (hmem | hmem) | hmem := hmem
  · exact notMem_percentEncodeMinimal hc pair.1 hmem
  · exact hne (List.mem_singleton.mp hmem)
  · exact notMem_percentEncodeMinimal hc pair.2 hmem

/-- The pairs of a query that need not be there. -/
def parsePairs (cs : List Char) : Option (List (String × String)) :=
  (splitChars '&' cs).mapM parseUrlEncodedPair

theorem parseUrlEncodedPairs_of_ne_nil {input : String} (h : input.toList ≠ []) :
    parseUrlEncodedPairs input = parsePairs input.toList := by
  have hne : ¬input.isEmpty = true := by
    rw [String.isEmpty_iff]
    rintro rfl
    exact h rfl
  exact if_neg hne

theorem parsePairs_append (before after : List Char) :
    parsePairs (before ++ '&' :: after) =
      (parsePairs before).bind fun own => (parsePairs after).map (own ++ ·) := by
  rw [parsePairs, splitChars_append_cons, List.mapM_append]
  show ((parsePairs before).bind fun own => (parsePairs after).bind fun more =>
    some (own ++ more)) = _
  cases parsePairs before <;> cases parsePairs after <;> rfl

theorem parsePairs_nil : parsePairs [] = some [("", "")] := by
  have hempty : decodeComponent "" = some "" := by
    have hencoded : percentEncodeMinimal "" = "" := percentEncodeMinimal_of_unreserved rfl
    rw [← hencoded, decodeComponent_percentEncodeMinimal, hencoded]
  show (do return [← (do return (← decodeComponent "", ← decodeComponent ""))]) = _
  rw [hempty]
  rfl

theorem parsePairs_encodePair (pair : String × String) :
    parsePairs (encodePair pair).toList = some [pair] := by
  rw [parsePairs, splitChars_of_notMem (notMem_encodePair (by decide) (by decide) pair),
    List.mapM_cons, parseUrlEncodedPair_encodePair]
  rfl

/-- **A query of encoded pairs** is parsed to the pairs. -/
theorem parsePairs_intercalate {pairs : List (String × String)} (h : pairs ≠ []) :
    parsePairs ("&".intercalate (pairs.map encodePair)).toList = some pairs := by
  induction pairs with
  | nil => exact absurd rfl h
  | cons pair pairs ih =>
    by_cases hpairs : pairs = []
    · subst hpairs
      have hone : "&".intercalate [encodePair pair] = encodePair pair := String.intercalate_singleton
      rw [List.map_singleton, hone]
      exact parsePairs_encodePair pair
    · have hmap : pairs.map encodePair ≠ [] := by simpa using hpairs
      have hlist : ("&".intercalate ((pair :: pairs).map encodePair)).toList =
          (encodePair pair).toList ++ '&' :: ("&".intercalate (pairs.map encodePair)).toList := by
        rw [List.map_cons, String.intercalate_cons_of_ne_nil hmap, String.toList_append, String.toList_append,
          List.append_assoc]
        rfl
      rw [hlist, parsePairs_append, parsePairs_encodePair, ih hpairs]
      rfl

theorem notMem_intercalate_encodePair {c : Char} (hc : isPercentText c = false) (hne : c ≠ '=')
    (hsep : c ≠ '&') (pairs : List (String × String)) :
    c ∉ ("&".intercalate (pairs.map encodePair)).toList := by
  induction pairs with
  | nil => simp
  | cons pair pairs ih =>
    have hpair := notMem_encodePair hc hne pair
    by_cases hpairs : pairs = []
    · subst hpairs
      have hone : "&".intercalate [encodePair pair] = encodePair pair := String.intercalate_singleton
      rwa [List.map_singleton, hone]
    · have hmap : pairs.map encodePair ≠ [] := by simpa using hpairs
      rw [List.map_cons, String.intercalate_cons_of_ne_nil hmap]
      simp only [String.toList_append, List.mem_append, not_or]
      exact ⟨⟨hpair, fun hmem => hsep (List.mem_singleton.mp hmem)⟩, ih⟩

theorem intercalate_encodePair_ne_nil {pairs : List (String × String)} (h : pairs ≠ []) :
    ("&".intercalate (pairs.map encodePair)).toList ≠ [] := by
  obtain ⟨pair, pairs, rfl⟩ := List.exists_cons_of_ne_nil h
  have hpair : '=' ∈ (encodePair pair).toList := by simp [encodePair]
  apply List.ne_nil_of_mem (a := '=')
  by_cases hpairs : pairs = []
  · subst hpairs
    rwa [List.map_singleton, String.intercalate_singleton]
  · have hmap : pairs.map encodePair ≠ [] := by simpa using hpairs
    rw [List.map_cons, String.intercalate_cons_of_ne_nil hmap, String.append_assoc,
      String.toList_append]
    exact List.mem_append_left _ hpair

-- queries

/-- What follows the first `?`. -/
def uriQuery (uri : String) : String :=
  ((splitOnceChars '?' uri.toList).map fun parts => String.ofList parts.2).getD ""

theorem uriQuery_of_notMem {uri : String} (h : '?' ∉ uri.toList) : uriQuery uri = "" := by
  rw [uriQuery, splitOnceChars_of_notMem h]
  rfl

theorem uriQuery_append {before : String} (h : '?' ∉ before.toList) (query : String) :
    uriQuery (before ++ "?" ++ query) = query := by
  have hlist : (before ++ "?" ++ query).toList = before.toList ++ '?' :: query.toList := by
    rw [String.toList_append, String.toList_append, List.append_assoc]
    rfl
  rw [uriQuery, hlist, splitOnceChars_append h]
  exact String.ofList_toList

end CairnId
