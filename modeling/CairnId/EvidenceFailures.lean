import CairnId.Evidence.Redaction
import CairnId.Validation

/-!
# Sanitised failures

What `sanitize_release_evidence_failure` leaves of the text of a failure, whether a
credential that was echoed in it is still there, and whether sanitising again changes it.

## Main definitions

- `CredentialFragment` — what makes a value credential-shaped
- `FreshBearer`, `EchoedSecret` — where the text of a failure is cut
- `LeakFree` — the failures that keep nothing of the credential
- `Settles` — the failures that a second pass leaves as they are

## Main results

- `sanitize_sanitize_iff` — when sanitising is idempotent
- `not_isInfix_sanitize_iff` — when the credential is gone
-/

namespace CairnId

open Search Replace

-- texts

theorem lowerText_append (a b : Text) : lowerText (a ++ b) = lowerText a ++ lowerText b :=
  List.map_append

theorem lowerText_take (n : ℕ) (value : Text) :
    lowerText (value.take n) = (lowerText value).take n := List.map_take

theorem lowerText_drop (n : ℕ) (value : Text) :
    lowerText (value.drop n) = (lowerText value).drop n := List.map_drop

@[simp] theorem length_lowerText (value : Text) : (lowerText value).length = value.length :=
  List.length_map _

theorem byteLength_append (a b : Text) : byteLength (a ++ b) = byteLength a + byteLength b := by
  rw [byteLength, List.map_append, List.sum_append]
  rfl

theorem length_le_byteLength (value : Text) : value.length ≤ byteLength value := by
  induction value with
  | nil => exact Nat.le_refl 0
  | cons c value ih =>
    have hpos := c.utf8Size_pos
    show value.length + 1 ≤ c.utf8Size + byteLength value
    omega

-- credentials

/-- The value is credential-shaped because of the fragment. -/
def CredentialFragment (value candidate : Text) : Prop :=
  (candidate ∈ bearerCandidates [] value ∨ candidate ∈ assignmentCandidates [] value) ∧
    credentialValueIsPlaceholder candidate = false

theorem isCredentialShapedTokenFreeValue_iff {value : Text} :
    isCredentialShapedTokenFreeValue value = true ↔
      ∃ candidate, CredentialFragment value candidate := by
  rw [isCredentialShapedTokenFreeValue, containsRawBearerValue, containsSensitiveAssignmentValue,
    ← List.any_append, List.any_eq_true]
  simp only [CredentialFragment, List.mem_append, Bool.not_eq_true']

theorem credentialValueFragment_isInfix (value : Text) :
    credentialValueFragment value <:+: value :=
  (List.takeWhile_prefix _).isInfix.trans (List.dropWhile_suffix _).isInfix

theorem space_notMem_credentialValueFragment (value : Text) :
    ' ' ∉ credentialValueFragment value := by
  intro h
  have hkeep := List.all_eq_true.mp List.all_takeWhile ' ' h
  exact absurd hkeep (by decide)

/-- A candidate is a fragment of the value. -/
theorem exists_fragment_of_bearer {before value candidate : Text}
    (h : candidate ∈ bearerCandidates before value) :
    ∃ part, part <:+: value ∧ candidate = credentialValueFragment part := by
  induction value generalizing before with
  | nil => exact absurd h List.not_mem_nil
  | cons c rest ih =>
    rw [bearerCandidates, List.mem_append] at h
    obtain hhere | hrest := h
    · cases hdrop : (c :: rest).drop 6 with
      | nil =>
        rw [hdrop] at hhere
        exact absurd hhere List.not_mem_nil
      | cons after more =>
        rw [hdrop] at hhere
        dsimp only at hhere
        split at hhere
        · refine ⟨after :: more, ?_, List.mem_singleton.mp hhere⟩
          rw [← hdrop]
          exact (List.drop_suffix 6 _).isInfix
        · exact absurd hhere List.not_mem_nil
    · obtain ⟨part, hpart, heq⟩ := ih hrest
      exact ⟨part, List.infix_cons hpart, heq⟩

theorem exists_fragment_of_assignment {before value candidate : Text}
    (h : candidate ∈ assignmentCandidates before value) :
    ∃ part, part <:+: value ∧ candidate = credentialValueFragment part := by
  induction value generalizing before with
  | nil => exact absurd h List.not_mem_nil
  | cons c rest ih =>
    rw [assignmentCandidates, List.mem_append] at h
    obtain hhere | hrest := h
    · split at hhere
      · exact ⟨rest, (List.suffix_cons c rest).isInfix, List.mem_singleton.mp hhere⟩
      · exact absurd hhere List.not_mem_nil
    · obtain ⟨part, hpart, heq⟩ := ih hrest
      exact ⟨part, List.infix_cons hpart, heq⟩

namespace CredentialFragment

variable {value candidate : Text}

theorem exists_part (h : CredentialFragment value candidate) :
    ∃ part, part <:+: value ∧ candidate = credentialValueFragment part :=
  h.1.elim exists_fragment_of_bearer exists_fragment_of_assignment

theorem isInfix (h : CredentialFragment value candidate) : candidate <:+: value := by
  obtain ⟨part, hpart, rfl⟩ := h.exists_part
  exact (credentialValueFragment_isInfix part).trans hpart

theorem space_notMem (h : CredentialFragment value candidate) : ' ' ∉ candidate := by
  obtain ⟨part, -, rfl⟩ := h.exists_part
  exact space_notMem_credentialValueFragment part

theorem ne_nil (h : CredentialFragment value candidate) : candidate ≠ [] := by
  rintro rfl
  exact absurd h.2 (by decide)

end CredentialFragment

-- where a failure is cut

def redactedMark : Text := "<redacted>".toList

def truncatedMark : Text := "... <truncated>".toList

/-- A failure that names a field path and is reported as it is. -/
def Exempt (failure : Text) : Prop := "must not be present in token-free".toList <:+: failure

/-- The first `bearer ` of the text, with more behind it than the mark. -/
def FreshBearer (failure : Text) (index : ℕ) : Prop :=
  indexOf "bearer ".toList (lowerText failure) = some index ∧
    failure.drop (index + 7) ≠ redactedMark

/-- The first `got ` of the text, with one of the markers somewhere behind it. -/
def EchoedSecret (failure : Text) (index : ℕ) : Prop :=
  indexOf "got ".toList (lowerText failure) = some index ∧
    ∃ marker ∈ secretValueMarkers, marker.toList <:+: (lowerText failure).drop (index + 4)

theorem redact_of_indexOf {failure : Text} {index : ℕ}
    (h : indexOf "bearer ".toList (lowerText failure) = some index) :
    redactCaseInsensitiveSuffix failure "bearer ".toList =
      failure.take (index + 7) ++ redactedMark := by
  have hlength : "bearer ".toList.length = 7 := rfl
  rw [redactCaseInsensitiveSuffix, h]
  dsimp only
  rw [hlength, List.drop_take, Nat.add_sub_cancel_left, ← List.take_add]
  rfl

theorem redact_eq_self_iff {failure : Text} :
    redactCaseInsensitiveSuffix failure "bearer ".toList = failure ↔
      ∀ index, ¬FreshBearer failure index := by
  cases h : indexOf "bearer ".toList (lowerText failure) with
  | none =>
    rw [redactCaseInsensitiveSuffix, h]
    refine ⟨fun _ index hfresh => ?_, fun _ => rfl⟩
    cases h.symm.trans hfresh.1
  | some index =>
    rw [redact_of_indexOf h]
    have hsplit := List.take_append_drop (index + 7) failure
    constructor
    · rintro hsame other ⟨hother, hfresh⟩
      obtain rfl := Option.some.inj (h.symm.trans hother)
      exact hfresh (List.append_cancel_left (hsplit.trans hsame.symm))
    · intro hnone
      have hmark : failure.drop (index + 7) = redactedMark := by
        by_contra hfresh
        exact hnone index ⟨h, hfresh⟩
      rw [← hmark, hsplit]

section cases

variable {failure : Text} {index : ℕ}

theorem sanitize_of_exempt (h : Exempt failure) :
    sanitizeReleaseEvidenceFailure failure = failure := if_pos h

theorem sanitize_of_bearer (h : ¬Exempt failure) (hfresh : FreshBearer failure index) :
    sanitizeReleaseEvidenceFailure failure = failure.take (index + 7) ++ redactedMark := by
  have hne : redactCaseInsensitiveSuffix failure "bearer ".toList ≠ failure :=
    fun hsame => redact_eq_self_iff.mp hsame index hfresh
  unfold Exempt at h
  unfold sanitizeReleaseEvidenceFailure
  rw [if_neg h]
  exact (if_pos hne).trans (redact_of_indexOf hfresh.1)

/-- What is left when there is no credential behind `bearer `. -/
theorem sanitize_of_not_bearer (h : ¬Exempt failure)
    (hnone : ∀ index, ¬FreshBearer failure index) :
    sanitizeReleaseEvidenceFailure failure =
      match (indexOf "got ".toList (lowerText failure)).filter fun index =>
        secretValueMarkers.any fun marker =>
          marker.toList <:+: (lowerText failure).drop (index + 4) with
      | some index => failure.take index ++ "got <redacted>".toList
      | none => if maxFailureLength < byteLength failure then
          failure.take maxFailureLength ++ "... <truncated>".toList else failure := by
  unfold Exempt at h
  unfold sanitizeReleaseEvidenceFailure
  rw [if_neg h]
  exact if_neg (not_not_intro (redact_eq_self_iff.mpr hnone))

theorem sanitize_of_echoed (h : ¬Exempt failure) (hnone : ∀ index, ¬FreshBearer failure index)
    (hecho : EchoedSecret failure index) :
    sanitizeReleaseEvidenceFailure failure =
      failure.take index ++ ("got ".toList ++ redactedMark) := by
  obtain ⟨hindex, marker, hmarker, hinside⟩ := hecho
  have hany : (secretValueMarkers.any fun marker =>
      marker.toList <:+: (lowerText failure).drop (index + 4)) = true :=
    List.any_eq_true.mpr ⟨marker, hmarker, decide_eq_true hinside⟩
  rw [sanitize_of_not_bearer h hnone, hindex, Option.filter_some, if_pos hany]
  rfl

theorem sanitize_of_not_echoed (h : ¬Exempt failure)
    (hnone : ∀ index, ¬FreshBearer failure index) (hecho : ∀ index, ¬EchoedSecret failure index) :
    sanitizeReleaseEvidenceFailure failure =
      if maxFailureLength < byteLength failure then
        failure.take maxFailureLength ++ truncatedMark else failure := by
  rw [sanitize_of_not_bearer h hnone]
  cases hindex : indexOf "got ".toList (lowerText failure) with
  | none => rfl
  | some index =>
    have hany : ¬(secretValueMarkers.any fun marker =>
        marker.toList <:+: (lowerText failure).drop (index + 4)) = true := by
      intro hany
      obtain ⟨marker, hmarker, hinside⟩ := List.any_eq_true.mp hany
      exact hecho index ⟨hindex, marker, hmarker, of_decide_eq_true hinside⟩
    rw [Option.filter_some, if_neg hany]
    rfl

end cases

-- what is kept has the marks behind it

/-- The symbol stands in none of the patterns that are searched for. -/
def InNoPattern (c : Char) : Prop :=
  c ∉ "must not be present in token-free".toList ∧ c ∉ "bearer ".toList ∧ c ∉ "got ".toList ∧
    ∀ marker ∈ secretValueMarkers, c ∉ marker.toList

instance (c : Char) : Decidable (InNoPattern c) := inferInstanceAs (Decidable (_ ∧ _))

/-- A text in lower case with none of the patterns. -/
def Harmless (value : Text) : Prop :=
  lowerText value = value ∧ ¬Exempt value ∧ ¬"bearer ".toList <:+: value ∧
    ¬"got ".toList <:+: value ∧ ∀ marker ∈ secretValueMarkers, ¬marker.toList <:+: value

instance (value : Text) : Decidable (Harmless value) :=
  inferInstanceAs (Decidable (_ ∧ ¬_ <:+: _ ∧ _))

theorem harmless_redactedMark : InNoPattern '<' ∧ lowerText ['<'] = ['<'] ∧
    redactedMark = '<' :: "redacted>".toList ∧ Harmless "redacted>".toList := by
  decide

theorem harmless_truncatedMark : InNoPattern '.' ∧ lowerText ['.'] = ['.'] ∧
    truncatedMark = '.' :: ".. <truncated>".toList ∧ Harmless ".. <truncated>".toList := by
  decide

theorem secretValueMarkers_ne_nil : ∀ marker ∈ secretValueMarkers, marker.toList ≠ [] := by
  decide

section behind

variable {kept after : Text} {c : Char} (hc : InNoPattern c) (hlower : lowerText [c] = [c])
  (hafter : Harmless after)

include hc hlower hafter

omit hc in
theorem lowerText_append_cons : lowerText (kept ++ c :: after) = lowerText kept ++ c :: after := by
  have hcons : lowerText (c :: after) = lowerText [c] ++ lowerText after := rfl
  rw [lowerText_append, hcons, hlower, hafter.1]
  rfl

omit hlower in
theorem exempt_append_cons : Exempt (kept ++ c :: after) ↔ Exempt kept := by
  rw [Exempt, isInfix_append_cons_iff (by decide) hc.1]
  exact or_iff_left hafter.2.1

theorem indexOf_bearer_append_cons :
    indexOf "bearer ".toList (lowerText (kept ++ c :: after)) =
      indexOf "bearer ".toList (lowerText kept) := by
  rw [lowerText_append_cons hlower hafter]
  exact indexOf_append_cons (by decide) hc.2.1 hafter.2.2.1

theorem echoedSecret_append_cons {index : ℕ} :
    EchoedSecret (kept ++ c :: after) index ↔ EchoedSecret kept index := by
  have hindex : indexOf "got ".toList (lowerText (kept ++ c :: after)) =
      indexOf "got ".toList (lowerText kept) := by
    rw [lowerText_append_cons hlower hafter]
    exact indexOf_append_cons (by decide) hc.2.2.1 hafter.2.2.2.1
  rw [EchoedSecret, EchoedSecret, hindex]
  refine and_congr_right fun hkept => ?_
  have hle : index + 4 ≤ (lowerText kept).length := add_length_le_of_indexOf hkept
  rw [lowerText_append_cons hlower hafter, List.drop_append_of_le_length hle]
  constructor
  · rintro ⟨marker, hmarker, hinside⟩
    rw [isInfix_append_cons_iff (secretValueMarkers_ne_nil marker hmarker)
      (hc.2.2.2 marker hmarker)] at hinside
    exact ⟨marker, hmarker, hinside.resolve_right (hafter.2.2.2.2 marker hmarker)⟩
  · rintro ⟨marker, hmarker, hinside⟩
    exact ⟨marker, hmarker, hinside.trans (List.prefix_append _ _).isInfix⟩

end behind

theorem exempt_of_take {failure : Text} {n : ℕ} (h : Exempt (failure.take n)) : Exempt failure :=
  h.trans (List.take_prefix n failure).isInfix

-- sanitising again

/-- Two endings of one text, neither longer than the other's ending. -/
theorem false_of_suffixes {text first second : Text} (hfirst : first <:+ text)
    (hsecond : second <:+ text) (hle : first.length ≤ second.length) (hnot : ¬first <:+ second) :
    False := hnot (List.suffix_of_suffix_length_le hfirst hsecond hle)

theorem not_append_truncatedMark {kept other : Text} :
    kept ++ redactedMark ≠ other ++ truncatedMark := by
  intro heq
  exact false_of_suffixes (List.suffix_append kept _) (heq ▸ List.suffix_append other _)
    (by decide) (by decide)

section again

variable {failure : Text} {index : ℕ}

theorem take_of_bearer (h : indexOf "bearer ".toList (lowerText failure) = some index) :
    (lowerText failure).take (index + 7) = (lowerText failure).take index ++ "bearer ".toList :=
  take_of_indexOf h

theorem length_take_of_bearer (h : indexOf "bearer ".toList (lowerText failure) = some index) :
    (failure.take (index + 7)).length = index + 7 := by
  have hle := add_length_le_of_indexOf h
  rw [length_lowerText] at hle
  exact List.length_take_of_le hle

/-- A failure cut behind `bearer ` is not cut there again. -/
theorem not_freshBearer_of_bearer (h : FreshBearer failure index) (other : ℕ) :
    ¬FreshBearer (failure.take (index + 7) ++ redactedMark) other := by
  obtain ⟨hforeign, hlower, hmark, hharmless⟩ := harmless_redactedMark
  have hsame : indexOf "bearer ".toList (lowerText (failure.take (index + 7) ++ redactedMark)) =
      some index := by
    rw [hmark, indexOf_bearer_append_cons hforeign hlower hharmless, lowerText_take]
    exact indexOf_take h.1 (Nat.le_refl _)
  rintro ⟨hother, hne⟩
  obtain rfl := Option.some.inj (hsame.symm.trans hother)
  exact hne (List.drop_left' (length_take_of_bearer h.1))

theorem not_exempt_append_redactedMark {n : ℕ} (h : ¬Exempt failure) :
    ¬Exempt (failure.take n ++ redactedMark) := by
  obtain ⟨hforeign, -, hmark, hharmless⟩ := harmless_redactedMark
  rw [hmark, exempt_append_cons hforeign hharmless]
  exact fun hexempt => h (exempt_of_take hexempt)

theorem byteLength_redactedMark : byteLength redactedMark = 10 := by decide

/-- `got ` is not the end of what stands before the mark behind `bearer `. -/
theorem bearer_ne_got (h : FreshBearer failure index) (kept : Text) :
    failure.take (index + 7) ++ redactedMark ≠ kept ++ ("got ".toList ++ redactedMark) := by
  intro heq
  rw [← List.append_assoc] at heq
  have hkept := congrArg lowerText (List.append_cancel_right heq)
  have hgot : lowerText "got ".toList = "got ".toList := by decide
  rw [lowerText_take, take_of_bearer h.1, lowerText_append, hgot] at hkept
  exact false_of_suffixes (List.suffix_append (lowerText kept) _)
    (hkept ▸ List.suffix_append _ _) (by decide) (by decide)

/-- Behind `bearer `: the second pass must find nothing echoed and nothing to truncate. -/
theorem sanitize_again_of_bearer (h : ¬Exempt failure) (hfresh : FreshBearer failure index) :
    sanitizeReleaseEvidenceFailure (failure.take (index + 7) ++ redactedMark) =
        failure.take (index + 7) ++ redactedMark ↔
      (∀ echo, ¬EchoedSecret (failure.take (index + 7)) echo) ∧
        byteLength (failure.take (index + 7)) ≤ 502 := by
  obtain ⟨hforeign, hlower, hmark, hharmless⟩ := harmless_redactedMark
  have hexempt := not_exempt_append_redactedMark (n := index + 7) h
  have hnone := not_freshBearer_of_bearer hfresh
  have hecho : ∀ echo, EchoedSecret (failure.take (index + 7) ++ redactedMark) echo ↔
      EchoedSecret (failure.take (index + 7)) echo := by
    intro echo
    rw [hmark, echoedSecret_append_cons hforeign hlower hharmless]
  by_cases hany : ∃ echo, EchoedSecret (failure.take (index + 7)) echo
  · obtain ⟨echo, hecho'⟩ := hany
    rw [sanitize_of_echoed hexempt hnone ((hecho echo).mpr hecho')]
    constructor
    · intro heq
      exact absurd heq.symm (bearer_ne_got hfresh _)
    · rintro ⟨hnot, -⟩
      exact absurd hecho' (hnot echo)
  · have hnot : ∀ echo, ¬EchoedSecret (failure.take (index + 7)) echo :=
      fun echo h => hany ⟨echo, h⟩
    rw [sanitize_of_not_echoed hexempt hnone fun echo h => hnot echo ((hecho echo).mp h),
      byteLength_append, byteLength_redactedMark]
    by_cases hlong : maxFailureLength < byteLength (failure.take (index + 7)) + 10
    · rw [if_pos hlong]
      constructor
      · intro heq
        exact absurd heq.symm not_append_truncatedMark
      · rintro ⟨-, hshort⟩
        simp only [maxFailureLength] at hlong
        omega
    · rw [if_neg hlong]
      simp only [maxFailureLength] at hlong
      exact ⟨fun _ => ⟨hnot, by omega⟩, fun _ => rfl⟩

/-- Before the first `got ` there is no `bearer ` that was left alone. -/
theorem no_bearer_before (hnone : ∀ index, ¬FreshBearer failure index)
    (hgot : indexOf "got ".toList (lowerText failure) = some index) :
    ¬"bearer ".toList <:+: (lowerText failure).take index := by
  intro hinside
  cases hbearer : indexOf "bearer ".toList ((lowerText failure).take index) with
  | none => exact indexOf_eq_none_iff.mp hbearer hinside
  | some start =>
    have hle : start + 7 ≤ index := by
      have hlength := add_length_le_of_indexOf hbearer
      have htake := List.length_take_le index (lowerText failure)
      exact hlength.trans htake
    have hfirst := indexOf_append hbearer ((lowerText failure).drop index)
    rw [List.take_append_drop] at hfirst
    have hmark : failure.drop (start + 7) = redactedMark := by
      by_contra hfresh
      exact hnone start ⟨hfirst, hfresh⟩
    -- so the `got ` would stand in the mark
    have hmem : 'g' ∈ (lowerText failure).drop index :=
      (indexOf_eq_some_iff.mp hgot).1.subset (by decide)
    have hsuffix : (lowerText failure).drop index <:+ (lowerText failure).drop (start + 7) :=
      List.drop_suffix_drop_left _ hle
    have hin := hsuffix.subset hmem
    rw [← lowerText_drop, hmark] at hin
    exact absurd hin (by decide)

theorem foreign_got : 'g' ∉ "must not be present in token-free".toList ∧ 'g' ∉ "bearer ".toList ∧
    "got ".toList ++ redactedMark = 'g' :: "ot <redacted>".toList ∧
    lowerText ('g' :: "ot <redacted>".toList) = 'g' :: "ot <redacted>".toList ∧
    ¬Exempt "ot <redacted>".toList ∧ ¬"bearer ".toList <:+: "ot <redacted>".toList ∧
    ∀ marker ∈ secretValueMarkers, ¬marker.toList <:+: redactedMark := by
  unfold Exempt
  decide

/-- Behind `got `: the second pass must find nothing to truncate. -/
theorem sanitize_again_of_echoed (h : ¬Exempt failure)
    (hnone : ∀ index, ¬FreshBearer failure index) (hecho : EchoedSecret failure index) :
    sanitizeReleaseEvidenceFailure (failure.take index ++ ("got ".toList ++ redactedMark)) =
        failure.take index ++ ("got ".toList ++ redactedMark) ↔
      byteLength (failure.take index) ≤ 498 := by
  obtain ⟨hphrase, hbearer, hcons, hlower, hphrase', hbearer', hmarkers⟩ := foreign_got
  have hexempt : ¬Exempt (failure.take index ++ ("got ".toList ++ redactedMark)) := by
    rw [Exempt, hcons, isInfix_append_cons_iff (by decide) hphrase, not_or]
    exact ⟨fun hin => h (exempt_of_take hin), hphrase'⟩
  have hkept : lowerText (failure.take index ++ ("got ".toList ++ redactedMark)) =
      (lowerText failure).take index ++ ("got ".toList ++ redactedMark) := by
    rw [lowerText_append, lowerText_take, hcons, hlower]
  have hfresh : ∀ other, ¬FreshBearer (failure.take index ++ ("got ".toList ++ redactedMark))
      other := by
    rintro other ⟨hother, -⟩
    have hinside := isInfix_of_indexOf hother
    rw [hkept, hcons, isInfix_append_cons_iff (by decide) hbearer] at hinside
    exact hinside.elim (no_bearer_before hnone hecho.1) hbearer'
  have hsame : indexOf "got ".toList (lowerText (failure.take index ++
      ("got ".toList ++ redactedMark))) = some index := by
    have htake := take_of_indexOf hecho.1
    rw [hkept, ← List.append_assoc, ← htake]
    exact indexOf_append (indexOf_take hecho.1 (Nat.le_refl _)) _
  have hnot : ∀ other, ¬EchoedSecret (failure.take index ++ ("got ".toList ++ redactedMark))
      other := by
    rintro other ⟨hother, marker, hmarker, hinside⟩
    obtain rfl := Option.some.inj (hsame.symm.trans hother)
    have hlength : ((lowerText failure).take index ++ "got ".toList).length = index + 4 := by
      have hle := add_length_le_of_indexOf hecho.1
      have hgot : "got ".toList.length = 4 := rfl
      rw [List.length_append, List.length_take_of_le (by omega), hgot]
    rw [hkept, ← List.append_assoc, List.drop_left' hlength] at hinside
    exact hmarkers marker hmarker hinside
  have hbytes : byteLength (failure.take index ++ ("got ".toList ++ redactedMark)) =
      byteLength (failure.take index) + 14 := by
    have hecho : byteLength ("got ".toList ++ redactedMark) = 14 := by decide
    rw [byteLength_append, hecho]
  rw [sanitize_of_not_echoed hexempt hfresh hnot, hbytes]
  by_cases hlong : maxFailureLength < byteLength (failure.take index) + 14
  · rw [if_pos hlong]
    simp only [maxFailureLength] at hlong
    constructor
    · intro heq
      rw [← List.append_assoc] at heq
      exact absurd heq.symm not_append_truncatedMark
    · intro hshort
      omega
  · rw [if_neg hlong]
    simp only [maxFailureLength] at hlong
    exact ⟨fun _ => by omega, fun _ => rfl⟩

end again

section long

variable {failure : Text}

theorem echoedSecret_of_take {n index : ℕ} (h : EchoedSecret (failure.take n) index) :
    EchoedSecret failure index := by
  obtain ⟨hindex, marker, hmarker, hinside⟩ := h
  rw [lowerText_take] at hindex hinside
  have hwhole := indexOf_append hindex ((lowerText failure).drop n)
  rw [List.take_append_drop] at hwhole
  refine ⟨hwhole, marker, hmarker, hinside.trans ?_⟩
  rw [List.drop_take]
  exact (List.take_prefix _ _).isInfix

theorem byteLength_truncatedMark : byteLength truncatedMark = 15 := by decide

theorem length_truncatedMark : truncatedMark.length = 15 := by decide

/-- Truncating twice is truncating once for a text of at least so many characters. -/
theorem truncate_again_iff (h : maxFailureLength < byteLength failure) :
    (if maxFailureLength < byteLength (failure.take maxFailureLength ++ truncatedMark) then
      (failure.take maxFailureLength ++ truncatedMark).take maxFailureLength ++ truncatedMark
      else failure.take maxFailureLength ++ truncatedMark) =
        failure.take maxFailureLength ++ truncatedMark ↔ maxFailureLength ≤ failure.length := by
  by_cases hchars : maxFailureLength ≤ failure.length
  · have htake : (failure.take maxFailureLength).length = maxFailureLength :=
      List.length_take_of_le hchars
    rw [List.take_left' htake, ite_self]
    exact ⟨fun _ => hchars, fun _ => rfl⟩
  · have hwhole : failure.take maxFailureLength = failure := List.take_of_length_le (by omega)
    have hbytes : maxFailureLength < byteLength (failure ++ truncatedMark) := by
      rw [byteLength_append]
      omega
    rw [hwhole, if_pos hbytes]
    refine ⟨fun heq => ?_, fun hle => absurd hle hchars⟩
    have hlength := congrArg List.length (List.append_cancel_right heq)
    rw [List.length_take, List.length_append, length_truncatedMark] at hlength
    omega

/-- What was truncated: the cut must leave no `bearer ` and enough characters. -/
theorem sanitize_again_of_long (h : ¬Exempt failure) (hecho : ∀ index, ¬EchoedSecret failure index)
    (hlong : maxFailureLength < byteLength failure) :
    sanitizeReleaseEvidenceFailure (failure.take maxFailureLength ++ truncatedMark) =
        failure.take maxFailureLength ++ truncatedMark ↔
      maxFailureLength ≤ failure.length ∧
        ¬"bearer ".toList <:+: lowerText (failure.take maxFailureLength) := by
  obtain ⟨hforeign, hlower, hmark, hharmless⟩ := harmless_truncatedMark
  have hexempt : ¬Exempt (failure.take maxFailureLength ++ truncatedMark) := by
    rw [hmark, exempt_append_cons hforeign hharmless]
    exact fun hin => h (exempt_of_take hin)
  have hbearer : indexOf "bearer ".toList (lowerText (failure.take maxFailureLength ++
      truncatedMark)) = indexOf "bearer ".toList (lowerText (failure.take maxFailureLength)) := by
    rw [hmark]
    exact indexOf_bearer_append_cons hforeign hlower hharmless
  have hnot : ∀ index, ¬EchoedSecret (failure.take maxFailureLength ++ truncatedMark) index := by
    intro index hin
    rw [hmark, echoedSecret_append_cons hforeign hlower hharmless] at hin
    exact hecho index (echoedSecret_of_take hin)
  cases hindex : indexOf "bearer ".toList (lowerText (failure.take maxFailureLength)) with
  | some index =>
    have hfresh : FreshBearer (failure.take maxFailureLength ++ truncatedMark) index := by
      refine ⟨hbearer.trans hindex, ?_⟩
      have hle : index + 7 ≤ (failure.take maxFailureLength).length := by
        rw [← length_lowerText]
        exact add_length_le_of_indexOf hindex
      rw [List.drop_append_of_le_length hle]
      intro heq
      have hlength := congrArg List.length heq
      have hredacted : redactedMark.length = 10 := by decide
      rw [List.length_append, length_truncatedMark, hredacted] at hlength
      omega
    rw [sanitize_of_bearer hexempt hfresh]
    constructor
    · intro heq
      exact absurd heq not_append_truncatedMark
    · rintro ⟨-, hnone⟩
      exact absurd (isInfix_of_indexOf hindex) hnone
  | none =>
    have hfresh : ∀ index, ¬FreshBearer (failure.take maxFailureLength ++ truncatedMark) index := by
      intro index hin
      cases (hbearer.trans hindex).symm.trans hin.1
    rw [sanitize_of_not_echoed hexempt hfresh hnot]
    exact (truncate_again_iff hlong).trans
      (and_iff_left (indexOf_eq_none_iff.mp hindex)).symm

end long

/-- A second pass leaves the sanitised failure as it is. -/
def Settles (failure : Text) : Prop :=
  Exempt failure ∨
  (∃ index, FreshBearer failure index ∧
    (∀ echo, ¬EchoedSecret (failure.take (index + 7)) echo) ∧
    byteLength (failure.take (index + 7)) ≤ 502) ∨
  ((∀ index, ¬FreshBearer failure index) ∧
    ((∃ index, EchoedSecret failure index ∧ byteLength (failure.take index) ≤ 498) ∨
      ((∀ index, ¬EchoedSecret failure index) ∧
        (byteLength failure ≤ maxFailureLength ∨ maxFailureLength ≤ failure.length ∧
          ¬"bearer ".toList <:+: lowerText (failure.take maxFailureLength)))))

theorem FreshBearer.unique {failure : Text} {i j : ℕ} (hi : FreshBearer failure i)
    (hj : FreshBearer failure j) : i = j := Option.some.inj (hi.1.symm.trans hj.1)

theorem EchoedSecret.unique {failure : Text} {i j : ℕ} (hi : EchoedSecret failure i)
    (hj : EchoedSecret failure j) : i = j := Option.some.inj (hi.1.symm.trans hj.1)

theorem sanitize_sanitize_iff (failure : Text) :
    sanitizeReleaseEvidenceFailure (sanitizeReleaseEvidenceFailure failure) =
      sanitizeReleaseEvidenceFailure failure ↔ Settles failure := by
  by_cases hexempt : Exempt failure
  · rw [sanitize_of_exempt hexempt, sanitize_of_exempt hexempt]
    exact ⟨fun _ => .inl hexempt, fun _ => rfl⟩
  · rw [Settles, or_iff_right hexempt]
    by_cases hbearer : ∃ index, FreshBearer failure index
    · obtain ⟨index, hfresh⟩ := hbearer
      rw [sanitize_of_bearer hexempt hfresh, sanitize_again_of_bearer hexempt hfresh]
      constructor
      · exact fun h => .inl ⟨index, hfresh, h⟩
      · rintro (⟨other, hother, h⟩ | ⟨hnone, -⟩)
        · obtain rfl := hfresh.unique hother
          exact h
        · exact absurd hfresh (hnone index)
    · have hnone : ∀ index, ¬FreshBearer failure index := fun index h => hbearer ⟨index, h⟩
      have hleft : ¬∃ index, FreshBearer failure index ∧
          (∀ echo, ¬EchoedSecret (failure.take (index + 7)) echo) ∧
          byteLength (failure.take (index + 7)) ≤ 502 := fun ⟨index, h, _⟩ => hnone index h
      rw [or_iff_right hleft, and_iff_right hnone]
      by_cases hecho : ∃ index, EchoedSecret failure index
      · obtain ⟨index, hecho⟩ := hecho
        rw [sanitize_of_echoed hexempt hnone hecho, sanitize_again_of_echoed hexempt hnone hecho]
        constructor
        · exact fun h => .inl ⟨index, hecho, h⟩
        · rintro (⟨other, hother, h⟩ | ⟨hnot, -⟩)
          · obtain rfl := hecho.unique hother
            exact h
          · exact absurd hecho (hnot index)
      · have hnot : ∀ index, ¬EchoedSecret failure index := fun index h => hecho ⟨index, h⟩
        have hleft : ¬∃ index, EchoedSecret failure index ∧
            byteLength (failure.take index) ≤ 498 := fun ⟨index, h, _⟩ => hnot index h
        rw [or_iff_right hleft, and_iff_right hnot, sanitize_of_not_echoed hexempt hnone hnot]
        by_cases hlong : maxFailureLength < byteLength failure
        · rw [if_pos hlong, sanitize_again_of_long hexempt hnot hlong]
          exact (or_iff_right (by omega)).symm
        · rw [if_neg hlong, sanitize_of_not_echoed hexempt hnone hnot, if_neg hlong]
          exact ⟨fun _ => .inl (by omega), fun _ => rfl⟩

-- what is left of a credential

/-- Nothing of the credential stays in the sanitised failure: the text is cut, and the
    credential does not stand in front of the cut, nor by chance in what is put there. -/
def LeakFree (failure candidate : Text) : Prop :=
  ¬Exempt failure ∧
  ((∃ index, FreshBearer failure index ∧ ¬candidate <:+: failure.take (index + 7)) ∨
  ((∀ index, ¬FreshBearer failure index) ∧
    ((∃ index, EchoedSecret failure index ∧
      ¬candidate <:+: failure.take index ++ "got ".toList) ∨
    ((∀ index, ¬EchoedSecret failure index) ∧ maxFailureLength < byteLength failure ∧
      ¬candidate <:+: failure.take maxFailureLength ++ "... ".toList ∧
      ¬candidate <:+: "<truncated>".toList))))

section leaks

variable {failure candidate : Text} (hspace : ' ' ∉ candidate) (hne : candidate ≠ [])

include hspace hne

/-- A text without spaces does not stand across one. -/
theorem isInfix_append_space {kept after : Text} :
    candidate <:+: (kept ++ [' ']) ++ after ↔
      candidate <:+: kept ++ [' '] ∨ candidate <:+: after := by
  have hnil : ¬candidate <:+: [] := fun h => hne (List.infix_nil.mp h)
  rw [List.append_assoc, List.singleton_append, isInfix_append_cons_iff hne hspace,
    isInfix_append_cons_iff hne hspace, or_iff_left hnil]

theorem isInfix_bearer {index : ℕ} (h : FreshBearer failure index)
    (hmark : ¬candidate <:+: redactedMark) :
    candidate <:+: failure.take (index + 7) ++ redactedMark ↔
      candidate <:+: failure.take (index + 7) := by
  have hlast : ∃ kept, failure.take (index + 7) = kept ++ [' '] := by
    have hlower := take_of_bearer h.1
    have hlength := length_take_of_bearer h.1
    rw [← lowerText_take] at hlower
    cases hkept : (failure.take (index + 7)).eq_nil_or_concat with
    | inl hnil => rw [hnil] at hlength; simp at hlength
    | inr hconcat =>
      obtain ⟨kept, c, hc⟩ := hconcat
      have hbearer : "bearer ".toList = "bearer".toList ++ [' '] := by decide
      rw [hc, List.concat_eq_append, lowerText_append, hbearer, ← List.append_assoc] at hlower
      have hspace := (List.append_inj' hlower rfl).2
      have hc' : toAsciiLowercase c = ' ' := (List.cons.inj hspace).1
      have hchar : c = ' ' := (toAsciiLowercase_eq_iff (by decide) (by decide)).mp hc'
      exact ⟨kept, by rw [hc, hchar, List.concat_eq_append]⟩
  obtain ⟨kept, hkept⟩ := hlast
  rw [hkept, isInfix_append_space hspace hne, or_iff_left hmark]

theorem not_isInfix_sanitize_iff (hin : candidate <:+: failure)
    (hmark : ¬candidate <:+: redactedMark) :
    ¬candidate <:+: sanitizeReleaseEvidenceFailure failure ↔ LeakFree failure candidate := by
  by_cases hexempt : Exempt failure
  · rw [sanitize_of_exempt hexempt]
    exact ⟨fun h => absurd hin h, fun h => absurd hexempt h.1⟩
  · rw [LeakFree, and_iff_right hexempt]
    by_cases hbearer : ∃ index, FreshBearer failure index
    · obtain ⟨index, hfresh⟩ := hbearer
      rw [sanitize_of_bearer hexempt hfresh, isInfix_bearer hspace hne hfresh hmark]
      constructor
      · exact fun h => .inl ⟨index, hfresh, h⟩
      · rintro (⟨other, hother, h⟩ | ⟨hnone, -⟩)
        · obtain rfl := hfresh.unique hother
          exact h
        · exact absurd hfresh (hnone index)
    · have hnone : ∀ index, ¬FreshBearer failure index := fun index h => hbearer ⟨index, h⟩
      have hleft : ¬∃ index, FreshBearer failure index ∧
          ¬candidate <:+: failure.take (index + 7) := fun ⟨index, h, _⟩ => hnone index h
      rw [or_iff_right hleft, and_iff_right hnone]
      by_cases hecho : ∃ index, EchoedSecret failure index
      · obtain ⟨index, hecho⟩ := hecho
        have hgot : "got ".toList = "got".toList ++ [' '] := by decide
        have hcut : candidate <:+: failure.take index ++ ("got ".toList ++ redactedMark) ↔
            candidate <:+: failure.take index ++ "got ".toList := by
          rw [hgot, ← List.append_assoc, ← List.append_assoc, isInfix_append_space hspace hne,
            or_iff_left hmark]
        rw [sanitize_of_echoed hexempt hnone hecho, hcut]
        constructor
        · exact fun h => .inl ⟨index, hecho, h⟩
        · rintro (⟨other, hother, h⟩ | ⟨hnot, -⟩)
          · obtain rfl := hecho.unique hother
            exact h
          · exact absurd hecho (hnot index)
      · have hnot : ∀ index, ¬EchoedSecret failure index := fun index h => hecho ⟨index, h⟩
        have hleft : ¬∃ index, EchoedSecret failure index ∧
            ¬candidate <:+: failure.take index ++ "got ".toList :=
          fun ⟨index, h, _⟩ => hnot index h
        rw [or_iff_right hleft, and_iff_right hnot, sanitize_of_not_echoed hexempt hnone hnot]
        by_cases hlong : maxFailureLength < byteLength failure
        · have hdots : "... ".toList = "...".toList ++ [' '] := by decide
          have hmark' : truncatedMark = ("...".toList ++ [' ']) ++ "<truncated>".toList := by
            decide
          rw [if_pos hlong, and_iff_right hlong, hmark', hdots, ← List.append_assoc,
            ← List.append_assoc, isInfix_append_space hspace hne, not_or]
        · rw [if_neg hlong]
          exact ⟨fun h => absurd hin h, fun h => absurd h.1 hlong⟩

end leaks

/-- An echoed credential is gone exactly when the text is cut in front of it, and
    sanitising is idempotent exactly when the cut text is not cut again. -/
theorem sanitizer_exact (failure : Text) :
    (∀ start value candidate, failure = start ++ ("got ".toList ++ value) →
      CredentialFragment value candidate → ¬candidate <:+: start →
      ¬candidate <:+: redactedMark →
      (¬candidate <:+: sanitizeReleaseEvidenceFailure failure ↔ LeakFree failure candidate)) ∧
    (sanitizeReleaseEvidenceFailure (sanitizeReleaseEvidenceFailure failure) =
      sanitizeReleaseEvidenceFailure failure ↔ Settles failure) := by
  refine ⟨?_, sanitize_sanitize_iff failure⟩
  rintro start value candidate rfl hfragment - hmark
  have hin : candidate <:+: start ++ ("got ".toList ++ value) :=
    hfragment.isInfix.trans
      ((List.suffix_append _ value).trans (List.suffix_append start _)).isInfix
  exact not_isInfix_sanitize_iff hfragment.space_notMem hfragment.ne_nil hin hmark

/-- A tab behind `bearer` lets a credential through, and the first of two rules that
    fire leaves what the second would redact. -/
theorem bearer_tab_leaks :
    (CredentialFragment "bearer\tabc123".toList "abc123".toList ∧
      ¬"abc123".toList <:+: redactedMark ∧
      "abc123".toList <:+: sanitizeReleaseEvidenceFailure "got bearer\tabc123".toList) ∧
    sanitizeReleaseEvidenceFailure "got password=x bearer y".toList =
      "got password=x bearer <redacted>".toList ∧
    sanitizeReleaseEvidenceFailure "got password=x bearer <redacted>".toList =
      "got <redacted>".toList := by
  unfold CredentialFragment
  decide

end CairnId
