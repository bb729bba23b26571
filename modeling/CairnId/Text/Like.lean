import Mathlib.Data.List.Induction
import Mathlib.Data.List.Infix

/-!
# Patterns with wildcards

The patterns of SQL's `LIKE`: one symbol stands for any text, one for any symbol, and one
escapes the symbol behind it.

## Main definitions

- `Likes` — the texts that a pattern matches

## Main results

- `likes_append_run_iff` — a plain text with the first wildcard behind it is a prefix
- `exists_likes_not_prefix` — any other text matches a text that does not begin with it
-/

namespace Like

variable {α : Type} (run one escape : α)

/-- The pattern matches the text. -/
inductive Likes : List α → List α → Prop
  | nil : Likes [] []
  | run {pattern rest : List α} (skipped : List α) : Likes pattern rest →
    Likes (run :: pattern) (skipped ++ rest)
  | one {pattern rest : List α} (c : α) : Likes pattern rest → Likes (one :: pattern) (c :: rest)
  | escaped {pattern rest : List α} (c : α) : Likes pattern rest →
    Likes (escape :: c :: pattern) (c :: rest)
  | literal {pattern rest : List α} {c : α} : c ≠ run → c ≠ one → c ≠ escape →
    Likes pattern rest → Likes (c :: pattern) (c :: rest)

/-- The symbol stands for itself. -/
def Plain (c : α) : Prop := c ≠ run ∧ c ≠ one ∧ c ≠ escape

variable {run one escape}

theorem likes_run (text : List α) : Likes run one escape [run] text := by
  have h : Likes run one escape [run] (text ++ []) := .run text .nil
  rwa [List.append_nil] at h

/-- A plain text is matched as it is. -/
theorem likes_append {plain pattern rest : List α} (h : ∀ c ∈ plain, Plain run one escape c)
    (hrest : Likes run one escape pattern rest) :
    Likes run one escape (plain ++ pattern) (plain ++ rest) := by
  induction plain with
  | nil => exact hrest
  | cons c plain ih =>
    obtain ⟨hrun, hone, hescape⟩ := h c (.head _)
    exact .literal hrun hone hescape (ih fun d hd => h d (.tail _ hd))

theorem prefix_of_likes_append {plain pattern text : List α}
    (h : ∀ c ∈ plain, Plain run one escape c)
    (hlikes : Likes run one escape (plain ++ pattern) text) : plain <+: text := by
  induction plain generalizing text with
  | nil => exact List.nil_prefix
  | cons c plain ih =>
    obtain ⟨hrun, hone, hescape⟩ := h c (.head _)
    rw [List.cons_append] at hlikes
    generalize hpattern : plain ++ pattern = tail at hlikes
    cases hlikes with
    | run => exact absurd rfl hrun
    | one => exact absurd rfl hone
    | escaped => exact absurd rfl hescape
    | literal _ _ _ hrest =>
      subst hpattern
      exact List.cons_prefix_cons.mpr ⟨rfl, ih (fun d hd => h d (.tail _ hd)) hrest⟩

theorem likes_append_run_iff {plain text : List α} (h : ∀ c ∈ plain, Plain run one escape c) :
    Likes run one escape (plain ++ [run]) text ↔ plain <+: text := by
  constructor
  · exact prefix_of_likes_append h
  · rintro ⟨rest, rfl⟩
    exact likes_append h (likes_run rest)

/-- A plain symbol of the pattern is in every text that it matches. -/
theorem mem_of_likes {pattern text : List α} {c : α} (h : Likes run one escape pattern text)
    (hc : Plain run one escape c) (hmem : c ∈ pattern) : c ∈ text := by
  induction h with
  | nil => exact hmem
  | run skipped _ ih =>
    have htail := (List.mem_cons.mp hmem).resolve_left hc.1
    exact List.mem_append_right skipped (ih htail)
  | one d _ ih =>
    have htail := (List.mem_cons.mp hmem).resolve_left hc.2.1
    exact .tail d (ih htail)
  | escaped d _ ih =>
    have htail := (List.mem_cons.mp hmem).resolve_left hc.2.2
    obtain rfl | hrest := List.mem_cons.mp htail
    · exact .head _
    · exact .tail d (ih hrest)
  | literal _ _ _ _ ih =>
    obtain rfl | hrest := List.mem_cons.mp hmem
    · exact .head _
    · exact .tail _ (ih hrest)

variable (run one escape) in
/-- A text is read symbol by symbol, and what is escaped with its escape. -/
theorem induction_on {motive : List α → Prop} (nil : motive [])
    (run_cons : ∀ text, motive text → motive (run :: text))
    (one_cons : ∀ text, motive text → motive (one :: text)) (last : motive [escape])
    (escaped_cons : ∀ c text, motive text → motive (escape :: c :: text))
    (plain_cons : ∀ c text, Plain run one escape c → motive text → motive (c :: text))
    (text : List α) : motive text := by
  have step : ∀ c text, motive text → (c = escape → motive (c :: text)) → motive (c :: text) := by
    intro c text htext hescape
    by_cases hc : c = escape
    · exact hescape hc
    · by_cases hrun : c = run
      · exact hrun ▸ run_cons text htext
      · by_cases hone : c = one
        · exact hone ▸ one_cons text htext
        · exact plain_cons c text ⟨hrun, hone, hc⟩ htext
  induction text using List.twoStepInduction with
  | nil => exact nil
  | singleton c => exact step c [] nil fun hc => hc ▸ last
  | cons_cons c d text ih ih' =>
    exact step c (d :: text) (ih' d) fun hc => hc ▸ escaped_cons d text ih

/-- A text that any text with the first wildcard behind it matches. -/
theorem exists_likes (a : α) (text : List α) : ∃ subject,
    Likes run one escape (text ++ [run]) subject ∧ subject.length ≤ text.length ∧
      ∀ c ∈ subject, c ∈ text ∨ c = a ∨ c = run := by
  induction text using induction_on run one escape with
  | nil => exact ⟨[], likes_run [], Nat.le_refl 0, fun c hc => absurd hc List.not_mem_nil⟩
  | run_cons text ih =>
    obtain ⟨subject, hlikes, hlength, hmem⟩ := ih
    refine ⟨subject, .run [] hlikes, Nat.le_succ_of_le hlength, ?_⟩
    exact fun c hc => (hmem c hc).imp_left (.tail _)
  | one_cons text ih =>
    obtain ⟨subject, hlikes, hlength, hmem⟩ := ih
    refine ⟨a :: subject, .one a hlikes, Nat.succ_le_succ hlength, ?_⟩
    intro c hc
    obtain rfl | hrest := List.mem_cons.mp hc
    · exact .inr (.inl rfl)
    · exact (hmem c hrest).imp_left (.tail _)
  | last =>
    refine ⟨[run], .escaped run .nil, Nat.le_refl 1, ?_⟩
    exact fun c hc => .inr (.inr (List.mem_singleton.mp hc))
  | escaped_cons d text ih =>
    obtain ⟨subject, hlikes, hlength, hmem⟩ := ih
    refine ⟨d :: subject, .escaped d hlikes, ?_, ?_⟩
    · simp only [List.length_cons]
      omega
    · intro c hc
      obtain rfl | hrest := List.mem_cons.mp hc
      · exact .inl (.tail _ (.head _))
      · exact (hmem c hrest).imp_left fun h => .tail _ (.tail _ h)
  | plain_cons d text hplain ih =>
    obtain ⟨subject, hlikes, hlength, hmem⟩ := ih
    obtain ⟨hrun, hone, hescape⟩ := hplain
    refine ⟨d :: subject, .literal hrun hone hescape hlikes, Nat.succ_le_succ hlength, ?_⟩
    intro c hc
    obtain rfl | hrest := List.mem_cons.mp hc
    · exact .inl (.head _)
    · exact (hmem c hrest).imp_left (.tail _)

/-- A text with a symbol that does not stand for itself also matches a text that does not
    begin with it. -/
theorem exists_likes_not_prefix {a : α} (ha : one ≠ a) (hrun : escape ≠ run) {text : List α}
    (h : ∃ c ∈ text, ¬Plain run one escape c) : ∃ subject,
    Likes run one escape (text ++ [run]) subject ∧ ¬text <+: subject ∧
      ∀ c ∈ subject, c ∈ text ∨ c = a ∨ c = run := by
  induction text using induction_on run one escape with
  | nil =>
    obtain ⟨c, hc, -⟩ := h
    exact absurd hc List.not_mem_nil
  | run_cons text =>
    obtain ⟨subject, hlikes, hlength, hmem⟩ := exists_likes a text
    refine ⟨subject, .run [] hlikes, ?_, fun c hc => (hmem c hc).imp_left (.tail _)⟩
    intro hbegins
    have hle := hbegins.length_le
    rw [List.length_cons] at hle
    omega
  | one_cons text =>
    obtain ⟨subject, hlikes, -, hmem⟩ := exists_likes a text
    refine ⟨a :: subject, .one a hlikes, ?_, ?_⟩
    · intro hbegins
      exact ha (List.cons_prefix_cons.mp hbegins).1
    · intro c hc
      obtain rfl | hrest := List.mem_cons.mp hc
      · exact .inr (.inl rfl)
      · exact (hmem c hrest).imp_left (.tail _)
  | last =>
    refine ⟨[run], .escaped run .nil, ?_, fun c hc => .inr (.inr (List.mem_singleton.mp hc))⟩
    intro hbegins
    exact hrun (List.cons_prefix_cons.mp hbegins).1
  | escaped_cons d text =>
    obtain ⟨subject, hlikes, hlength, hmem⟩ := exists_likes a text
    refine ⟨d :: subject, .escaped d hlikes, ?_, ?_⟩
    · intro hbegins
      have hle := hbegins.length_le
      simp only [List.length_cons] at hle
      omega
    · intro c hc
      obtain rfl | hrest := List.mem_cons.mp hc
      · exact .inl (.tail _ (.head _))
      · exact (hmem c hrest).imp_left fun h => .tail _ (.tail _ h)
  | plain_cons d text hplain ih =>
    obtain ⟨c, hc, hspecial⟩ := h
    have hrest : c ∈ text := by
      refine (List.mem_cons.mp hc).resolve_left ?_
      rintro rfl
      exact hspecial hplain
    obtain ⟨subject, hlikes, hnot, hmem⟩ := ih ⟨c, hrest, hspecial⟩
    refine ⟨d :: subject, .literal hplain.1 hplain.2.1 hplain.2.2 hlikes, ?_, ?_⟩
    · intro hbegins
      exact hnot (List.cons_prefix_cons.mp hbegins).2
    · intro e he
      obtain rfl | hin := List.mem_cons.mp he
      · exact .inl (.head _)
      · exact (hmem e hin).imp_left (.tail _)

end Like
