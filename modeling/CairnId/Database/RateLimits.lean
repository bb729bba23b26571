import CairnId.Database.Evolution

/-!
# The buckets of the throttle

What the three methods on `rate_limit_buckets` do to the bucket with a given key.

## Main results

- `exec_recordRateLimitFailure` — a recorded failure replaces the bucket with its key
- `exec_clearRateLimitBucket` — a cleared bucket is not one with another key
-/

namespace CairnId

open Concurrency Concurrency.Sql Database

def bucketAt (key : String) (s : Store) : Option RateLimitBucket :=
  (s.tables .rateLimitBuckets).find? fun b => b.key = key

section rows

variable {key key' : String} {bucket : RateLimitBucket} {rows : List RateLimitBucket}

/-- The row with the key is found in its new state. -/
theorem find?_replaced (hbucket : bucket.key = key) (h : ∃ old ∈ rows, old.key = key) :
    (rows.map fun b => if b.key = key then bucket else b).find? (fun b => b.key = key) =
      some bucket := by
  induction rows with
  | nil =>
    obtain ⟨old, hold, -⟩ := h
    cases hold
  | cons b rows ih =>
    rw [List.map_cons]
    by_cases hb : b.key = key
    · rw [if_pos hb, List.find?_cons_of_pos (by simpa using hbucket)]
    · have hrest : ∃ old ∈ rows, old.key = key := by
        obtain ⟨old, hold, hkey⟩ := h
        obtain rfl | hold := List.mem_cons.mp hold
        · exact absurd hkey hb
        · exact ⟨old, hold, hkey⟩
      rw [if_neg hb, List.find?_cons_of_neg (by simpa using hb)]
      exact ih hrest

/-- A row with another key is found as it was. -/
theorem find?_replaced_of_ne (hbucket : bucket.key = key) (hne : key' ≠ key) :
    (rows.map fun b => if b.key = key then bucket else b).find? (fun b => b.key = key') =
      rows.find? fun b => b.key = key' := by
  induction rows with
  | nil => rfl
  | cons b rows ih =>
    have hnew : bucket.key ≠ key' := fun h => hne (h.symm.trans hbucket)
    rw [List.map_cons]
    by_cases hb : b.key = key
    · have hold : b.key ≠ key' := fun h => hne (h.symm.trans hb)
      rw [if_pos hb, List.find?_cons_of_neg (by simpa using hnew),
        List.find?_cons_of_neg (by simpa using hold), ih]
    · rw [if_neg hb, List.find?_cons, List.find?_cons, ih]

end rows

variable {key key' purpose : String} {now : OffsetDateTime} {window blockFor : Duration}
  {maxAttempts : Int} {s s' : Store}

/-- In its window a bucket counts one more, and is blocked anew from the limit on. -/
theorem failedBucket_of_window {b : RateLimitBucket} (h : now < b.windowStart + window) :
    failedBucket (some b) key purpose now window maxAttempts blockFor =
      { b with
        attempts := b.attempts + 1
        updatedAt := now
        blockedUntil :=
          if maxAttempts ≤ b.attempts + 1 then some (now + blockFor) else b.blockedUntil } := by
  unfold failedBucket
  dsimp only
  rw [if_pos h]
  by_cases hmax : maxAttempts ≤ b.attempts + 1
  · rw [if_pos hmax, if_pos hmax]
  · rw [if_neg hmax, if_neg hmax]

/-- Otherwise the count starts again. -/
theorem failedBucket_of_expired {existing : Option RateLimitBucket}
    (h : ∀ b ∈ existing, b.windowStart + window ≤ now) :
    failedBucket existing key purpose now window maxAttempts blockFor =
      ⟨key, purpose, 1, now, if maxAttempts ≤ 1 then some (now + blockFor) else none, now⟩ := by
  have hfresh : ∀ bucket : RateLimitBucket, bucket = ⟨key, purpose, 1, now, none, now⟩ →
      (if maxAttempts ≤ bucket.attempts then { bucket with blockedUntil := some (now + blockFor) }
        else bucket) =
        ⟨key, purpose, 1, now, if maxAttempts ≤ 1 then some (now + blockFor) else none, now⟩ := by
    rintro _ rfl
    by_cases hmax : maxAttempts ≤ 1
    · rw [if_pos hmax, if_pos hmax]
    · rw [if_neg hmax, if_neg hmax]
  refine hfresh _ ?_
  cases existing with
  | none => rfl
  | some b => exact if_neg (not_lt.mpr (h b rfl))

theorem failedBucket_key {existing : Option RateLimitBucket} (h : ∀ b ∈ existing, b.key = key) :
    (failedBucket existing key purpose now window maxAttempts blockFor).key = key := by
  by_cases hwindow : ∃ b ∈ existing, now < b.windowStart + window
  · obtain ⟨b, rfl, hb⟩ := hwindow
    rw [failedBucket_of_window hb]
    exact h b rfl
  · rw [failedBucket_of_expired fun b hb => not_lt.mp fun hlt => hwindow ⟨b, hb, hlt⟩]

theorem bucketAt_key {b : RateLimitBucket} (h : bucketAt key s = some b) : b.key = key := by
  simpa using List.find?_some h

theorem exec_getRateLimitBucket :
    (DbCall.getRateLimitBucket key).exec s = (.ok (bucketAt key s), s) := rfl

/-- A recorded failure replaces the bucket with its key and leaves the others alone. -/
theorem exec_recordRateLimitFailure {r : Except DatabaseError RateLimitBucket}
    (h : (DbCall.recordRateLimitFailure key purpose now window maxAttempts blockFor).exec s =
      (r, s')) :
    (∃ bucket, r = .ok bucket ∧
      bucket = failedBucket (bucketAt key s) key purpose now window maxAttempts blockFor ∧
      bucketAt key s' = some bucket ∧ ∀ key', key' ≠ key → bucketAt key' s' = bucketAt key' s) ∨
    (∃ err, r = .error err) ∧ s' = s := by
  obtain ⟨bucket, rfl, hrun⟩ | ⟨bucket, s₁, rfl, hrun, -⟩ | ⟨err, rfl, rfl⟩ := Tx.atomic_cases h
  · obtain ⟨rows, s₁, hlock, hrun⟩ := Stmts.run_bind_eq_ok.mp hrun
    cases hlock
    obtain ⟨row, s₂, hupsert, hrun⟩ := Stmts.run_bind_eq_ok.mp hrun
    cases hrun
    have hhead : ((s.tables .rateLimitBuckets).filter fun b => b.key = key).head? =
        bucketAt key s := List.head?_filter
    rw [hhead] at hupsert
    rw [hhead]
    have hkey : (failedBucket (bucketAt key s) key purpose now window maxAttempts blockFor).key =
        key := failedBucket_key fun b hb => bucketAt_key hb
    generalize failedBucket (bucketAt key s) key purpose now window maxAttempts blockFor = bucket
      at hkey hupsert ⊢
    refine .inl ⟨bucket, rfl, rfl, ?_⟩
    obtain ⟨old, hold, hsame, -, htables⟩ | ⟨hnone, -, htables⟩ := run_upsert_eq_ok hupsert
    · have hrows : s'.tables .rateLimitBuckets = (s.tables .rateLimitBuckets).map fun b =>
          if b.key = key then bucket else b := by
        rw [htables, Function.update_self, Stmt.updated]
        refine List.map_congr_left fun b _ => ?_
        simp [schema, hkey]
      have holdKey : old.key = key := by simpa [schema, hkey] using hsame
      refine ⟨?_, fun key' hne => ?_⟩
      · rw [bucketAt, hrows]
        exact find?_replaced hkey ⟨old, hold, holdKey⟩
      · rw [bucketAt, hrows]
        exact find?_replaced_of_ne hkey hne
    · have hrows : s'.tables .rateLimitBuckets = s.tables .rateLimitBuckets ++ [bucket] := by
        rw [htables, Function.update_self]
      have hfresh : bucketAt key s = none := by
        refine List.find?_eq_none.mpr fun b hb => ?_
        have hne := hnone b hb
        simpa [schema, hkey] using hne
      refine ⟨?_, fun key' hne => ?_⟩
      · rw [bucketAt, hrows, List.find?_append]
        change (bucketAt key s).or _ = _
        rw [hfresh, Option.none_or, List.find?_cons_of_pos (by simpa using hkey)]
      · have hother : bucket.key ≠ key' := fun hkey' => hne (hkey'.symm.trans hkey)
        rw [bucketAt, hrows, List.find?_append, List.find?_cons_of_neg (by simpa using hother),
          List.find?_nil, Option.or_none]
        rfl
  · obtain ⟨rows, s₂, hlock, hrun⟩ := Stmts.run_bind_eq_ok.mp hrun
    obtain ⟨row, s₃, hupsert, hrun⟩ := Stmts.run_bind_eq_ok.mp hrun
    cases hrun
  · exact .inr ⟨⟨err, rfl⟩, rfl⟩

theorem exec_clearRateLimitBucket {r : Except DatabaseError Unit}
    (h : (DbCall.clearRateLimitBucket key).exec s = (r, s')) (hne : key' ≠ key) :
    bucketAt key' s' = bucketAt key' s := by
  obtain ⟨a, -, hrun⟩ | ⟨a, s₁, -, hrun, -⟩ | ⟨err, -, rfl⟩ := Tx.atomic_cases h
  · obtain ⟨rows, s₁, hdelete, hrun⟩ := Stmts.run_bind_eq_ok.mp hrun
    cases hrun
    rw [bucketAt, run_delete_eq_ok hdelete, Function.update_self, List.find?_filter, bucketAt]
    congr 1
    funext b
    by_cases hb : b.key = key'
    · have hkept : b.key ≠ key := fun hkey => hne (hb.symm.trans hkey)
      simp [hb, hne]
    · simp [hb]
  · obtain ⟨rows, s₂, hdelete, hrun⟩ := Stmts.run_bind_eq_ok.mp hrun
    cases hrun
  · rfl

end CairnId
