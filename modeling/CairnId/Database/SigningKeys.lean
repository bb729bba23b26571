import Mathlib.Data.List.Sort
import CairnId.Database.Schema

/-!
# Signing keys

The transactions of `crates/database/src/signing_keys.rs`.
-/

namespace CairnId

/-- A signing key with its private material. -/
structure SigningKeyMaterial where
  kid : String
  algorithm : String
  publicJwk : Json
  privateKeyCiphertext : Bytes
  privateKeyNonce : Bytes
  signingActive : Bool
  createdAt : OffsetDateTime
  retiredAt : Option OffsetDateTime

/-- `SigningKeyMaterialRow::try_into_material`; the queries that use it leave out
    rows without private material. -/
def SigningKeyRow.material? (r : SigningKeyRow) : Option SigningKeyMaterial :=
  match r.privateKeyCiphertext, r.privateKeyNonce with
  | some ciphertext, some nonce => some
      ⟨r.kid, r.algorithm, r.publicJwk, ciphertext, nonce, r.signingActive, r.createdAt,
        r.retiredAt⟩
  | _, _ => none

/-- The key `active_signing_key` looks for. -/
def SigningKeyRow.signs (k : SigningKeyRow) : Bool :=
  k.signingActive ∧ k.retiredAt = none ∧ k.privateKeyCiphertext.isSome ∧ k.privateKeyNonce.isSome

theorem SigningKeyRow.retiredAt_of_signs {k : SigningKeyRow} (h : k.signs = true) :
    k.retiredAt = none := by
  simp only [SigningKeyRow.signs, Bool.decide_and, Bool.and_eq_true, decide_eq_true_eq] at h
  exact h.2.1

def SigningKeyMaterial.row (m : SigningKeyMaterial) : SigningKeyRow :=
  ⟨m.kid, m.algorithm, m.publicJwk, some m.privateKeyCiphertext, some m.privateKeyNonce,
    m.signingActive, m.createdAt, m.retiredAt⟩

/-- What the key-encryption rotation reads of an outbox message. -/
structure EmailOutboxDeliveryToken where
  id : Uuid
  deliveryTokenCiphertext : Bytes
  deliveryTokenNonce : Bytes
  metadata : Json

structure ReencryptedEmailOutboxDeliveryToken where
  id : Uuid
  deliveryTokenCiphertext : Bytes
  deliveryTokenNonce : Bytes

def EmailOutboxMessage.deliveryToken? (m : EmailOutboxMessage) : Option EmailOutboxDeliveryToken :=
  match m.deliveryTokenCiphertext, m.deliveryTokenNonce with
  | some ciphertext, some nonce => some ⟨m.id, ciphertext, nonce, m.metadata⟩
  | _, _ => none

namespace Database

open Concurrency Concurrency.Sql

/-- `ORDER BY signing_active DESC, created_at DESC`. -/
def activeJwks : Statements (End (List SigningKeyRow)) := do
  let db ← select
  let rows := (db .signingKeys).filter fun k => k.retiredAt = none
  return .commit (rows.insertionSort fun a b =>
    (a.signingActive = true ∧ b.signingActive = false) ∨
      (a.signingActive = b.signingActive ∧ b.createdAt ≤ a.createdAt))

/-- `ORDER BY created_at DESC LIMIT 1`. -/
def activeSigningKey : Statements (End (Option SigningKeyMaterial)) := do
  let db ← select
  let rows := (db .signingKeys).filter fun k =>
    k.signingActive ∧ k.retiredAt = none ∧ k.privateKeyCiphertext.isSome ∧
      k.privateKeyNonce.isSome
  return .commit ((rows.insertionSort fun a b => b.createdAt ≤ a.createdAt).head?.bind
    SigningKeyRow.material?)

def listEncryptedSigningKeyMaterials : Statements (End (List SigningKeyMaterial)) := do
  let db ← select
  return .commit (((db .signingKeys).insertionSort fun a b => b.createdAt ≤ a.createdAt).filterMap
    SigningKeyRow.material?)

def listEmailOutboxDeliveryTokens : Statements (End (List EmailOutboxDeliveryToken)) := do
  let db ← select
  return .commit (((db .emailOutbox).insertionSort fun a b => a.createdAt ≤ b.createdAt).filterMap
    EmailOutboxMessage.deliveryToken?)

/-- One `UPDATE` for each element of a list. -/
def updateEach {κ : Type} (t : Tab) (p : κ → Row t → Bool) (f : κ → Row t → Row t) :
    List κ → Statements Unit
  | [] => pure ()
  | k :: ks => do
    let _ ← update t (fun _ => p k) (f k)
    updateEach t p f ks

def updateSigningKeyMaterials (keys : List SigningKeyMaterial) : Statements Unit :=
  updateEach .signingKeys (fun key k => k.kid = key.kid)
    (fun key k => { k with
      privateKeyCiphertext := some key.privateKeyCiphertext
      privateKeyNonce := some key.privateKeyNonce }) keys

/-- `now` is the transaction's `NOW()`. -/
def updateEmailOutboxDeliveryTokens (now : OffsetDateTime)
    (tokens : List ReencryptedEmailOutboxDeliveryToken) : Statements Unit :=
  updateEach .emailOutbox (fun token m => m.id = token.id)
    (fun token m => { m with
      deliveryTokenCiphertext := some token.deliveryTokenCiphertext
      deliveryTokenNonce := some token.deliveryTokenNonce
      updatedAt := now }) tokens

def applyKeyEncryptionRotation (signingKeys : List SigningKeyMaterial)
    (emailDeliveryTokens : List ReencryptedEmailOutboxDeliveryToken) (now : OffsetDateTime) :
    Statements (End Unit) := do
  updateSigningKeyMaterials signingKeys
  updateEmailOutboxDeliveryTokens now emailDeliveryTokens
  return .commit ()

/-- A conflict on `kid` overwrites the whole row, `retired_at` included. -/
def upsertSigningKeyMaterial (key : SigningKeyMaterial) : Statements (End Unit) := do
  Prog.when key.signingActive do
    let _ ← update .signingKeys (fun _ k => k.signingActive)
      (fun k => { k with signingActive := false })
  let _ ← upsert .signingKeys key.row (fun _ => key.row)
  return .commit ()

def retireSigningKey (kid : String) (retiredAt : OffsetDateTime) : Statements (End Bool) := do
  let updated ← update .signingKeys (fun _ k => k.kid = kid ∧ k.retiredAt = none)
    (fun k => { k with retiredAt := some retiredAt, signingActive := false })
  return .commit (updated.length = 1)

/-- The table after a key was made the active one. -/
structure Activated (key : SigningKeyMaterial) (rows rows' : List SigningKeyRow) : Prop where
  active : key.row ∈ rows'
  others : ∀ k ∈ rows', k = key.row ∨
    ∃ k₀ ∈ rows, k₀.kid ≠ key.kid ∧ k = { k₀ with signingActive := false }

theorem material?_eq_some {k : SigningKeyRow} {m : SigningKeyMaterial}
    (h : k.material? = some m) : m.row = k := by
  unfold SigningKeyRow.material? at h
  split at h
  · rename_i hc hn
    cases h
    rw [SigningKeyMaterial.row, ← hc, ← hn]
  · cases h

theorem exists_material {k : SigningKeyRow} (h : k.signs = true) : ∃ m, k.material? = some m := by
  simp only [SigningKeyRow.signs, Bool.decide_and, Bool.and_eq_true, decide_eq_true_eq] at h
  obtain ⟨ciphertext, hc⟩ := Option.isSome_iff_exists.mp h.2.2.1
  obtain ⟨nonce, hn⟩ := Option.isSome_iff_exists.mp h.2.2.2
  exact ⟨_, by rw [SigningKeyRow.material?, hc, hn]⟩

def SigningKeyRow.retire (kid : String) (instant : OffsetDateTime) (k : SigningKeyRow) :
    SigningKeyRow :=
  if k.kid = kid ∧ k.retiredAt = none then
    { k with retiredAt := some instant, signingActive := false }
  else k

/-- Rows that retiring a key leaves in use are those of the other keys. -/
theorem retire_unretired {kid : String} {instant : OffsetDateTime}
    {k : SigningKeyRow} (h : (SigningKeyRow.retire kid instant k).retiredAt = none) :
    k.kid ≠ kid ∧ SigningKeyRow.retire kid instant k = k := by
  unfold SigningKeyRow.retire at h ⊢
  split at h
  · cases h
  · rename_i hne
    rw [if_neg hne]
    exact ⟨fun hk => hne ⟨hk, h⟩, rfl⟩

theorem retire_of_ne {kid : String} {instant : OffsetDateTime} {k : SigningKeyRow}
    (h : k.kid ≠ kid) : SigningKeyRow.retire kid instant k = k := if_neg fun hk => h hk.1

theorem retire_kid (kid : String) (instant : OffsetDateTime) (k : SigningKeyRow) :
    (SigningKeyRow.retire kid instant k).kid = k.kid ∧ (SigningKeyRow.retire kid instant k).publicJwk = k.publicJwk := by
  unfold SigningKeyRow.retire
  split <;> exact ⟨rfl, rfl⟩

variable {s s' : Store}

/-- What a sequence of conditional changes makes of one row. -/
def changeEach {κ α : Type} (p : κ → α → Bool) (f : κ → α → α) (ks : List κ) (a : α) : α :=
  ks.foldl (fun a k => if p k a then f k a else a) a

/-- Changes that overwrite each other leave the row as it was or as the last one
    made it. -/
theorem changeEach_cases {κ α : Type} {p : κ → α → Bool} {f : κ → α → α}
    (hp : ∀ k k' a, p k' (f k a) = p k' a) (hf : ∀ k k' a, f k' (f k a) = f k' a)
    (ks : List κ) (a : α) :
    (changeEach p f ks a = a ∧ ∀ k ∈ ks, p k a = false) ∨
      ∃ k ∈ ks, p k a = true ∧ changeEach p f ks a = f k a := by
  induction ks generalizing a with
  | nil => exact .inl ⟨rfl, by simp⟩
  | cons k ks ih =>
    by_cases hk : p k a = true
    · have hstep : changeEach p f (k :: ks) a = changeEach p f ks (f k a) := by
        simp [changeEach, hk]
      rcases ih (f k a) with ⟨hsame, -⟩ | ⟨k', hk', hpk', hlast⟩
      · exact .inr ⟨k, by simp, hk, hstep.trans hsame⟩
      · rw [hp] at hpk'
        rw [hf] at hlast
        exact .inr ⟨k', by simp [hk'], hpk', hstep.trans hlast⟩
    · have hstep : changeEach p f (k :: ks) a = changeEach p f ks a := by simp [changeEach, hk]
      rw [hstep]
      refine (ih a).imp (fun ⟨hsame, hnone⟩ => ⟨hsame, ?_⟩) fun ⟨k', hk', h⟩ => ⟨k', by simp [hk'], h⟩
      simpa using ⟨Bool.eq_false_of_not_eq_true hk, hnone⟩

theorem forall₂_exists_right {α β : Type} {S : α → β → Prop} {as : List α} {bs : List β}
    (h : List.Forall₂ S as bs) {b : β} (hb : b ∈ bs) : ∃ a ∈ as, S a b := by
  induction h with
  | nil => cases hb
  | cons hab _ ih =>
    rcases List.mem_cons.mp hb with rfl | hb
    · exact ⟨_, List.mem_cons_self .., hab⟩
    · obtain ⟨a, ha, hs⟩ := ih hb
      exact ⟨a, List.mem_cons_of_mem _ ha, hs⟩

/-- Rows that were read, turned into changes one for one and written back by their
    key: each is changed by its own change, and what was not read stays. -/
theorem changeEach_of_forall₂ {κ κ' ι α : Type} (read : α → Option κ) (p : κ' → α → Bool)
    (f : κ' → α → α) (key : α → ι) (keyOf : κ → ι) (keyOf' : κ' → ι) {rows : List α}
    {listed : List κ} {ks : List κ'} {S : κ → κ' → Prop}
    (hp : ∀ k a, p k a = true ↔ key a = keyOf' k) (hkey : ∀ k a, key (f k a) = key a)
    (hf : ∀ k k' a, f k' (f k a) = f k' a) (hread : ∀ a ∈ rows, ∀ k, read a = some k → keyOf k = key a)
    (hunique : ∀ a ∈ rows, ∀ b ∈ rows, key a = key b → a = b)
    (hlisted : ∀ k, k ∈ listed ↔ ∃ a ∈ rows, read a = some k) (hks : List.Forall₂ S listed ks)
    (hS : ∀ k k', S k k' → keyOf' k' = keyOf k) {a : α} (ha : a ∈ rows) :
    (read a = none ∧ changeEach p f ks a = a) ∨
      ∃ k k', read a = some k ∧ S k k' ∧ changeEach p f ks a = f k' a := by
  have hpf : ∀ k k' a, p k' (f k a) = p k' a := fun k k' a => by
    rw [Bool.eq_iff_iff, hp, hp, hkey]
  have hsource : ∀ k' ∈ ks, key a = keyOf' k' → ∃ k, read a = some k ∧ S k k' := by
    intro k' hk' hka
    obtain ⟨k, hk, hkk'⟩ := forall₂_exists_right hks hk'
    obtain ⟨b, hb, hbk⟩ := (hlisted k).mp hk
    have hab : a = b := hunique a ha b hb (by rw [hka, hS k k' hkk', hread b hb k hbk])
    exact ⟨k, hab ▸ hbk, hkk'⟩
  rcases changeEach_cases hpf hf ks a with ⟨hsame, hnone⟩ | ⟨k', hk', hpk', hchanged⟩
  · refine .inl ⟨?_, hsame⟩
    cases hr : read a with
    | none => rfl
    | some k =>
      obtain ⟨k', hk', hkk'⟩ := forall₂_exists_right hks.flip ((hlisted k).mpr ⟨a, ha, hr⟩)
      have hpk' : p k' a = true := (hp k' a).mpr (by rw [hS k k' hkk', hread a ha k hr])
      rw [hnone k' hk'] at hpk'
      cases hpk'
  · obtain ⟨k, hk, hkk'⟩ := hsource k' hk' ((hp k' a).mp hpk')
    exact .inr ⟨k, k', hk, hkk', hchanged⟩

theorem run_updateEach {κ : Type} {t : Tab} {p : κ → Row t → Bool} {f : κ → Row t → Row t}
    {ks : List κ} {a : Unit}
    (h : Stmts.run DatabaseError.sqlx (updateEach t p f ks) s = .ok (a, s')) :
    s'.tables = Function.update s.tables t ((s.tables t).map (changeEach p f ks)) := by
  induction ks generalizing s with
  | nil =>
    cases h
    rw [show changeEach p f [] = id from rfl, List.map_id, Function.update_eq_self]
  | cons k ks ih =>
    obtain ⟨_, s₁, hu, hrest⟩ := Stmts.run_bind_eq_ok.mp h
    have hone := (run_update_eq_ok hu).2
    rw [ih hrest, hone, Function.update_idem, Function.update_self, Stmt.updated, List.map_map]
    rfl

private theorem deactivated (rows : List SigningKeyRow) :
    (rows.map fun k => if k.signingActive then { k with signingActive := false } else k) =
      rows.map fun k => { k with signingActive := false } := by
  refine List.map_congr_left fun k _ => ?_
  split
  · rfl
  · rename_i h
    rw [Bool.not_eq_true] at h
    rw [← h]

theorem atomic_upsertSigningKeyMaterial {key : SigningKeyMaterial} (hkey : key.signingActive = true)
    {o : Except DatabaseError Unit}
    (h : Tx.atomic DatabaseError.sqlx (upsertSigningKeyMaterial key) s = (o, s')) :
    (o = .ok () ∧ Activated key (s.tables .signingKeys) (s'.tables .signingKeys)) ∨
      ((∃ e, o = .error e) ∧ s' = s) := by
  rcases Tx.atomic_cases h with ⟨a, rfl, hrun⟩ | ⟨a, s₁, rfl, hrun, rfl⟩ | ⟨e, rfl, rfl⟩
  · refine .inl ⟨rfl, ?_⟩
    obtain ⟨_, s₁, hwhen, hrun⟩ := Stmts.run_bind_eq_ok.mp hrun
    obtain ⟨_, s₂, hup, hrun⟩ := Stmts.run_bind_eq_ok.mp hrun
    cases hrun
    rw [Prog.when, if_pos hkey] at hwhen
    obtain ⟨_, s₃, hu, hret⟩ := Stmts.run_bind_eq_ok.mp hwhen
    cases hret
    have hrows : s₁.tables .signingKeys =
        (s.tables .signingKeys).map fun k => { k with signingActive := false } := by
      rw [(run_update_eq_ok hu).2]
      simpa [Stmt.updated] using deactivated _
    rcases run_upsert_eq_ok hup with ⟨old, hold, hk, -, htables⟩ | ⟨hnew, -, htables⟩
    · rw [htables]
      constructor
      · simp only [Function.update_self, Stmt.updated, List.mem_map]
        exact ⟨old, hold, by simp [hk]⟩
      · simp only [Function.update_self, Stmt.updated, List.mem_map, hrows]
        rintro k ⟨_, ⟨k₀, hk₀, rfl⟩, rfl⟩
        split
        · exact .inl rfl
        · rename_i hne
          exact .inr ⟨k₀, hk₀, by simpa [schema, SigningKeyMaterial.row] using hne, rfl⟩
    · rw [htables]
      constructor
      · simp
      · simp only [Function.update_self, List.mem_append, List.mem_singleton]
        rintro k (hk | rfl)
        · have hne := hnew k hk
          rw [hrows] at hk
          obtain ⟨k₀, hk₀, rfl⟩ := List.mem_map.mp hk
          exact .inr ⟨k₀, hk₀, by simpa [schema, SigningKeyMaterial.row] using hne, rfl⟩
        · exact .inl rfl
  · obtain ⟨_, s₂, -, hrun⟩ := Stmts.run_bind_eq_ok.mp hrun
    obtain ⟨_, s₃, -, hrun⟩ := Stmts.run_bind_eq_ok.mp hrun
    cases hrun
  · exact .inr ⟨⟨e, rfl⟩, rfl⟩

/-- The key found signs, and it is missed only when none does. -/
theorem atomic_activeSigningKey {stored : Option SigningKeyMaterial}
    (h : Tx.atomic DatabaseError.sqlx activeSigningKey s = (.ok stored, s')) :
    (∀ m, stored = some m → ∃ k ∈ s.tables .signingKeys, k.signs = true ∧ k.material? = some m) ∧
      (stored = none → ∀ k ∈ s.tables .signingKeys, k.signs = false) := by
  have hdef : ((((s.tables .signingKeys).filter SigningKeyRow.signs).insertionSort
      fun a b => b.createdAt ≤ a.createdAt).head?.bind SigningKeyRow.material?) = stored :=
    Except.ok.inj (Prod.mk.inj h).1
  generalize hsort : ((s.tables .signingKeys).filter SigningKeyRow.signs).insertionSort
    (fun a b => b.createdAt ≤ a.createdAt) = sorted at hdef
  have hperm : sorted.Perm ((s.tables .signingKeys).filter SigningKeyRow.signs) :=
    hsort ▸ List.perm_insertionSort _ _
  cases sorted with
  | nil =>
    cases hdef
    have hnil := hperm.nil_eq
    rw [eq_comm, List.filter_eq_nil_iff] at hnil
    exact ⟨nofun, fun _ k hk => by simpa using hnil k hk⟩
  | cons k ks =>
    obtain ⟨hk, hsigns⟩ := List.mem_filter.mp (hperm.subset (List.mem_cons_self ..))
    obtain ⟨m, hm⟩ := exists_material hsigns
    have hstored : stored = some m := hdef.symm.trans hm
    subst hstored
    refine ⟨fun m' hm' => ⟨k, hk, hsigns, ?_⟩, nofun⟩
    rw [hm, ← hm']

theorem atomic_activeJwks {rows : List SigningKeyRow}
    (h : Tx.atomic DatabaseError.sqlx activeJwks s = (.ok rows, s')) (k : SigningKeyRow) :
    k ∈ rows ↔ k ∈ s.tables .signingKeys ∧ k.retiredAt = none := by
  rw [← (Except.ok.inj (Prod.mk.inj h).1 : _ = rows), (List.perm_insertionSort _ _).mem_iff,
    List.mem_filter, decide_eq_true_eq]

theorem atomic_listEncryptedSigningKeyMaterials {ms : List SigningKeyMaterial}
    (h : Tx.atomic DatabaseError.sqlx listEncryptedSigningKeyMaterials s = (.ok ms, s'))
    (m : SigningKeyMaterial) :
    m ∈ ms ↔ ∃ k ∈ s.tables .signingKeys, k.material? = some m := by
  rw [← (Except.ok.inj (Prod.mk.inj h).1 : _ = ms), List.mem_filterMap]
  simp only [(List.perm_insertionSort _ _).mem_iff]

theorem atomic_listEmailOutboxDeliveryTokens {ts : List EmailOutboxDeliveryToken}
    (h : Tx.atomic DatabaseError.sqlx listEmailOutboxDeliveryTokens s = (.ok ts, s'))
    (t : EmailOutboxDeliveryToken) :
    t ∈ ts ↔ ∃ m ∈ s.tables .emailOutbox, m.deliveryToken? = some t := by
  rw [← (Except.ok.inj (Prod.mk.inj h).1 : _ = ts), List.mem_filterMap]
  simp only [(List.perm_insertionSort _ _).mem_iff]

/-- What one re-encrypted key makes of a row. -/
def storeMaterial (key : SigningKeyMaterial) (k : SigningKeyRow) : SigningKeyRow :=
  { k with
    privateKeyCiphertext := some key.privateKeyCiphertext
    privateKeyNonce := some key.privateKeyNonce }

/-- What one re-encrypted token makes of a row. -/
def storeDeliveryToken (now : OffsetDateTime) (token : ReencryptedEmailOutboxDeliveryToken)
    (m : EmailOutboxMessage) : EmailOutboxMessage :=
  { m with
    deliveryTokenCiphertext := some token.deliveryTokenCiphertext
    deliveryTokenNonce := some token.deliveryTokenNonce
    updatedAt := now }

theorem atomic_applyKeyEncryptionRotation {keys : List SigningKeyMaterial}
    {tokens : List ReencryptedEmailOutboxDeliveryToken} {now : OffsetDateTime} {a : Unit}
    (h : Tx.atomic DatabaseError.sqlx (applyKeyEncryptionRotation keys tokens now) s = (.ok a, s')) :
    s'.tables .signingKeys = (s.tables .signingKeys).map
        (changeEach (fun key k => decide (k.kid = key.kid)) storeMaterial keys) ∧
      s'.tables .emailOutbox = (s.tables .emailOutbox).map
        (changeEach (fun token m => decide (m.id = token.id)) (storeDeliveryToken now) tokens) ∧
      ∀ t, t ≠ .signingKeys → t ≠ .emailOutbox → s'.tables t = s.tables t := by
  rcases Tx.atomic_cases h with ⟨a, -, hrun⟩ | ⟨a, s₁, -, hrun, -⟩ | ⟨e, he, -⟩
  · obtain ⟨_, s₁, hkeys, hrun⟩ := Stmts.run_bind_eq_ok.mp hrun
    obtain ⟨_, s₂, htokens, hrun⟩ := Stmts.run_bind_eq_ok.mp hrun
    cases hrun
    rw [run_updateEach htokens, run_updateEach hkeys]
    exact ⟨rfl, rfl, fun t hk ho => by
      rw [Function.update_of_ne ho, Function.update_of_ne hk]⟩
  · obtain ⟨_, s₂, -, hrun⟩ := Stmts.run_bind_eq_ok.mp hrun
    obtain ⟨_, s₃, -, hrun⟩ := Stmts.run_bind_eq_ok.mp hrun
    cases hrun
  · cases he

theorem atomic_retireSigningKey {kid : String} {instant : OffsetDateTime}
    {o : Except DatabaseError Bool}
    (h : Tx.atomic DatabaseError.sqlx (retireSigningKey kid instant) s = (o, s')) :
    ((∃ b, o = .ok b ∧
        (b = true → ∃ k ∈ s.tables .signingKeys, k.kid = kid ∧ k.retiredAt = none)) ∧
      s'.tables .signingKeys =
        (s.tables .signingKeys).map (SigningKeyRow.retire kid instant)) ∨
      ((∃ e, o = .error e) ∧ s' = s) := by
  rcases Tx.atomic_cases h with ⟨a, rfl, hrun⟩ | ⟨a, s₁, rfl, hrun, rfl⟩ | ⟨e, rfl, rfl⟩
  · obtain ⟨_, s₁, hu, hrun⟩ := Stmts.run_bind_eq_ok.mp hrun
    cases hrun
    obtain ⟨hrows, htables⟩ := run_update_eq_ok hu
    refine .inl ⟨⟨_, rfl, fun hone => ?_⟩, ?_⟩
    · rw [decide_eq_true_eq, hrows, List.length_map] at hone
      obtain ⟨k, hk⟩ := List.length_eq_one_iff.mp hone
      have hmem := List.mem_filter.mp (hk ▸ List.mem_singleton_self k :
        k ∈ (s.tables .signingKeys).filter _)
      exact ⟨k, hmem.1, by simpa using hmem.2⟩
    · rw [htables]
      simp [Stmt.updated, SigningKeyRow.retire, Function.update_self]
  · obtain ⟨_, s₂, -, hrun⟩ := Stmts.run_bind_eq_ok.mp hrun
    cases hrun
  · exact .inr ⟨⟨e, rfl⟩, rfl⟩

end Database

end CairnId
