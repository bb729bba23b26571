import CairnId.Database.Deactivations

/-!
# The guards of the last owner

Four methods can take an owner away, and look who is left before they do. Together: each
refuses exactly the changes that would leave the group without an active owner.

## Main definitions

- `OwnerChange` — what the four methods change
- `OwnerChange.Endangers` — a change that would take the last active owner away

## Main results

- `OwnerChange.exec_of_endangers` — what is refused
- `OwnerChange.exec_congr` — what is not
- `OwnerChange.endangers_iff` — the check is exact
- `DbCall.exec_hasActiveOwner` — an active owner stays
-/

namespace CairnId

open Concurrency Concurrency.Sql Prog Database

/-- What the methods change that can take an owner away. -/
inductive OwnerChange where
  | upsertGroupMembership (membership : Membership)
  | deleteGroupMembership (organizationId : OrganizationId) (groupId : GroupId) (userId : UserId)
  | updateUserStatus (organizationId : OrganizationId) (userId : UserId) (status : UserStatus)
      (instant : OffsetDateTime)
  | updateUserFromScim (input : ScimUserUpdateInput)

namespace OwnerChange

def organizationId : OwnerChange → OrganizationId
  | .upsertGroupMembership m => m.organizationId
  | .deleteGroupMembership o .. | .updateUserStatus o .. => o
  | .updateUserFromScim input => input.organizationId

/-- The method that makes the change and protects the group with the slug. -/
def call (slug : String) : OwnerChange → DbCall
  | .upsertGroupMembership m => .upsertGroupMembership m slug
  | .deleteGroupMembership o g u => .deleteGroupMembership o g u slug
  | .updateUserStatus o u status i => .updateUserStatus o u status slug i
  | .updateUserFromScim input => .updateUserFromScim (protecting input slug)

def Outcome : OwnerChange → Type
  | .upsertGroupMembership _ | .deleteGroupMembership .. => MembershipMutationOutcome
  | .updateUserStatus .. => UserStatusMutationOutcome
  | .updateUserFromScim _ => ScimUserUpdateOutcome

/-- The outcome of a change that is refused for the sake of the last owner. -/
def refusal : (c : OwnerChange) → c.Outcome
  | .upsertGroupMembership _ | .deleteGroupMembership .. =>
    MembershipMutationOutcome.wouldRemoveLastOwner
  | .updateUserStatus .. => UserStatusMutationOutcome.wouldDeactivateLastOwner
  | .updateUserFromScim _ => ScimUserUpdateOutcome.wouldDeactivateLastOwner

def exec (slug : String) (s : Store) :
    (c : OwnerChange) → Except DatabaseError c.Outcome × Store
  | .upsertGroupMembership m => (DbCall.upsertGroupMembership m slug).exec s
  | .deleteGroupMembership o g u => (DbCall.deleteGroupMembership o g u slug).exec s
  | .updateUserStatus o u status i => (DbCall.updateUserStatus o u status slug i).exec s
  | .updateUserFromScim input => (DbCall.updateUserFromScim (protecting input slug)).exec s

/-- The change would take the last active owner away. -/
def Endangers (slug : String) (db : Db) : OwnerChange → Prop
  | .upsertGroupMembership m => UpsertEndangers m slug db
  | .deleteGroupMembership o g u => DeleteEndangers o g u slug db
  | .updateUserStatus o u status _ => DeactivationEndangers o u status slug db
  | .updateUserFromScim input => ScimEndangers input slug db

variable {slug : String} {o : OrganizationId} {s : Store}

theorem exec_call (slug : String) (s : Store) (c : OwnerChange) :
    ((c.call slug).exec s).2 = (c.exec slug s).2 := by
  cases c <;> rfl

theorem exec_of_endangers {c : OwnerChange} (h : c.Endangers slug s.tables) :
    c.exec slug s = (.ok c.refusal, s) := by
  cases c with
  | upsertGroupMembership m => exact exec_upsert_of_endangers h
  | deleteGroupMembership o g u => exact exec_delete_of_endangers h
  | updateUserStatus o u status i => exact exec_status_of_endangers h i
  | updateUserFromScim input => exact exec_scim_of_endangers h

theorem exec_congr {c : OwnerChange} {slug' : String} (h : ¬c.Endangers slug s.tables)
    (h' : ¬c.Endangers slug' s.tables) : c.exec slug s = c.exec slug' s := by
  cases c with
  | upsertGroupMembership m => exact exec_upsert_congr h h'
  | deleteGroupMembership o g u => exact exec_delete_congr h h'
  | updateUserStatus o u status i => exact exec_status_congr h h'
  | updateUserFromScim input => exact exec_scim_congr h h'

theorem exec_unchecked {c : OwnerChange} {free : String}
    (hfree : ∀ g ∈ s.tables .groups, g.slug ≠ free) (h : c.Endangers slug s.tables) :
    ¬HasActiveOwner slug c.organizationId (c.exec free s).2.tables := by
  cases c with
  | upsertGroupMembership m => exact exec_upsert_unchecked hfree h
  | deleteGroupMembership o g u => exact exec_delete_unchecked hfree h
  | updateUserStatus o u status i => exact exec_status_unchecked hfree h i
  | updateUserFromScim input => exact exec_scim_unchecked hfree h

theorem exec_safe {c : OwnerChange} {protectedSlug : String}
    (howner : HasActiveOwner slug o s.tables)
    (hsafe : o = c.organizationId → ¬c.Endangers slug s.tables) :
    HasActiveOwner slug o (c.exec protectedSlug s).2.tables := by
  cases c with
  | upsertGroupMembership m => exact exec_upsert_safe howner hsafe
  | deleteGroupMembership o' g u => exact exec_delete_safe howner hsafe
  | updateUserStatus o' u status i => exact exec_status_safe howner hsafe
  | updateUserFromScim input => exact exec_scim_safe howner hsafe

/-- Only a group that has an active owner can lose the last one. -/
theorem Endangers.hasActiveOwner {c : OwnerChange} (h : c.Endangers slug s.tables) :
    HasActiveOwner slug c.organizationId s.tables := by
  cases c with
  | upsertGroupMembership m =>
    obtain ⟨g, hg, ho, -, rfl, -, hlast⟩ := h
    show HasActiveOwner g.slug m.organizationId s.tables
    rw [← ho] at hlast ⊢
    exact hlast.hasActiveOwner hg
  | deleteGroupMembership o g u =>
    obtain ⟨g, hg, rfl, -, rfl, hlast⟩ := h
    exact hlast.hasActiveOwner hg
  | updateUserStatus o u status i => exact DeactivationEndangers.hasActiveOwner h
  | updateUserFromScim input => exact h.2.2.hasActiveOwner

/-- A slug that no group has endangers nothing. -/
theorem not_endangers_of_free {c : OwnerChange} {free : String}
    (hfree : ∀ g ∈ s.tables .groups, g.slug ≠ free) : ¬c.Endangers free s.tables := by
  intro h
  obtain ⟨_, ⟨g, hg, -, hslug, -⟩, -⟩ := h.hasActiveOwner
  exact hfree g hg hslug

/-- What a change endangers is what it takes away where nobody looks. -/
theorem endangers_iff {c : OwnerChange} {free : String}
    (hfree : ∀ g ∈ s.tables .groups, g.slug ≠ free) : c.Endangers slug s.tables ↔
      HasActiveOwner slug c.organizationId s.tables ∧
        ¬HasActiveOwner slug c.organizationId (c.exec free s).2.tables := by
  constructor
  · exact fun h => ⟨h.hasActiveOwner, exec_unchecked hfree h⟩
  · rintro ⟨howner, hnone⟩
    by_contra h
    exact hnone (exec_safe howner fun _ => h)

end OwnerChange

/-- An active owner stays, whatever method is called under the protection of the slug. -/
theorem DbCall.exec_hasActiveOwner {c : DbCall} {slug : String} {o : OrganizationId} {s : Store}
    (hprotects : c.Protects slug) (howner : HasActiveOwner slug o s.tables) :
    HasActiveOwner slug o (c.exec s).2.tables := by
  by_cases hguard : c.isGuarded = false
  · obtain ⟨g, hg, rfl, rfl, hactive⟩ := hasActiveOwner_iff.mp howner
    exact .of_kept hg rfl rfl rfl hactive (exec_keepsOwners hg hprotects hguard)
  · obtain ⟨change, hchange⟩ : ∃ change : OwnerChange, change.call slug = c := by
      cases c with
      | upsertGroupMembership m p => exact ⟨.upsertGroupMembership m, by rw [← hprotects]; rfl⟩
      | deleteGroupMembership o g u p =>
        exact ⟨.deleteGroupMembership o g u, by rw [← hprotects]; rfl⟩
      | updateUserStatus o u status p i =>
        exact ⟨.updateUserStatus o u status i, by rw [← hprotects]; rfl⟩
      | updateUserFromScim input => exact ⟨.updateUserFromScim input, by rw [← hprotects]; rfl⟩
      | _ => exact absurd rfl hguard
    rw [← hchange, OwnerChange.exec_call]
    by_cases h : change.Endangers slug s.tables
    · rw [OwnerChange.exec_of_endangers h]
      exact howner
    · exact OwnerChange.exec_safe howner fun _ => h

end CairnId
