import CairnId.Administrators
import CairnId.Http.Directory

/-!
# Administrators in the runs of the service

Requests of the administration and of SCIM change users and groups, any number of them at
a time. Who is an administrator is decided by the owners of one group: a request makes one
only in the session of another, and the last active one stays.

## Main definitions

- `Authority` — to be an administrator, from the start or through another one

## Main results

- `administrator_in_every_run` — an active administrator stays
- `authority_of_owner` — administrators come from administrators
- `no_administrator_out_of_nothing` — where there is none, there will be none
-/

namespace CairnId

open Concurrency Concurrency.Sql Prog App Database

section calls

variable {P : Primitives} {e : Call} {ch : Choice} {w w' : World} {r : e.Answer} {slug : String}
  {o : OrganizationId} {u : UserId}

/-- What a call does to the store is what its method does, if it is one of `Database`. -/
theorem Call.exec_store (h : e.exec P ch w = some (r, w')) :
    w'.store = w.store ∨ ∃ c, e = .db c ∧ w'.store = (c.exec w.store).2 := by
  cases e with
  | db c =>
    obtain ⟨-, -, ⟨-, hs⟩ | hs⟩ := Call.exec_db h
    · exact .inl hs
    · exact .inr ⟨c, rfl, by rw [hs]⟩
  | _ => exact .inl (Call.exec_of_isQuiet rfl h)

theorem Call.exec_hasActiveOwner (h : e.exec P ch w = some (r, w'))
    (hprotects : ∀ c, e = .db c → c.Protects slug)
    (howner : HasActiveOwner slug o w.store.tables) : HasActiveOwner slug o w'.store.tables := by
  rcases Call.exec_store h with hs | ⟨c, rfl, hs⟩
  · rwa [hs]
  · rw [hs]
    exact DbCall.exec_hasActiveOwner (hprotects c rfl) howner

theorem Call.exec_refers_memberships (h : e.exec P ch w = some (r, w'))
    (hrefers : schema.Refers .memberships w.store.tables) :
    schema.Refers .memberships w'.store.tables := by
  rcases Call.exec_store h with hs | ⟨c, -, hs⟩
  · rwa [hs]
  · rw [hs]
    exact c.exec_refers_memberships hrefers

theorem Call.isOwner_of_exec (h : e.exec P ch w = some (r, w'))
    (hrefers : schema.Refers .memberships w.store.tables)
    (howner : IsOwner slug o u w'.store.tables) :
    IsOwner slug o u w.store.tables ∨ ∃ c, e = .db c ∧ c.granted = some u := by
  rcases Call.exec_store h with hs | ⟨c, rfl, hs⟩
  · rw [hs] at howner
    exact .inl howner
  · rw [hs] at howner
    exact (DbCall.isOwner_of_exec hrefers howner).imp_right fun hgranted => ⟨c, rfl, hgranted⟩

end calls

variable {P : Primitives} {state : AppState} {order : IterationOrder BulkItem} {w₀ : World}
  {p : Pool Call.Answer DirectoryTask World ProvisioningError DirectoryAnswer}

namespace Sample

def adminPrimitives : Primitives :=
  { primitives with parseUuid := fun text => if text = "admin" then some 4 else none }

def deputy : User := ⟨6, 1, "bob@example.org", none, true, "Bob", .active, 0, 0, none⟩

def adminSession : AuthSession :=
  ⟨4, 1, 2, "urn:cairn:acr:password+totp", ["pwd", "otp"], 0, 1000, none⟩

def administrationTables (memberships : List Membership) : Db
  | .organizations => [organization]
  | .users => [⟨user, none⟩, ⟨deputy, none⟩]
  | .groups => [administratorsGroup]
  | .memberships => memberships
  | .authSessions => [⟨adminSession, ⟨none, none⟩⟩]
  | _ => []

/-- Two users, of whom one is an administrator and logged in. -/
def administration : World where
  store := ⟨administrationTables [ownership], fun t => by cases t <;> decide⟩
  clock := 0
  uuids := []

/-- The same users without an administrator. -/
def unattended : World where
  store := ⟨administrationTables [], fun t => by cases t <;> decide⟩
  clock := 0
  uuids := []

def adminHeaders : RequestHeaders :=
  ⟨some "cairn_session=admin; cairn_csrf=aaaaaaaaaaaaaaaaaaaaaaaaaaaaaaaa",
    some "aaaaaaaaaaaaaaaaaaaaaaaaaaaaaaaa", none, none⟩

/-- The other user is made an administrator, in so many calls. -/
def appointing (calls : ℕ) : List (Label DirectoryTask Choice) :=
  .spawn (.provisioning (.upsertGroupMembership adminHeaders 5 6 .owner)) ::
    List.replicate calls (.run 0 {})

/-- The unresolved operations of a Bulk request as they stand in it. -/
def directoryOrder : IterationOrder BulkItem := ⟨id, List.Perm.refl⟩

end Sample

-- the last administrator

/-- However the requests are interleaved, an active administrator stays. -/
theorem administrator_in_every_run (h : (directoryMachine P state order).Reachable w₀ p)
    {o : OrganizationId} (howner : HasActiveOwner administratorsGroupSlug o w₀.store.tables) :
    HasActiveOwner administratorsGroupSlug o p.world.store.tables := by
  refine h.invariant (fun task => Sat.of_all (DirectoryTask.all_handler order task))
    (fun w _ => HasActiveOwner administratorsGroupSlug o w.store.tables) howner ?_
  intro p i task e ch r w' _ howner hprotects hexec
  exact Call.exec_hasActiveOwner hexec hprotects howner

open Sample in
/-- After an appointment. -/
theorem administrator_in_every_run_appointing : ∃ p,
    (directoryMachine adminPrimitives appState directoryOrder).run (Machine.start administration)
      (appointing 11) = some p ∧
    HasActiveOwner administratorsGroupSlug 1 p.world.store.tables := by
  have hrun : ((directoryMachine adminPrimitives appState directoryOrder).run
      (Machine.start administration) (appointing 11)).isSome = true := by decide
  obtain ⟨p, hp⟩ := Option.isSome_iff_exists.mp hrun
  have howner : HasActiveOwner administratorsGroupSlug 1 administration.store.tables :=
    ⟨2, by decide, ⟨user, none⟩, .head _, rfl, rfl, rfl⟩
  exact ⟨p, hp, administrator_in_every_run (Machine.Reachable.start.run hp) howner⟩

-- where administrators come from

/-- The check that the user of a session is an administrator. -/
def adminCheck (organizationId : OrganizationId) (userId : UserId) : Ev :=
  ⟨.db (.userHasGroupRole organizationId userId administratorsGroupSlug [.owner]), .ok true⟩

variable (P state) in
/-- What the administration has found out of a session with the calls `h`. -/
structure AdminSession (headers : RequestHeaders) (h : List Ev) (session : AuthSession) :
    Prop where
  checked : SessionChecked P state headers h session
  admin : adminCheck session.organizationId session.userId ∈ h
  mfa : sessionHasMfaProof session = true
  fresh : ∃ now, ⟨.nowUtc, now⟩ ∈ h ∧ now ≤ session.createdAt + mfaDestructiveActionMaxAge

theorem AdminSession.mono {headers : RequestHeaders} {h h' : List Ev} {session : AuthSession}
    (hs : AdminSession P state headers h session) (hsub : h ⊆ h') :
    AdminSession P state headers h' session where
  checked := hs.checked.mono hsub
  admin := hsub hs.admin
  mfa := hs.mfa
  fresh := hs.fresh.imp fun _ hnow => ⟨hsub hnow.1, hnow.2⟩

section rules

variable {β : Type} {pre : List Ev → Call → Prop} {post : List Ev → Except ApiError β → Prop}
  {h : List Ev} {headers : RequestHeaders}

/-- **Session rule** of the administration. -/
theorem quietSat_requireRecentAdminSession (hs : AllowsQuiet pre post) {f : AuthSession → App β}
    (hf : ∀ l session, AdminSession P state headers (l ++ h) session →
      QuietSat pre post (l ++ h) (f session)) :
    QuietSat pre post h (requireRecentAdminSession P state headers >>= f) := by
  rw [requireRecentAdminSession, Prog.bind_assoc, requireAdminSession, Prog.bind_assoc]
  refine quietSat_requireSession hs fun l session hchecked => ?_
  rw [Prog.bind_assoc]
  refine .db hs rfl fun isAdmin => ?_
  rw [Prog.bind_assoc]
  refine .failIf hs fun hadmin => ?_
  rw [pure_eq, ret_bind, Prog.bind_assoc]
  refine .perform hs rfl fun now => ?_
  rw [Prog.bind_assoc]
  refine .failIf hs fun hproof => ?_
  rw [pure_eq, ret_bind]
  have hadmin : isAdmin = true := by simpa using hadmin
  subst hadmin
  obtain ⟨hmfa, hfresh⟩ := not_or.mp hproof
  exact hf (⟨.nowUtc, now⟩ :: adminCheck session.organizationId session.userId :: l) session
    { checked := hchecked.mono (List.subset_cons_of_subset _ (List.subset_cons_self _ _))
      admin := List.mem_cons_of_mem _ List.mem_cons_self
      mfa := by simpa using hmfa
      fresh := ⟨now, List.mem_cons_self, not_lt.mp hfresh⟩ }

end rules

variable (P state) in
/-- A request makes an owner only in the session of an administrator. -/
def authorityPre (h : List Ev) (e : Call) : Prop :=
  ∀ c u, e = .db c → c.granted = some u → ∃ headers session groupId createdAt,
    c = .upsertGroupMembership ⟨state.organizationId, u, groupId, .owner, createdAt⟩
      administratorsGroupSlug ∧ AdminSession P state headers h session

theorem authorityPre_of_subordinate {h : List Ev} {e : Call} (he : e.Subordinate) :
    authorityPre P state h e := by
  intro c u hc hgranted
  rw [(he c hc).1] at hgranted
  cases hgranted

theorem allowsQuiet_authority {β : Type} : AllowsQuiet (authorityPre P state)
    (fun _ (_ : Except ApiError β) => True) where
  call _ _ _ he := authorityPre_of_subordinate (subordinate_of_isQuiet he)
  fail _ _ _ := trivial

/-- A program that makes nobody an owner. -/
theorem sat_authority_of_subordinate {ε α : Type} {p : Prog Call Call.Answer ε α} {h : List Ev}
    (hp : p.All Call.Subordinate) : p.Sat (authorityPre P state) (fun _ _ => True) h :=
  (Sat.of_all hp).mono (fun _ _ he => authorityPre_of_subordinate he) fun _ _ _ => trivial

theorem sat_authority_upsert (headers : RequestHeaders) (groupId : GroupId) (userId : UserId)
    (role : MembershipRole) : (upsertGroupMembership P state headers groupId userId role).Sat
      (authorityPre P state) (fun _ _ => True) [] := by
  have hs : AllowsQuiet (authorityPre P state) (fun _ (_ : Except ApiError Membership) => True) :=
    allowsQuiet_authority
  have hsat : QuietSat (authorityPre P state) (fun _ (_ : Except ApiError Membership) => True) []
      (upsertGroupMembership P state headers groupId userId role) := by
    refine quietSat_requireRecentAdminSession hs fun l session hadmin => ?_
    refine .skip hs (all_requireCsrf headers) fun l' _ => ?_
    refine .perform hs rfl fun createdAt _ => ?_
    refine sat_db_bind (fun c u hc hgranted => ?_) (fun outcome => ?_) fun _ => trivial
    · cases hc
      obtain ⟨rfl, rfl⟩ : role = .owner ∧ userId = u := by
        simpa [DbCall.granted] using hgranted
      refine ⟨headers, session, groupId, createdAt, rfl, hadmin.mono ?_⟩
      exact List.subset_cons_of_subset _ (List.subset_append_right _ _)
    · cases outcome with
      | applied =>
        refine sat_authority_of_subordinate (.bind (all_app_db (subordinate_of_isQuery rfl))
          fun stored => ?_)
        cases stored with
        | none => trivial
        | some stored =>
          exact .bind ((aside_insertAuditEvent _).mono fun _ he => he.subordinate) fun _ => .ret _
      | notFound | wouldRemoveLastOwner => trivial
  exact hsat quiet_nil

theorem sat_authority_provisioning (task : ProvisioningTask) :
    (task.handler P state).Sat (authorityPre P state) (fun _ _ => True) [] := by
  by_cases htask : ∃ headers groupId userId role,
      task = .upsertGroupMembership headers groupId userId role
  · obtain ⟨headers, groupId, userId, role, rfl⟩ := htask
    have hsat : (upsertGroupMembership P state headers groupId userId role).Sat
        (authorityPre P state) (fun _ _ => True) [] := sat_authority_upsert ..
    have hmapped : ((upsertGroupMembership P state headers groupId userId role).mapError
        ProvisioningError.api).Sat (authorityPre P state) (fun _ _ => True) [] :=
      hsat.mapError (fun _ _ _ => trivial) fun _ _ _ => trivial
    exact hmapped.bind (fun _ _ _ => trivial) fun _ _ _ => trivial
  · refine sat_authority_of_subordinate ((sat_provisioning task).all fun h e hpre => ?_)
    refine subordinate_of_provisioningPre (fun headers groupId userId role heq => ?_) hpre
    exact htask ⟨headers, groupId, userId, role, heq⟩

/-- Each request makes owners only in the session of an administrator. -/
theorem sat_authority (order : IterationOrder BulkItem) (task : DirectoryTask) :
    (task.handler P state order).Sat (authorityPre P state) (fun _ _ => True) [] := by
  by_cases htask : ∀ provisioning, task ≠ .provisioning provisioning
  · exact sat_authority_of_subordinate (DirectoryTask.all_subordinate order htask)
  · obtain ⟨provisioning, rfl⟩ : ∃ provisioning, task = .provisioning provisioning := by
      simpa using htask
    exact (sat_authority_provisioning provisioning).bind (fun _ _ _ => trivial) fun _ _ _ => trivial

abbrev DirectoryTrace := List (Entry Call.Answer World)

variable (P state) in
/-- The user was an administrator at the start, or was made an owner in the session of a user
    with authority. -/
inductive Authority (w₀ : World) (tr : DirectoryTrace) : UserId → Prop
  | initial {userId : UserId} :
    IsOwner administratorsGroupSlug state.organizationId userId w₀.store.tables →
    Authority w₀ tr userId
  | appointed {userId : UserId} {x : Entry Call.Answer World} {headers : RequestHeaders}
    {session : AuthSession} {groupId : GroupId} {createdAt : OffsetDateTime} :
    x ∈ tr →
    x.event.1 = .db (.upsertGroupMembership
      ⟨state.organizationId, userId, groupId, .owner, createdAt⟩ administratorsGroupSlug) →
    AdminSession P state headers (own x.thread tr) session →
    Authority w₀ tr session.userId →
    Authority w₀ tr userId

theorem Authority.mono {tr tr' : DirectoryTrace} {userId : UserId}
    (h : Authority P state w₀ tr userId) (hsub : ∃ l, tr' = l ++ tr) :
    Authority P state w₀ tr' userId := by
  obtain ⟨l, rfl⟩ := hsub
  induction h with
  | initial howner => exact .initial howner
  | appointed hx hcall hadmin _ ih =>
    refine .appointed (List.mem_append_right _ hx) hcall (hadmin.mono ?_) ih
    rw [own_append]
    exact List.subset_append_right _ _

/-- Where authority was given, somebody had it at the start. -/
theorem Authority.exists_initial {tr : DirectoryTrace} {userId : UserId}
    (h : Authority P state w₀ tr userId) :
    ∃ first, IsOwner administratorsGroupSlug state.organizationId first w₀.store.tables := by
  induction h with
  | initial howner => exact ⟨_, howner⟩
  | appointed _ _ _ _ ih => exact ih

/-- What a run keeps: administrators have authority, and so have those whom a check found to
    be administrators. -/
structure AuthorityInv (P : Primitives) (state : AppState) (w₀ : World) (w : World)
    (tr : DirectoryTrace) : Prop where
  refers : schema.Refers .memberships w.store.tables
  owners : ∀ u, IsOwner administratorsGroupSlug state.organizationId u w.store.tables →
    Authority P state w₀ tr u
  checked : ∀ x ∈ tr, ∀ u, x.event = adminCheck state.organizationId u → Authority P state w₀ tr u

/-- A check that succeeds found an administrator. -/
theorem isOwner_of_adminCheck {e : Call} {ch : Choice} {w w' : World} {r : e.Answer}
    {o : OrganizationId} {u : UserId} (hexec : e.exec P ch w = some (r, w'))
    (h : (⟨e, r⟩ : Ev) = adminCheck o u) :
    IsOwner administratorsGroupSlug o u w.store.tables := by
  cases h
  obtain ⟨-, -, ⟨herr, -⟩ | hs⟩ := Call.exec_db hexec
  · cases herr
  · exact (userHasGroupRole_owner hs).2.mp rfl

theorem AuthorityInv.step {w w' : World} {tr : DirectoryTrace} {i : ℕ} {e : Call} {ch : Choice}
    {r : e.Answer} (hinv : AuthorityInv P state w₀ w tr) (hpre : authorityPre P state (own i tr) e)
    (hexec : e.exec P ch w = some (r, w')) :
    AuthorityInv P state w₀ w' (⟨i, ⟨e, r⟩, w⟩ :: tr) where
  refers := Call.exec_refers_memberships hexec hinv.refers
  owners u howner := by
    rcases Call.isOwner_of_exec hexec hinv.refers howner with hbefore | ⟨c, hc, hgranted⟩
    · exact (hinv.owners u hbefore).mono ⟨[_], rfl⟩
    · obtain ⟨headers, session, groupId, createdAt, rfl, hadmin⟩ := hpre c u hc hgranted
      obtain ⟨x, hx, -, hevent⟩ := mem_own.mp hadmin.admin
      rw [hadmin.checked.organization] at hevent
      have hactor := (hinv.checked x hx session.userId hevent).mono ⟨[⟨i, ⟨e, r⟩, w⟩], rfl⟩
      refine .appointed List.mem_cons_self hc (hadmin.mono ?_) hactor
      rw [own_cons_self]
      exact List.subset_cons_self _ _
  checked x hx u hevent := by
    rcases List.mem_cons.mp hx with rfl | hx
    · exact (hinv.owners u (isOwner_of_adminCheck hexec hevent)).mono ⟨[_], rfl⟩
    · exact (hinv.checked x hx u hevent).mono ⟨[_], rfl⟩

theorem authorityInv_of_reachable (h : (directoryMachine P state order).Reachable w₀ p)
    (hrefers : schema.Refers .memberships w₀.store.tables) :
    AuthorityInv P state w₀ p.world p.trace := by
  refine h.invariant (sat_authority order) (fun w tr => AuthorityInv P state w₀ w tr)
    ⟨hrefers, fun u howner => .initial howner, fun x hx => absurd hx List.not_mem_nil⟩ ?_
  intro p i task e ch r w' _ hinv hpre hexec
  exact hinv.step hpre hexec

/-- Where there is no administrator at the start, no request makes one. -/
theorem no_administrator_out_of_nothing (h : (directoryMachine P state order).Reachable w₀ p)
    (hrefers : schema.Refers .memberships w₀.store.tables)
    (hnone : ∀ u, ¬IsOwner administratorsGroupSlug state.organizationId u w₀.store.tables)
    (u : UserId) :
    ¬IsOwner administratorsGroupSlug state.organizationId u p.world.store.tables := by
  intro howner
  obtain ⟨first, hfirst⟩ := ((authorityInv_of_reachable h hrefers).owners u howner).exists_initial
  exact hnone first hfirst

open Sample in
/-- The same request, where nobody is an administrator. -/
theorem no_administrator_out_of_nothing_appointing : ∃ p,
    (directoryMachine adminPrimitives appState directoryOrder).run (Machine.start unattended)
      (appointing 4) = some p ∧
    ¬IsOwner administratorsGroupSlug 1 6 p.world.store.tables := by
  have hrun : ((directoryMachine adminPrimitives appState directoryOrder).run
      (Machine.start unattended) (appointing 4)).isSome = true := by decide
  obtain ⟨p, hp⟩ := Option.isSome_iff_exists.mp hrun
  refine ⟨p, hp, no_administrator_out_of_nothing (Machine.Reachable.start.run hp) (by decide) ?_ 6⟩
  rintro u ⟨g, -, -, -, m, hm, -⟩
  cases hm

end CairnId
