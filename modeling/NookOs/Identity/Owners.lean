/-
Module: NookOs.Identity.Owners
Purpose: Whether a tenant keeps an owner, and whether owners alone take the role
  of an owner, over every interleaving of the members' calls.
Trusted boundary: none
Main exports: Rows.takes, ByOwner, Rows.Current, owners_lost, owners_kept
-/
import NookOs.Identity.Calls

namespace NookOs.Identity

open Lib
open Lib.Program (ensure)

section Law

abbrev Past := List (Exchange Statement fun request => Except ApiError request.Value)

namespace Management

abbrev State := Service.State Rows Management
  (fun request : Statement => Except ApiError request.Value) (Except ApiError Answer)

abbrev Move := Service.Move Choice Elsewhere Management

end Management

/-- Somebody is an owner of the tenant. -/
def Rows.Owned (tenant : TenantId) (rows : Rows) : Prop :=
  ∃ row ∈ rows.members, row.tenantId = tenant ∧ row.role = .owner

instance (tenant : TenantId) (rows : Rows) : Decidable (rows.Owned tenant) :=
  inferInstanceAs (Decidable (∃ row ∈ rows.members, _))

/-- A write that may take the role of a member of the tenant: who makes it, and
whose role it takes. -/
def Statement.deprives (tenant : TenantId) : Statement → Option (UserId × UserId)
  | .updateMemberRole caller place user role =>
      if place = tenant ∧ role ≠ .owner then some (caller, user) else none
  | .deleteMembership caller place user => if place = tenant then some (caller, user) else none
  | _ => none

/-- A write that takes the role of an owner. -/
def Rows.takes (tenant : TenantId) (rows : Rows) (request : Statement) :
    Option (UserId × UserId) :=
  (request.deprives tenant).filter fun (_, user) =>
    rows.membershipRole tenant user = some .owner

/-- Where the next step takes the role of an owner, the caller is one. -/
def ByOwner (tenant : TenantId) (state : Management.State) : Management.Move → Prop
  | .goOn index choice =>
      match state.running[index]? with
      | some ⟨_, _, .statement request _⟩ => choice.outcome ≠ .fails →
          ∀ caller user, state.store.takes tenant request = some (caller, user) →
            state.store.membershipRole tenant caller = some .owner
      | _ => True
  | _ => True

section Reads

variable (tenant : TenantId)

/-- The role that a statement was replied. -/
def roleRead (user : UserId) :
    Exchange Statement (fun request => Except ApiError request.Value) → Option Role
  | ⟨.membershipRole place asked, .ok (some role)⟩ =>
      if place = tenant ∧ asked = user then some role else none
  | _ => none

/-- Whether a statement was replied that there is more than one owner. -/
def countsMore : Exchange Statement (fun request => Except ApiError request.Value) → Bool
  | ⟨.ownerCount place, .ok count⟩ => place = tenant && (1 < (count : Nat))
  | _ => false

namespace Past

/-- Whether the last role that a call has read of a user is that of an owner. -/
def owner (past : Past) (user : UserId) : Bool :=
  (past.filterMap (roleRead tenant user)).getLast? = some .owner

def counted (past : Past) : Bool := past.any (countsMore tenant)

end Past

/-- At a write that takes the role of an owner: a caller that was read to be an
owner is one still, where more owners than one were counted there are still, and
the role was read before, unless an owner takes it of somebody else. -/
def Rows.Current (rows : Rows) (past : Past) (request : Statement) : Prop :=
  ∀ caller user, rows.takes tenant request = some (caller, user) →
    (Past.owner tenant past caller = true →
      rows.membershipRole tenant caller = some .owner) ∧
    (Past.counted tenant past = true → 1 < rows.ownerCount tenant) ∧
    (Past.owner tenant past user = true ∨
      caller ≠ user ∧ Past.owner tenant past caller = true)

end Reads

end Law

section Statements

variable {deployment : Deployment} {tenant : TenantId} {rows after : Rows} {choice : Choice}
  {request : Statement} {reply : Except ApiError request.Value}

namespace Rows

/-- The tenant has an owner, and every seat one role. -/
structure Kept (tenant : TenantId) (rows : Rows) : Prop where
  seats : Table.Keyed MemberRow.seat rows.members
  owned : ∃ user, rows.membershipRole tenant user = some .owner

theorem Kept.isOwned (kept : rows.Kept tenant) : rows.Owned tenant := by
  obtain ⟨user, isOwner⟩ := kept.owned
  exact ⟨_, (membershipRole_eq_some_iff kept.seats).mp isOwner, rfl, rfl⟩

theorem Owned.kept (owned : rows.Owned tenant)
    (seats : Table.Keyed MemberRow.seat rows.members) : rows.Kept tenant where
  seats := seats
  owned := by
    obtain ⟨⟨place, user, role⟩, member, rfl, rfl⟩ := owned
    exact ⟨user, (membershipRole_eq_some_iff seats).mpr member⟩

/-- An owner whose role is not taken stays an owner. -/
theorem answer_owner (ran : rows.answer deployment choice request = some (after, reply))
    {user : UserId} (isOwner : rows.membershipRole tenant user = some .owner)
    (spared : ∀ caller, request.deprives tenant ≠ some (caller, user)) :
    after.membershipRole tenant user = some .owner := by
  cases request with
  | updateMemberRole caller place other role =>
      cases ran
      rw [membershipRole_setMemberRole]
      split
      case isTrue same =>
        cases same
        have promotes : role = .owner := by
          by_contra other
          exact spared caller (if_pos ⟨rfl, other⟩)
        rw [isOwner, promotes]
        rfl
      case isFalse => exact isOwner
  | deleteMembership caller place other =>
      cases ran
      rw [membershipRole_removeMember]
      split
      case isTrue same =>
        cases same
        exact absurd (if_pos rfl) (spared caller)
      case isFalse => exact isOwner
  | grantMembership person place other role =>
      simp only [answer] at ran
      split at ran
      case isTrue =>
        cases ran
        rw [membershipRole_grant, isOwner]
        rfl
      case isFalse =>
        cases ran
        exact isOwner
  | _ =>
      have same := answer_members ran rfl
      simp only [membershipRole, member, same]
      exact isOwner

theorem takes_eq_some_iff {caller user : UserId} :
    rows.takes tenant request = some (caller, user) ↔
      request.deprives tenant = some (caller, user) ∧
        rows.membershipRole tenant user = some .owner := by
  rw [takes, Option.filter_eq_some_iff, decide_eq_true_eq]

end Rows

/-- A write that may take a role has been guarded: where it was read to be an
owner's, an owner calls, and more owners than one were counted. -/
def Statement.Guarded (tenant : TenantId) (past : Past) (request : Statement) : Prop :=
  ∀ caller user, request.deprives tenant = some (caller, user) →
    Past.owner tenant past user = true →
      Past.owner tenant past caller = true ∧ Past.counted tenant past = true

theorem Statement.Guarded.of_spares {past : Past} (spares : request.deprives tenant = none) :
    request.Guarded tenant past := by
  intro caller user deprives
  rw [spares] at deprives
  cases deprives

namespace Rows

variable {past : Past}

/-- A guarded write whose reads are current is an owner's where it takes the role
of one. -/
theorem Current.byOwner (current : rows.Current tenant past request)
    (guarded : request.Guarded tenant past) {caller user : UserId}
    (takes : rows.takes tenant request = some (caller, user)) :
    rows.membershipRole tenant caller = some .owner := by
  obtain ⟨callerStands, -, known⟩ := current caller user takes
  obtain ⟨deprives, -⟩ := takes_eq_some_iff.mp takes
  rcases known with wasOwner | ⟨-, byOwner⟩
  · exact callerStands (guarded caller user deprives wasOwner).1
  · exact callerStands byOwner

/-- A guarded write whose reads are current leaves an owner. -/
theorem Kept.answer (kept : rows.Kept tenant) (current : rows.Current tenant past request)
    (guarded : request.Guarded tenant past)
    (ran : rows.answer deployment choice request = some (after, reply)) : after.Kept tenant where
  seats := answer_seats ran kept.seats
  owned := by
    have stays {owner : UserId} (isOwner : rows.membershipRole tenant owner = some .owner)
        (spared : ∀ caller user, rows.takes tenant request = some (caller, user) →
          owner ≠ user) : after.membershipRole tenant owner = some .owner := by
      apply answer_owner ran isOwner
      intro caller deprives
      exact spared caller owner (takes_eq_some_iff.mpr ⟨deprives, isOwner⟩) rfl
    cases takes : rows.takes tenant request with
    | none =>
        obtain ⟨owner, isOwner⟩ := kept.owned
        refine ⟨owner, stays isOwner ?_⟩
        intro caller user isTaken
        rw [takes] at isTaken
        cases isTaken
    | some taken =>
        obtain ⟨caller, user⟩ := taken
        have spared {owner : UserId} (differs : owner ≠ user) (one other : UserId)
            (isTaken : rows.takes tenant request = some (one, other)) : owner ≠ other := by
          rw [takes] at isTaken
          cases isTaken
          exact differs
        obtain ⟨callerStands, moreStand, known⟩ := current caller user takes
        obtain ⟨deprives, -⟩ := takes_eq_some_iff.mp takes
        rcases known with wasOwner | ⟨differs, byOwner⟩
        · -- The owners were counted, and there are still two.
          obtain ⟨owner, differs, isOwner⟩ := exists_other_owner kept.seats
            (moreStand (guarded caller user deprives wasOwner).2) user
          exact ⟨owner, stays isOwner (spared differs)⟩
        · exact ⟨caller, stays (callerStands byOwner) (spared differs)⟩

end Rows

end Statements

section Handlers

/-- What the members' calls owe a tenant's owners. -/
def custody (tenant : TenantId) : Contract Rows Choice Elsewhere Management
    (fun request : Statement => Except ApiError request.Value) (Except ApiError Answer) where
  invariant := Rows.Kept tenant
  later _ _ := True
  permitted past rows choice request :=
    choice.outcome ≠ .fails → rows.Current tenant past request
  allowed _ _ := True
  owed past rows request := rows.Current tenant past request →
    ∀ caller user, rows.takes tenant request = some (caller, user) →
      rows.membershipRole tenant caller = some .owner
  promise _ _ _ _ := True
  later_refl _ := trivial
  later_trans _ _ _ _ _ := trivial

variable {deployment : Deployment} {tenant : TenantId} {past : Past} {First Second : Type}

/-- A program keeps the custody of a tenant from any moment on, and what it
answers with fits what it has read. -/
structure Recalls (deployment : Deployment) (tenant : TenantId) (fact : Past → First → Prop)
    (past : Past) (program : Handler First) : Prop where
  keeps : ∀ seen, (custody tenant).Keeps (management deployment)
    (fun past result _ => ∀ value, result = .ok value → fact past value) past seen program.run

variable {fact : Past → First → Prop} {told : Past → Second → Prop}

theorem recalls_bind {program : Handler First} {next : First → Handler Second}
    (recalls : Recalls deployment tenant fact past program)
    (goesOn : ∀ past value, fact past value → Recalls deployment tenant told past (next value)) :
    Recalls deployment tenant told past (program >>= next) where
  keeps seen := by
    apply Contract.keeps_bind
    apply (recalls.keeps seen).mono
    intro past result store isFact
    cases result with
    | error failure => exact nofun
    | ok value => exact (goesOn past value (isFact value rfl)).keeps store

theorem recalls_pure {value : First} (isFact : fact past value) :
    Recalls deployment tenant fact past (pure value) where
  keeps _ := by
    intro other isValue
    cases isValue
    exact isFact

theorem recalls_throw {failure : ApiError} :
    Recalls deployment tenant fact past (throw failure) where
  keeps _ := nofun

theorem recalls_ensure {condition : Bool} {failure : ApiError} :
    Recalls deployment tenant (fun later _ => later = past ∧ condition = true) past
      (ensure condition failure) := by
  cases condition with
  | false => exact recalls_throw
  | true => exact recalls_pure ⟨rfl, rfl⟩

theorem recalls_found {failure : ApiError} {option : Option First} :
    Recalls deployment tenant (fun later value => later = past ∧ option = some value) past
      (found failure option) := by
  cases option with
  | none => exact recalls_throw
  | some value => exact recalls_pure ⟨rfl, rfl⟩

/-- A guarded statement keeps the custody. -/
theorem runs_guarded {request : Statement} (guarded : request.Guarded tenant past)
    {seen : Rows} : (custody tenant).Runs (management deployment) past seen request
      fun _ _ => True := by
  intro now _ kept
  refine ⟨fun current caller user takes => current.byOwner guarded takes, ?_⟩
  intro choice after reply permitted executed
  refine ⟨?_, trivial, trivial⟩
  rcases Rows.execute_cases executed with ⟨effect, reply, ran, -⟩ | ⟨-, rfl, -⟩
  · exact kept.answer (permitted effect) guarded ran
  · exact kept

/-- It is remembered with what it was replied. -/
theorem recalls_perform {request : Statement} (guarded : request.Guarded tenant past) :
    Recalls deployment tenant (fun later value => later = past ++ [⟨request, .ok value⟩]) past
      (perform request) where
  keeps seen := by
    apply (runs_guarded guarded).mono
    intro after reply _ _ _ value isValue
    rw [isValue]

/-- A statement that takes no role, and whose reply does not matter. -/
theorem recalls_any {request : Statement} (spares : request.deprives tenant = none) :
    Recalls deployment tenant (fun _ _ => True) past (perform request) where
  keeps seen := by
    apply (runs_guarded (.of_spares spares)).mono
    intro after reply _ _ _ value _
    trivial

theorem recalls_discard {request : Statement} (spares : request.deprives tenant = none) :
    Recalls deployment tenant (fun _ _ => True) past (discard (attempt request)) := by
  have reply : Recalls deployment tenant (fun _ _ => True) past (attempt request) :=
    ⟨fun seen => (runs_guarded (.of_spares spares)).mono fun _ _ _ _ _ _ _ => trivial⟩
  apply recalls_bind reply
  intro _ _ _
  exact recalls_pure trivial

theorem Recalls.imp {weak : Past → First → Prop} {program : Handler First}
    (recalls : Recalls deployment tenant fact past program)
    (weaken : ∀ past value, fact past value → weak past value) :
    Recalls deployment tenant weak past program where
  keeps seen := by
    apply (recalls.keeps seen).mono
    intro past result _ isFact value isValue
    exact weaken past value (isFact value isValue)

end Handlers

section Members

variable {deployment : Deployment} {tenant : TenantId} {past : Past}

/-- A role as it was read. -/
def asRead (place : TenantId) (user : UserId) (role : Role) :
    Exchange Statement (fun request => Except ApiError request.Value) :=
  ⟨.membershipRole place user, .ok (some role)⟩

/-- A count of owners as it was read. -/
def asCounted (place : TenantId) (count : Nat) :
    Exchange Statement (fun request => Except ApiError request.Value) :=
  ⟨.ownerCount place, .ok count⟩

theorem roleIn_recalls (user : UserId) (place : TenantId) :
    Recalls deployment tenant (fun later role => later = past ++ [asRead place user role]) past
      (roleIn user place) := by
  apply recalls_bind (recalls_perform (.of_spares rfl))
  rintro _ reply rfl
  apply recalls_found.imp
  rintro later role ⟨rfl, rfl⟩
  rfl

theorem requireActiveTenant_recalls (auth : AuthCtx) (place : TenantId) :
    Recalls deployment tenant
      (fun later role => later = past ++ [asRead place auth.userId role]) past
      (requireActiveTenant auth place) := by
  apply recalls_bind recalls_ensure
  rintro _ _ ⟨rfl, -⟩
  exact roleIn_recalls auth.userId place

/-- What has been read at a write: two roles, and where it may take the last
owner's, that there are more. -/
def Checked (takes : Bool) (place : TenantId) (past later : Past) : Prop :=
  (takes = false ∧ later = past) ∨ ∃ count, 1 < count ∧ later = past ++ [asCounted place count]

theorem notLastOwner_recalls (takes : Bool) (place : TenantId) (message : String) :
    Recalls deployment tenant (fun later _ => Checked takes place past later) past
      (notLastOwner takes place message) := by
  cases takes with
  | false => exact recalls_pure (.inl ⟨rfl, rfl⟩)
  | true =>
      apply recalls_bind (recalls_perform (.of_spares rfl))
      rintro _ count rfl
      apply recalls_ensure.imp
      rintro later _ ⟨rfl, more⟩
      exact .inr ⟨count, of_decide_eq_true more, rfl⟩

theorem Checked.owner_iff {takes : Bool} {later : Past} {user : UserId}
    (checked : Checked takes tenant past later) :
    Past.owner tenant later user = Past.owner tenant past user := by
  rcases checked with ⟨-, rfl⟩ | ⟨count, -, rfl⟩
  · rfl
  · simp [Past.owner, asCounted, roleRead]

theorem Checked.counted {later : Past} (checked : Checked true tenant past later) :
    Past.counted tenant later = true := by
  rcases checked with ⟨isFalse, -⟩ | ⟨count, more, rfl⟩
  · cases isFalse
  · simp [Past.counted, asCounted, countsMore, more]

/-- The role of a member that a caller took is that of an owner only where the
caller is one. -/
theorem owner_asRead {user pid : UserId} {caller target : Role}
    (may : mayModifyTarget caller target = true)
    (wasOwner : Past.owner tenant [asRead tenant user caller, asRead tenant pid target] pid =
      true) :
    target = .owner ∧
      Past.owner tenant [asRead tenant user caller, asRead tenant pid target] user = true := by
  have isOwner : target = .owner := by
    by_cases same : user = pid <;>
      simpa [Past.owner, asRead, roleRead, same] using wasOwner
  have byOwner : caller = .owner := by simpa [mayModifyTarget, isOwner] using may
  refine ⟨isOwner, ?_⟩
  by_cases same : pid = user <;> simp [Past.owner, asRead, roleRead, same, isOwner, byOwner]

/-- A write after the checks of a management call is guarded. -/
theorem guarded_of_checked {place : TenantId} {user pid : UserId} {caller target : Role}
    {takes : Bool} {later : Past} {request : Statement}
    (may : mayModifyTarget caller target = true)
    (checked : Checked takes place [asRead place user caller, asRead place pid target] later)
    (asks : ∀ one other, request.deprives tenant = some (one, other) →
      place = tenant ∧ one = user ∧ other = pid ∧ (target = .owner → takes = true)) :
    request.Guarded tenant later := by
  intro one other deprives wasOwner
  obtain ⟨rfl, rfl, rfl, counts⟩ := asks one other deprives
  rw [checked.owner_iff] at wasOwner ⊢
  obtain ⟨isOwner, byOwner⟩ := owner_asRead may wasOwner
  cases counts isOwner
  exact ⟨byOwner, checked.counted⟩

theorem deprives_updateMemberRole {caller user one other : UserId} {place : TenantId}
    {role : Role} (deprives : (Statement.updateMemberRole caller place user role).deprives
      tenant = some (one, other)) :
    place = tenant ∧ one = caller ∧ other = user ∧ role ≠ .owner := by
  simp only [Statement.deprives] at deprives
  split at deprives
  case isTrue both =>
    cases deprives
    exact ⟨both.1, rfl, rfl, both.2⟩
  case isFalse => cases deprives

theorem deprives_deleteMembership {caller user one other : UserId} {place : TenantId}
    (deprives : (Statement.deleteMembership caller place user).deprives tenant =
      some (one, other)) :
    place = tenant ∧ one = caller ∧ other = user := by
  simp only [Statement.deprives] at deprives
  split at deprives
  case isTrue same =>
    cases deprives
    exact ⟨same, rfl, rfl⟩
  case isFalse => cases deprives

theorem changeMemberRole_recalls (auth : AuthCtx) (place : TenantId) (pid : UserId)
    (role : String) :
    Recalls deployment tenant (fun _ _ => True) [] (changeMemberRole auth place pid role) := by
  rw [changeMemberRole]
  apply recalls_bind (requireActiveTenant_recalls auth place)
  rintro _ caller rfl
  apply recalls_bind recalls_ensure
  rintro _ _ ⟨rfl, -⟩
  apply recalls_bind recalls_found
  rintro _ newRole ⟨rfl, -⟩
  apply recalls_bind recalls_ensure
  rintro _ _ ⟨rfl, -⟩
  apply recalls_bind (roleIn_recalls pid place)
  rintro _ current rfl
  apply recalls_bind recalls_ensure
  rintro _ _ ⟨rfl, may⟩
  apply recalls_bind (notLastOwner_recalls _ place _)
  intro later _ checked
  have guarded : (Statement.updateMemberRole auth.userId place pid newRole).Guarded tenant
      later := by
    apply guarded_of_checked may checked
    intro one other deprives
    obtain ⟨here, rfl, rfl, demotes⟩ := deprives_updateMemberRole deprives
    exact ⟨here, rfl, rfl, fun isOwner => by simp [isOwner, demotes]⟩
  have sets : Recalls deployment tenant (fun _ _ => True) later
      (setRole auth.userId place pid newRole) := by
    apply recalls_bind (recalls_perform guarded)
    intro _ _ _
    exact @recalls_any _ _ _ (.updateUserRole place pid newRole) rfl
  apply recalls_bind sets
  intro _ _ _
  apply recalls_bind (recalls_any rfl)
  intro _ _ _
  exact recalls_found.imp fun _ _ _ => trivial

theorem removeMember_recalls (auth : AuthCtx) (place : TenantId) (pid : UserId) :
    Recalls deployment tenant (fun _ _ => True) [] (removeMember auth place pid) := by
  rw [removeMember]
  apply recalls_bind (requireActiveTenant_recalls auth place)
  rintro _ caller rfl
  apply recalls_bind recalls_ensure
  rintro _ _ ⟨rfl, -⟩
  apply recalls_bind (roleIn_recalls pid place)
  rintro _ target rfl
  apply recalls_bind recalls_ensure
  rintro _ _ ⟨rfl, may⟩
  apply recalls_bind (notLastOwner_recalls _ place _)
  intro later _ checked
  have guarded : (Statement.deleteMembership auth.userId place pid).Guarded tenant later := by
    apply guarded_of_checked may checked
    intro one other deprives
    obtain ⟨here, rfl, rfl⟩ := deprives_deleteMembership deprives
    exact ⟨here, rfl, rfl, fun isOwner => decide_eq_true isOwner⟩
  apply recalls_bind (recalls_perform guarded)
  intro _ _ _
  exact recalls_ensure.imp fun _ _ _ => trivial

theorem leaveTenant_recalls (auth : AuthCtx) (place : TenantId) :
    Recalls deployment tenant (fun _ _ => True) [] (leaveTenant auth place) := by
  rw [leaveTenant]
  apply recalls_bind (requireActiveTenant_recalls auth place)
  rintro _ mine rfl
  apply recalls_bind (notLastOwner_recalls _ place _)
  intro later _ checked
  have guarded : (Statement.deleteMembership auth.userId place auth.userId).Guarded tenant
      later := by
    intro one other deprives wasOwner
    obtain ⟨rfl, rfl, rfl⟩ := deprives_deleteMembership deprives
    refine ⟨wasOwner, ?_⟩
    rw [checked.owner_iff] at wasOwner
    have isOwner : mine = .owner := by simpa [Past.owner, asRead, roleRead] using wasOwner
    simp only [isOwner, decide_true] at checked
    exact checked.counted
  apply recalls_bind (recalls_perform guarded)
  intro _ _ _
  exact recalls_pure trivial

end Members

section Joining

variable {deployment : Deployment} {tenant : TenantId} {past : Past}

theorem join_recalls (account : UserId) (me : IdentityBits) (invite : InviteRow) :
    Recalls deployment tenant (fun _ _ => True) past (join account me invite) := by
  have seat : Recalls deployment tenant (fun _ _ => True) past
      (seatFor account me invite) := by
    apply recalls_bind (recalls_any rfl)
    intro _ user _
    cases user with
    | some user => exact recalls_pure trivial
    | none =>
        exact @recalls_any _ _ _ (.createMemberUser invite.tenantId me.displayName invite.email
          invite.role me.personId) rfl
  apply recalls_bind seat
  intro _ user _
  apply recalls_bind (recalls_any rfl)
  intro _ _ _
  apply recalls_bind (recalls_any rfl)
  intro _ _ _
  exact recalls_pure trivial

theorem redeem_recalls (user : UserId) (fallback : TenantId) (me : IdentityBits)
    (invite : InviteRow) (emailMatches : Bool) :
    Recalls deployment tenant (fun _ _ => True) past
      (redeem user fallback me invite emailMatches) := by
  unfold redeem
  split
  case isTrue => exact recalls_pure trivial
  case isFalse =>
    apply recalls_bind (recalls_any rfl)
    intro _ fresh _
    split
    case isTrue => exact recalls_pure trivial
    case isFalse =>
      split
      case isTrue => exact recalls_pure trivial
      case isFalse =>
        apply recalls_bind (recalls_any rfl)
        intro _ verified _
        split
        case isTrue => exact recalls_pure trivial
        case isFalse => exact join_recalls user me invite

theorem acceptCore_recalls (user : UserId) (fallback : TenantId) (token : String) :
    Recalls deployment tenant (fun _ _ => True) past
      (acceptCore deployment user fallback token) := by
  rw [acceptCore]
  apply recalls_bind (recalls_any rfl)
  intro _ bits _
  apply recalls_bind recalls_found
  intro _ me _
  apply recalls_bind (recalls_any rfl)
  intro _ invite _
  cases invite with
  | none => exact recalls_pure trivial
  | some invite =>
      apply recalls_bind (recalls_any rfl)
      intro _ seat _
      cases seat with
      | none => exact redeem_recalls user fallback me invite _
      | some seat =>
          simp only [alreadyMember]
          split
          case isTrue =>
            apply recalls_bind (recalls_discard rfl)
            intro _ _ _
            exact recalls_pure trivial
          case isFalse => exact recalls_pure trivial

theorem custody_met : (custody tenant).Met (management deployment) where
  handlers := by
    intro call store _
    have recalled : Recalls deployment tenant (fun _ _ => True) [] (manage deployment call) := by
      cases call with
      | changeMemberRole auth place pid role =>
          exact recalls_bind (changeMemberRole_recalls auth place pid role) fun _ _ _ =>
            recalls_pure trivial
      | removeMember auth place pid =>
          exact recalls_bind (removeMember_recalls auth place pid) fun _ _ _ =>
            recalls_pure trivial
      | leaveTenant auth place =>
          exact recalls_bind (leaveTenant_recalls auth place) fun _ _ _ => recalls_pure trivial
      | accept user fallback token =>
          exact recalls_bind (acceptCore_recalls user fallback token) fun _ _ _ =>
            recalls_pure trivial
    exact (recalled.keeps store).mono fun _ _ _ _ => trivial
  world := by
    intro before event after kept _ happened
    cases happened
    exact ⟨⟨kept.seats, kept.owned⟩, trivial⟩

end Joining

section Claim

namespace Management

/-- Whatever is said of a pair that may be there is decided. -/
instance {property : UserId → UserId → Prop} [∀ one other, Decidable (property one other)]
    (pair : Option (UserId × UserId)) :
    Decidable (∀ one other, pair = some (one, other) → property one other) :=
  match pair with
  | none => isTrue nofun
  | some (one, other) => decidable_of_iff (property one other)
      ⟨fun holds _ _ same => by cases same; exact holds, fun holds => holds one other rfl⟩

instance (tenant : TenantId) (state : State) (move : Move) :
    Decidable (ByOwner tenant state move) := by
  unfold ByOwner
  split
  case h_1 => split <;> infer_instance
  case h_2 => exact isTrue trivial

instance (tenant : TenantId) (rows : Rows) (past : Past) (request : Statement) :
    Decidable (rows.Current tenant past request) :=
  inferInstanceAs (Decidable (∀ caller user, _ = some (caller, user) → _ ∧ _ ∧ (_ ∨ _)))

instance (tenant : TenantId) (state : State) (move : Move) :
    Decidable ((custody tenant).Permits state move) := by
  unfold Contract.Permits
  split
  case h_1 =>
    split
    case h_1 =>
      change Decidable (_ → Rows.Current _ _ _ _)
      infer_instance
    case h_2 => exact isTrue trivial
  case h_2 => exact isTrue trivial
  case h_3 => exact isTrue trivial

/-- In every interleaving whose writes that take the role of an owner are made on
current reads, the tenant has an owner in every state, and such a write is an
owner's. -/
theorem owners_kept {deployment : Deployment} {tenant : TenantId} {rows : Rows}
    {moves : List Move} {final : State}
    (seats : Table.Keyed MemberRow.seat rows.members) (owned : rows.Owned tenant)
    (current : Along (management deployment).step
      (fun before move _ => (custody tenant).Permits before move) (Service.start rows) moves)
    (ran : run (management deployment).step (Service.start rows) moves = some final) :
    final.store.Owned tenant ∧
      Along (management deployment).step (fun before move _ => ByOwner tenant before move)
        (Service.start rows) moves := by
  have started : (custody tenant).Kept (management deployment) (Service.start rows) :=
    Contract.kept_start (owned.kept seats)
  constructor
  · exact (Contract.run_kept custody_met current started ran).1.invariant.isOwned
  · apply current.of_invariant ((custody tenant).Kept (management deployment))
    · exact fun _ _ _ kept taken permits => (kept.step custody_met taken permits).1
    · intro before move after kept _ permits
      have owes := kept.owes move
      cases move with
      | goOn index choice =>
          simp only [Contract.Owes, Contract.Permits, ByOwner] at owes permits ⊢
          split
          case h_1 present =>
            simp only [present] at owes permits
            exact fun effect => owes (permits effect)
          case h_2 => trivial
      | _ => trivial
    · exact started

def goesOn (index count : Nat) : List Move := List.replicate count (.goOn index {})

def account (id : UserId) (name : String) (role : Role) : UserRow :=
  { id := id, tenantId := 1, displayName := name, email := name ++ "@example.com",
    role := role, personId := 100 + id }

/-- A tenant of two owners, an admin and a member. -/
def team : Rows where
  tenants := [{ id := 1, name := "team", slug := "team" }]
  users := [account 1 "ada" .owner, account 2 "ben" .owner, account 3 "cleo" .admin,
    account 4 "dan" .member]
  members := [⟨1, 1, .owner⟩, ⟨1, 2, .owner⟩, ⟨1, 3, .admin⟩, ⟨1, 4, .member⟩]
  identities := []
  invites := []

/-- Both owners leave, and each has counted two when it does. -/
def bothLeave : List Move :=
  [.call (.leaveTenant ⟨1, 1⟩ 1), .call (.leaveTenant ⟨2, 1⟩ 1)] ++ goesOn 0 2 ++ goesOn 1 2 ++
    goesOn 0 1 ++ goesOn 1 1

/-- An admin removes a member, whom an owner has promoted meanwhile. -/
def promotedMeanwhile : List Move :=
  [.call (.removeMember ⟨3, 1⟩ 1 4), .call (.changeMemberRole ⟨1, 1⟩ 1 4 "owner")] ++
    goesOn 0 2 ++ goesOn 1 3

/-- One run leaves the tenant without an owner; in the other the next write is an
admin's, and takes the role of an owner. -/
theorem owners_lost :
    (∃ final, run (management .plain).step (Service.start team) bothLeave = some final ∧
      ¬ final.store.Owned 1) ∧
    ∃ before after, run (management .plain).step (Service.start team) promotedMeanwhile =
        some before ∧
      (management .plain).step before (.goOn 0 {}) = some after ∧
      ¬ ByOwner 1 before (.goOn 0 {}) := by
  have unowned : (run (management .plain).step (Service.start team) bothLeave).any
      (fun final => decide (¬ final.store.Owned 1)) = true := by
    decide +kernel
  have byAdmin : (run (management .plain).step (Service.start team) promotedMeanwhile).any
      (fun before => ((management .plain).step before (.goOn 0 {})).isSome &&
        decide (¬ ByOwner 1 before (.goOn 0 {}))) = true := by
    decide +kernel
  constructor
  · obtain ⟨final, ran, lost⟩ := (Option.any_eq_true _ _).mp unowned
    exact ⟨final, ran, of_decide_eq_true lost⟩
  · obtain ⟨before, ran, both⟩ := (Option.any_eq_true _ _).mp byAdmin
    obtain ⟨moves, taken⟩ := Bool.and_eq_true_iff.mp both
    obtain ⟨after, moved⟩ := Option.isSome_iff_exists.mp moves
    exact ⟨before, after, ran, moved, of_decide_eq_true taken⟩

/-- An owner demotes the other and finds that the last cannot leave, while an
admin removes the member. -/
def inTurn : List Move :=
  .call (.changeMemberRole ⟨1, 1⟩ 1 2 "member") :: goesOn 0 7 ++
    .call (.leaveTenant ⟨1, 1⟩ 1) :: goesOn 0 3 ++
    .call (.removeMember ⟨3, 1⟩ 1 4) :: goesOn 0 4

theorem owners_kept_inTurn :
    ∃ final, run (management .plain).step (Service.start team) inTurn = some final ∧
      final.store.Owned 1 ∧
      Along (management .plain).step (fun before move _ => ByOwner 1 before move)
        (Service.start team) inTurn := by
  have runs : (run (management .plain).step (Service.start team) inTurn).isSome = true := by
    decide +kernel
  obtain ⟨final, ran⟩ := Option.isSome_iff_exists.mp runs
  exact ⟨final, ran, owners_kept (by unfold Table.Keyed; decide) (by decide)
    (by decide +kernel) ran⟩

end Management

end Claim

end NookOs.Identity
