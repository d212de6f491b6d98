/-
Module: NookOs.Identity.Rows
Purpose: The tables of tenants, users, memberships, identities and invites,
  with their constraints, and the statements of the identity and invite
  repositories on them.
Trusted boundary: how the database and the control plane fold the case of a
  text, and the hash of a token, are parameters
Main exports: UserRow, MemberRow, Rows, Folding, Statement, Rows.execute
-/
import NookOs.Jobs.LoopJob
import NookOs.Lib.Program
import NookOs.Lib.Table

namespace NookOs.Identity

open Lib
open Jobs (Instant)

/-!
The principal of every membership here is a user.  Passwords, avatars and raw
claims are stored and read by nothing below, so their columns are left out, as
are the role bindings: they are the other branch of `has_permission`.
-/

section Data

abbrev TenantId := Nat
abbrev UserId := Nat
abbrev PersonId := Nat
abbrev InviteId := Nat

/-- The roles that the check constraints of `users` and `tenant_members` allow. -/
inductive Role where
  | owner
  | admin
  | member
deriving DecidableEq

/-- A role as a request names it. -/
def Role.parse : String → Option Role
  | "owner" => some .owner
  | "admin" => some .admin
  | "member" => some .member
  | _ => none

/-- The roles under which a tenant is administered. -/
def Role.administers : Role → Bool
  | .owner | .admin => true
  | .member => false

inductive AuthMode where
  | oidc
  | local
deriving DecidableEq

def AuthMode.asStr : AuthMode → String
  | .oidc => "oidc"
  | .local => "local"

structure TenantRow where
  id : TenantId
  name : String
  slug : String
  authMode : Option AuthMode := none
deriving DecidableEq

structure UserRow where
  id : UserId
  tenantId : TenantId
  displayName : String
  email : String
  username : Option String := none
  role : Role
  personId : PersonId
deriving DecidableEq

/-- A row of `tenant_members`. -/
structure MemberRow where
  tenantId : TenantId
  principalId : UserId
  role : Role
deriving DecidableEq

/-- A row of `identities`; it is verified where `email_verified_at` is set. -/
structure IdentityRow where
  userId : UserId
  issuer : String
  subject : String
  email : Option String
  verified : Bool
deriving DecidableEq

inductive InviteStatus where
  | pending
  | accepted
  | revoked
deriving DecidableEq

structure InviteRow where
  id : InviteId
  tenantId : TenantId
  email : String
  role : Role
  tokenHash : String
  status : InviteStatus
  expiresAt : Instant
deriving DecidableEq

structure Rows where
  tenants : List TenantRow
  users : List UserRow
  members : List MemberRow
  identities : List IdentityRow
  invites : List InviteRow
deriving DecidableEq

/-- `lower` of the database and `to_lowercase` of the control plane. -/
structure Folding where
  lower : String → String
  toLowercase : String → String

def MemberRow.seat (row : MemberRow) : TenantId × UserId := (row.tenantId, row.principalId)

def IdentityRow.key (row : IdentityRow) : String × String := (row.issuer, row.subject)

namespace Rows

def tenant (rows : Rows) (id : TenantId) : Option TenantRow :=
  Table.find TenantRow.id rows.tenants id

def user (rows : Rows) (id : UserId) : Option UserRow := Table.find UserRow.id rows.users id

/-- The row of a user, where it is one of the tenant's. -/
def userIn (rows : Rows) (tenant : TenantId) (id : UserId) : Option UserRow :=
  (rows.user id).filter (·.tenantId = tenant)

def member (rows : Rows) (tenant : TenantId) (user : UserId) : Option MemberRow :=
  Table.find MemberRow.seat rows.members (tenant, user)

def identity (rows : Rows) (issuer subject : String) : Option IdentityRow :=
  Table.find IdentityRow.key rows.identities (issuer, subject)

def invite (rows : Rows) (id : InviteId) : Option InviteRow :=
  Table.find InviteRow.id rows.invites id

def membershipRole (rows : Rows) (tenant : TenantId) (user : UserId) : Option Role :=
  (rows.member tenant user).map MemberRow.role

/-- `SELECT count(*)` of a tenant's owners. -/
def ownerCount (rows : Rows) (tenant : TenantId) : Nat :=
  rows.members.countP fun row => row.tenantId = tenant && row.role = .owner

end Rows

end Data

section Statements

/-- What a handler fails with. -/
inductive ApiError where
  | badRequest (message : String)
  | notFound
  | forbidden
  | forbiddenMsg (message : String)
  | internal (message : String)
  | database
deriving DecidableEq

/-- Which unique index of `users` refused a local account. -/
inductive CreateUserError where
  | usernameTaken
  | emailTaken
deriving DecidableEq

structure NewLocalUser where
  tenant : TenantId
  displayName : String
  email : String
  username : String
  role : Role
deriving DecidableEq

structure NewOidcUser where
  tenant : TenantId
  displayName : String
  email : String
  role : Role
deriving DecidableEq

structure NewIdentity where
  userId : UserId
  issuer : String
  subject : String
  email : Option String
  emailVerified : Bool
deriving DecidableEq

structure TenantMemberItem where
  principalId : UserId
  email : String
  displayName : String
  role : Role
deriving DecidableEq

/-- What `user_identity_bits` reads. -/
structure IdentityBits where
  email : String
  displayName : String
  personId : PersonId
deriving DecidableEq

/-- What `registration_target` reads. -/
structure InviteRegistration where
  tenant : TenantId
  email : String
  role : Role
  valid : Bool
deriving DecidableEq

/-- The statements.  Who changes or removes a membership, and the account that a
seat is looked up and granted for, is not part of the SQL: it says on whose
behalf the statement runs. -/
inductive Statement where
  | membershipRole (tenant : TenantId) (user : UserId)
  | ownerCount (tenant : TenantId)
  | updateMemberRole (caller : UserId) (tenant : TenantId) (user : UserId) (role : Role)
  | updateUserRole (tenant : TenantId) (user : UserId) (role : Role)
  | memberItem (tenant : TenantId) (user : UserId)
  | deleteMembership (caller : UserId) (tenant : TenantId) (user : UserId)
  | grantMembership (account : Option UserId) (tenant : TenantId) (user : UserId) (role : Role)
  | memberUserByPerson (tenant : TenantId) (person : PersonId)
  | userIdentityBits (user : UserId)
  | userIdByEmailCi (account : Option UserId) (tenant : TenantId) (email : String)
  | userByEmailInTenant (tenant : TenantId) (email : String)
  | getUser (user : UserId)
  | roleInTenant (user : UserId) (tenant : TenantId)
  | countUsers
  | createMemberUser (tenant : TenantId) (displayName email : String) (role : Role)
      (person : PersonId)
  | createLocalUser (new : NewLocalUser) (granted : Bool)
  | createOidcUser (new : NewOidcUser)
  | hasPermission (user : UserId) (permission : String) (tenant : Option TenantId)
  | userIdByIdentity (issuer subject : String)
  | emailIsVerified (user : UserId)
  | markIdentityVerified (issuer subject : String)
  | createIdentity (new : NewIdentity)
  | getTenant (tenant : TenantId)
  | tenantBySlug (slug : String)
  | createTenant (name slug : String)
  | authModeOf (tenant : TenantId)
  | claimAuthMode (tenant : TenantId) (mode : AuthMode)
  | byTokenHash (tokenHash : String)
  | isFresh (invite : InviteId)
  | markAccepted (invite : InviteId)
  | deletePendingInvites (tenant : TenantId) (email : String)
  | insertInvite (tenant : TenantId) (email : String) (role : Role) (tokenHash : String)
  | registrationTarget (tokenHash : String)
deriving DecidableEq

abbrev Statement.Value : Statement → Type
  | .membershipRole .. | .roleInTenant .. => Option Role
  | .ownerCount _ | .countUsers | .deleteMembership .. => Nat
  | .updateMemberRole .. | .updateUserRole .. | .grantMembership .. => Unit
  | .memberItem .. => Option TenantMemberItem
  | .memberUserByPerson .. | .userIdByEmailCi .. | .userIdByIdentity .. => Option UserId
  | .userIdentityBits _ => Option IdentityBits
  | .userByEmailInTenant .. | .getUser _ => Option UserRow
  | .createMemberUser .. => UserId
  | .createLocalUser .. => Except CreateUserError UserRow
  | .createOidcUser _ => UserRow
  | .hasPermission .. | .emailIsVerified _ | .claimAuthMode .. | .isFresh _ => Bool
  | .markIdentityVerified .. | .createIdentity _ => Unit
  | .getTenant _ | .tenantBySlug _ | .createTenant .. => Option TenantRow
  | .authModeOf _ => Option AuthMode
  | .byTokenHash _ => Option InviteRow
  | .markAccepted _ | .deletePendingInvites .. => Unit
  | .insertInvite .. => InviteRow
  | .registrationTarget _ => Option InviteRegistration

/-- How a statement goes: it runs, it fails before it has an effect, or it has
its effect and its answer is lost. -/
inductive Outcome where
  | runs
  | fails
  | lost
deriving DecidableEq

/-- What the environment decides about a statement: the time it reads, the
identifiers it is given, which row comes first where no order is asked for. -/
structure Choice where
  now : Instant := 0
  fresh : Nat := 0
  person : PersonId := 0
  pick : Nat := 0
  outcome : Outcome := .runs
deriving DecidableEq

end Statements

section Execution

/-- The row that `LIMIT 1` leaves of those that a query finds. -/
def limitOne {Row : Type} (pick : Nat) (found : List Row) : Option Row :=
  found[pick % found.length]?

namespace Rows

/-- `INSERT INTO users`, where the new identifier is one. -/
def insertUser (rows : Rows) (row : UserRow) : Option Rows :=
  if (rows.user row.id).isSome || rows.members.any (·.principalId = row.id) then none
  else some { rows with users := rows.users ++ [row] }

def emailTaken (rows : Rows) (tenant : TenantId) (email : String) : Bool :=
  rows.users.any fun row => row.tenantId = tenant && row.email = email

/-- A new person is one that no row is of. -/
def personFree (rows : Rows) (person : PersonId) : Bool :=
  rows.users.all (·.personId ≠ person)

/-- `INSERT INTO tenant_members … ON CONFLICT DO NOTHING`. -/
def grant (rows : Rows) (row : MemberRow) : Rows :=
  if (rows.member row.tenantId row.principalId).isSome then rows
  else { rows with members := rows.members ++ [row] }

def setMemberRole (rows : Rows) (tenant : TenantId) (user : UserId) (role : Role) : Rows :=
  { rows with
    members := Table.update MemberRow.seat (tenant, user)
      (fun row => { row with role := role }) rows.members }

/-- `UPDATE users SET role = … WHERE id = … AND tenant_id = …`. -/
def setUserRole (rows : Rows) (tenant : TenantId) (user : UserId) (role : Role) : Rows :=
  { rows with
    users := Table.update (fun row : UserRow => (row.tenantId, row.id)) (tenant, user)
      (fun row => { row with role := role }) rows.users }

def removeMember (rows : Rows) (tenant : TenantId) (user : UserId) : Rows :=
  { rows with members := Table.delete MemberRow.seat (tenant, user) rows.members }

/-- The rows that an email finds, its case folded. -/
def usersByEmailCi (lower : String → String) (rows : Rows) (tenant : TenantId)
    (email : String) : List UserRow :=
  rows.users.filter fun row => row.tenantId = tenant && lower row.email = lower email

/-- The seats of the person that a user is, in a tenant. -/
def seatsOf (rows : Rows) (user : UserId) (tenant : TenantId) : List UserRow :=
  rows.users.filter fun seat =>
    seat.tenantId = tenant && (rows.user user).any fun me => seat.personId = me.personId

/-- The branch of `has_permission` that the role of a seat implies; the
permissions are those of `tenant_admin`. -/
def impliedPermission (permissions : List String) (rows : Rows) (user : UserId)
    (permission : String) : Option TenantId → Bool
  | some tenant =>
      permission ∈ permissions && (rows.seatsOf user tenant).any (·.role.administers)
  | none => false

end Rows

/-- The deployment: how text is folded and a token is hashed, the permissions of
`tenant_admin`, and the name of the default tenant. -/
structure Deployment extends Folding where
  hashToken : String → String
  tenantAdmin : List String
  defaultTenantName : String

variable (deployment : Deployment)

namespace Rows

/-- Run a statement; it has no effect where a constraint refuses it, and there is
nothing to run where an identifier that is to be new is not. -/
def answer (rows : Rows) (choice : Choice) :
    (request : Statement) → Option (Rows × Except ApiError request.Value)
  | .membershipRole tenant user => some (rows, .ok (rows.membershipRole tenant user))
  | .ownerCount tenant => some (rows, .ok (rows.ownerCount tenant))
  | .updateMemberRole _ tenant user role => some (rows.setMemberRole tenant user role, .ok ())
  | .updateUserRole tenant user role => some (rows.setUserRole tenant user role, .ok ())
  | .memberItem tenant user =>
      some (rows, .ok do
        let seat ← rows.member tenant user
        let row ← rows.user seat.principalId
        pure ⟨seat.principalId, row.email, row.displayName, seat.role⟩)
  | .deleteMembership _ tenant user =>
      some (rows.removeMember tenant user,
        .ok (rows.members.countP fun row => row.seat = (tenant, user)))
  | .grantMembership _ tenant user role =>
      if (rows.tenant tenant).isSome then some (rows.grant ⟨tenant, user, role⟩, .ok ())
      else some (rows, .error .database)
  | .memberUserByPerson tenant person =>
      some (rows, .ok ((limitOne choice.pick (rows.users.filter fun row =>
        row.tenantId = tenant && row.personId = person &&
          (rows.member row.tenantId row.id).isSome)).map UserRow.id))
  | .userIdentityBits user =>
      some (rows, .ok ((rows.user user).map fun row => ⟨row.email, row.displayName, row.personId⟩))
  | .userIdByEmailCi _ tenant email =>
      some (rows, .ok ((limitOne choice.pick
        (rows.usersByEmailCi deployment.lower tenant email)).map UserRow.id))
  | .userByEmailInTenant tenant email =>
      some (rows, .ok (rows.users.find? fun row => row.tenantId = tenant && row.email = email))
  | .getUser user => some (rows, .ok (rows.user user))
  | .roleInTenant user tenant => some (rows, .ok ((rows.userIn tenant user).map UserRow.role))
  | .countUsers => some (rows, .ok rows.users.length)
  | .createMemberUser tenant displayName email role person =>
      if rows.emailTaken tenant email || (rows.tenant tenant).isNone then
        some (rows, .error .database)
      else
        (rows.insertUser ⟨choice.fresh, tenant, displayName, email, none, role, person⟩).map
          fun after => (after, .ok choice.fresh)
  | .createLocalUser new _ =>
      if (rows.tenant new.tenant).isNone then some (rows, .error .database)
      else if rows.users.any fun row =>
          row.tenantId = new.tenant &&
            row.username.map deployment.lower = some (deployment.lower new.username) then
        some (rows, .ok (.error .usernameTaken))
      else if rows.emailTaken new.tenant new.email then some (rows, .ok (.error .emailTaken))
      else if rows.personFree choice.person then
        let row : UserRow := ⟨choice.fresh, new.tenant, new.displayName, new.email,
          some new.username, new.role, choice.person⟩
        (rows.insertUser row).map fun after => (after, .ok (.ok row))
      else none
  | .createOidcUser new =>
      if rows.emailTaken new.tenant new.email || (rows.tenant new.tenant).isNone then
        some (rows, .error .database)
      else if rows.personFree choice.person then
        let row : UserRow := ⟨choice.fresh, new.tenant, new.displayName, new.email, none,
          new.role, choice.person⟩
        (rows.insertUser row).map fun after => (after, .ok row)
      else none
  | .hasPermission user permission tenant =>
      some (rows, .ok (rows.impliedPermission deployment.tenantAdmin user permission tenant))
  | .userIdByIdentity issuer subject =>
      some (rows, .ok ((rows.identity issuer subject).map IdentityRow.userId))
  | .emailIsVerified user =>
      some (rows, .ok (rows.identities.any fun row => row.userId = user && row.verified))
  | .markIdentityVerified issuer subject =>
      some ({ rows with
        identities := Table.update IdentityRow.key (issuer, subject)
          (fun row => { row with verified := true }) rows.identities }, .ok ())
  | .createIdentity new =>
      if (rows.identity new.issuer new.subject).isSome || (rows.user new.userId).isNone then
        some (rows, .error .database)
      else
        some ({ rows with
          identities := rows.identities ++
            [⟨new.userId, new.issuer, new.subject, new.email, new.emailVerified⟩] }, .ok ())
  | .getTenant tenant => some (rows, .ok (rows.tenant tenant))
  | .tenantBySlug slug => some (rows, .ok (Table.find TenantRow.slug rows.tenants slug))
  | .createTenant name slug =>
      if (Table.find TenantRow.slug rows.tenants slug).isSome then some (rows, .ok none)
      else if (rows.tenant choice.fresh).isSome then none
      else
        let row : TenantRow := ⟨choice.fresh, name, slug, none⟩
        some ({ rows with tenants := rows.tenants ++ [row] }, .ok (some row))
  | .authModeOf tenant => some (rows, .ok ((rows.tenant tenant).bind TenantRow.authMode))
  | .claimAuthMode tenant mode =>
      some ({ rows with
        tenants := Table.update TenantRow.id tenant
          (fun row => { row with authMode := row.authMode <|> some mode }) rows.tenants },
        .ok ((rows.tenant tenant).any (·.authMode.isNone)))
  | .byTokenHash tokenHash => some (rows, .ok (rows.invites.find? (·.tokenHash = tokenHash)))
  | .isFresh invite =>
      some (rows, match rows.invite invite with
        | some row => .ok (choice.now < row.expiresAt)
        | none => .error .database)
  | .markAccepted invite =>
      some ({ rows with
        invites := Table.update InviteRow.id invite
          (fun row => { row with status := .accepted }) rows.invites }, .ok ())
  | .deletePendingInvites tenant email =>
      some ({ rows with
        invites := rows.invites.filter fun row => !(row.tenantId = tenant &&
          row.status = .pending && deployment.lower row.email = deployment.lower email) }, .ok ())
  | .insertInvite tenant email role tokenHash =>
      if (rows.invite choice.fresh).isSome then none
      else if rows.invites.any fun row => row.tenantId = tenant && row.status = .pending &&
          deployment.lower row.email = deployment.lower email then
        some (rows, .error .database)
      else
        let row : InviteRow := ⟨choice.fresh, tenant, email, role, tokenHash, .pending,
          choice.now + Jobs.seconds (14 * 24 * 60 * 60)⟩
        some ({ rows with invites := rows.invites ++ [row] }, .ok row)
  | .registrationTarget tokenHash =>
      some (rows, .ok ((rows.invites.find? (·.tokenHash = tokenHash)).map fun row =>
        ⟨row.tenantId, row.email, row.role,
          row.status = .pending && choice.now < row.expiresAt⟩))

/-- Run a statement as the environment has it. -/
def execute (rows : Rows) (choice : Choice) (request : Statement) :
    Option (Rows × Except ApiError request.Value) :=
  match choice.outcome with
  | .runs => rows.answer deployment choice request
  | .lost => (rows.answer deployment choice request).map fun (after, _) => (after, .error .database)
  | .fails => some (rows, .error .database)

end Rows

end Execution

section Memberships

variable {tenant place : TenantId} {user other : UserId} {role : Role} {rows : Rows}

namespace Rows

theorem membershipRole_setMemberRole :
    (rows.setMemberRole tenant user role).membershipRole place other =
      if (place, other) = (tenant, user) then
        (rows.membershipRole place other).map fun _ => role
      else rows.membershipRole place other := by
  have updated := @Table.find_update _ _ _ MemberRow.seat rows.members (tenant, user)
    (place, other) (fun row => { row with role := role }) fun _ _ => rfl
  simp only [membershipRole, member, setMemberRole, updated]
  split
  case isTrue =>
    rw [Option.map_map, Option.map_map]
    rfl
  case isFalse => rfl

theorem membershipRole_removeMember :
    (rows.removeMember tenant user).membershipRole place other =
      if (place, other) = (tenant, user) then none else rows.membershipRole place other := by
  simp only [membershipRole, member, removeMember, Table.find_delete]
  split <;> rfl

/-- A grant gives a role where there was none. -/
theorem membershipRole_grant :
    (rows.grant ⟨tenant, user, role⟩).membershipRole place other =
      (rows.membershipRole place other).or
        (if (tenant, user) = (place, other) then some role else none) := by
  unfold grant
  split
  case isTrue present =>
    by_cases same : (tenant, user) = (place, other)
    · cases same
      obtain ⟨row, isRow⟩ := Option.isSome_iff_exists.mp present
      rw [membershipRole, isRow]
      rfl
    · rw [if_neg same, Option.or_none]
  case isFalse absent =>
    simp only [membershipRole, member, Table.find_insert, MemberRow.seat]
    cases Table.find MemberRow.seat rows.members (place, other) with
    | some row => rfl
    | none =>
        by_cases same : (tenant, user) = (place, other)
        · simp [same]
        · simp [same]

/-- With one row for each seat, a role is that of a row. -/
theorem membershipRole_eq_some_iff (seats : Table.Keyed MemberRow.seat rows.members) :
    rows.membershipRole tenant user = some role ↔
      (⟨tenant, user, role⟩ : MemberRow) ∈ rows.members := by
  simp only [membershipRole, member, Option.map_eq_some_iff, seats.find_iff]
  constructor
  · rintro ⟨⟨tenant, user, role⟩, ⟨member, same⟩, rfl⟩
    cases same
    exact member
  · intro member
    exact ⟨_, ⟨member, Eq.refl _⟩, Eq.refl _⟩

/-- Where there are two owners, one is another. -/
theorem exists_other_owner (seats : Table.Keyed MemberRow.seat rows.members)
    (more : 1 < rows.ownerCount tenant) (user : UserId) :
    ∃ other, other ≠ user ∧ rows.membershipRole tenant other = some .owner := by
  by_contra alone
  push Not at alone
  have owners : (rows.members.filter fun row =>
      row.tenantId = tenant && row.role = .owner).map MemberRow.seat =
        List.replicate (rows.ownerCount tenant) (tenant, user) := by
    rw [List.eq_replicate_iff, List.length_map, ownerCount, List.countP_eq_length_filter]
    refine ⟨rfl, ?_⟩
    intro seat isSeat
    obtain ⟨row, member, rfl⟩ := List.mem_map.mp isSeat
    simp only [List.mem_filter, Bool.and_eq_true, decide_eq_true_eq] at member
    obtain ⟨inRows, rfl, isOwner⟩ := member
    by_contra differs
    apply alone row.principalId
    · intro same
      exact differs (by rw [MemberRow.seat, same])
    · rw [membershipRole_eq_some_iff seats, ← isOwner]
      exact inRows
  have distinct : (List.replicate (rows.ownerCount tenant) (tenant, user)).Nodup :=
    owners ▸ seats.sublist ((List.filter_sublist).map MemberRow.seat)
  have atMostOne := List.nodup_replicate.mp distinct
  omega

end Rows

end Memberships

section Frames

variable {deployment : Deployment} {rows after : Rows} {choice : Choice} {request : Statement}
  {reply : Except ApiError request.Value}

/-- Whether a statement writes memberships. -/
def Statement.seats : Statement → Bool
  | .updateMemberRole .. | .deleteMembership .. | .grantMembership .. => true
  | _ => false

theorem Rows.answer_members (ran : rows.answer deployment choice request = some (after, reply))
    (other : request.seats = false) : after.members = rows.members := by
  cases request with
  | updateMemberRole | deleteMembership | grantMembership => cases other
  | createMemberUser | createLocalUser | createOidcUser =>
      simp only [answer, insertUser] at ran
      grind
  | createTenant | insertInvite | createIdentity =>
      simp only [answer] at ran
      grind
  | _ =>
      cases ran
      rfl

/-- One row for each seat is what the unique index keeps. -/
theorem Rows.answer_seats (ran : rows.answer deployment choice request = some (after, reply))
    (seats : Table.Keyed MemberRow.seat rows.members) :
    Table.Keyed MemberRow.seat after.members := by
  cases request with
  | updateMemberRole caller place user role =>
      cases ran
      exact seats.update fun _ _ => rfl
  | deleteMembership caller place user =>
      cases ran
      exact seats.delete
  | grantMembership person place user role =>
      simp only [answer] at ran
      split at ran
      case isTrue =>
        cases ran
        unfold grant
        split
        case isTrue => exact seats
        case isFalse absent => exact seats.insert (Option.not_isSome_iff_eq_none.mp absent)
      case isFalse =>
        cases ran
        exact seats
  | _ => exact (answer_members ran rfl) ▸ seats

/-- Whether a statement writes users. -/
def Statement.writesUsers : Statement → Bool
  | .updateUserRole .. | .createMemberUser .. | .createLocalUser .. | .createOidcUser _ => true
  | _ => false

theorem Rows.answer_users (ran : rows.answer deployment choice request = some (after, reply))
    (other : request.writesUsers = false) : after.users = rows.users := by
  cases request with
  | updateUserRole | createMemberUser | createLocalUser | createOidcUser => cases other
  | grantMembership =>
      simp only [answer, grant] at ran
      grind
  | createTenant | insertInvite | createIdentity =>
      simp only [answer] at ran
      grind
  | _ =>
      cases ran
      rfl

/-- What a statement does to the users: nothing, a new role, or a new row. -/
theorem Rows.answer_users_cases
    (ran : rows.answer deployment choice request = some (after, reply)) :
    after.users = rows.users ∨
      (∃ tenant user role, after = rows.setUserRole tenant user role) ∨
      ∃ row, rows.insertUser row = some after := by
  cases request with
  | updateUserRole tenant user role =>
      cases ran
      exact .inr (.inl ⟨tenant, user, role, rfl⟩)
  | createMemberUser | createLocalUser | createOidcUser =>
      simp only [answer] at ran
      grind [Option.map_eq_some_iff]
  | _ => exact .inl (answer_users ran rfl)

/-- Whether a statement writes tenants. -/
def Statement.writesTenants : Statement → Bool
  | .createTenant .. | .claimAuthMode .. => true
  | _ => false

theorem Rows.answer_tenants (ran : rows.answer deployment choice request = some (after, reply))
    (other : request.writesTenants = false) : after.tenants = rows.tenants := by
  cases request with
  | createTenant | claimAuthMode => cases other
  | createMemberUser | createLocalUser | createOidcUser =>
      simp only [answer, insertUser] at ran
      grind
  | grantMembership =>
      simp only [answer, grant] at ran
      grind
  | insertInvite | createIdentity =>
      simp only [answer] at ran
      grind
  | _ =>
      cases ran
      rfl

/-- A tenant stays. -/
theorem Rows.answer_tenant (ran : rows.answer deployment choice request = some (after, reply))
    {tenant : TenantId} (present : (rows.tenant tenant).isSome = true) :
    (after.tenant tenant).isSome = true := by
  cases request with
  | claimAuthMode place mode =>
      cases ran
      have updated := @Table.find_update _ _ _ TenantRow.id rows.tenants place tenant
        (fun row => { row with authMode := row.authMode <|> some mode }) fun _ _ => rfl
      simp only [Rows.tenant, updated]
      split
      case isTrue => rwa [Option.isSome_map]
      case isFalse => exact present
  | createTenant name slug =>
      simp only [answer] at ran
      split at ran
      case isTrue =>
        cases ran
        exact present
      case isFalse =>
        split at ran
        case isTrue => cases ran
        case isFalse =>
          cases ran
          simp only [Rows.tenant, Table.find_insert, Option.isSome_or]
          exact Bool.or_eq_true_iff.mpr (.inl present)
  | _ =>
      simp only [Rows.tenant, answer_tenants ran rfl]
      exact present

/-- A statement runs, or it fails and leaves the rows as they are. -/
theorem Rows.execute_cases
    (executed : rows.execute deployment choice request = some (after, reply)) :
    (choice.outcome ≠ .fails ∧ ∃ told, rows.answer deployment choice request =
        some (after, told) ∧ ((choice.outcome = .runs ∧ reply = told) ∨
          (choice.outcome = .lost ∧ reply = .error .database))) ∨
      (choice.outcome = .fails ∧ after = rows ∧ reply = .error .database) := by
  unfold execute at executed
  cases outcome : choice.outcome with
  | runs =>
      rw [outcome] at executed
      exact .inl ⟨nofun, reply, executed, .inl ⟨rfl, rfl⟩⟩
  | lost =>
      rw [outcome] at executed
      obtain ⟨⟨moved, told⟩, ran, same⟩ := Option.map_eq_some_iff.mp executed
      cases same
      exact .inl ⟨nofun, told, ran, .inr ⟨rfl, rfl⟩⟩
  | fails =>
      rw [outcome] at executed
      cases executed
      exact .inr ⟨rfl, rfl, rfl⟩

end Frames

end NookOs.Identity
