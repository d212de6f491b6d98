/-
Module: NookOs.Identity.Pairing
Purpose: Which writes of the identity calls belong together, and that in every
  call the second is what comes next after the first.
Trusted boundary: none
Main exports: Mate, Statement.mate, Statement.awaits, Follows, handle_paired
-/
import NookOs.Identity.Calls

namespace NookOs.Identity

open Lib
open Lib.Program (ensure)

/-!
The role of a membership and the role of its user are written by two statements,
and so are a user and the membership that is made with it.  No transaction holds
the two together.
-/

section Pairs

/-- The second of two writes that belong together. -/
inductive Mate where
  | update (tenant : TenantId) (user : UserId) (role : Role)
  | grant (tenant : TenantId) (user : UserId) (role : Role)
deriving DecidableEq

/-- The second write that a statement is, where it is one. -/
def Statement.mate : Statement → Option Mate
  | .updateUserRole tenant user role => some (.update tenant user role)
  | .grantMembership _ tenant user role => some (.grant tenant user role)
  | _ => none

/-- What a first write that has its reply awaits. -/
def Statement.awaits : (request : Statement) → request.Value → Option Mate
  | .updateMemberRole _ tenant user role, _ => some (.update tenant user role)
  | .createMemberUser tenant _ _ role _, user => some (.grant tenant user role)
  | .createLocalUser new true, .ok row => some (.grant new.tenant row.id new.role)
  | .createOidcUser new, row => some (.grant new.tenant row.id new.role)
  | _, _ => none

/-- The account that a membership is granted for, where one is. -/
def Statement.grantsFor : Statement → Option (Option UserId)
  | .grantMembership account .. => some account
  | _ => none

/-- A call, or what is left of one, before its failures are told from its answers. -/
abbrev Rest (Value : Type) :=
  Program Statement (fun request => Except ApiError request.Value) Value

/-- The second write that a program makes next. -/
def mateOf {Value : Type} (program : Rest Value) : Option Mate :=
  program.head.bind Statement.mate

/-- In a program every first write that has its reply is followed by the second,
and memberships are granted for the one account that it serves, or for none. -/
def Follows {Value : Type} (serves : Option UserId) : Rest Value → Prop
  | .answer _ => True
  | .statement request next =>
      (∀ account, request.grantsFor = some account → account = serves) ∧
      (∀ value mate, request.awaits value = some mate →
        mateOf (next (.ok value)) = some mate) ∧
      ∀ reply, Follows serves (next reply)

end Pairs

section Rules

variable {serves : Option UserId} {First Second : Type}

/-- A statement that a call may make alone. -/
def Statement.Single (request : Statement) : Prop :=
  request.grantsFor = none ∧ ∀ value, request.awaits value = none

/-- What a program makes next does not depend on what comes after the program. -/
theorem mateOf_bind {program : Rest First} {next : First → Rest Second} {mate : Mate}
    (comes : mateOf program = some mate) : mateOf (program.bind next) = some mate := by
  cases program with
  | answer value => cases comes
  | statement request rest => exact comes

/-- One program after another, where neither leaves a first write alone. -/
theorem Follows.bind {program : Rest First} {next : First → Rest Second}
    (follows : Follows serves program) (goesOn : ∀ value, Follows serves (next value)) :
    Follows serves (program.bind next) := by
  induction program with
  | answer value => exact goesOn value
  | statement request rest ih =>
      obtain ⟨serving, mates, later⟩ := follows
      refine ⟨serving, ?_, fun reply => ih reply (later reply)⟩
      intro value mate awaits
      exact mateOf_bind (mates value mate awaits)

/-- A handler in which every first write is followed by the second. -/
structure Paired (serves : Option UserId) (program : Handler First) : Prop where
  follows : Follows serves program.run

/-- One handler after another. -/
theorem paired_bind {program : Handler First} {next : First → Handler Second}
    (paired : Paired serves program) (goesOn : ∀ value, Paired serves (next value)) :
    Paired serves (program >>= next) where
  follows := by
    apply Follows.bind paired.follows
    intro result
    cases result with
    | error failure => trivial
    | ok value => exact (goesOn value).follows

/-- A first write, with the second at the head of what comes next. -/
theorem paired_first {request : Statement} {next : request.Value → Handler Second}
    (serving : ∀ account, request.grantsFor = some account → account = serves)
    (mates : ∀ value mate, request.awaits value = some mate →
      mateOf (next value).run = some mate)
    (goesOn : ∀ value, Paired serves (next value)) :
    Paired serves (perform request >>= next) where
  follows := by
    refine ⟨serving, mates, ?_⟩
    intro reply
    cases reply with
    | error failure => trivial
    | ok value => exact (goesOn value).follows

/-- A statement that may stand alone. -/
theorem paired_perform {request : Statement} (single : request.Single) :
    Paired serves (perform request) where
  follows := by
    refine ⟨?_, ?_, fun _ => trivial⟩
    · intro account isAccount
      rw [single.1] at isAccount
      cases isAccount
    · intro value mate awaits
      rw [single.2] at awaits
      cases awaits

/-- The second of two writes, for the account that the call serves. -/
theorem paired_grant (tenant : TenantId) (user : UserId) (role : Role) :
    Paired serves (perform (.grantMembership serves tenant user role)) where
  follows := by
    refine ⟨?_, nofun, fun _ => trivial⟩
    intro account isAccount
    cases isAccount
    rfl

/-- A statement whose failure the call looks at. -/
theorem paired_attempt {request : Statement} (single : request.Single) :
    Paired serves (attempt request) where
  follows := Follows.bind (paired_perform single).follows fun _ => trivial

/-- An answer writes nothing. -/
theorem paired_pure {value : First} : Paired serves (pure value) where
  follows := trivial

/-- A failure writes nothing. -/
theorem paired_throw {failure : ApiError} : Paired serves (throw failure : Handler First) where
  follows := trivial

/-- A check writes nothing. -/
theorem paired_ensure {condition : Bool} {failure : ApiError} :
    Paired serves (ensure condition failure) := by
  cases condition with
  | false => exact paired_throw
  | true => exact paired_pure

/-- A row that may be missing: nothing is written either way. -/
theorem paired_found {failure : ApiError} {option : Option First} :
    Paired serves (found failure option) := by
  cases option with
  | none => exact paired_throw
  | some value => exact paired_pure

/-- The answer in another form. -/
theorem paired_map {program : Handler First} {change : First → Second}
    (paired : Paired serves program) : Paired serves (change <$> program) :=
  ⟨(paired_bind paired fun value => @paired_pure serves _ (change value)).follows⟩

/-- The answer is thrown away. -/
theorem paired_discard {program : Handler First} (paired : Paired serves program) :
    Paired serves (discard program) :=
  ⟨(paired_bind paired fun _ => paired_pure).follows⟩

end Rules

section Management

variable {serves : Option UserId} {deployment : Deployment}

/-- The role is read. -/
theorem roleIn_paired (user : UserId) (tenant : TenantId) :
    Paired serves (roleIn user tenant) := by
  apply paired_bind (paired_perform ⟨rfl, fun _ => rfl⟩)
  intro role
  exact paired_found

/-- The caller's seat is read. -/
theorem requireActiveTenant_paired (auth : AuthCtx) (tenant : TenantId) :
    Paired serves (requireActiveTenant auth tenant) := by
  apply paired_bind paired_ensure
  intro _
  exact roleIn_paired auth.userId tenant

/-- The owners are counted. -/
theorem notLastOwner_paired (takes : Bool) (tenant : TenantId) (message : String) :
    Paired serves (notLastOwner takes tenant message) := by
  cases takes with
  | false => exact paired_pure
  | true =>
      apply paired_bind (paired_perform ⟨rfl, fun _ => rfl⟩)
      intro count
      exact paired_ensure

/-- The membership's role, and the user's role next. -/
theorem setRole_paired (caller : UserId) (tenant : TenantId) (user : UserId) (role : Role) :
    Paired serves (setRole caller tenant user role) := by
  apply paired_first
  · exact nofun
  · intro _ mate awaits
    exact awaits
  · intro _
    exact @paired_perform serves (.updateUserRole tenant user role) ⟨rfl, fun _ => rfl⟩

/-- The checks come first, and then the two roles. -/
theorem changeMemberRole_paired (auth : AuthCtx) (tenant : TenantId) (pid : UserId)
    (role : String) : Paired serves (changeMemberRole auth tenant pid role) := by
  apply paired_bind (requireActiveTenant_paired auth tenant)
  intro caller
  apply paired_bind paired_ensure
  intro _
  apply paired_bind paired_found
  intro newRole
  apply paired_bind paired_ensure
  intro _
  apply paired_bind (roleIn_paired pid tenant)
  intro current
  apply paired_bind paired_ensure
  intro _
  apply paired_bind (notLastOwner_paired _ tenant _)
  intro _
  apply paired_bind (setRole_paired auth.userId tenant pid newRole)
  intro _
  apply paired_bind (paired_perform ⟨rfl, fun _ => rfl⟩)
  intro item
  exact paired_found

/-- A seat is removed by one statement. -/
theorem removeMember_paired (auth : AuthCtx) (tenant : TenantId) (pid : UserId) :
    Paired serves (removeMember auth tenant pid) := by
  apply paired_bind (requireActiveTenant_paired auth tenant)
  intro caller
  apply paired_bind paired_ensure
  intro _
  apply paired_bind (roleIn_paired pid tenant)
  intro target
  apply paired_bind paired_ensure
  intro _
  apply paired_bind (notLastOwner_paired _ tenant _)
  intro _
  apply paired_bind (paired_perform ⟨rfl, fun _ => rfl⟩)
  intro removed
  exact paired_ensure

/-- The own seat is removed by one statement. -/
theorem leaveTenant_paired (auth : AuthCtx) (tenant : TenantId) :
    Paired serves (leaveTenant auth tenant) := by
  apply paired_bind (requireActiveTenant_paired auth tenant)
  intro mine
  apply paired_bind (notLastOwner_paired _ tenant _)
  intro _
  apply paired_bind (paired_perform ⟨rfl, fun _ => rfl⟩)
  intro _
  exact paired_pure

/-- A seat that is made is granted next, for the account that accepts. -/
theorem join_paired (account : UserId) (me : IdentityBits) (invite : InviteRow) :
    Paired (some account) (join account me invite) := by
  have marks (user : UserId) : Paired (some account) (do
      perform (.grantMembership (some account) invite.tenantId user invite.role)
      perform (.markAccepted invite.id)
      pure (⟨true, invite.tenantId, "welcome — you have joined the tenant"⟩ :
        AcceptInviteResult) : Handler AcceptInviteResult) := by
    apply paired_bind (paired_grant invite.tenantId user invite.role)
    intro _
    apply paired_bind (paired_perform ⟨rfl, fun _ => rfl⟩)
    intro _
    exact paired_pure
  rw [join, seatFor, bind_assoc]
  apply paired_bind (paired_perform ⟨rfl, fun _ => rfl⟩)
  intro present
  cases present with
  | some user => exact marks user
  | none =>
      apply paired_first
      · exact nofun
      · intro user mate awaits
        exact awaits
      · exact marks

/-- An invitation is refused, or its seat is made and granted. -/
theorem redeem_paired (user : UserId) (fallback : TenantId) (me : IdentityBits)
    (invite : InviteRow) (emailMatches : Bool) :
    Paired (some user) (redeem user fallback me invite emailMatches) := by
  unfold redeem
  split
  case isTrue => exact paired_pure
  case isFalse =>
    apply paired_bind (paired_perform ⟨rfl, fun _ => rfl⟩)
    intro fresh
    split
    case isTrue => exact paired_pure
    case isFalse =>
      split
      case isTrue => exact paired_pure
      case isFalse =>
        apply paired_bind (paired_perform ⟨rfl, fun _ => rfl⟩)
        intro verified
        split
        case isTrue => exact paired_pure
        case isFalse => exact join_paired user me invite

/-- A member accepts again, which marks the invitation at most. -/
theorem alreadyMember_paired (invite : InviteRow) (emailMatches : Bool) :
    Paired serves (alreadyMember invite emailMatches) := by
  unfold alreadyMember
  split
  case isTrue =>
    apply paired_bind (paired_discard (paired_attempt ⟨rfl, fun _ => rfl⟩))
    intro _
    exact paired_pure
  case isFalse => exact paired_pure

/-- Memberships are granted for the account that accepts. -/
theorem acceptCore_paired (user : UserId) (fallback : TenantId) (token : String) :
    Paired (some user) (acceptCore deployment user fallback token) := by
  apply paired_bind (paired_perform ⟨rfl, fun _ => rfl⟩)
  intro bits
  apply paired_bind paired_found
  intro me
  apply paired_bind (paired_perform ⟨rfl, fun _ => rfl⟩)
  intro invite
  cases invite with
  | none => exact paired_pure
  | some invite =>
      apply paired_bind (paired_perform ⟨rfl, fun _ => rfl⟩)
      intro seat
      cases seat with
      | none => exact redeem_paired user fallback me invite _
      | some seat => exact alreadyMember_paired invite _

end Management

section Accounts

variable {serves : Option UserId} {deployment : Deployment}

/-- The caller's role is read. -/
theorem requireTenantAdmin_paired (auth : AuthCtx) :
    Paired serves (requireTenantAdmin auth) := by
  apply paired_bind (paired_perform ⟨rfl, fun _ => rfl⟩)
  intro role
  split
  case h_3 => exact paired_throw
  all_goals exact paired_pure

theorem validatedRole_paired (role : Option String) :
    Paired serves (validatedRole role) := by
  unfold validatedRole
  split
  case h_3 => exact paired_throw
  all_goals exact paired_pure

/-- An invitation grants nothing before it is accepted. -/
theorem issueInvite_paired (auth : AuthCtx) (tenant : TenantId) (email : String)
    (role : Option String) (token : String) :
    Paired serves (issueInvite deployment auth tenant email role token) := by
  apply paired_bind (paired_bind paired_ensure fun _ => requireTenantAdmin_paired auth)
  intro _
  apply paired_bind (validatedRole_paired role)
  intro role
  apply paired_bind paired_ensure
  intro _
  apply paired_bind (paired_perform ⟨rfl, fun _ => rfl⟩)
  intro _
  exact @paired_perform serves (.insertInvite tenant _ role _) ⟨rfl, fun _ => rfl⟩

/-- A tenant's mode is one row. -/
theorem claimMode_paired (tenant : TenantId) (mode : AuthMode) :
    Paired serves (claimMode tenant mode) := by
  apply paired_bind (paired_perform ⟨rfl, fun _ => rfl⟩)
  intro claimed
  split
  case isTrue => exact paired_pure
  case isFalse =>
    apply paired_bind (paired_perform ⟨rfl, fun _ => rfl⟩)
    intro settled
    split
    case h_1 => exact paired_ensure
    case h_2 => exact paired_throw

/-- An account that is made as a member is granted its membership next. -/
theorem createLocalUser_paired (new : NewLocalUser) (granted : Bool) :
    Paired none (createLocalUser new granted) := by
  apply paired_first
  · exact nofun
  · intro made mate awaits
    cases granted with
    | false => cases awaits
    | true =>
        cases made with
        | error taken => cases awaits
        | ok row => exact awaits
  · intro made
    cases made with
    | error taken => exact paired_pure
    | ok row =>
        cases granted with
        | false => exact paired_pure
        | true =>
            exact paired_bind (paired_grant new.tenant row.id new.role) fun _ => paired_pure

theorem accepts_paired (refusal : Option String) : Paired serves (accepts refusal) := by
  cases refusal with
  | none => exact paired_pure
  | some message => exact paired_throw

/-- An account is made where its name and its password are accepted. -/
theorem localAccount_paired (tenant : TenantId) (account : LocalAccount) (role : Role)
    (granted : Bool) : Paired none (localAccount tenant account role granted) := by
  apply paired_bind (accepts_paired _)
  intro _
  apply paired_bind (accepts_paired _)
  intro _
  apply paired_bind (createLocalUser_paired _ granted)
  intro made
  unfold createdUser
  split
  case h_1 => exact paired_pure
  all_goals exact paired_throw

/-- An administrator makes an account for a member. -/
theorem createUser_paired (auth : AuthCtx) (req : LocalRegisterRequest) :
    Paired none (createUser auth req) := by
  apply paired_bind (requireTenantAdmin_paired auth)
  intro _
  apply paired_bind (claimMode_paired auth.tenantId .local)
  intro _
  exact localAccount_paired auth.tenantId req.account _ true

/-- An invited person makes an account, which is no member yet. -/
theorem register_paired (req : RegisterInviteRequest) :
    Paired none (register deployment req) := by
  apply paired_bind (paired_perform ⟨rfl, fun _ => rfl⟩)
  intro target
  split
  case h_1 tenant email role =>
    apply paired_bind (paired_perform ⟨rfl, fun _ => rfl⟩)
    intro mode
    apply paired_bind paired_ensure
    intro _
    apply paired_bind (paired_perform ⟨rfl, fun _ => rfl⟩)
    intro present
    split
    case h_1 => exact paired_pure
    case h_2 =>
      have made : Paired none
          (registerInvited tenant ⟨req.username, email, req.name, req.password⟩ role) :=
        localAccount_paired tenant _ role false
      exact paired_discard made
  case h_2 => exact paired_throw

end Accounts

section SigningIn

variable {serves : Option UserId} {deployment : Deployment}

/-- The first tenant is found or made. -/
theorem defaultTenant_paired : Paired serves (defaultTenant deployment) := by
  apply paired_bind (paired_perform ⟨rfl, fun _ => rfl⟩)
  intro tenant
  split
  case h_1 => exact paired_pure
  case h_2 =>
    apply paired_bind (paired_perform ⟨rfl, fun _ => rfl⟩)
    intro made
    exact paired_found

/-- The first account is a member of the first tenant. -/
theorem bootstrap_paired (req : LocalRegisterRequest) :
    Paired none (bootstrap deployment req) := by
  apply paired_bind (paired_perform ⟨rfl, fun _ => rfl⟩)
  intro count
  apply paired_bind paired_ensure
  intro _
  apply paired_bind defaultTenant_paired
  intro tenant
  apply paired_bind (claimMode_paired tenant.id .local)
  intro _
  exact localAccount_paired tenant.id req.account _ true

/-- A tenant is made under the first slug that is free. -/
theorem createWithSlug_paired (name : String) (slugs : List String) :
    Paired serves (createWithSlug name slugs) := by
  induction slugs with
  | nil => exact paired_throw
  | cons slug rest ih =>
      apply paired_bind (paired_perform ⟨rfl, fun _ => rfl⟩)
      intro tenant
      cases tenant with
      | some tenant => exact paired_pure
      | none => exact ih

theorem tenantFor_paired (login : Login) :
    Paired serves (tenantFor deployment login) := by
  apply paired_bind (paired_perform ⟨rfl, fun _ => rfl⟩)
  intro count
  split
  case isTrue => exact defaultTenant_paired
  case isFalse => exact createWithSlug_paired _ _

theorem claimsMode_paired (claims : IdentityClaims) (tenant : TenantId) :
    Paired serves (claimsMode claims tenant) := by
  unfold claimsMode
  split
  case isTrue => exact claimMode_paired tenant .oidc
  case isFalse => exact paired_pure

/-- Somebody who is known writes no user and no membership. -/
theorem returning_paired (claims : IdentityClaims) (user : UserId) :
    Paired serves (returning claims user) := by
  apply paired_bind (paired_perform ⟨rfl, fun _ => rfl⟩)
  intro found
  apply paired_bind paired_found
  intro user
  apply paired_bind (paired_perform ⟨rfl, fun _ => rfl⟩)
  intro tenant
  apply paired_bind paired_found
  intro tenant
  have claims (_ : Unit) : Paired serves (do
      claimsMode claims tenant.id
      pure (user, tenant) : Handler (UserRow × TenantRow)) :=
    paired_bind (claimsMode_paired claims tenant.id) fun _ => paired_pure
  split
  case isTrue =>
    apply paired_bind (paired_perform ⟨rfl, fun _ => rfl⟩)
    exact claims
  case isFalse => exact claims ()

/-- A user that is made is granted its membership next. -/
theorem arrive_paired (claims : IdentityClaims) (tenant : TenantRow) :
    Paired none (arrive claims tenant) := by
  have granted (user : UserRow) : Paired none (do
      perform (.grantMembership none tenant.id user.id .owner)
      perform (.createIdentity (claims.identityOf user.id))
      pure (user, tenant) : Handler (UserRow × TenantRow)) := by
    apply paired_bind (paired_grant tenant.id user.id .owner)
    intro _
    apply paired_bind (paired_perform ⟨rfl, fun _ => rfl⟩)
    intro _
    exact paired_pure
  apply paired_bind (paired_perform ⟨rfl, fun _ => rfl⟩)
  intro present
  apply paired_bind (claimsMode_paired claims tenant.id)
  intro _
  cases present with
  | some user => exact granted user
  | none =>
      apply paired_first
      · exact nofun
      · intro user mate awaits
        exact awaits
      · exact granted

/-- A person signs in, for the first time or again. -/
theorem loginIdentity_paired (login : Login) :
    Paired none (loginIdentity deployment login) := by
  apply paired_bind (paired_perform ⟨rfl, fun _ => rfl⟩)
  intro known
  split
  case h_1 user => exact returning_paired login.claims user
  case h_2 =>
    apply paired_bind (tenantFor_paired login)
    exact arrive_paired login.claims

end SigningIn

section Calls

variable {deployment : Deployment}

/-- The account that a call grants memberships for. -/
def Request.serves : Request → Option UserId
  | .manage (.accept user _ _) => some user
  | _ => none

/-- In every call a first write is followed by the second. -/
theorem handle_paired (request : Request) :
    Paired request.serves (handle deployment request) := by
  cases request with
  | manage call =>
      cases call with
      | changeMemberRole auth tenant pid role =>
          exact paired_map (changeMemberRole_paired auth tenant pid role)
      | removeMember auth tenant pid => exact paired_map (removeMember_paired auth tenant pid)
      | leaveTenant auth tenant => exact paired_map (leaveTenant_paired auth tenant)
      | accept user fallback token => exact paired_map (acceptCore_paired user fallback token)
  | signIn call =>
      cases call with
      | login login => exact paired_map (loginIdentity_paired login)
      | bootstrap req => exact paired_map (bootstrap_paired req)
  | issueInvite auth tenant email role token =>
      exact paired_map (issueInvite_paired auth tenant email role token)
  | createUser auth req => exact paired_map (createUser_paired auth req)
  | register req => exact paired_map (register_paired req)
  | hasPermission user permission tenant =>
      exact paired_map (@paired_perform _ (.hasPermission user permission tenant)
        ⟨rfl, fun _ => rfl⟩)

end Calls

end NookOs.Identity
