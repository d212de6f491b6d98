/-
Module: NookOs.Identity.Calls
Purpose: The calls on memberships, invites and local accounts, and the two ways
  of signing in, as programs of single statements.
Trusted boundary: none
Main exports: Management, SignIn, Request, management, identity
-/
import NookOs.Identity.Rows
import NookOs.Lib.Text

namespace NookOs.Identity

open Lib
open Lib.Program (ensure)
open Jobs (Instant)

abbrev Handler := Program.Failing Statement Statement.Value ApiError

abbrev perform (request : Statement) : Handler request.Value := Program.perform request

abbrev attempt (request : Statement) : Handler (Except ApiError request.Value) :=
  Program.attempt request

/-- What was found, or the error that it is not there. -/
def found {Value : Type} (failure : ApiError) : Option Value → Handler Value
  | some value => pure value
  | none => throw failure

section Members

/-- Who calls, and the tenant the caller is switched into. -/
structure AuthCtx where
  userId : UserId
  tenantId : TenantId
deriving DecidableEq

def roleIn (user : UserId) (tenant : TenantId) : Handler Role := do
  found (.forbiddenMsg "you are not a member of this tenant")
    (← perform (.membershipRole tenant user))

def requireActiveTenant (auth : AuthCtx) (tenant : TenantId) : Handler Role := do
  ensure (tenant = auth.tenantId)
    (.forbiddenMsg "you can only manage members of the tenant you are switched into")
  roleIn auth.userId tenant

def mayModifyTarget (caller target : Role) : Bool :=
  target ≠ .owner || caller = .owner

/-- Where a write takes the role of an owner, the tenant has to have another. -/
def notLastOwner (takes : Bool) (tenant : TenantId) (message : String) : Handler Unit :=
  if takes then do ensure (1 < (← perform (.ownerCount tenant))) (.forbiddenMsg message)
  else pure ()

/-- `IdentityRepository::change_member_role`: the membership, then the user. -/
def setRole (caller : UserId) (tenant : TenantId) (user : UserId) (role : Role) :
    Handler Unit := do
  perform (.updateMemberRole caller tenant user role)
  perform (.updateUserRole tenant user role)

def changeMemberRole (auth : AuthCtx) (tenant : TenantId) (pid : UserId) (role : String) :
    Handler TenantMemberItem := do
  let caller ← requireActiveTenant auth tenant
  ensure (caller = .owner || caller = .admin)
    (.forbiddenMsg "changing roles needs owner or admin")
  let newRole ← found (.badRequest "role must be owner, admin, or member") (Role.parse role)
  ensure (newRole ≠ .owner || caller = .owner)
    (.forbiddenMsg "only an owner can grant ownership")
  let current ← roleIn pid tenant
  ensure (mayModifyTarget caller current)
    (.forbiddenMsg "only an owner can change another owner's role")
  notLastOwner (current = .owner && newRole ≠ .owner) tenant
    "this is the last owner — promote someone else to owner first"
  setRole auth.userId tenant pid newRole
  found .notFound (← perform (.memberItem tenant pid))

def removeMember (auth : AuthCtx) (tenant : TenantId) (pid : UserId) : Handler Unit := do
  let caller ← requireActiveTenant auth tenant
  ensure (caller = .owner || caller = .admin)
    (.forbiddenMsg "removing members needs owner or admin")
  let target ← roleIn pid tenant
  ensure (mayModifyTarget caller target)
    (.forbiddenMsg "only an owner can remove another owner")
  notLastOwner (target = .owner) tenant
    "this is the last owner — a tenant cannot be left ownerless"
  ensure ((← perform (.deleteMembership auth.userId tenant pid)) ≠ 0) .notFound

def leaveTenant (auth : AuthCtx) (tenant : TenantId) : Handler Unit := do
  let mine ← requireActiveTenant auth tenant
  notLastOwner (mine = .owner) tenant
    "you are the last owner — promote someone else before leaving"
  discard (perform (.deleteMembership auth.userId tenant auth.userId))

end Members

section Invites

variable (deployment : Deployment)

structure AcceptInviteResult where
  accepted : Bool
  tenantId : TenantId
  message : String
deriving DecidableEq

/-- A call that keeps the caller in the tenant it came from. -/
def decline (fallback : TenantId) (message : String) : Handler AcceptInviteResult :=
  pure ⟨false, fallback, message⟩

/-- The row of the invited person, which is there by its email or is made. -/
def seatFor (account : UserId) (me : IdentityBits) (invite : InviteRow) : Handler UserId := do
  match ← perform (.userIdByEmailCi (some account) invite.tenantId invite.email) with
  | some user => pure user
  | none =>
      perform (.createMemberUser invite.tenantId me.displayName invite.email invite.role
        me.personId)

/-- The seat, the membership, and the end of the invite. -/
def join (account : UserId) (me : IdentityBits) (invite : InviteRow) :
    Handler AcceptInviteResult := do
  let user ← seatFor account me invite
  perform (.grantMembership (some account) invite.tenantId user invite.role)
  perform (.markAccepted invite.id)
  pure ⟨true, invite.tenantId, "welcome — you have joined the tenant"⟩

/-- The checks of an invite that is not yet a membership. -/
def redeem (user : UserId) (fallback : TenantId) (me : IdentityBits) (invite : InviteRow)
    (emailMatches : Bool) : Handler AcceptInviteResult :=
  if invite.status ≠ .pending then
    decline fallback "this invite has already been used or revoked"
  else do
    if !(← perform (.isFresh invite.id)) then
      decline fallback "this invite has expired"
    else if !emailMatches then
      decline fallback "this invite was sent to a different email address"
    else if !(← perform (.emailIsVerified user)) then
      decline fallback "verify your email address first, then open the invite link again"
    else join user me invite

/-- Who is a member already is one; an invite to them is used up. -/
def alreadyMember (invite : InviteRow) (emailMatches : Bool) : Handler AcceptInviteResult := do
  if invite.status = .pending && emailMatches then
    discard (attempt (.markAccepted invite.id))
  pure ⟨true, invite.tenantId, "you are already a member of this tenant"⟩

def acceptCore (user : UserId) (fallback : TenantId) (token : String) :
    Handler AcceptInviteResult := do
  let me ← found .notFound (← perform (.userIdentityBits user))
  match ← perform (.byTokenHash (deployment.hashToken token)) with
  | none => decline fallback "this invite link is not valid"
  | some invite => do
      let emailMatches :=
        deployment.toLowercase me.email = deployment.toLowercase invite.email
      match ← perform (.memberUserByPerson invite.tenantId me.personId) with
      | some _ => alreadyMember invite emailMatches
      | none => redeem user fallback me invite emailMatches

/-- `require_tenant_admin`, which asks the user's row. -/
def requireTenantAdmin (auth : AuthCtx) : Handler Unit := do
  match ← perform (.roleInTenant auth.userId auth.tenantId) with
  | some .owner | some .admin => pure ()
  | _ => throw (.forbiddenMsg "this needs tenant owner or admin")

def requireAdminOf (auth : AuthCtx) (tenant : TenantId) : Handler Unit := do
  ensure (tenant = auth.tenantId)
    (.forbiddenMsg "switch to a tenant before managing its invites")
  requireTenantAdmin auth

/-- The role an invite may name; an owner is never invited. -/
def validatedRole (role : Option String) : Handler Role :=
  match role.getD "member" with
  | "member" => pure .member
  | "admin" => pure .admin
  | other => throw (.badRequest ("invite role must be member or admin, not " ++ reprStr other))

/-- An invite replaces the pending one for its address.  The token is drawn anew. -/
def issueInvite (auth : AuthCtx) (tenant : TenantId) (email : String) (role : Option String)
    (token : String) : Handler InviteRow := do
  requireAdminOf auth tenant
  let role ← validatedRole role
  let email := String.ofList (Text.trim email.toList)
  ensure (email ≠ "" && '@' ∈ email.toList) (.badRequest "a valid email is required")
  perform (.deletePendingInvites tenant email)
  perform (.insertInvite tenant email role (deployment.hashToken token))

end Invites

section Accounts

/-- Why a password is refused. -/
def checkStrength (password : String) : Option String :=
  if password.length < 12 then
    some s!"password must be at least 12 characters (this one is {password.length})"
  else if 1024 < password.utf8ByteSize then some "password must be at most 1024 bytes"
  else none

def isAsciiAlphanumeric (char : Char) : Bool :=
  (decide ('a' ≤ char) && decide (char ≤ 'z')) || (decide ('A' ≤ char) && decide (char ≤ 'Z')) ||
    (decide ('0' ≤ char) && decide (char ≤ '9'))

/-- Why a username is refused. -/
def validateUsername (username : String) : Option String :=
  if username.utf8ByteSize < 2 || 39 < username.utf8ByteSize then
    some "username must be between 2 and 39 characters"
  else if !username.toList.all fun char =>
      isAsciiAlphanumeric char || char = '-' || char = '_' || char = '.' then
    some "username may contain only letters, numbers, dot, dash and underscore"
  else if !username.toList.head?.any isAsciiAlphanumeric then
    some "username must start with a letter or number"
  else none

/-- Nothing is wrong, or a bad request. -/
def accepts : Option String → Handler Unit
  | none => pure ()
  | some message => throw (.badRequest message)

/-- The account that was made, or which of its names is taken. -/
def createdUser (username email : String) : Except CreateUserError UserRow → Handler UserRow
  | .ok user => pure user
  | .error .usernameTaken =>
      throw (.badRequest s!"the username '{username}' is already taken")
  | .error .emailTaken => throw (.badRequest s!"the email '{email}' is already taken")

/-- `IdentityRepository::create_local_user`, which grants where it is asked to. -/
def createLocalUser (new : NewLocalUser) (grantMembership : Bool) :
    Handler (Except CreateUserError UserRow) := do
  match ← perform (.createLocalUser new grantMembership) with
  | .error taken => pure (.error taken)
  | .ok user => do
      if grantMembership then
        perform (.grantMembership none new.tenant user.id new.role)
      pure (.ok user)

structure LocalAccount where
  username : String
  email : String
  displayName : String
  password : String
deriving DecidableEq

/-- A local account under its checked names. -/
def localAccount (tenant : TenantId) (account : LocalAccount) (role : Role)
    (grantMembership : Bool) : Handler UserRow := do
  let username := String.ofList (Text.trim account.username.toList)
  accepts (validateUsername username)
  accepts (checkStrength account.password)
  createdUser username account.email (← createLocalUser
    ⟨tenant, account.displayName, account.email, username, role⟩ grantMembership)

/-- `local_auth::create`. -/
def createLocal (tenant : TenantId) (account : LocalAccount) (isFirst : Bool) :
    Handler UserRow :=
  localAccount tenant account (if isFirst then .owner else .member) true

/-- `local_auth::register_invited`. -/
def registerInvited (tenant : TenantId) (account : LocalAccount) (role : Role) :
    Handler UserRow :=
  localAccount tenant account role false

/-- What a form for a local account holds. -/
structure LocalRegisterRequest where
  username : String
  password : String
  email : Option String
  displayName : Option String
deriving DecidableEq

def LocalRegisterRequest.account (req : LocalRegisterRequest) : LocalAccount :=
  { username := req.username
    email := req.email.getD (req.username ++ "@localhost")
    displayName := req.displayName.getD req.username
    password := req.password }

def lockMessage (settled want : AuthMode) : String :=
  s!"this instance signs in with {settled.asStr}, not {want.asStr}.\n\nThe choice is made on first sign-in and is deliberately one-way: allowing both would let the same person exist twice, with different ids and different permissions, and no reliable way to say which one a grant was meant for. Changing it is a migration with a human deciding how to merge the two."

def claimMode (tenant : TenantId) (want : AuthMode) : Handler Unit := do
  if ← perform (.claimAuthMode tenant want) then pure ()
  else
    match ← perform (.authModeOf tenant) with
    | some mode => ensure (mode = want) (.forbiddenMsg (lockMessage mode want))
    | none => throw .notFound

def createUser (auth : AuthCtx) (req : LocalRegisterRequest) : Handler UserRow := do
  requireTenantAdmin auth
  claimMode auth.tenantId .local
  createLocal auth.tenantId req.account false

structure RegisterInviteRequest where
  token : String
  username : String
  name : String
  password : String
deriving DecidableEq

variable (deployment : Deployment)

/-- An account against a pending invite, with its email and its role.  Whether it
was made is not told. -/
def register (req : RegisterInviteRequest) : Handler Unit := do
  match ← perform (.registrationTarget (deployment.hashToken req.token)) with
  | some ⟨tenant, email, role, true⟩ => do
      ensure ((← perform (.authModeOf tenant)) ≠ some .oidc) (.badRequest
        "this instance signs in through an identity provider; local registration is unavailable")
      match ← perform (.userIdByEmailCi none tenant email) with
      | some _ => pure ()
      | none => discard (registerInvited tenant ⟨req.username, email, req.name, req.password⟩ role)
  | _ => throw (.badRequest "this invite link is not valid or has expired")

end Accounts

section SigningIn

variable (deployment : Deployment)

/-- Letters and digits stay, in lower case; all else is a dash. -/
def slugify (text : String) : String :=
  let dashed := (deployment.toLowercase text).toList.map fun char =>
    if isAsciiAlphanumeric char then char else '-'
  let slug := Text.trimEndMatches '-' (dashed.dropWhile (· = '-'))
  if slug = [] then "tenant" else String.ofList slug

def defaultTenant : Handler TenantRow := do
  let slug := slugify deployment deployment.defaultTenantName
  match ← perform (.tenantBySlug slug) with
  | some tenant => pure tenant
  | none => do
      found (.internal s!"default tenant slug {slug} was taken between read and write")
        (← perform (.createTenant deployment.defaultTenantName slug))

/-- The bootstrap up to the account; what follows writes none of these tables. -/
def bootstrap (req : LocalRegisterRequest) : Handler UserRow := do
  ensure ((← perform .countUsers) = 0) (.forbiddenMsg
    "this instance already has an account — ask an administrator to create yours")
  let tenant ← defaultTenant deployment
  claimMode tenant.id .local
  createLocal tenant.id req.account true

/-- What an identity provider says of who signs in. -/
structure IdentityClaims where
  issuer : String
  subject : String
  email : Option String
  emailVerified : Bool
  displayName : Option String
deriving DecidableEq

/-- What stands before the first at sign. -/
def localPart (email : String) : String := String.ofList (email.toList.takeWhile (· ≠ '@'))

namespace IdentityClaims

def devIssuer : String := "nookos-dev"

def claimsTheMode (claims : IdentityClaims) : Bool := claims.issuer ≠ devIssuer

def knownEmail (claims : IdentityClaims) : String :=
  claims.email.getD (claims.subject ++ "@unknown.invalid")

def knownName (claims : IdentityClaims) : String :=
  claims.displayName.getD (localPart claims.knownEmail)

/-- The identity that the claims make of a user. -/
def identityOf (claims : IdentityClaims) (user : UserId) : NewIdentity :=
  ⟨user, claims.issuer, claims.subject, claims.email, claims.emailVerified⟩

end IdentityClaims

/-- A sign-in, with the suffixes that it would draw for taken slugs. -/
structure Login where
  claims : IdentityClaims
  suffixes : List String
  four : suffixes.length = 4
deriving DecidableEq

/-- The first slug that is not taken. -/
def createWithSlug (name : String) : List String → Handler TenantRow
  | [] => throw (.internal s!"could not allocate a tenant slug for {name}")
  | slug :: rest => do
      match ← perform (.createTenant name slug) with
      | some tenant => pure tenant
      | none => createWithSlug name rest

def personalName (displayName email : String) : String :=
  if Text.trim displayName.toList = [] then localPart email
  else String.ofList (Text.trim displayName.toList)

/-- The slugs that the five attempts try. -/
def attempts (name : String) (suffixes : List String) : List String :=
  let base := slugify deployment name
  base :: suffixes.map fun suffix => base ++ "-" ++ deployment.toLowercase suffix

def createPersonalTenant (displayName email : String) (suffixes : List String) :
    Handler TenantRow :=
  let name := personalName displayName email
  createWithSlug name (attempts deployment name suffixes)

/-- The tenant of somebody new: the default one where there is nobody yet. -/
def tenantFor (login : Login) : Handler TenantRow := do
  if (← perform .countUsers) = 0 then
    defaultTenant deployment
  else
    createPersonalTenant deployment login.claims.knownName login.claims.knownEmail
      login.suffixes

/-- The mode is claimed by everybody but the developer's hatch. -/
def claimsMode (claims : IdentityClaims) (tenant : TenantId) : Handler Unit :=
  if claims.claimsTheMode then claimMode tenant .oidc else pure ()

/-- A known identity: the user and the tenant that it leads to. -/
def returning (claims : IdentityClaims) (userId : UserId) : Handler (UserRow × TenantRow) := do
  let user ← found .notFound (← perform (.getUser userId))
  let tenant ← found .notFound (← perform (.getTenant user.tenantId))
  if claims.emailVerified then
    perform (.markIdentityVerified claims.issuer claims.subject)
  claimsMode claims tenant.id
  pure (user, tenant)

/-- The user of the email that is there, or a new one. -/
def userOrNew (claims : IdentityClaims) (tenant : TenantId) : Option UserRow → Handler UserRow
  | some user => pure user
  | none => perform (.createOidcUser ⟨tenant, claims.knownName, claims.knownEmail, .owner⟩)

/-- Somebody new in a tenant: the user, the membership and the identity. -/
def arrive (claims : IdentityClaims) (tenant : TenantRow) : Handler (UserRow × TenantRow) := do
  let present ← perform (.userByEmailInTenant tenant.id claims.knownEmail)
  claimsMode claims tenant.id
  let user ← userOrNew claims tenant.id present
  perform (.grantMembership none tenant.id user.id .owner)
  perform (.createIdentity (claims.identityOf user.id))
  pure (user, tenant)

def loginIdentity (login : Login) : Handler (UserRow × TenantRow) := do
  match ← perform (.userIdByIdentity login.claims.issuer login.claims.subject) with
  | some userId => returning login.claims userId
  | none => arrive login.claims (← tenantFor deployment login)

end SigningIn

section Services

/-- The calls of a tenant's members, and of who joins. -/
inductive Management where
  | changeMemberRole (auth : AuthCtx) (tenant : TenantId) (pid : UserId) (role : String)
  | removeMember (auth : AuthCtx) (tenant : TenantId) (pid : UserId)
  | leaveTenant (auth : AuthCtx) (tenant : TenantId)
  | accept (user : UserId) (fallback : TenantId) (token : String)
deriving DecidableEq

/-- The two ways to sign in for the first time. -/
inductive SignIn where
  | login (login : Login)
  | bootstrap (req : LocalRegisterRequest)
deriving DecidableEq

inductive Request where
  | manage (call : Management)
  | signIn (call : SignIn)
  | issueInvite (auth : AuthCtx) (tenant : TenantId) (email : String) (role : Option String)
      (token : String)
  | createUser (auth : AuthCtx) (req : LocalRegisterRequest)
  | register (req : RegisterInviteRequest)
  | hasPermission (user : UserId) (permission : String) (tenant : Option TenantId)
deriving DecidableEq

/-- What a call answers with, as far as a caller tells the calls apart by it. -/
inductive Answer where
  | member (item : TenantMemberItem)
  | noContent
  | accepted (result : AcceptInviteResult)
  | signedIn (user : UserRow) (tenant : TenantRow)
  | user (user : UserRow)
  | invite (invite : InviteRow)
  | permitted (holds : Bool)
deriving DecidableEq

variable (deployment : Deployment)

def manage : Management → Handler Answer
  | .changeMemberRole auth tenant pid role =>
      Answer.member <$> changeMemberRole auth tenant pid role
  | .removeMember auth tenant pid => (fun _ => .noContent) <$> removeMember auth tenant pid
  | .leaveTenant auth tenant => (fun _ => .noContent) <$> leaveTenant auth tenant
  | .accept user fallback token => Answer.accepted <$> acceptCore deployment user fallback token

def signIn : SignIn → Handler Answer
  | .login login => (fun signed => .signedIn signed.1 signed.2) <$> loginIdentity deployment login
  | .bootstrap req => Answer.user <$> bootstrap deployment req

def handle : Request → Handler Answer
  | .manage call => manage deployment call
  | .signIn call => signIn deployment call
  | .issueInvite auth tenant email role token =>
      Answer.invite <$> issueInvite deployment auth tenant email role token
  | .createUser auth req => Answer.user <$> createUser auth req
  | .register req => (fun _ => .noContent) <$> register deployment req
  | .hasPermission user permission tenant =>
      Answer.permitted <$> perform (.hasPermission user permission tenant)

/-- The address of a local account is confirmed. -/
structure Confirmed where
  user : UserId
  email : String
deriving DecidableEq

/-- `mark_local_email_verified`: an identity of the control plane's own. -/
def Rows.markLocalEmailVerified (rows : Rows) (event : Confirmed) : Option Rows :=
  if (rows.user event.user).isNone then none
  else
    some { rows with
      identities := Table.upsert IdentityRow.key
        ⟨event.user, "local", toString event.user, some event.email, true⟩
        (fun row => { row with verified := true }) rows.identities }

/-- What else happens to the tables that memberships are not kept in. -/
structure Elsewhere where
  users : List UserRow
  identities : List IdentityRow
  invites : List InviteRow
deriving DecidableEq

/-- The members' calls, while anything may happen to the other tables. -/
def management : Service Rows Choice Elsewhere Management Statement
    (fun request => Except ApiError request.Value) (Except ApiError Answer) where
  handler call := (manage deployment call).run
  execute := Rows.execute deployment
  happen rows event :=
    some { rows with
      users := event.users
      identities := event.identities
      invites := event.invites }

/-- All of the calls, while addresses are confirmed. -/
def identity : Service Rows Choice Confirmed Request Statement
    (fun request => Except ApiError request.Value) (Except ApiError Answer) where
  handler request := (handle deployment request).run
  execute := Rows.execute deployment
  happen := Rows.markLocalEmailVerified

/-- A deployment all of whose texts are in lower case, with tokens for hashes. -/
def Deployment.plain : Deployment where
  lower := id
  toLowercase := id
  hashToken := id
  tenantAdmin := ["tenant.manage"]
  defaultTenantName := "nookos"

end Services

end NookOs.Identity
