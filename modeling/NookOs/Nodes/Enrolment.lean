/-
Module: NookOs.Nodes.Enrolment
Purpose: Joining, enrolling, renewing, rotating, revoking and authenticating,
  as programs of the statements they run.
Trusted boundary: none
Main exports: join, enroll, renew, issue, stageFor, promote, retire, handle, controlPlane
-/
import NookOs.Nodes.Records

namespace NookOs.Nodes

open Lib
open Lib.Program (ensure caught)
open Jobs (Instant TenantId UserId NodeId seconds)

/-!
Who may rotate a CA or revoke a node is decided before these programs start
and is left out: any caller is let through.  So are the events that are
recorded and the bundles that are pushed, which nothing here reads.
-/

abbrev Handler := Program.Failing Statement Statement.Value ApiError

abbrev perform (request : Statement) : Handler request.Value := Program.perform request

abbrev attempt (request : Statement) : Handler (Except ApiError request.Value) :=
  Program.attempt request

section Certificates

def days (count : Int) : Int := seconds (86400 * count)

/-- The start of an instant's day, the resolution a certificate's expiry is
given in. -/
def midnight (instant : Instant) : Instant := instant - instant % days 1

def caValidityDays : Int := 3650
def leafValidityDays : Int := 30

/-- Mint a CA for a tenant. -/
def generate (tenant : TenantId) (makeActive : Bool) : Handler TenantCa := do
  let notAfter := (← perform .clock) + days caValidityDays
  let key ← perform .draw
  let certPem : CaCertificate := { tenant := tenant, key := key, notAfter := midnight notAfter }
  let keyEnc ← perform (.encrypt key)
  let state := if makeActive then .active else .staged
  perform (.insertCa tenant state certPem keyEnc (fingerprintPem certPem) notAfter)

/-- The tenant's signing key, verified before use. -/
def loadSigner (tenant : TenantId) : Handler (TenantCa × KeyPair) := do
  match ← perform (.activeSigner tenant) with
  | none => throw (.internal ("tenant " ++ toString tenant ++ " has no active CA"))
  | some ca => do
      ensure (fingerprintPem ca.certPem = ca.fingerprint)
        (.internal ("CA " ++ toString ca.id ++ " for tenant " ++ toString tenant ++
          " does not match its recorded fingerprint"))
      let key ← perform (.decrypt ca.keyEnc)
      pure (ca, key)

/-- Sign a node's request with the tenant's active CA.  The subject is what the
control plane says it is. -/
def signNodeCsr (tenant : TenantId) (node : NodeId) (csr : Option KeyPair) :
    Handler IssuedLeaf := do
  let (ca, caKey) ← loadSigner tenant
  match csr with
  | none => throw (.internal "that is not a valid certificate signing request")
  | some publicKey => do
      let notAfter := (← perform .clock) + days leafValidityDays
      pure
        { certPem :=
            { commonName := some node, organization := some tenant, publicKey := publicKey,
              signer := caKey, notAfter := midnight notAfter }
          notAfter := notAfter
          caId := ca.id
          publicKeyPem := publicKey }

end Certificates

section Machines

structure JoinRequest where
  token : Token
  name : String
  hostname : String
deriving DecidableEq

structure JoinResponse where
  nodeId : NodeId
  nodeName : String
  nodeToken : Token
  tenantSlug : String
deriving DecidableEq

/-- The signing request is the public key it carries, where it is one. -/
structure EnrollRequest where
  token : Token
  csrPem : Option KeyPair
  name : Option String := none
deriving DecidableEq

structure EnrollResponse where
  nodeId : NodeId
  certPem : Certificate
  caBundle : List CaCertificate
  notAfter : Instant
  tenantSlug : String
deriving DecidableEq

/-- Mint a token to enroll a new machine. -/
def createJoinToken (tenant : TenantId) (user : UserId) : Handler Token := do
  let token := Token.random (← perform .draw)
  let expiresAt := (← perform .clock) + days 1
  perform (.issueJoinToken tenant (hashToken token) user expiresAt)
  pure token

/-- The person a user of the tenant is, where there is a user and the lookup
does not fail. -/
def minterPerson (tenant : TenantId) : Option UserId → Handler (Option PersonId)
  | none => pure none
  | some user => do
      match ← attempt (.personIdOfInTenant user tenant) with
      | .ok person => pure person
      | .error _ => pure none

/-- The person who owns a node enrolled with a token: its minter, or else the
tenant's owner. -/
def ownerPerson (tenant : TenantId) (minter : Option UserId) : Handler (Option PersonId) := do
  match ← minterPerson tenant minter with
  | some person => pure (some person)
  | none =>
      match ← attempt (.tenantOwnerPerson tenant) with
      | .ok person => pure person
      | .error _ => pure none

/-- The token that a hash finds unexpired, spent. -/
def spend (token : Token) : Handler ConsumedJoinToken := do
  match ← perform (.consume (hashToken token)) with
  | none => throw .unauthorized
  | some spent => pure spent

/-- The name a machine gave, or its hostname where the name is blank. -/
def JoinRequest.nodeName (request : JoinRequest) : String :=
  if (Text.trim request.name.toList).isEmpty then request.hostname else request.name

def join (request : JoinRequest) : Handler JoinResponse := do
  let spent ← spend request.token
  let owner ← ownerPerson spent.tenant spent.createdBy
  let nodeToken := Token.random (← perform .draw)
  let nodeId ← perform (.upsertJoining spent.tenant request.nodeName (hashToken nodeToken) owner)
  let slug ← perform (.tenantSlug spent.tenant)
  pure { nodeId := nodeId, nodeName := request.nodeName, nodeToken := nodeToken,
         tenantSlug := slug.getD "" }

/-- Sign, record what was issued, and hand back the trust bundle. -/
def issue (tenant : TenantId) (node : NodeId) (csr : Option KeyPair) :
    Handler EnrollResponse := do
  let leaf ← signNodeCsr tenant node csr
  perform (.recordIssuedLeaf node leaf)
  let bundle ← perform (.bundle tenant)
  let slug ← perform (.tenantSlug tenant)
  pure { nodeId := node, certPem := leaf.certPem, caBundle := bundle.map TenantCa.certPem,
         notAfter := leaf.notAfter, tenantSlug := slug.getD "" }

/-- The tenant's CA is minted on its first enrolment, and only where there is
none. -/
def ensureCa (tenant : TenantId) : Handler Unit := do
  if (← perform (.bundle tenant)).isEmpty then
    let _ ← generate tenant true
  else pure ()

/-- Trade a join token for a certificate signed by the tenant's CA. -/
def enroll (request : EnrollRequest) : Handler EnrollResponse := do
  let spent ← spend request.token
  let owner ← ownerPerson spent.tenant spent.createdBy
  ensureCa spent.tenant
  let name := request.name.getD "node"
  let id ← perform .draw
  let node ← perform (.upsertEnrolling id spent.tenant name (hashToken (.enroll id)) owner)
  issue spent.tenant node request.csrPem

/-- Renew on the strength of the key the node already holds. -/
def renew (node : NodeId) (csr : Option KeyPair) : Handler EnrollResponse := do
  match ← perform (.certIdentity node) with
  | none => throw .notFound
  | some identity => do
      ensure identity.revokedAt.isNone
        (.forbidden "this node has been revoked — re-enrol it with a new join token")
      match csr with
      | none => throw (.internal "that is not a valid certificate signing request")
      | some presented =>
          match identity.publicKeyPem with
          | none =>
              throw (.forbidden "this node has never enrolled a key — use a join token")
          | some known => do
              ensure (known = presented)
                (.forbidden "that key is not the one this node enrolled with")
              issue identity.tenant node (some presented)

end Machines

section Rotation

/-- Stage a new CA; a tenant's first one signs at once. -/
def stageFor (tenant : TenantId) : Handler TenantCa := do
  let makeActive := (← perform (.bundle tenant)).isEmpty
  generate tenant makeActive

/-- Make a staged CA the signer. -/
def promote (tenant : TenantId) (ca : CaId) : Handler Unit := do
  ensure (← perform (.promote tenant ca))
    (.badRequest ("no staged CA " ++ toString ca ++ " for this tenant to promote"))

/-- Drop a CA from the trust bundle, unless it has signed a leaf that is still
valid. -/
def retire (tenant : TenantId) (ca : CaId) : Handler Unit := do
  let live ← perform (.liveLeafCount tenant ca)
  ensure (live = 0)
    (.conflict ("refusing to retire CA " ++ toString ca ++ ": " ++ toString live ++
      " node(s) still hold unexpired certificates signed by it. They pick up the new CA as " ++
      "they renew — retire this one once that count reaches zero."))
  let retired ← perform (.retire ca tenant)
  ensure (retired ≠ 0)
    (.conflict ("no retirable CA " ++ toString ca ++
      " for this tenant (the active signer cannot be retired)"))

/-- Cut a machine off. -/
def revokeNode (tenant : TenantId) (node : NodeId) : Handler Unit := do
  let count ← perform (.revoke node tenant)
  ensure (count ≠ 0) .notFound

end Rotation

section Authentication

structure NodeIdentity where
  nodeId : NodeId
  tenantId : TenantId
deriving DecidableEq

/-- Establish identity from a client certificate. -/
def verifyNodeCert (cert : Certificate) : Handler NodeIdentity := do
  let now ← perform .clock
  ensure (now ≤ cert.notAfter) (.internal "client certificate is outside its validity window")
  match cert.commonName, cert.organization with
  | some node, some tenant => do
      match ← perform (.revocationState node) with
      | none =>
          throw (.internal ("certificate names node " ++ toString node ++
            ", which does not exist"))
      | some (actualTenant, revokedAt) => do
          ensure (actualTenant = tenant)
            (.internal ("certificate claims tenant " ++ toString tenant ++ " for node " ++
              toString node ++ ", which belongs to " ++ toString actualTenant))
          ensure revokedAt.isNone
            (.internal ("node " ++ toString node ++ " has been revoked"))
          let bundle ← perform (.bundle tenant)
          ensure (!bundle.isEmpty)
            (.internal ("tenant " ++ toString tenant ++ " trusts no CA"))
          ensure (bundle.any fun ca => ca.certPem.key = cert.signer)
            (.internal "client certificate is not signed by any CA this tenant trusts")
          pure { nodeId := node, tenantId := tenant }
  | none, _ => throw (.internal "certificate has no node id")
  | _, none => throw (.internal "certificate is not a NookOS node certificate")

/-- What a machine presents. -/
inductive Credential where
  | certificate (cert : Certificate)
  | bearer (token : Token)
deriving DecidableEq

/-- The node's socket: a certificate first, else the bearer token. -/
def nodeWs : Credential → Handler NodeIdentity
  | .certificate cert => do
      match ← caught (verifyNodeCert cert) with
      | .ok identity => pure identity
      | .error _ => throw .unauthorized
  | .bearer token => do
      match ← perform (.byTokenHash (hashToken token)) with
      | none => throw .unauthorized
      | some (node, tenant) => pure { nodeId := node, tenantId := tenant }

/-- The machine's side of the API's own extractor, `from_node_cert` and
`node_token_ctx`. -/
def fromRequestParts : Credential → Handler NodeIdentity
  | .certificate cert => do
      match ← caught (verifyNodeCert cert) with
      | .error _ => throw (.forbidden "the certificate was rejected")
      | .ok identity => do
          let _ ← perform (.tenantOwnerUserId identity.tenantId)
          pure identity
  | .bearer token => do
      match ← perform (.byTokenHash (hashToken token)) with
      | none => throw .unauthorized
      | some (node, tenant) => do
          let _ ← perform (.tenantOwnerUserId tenant)
          pure { nodeId := node, tenantId := tenant }

end Authentication

section ControlPlane

/-- The calls the control plane takes. -/
inductive Request where
  | createJoinToken (tenant : TenantId) (user : UserId)
  | join (request : JoinRequest)
  | enroll (request : EnrollRequest)
  | renew (node : NodeId) (csr : Option KeyPair)
  | stage (tenant : TenantId)
  | promote (tenant : TenantId) (ca : CaId)
  | retire (tenant : TenantId) (ca : CaId)
  | revokeNode (tenant : TenantId) (node : NodeId)
  | nodeWs (credential : Credential)
  | api (credential : Credential)
deriving DecidableEq

/-- What a call answers with when it succeeds. -/
inductive Answer where
  | joinToken (token : Token)
  | joined (response : JoinResponse)
  | enrolled (response : EnrollResponse)
  | staged (ca : TenantCa)
  | noContent
  | authenticated (identity : NodeIdentity)
deriving DecidableEq

def handle : Request → Handler Answer
  | .createJoinToken tenant user => .joinToken <$> createJoinToken tenant user
  | .join request => .joined <$> join request
  | .enroll request => .enrolled <$> enroll request
  | .renew node csr => .enrolled <$> renew node csr
  | .stage tenant => .staged <$> stageFor tenant
  | .promote tenant ca => (fun _ => .noContent) <$> promote tenant ca
  | .retire tenant ca => (fun _ => .noContent) <$> retire tenant ca
  | .revokeNode tenant node => (fun _ => .noContent) <$> revokeNode tenant node
  | .nodeWs credential => .authenticated <$> nodeWs credential
  | .api credential => .authenticated <$> fromRequestParts credential

/-- The control plane: every call on the one store, its statements interleaved
with those of all others. -/
def controlPlane : Service Records Records.Choice Empty Request Statement
    (fun request => Except ApiError request.Value) (Except ApiError Answer) where
  handler request := (handle request).run
  execute := Records.execute
  happen _ := nofun

end ControlPlane

end NookOs.Nodes
