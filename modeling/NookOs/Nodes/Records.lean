/-
Module: NookOs.Nodes.Records
Purpose: The rows of nodes, tenant CAs, join tokens and users, their
  constraints, and the statements that enrolment, rotation and revocation run.
Trusted boundary: none
Main exports: TenantCa, Certificate, Node, Records, Records.answer, Records.execute
-/
import NookOs.Jobs.LoopJob
import NookOs.Lib.Program
import NookOs.Lib.Table
import NookOs.Lib.Text
import Mathlib.Data.List.Sort

namespace NookOs.Nodes

open Lib
open Jobs (Instant TenantId UserId NodeId)

/-!
Keys, hashes and signatures are symbolic: a key pair is the number that names
it, a hash or a fingerprint is what it was computed from, and a certificate is
signed by the key pair it says.  Whatever is drawn at random (an identifier, a
token, a key pair) is never drawn twice, and the store keeps the numbers drawn
so far to say so.
-/

section Data

abbrev CaId := Nat
abbrev PersonId := Nat
abbrev KeyPair := Nat

/-- A bearer token: `random_token`, or the text `enroll-{node_id}`. -/
inductive Token where
  | random (drawn : Nat)
  | enroll (node : NodeId)
deriving DecidableEq

/-- The hash of a token. -/
structure TokenHash where
  token : Token
deriving DecidableEq

def hashToken (token : Token) : TokenHash := ⟨token⟩

inductive CaState where
  | staged
  | active
  | retiring
deriving DecidableEq

/-- A self-signed CA certificate. -/
structure CaCertificate where
  tenant : TenantId
  key : KeyPair
  notAfter : Instant
deriving DecidableEq

/-- The digest of a CA certificate. -/
structure Fingerprint where
  digested : CaCertificate
deriving DecidableEq

def fingerprintPem (certificate : CaCertificate) : Fingerprint := ⟨certificate⟩

/-- A private key under the vault's key. -/
structure SealedKey where
  key : KeyPair
deriving DecidableEq

/-- A row of `tenant_cas`. -/
structure TenantCa where
  id : CaId
  tenantId : TenantId
  state : CaState
  certPem : CaCertificate
  keyEnc : SealedKey
  fingerprint : Fingerprint
  notAfter : Instant
  createdAt : Instant
deriving DecidableEq

/-- A client certificate.  The node and the tenant are what its subject names,
where it names any. -/
structure Certificate where
  commonName : Option NodeId
  organization : Option TenantId
  publicKey : KeyPair
  signer : KeyPair
  notAfter : Instant
deriving DecidableEq

/-- A row of `nodes`, as far as its credentials go. -/
structure Node where
  id : NodeId
  tenantId : TenantId
  name : String
  nodeTokenHash : TokenHash
  ownerPersonId : Option PersonId := none
  revokedAt : Option Instant := none
  caId : Option CaId := none
  certNotAfter : Option Instant := none
  certPem : Option Certificate := none
  publicKeyPem : Option KeyPair := none
deriving DecidableEq

/-- A row of `join_tokens`. -/
structure JoinToken where
  tenantId : TenantId
  tokenHash : TokenHash
  createdBy : Option UserId
  expiresAt : Instant
  usedAt : Option Instant := none
deriving DecidableEq

/-- A row of `users`: one person's membership of a tenant. -/
structure User where
  id : UserId
  tenantId : TenantId
  personId : PersonId
  isOwner : Bool
  createdAt : Instant
deriving DecidableEq

/-- The rows, and every number drawn so far. -/
structure Records where
  nodes : List Node
  tenantCas : List TenantCa
  joinTokens : List JoinToken
  users : List User
  slugs : List (TenantId × String)
  drawn : List Nat
deriving DecidableEq

/-- No machine has enrolled and no tenant has a CA. -/
def Records.opened (joinTokens : List JoinToken) (users : List User)
    (slugs : List (TenantId × String)) (drawn : List Nat) : Records :=
  { nodes := [], tenantCas := [], joinTokens := joinTokens, users := users,
    slugs := slugs, drawn := drawn }

/-- The constraints of the two tables: `nodes_pkey`, `nodes_tenant_id_name_key`,
`nodes_node_token_hash_key`, `nodes_ca_id_fkey`, `tenant_cas_pkey` and the
partial unique index `tenant_cas_one_active`. -/
structure Records.Consistent (records : Records) : Prop where
  nodeIds : (records.nodes.map Node.id).Nodup
  nodeNames : (records.nodes.map fun node => (node.tenantId, node.name)).Nodup
  nodeTokens : (records.nodes.map Node.nodeTokenHash).Nodup
  nodeCas : ∀ node ∈ records.nodes, ∀ ca ∈ node.caId,
    ca ∈ records.tenantCas.map TenantCa.id
  caIds : (records.tenantCas.map TenantCa.id).Nodup
  oneActive : ((records.tenantCas.filter (·.state = .active)).map TenantCa.tenantId).Nodup

instance (records : Records) : Decidable records.Consistent :=
  decidable_of_iff
    ((records.nodes.map Node.id).Nodup ∧
      (records.nodes.map fun node => (node.tenantId, node.name)).Nodup ∧
      (records.nodes.map Node.nodeTokenHash).Nodup ∧
      (∀ node ∈ records.nodes, ∀ ca ∈ node.caId, ca ∈ records.tenantCas.map TenantCa.id) ∧
      (records.tenantCas.map TenantCa.id).Nodup ∧
      ((records.tenantCas.filter (·.state = .active)).map TenantCa.tenantId).Nodup)
    ⟨fun ⟨nodeIds, nodeNames, nodeTokens, nodeCas, caIds, oneActive⟩ =>
      ⟨nodeIds, nodeNames, nodeTokens, nodeCas, caIds, oneActive⟩,
    fun held => ⟨held.nodeIds, held.nodeNames, held.nodeTokens, held.nodeCas, held.caIds,
      held.oneActive⟩⟩

end Data

section Statements

/-- What a handler fails with. -/
inductive ApiError where
  | unauthorized
  | notFound
  | forbidden (message : String)
  | badRequest (message : String)
  | conflict (message : String)
  | internal (message : String)
  | database
deriving DecidableEq

/-- What the token that was spent says. -/
structure ConsumedJoinToken where
  tenant : TenantId
  createdBy : Option UserId
deriving DecidableEq

structure NodeCertIdentity where
  tenant : TenantId
  publicKeyPem : Option KeyPair
  revokedAt : Option Instant
deriving DecidableEq

/-- A freshly issued node certificate. -/
structure IssuedLeaf where
  certPem : Certificate
  notAfter : Instant
  caId : CaId
  publicKeyPem : KeyPair
deriving DecidableEq

/-- What a handler asks of the repositories, the vault, the clock and the
random generator. -/
inductive Statement where
  -- join tokens and identity
  | issueJoinToken (tenant : TenantId) (hash : TokenHash) (createdBy : UserId)
      (expiresAt : Instant)
  | consume (hash : TokenHash)
  | personIdOfInTenant (user : UserId) (tenant : TenantId)
  | tenantOwnerPerson (tenant : TenantId)
  | tenantOwnerUserId (tenant : TenantId)
  | tenantSlug (tenant : TenantId)
  -- tenant CAs
  | bundle (tenant : TenantId)
  | activeSigner (tenant : TenantId)
  | insertCa (tenant : TenantId) (state : CaState) (certPem : CaCertificate)
      (keyEnc : SealedKey) (fingerprint : Fingerprint) (notAfter : Instant)
  | promote (tenant : TenantId) (ca : CaId)
  | retire (ca : CaId) (tenant : TenantId)
  -- nodes
  | upsertJoining (tenant : TenantId) (name : String) (hash : TokenHash)
      (owner : Option PersonId)
  | upsertEnrolling (id : NodeId) (tenant : TenantId) (name : String) (hash : TokenHash)
      (owner : Option PersonId)
  | certIdentity (id : NodeId)
  | revocationState (id : NodeId)
  | recordIssuedLeaf (id : NodeId) (leaf : IssuedLeaf)
  | liveLeafCount (tenant : TenantId) (ca : CaId)
  | revoke (id : NodeId) (tenant : TenantId)
  | byTokenHash (hash : TokenHash)
  -- the vault, the clock and the random generator
  | encrypt (key : KeyPair)
  | decrypt (sealedKey : SealedKey)
  | clock
  | draw
deriving DecidableEq

/-- What a statement gives. -/
abbrev Statement.Value : Statement → Type
  | .issueJoinToken .. => Unit
  | .consume _ => Option ConsumedJoinToken
  | .personIdOfInTenant .. => Option PersonId
  | .tenantOwnerPerson _ => Option PersonId
  | .tenantOwnerUserId _ => Option UserId
  | .tenantSlug _ => Option String
  | .bundle _ => List TenantCa
  | .activeSigner _ => Option TenantCa
  | .insertCa .. => TenantCa
  | .promote .. => Bool
  | .retire .. => Nat
  | .upsertJoining .. => NodeId
  | .upsertEnrolling .. => NodeId
  | .certIdentity _ => Option NodeCertIdentity
  | .revocationState _ => Option (TenantId × Option Instant)
  | .recordIssuedLeaf .. => Unit
  | .liveLeafCount .. => Nat
  | .revoke .. => Nat
  | .byTokenHash _ => Option (NodeId × TenantId)
  | .encrypt _ => SealedKey
  | .decrypt _ => KeyPair
  | .clock => Instant
  | .draw => Nat

/-- Whether a statement draws a number: an identifier, a token or a key. -/
def Statement.draws : Statement → Bool
  | .insertCa .. | .upsertJoining .. | .draw => true
  | _ => false

/-- The statements that no store answers. -/
def Statement.isLocal : Statement → Bool
  | .clock | .draw => true
  | _ => false

namespace Records

/-- The CAs a tenant trusts, in any state, in the order of their creation. -/
def trustBundle (records : Records) (tenant : TenantId) : List TenantCa :=
  (records.tenantCas.filter (·.tenantId = tenant)).insertionSort
    fun first second => first.createdAt ≤ second.createdAt

def activeSigner (records : Records) (tenant : TenantId) : Option TenantCa :=
  records.tenantCas.find? fun ca => ca.tenantId = tenant && ca.state = .active

/-- `count(*)` of the unrevoked nodes that hold an unexpired leaf of a CA. -/
def liveLeafCount (records : Records) (now : Instant) (tenant : TenantId) (ca : CaId) : Nat :=
  records.nodes.countP fun node =>
    node.tenantId = tenant && node.caId = some ca && node.revokedAt.isNone &&
      node.certNotAfter.any (now < ·)

/-- The row that a node's name finds in its tenant. -/
def named (records : Records) (tenant : TenantId) (name : String) : Option Node :=
  records.nodes.find? fun node => node.tenantId = tenant && node.name = name

def byTokenHash (records : Records) (hash : TokenHash) : Option Node :=
  records.nodes.find? (·.nodeTokenHash = hash)

/-- The person a user of the tenant is. -/
def personIdOfInTenant (records : Records) (user : UserId) (tenant : TenantId) :
    Option PersonId :=
  (records.users.find? fun row => row.id = user && row.tenantId = tenant).map User.personId

/-- The person of the tenant's first owner. -/
def tenantOwnerPerson (records : Records) (tenant : TenantId) : Option PersonId :=
  ((records.users.filter fun row => row.tenantId = tenant && row.isOwner).insertionSort
    fun first second => first.createdAt ≤ second.createdAt).head?.map User.personId

/-- The tenant's first owner, or its first user where it has none. -/
def tenantOwnerUserId (records : Records) (tenant : TenantId) : Option UserId :=
  ((records.users.filter (·.tenantId = tenant)).insertionSort fun first second =>
    (first.isOwner && !second.isOwner) ||
      (first.isOwner == second.isOwner && first.createdAt ≤ second.createdAt)).head?.map User.id

/-- A write: it is made where the constraints allow it. -/
def write {Answer : Type} (before after : Records) (answer : Answer) :
    Records × Except ApiError Answer :=
  if after.Consistent then (after, .ok answer) else (before, .error .database)

/-- `INSERT … ON CONFLICT (tenant_id, name) DO UPDATE … RETURNING id`. -/
def upsert (records : Records) (fresh : Node) (change : Node → Node) :
    Records × Except ApiError NodeId :=
  match records.named fresh.tenantId fresh.name with
  | some existing =>
      records.write
        { records with nodes := Table.update Node.id existing.id change records.nodes }
        existing.id
  | none => records.write { records with nodes := records.nodes ++ [fresh] } fresh.id

/-- The transaction of `promote`: the signer is demoted and the staged CA made
the signer, or nothing is. -/
def promoteCa (records : Records) (tenant : TenantId) (ca : CaId) :
    Records × Except ApiError Bool :=
  let isStaged (row : TenantCa) : Bool :=
    row.id = ca && row.tenantId = tenant && row.state = .staged
  if records.tenantCas.any isStaged then
    let demoted := records.tenantCas.map fun row =>
      if row.tenantId = tenant ∧ row.state = .active then { row with state := .retiring } else row
    records.write
      { records with
        tenantCas := demoted.map fun row =>
          if isStaged row then { row with state := .active } else row }
      true
  else (records, .ok false)

def retireCa (records : Records) (ca : CaId) (tenant : TenantId) :
    Records × Except ApiError Nat :=
  let doomed (row : TenantCa) : Bool :=
    row.id = ca && row.tenantId = tenant && row.state ≠ .active
  records.write { records with tenantCas := records.tenantCas.filter (!doomed ·) }
    (records.tenantCas.countP doomed)

/-- Run a statement at an instant, with a number drawn for it. -/
def answer (records : Records) (now : Instant) (drawn : Nat) :
    (request : Statement) → Records × Except ApiError request.Value
  | .issueJoinToken tenant hash createdBy expiresAt =>
      if records.joinTokens.any (·.tokenHash = hash) then (records, .error .database)
      else
        ({ records with
            joinTokens := records.joinTokens ++ [⟨tenant, hash, some createdBy, expiresAt, none⟩] },
          .ok ())
  | .consume hash =>
      let spent (token : JoinToken) : Bool := token.tokenHash = hash && now < token.expiresAt
      ({ records with
          joinTokens := records.joinTokens.map fun token =>
            if spent token then { token with usedAt := some now } else token },
        .ok ((records.joinTokens.find? spent).map fun token =>
          ⟨token.tenantId, token.createdBy⟩))
  | .personIdOfInTenant user tenant =>
      (records, .ok (records.personIdOfInTenant user tenant))
  | .tenantOwnerPerson tenant => (records, .ok (records.tenantOwnerPerson tenant))
  | .tenantOwnerUserId tenant => (records, .ok (records.tenantOwnerUserId tenant))
  | .tenantSlug tenant =>
      (records, .ok ((records.slugs.find? (·.1 = tenant)).map Prod.snd))
  | .bundle tenant => (records, .ok (records.trustBundle tenant))
  | .activeSigner tenant => (records, .ok (records.activeSigner tenant))
  | .insertCa tenant state certPem keyEnc fingerprint notAfter =>
      let row : TenantCa :=
        { id := drawn, tenantId := tenant, state := state, certPem := certPem, keyEnc := keyEnc,
          fingerprint := fingerprint, notAfter := notAfter, createdAt := now }
      records.write { records with tenantCas := records.tenantCas ++ [row] } row
  | .promote tenant ca => records.promoteCa tenant ca
  | .retire ca tenant => records.retireCa ca tenant
  | .upsertJoining tenant name hash owner =>
      records.upsert
        { id := drawn, tenantId := tenant, name := name, nodeTokenHash := hash,
          ownerPersonId := owner }
        fun existing => { existing with
          nodeTokenHash := hash
          -- COALESCE: the recorded owner stays.
          ownerPersonId := existing.ownerPersonId <|> owner }
  | .upsertEnrolling id tenant name hash owner =>
      records.upsert
        { id := id, tenantId := tenant, name := name, nodeTokenHash := hash,
          ownerPersonId := owner }
        fun existing => { existing with
          ownerPersonId := existing.ownerPersonId <|> owner }
  | .certIdentity id =>
      (records, .ok ((Table.find Node.id records.nodes id).map fun node =>
        ⟨node.tenantId, node.publicKeyPem, node.revokedAt⟩))
  | .revocationState id =>
      (records, .ok ((Table.find Node.id records.nodes id).map fun node =>
        (node.tenantId, node.revokedAt)))
  | .recordIssuedLeaf id leaf =>
      records.write
        { records with
          nodes := Table.update Node.id id (fun node => { node with
            caId := some leaf.caId
            certNotAfter := some leaf.notAfter
            certPem := some leaf.certPem
            publicKeyPem := some leaf.publicKeyPem }) records.nodes }
        ()
  | .liveLeafCount tenant ca => (records, .ok (records.liveLeafCount now tenant ca))
  | .revoke id tenant =>
      let named (node : Node) : Bool := node.id = id && node.tenantId = tenant
      records.write
        { records with
          nodes := records.nodes.map fun node =>
            if named node then { node with revokedAt := some now } else node }
        (records.nodes.countP named)
  | .byTokenHash hash =>
      (records, .ok ((records.byTokenHash hash).map fun node => (node.id, node.tenantId)))
  | .encrypt key => (records, .ok ⟨key⟩)
  | .decrypt sealedKey => (records, .ok sealedKey.key)
  | .clock => (records, .ok now)
  | .draw => (records, .ok drawn)

/-- How a statement goes: it runs, it fails before it has an effect, or it has
its effect and its answer is lost. -/
inductive Outcome where
  | runs
  | fails
  | lost
deriving DecidableEq

/-- What the environment decides about a statement. -/
structure Choice where
  now : Instant
  drawn : Nat := 0
  outcome : Outcome := .runs
deriving DecidableEq

/-- The store after a number was drawn, if the statement draws one. -/
def draw (records : Records) (choice : Choice) (request : Statement) : Records :=
  if request.draws then { records with drawn := records.drawn ++ [choice.drawn] } else records

/-- Run a statement as the environment has it. -/
def execute (records : Records) (choice : Choice) (request : Statement) :
    Option (Records × Except ApiError request.Value) :=
  if request.draws ∧ choice.drawn ∈ records.drawn then none
  else
    let (after, reply) := (records.draw choice request).answer choice.now choice.drawn request
    match choice.outcome with
    | .runs => some (after, reply)
    | .fails => if request.isLocal then none else some (records, .error .database)
    | .lost => if request.isLocal then none else some (after, .error .database)

end Records

end Statements

end NookOs.Nodes
