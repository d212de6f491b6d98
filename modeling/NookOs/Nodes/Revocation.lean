/-
Module: NookOs.Nodes.Revocation
Purpose: Whether a machine's credentials follow its owner and its revocation,
  over sequences of calls.
Trusted boundary: none
Main exports: Credentials, Credentials.step, FollowsOwner, credentials_stray, credentials_follow
-/
import NookOs.Nodes.Rotation

namespace NookOs.Nodes

open Lib
open Jobs (Instant TenantId UserId NodeId)

/-!
The name of a machine finds its row whoever asks.  The owner in it stays, the
token and the leaf are overwritten, and the revocation is written by one call
and read by three of the six that could: a renewal and the two that verify a
certificate.
-/

section Sequences

/-- One call, with what the environment decides about each of its statements. -/
structure Call where
  request : Request
  choices : List Records.Choice
deriving DecidableEq

/-- A credential that a call handed out, for a token that the person minted. -/
structure Given where
  minter : PersonId
  node : NodeId
  credential : Credential
deriving DecidableEq

/-- The rows, the nodes revoked and not enrolled since, what was handed out, and
how the last call ended. -/
structure Credentials where
  records : Records
  barred : List NodeId
  given : List Given
  answered : Except ApiError Answer
deriving DecidableEq

/-- Nothing has been called yet. -/
def Credentials.opened (records : Records) : Credentials :=
  { records := records, barred := [], given := [], answered := .ok .noContent }

/-- The row that the token's call spends, at the instant it is asked for. -/
def Call.spends (call : Call) (records : Records) (token : Token) : Option JoinToken :=
  call.choices.head?.bind fun choice => records.joinTokens.find? fun row =>
    row.tokenHash = hashToken token && choice.now < row.expiresAt

/-- The person who minted a token: its minter, where that is a user of the
tenant. -/
def Records.minter (records : Records) (spent : JoinToken) : Option PersonId :=
  spent.createdBy.bind fun user => records.personIdOfInTenant user spent.tenantId

/-- The token and the name of a machine that joins or enrolls. -/
def Request.joining : Request → Option (Token × String)
  | .join request => some (request.token, request.nodeName)
  | .enroll request => some (request.token, request.name.getD "node")
  | _ => none

/-- The same of a machine that enrolls. -/
def Request.enrolling : Request → Option (Token × String)
  | .enroll request => some (request.token, request.name.getD "node")
  | _ => none

/-- The bearer token that a request or a connection presents. -/
def Request.bearer : Request → Option Token
  | .nodeWs (.bearer token) => some token
  | .api (.bearer token) => some token
  | _ => none

/-- What a successful answer hands out. -/
def Answer.credential : Answer → Option (NodeId × Credential)
  | .joined response => some (response.nodeId, .bearer response.nodeToken)
  | .enrolled response => some (response.nodeId, .certificate response.certPem)
  | _ => none

/-- What a call that joins or enrolls has handed out, where a person minted its
token. -/
def Call.gives (call : Call) (records : Records) (answer : Answer) : Option Given := do
  let (token, _) ← call.request.joining
  let spent ← call.spends records token
  let minter ← records.minter spent
  let (node, credential) ← answer.credential
  pure ⟨minter, node, credential⟩

/-- The nodes barred after a call: a revocation bars, an enrolment lifts it. -/
def Call.bars (call : Call) (barred : List NodeId) (answer : Answer) : List NodeId :=
  match call.request, answer with
  | .revokeNode _ node, _ => node :: barred
  | .join _, .joined response => barred.filter (· ≠ response.nodeId)
  | .enroll _, .enrolled response => barred.filter (· ≠ response.nodeId)
  | _, _ => barred

/-- One whole call after another. -/
def Credentials.step (state : Credentials) (call : Call) : Option Credentials :=
  match controlPlane.finish (handle call.request).run state.records call.choices with
  | none => none
  | some (records, .error error) =>
      some { state with records := records, answered := .error error }
  | some (records, .ok answer) =>
      some
        { records := records
          barred := call.bars state.barred answer
          given := state.given ++ (call.gives state.records answer).toList
          answered := .ok answer }

end Sequences

section Law

/-- The node that a credential opens the socket as, at an instant. -/
def Records.authenticates (records : Records) (now : Instant) (credential : Credential) :
    Option NodeId :=
  match controlPlane.finishAt { now := now } (nodeWs credential).run records with
  | some (_, .ok identity) => some identity.nodeId
  | _ => none

/-- The node a successful call has acted as. -/
def Request.actor : Request → Except ApiError Answer → Option NodeId
  | .nodeWs _, .ok (.authenticated identity) => some identity.nodeId
  | .api _, .ok (.authenticated identity) => some identity.nodeId
  | .renew node _, .ok (.enrolled _) => some node
  | _, _ => none

/-- What was handed out to a person, where it works, works for a machine that no
other person owns. -/
def FollowsOwner (state : Credentials) : Prop :=
  ∀ given ∈ state.given, ∀ now, state.records.authenticates now given.credential =
      some given.node →
    ∀ node ∈ state.records.nodes, node.id = given.node →
      ∀ owner ∈ node.ownerPersonId, owner = given.minter

/-- The credentials follow ownership and revocation through a call: they work for
their owner's machines, no call acts as a barred node, and an enrolment that is
answered with success yields a certificate that authenticates while it is
valid. -/
structure Follows (before : Credentials) (call : Call) (after : Credentials) : Prop where
  owner : FollowsOwner after
  revocation : ∀ node ∈ call.request.actor after.answered, node ∉ before.barred
  enrolment : ∀ request response, call.request = .enroll request →
    after.answered = .ok (.enrolled response) →
      ∀ now ≤ response.certPem.notAfter,
        after.records.authenticates now (.certificate response.certPem) =
          some response.nodeId

/-- The owner recorded for a name. -/
def Records.ownerOf (records : Records) (tenant : TenantId) (name : String) :
    Option PersonId :=
  (records.named tenant name).bind Node.ownerPersonId

/-- The machine will be the minter's: it is so already, or it has no owner and the
lookup of the minter runs, or that of the tenant's owner does and gives the same
person. -/
def Call.Owns (call : Call) (records : Records) (spent : JoinToken) (name : String)
    (minter : PersonId) : Prop :=
  (∀ owner ∈ records.ownerOf spent.tenantId name, owner = minter) ∧
    (records.ownerOf spent.tenantId name = none →
      call.choices[1]?.any (·.outcome = .runs) = true ∨
        (records.tenantOwnerPerson spent.tenantId = some minter ∧
          call.choices[2]?.any (·.outcome = .runs) = true))

/-- What a call may be: a machine is joined or enrolled under a name that is no
other person's, and enrolled only where that machine is not revoked; a bearer
token that is presented is not the one recorded for a barred node. -/
structure Call.Fit (state : Credentials) (call : Call) : Prop where
  owner : ∀ joining ∈ call.request.joining,
    ∀ spent ∈ call.spends state.records joining.1, ∀ minter ∈ state.records.minter spent,
      call.Owns state.records spent joining.2 minter
  unrevoked : ∀ enrolling ∈ call.request.enrolling,
    ∀ spent ∈ call.spends state.records enrolling.1,
      ∀ node ∈ state.records.named spent.tenantId enrolling.2, node.revokedAt = none
  bearer : ∀ token ∈ call.request.bearer,
    ∀ node ∈ state.records.byTokenHash (hashToken token), node.id ∉ state.barred

instance (call : Call) (records : Records) (spent : JoinToken) (name : String)
    (minter : PersonId) : Decidable (call.Owns records spent name minter) :=
  inferInstanceAs (Decidable (_ ∧ _))

instance (state : Credentials) (call : Call) : Decidable (call.Fit state) :=
  decidable_of_iff
    ((∀ joining ∈ call.request.joining,
        ∀ spent ∈ call.spends state.records joining.1, ∀ minter ∈ state.records.minter spent,
          call.Owns state.records spent joining.2 minter) ∧
      (∀ enrolling ∈ call.request.enrolling,
        ∀ spent ∈ call.spends state.records enrolling.1,
          ∀ node ∈ state.records.named spent.tenantId enrolling.2, node.revokedAt = none) ∧
      ∀ token ∈ call.request.bearer,
        ∀ node ∈ state.records.byTokenHash (hashToken token), node.id ∉ state.barred)
    ⟨fun ⟨owner, unrevoked, bearer⟩ => ⟨owner, unrevoked, bearer⟩,
      fun fit => ⟨fit.owner, fit.unrevoked, fit.bearer⟩⟩

end Law

variable {response : EnrollResponse} {call : Call}

section Endings

/-- A handler that ran to its end and succeeded. -/
abbrev Ends {First : Type} (program : Handler First) (before : Records)
    (choices : List Records.Choice) (after : Records) (value : First) : Prop :=
  controlPlane.finish program.run before choices = some (after, .ok value)

variable {First Second : Type} {before after : Records} {choices : List Records.Choice}

theorem ends_perform {request : Statement} {value : request.Value}
    (ended : Ends (perform request) before choices after value) :
    ∃ choice, choices = [choice] ∧
      (before.draw choice request).answer choice.now choice.drawn request =
        (after, .ok value) := by
  obtain ⟨choice, one, ran⟩ := Service.finish_perform ended
  exact ⟨choice, one, Records.execute_ok ran⟩

/-- A statement that only reads leaves the rows as they are. -/
theorem ends_read {request : Statement} {value : request.Value}
    (reads : ∀ records now drawn, (Records.answer records now drawn request).1 = records)
    (draws : request.draws = false) (ended : Ends (perform request) before choices after value) :
    ∃ choice, choices = [choice] ∧ after = before ∧
      (before.answer choice.now choice.drawn request).2 = .ok value := by
  obtain ⟨choice, rfl, answered⟩ := ends_perform ended
  have same : before.draw choice request = before := by
    simp only [Records.draw, draws, Bool.false_eq_true, if_false]
  rw [same] at answered
  refine ⟨choice, rfl, ?_, by rw [answered]⟩
  rw [← reads before choice.now choice.drawn, answered]

/-- The two tables that a call reads and its machines and people are the same. -/
structure Untouched (before after : Records) : Prop where
  nodes : after.nodes = before.nodes
  users : after.users = before.users

theorem spend_ends {token : Token} {spent : ConsumedJoinToken}
    (ended : Ends (spend token) before choices after spent) :
    ∃ choice, choices = [choice] ∧ Untouched before after ∧
      ∃ row, before.joinTokens.find? (fun row =>
          row.tokenHash = hashToken token && choice.now < row.expiresAt) = some row ∧
        spent = ⟨row.tenantId, row.createdBy⟩ := by
  obtain ⟨first, second, middle, consumed, rfl, one, two⟩ := Service.finish_ok_bind ended
  obtain ⟨choice, rfl, answered⟩ := ends_perform one
  cases consumed with
  | none => exact absurd two Service.finish_throw
  | some consumed =>
      obtain ⟨rfl, rfl, rfl⟩ := Service.finish_pure two
      simp only [Records.answer, Prod.mk.injEq, Except.ok.injEq,
        Option.map_eq_some_iff] at answered
      obtain ⟨rfl, row, found, rfl⟩ := answered
      exact ⟨choice, rfl, ⟨rfl, rfl⟩, row, found, rfl⟩

/-- A lookup of a person leaves the rows as they are. -/
theorem lookup_ends {request : Statement} {result : Except ApiError request.Value}
    (reads : ∀ records now drawn, (Records.answer records now drawn request).1 = records)
    (draws : request.draws = false) (ended : Ends (attempt request) before choices after result) :
    ∃ choice, choices = [choice] ∧ after = before ∧
      result = if choice.outcome = .runs then
          (before.answer choice.now choice.drawn request).2
        else .error .database := by
  obtain ⟨choice, rfl, ran⟩ := Service.finish_attempt ended
  have same : before.draw choice request = before := by
    simp only [Records.draw, draws, Bool.false_eq_true, if_false]
  have answers {told : Except ApiError request.Value} (answered :
      (before.draw choice request).answer choice.now choice.drawn request = (after, told)) :
      after = before ∧ told = (before.answer choice.now choice.drawn request).2 := by
    rw [same] at answered
    rw [answered]
    refine ⟨?_, rfl⟩
    rw [← reads before choice.now choice.drawn, answered]
  refine ⟨choice, rfl, ?_⟩
  rcases (Records.execute_cases ran).2 with
    ⟨runs, answered⟩ | ⟨fails, isError, rfl | ⟨told, answered⟩⟩
  · rw [if_pos runs]
    exact answers answered
  · rw [if_neg fails]
    exact ⟨rfl, isError⟩
  · rw [if_neg fails]
    exact ⟨(answers answered).1, isError⟩

variable {tenant : TenantId}

/-- The minter's person is found where the lookup runs. -/
theorem minterPerson_ends {minter : Option UserId} {found : Option PersonId}
    (ended : Ends (minterPerson tenant minter) before choices after found) :
    after = before ∧ ∀ user ∈ minter, ∃ choice, choices = [choice] ∧
      found = if choice.outcome = .runs then before.personIdOfInTenant user tenant
        else none := by
  cases minter with
  | none =>
      obtain ⟨-, rfl, -⟩ := Service.finish_pure ended
      exact ⟨rfl, nofun⟩
  | some user =>
      obtain ⟨first, second, middle, result, rfl, one, two⟩ := Service.finish_ok_bind ended
      obtain ⟨choice, rfl, rfl, told⟩ := lookup_ends (fun _ _ _ => rfl) rfl one
      by_cases runs : choice.outcome = .runs
      · rw [if_pos runs] at told
        subst told
        obtain ⟨rfl, rfl, isPerson⟩ := Service.finish_pure two
        refine ⟨rfl, ?_⟩
        intro same isSame
        cases isSame
        exact ⟨choice, rfl, by rw [if_pos runs]; exact isPerson⟩
      · rw [if_neg runs] at told
        subst told
        obtain ⟨rfl, rfl, isNone⟩ := Service.finish_pure two
        refine ⟨rfl, ?_⟩
        intro same isSame
        cases isSame
        exact ⟨choice, rfl, by rw [if_neg runs]; exact isNone⟩

/-- The owner is the minter where the lookup of the minter runs, or that of the
tenant's owner does and gives the same person. -/
theorem ownerPerson_ends {minter : Option UserId} {owner : Option PersonId}
    (ended : Ends (ownerPerson tenant minter) before choices after owner) :
    after = before ∧ ∀ user ∈ minter, ∀ person ∈ before.personIdOfInTenant user tenant,
      ∀ rest, (choices ++ rest)[0]?.any (·.outcome = .runs) = true ∨
          (before.tenantOwnerPerson tenant = some person ∧
            (choices ++ rest)[1]?.any (·.outcome = .runs) = true) →
        owner = some person := by
  obtain ⟨first, second, middle, found, rfl, one, two⟩ := Service.finish_ok_bind ended
  obtain ⟨rfl, told⟩ := minterPerson_ends one
  cases found with
  | some person =>
      obtain ⟨rfl, rfl, rfl⟩ := Service.finish_pure two
      refine ⟨rfl, ?_⟩
      intro user isUser minted isMinted rest _
      obtain ⟨choice, rfl, isFound⟩ := told user isUser
      rw [Option.mem_def.mp isMinted] at isFound
      split at isFound
      case isTrue => exact isFound
      case isFalse => cases isFound
  | none =>
      obtain ⟨third, fourth, last, result, rfl, three, four⟩ := Service.finish_ok_bind two
      obtain ⟨choice, rfl, rfl, toldOwner⟩ := lookup_ends (fun _ _ _ => rfl) rfl three
      have ends : fourth = [] ∧ after = last ∧ (choice.outcome = .runs →
          owner = last.tenantOwnerPerson tenant) := by
        by_cases runs : choice.outcome = .runs
        · rw [if_pos runs] at toldOwner
          subst toldOwner
          obtain ⟨none, same, isOwner⟩ := Service.finish_pure four
          exact ⟨none, same, fun _ => isOwner⟩
        · rw [if_neg runs] at toldOwner
          subst toldOwner
          obtain ⟨none, same, -⟩ := Service.finish_pure four
          exact ⟨none, same, fun ran => absurd ran runs⟩
      obtain ⟨rfl, rfl, isOwner⟩ := ends
      refine ⟨rfl, ?_⟩
      intro user isUser person isPerson rest held
      obtain ⟨minterChoice, rfl, isNone⟩ := told user isUser
      rcases held with minterRuns | ⟨samePerson, ownerRuns⟩
      · have runs : minterChoice.outcome = .runs := by simpa using minterRuns
        rw [if_pos runs, Option.mem_def.mp isPerson] at isNone
        cases isNone
      · have runs : choice.outcome = .runs := by simpa using ownerRuns
        rw [isOwner runs, samePerson]

/-- An upsert answers with the row it found, changed, or with the row it was
given. -/
theorem upsert_ends {records after : Records} {fresh : Node} {change : Node → Node}
    {id : NodeId} (keeps : ∀ node : Node, node.Continues (change node))
    (ran : records.upsert fresh change = (after, .ok id)) :
    ∃ node ∈ after.nodes, node.id = id ∧
      ((∃ existing ∈ records.named fresh.tenantId fresh.name, node = change existing) ∨
        (records.named fresh.tenantId fresh.name = none ∧ node = fresh)) := by
  unfold Records.upsert at ran
  split at ran
  case h_1 existing found =>
    rcases Records.write_cases ran with ⟨-, rfl, isId⟩ | ⟨-, isError⟩
    case inr => cases isError
    cases isId
    refine ⟨change existing, ?_, (keeps existing).id, .inl ⟨existing, found, rfl⟩⟩
    apply List.mem_map.mpr
    exact ⟨existing, List.mem_of_find?_eq_some found, if_pos rfl⟩
  case h_2 missing =>
    rcases Records.write_cases ran with ⟨-, rfl, isId⟩ | ⟨-, isError⟩
    case inr => cases isError
    cases isId
    exact ⟨fresh, List.mem_append_right _ (List.mem_singleton_self _), rfl,
      .inr ⟨missing, rfl⟩⟩

/-- A machine that is joined or enrolled where the minter owns it is the
minter's. -/
theorem owned_by_minter {records : Records} {spent : JoinToken}
    {name : String} {minter : PersonId} {owner : Option PersonId}
    (owns : call.Owns records spent name minter)
    (found : call.choices[1]?.any (·.outcome = .runs) = true ∨
        (records.tenantOwnerPerson spent.tenantId = some minter ∧
          call.choices[2]?.any (·.outcome = .runs) = true) → owner = some minter)
    {node fresh : Node} {change : Node → Node}
    (written : (∃ existing ∈ records.named spent.tenantId name, node = change existing) ∨
      (records.named spent.tenantId name = none ∧ node = fresh))
    (changed : ∀ existing, (change existing).ownerPersonId =
      (existing.ownerPersonId <|> owner))
    (isFresh : fresh.ownerPersonId = owner) : node.ownerPersonId = some minter := by
  rcases written with ⟨existing, isNamed, rfl⟩ | ⟨missing, rfl⟩
  · have ownerOf : records.ownerOf spent.tenantId name = existing.ownerPersonId := by
      rw [Records.ownerOf, Option.mem_def.mp isNamed]
      rfl
    rw [changed]
    cases recorded : existing.ownerPersonId with
    | some current =>
        rw [owns.1 current (ownerOf.trans recorded)]
        rfl
    | none => exact found (owns.2 (ownerOf.trans recorded))
  · have noOwner : records.ownerOf spent.tenantId name = none := by
      rw [Records.ownerOf, missing]
      rfl
    rw [isFresh]
    exact found (owns.2 noOwner)

theorem loadSigner_ends {signer : TenantCa × KeyPair}
    (ended : Ends (loadSigner tenant) before choices after signer) : after = before := by
  obtain ⟨_, _, middle, found, rfl, asked, rest⟩ := Service.finish_ok_bind ended
  obtain ⟨_, rfl, rfl, -⟩ := ends_read (fun _ _ _ => rfl) rfl asked
  cases found with
  | none => exact absurd rest Service.finish_throw
  | some ca =>
      obtain ⟨_, _, checked, _, rfl, ensured, rest₁⟩ := Service.finish_ok_bind rest
      obtain ⟨rfl, rfl, -⟩ := Service.finish_ensure ensured
      obtain ⟨_, _, decrypted, key, rfl, decrypts, rest₂⟩ := Service.finish_ok_bind rest₁
      obtain ⟨_, rfl, rfl, -⟩ := ends_read (fun _ _ _ => rfl) rfl decrypts
      exact (Service.finish_pure rest₂).2.1

theorem signNodeCsr_ends {node : NodeId} {csr : Option KeyPair} {leaf : IssuedLeaf}
    (ended : Ends (signNodeCsr tenant node csr) before choices after leaf) :
    after = before ∧ leaf.certPem.commonName = some node ∧
      leaf.certPem.organization = some tenant := by
  obtain ⟨_, _, middle, signer, rfl, loaded, rest⟩ := Service.finish_ok_bind ended
  have same := loadSigner_ends loaded
  subst same
  cases csr with
  | none => exact absurd rest Service.finish_throw
  | some publicKey =>
      obtain ⟨_, _, clocked, now, rfl, asked, rest₁⟩ := Service.finish_ok_bind rest
      obtain ⟨_, rfl, rfl, -⟩ := ends_read (fun _ _ _ => rfl) rfl asked
      obtain ⟨rfl, rfl, rfl⟩ := Service.finish_pure rest₁
      exact ⟨rfl, rfl, rfl⟩

/-- What an issued leaf says, and the row it is recorded in. -/
theorem issue_ends {node : NodeId} {csr : Option KeyPair}
    (ended : Ends (issue tenant node csr) before choices after response) :
    response.nodeId = node ∧ response.certPem.commonName = some node ∧
      response.certPem.organization = some tenant ∧
      ∀ row ∈ before.nodes, row.id = node → ∃ new ∈ after.nodes, new.id = node ∧
        new.tenantId = row.tenantId ∧ new.revokedAt = row.revokedAt ∧
        new.ownerPersonId = row.ownerPersonId ∧ new.certPem = some response.certPem := by
  obtain ⟨_, _, middle, leaf, rfl, signed, rest⟩ := Service.finish_ok_bind ended
  obtain ⟨rfl, commonName, organization⟩ := signNodeCsr_ends signed
  obtain ⟨_, _, recorded, _, rfl, records, rest₁⟩ := Service.finish_ok_bind rest
  obtain ⟨choice, rfl, answered⟩ := ends_perform records
  rcases Records.write_cases answered with ⟨-, rfl, -⟩ | ⟨-, isError⟩
  case inr => cases isError
  obtain ⟨_, _, bundled, bundle, rfl, bundles, rest₂⟩ := Service.finish_ok_bind rest₁
  obtain ⟨_, rfl, rfl, -⟩ := ends_read (fun _ _ _ => rfl) rfl bundles
  obtain ⟨_, _, slugged, slug, rfl, slugs, rest₃⟩ := Service.finish_ok_bind rest₂
  obtain ⟨_, rfl, rfl, -⟩ := ends_read (fun _ _ _ => rfl) rfl slugs
  obtain ⟨rfl, rfl, rfl⟩ := Service.finish_pure rest₃
  refine ⟨rfl, commonName, organization, ?_⟩
  intro row member isNode
  exact ⟨_, List.mem_map.mpr ⟨row, member, if_pos isNode⟩, isNode, rfl, rfl, rfl, rfl⟩

theorem generate_ends {makeActive : Bool} {ca : TenantCa}
    (ended : Ends (generate tenant makeActive) before choices after ca) :
    after.nodes = before.nodes := by
  obtain ⟨_, _, clocked, now, rfl, clocks, rest⟩ := Service.finish_ok_bind ended
  obtain ⟨_, rfl, rfl, -⟩ := ends_read (fun _ _ _ => rfl) rfl clocks
  obtain ⟨_, _, drew, key, rfl, draws, rest₁⟩ := Service.finish_ok_bind rest
  obtain ⟨choice, rfl, drawn⟩ := ends_perform draws
  cases drawn
  obtain ⟨_, _, locked, keyEnc, rfl, encrypts, rest₂⟩ := Service.finish_ok_bind rest₁
  obtain ⟨_, rfl, rfl, -⟩ := ends_read (fun _ _ _ => rfl) rfl encrypts
  obtain ⟨choice, rfl, answered⟩ := ends_perform rest₂
  rcases Records.write_cases answered with ⟨-, rfl, -⟩ | ⟨-, isError⟩
  · rfl
  · cases isError

theorem ensureCa_ends {value : Unit} (ended : Ends (ensureCa tenant) before choices after value) :
    after.nodes = before.nodes := by
  obtain ⟨_, _, bundled, bundle, rfl, bundles, rest⟩ := Service.finish_ok_bind ended
  obtain ⟨_, rfl, rfl, -⟩ := ends_read (fun _ _ _ => rfl) rfl bundles
  split at rest
  case isTrue =>
    obtain ⟨_, _, minted, ca, rfl, generated, rest₁⟩ := Service.finish_ok_bind rest
    obtain ⟨-, rfl, -⟩ := Service.finish_pure rest₁
    exact generate_ends generated
  case isFalse =>
    obtain ⟨-, rfl, -⟩ := Service.finish_pure rest
    rfl

/-- A token is spent and its owner looked up before a machine is written: the
machines and people are as they were, the token is the one the call spends, and
the owner is its minter where the call's lookups find that person. -/
theorem owner_ends {token : Token} {spent : ConsumedJoinToken} {middle : Records}
    {spending looking rest : List Records.Choice} {owner : Option PersonId}
    (spends : Ends (spend token) before spending middle spent)
    (looks : Ends (ownerPerson spent.tenant spent.createdBy) middle looking after owner)
    (split : call.choices = spending ++ (looking ++ rest)) :
    after.nodes = before.nodes ∧ ∀ row ∈ call.spends before token,
      spent = ⟨row.tenantId, row.createdBy⟩ ∧ ∀ minter ∈ before.minter row,
        call.choices[1]?.any (·.outcome = .runs) = true ∨
          (before.tenantOwnerPerson row.tenantId = some minter ∧
            call.choices[2]?.any (·.outcome = .runs) = true) → owner = some minter := by
  obtain ⟨choice, rfl, untouched, found, isFound, rfl⟩ := spend_ends spends
  obtain ⟨rfl, isOwner⟩ := ownerPerson_ends looks
  refine ⟨untouched.nodes, ?_⟩
  intro row isRow
  have same : found = row := by
    simp only [Call.spends, split, List.singleton_append, List.head?_cons, Option.bind_some,
      isFound, Option.mem_def, Option.some.injEq] at isRow
    exact isRow
  subst same
  refine ⟨rfl, ?_⟩
  intro minter isMinter held
  obtain ⟨user, isUser, isPerson⟩ := Option.bind_eq_some_iff.mp isMinter
  have people (user : UserId) (tenant : TenantId) :
      after.personIdOfInTenant user tenant = before.personIdOfInTenant user tenant := by
    rw [Records.personIdOfInTenant, Records.personIdOfInTenant, untouched.users]
  have owners (tenant : TenantId) :
      after.tenantOwnerPerson tenant = before.tenantOwnerPerson tenant := by
    rw [Records.tenantOwnerPerson, Records.tenantOwnerPerson, untouched.users]
  apply isOwner user isUser minter ((people user _).trans isPerson) rest
  rw [split] at held
  rw [owners]
  exact held

theorem named_of_nodes {records other : Records} (nodes : other.nodes = records.nodes)
    (tenant : TenantId) (name : String) : other.named tenant name = records.named tenant name := by
  rw [Records.named, Records.named, nodes]

/-- A node that joined under a name it may have is its minter's. -/
theorem join_ends {request : JoinRequest} {response : JoinResponse}
    (ended : Ends (join request) before call.choices after response) :
    ∀ spent ∈ call.spends before request.token, ∀ minter ∈ before.minter spent,
      call.Owns before spent request.nodeName minter →
        ∃ node ∈ after.nodes, node.id = response.nodeId ∧
          node.ownerPersonId = some minter := by
  intro spent isSpent minter isMinter owns
  obtain ⟨_, _, middle, consumed, split, spends, rest⟩ := Service.finish_ok_bind ended
  obtain ⟨_, _, owned, owner, rfl, looks, rest₁⟩ := Service.finish_ok_bind rest
  obtain ⟨nodes, toldOwner⟩ := owner_ends spends looks split
  obtain ⟨rfl, isOwner⟩ := toldOwner spent isSpent
  obtain ⟨_, _, drew, token, rfl, draws, rest₂⟩ := Service.finish_ok_bind rest₁
  obtain ⟨choice, rfl, drawn⟩ := ends_perform draws
  cases drawn
  obtain ⟨_, _, written, node, rfl, upserts, rest₃⟩ := Service.finish_ok_bind rest₂
  obtain ⟨upsertChoice, rfl, answered⟩ := ends_perform upserts
  obtain ⟨_, _, slugged, slug, rfl, slugs, rest₄⟩ := Service.finish_ok_bind rest₃
  obtain ⟨_, rfl, rfl, -⟩ := ends_read (fun _ _ _ => rfl) rfl slugs
  obtain ⟨-, rfl, rfl⟩ := Service.finish_pure rest₄
  simp only [Records.answer] at answered
  obtain ⟨row, member, isNode, isRow⟩ :=
    upsert_ends (fun node => node.continues_owned _ _) answered
  have isSame := named_of_nodes nodes spent.tenantId request.nodeName
  exact ⟨row, member, isNode,
    owned_by_minter owns (isOwner minter isMinter) (isSame ▸ isRow) (fun _ => rfl) rfl⟩

/-- An enrolment that succeeds has spent a token. -/
theorem enroll_spends {request : EnrollRequest}
    (ended : Ends (enroll request) before call.choices after response) :
    ∃ spent, spent ∈ call.spends before request.token := by
  obtain ⟨_, _, middle, consumed, split, spends, -⟩ := Service.finish_ok_bind ended
  obtain ⟨choice, rfl, -, row, found, -⟩ := spend_ends spends
  refine ⟨row, ?_⟩
  simp only [Call.spends, split, List.singleton_append, List.head?_cons, Option.bind_some,
    found, Option.mem_def]

/-- A node that enrolled under a name it may have is its minter's, and the
certificate of one that was not revoked names a node that is not, whose recorded
leaf it is. -/
theorem enroll_ends {request : EnrollRequest}
    (ended : Ends (enroll request) before call.choices after response) :
    ∀ spent ∈ call.spends before request.token,
      (∀ minter ∈ before.minter spent,
        call.Owns before spent (request.name.getD "node") minter →
          ∃ node ∈ after.nodes, node.id = response.nodeId ∧
            node.ownerPersonId = some minter) ∧
      ((∀ node ∈ before.named spent.tenantId (request.name.getD "node"),
          node.revokedAt = none) →
        ∃ node ∈ after.nodes, node.id = response.nodeId ∧ node.revokedAt = none ∧
          node.certPem = some response.certPem ∧
          response.certPem.commonName = some node.id ∧
          response.certPem.organization = some node.tenantId) := by
  intro spent isSpent
  obtain ⟨_, _, middle, consumed, split, spends, rest⟩ := Service.finish_ok_bind ended
  obtain ⟨_, _, owned, owner, rfl, looks, rest₁⟩ := Service.finish_ok_bind rest
  obtain ⟨nodes, toldOwner⟩ := owner_ends spends looks split
  obtain ⟨rfl, isOwner⟩ := toldOwner spent isSpent
  obtain ⟨_, _, ensured, _, rfl, ensures, rest₂⟩ := Service.finish_ok_bind rest₁
  have stillNodes : ensured.nodes = before.nodes := (ensureCa_ends ensures).trans nodes
  obtain ⟨_, _, drew, id, rfl, draws, rest₃⟩ := Service.finish_ok_bind rest₂
  obtain ⟨choice, rfl, drawn⟩ := ends_perform draws
  cases drawn
  obtain ⟨_, _, written, node, rfl, upserts, rest₄⟩ := Service.finish_ok_bind rest₃
  obtain ⟨upsertChoice, rfl, answered⟩ := ends_perform upserts
  simp only [Records.answer] at answered
  obtain ⟨row, member, isNode, isRow⟩ :=
    upsert_ends (fun node => node.continues_owned _ _) answered
  have isSame := named_of_nodes stillNodes spent.tenantId (request.name.getD "node")
  have isRow := isSame ▸ isRow
  obtain ⟨sameNode, commonName, organization, recorded⟩ := issue_ends rest₄
  obtain ⟨new, newMember, newId, newTenant, newRevoked, newOwner, newCert⟩ :=
    recorded row member isNode
  rw [sameNode]
  constructor
  · intro minter isMinter owns
    refine ⟨new, newMember, newId, ?_⟩
    rw [newOwner]
    exact owned_by_minter owns (isOwner minter isMinter) isRow (fun _ => rfl) rfl
  · intro unrevoked
    have about : row.tenantId = spent.tenantId ∧ row.revokedAt = none := by
      rcases isRow with ⟨existing, isNamed, rfl⟩ | ⟨-, rfl⟩
      · have named := List.find?_some (Option.mem_def.mp isNamed)
        simp only [Bool.and_eq_true, decide_eq_true_eq] at named
        exact ⟨named.1, unrevoked existing isNamed⟩
      · exact ⟨rfl, rfl⟩
    refine ⟨new, newMember, newId, ?_, newCert, ?_, ?_⟩
    · rw [newRevoked]
      exact about.2
    · rw [newId]
      exact commonName
    · rw [newTenant, about.1]
      exact organization

/-- Only a node that is not revoked is renewed. -/
theorem renew_ends {node : NodeId} {csr : Option KeyPair}
    (ended : Ends (renew node csr) before choices after response) :
    ∃ row ∈ before.nodes, row.id = node ∧ row.revokedAt = none := by
  obtain ⟨_, _, middle, identity, rfl, asks, rest⟩ := Service.finish_ok_bind ended
  obtain ⟨_, rfl, rfl, told⟩ := ends_read (fun _ _ _ => rfl) rfl asks
  cases identity with
  | none => exact absurd rest Service.finish_throw
  | some identity =>
      obtain ⟨_, _, checked, _, rfl, ensures, rest₁⟩ := Service.finish_ok_bind rest
      obtain ⟨-, -, unrevoked⟩ := Service.finish_ensure ensures
      simp only [Records.answer, Except.ok.injEq, Option.map_eq_some_iff] at told
      obtain ⟨row, found, rfl⟩ := told
      obtain ⟨member, isNode⟩ := Table.find_some found
      exact ⟨row, member, isNode, Option.isNone_iff_eq_none.mp unrevoked⟩

/-- Only a node that is not revoked authenticates by its certificate. -/
theorem verifyNodeCert_ends {cert : Certificate} {identity : NodeIdentity}
    (ended : Ends (verifyNodeCert cert) before choices after identity) :
    after = before ∧
      ∃ row ∈ before.nodes, row.id = identity.nodeId ∧ row.revokedAt = none := by
  obtain ⟨_, _, middle, now, rfl, clocks, rest⟩ := Service.finish_ok_bind ended
  obtain ⟨_, rfl, rfl, -⟩ := ends_read (fun _ _ _ => rfl) rfl clocks
  obtain ⟨_, _, valid, _, rfl, ensures, rest₁⟩ := Service.finish_ok_bind rest
  obtain ⟨rfl, rfl, -⟩ := Service.finish_ensure ensures
  split at rest₁
  case h_2 => exact absurd rest₁ Service.finish_throw
  case h_3 => exact absurd rest₁ Service.finish_throw
  case h_1 node tenant _ _ =>
    obtain ⟨_, _, looked, state, rfl, asks, rest₂⟩ := Service.finish_ok_bind rest₁
    obtain ⟨_, rfl, rfl, told⟩ := ends_read (fun _ _ _ => rfl) rfl asks
    cases state with
    | none => exact absurd rest₂ Service.finish_throw
    | some state =>
        obtain ⟨_, _, ofTenant, _, rfl, ensures, rest₃⟩ := Service.finish_ok_bind rest₂
        obtain ⟨rfl, rfl, -⟩ := Service.finish_ensure ensures
        obtain ⟨_, _, live, _, rfl, ensures, rest₄⟩ := Service.finish_ok_bind rest₃
        obtain ⟨rfl, rfl, unrevoked⟩ := Service.finish_ensure ensures
        obtain ⟨_, _, bundled, bundle, rfl, asks, rest₅⟩ := Service.finish_ok_bind rest₄
        obtain ⟨_, rfl, rfl, -⟩ := ends_read (fun _ _ _ => rfl) rfl asks
        obtain ⟨_, _, some, _, rfl, ensures, rest₆⟩ := Service.finish_ok_bind rest₅
        obtain ⟨rfl, rfl, -⟩ := Service.finish_ensure ensures
        obtain ⟨_, _, chained, _, rfl, ensures, rest₇⟩ := Service.finish_ok_bind rest₆
        obtain ⟨rfl, rfl, -⟩ := Service.finish_ensure ensures
        obtain ⟨rfl, rfl, rfl⟩ := Service.finish_pure rest₇
        simp only [Records.answer, Except.ok.injEq, Option.map_eq_some_iff] at told
        obtain ⟨row, found, rfl⟩ := told
        obtain ⟨member, isNode⟩ := Table.find_some found
        exact ⟨rfl, row, member, isNode, Option.isNone_iff_eq_none.mp unrevoked⟩

/-- A socket is opened for an unrevoked node by its certificate, or for the node
that the token's hash finds. -/
theorem nodeWs_ends {credential : Credential} {identity : NodeIdentity}
    (ended : Ends (nodeWs credential) before choices after identity) :
    (∃ row ∈ before.nodes, row.id = identity.nodeId ∧ row.revokedAt = none) ∨
      ∃ token, credential = .bearer token ∧
        ∃ row ∈ before.byTokenHash (hashToken token), row.id = identity.nodeId := by
  cases credential with
  | certificate cert =>
      obtain ⟨_, _, verified, result, rfl, verifies, rest⟩ := Service.finish_ok_bind ended
      have verified := Service.finish_caught verifies
      cases result with
      | error failure => exact absurd rest Service.finish_throw
      | ok known =>
          obtain ⟨-, -, rfl⟩ := Service.finish_pure rest
          exact .inl (verifyNodeCert_ends verified).2
  | bearer token =>
      obtain ⟨_, _, looked, row, rfl, asks, rest⟩ := Service.finish_ok_bind ended
      obtain ⟨_, rfl, rfl, told⟩ := ends_read (fun _ _ _ => rfl) rfl asks
      cases row with
      | none => exact absurd rest Service.finish_throw
      | some row =>
          obtain ⟨-, -, rfl⟩ := Service.finish_pure rest
          simp only [Records.answer, Except.ok.injEq, Option.map_eq_some_iff] at told
          obtain ⟨node, found, rfl⟩ := told
          exact .inr ⟨token, rfl, node, found, rfl⟩

theorem fromRequestParts_ends {credential : Credential} {identity : NodeIdentity}
    (ended : Ends (fromRequestParts credential) before choices after identity) :
    (∃ row ∈ before.nodes, row.id = identity.nodeId ∧ row.revokedAt = none) ∨
      ∃ token, credential = .bearer token ∧
        ∃ row ∈ before.byTokenHash (hashToken token), row.id = identity.nodeId := by
  cases credential with
  | certificate cert =>
      obtain ⟨_, _, verified, result, rfl, verifies, rest⟩ := Service.finish_ok_bind ended
      have verified := Service.finish_caught verifies
      cases result with
      | error failure => exact absurd rest Service.finish_throw
      | ok known =>
          obtain ⟨_, _, owned, _, rfl, -, rest₁⟩ := Service.finish_ok_bind rest
          obtain ⟨-, -, rfl⟩ := Service.finish_pure rest₁
          exact .inl (verifyNodeCert_ends verified).2
  | bearer token =>
      obtain ⟨_, _, looked, row, rfl, asks, rest⟩ := Service.finish_ok_bind ended
      obtain ⟨_, rfl, rfl, told⟩ := ends_read (fun _ _ _ => rfl) rfl asks
      cases row with
      | none => exact absurd rest Service.finish_throw
      | some row =>
          obtain ⟨_, _, owned, _, rfl, -, rest₁⟩ := Service.finish_ok_bind rest
          obtain ⟨-, -, rfl⟩ := Service.finish_pure rest₁
          simp only [Records.answer, Except.ok.injEq, Option.map_eq_some_iff] at told
          obtain ⟨node, found, rfl⟩ := told
          exact .inr ⟨token, rfl, node, found, rfl⟩

/-- A node that was revoked is revoked. -/
theorem revokeNode_ends {node : NodeId} {value : Unit}
    (ended : Ends (revokeNode tenant node) before choices after value) :
    ∃ row ∈ after.nodes, row.id = node ∧ row.revokedAt.isSome = true := by
  obtain ⟨_, _, revoked, count, rfl, revokes, rest⟩ := Service.finish_ok_bind ended
  obtain ⟨choice, rfl, answered⟩ := ends_perform revokes
  obtain ⟨-, rfl, counted⟩ := Service.finish_ensure rest
  rcases Records.write_cases answered with ⟨-, rfl, isCount⟩ | ⟨-, isError⟩
  case inr => cases isError
  cases isCount
  have positive : 0 < before.nodes.countP fun row => row.id = node && row.tenantId = tenant :=
    Nat.pos_of_ne_zero (of_decide_eq_true counted)
  obtain ⟨row, member, named⟩ := List.countP_pos_iff.mp positive
  have isNode : row.id = node := by
    simp only [Bool.and_eq_true, decide_eq_true_eq] at named
    exact named.1
  exact ⟨_, List.mem_map.mpr ⟨row, member, if_pos named⟩, isNode, rfl⟩

end Endings

section Runs

/-- The certificate recorded for a node that is not revoked authenticates as that
node while it is valid. -/
theorem Trusting.authenticates {records : Records} (trusting : Trusting records) {node : Node}
    (member : node ∈ records.nodes) (unrevoked : node.revokedAt = none) {cert : Certificate}
    (recorded : node.certPem = some cert) (commonName : cert.commonName = some node.id)
    (organization : cert.organization = some node.tenantId) {now : Instant}
    (valid : now ≤ cert.notAfter) :
    records.authenticates now (.certificate cert) = some node.id := by
  obtain ⟨ca, caMember, -, key⟩ := trusting.trusted member cert recorded
  have found : Table.find Node.id records.nodes node.id = some node :=
    Table.Keyed.find_of_mem trusting.consistent.nodeIds member
  have asked : controlPlane.execute records { now := now } (.revocationState node.id) =
      some (records, .ok (some (node.tenantId, none))) := by
    simp only [controlPlane, Records.execute, Records.draw, Statement.draws, Bool.false_eq_true,
      false_and, if_false, Records.answer, found, Option.map_some, unrevoked]
  have clocked : controlPlane.execute records { now := now } .clock =
      some (records, .ok now) := rfl
  have bundled : controlPlane.execute records { now := now } (.bundle node.tenantId) =
      some (records, .ok (records.trustBundle node.tenantId)) := rfl
  have chained : (records.trustBundle node.tenantId).any
      (fun ca => ca.certPem.key = cert.signer) = true :=
    List.any_eq_true.mpr ⟨ca, caMember, decide_eq_true key⟩
  have listed : (!(records.trustBundle node.tenantId).isEmpty) = true := by
    rw [Bool.not_eq_true', List.isEmpty_eq_false_iff]
    exact List.ne_nil_of_mem caMember
  have verifies : controlPlane.finishAt { now := now } (verifyNodeCert cert).run records =
      some (records, .ok ⟨node.id, node.tenantId⟩) := by
    rw [verifyNodeCert, Service.finishAt_ok_bind (Service.finishAt_perform clocked),
      Service.finishAt_ok_bind (Service.finishAt_ensure (decide_eq_true valid)),
      commonName, organization]
    dsimp only
    rw [Service.finishAt_ok_bind (Service.finishAt_perform asked)]
    dsimp only
    rw [Service.finishAt_ok_bind (Service.finishAt_ensure (decide_eq_true rfl)),
      Service.finishAt_ok_bind (Service.finishAt_ensure Option.isNone_none),
      Service.finishAt_ok_bind (Service.finishAt_perform bundled),
      Service.finishAt_ok_bind (Service.finishAt_ensure listed),
      Service.finishAt_ok_bind (Service.finishAt_ensure chained)]
    rfl
  rw [Records.authenticates, nodeWs,
    Service.finishAt_ok_bind (Service.finishAt_caught verifies)]
  rfl

/-- A node found by its identifier again is the same one. -/
theorem Trusting.node_of_id {records : Records} (trusting : Trusting records) {id : NodeId}
    {first second : Node} (one : first ∈ records.nodes) (two : second ∈ records.nodes)
    (isFirst : first.id = id) (isSecond : second.id = id) : first = second :=
  trusting.node_unique one two (isFirst.trans isSecond.symm)

/-- What a run of fitting calls keeps: a barred node is revoked, and what was
handed out is for machines of its minter. -/
structure Straight (state : Credentials) : Prop where
  trusting : Trusting state.records
  barred : ∀ id ∈ state.barred, ∃ node ∈ state.records.nodes,
    node.id = id ∧ node.revokedAt.isSome = true
  given : ∀ given ∈ state.given, ∃ node ∈ state.records.nodes,
    node.id = given.node ∧ node.ownerPersonId = some given.minter

theorem Straight.opened (joinTokens : List JoinToken) (users : List User)
    (slugs : List (TenantId × String)) (drawn : List Nat) :
    Straight (.opened (.opened joinTokens users slugs drawn)) where
  trusting := Trusting.opened joinTokens users slugs drawn
  barred := nofun
  given := nofun

/-- A barred node is revoked at every later moment. -/
theorem Later.barred {before after : Records} (later : Later before after) {id : NodeId}
    (barred : ∃ node ∈ before.nodes, node.id = id ∧ node.revokedAt.isSome = true) :
    ∃ node ∈ after.nodes, node.id = id ∧ node.revokedAt.isSome = true := by
  obtain ⟨node, member, isNode, revoked⟩ := barred
  obtain ⟨same, sameMember, continues⟩ := later.nodes node member
  exact ⟨same, sameMember, continues.id.trans isNode, continues.revoked revoked⟩

/-- A machine that has an owner keeps it. -/
theorem Later.owned {before after : Records} (later : Later before after) {id : NodeId}
    {owner : PersonId}
    (owned : ∃ node ∈ before.nodes, node.id = id ∧ node.ownerPersonId = some owner) :
    ∃ node ∈ after.nodes, node.id = id ∧ node.ownerPersonId = some owner := by
  obtain ⟨node, member, isNode, isOwner⟩ := owned
  obtain ⟨same, sameMember, continues⟩ := later.nodes node member
  exact ⟨same, sameMember, continues.id.trans isNode, continues.owner owner isOwner⟩

/-- A handler whose answer is wrapped has ended as it did. -/
theorem ends_map {First Second : Type} {wrap : First → Second} {program : Handler First}
    {before after : Records} {choices : List Records.Choice} {value : Second}
    (ended : Ends (wrap <$> program) before choices after value) :
    ∃ inner, value = wrap inner ∧ Ends program before choices after inner := by
  obtain ⟨first, second, middle, result, rfl, one, two⟩ := controlPlane.finish_bind ended
  cases second with
  | cons => cases result <;> cases two
  | nil =>
      cases result with
      | error failure => cases two
      | ok inner =>
          cases two
          rw [List.append_nil]
          exact ⟨inner, rfl, one⟩

/-- A node with an unrevoked row is not barred. -/
theorem Straight.free {state : Credentials} (straight : Straight state) {id : NodeId}
    (live : ∃ row ∈ state.records.nodes, row.id = id ∧ row.revokedAt = none) :
    id ∉ state.barred := by
  intro barred
  obtain ⟨row, member, isNode, unrevoked⟩ := live
  obtain ⟨node, nodeMember, isBarred, revoked⟩ := straight.barred id barred
  rw [straight.trusting.node_of_id nodeMember member isBarred isNode, unrevoked] at revoked
  cases revoked

variable {call : Call} {state : Credentials} {after : Records} {answer : Answer}

/-- No fitting call acts as a barred node. -/
theorem Straight.actor (straight : Straight state) (fit : call.Fit state)
    (ended : Ends (handle call.request) state.records call.choices after answer) :
    ∀ node ∈ call.request.actor (.ok answer), node ∉ state.barred := by
  obtain ⟨request, choices⟩ := call
  have presented {credential : Credential} {identity : NodeIdentity}
      (isBearer : ∀ token, credential = .bearer token → request.bearer = some token)
      (ends : (∃ row ∈ state.records.nodes,
          row.id = identity.nodeId ∧ row.revokedAt = none) ∨
        ∃ token, credential = .bearer token ∧
          ∃ row ∈ state.records.byTokenHash (hashToken token), row.id = identity.nodeId) :
      identity.nodeId ∉ state.barred := by
    rcases ends with live | ⟨token, isToken, row, found, isNode⟩
    · exact straight.free live
    · exact isNode ▸ fit.bearer token (isBearer token isToken) row found
  cases request with
  | nodeWs credential =>
      obtain ⟨identity, rfl, inner⟩ := ends_map ended
      intro node isNode
      cases isNode
      exact presented (fun token isToken => by rw [isToken]; rfl) (nodeWs_ends inner)
  | api credential =>
      obtain ⟨identity, rfl, inner⟩ := ends_map ended
      intro node isNode
      cases isNode
      exact presented (fun token isToken => by rw [isToken]; rfl) (fromRequestParts_ends inner)
  | renew node csr =>
      obtain ⟨response, rfl, inner⟩ := ends_map ended
      intro same isSame
      cases isSame
      exact straight.free (renew_ends inner)
  | _ => exact nofun

/-- What a fitting call hands out is for a machine of its minter. -/
theorem Straight.gives (fit : call.Fit state)
    (ended : Ends (handle call.request) state.records call.choices after answer) :
    ∀ given ∈ call.gives state.records answer, ∃ node ∈ after.nodes,
      node.id = given.node ∧ node.ownerPersonId = some given.minter := by
  intro given isGiven
  simp only [Call.gives, Option.mem_def, Option.bind_eq_bind, Option.bind_eq_some_iff,
    Option.pure_def, Option.some.injEq, Prod.exists] at isGiven
  obtain ⟨token, name, joining, spent, isSpent, minter, isMinter, node, credential, handed,
    rfl⟩ := isGiven
  have owns := fit.owner (token, name) joining spent isSpent minter isMinter
  cases isRequest : call.request with
  | join request =>
      rw [isRequest] at ended joining
      cases joining
      obtain ⟨response, rfl, inner⟩ := ends_map ended
      cases handed
      exact join_ends inner spent isSpent minter isMinter owns
  | enroll request =>
      rw [isRequest] at ended joining
      cases joining
      obtain ⟨response, rfl, inner⟩ := ends_map ended
      cases handed
      exact (enroll_ends inner spent isSpent).1 minter isMinter owns
  | _ =>
      rw [isRequest] at joining
      cases joining

/-- The nodes that a call leaves barred were revoked before it or by it. -/
theorem Straight.bars (straight : Straight state)
    (ended : Ends (handle call.request) state.records call.choices after answer)
    (later : Later state.records after) :
    ∀ id ∈ call.bars state.barred answer, ∃ node ∈ after.nodes,
      node.id = id ∧ node.revokedAt.isSome = true := by
  have earlier (id : NodeId) (barred : id ∈ state.barred) :
      ∃ node ∈ after.nodes, node.id = id ∧ node.revokedAt.isSome = true :=
    later.barred (straight.barred id barred)
  obtain ⟨request, choices⟩ := call
  intro id isBarred
  cases request with
  | revokeNode tenant node =>
      obtain ⟨_, rfl, inner⟩ := ends_map ended
      rcases List.mem_cons.mp isBarred with rfl | before
      · exact revokeNode_ends inner
      · exact earlier id before
  | join | enroll =>
      obtain ⟨response, rfl, -⟩ := ends_map ended
      exact earlier id (List.mem_filter.mp isBarred).1
  | _ => exact earlier id isBarred

/-- A fitting enrolment that succeeds has handed out a certificate that
authenticates. -/
theorem Straight.enrolls (fit : call.Fit state) {request : EnrollRequest}
    (isRequest : call.request = .enroll request)
    (ended : Ends (enroll request) state.records call.choices after response)
    (trusting : Trusting after) :
    ∀ now ≤ response.certPem.notAfter,
      after.authenticates now (.certificate response.certPem) = some response.nodeId := by
  obtain ⟨spent, isSpent⟩ := enroll_spends ended
  have unrevoked := fit.unrevoked (request.token, request.name.getD "node")
    (by rw [isRequest]; rfl) spent isSpent
  obtain ⟨node, member, isNode, live, recorded, commonName, organization⟩ :=
    (enroll_ends ended spent isSpent).2 unrevoked
  intro now valid
  rw [← isNode]
  exact trusting.authenticates member live recorded commonName organization valid

/-- Straight credentials are for machines that no other person owns. -/
theorem Straight.followsOwner (straight : Straight state) : FollowsOwner state := by
  intro given isGiven _ _ node member isNode owner isOwner
  obtain ⟨known, knownMember, isKnown, owned⟩ := straight.given given isGiven
  rw [straight.trusting.node_of_id member knownMember isNode isKnown, Option.mem_def,
    owned] at isOwner
  exact (Option.some.inj isOwner).symm

/-- A fitting call keeps the credentials straight and follows the law. -/
theorem Straight.step {before after : Credentials} (straight : Straight before)
    (fit : call.Fit before) (taken : before.step call = some after) :
    Straight after ∧ Follows before call after := by
  have kept {records : Records} {result : Except ApiError Answer}
      (finished : controlPlane.finish (handle call.request).run before.records call.choices =
        some (records, result)) : Trusting records ∧ Later before.records records :=
    (handle_yields call.request straight.trusting []).finish (fun _ _ _ _ => trivial)
      straight.trusting finished
  unfold Credentials.step at taken
  split at taken
  case h_1 => cases taken
  case h_2 records error finished =>
    cases taken
    obtain ⟨trusting, later⟩ := kept finished
    have still : Straight ⟨records, before.barred, before.given, .error error⟩ :=
      ⟨trusting, fun id barred => later.barred (straight.barred id barred),
        fun given isGiven => later.owned (straight.given given isGiven)⟩
    have noActor : call.request.actor (.error error) = none := by
      cases call.request <;> rfl
    refine ⟨still, still.followsOwner, ?_, ?_⟩
    · rw [noActor]
      exact nofun
    · exact nofun
  case h_3 records answer ended =>
    cases taken
    obtain ⟨trusting, later⟩ := kept ended
    have still : Straight ⟨records, call.bars before.barred answer,
        before.given ++ (call.gives before.records answer).toList, .ok answer⟩ := by
      refine ⟨trusting, straight.bars ended later, ?_⟩
      intro given isGiven
      rcases List.mem_append.mp isGiven with earlier | new
      · exact later.owned (straight.given given earlier)
      · exact Straight.gives fit ended given (Option.mem_toList.mp new)
    refine ⟨still, still.followsOwner, straight.actor fit ended, ?_⟩
    intro request response isRequest isAnswer
    rw [isRequest] at ended
    obtain ⟨enrolled, same, inner⟩ := ends_map ended
    cases isAnswer
    cases same
    exact Straight.enrolls fit isRequest inner trusting

end Runs

section Claim

/-- In every sequence of fitting calls the credentials follow ownership and
revocation at every call. -/
theorem credentials_follow {joinTokens : List JoinToken} {users : List User}
    {slugs : List (TenantId × String)} {drawn : List Nat} {calls : List Call}
    (fit : Along Credentials.step (fun before call _ => call.Fit before)
      (.opened (.opened joinTokens users slugs drawn)) calls) :
    Along Credentials.step Follows (.opened (.opened joinTokens users slugs drawn)) calls :=
  fit.of_invariant Straight
    (fun _ _ _ straight taken fit => (straight.step fit taken).1)
    (fun _ _ _ straight taken fit => (straight.step fit taken).2)
    (Straight.opened joinTokens users slugs drawn)

/-- What can be seen to go wrong in a call, at the instant 0. -/
def strays (before : Credentials) (call : Call) (after : Credentials) : Bool :=
  (after.given.any fun given =>
      after.records.authenticates 0 given.credential = some given.node &&
        after.records.nodes.any fun node =>
          node.id = given.node && node.ownerPersonId.any (· ≠ given.minter)) ||
    (call.request.actor after.answered).any (· ∈ before.barred) ||
    match call.request, after.answered with
    | .enroll _, .ok (.enrolled response) =>
        0 ≤ response.certPem.notAfter &&
          after.records.authenticates 0 (.certificate response.certPem) ≠
            some response.nodeId
    | _, _ => false

theorem Follows.strays {before after : Credentials}
    (follows : Follows before call after) : strays before call after = false := by
  rw [NookOs.Nodes.strays, Bool.or_eq_false_iff, Bool.or_eq_false_iff]
  refine ⟨⟨?_, ?_⟩, ?_⟩
  · rw [List.any_eq_false]
    intro given isGiven seen
    simp only [Bool.and_eq_true, decide_eq_true_eq, List.any_eq_true,
      Option.any_eq_true] at seen
    obtain ⟨works, node, member, isNode, owner, isOwner, differs⟩ := seen
    exact differs (follows.owner given isGiven 0 works node member isNode owner isOwner)
  · rw [Option.any_eq_false]
    intro node isNode
    exact decide_eq_false (follows.revocation node isNode)
  · split
    case h_1 request response isRequest isAnswer =>
      by_cases valid : 0 ≤ response.certPem.notAfter
      · simp [follows.enrolment request response isRequest isAnswer 0 valid]
      · simp [valid]
    case h_2 => rfl

/-- Two members of a tenant, a join token of each. -/
def twoMembers : Records :=
  .opened [⟨1, hashToken (.random 0), some 10, 7, none⟩,
      ⟨1, hashToken (.random 1), some 11, 7, none⟩]
    [⟨10, 1, 100, true, 0⟩, ⟨11, 1, 101, false, 1⟩] [(1, "acme")] [0, 1]

/-- A call whose statements all run, at the instant 1, and draw these numbers
where they draw any. -/
def ranWith (request : Request) (drawn : List Nat) : Call :=
  { request := request
    choices := drawn.map fun number => { now := 1, drawn := number } }

def joinsBox (token : Nat) (drawn : List Nat) : Call :=
  ranWith (.join { token := .random token, name := "box", hostname := "box" }) drawn

/-- The second member joins a machine under the name of the first member's. -/
def takenOver : List Call :=
  [joinsBox 0 [0, 0, 2, 3, 0], joinsBox 1 [0, 0, 4, 5, 0]]

/-- A revoked machine connects with the token it had. -/
def comesBack : List Call :=
  [joinsBox 0 [0, 0, 2, 3, 0], ranWith (.revokeNode 1 3) [0],
    ranWith (.nodeWs (.bearer (.random 2))) [0]]

/-- A revoked machine is enrolled again, with success. -/
def enrolledInVain : List Call :=
  [ranWith (.enroll { token := .random 0, csrPem := some 5 })
      [0, 0, 0, 0, 2, 0, 3, 4, 0, 0, 0, 0, 0, 0, 0],
    ranWith (.revokeNode 1 4) [0],
    ranWith (.enroll { token := .random 0, csrPem := some 5 })
      [0, 0, 0, 5, 0, 0, 0, 0, 0, 0, 0]]

/-- In each of the three sequences the credentials stray. -/
theorem credentials_stray :
    ¬ Along Credentials.step Follows (.opened twoMembers) takenOver ∧
      ¬ Along Credentials.step Follows (.opened twoMembers) comesBack ∧
      ¬ Along Credentials.step Follows (.opened twoMembers) enrolledInVain := by
  have seen : ∀ calls ∈ [takenOver, comesBack, enrolledInVain],
      ¬ Along Credentials.step
        (fun before call after => strays before call after = false)
        (.opened twoMembers) calls := by
    decide +kernel
  have stray (calls : List Call) (isRun : calls ∈ [takenOver, comesBack, enrolledInVain]) :
      ¬ Along Credentials.step Follows (.opened twoMembers) calls := by
    intro follows
    exact seen calls isRun (follows.imp fun _ _ _ _ => Follows.strays)
  exact ⟨stray _ (by simp), stray _ (by simp), stray _ (by simp)⟩

/-- A machine enrolls, connects by its certificate, renews, and is cut off; its
certificate is refused then. -/
theorem credentials_follow_one :
    Along Credentials.step Follows (.opened twoMembers)
      [ranWith (.enroll { token := .random 1, csrPem := some 5 })
          [0, 0, 0, 0, 2, 0, 3, 4, 0, 0, 0, 0, 0, 0, 0],
        ranWith (.nodeWs (.certificate ⟨some 4, some 1, 5, 2, 2592000000000⟩)) [0, 0, 0],
        ranWith (.renew 4 (some 5)) [0, 0, 0, 0, 0, 0, 0],
        ranWith (.revokeNode 1 4) [0],
        ranWith (.nodeWs (.certificate ⟨some 4, some 1, 5, 2, 2592000000000⟩)) [0, 0]] :=
  credentials_follow (by decide +kernel)

end Claim

end NookOs.Nodes
