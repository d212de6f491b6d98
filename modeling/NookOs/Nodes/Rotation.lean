/-
Module: NookOs.Nodes.Rotation
Purpose: That no rotation orphans a leaf, in every interleaving of every call.
Trusted boundary: none
Main exports: Trusting, Later, Fair, execute_trusting, rotation_met, rotation_keeps_trust
-/
import NookOs.Nodes.Enrolment

namespace NookOs.Nodes

open Lib
open Jobs (Instant TenantId UserId NodeId)

/-!
The guard of `retire` counts recorded leaves, and a leaf is recorded long after
its signer was loaded, so the count alone decides nothing.  What keeps a signer
in the bundle is the foreign key `nodes_ca_id_fkey`: a CA that a recorded leaf
names is not deleted, and a leaf that names a deleted CA is not recorded.  The
rest is that a recorded leaf names the CA whose key signed it, and that a
tenant with a CA has one that signs.
-/

variable {records : Records}

section Trust

/-- The tenant has a CA that signs. -/
def Records.Led (records : Records) (tenant : TenantId) : Prop :=
  ∃ ca ∈ records.tenantCas, ca.tenantId = tenant ∧ ca.state = .active

/-- The recorded leaf of a node was signed by the CA it names, a CA of the
node's own tenant. -/
def Records.Anchored (records : Records) (node : Node) : Prop :=
  ∀ cert ∈ node.certPem, ∃ ca ∈ records.tenantCas,
    node.caId = some ca.id ∧ ca.tenantId = node.tenantId ∧ ca.certPem.key = cert.signer

/-- What every interleaving keeps of the rows. -/
structure Trusting (records : Records) : Prop where
  consistent : records.Consistent
  sealedKeys : ∀ ca ∈ records.tenantCas, ca.keyEnc.key = ca.certPem.key
  drawn : ∀ ca ∈ records.tenantCas, ca.id ∈ records.drawn
  led : ∀ ca ∈ records.tenantCas, records.Led ca.tenantId
  anchored : ∀ node ∈ records.nodes, records.Anchored node

/-- What stays of a node: its tenant, its owner once it has one, and that it was
revoked. -/
structure Node.Continues (old new : Node) : Prop where
  id : new.id = old.id
  tenant : new.tenantId = old.tenantId
  owner : ∀ owner ∈ old.ownerPersonId, new.ownerPersonId = some owner
  revoked : old.revokedAt.isSome = true → new.revokedAt.isSome = true

theorem Node.Continues.refl (node : Node) : node.Continues node :=
  ⟨rfl, rfl, fun _ owned => owned, fun revoked => revoked⟩

theorem Node.Continues.trans {first second third : Node} (one : first.Continues second)
    (two : second.Continues third) : first.Continues third where
  id := two.id.trans one.id
  tenant := two.tenant.trans one.tenant
  owner := fun owner owned => two.owner owner (one.owner owner owned)
  revoked := fun revoked => two.revoked (one.revoked revoked)

/-- COALESCE gives an owner only to a node that has none. -/
theorem Node.continues_owned (node : Node) (hash : TokenHash) (owner : Option PersonId) :
    node.Continues { node with
      nodeTokenHash := hash
      ownerPersonId := node.ownerPersonId <|> owner } where
  id := rfl
  tenant := rfl
  owner := by
    intro recorded owned
    rw [Option.mem_def.mp owned]
    rfl
  revoked := fun revoked => revoked

/-- How the rows look once other calls have run: an identifier stays with the
CA it was drawn for, nodes stay what they are, and a tenant that signs goes on
signing. -/
structure Later (before after : Records) : Prop where
  drawn : before.drawn ⊆ after.drawn
  cas : ∀ ca ∈ after.tenantCas, ca.id ∉ before.drawn ∨
    ∃ old ∈ before.tenantCas, old.id = ca.id ∧ old.tenantId = ca.tenantId ∧
      old.certPem = ca.certPem
  nodes : ∀ node ∈ before.nodes, ∃ same ∈ after.nodes, node.Continues same
  led : ∀ tenant, before.Led tenant → after.Led tenant

theorem Later.refl (records : Records) : Later records records where
  drawn := List.Subset.refl _
  cas := fun ca member => .inr ⟨ca, member, rfl, rfl, rfl⟩
  nodes := fun node member => ⟨node, member, .refl node⟩
  led := fun _ led => led

theorem Later.trans {first second third : Records} (one : Later first second)
    (two : Later second third) : Later first third where
  drawn := List.Subset.trans one.drawn two.drawn
  cas := by
    intro ca member
    rcases two.cas ca member with new | ⟨old, oldMember, sameId, sameTenant, sameCert⟩
    · exact .inl fun drawn => new (one.drawn drawn)
    · rcases one.cas old oldMember with new | ⟨oldest, oldestMember, id, tenant, cert⟩
      · exact .inl (sameId ▸ new)
      · exact .inr ⟨oldest, oldestMember, id.trans sameId, tenant.trans sameTenant,
          cert.trans sameCert⟩
  nodes := by
    intro node member
    obtain ⟨same, sameMember, continues⟩ := one.nodes node member
    obtain ⟨last, lastMember, further⟩ := two.nodes same sameMember
    exact ⟨last, lastMember, continues.trans further⟩
  led := fun tenant led => two.led tenant (one.led tenant led)

/-- With unique identifiers a CA is found by its own. -/
theorem Trusting.ca_unique (trusting : Trusting records)
    {first second : TenantCa} (one : first ∈ records.tenantCas)
    (two : second ∈ records.tenantCas) (same : first.id = second.id) : first = second :=
  List.inj_on_of_nodup_map trusting.consistent.caIds one two same

theorem Trusting.node_unique (trusting : Trusting records)
    {first second : Node} (one : first ∈ records.nodes) (two : second ∈ records.nodes)
    (same : first.id = second.id) : first = second :=
  List.inj_on_of_nodup_map trusting.consistent.nodeIds one two same

end Trust

variable {records after : Records} {tenant : TenantId}

section Statements

/-- What a statement has to be asked with: a CA is inserted with its own key
and beside a signer or as one, and a leaf is recorded under the CA that signed
it, for a node of that CA's tenant. -/
def Fair (records : Records) : Statement → Prop
  | .insertCa tenant state certPem keyEnc _ _ =>
      keyEnc.key = certPem.key ∧ (state = .active ∨ records.Led tenant)
  | .recordIssuedLeaf id leaf =>
      ∀ node ∈ records.nodes, node.id = id → ∀ ca ∈ records.tenantCas, ca.id = leaf.caId →
        ca.tenantId = node.tenantId ∧ ca.certPem.key = leaf.certPem.signer
  | _ => True

/-- Trust is a matter of the nodes, the CAs and the numbers drawn. -/
theorem Trusting.of_same {before after : Records} (trusting : Trusting before)
    (nodes : after.nodes = before.nodes) (cas : after.tenantCas = before.tenantCas)
    (drawn : before.drawn ⊆ after.drawn) : Trusting after ∧ Later before after := by
  have consistent : after.Consistent := by
    obtain ⟨nodeIds, nodeNames, nodeTokens, nodeCas, caIds, oneActive⟩ := trusting.consistent
    constructor
    all_goals simpa only [nodes, cas]
  have led (tenant : TenantId) : before.Led tenant → after.Led tenant := by
    simp only [Records.Led, cas, imp_self]
  refine ⟨⟨consistent, ?_, ?_, ?_, ?_⟩, ⟨drawn, ?_, ?_, led⟩⟩
  · exact cas ▸ trusting.sealedKeys
  · intro ca member
    exact drawn (trusting.drawn ca (cas ▸ member))
  · intro ca member
    exact led _ (trusting.led ca (cas ▸ member))
  · intro node member
    simp only [Records.Anchored, cas]
    exact trusting.anchored node (nodes ▸ member)
  · intro ca member
    exact .inr ⟨ca, cas ▸ member, rfl, rfl, rfl⟩
  · intro node member
    exact ⟨node, nodes ▸ member, .refl node⟩

/-- A write of nodes keeps trust when the nodes continue and the leaves it
records are anchored. -/
theorem Trusting.of_nodes {before after : Records} (trusting : Trusting before)
    (consistent : after.Consistent) (cas : after.tenantCas = before.tenantCas)
    (drawn : after.drawn = before.drawn)
    (stays : ∀ node ∈ before.nodes, ∃ same ∈ after.nodes, node.Continues same)
    (anchored : ∀ node ∈ after.nodes, before.Anchored node) :
    Trusting after ∧ Later before after := by
  have led (tenant : TenantId) : before.Led tenant → after.Led tenant := by
    simp only [Records.Led, cas, imp_self]
  refine ⟨⟨consistent, cas ▸ trusting.sealedKeys, ?_, ?_, ?_⟩, ⟨?_, ?_, stays, led⟩⟩
  · rw [cas, drawn]
    exact trusting.drawn
  · intro ca member
    exact led _ (trusting.led ca (cas ▸ member))
  · intro node member
    simpa only [Records.Anchored, cas] using anchored node member
  · rw [drawn]
    exact List.Subset.refl _
  · intro ca member
    exact .inr ⟨ca, cas ▸ member, rfl, rfl, rfl⟩

/-- A change of the CAs keeps trust when it keeps who they are, the signers it
finds, and every CA that a leaf names. -/
theorem Trusting.of_cas {before after : Records} (trusting : Trusting before)
    (consistent : after.Consistent) (nodes : after.nodes = before.nodes)
    (drawn : after.drawn = before.drawn)
    (same : ∀ ca ∈ after.tenantCas, ∃ old ∈ before.tenantCas, old.id = ca.id ∧
      old.tenantId = ca.tenantId ∧ old.certPem = ca.certPem ∧ old.keyEnc = ca.keyEnc)
    (led : ∀ tenant, before.Led tenant → after.Led tenant) :
    Trusting after ∧ Later before after := by
  refine ⟨⟨consistent, ?_, ?_, ?_, ?_⟩, ⟨?_, ?_, ?_, led⟩⟩
  · intro ca member
    obtain ⟨old, oldMember, -, -, cert, key⟩ := same ca member
    rw [← cert, ← key]
    exact trusting.sealedKeys old oldMember
  · intro ca member
    obtain ⟨old, oldMember, id, -, -, -⟩ := same ca member
    rw [drawn, ← id]
    exact trusting.drawn old oldMember
  · intro ca member
    obtain ⟨old, oldMember, -, tenant, -, -⟩ := same ca member
    rw [← tenant]
    exact led _ (trusting.led old oldMember)
  · -- The foreign key finds the CA again, and its identifier says it is the same.
    intro node member cert hasCert
    obtain ⟨ca, caMember, named, tenant, key⟩ :=
      trusting.anchored node (nodes ▸ member) cert hasCert
    obtain ⟨kept, keptMember, keptId⟩ :=
      List.mem_map.mp (consistent.nodeCas node member ca.id named)
    obtain ⟨old, oldMember, id, oldTenant, oldCert, -⟩ := same kept keptMember
    have isCa : old = ca := trusting.ca_unique oldMember caMember (id.trans keptId)
    subst isCa
    exact ⟨kept, keptMember, by rw [named, keptId], oldTenant ▸ tenant, oldCert ▸ key⟩
  · rw [drawn]
    exact List.Subset.refl _
  · intro ca member
    obtain ⟨old, oldMember, id, tenant, cert, -⟩ := same ca member
    exact .inr ⟨old, oldMember, id, tenant, cert⟩
  · intro node member
    exact ⟨node, nodes ▸ member, .refl node⟩

/-- A write is made or it is not. -/
theorem Records.write_cases {before after result : Records} {Answer : Type} {answer : Answer}
    {reply : Except ApiError Answer} (wrote : before.write after answer = (result, reply)) :
    (after.Consistent ∧ result = after ∧ reply = .ok answer) ∨
      (result = before ∧ reply = .error .database) := by
  unfold Records.write at wrote
  split at wrote
  case isTrue consistent =>
    cases wrote
    exact .inl ⟨consistent, rfl, rfl⟩
  case isFalse =>
    cases wrote
    exact .inr ⟨rfl, rfl⟩

theorem Trusting.unchanged (trusting : Trusting records) :
    Trusting records ∧ Later records records :=
  ⟨trusting, Later.refl records⟩

/-- Changing one node, by its identifier, leaves every node to continue. -/
theorem update_stays {nodes : List Node} {id : NodeId} {change : Node → Node}
    (keeps : ∀ node : Node, node.Continues (change node)) :
    ∀ node ∈ nodes, ∃ same ∈ Table.update Node.id id change nodes, node.Continues same := by
  intro node member
  refine ⟨_, List.mem_map_of_mem member, ?_⟩
  split
  case isTrue => exact keeps node
  case isFalse => exact .refl node

/-- The upsert of a machine leaves every recorded leaf as it was. -/
theorem Trusting.upsert (trusting : Trusting records) {fresh : Node} {change : Node → Node}
    {reply : Except ApiError NodeId} (ran : records.upsert fresh change = (after, reply))
    (bare : fresh.certPem = none) (keeps : ∀ node : Node, node.Continues (change node))
    (leaves : ∀ node, (change node).certPem = node.certPem ∧ (change node).caId = node.caId) :
    Trusting after ∧ Later records after := by
  unfold Records.upsert at ran
  split at ran
  case h_1 existing found =>
    rcases Records.write_cases ran with ⟨consistent, rfl, -⟩ | ⟨rfl, -⟩
    · refine trusting.of_nodes consistent rfl rfl (update_stays keeps) ?_
      intro node member
      obtain ⟨old, oldMember, rfl⟩ := List.mem_map.mp member
      have anchored := trusting.anchored old oldMember
      split
      case isFalse => exact anchored
      case isTrue =>
        simp only [Records.Anchored, (leaves old).1, (leaves old).2, (keeps old).tenant]
        exact anchored
    · exact trusting.unchanged
  case h_2 =>
    rcases Records.write_cases ran with ⟨consistent, rfl, -⟩ | ⟨rfl, -⟩
    · refine trusting.of_nodes consistent rfl rfl ?_ ?_
      · intro node member
        exact ⟨node, List.mem_append_left _ member, .refl node⟩
      · intro node member
        rcases List.mem_append.mp member with earlier | new
        · exact trusting.anchored node earlier
        · rw [List.mem_singleton] at new
          subst new
          intro cert hasCert
          rw [bare] at hasCert
          cases hasCert
    · exact trusting.unchanged

/-- A leaf recorded under the CA that signed it is anchored. -/
theorem Trusting.recordIssuedLeaf (trusting : Trusting records)
    {id : NodeId} {leaf : IssuedLeaf} {reply : Except ApiError Unit} {now : Instant}
    {drawn : Nat} (fair : Fair records (.recordIssuedLeaf id leaf))
    (ran : records.answer now drawn (.recordIssuedLeaf id leaf) = (after, reply)) :
    Trusting after ∧ Later records after := by
  rcases Records.write_cases ran with ⟨consistent, rfl, -⟩ | ⟨rfl, -⟩
  · refine trusting.of_nodes consistent rfl rfl
      (update_stays fun _ => ⟨rfl, rfl, fun _ owned => owned, fun revoked => revoked⟩) ?_
    intro node member
    have named := consistent.nodeCas node member
    obtain ⟨old, oldMember, rfl⟩ := List.mem_map.mp member
    by_cases hit : old.id = id
    · rw [if_pos hit] at named ⊢
      obtain ⟨ca, caMember, caId⟩ := List.mem_map.mp (named leaf.caId rfl)
      obtain ⟨tenant, key⟩ := fair old oldMember hit ca caMember caId
      intro cert hasCert
      cases hasCert
      exact ⟨ca, caMember, congrArg some caId.symm, tenant, key⟩
    · rw [if_neg hit]
      exact trusting.anchored old oldMember
  · exact trusting.unchanged

/-- The rows with one more number drawn. -/
theorem Trusting.draws (trusting : Trusting records) (drawn : Nat) :
    Trusting { records with drawn := records.drawn ++ [drawn] } ∧
      Later records { records with drawn := records.drawn ++ [drawn] } :=
  trusting.of_same rfl rfl (List.subset_append_left _ _)

/-- A CA inserted beside a signer, or as one, leaves its tenant one. -/
theorem Trusting.insertCa (trusting : Trusting records) {state : CaState} {certPem : CaCertificate}
    {keyEnc : SealedKey} {fingerprint : Fingerprint} {notAfter now : Instant} {drawn : Nat}
    {reply : Except ApiError TenantCa}
    (fair : Fair records (.insertCa tenant state certPem keyEnc fingerprint notAfter))
    (undrawn : drawn ∉ records.drawn)
    (ran : Records.answer { records with drawn := records.drawn ++ [drawn] } now drawn
      (.insertCa tenant state certPem keyEnc fingerprint notAfter) = (after, reply)) :
    Trusting after ∧ Later records after := by
  obtain ⟨drewTrusting, drew⟩ := trusting.draws drawn
  rcases Records.write_cases ran with ⟨consistent, rfl, -⟩ | ⟨rfl, -⟩
  case inr => exact ⟨drewTrusting, drew⟩
  let row : TenantCa := ⟨drawn, tenant, state, certPem, keyEnc, fingerprint, notAfter, now⟩
  have members {ca : TenantCa} (member : ca ∈ records.tenantCas ++ [row]) :
      ca ∈ records.tenantCas ∨ ca = row := by
    simpa only [List.mem_append, List.mem_singleton] using member
  have grows (other : TenantId) (led : records.Led other) :
      ∃ ca ∈ records.tenantCas ++ [row], ca.tenantId = other ∧ ca.state = .active := by
    obtain ⟨ca, member, rest⟩ := led
    exact ⟨ca, List.mem_append_left _ member, rest⟩
  refine ⟨⟨consistent, ?_, ?_, ?_, ?_⟩, ⟨drew.drawn, ?_, drew.nodes, grows⟩⟩
  · intro ca member
    rcases members member with earlier | rfl
    · exact trusting.sealedKeys ca earlier
    · exact fair.1
  · intro ca member
    rcases members member with earlier | rfl
    · exact drew.drawn (trusting.drawn ca earlier)
    · exact List.mem_append_right _ (List.mem_singleton_self _)
  · intro ca member
    rcases members member with earlier | rfl
    · exact grows _ (trusting.led ca earlier)
    · rcases fair.2 with isActive | led
      · exact ⟨row, List.mem_append_right _ (List.mem_singleton_self _), rfl, isActive⟩
      · exact grows _ led
  · intro node member cert hasCert
    obtain ⟨ca, caMember, rest⟩ := trusting.anchored node member cert hasCert
    exact ⟨ca, List.mem_append_left _ caMember, rest⟩
  · intro ca member
    rcases members member with earlier | rfl
    · exact .inr ⟨ca, earlier, rfl, rfl, rfl⟩
    · exact .inl undrawn

/-- A promotion changes states only, and where it changes them the tenant has a
new signer. -/
theorem Trusting.promoteCa (trusting : Trusting records) {ca : CaId} {reply : Except ApiError Bool}
    (ran : records.promoteCa tenant ca = (after, reply)) :
    Trusting after ∧ Later records after := by
  unfold Records.promoteCa at ran
  dsimp only at ran
  split at ran
  case isFalse =>
    cases ran
    exact trusting.unchanged
  case isTrue staged =>
    rcases Records.write_cases ran with ⟨consistent, rfl, -⟩ | ⟨rfl, -⟩
    case inr => exact trusting.unchanged
    apply trusting.of_cas consistent rfl rfl
    · intro row member
      obtain ⟨demoted, demotedMember, rfl⟩ := List.mem_map.mp member
      obtain ⟨old, oldMember, rfl⟩ := List.mem_map.mp demotedMember
      refine ⟨old, oldMember, ?_⟩
      split
      all_goals split
      all_goals exact ⟨rfl, rfl, rfl, rfl⟩
    · intro other led
      by_cases same : other = tenant
      · -- The staged CA signs now.
        subst same
        obtain ⟨row, member, isStaged⟩ := List.any_eq_true.mp staged
        refine ⟨_, List.mem_map_of_mem (List.mem_map_of_mem member), ?_⟩
        simp only [Bool.and_eq_true, decide_eq_true_eq] at isStaged
        obtain ⟨⟨isCa, ofTenant⟩, wasStaged⟩ := isStaged
        have notActive : ¬ (row.tenantId = other ∧ row.state = .active) := by
          rw [wasStaged]
          simp
        rw [if_neg notActive, if_pos (by simp [isCa, ofTenant, wasStaged])]
        exact ⟨ofTenant, rfl⟩
      · -- Another tenant's signer stays.
        obtain ⟨row, member, ofOther, isActive⟩ := led
        refine ⟨_, List.mem_map_of_mem (List.mem_map_of_mem member), ?_⟩
        have elsewhere : row.tenantId ≠ tenant := ofOther ▸ same
        have notDemoted : ¬ (row.tenantId = tenant ∧ row.state = .active) :=
          fun both => elsewhere both.1
        rw [if_neg notDemoted, if_neg (by simp [elsewhere])]
        exact ⟨ofOther, isActive⟩

/-- No signer is retired. -/
theorem Trusting.retireCa (trusting : Trusting records) {ca : CaId} {reply : Except ApiError Nat}
    (ran : records.retireCa ca tenant = (after, reply)) :
    Trusting after ∧ Later records after := by
  rcases Records.write_cases ran with ⟨consistent, rfl, -⟩ | ⟨rfl, -⟩
  case inr => exact trusting.unchanged
  apply trusting.of_cas consistent rfl rfl
  · intro row member
    exact ⟨row, (List.mem_filter.mp member).1, rfl, rfl, rfl, rfl⟩
  · intro other led
    obtain ⟨row, member, ofOther, isActive⟩ := led
    exact ⟨row, List.mem_filter.mpr ⟨member, by simp [isActive]⟩, ofOther, isActive⟩

/-- Cutting a machine off leaves its leaf where it is. -/
theorem Trusting.revoke (trusting : Trusting records) {id : NodeId} {now : Instant} {drawn : Nat}
    {reply : Except ApiError Nat}
    (ran : records.answer now drawn (.revoke id tenant) = (after, reply)) :
    Trusting after ∧ Later records after := by
  rcases Records.write_cases ran with ⟨consistent, rfl, -⟩ | ⟨rfl, -⟩
  case inr => exact trusting.unchanged
  apply trusting.of_nodes consistent rfl rfl
  · intro node member
    refine ⟨_, List.mem_map_of_mem member, ?_⟩
    split
    case isTrue => exact ⟨rfl, rfl, fun _ owned => owned, fun _ => rfl⟩
    case isFalse => exact .refl node
  · intro node member
    obtain ⟨old, oldMember, rfl⟩ := List.mem_map.mp member
    have anchored := trusting.anchored old oldMember
    split
    all_goals exact anchored

end Statements

variable {request : Statement}

section Steps

variable {reply : Except ApiError request.Value} {choice : Records.Choice}

/-- Every statement asked fairly keeps trust. -/
theorem answer_trusting (trusting : Trusting records) (fair : Fair records request)
    (undrawn : request.draws = true → choice.drawn ∉ records.drawn)
    (ran : (records.draw choice request).answer choice.now choice.drawn request =
      (after, reply)) : Trusting after ∧ Later records after := by
  cases request with
  | insertCa => exact trusting.insertCa fair (undrawn rfl) ran
  | recordIssuedLeaf => exact trusting.recordIssuedLeaf fair ran
  | promote => exact trusting.promoteCa ran
  | retire => exact trusting.retireCa ran
  | revoke => exact trusting.revoke ran
  | upsertEnrolling =>
      simp only [Records.answer] at ran
      exact trusting.upsert ran rfl (fun node => node.continues_owned _ _) fun _ => ⟨rfl, rfl⟩
  | upsertJoining =>
      obtain ⟨drewTrusting, drew⟩ := trusting.draws choice.drawn
      simp only [Records.answer] at ran
      obtain ⟨stillTrusting, moved⟩ :=
        drewTrusting.upsert ran rfl (fun node => node.continues_owned _ _) fun _ => ⟨rfl, rfl⟩
      exact ⟨stillTrusting, drew.trans moved⟩
  | issueJoinToken =>
      simp only [Records.draw, Statement.draws, Records.answer, Bool.false_eq_true,
        if_false] at ran
      split at ran
      all_goals
        cases ran
        exact trusting.of_same rfl rfl (List.Subset.refl _)
  | draw =>
      cases ran
      exact trusting.draws choice.drawn
  | _ =>
      cases ran
      exact trusting.of_same rfl rfl (List.Subset.refl _)

/-- A statement runs, or it fails with an effect or without one. -/
theorem Records.execute_cases (ran : records.execute choice request = some (after, reply)) :
    (request.draws = true → choice.drawn ∉ records.drawn) ∧
      ((choice.outcome = .runs ∧
          (records.draw choice request).answer choice.now choice.drawn request =
            (after, reply)) ∨
        (choice.outcome ≠ .runs ∧ reply = .error .database ∧
          (after = records ∨ ∃ told,
            (records.draw choice request).answer choice.now choice.drawn request =
              (after, told)))) := by
  unfold Records.execute at ran
  split at ran
  case isTrue => cases ran
  case isFalse undrawn =>
    refine ⟨fun draws drawn => undrawn ⟨draws, drawn⟩, ?_⟩
    rcases answered : (records.draw choice request).answer choice.now choice.drawn request
      with ⟨store, told⟩
    rw [answered] at ran
    dsimp only at ran
    split at ran
    case h_1 isRuns =>
      cases ran
      exact .inl ⟨isRuns, rfl⟩
    case h_2 fails =>
      split at ran
      case isTrue => cases ran
      case isFalse =>
        cases ran
        exact .inr ⟨by simp [fails], rfl, .inl rfl⟩
    case h_3 lost =>
      split at ran
      case isTrue => cases ran
      case isFalse =>
        cases ran
        exact .inr ⟨by simp [lost], rfl, .inr ⟨told, rfl⟩⟩

/-- A statement that succeeds has run. -/
theorem Records.execute_ok {value : request.Value}
    (ran : records.execute choice request = some (after, .ok value)) :
    (records.draw choice request).answer choice.now choice.drawn request =
      (after, .ok value) := by
  rcases (Records.execute_cases ran).2 with ⟨-, answered⟩ | ⟨-, isError, -⟩
  · exact answered
  · cases isError

/-- Every statement asked fairly keeps trust, whether it runs, fails or loses
its answer. -/
theorem execute_trusting (trusting : Trusting records) (fair : Fair records request)
    (ran : records.execute choice request = some (after, reply)) :
    Trusting after ∧ Later records after := by
  obtain ⟨undrawn, ended⟩ := Records.execute_cases ran
  rcases ended with ⟨-, answered⟩ | ⟨-, -, rfl | ⟨told, answered⟩⟩
  · exact answer_trusting trusting fair undrawn answered
  · exact trusting.unchanged
  · exact answer_trusting trusting fair undrawn answered

end Steps

section Handlers

/-- What the calls of the control plane owe each other for the rotation. -/
def rotation : Contract Records Records.Choice Empty Request
    (fun request : Statement => Except ApiError request.Value) (Except ApiError Answer) where
  invariant := Trusting
  later := Later
  permitted _ _ _ _ := True
  allowed _ _ := True
  owed _ := Fair
  promise _ _ _ _ := True
  later_refl := Later.refl
  later_trans _ _ _ := Later.trans

/-- Whatever runs in between, a handler asks fairly, and what it ends with has
the fact. -/
def Yields {First : Type} (fact : First → Records → Prop) (seen : Records)
    (program : Handler First) : Prop :=
  Trusting seen → ∀ past, rotation.Keeps controlPlane
    (fun _ result store => ∀ value, result = .ok value → fact value store) past seen
    program.run

variable {First Second : Type} {fact : First → Records → Prop}
  {second : Second → Records → Prop} {seen : Records} {program : Handler First}

theorem yields_bind {next : First → Handler Second} (yields : Yields fact seen program)
    (goesOn : ∀ value store, Later seen store → fact value store →
      Yields second store (next value)) :
    Yields second seen (program >>= next) := by
  intro trusting past
  apply Contract.keeps_bind
  apply ((yields trusting past).onward trusting).mono
  intro past result store ⟨waited, stillTrusting, told⟩
  cases result with
  | error failure => exact nofun
  | ok value => exact goesOn value store waited (told value rfl) stillTrusting past

/-- A statement that is asked fairly tells what its execution tells. -/
theorem yields_perform {fact : request.Value → Records → Prop}
    (fair : ∀ now, Later seen now → Trusting now → Fair now request)
    (told : ∀ now choice after value, Later seen now → Trusting now → Later now after →
      (Records.draw now choice request).answer choice.now choice.drawn request =
        (after, .ok value) → fact value after) :
    Yields fact seen (perform request) := by
  intro _ past now waited trusting
  refine ⟨fair now waited trusting, ?_⟩
  intro choice after reply _ ran
  obtain ⟨stillTrusting, moved⟩ :=
    execute_trusting trusting (fair now waited trusting) ran
  refine ⟨stillTrusting, moved, ?_⟩
  intro value isValue
  subst isValue
  exact told now choice after value waited trusting moved (Records.execute_ok ran)

/-- A statement that asks for nothing and whose reply does not matter. -/
theorem yields_any (fair : ∀ now, Fair now request) :
    Yields (fun _ _ => True) seen (perform request) :=
  yields_perform (fun now _ _ => fair now) fun _ _ _ _ _ _ _ _ => trivial

theorem yields_attempt (fair : ∀ now, Fair now request) :
    Yields (fun _ _ => True) seen (attempt request) := by
  intro _ past now waited trusting
  refine ⟨fair now, ?_⟩
  intro choice after reply _ ran
  obtain ⟨stillTrusting, moved⟩ := execute_trusting trusting (fair now) ran
  exact ⟨stillTrusting, moved, fun _ _ => trivial⟩

theorem yields_pure {value : First} (told : fact value seen) :
    Yields fact seen (pure value : Handler First) := by
  intro _ past result isValue
  cases isValue
  exact told

theorem yields_throw {failure : ApiError} :
    Yields fact seen (throw failure : Handler First) := by
  intro _ past value isValue
  cases isValue

theorem yields_ensure {condition : Bool} {failure : ApiError} :
    Yields (fun _ _ => condition = true) seen
      (Program.ensure condition failure : Handler PUnit) := by
  cases condition with
  | false => exact yields_throw
  | true => exact yields_pure rfl

theorem Yields.imp {weak : First → Records → Prop} (yields : Yields fact seen program)
    (weaken : ∀ value store, fact value store → weak value store) : Yields weak seen program := by
  intro trusting past
  apply (yields trusting past).mono
  intro past result store told value isValue
  exact weaken value store (told value isValue)

/-- A CA that signs for a tenant, as far as a call that has loaded it can know
later: no other CA comes to have its identifier. -/
def Signs (tenant : TenantId) (id : CaId) (key : KeyPair) (records : Records) : Prop :=
  id ∈ records.drawn ∧ ∀ row ∈ records.tenantCas, row.id = id →
    row.tenantId = tenant ∧ row.certPem.key = key

theorem Signs.later {id : CaId} {key : KeyPair} {now : Records}
    (signs : Signs tenant id key seen) (waited : Later seen now) :
    Signs tenant id key now := by
  refine ⟨waited.drawn signs.1, ?_⟩
  intro row member sameId
  rcases waited.cas row member with new | ⟨old, oldMember, oldId, sameTenant, cert⟩
  · exact absurd (sameId ▸ signs.1) new
  · rw [← sameTenant, ← cert]
    exact signs.2 old oldMember (oldId.trans sameId)

/-- The node is a machine of the tenant. -/
def Machine (tenant : TenantId) (id : NodeId) (records : Records) : Prop :=
  ∃ node ∈ records.nodes, node.id = id ∧ node.tenantId = tenant

theorem Machine.later {id : NodeId} {now : Records}
    (machine : Machine tenant id seen) (waited : Later seen now) :
    Machine tenant id now := by
  obtain ⟨node, member, sameId, sameTenant⟩ := machine
  obtain ⟨same, sameMember, continues⟩ := waited.nodes node member
  exact ⟨same, sameMember, continues.id.trans sameId, continues.tenant.trans sameTenant⟩

theorem loadSigner_yields (tenant : TenantId) :
    Yields (fun signer => Signs tenant signer.1.id signer.2) seen (loadSigner tenant) := by
  have loaded : Yields (fun signer store => ∀ ca ∈ signer,
      Signs tenant ca.id ca.keyEnc.key store) seen (perform (.activeSigner tenant)) := by
    apply yields_perform
    · intro now _ _
      trivial
    · intro now choice after signer _ trusting _ answered ca found
      cases answered
      have member := List.mem_of_find?_eq_some found
      have signs := List.find?_some found
      simp only [Bool.and_eq_true, decide_eq_true_eq] at signs
      refine ⟨trusting.drawn ca member, ?_⟩
      intro row rowMember sameId
      rw [trusting.ca_unique rowMember member sameId]
      exact ⟨signs.1, (trusting.sealedKeys ca member).symm⟩
  apply yields_bind loaded
  intro signer store _ told
  cases signer with
  | none => exact yields_throw
  | some ca =>
      apply yields_bind yields_ensure
      intro _ later waited _
      have decrypted : Yields (fun key _ => key = ca.keyEnc.key) later
          (perform (.decrypt ca.keyEnc)) := by
        apply yields_perform
        · intro now _ _
          trivial
        · intro now choice after value _ _ _ answered
          cases answered
          rfl
      apply yields_bind decrypted
      intro value last further isKey
      subst isKey
      exact yields_pure ((told ca rfl).later (waited.trans further))

theorem signNodeCsr_yields (tenant : TenantId) (node : NodeId) (csr : Option KeyPair) :
    Yields (fun leaf => Signs tenant leaf.caId leaf.certPem.signer) seen
      (signNodeCsr tenant node csr) := by
  apply yields_bind (loadSigner_yields tenant)
  intro signer store _ signs
  cases csr with
  | none => exact yields_throw
  | some publicKey =>
      apply yields_bind (yields_any (by intro _; trivial))
      intro now later waited _
      exact yields_pure (signs.later waited)

/-- A leaf is issued only to a machine of the tenant whose CA signs it. -/
theorem issue_yields {node : NodeId} {csr : Option KeyPair} (machine : Machine tenant node seen) :
    Yields (fun _ _ => True) seen (issue tenant node csr) := by
  apply yields_bind (signNodeCsr_yields tenant node csr)
  intro leaf store signed signs
  have records : Yields (fun _ _ => True) store (perform (.recordIssuedLeaf node leaf)) := by
    apply yields_perform
    · intro now waited trusting row member sameId ca caMember caId
      obtain ⟨known, knownMember, knownId, ofTenant⟩ := machine.later (signed.trans waited)
      have isKnown : row = known :=
        trusting.node_unique member knownMember (sameId.trans knownId.symm)
      rw [isKnown, ofTenant]
      exact (signs.later waited).2 ca caMember caId
    · intro now choice after value _ _ _ _
      trivial
  apply yields_bind records
  intro _ store _ _
  apply yields_bind (yields_any (by intro _; trivial))
  intro bundle store _ _
  apply yields_bind (yields_any (by intro _; trivial))
  intro slug store _ _
  exact yields_pure trivial

/-- A CA is minted as the signer, or beside one. -/
theorem generate_yields {makeActive : Bool} (beside : makeActive = true ∨ seen.Led tenant) :
    Yields (fun _ _ => True) seen (generate tenant makeActive) := by
  apply yields_bind (yields_any (by intro _; trivial))
  intro clock store one _
  apply yields_bind (yields_any (by intro _; trivial))
  intro key store two _
  have encrypted : Yields (fun keyEnc _ => keyEnc.key = key) store
      (perform (.encrypt key)) := by
    apply yields_perform
    · intro now _ _
      trivial
    · intro now choice after value _ _ _ answered
      cases answered
      rfl
  apply yields_bind encrypted
  intro keyEnc store three isKey
  apply yields_perform
  · intro now waited _
    refine ⟨isKey, ?_⟩
    rcases beside with isFirst | led
    · rw [isFirst]
      exact .inl rfl
    · exact .inr ((((one.trans two).trans three).trans waited).led tenant led)
  · intro now choice after value _ _ _ _
    trivial

/-- A bundle that is not empty has a signer. -/
theorem bundle_yields (tenant : TenantId) :
    Yields (fun bundle store => bundle.isEmpty = true ∨ store.Led tenant) seen
      (perform (.bundle tenant)) := by
  apply yields_perform
  · intro now _ _
    trivial
  · intro now choice after bundle _ trusting _ answered
    cases answered
    change (now.trustBundle tenant).isEmpty = true ∨ now.Led tenant
    cases listed : now.trustBundle tenant with
    | nil => exact .inl rfl
    | cons ca rest =>
        have member : ca ∈ now.trustBundle tenant := listed ▸ List.mem_cons_self
        rw [Records.trustBundle, List.mem_insertionSort, List.mem_filter,
          decide_eq_true_eq] at member
        obtain ⟨inTable, ofTenant⟩ := member
        exact .inr (ofTenant ▸ trusting.led ca inTable)

theorem stageFor_yields (tenant : TenantId) :
    Yields (fun _ _ => True) seen (stageFor tenant) := by
  apply yields_bind (bundle_yields tenant)
  intro bundle store _ beside
  exact generate_yields beside

theorem ensureCa_yields (tenant : TenantId) :
    Yields (fun _ _ => True) seen (ensureCa tenant) := by
  apply yields_bind (bundle_yields tenant)
  intro bundle store _ _
  split
  case isTrue =>
    apply yields_bind (generate_yields (.inl rfl))
    intro ca store _ _
    exact yields_pure trivial
  case isFalse => exact yields_pure trivial

theorem ownerPerson_yields (tenant : TenantId) (minter : Option UserId) :
    Yields (fun _ _ => True) seen (ownerPerson tenant minter) := by
  have minterYields : Yields (fun _ _ => True) seen (minterPerson tenant minter) := by
    cases minter with
    | none => exact yields_pure trivial
    | some user =>
        apply yields_bind (yields_attempt (by intro _; trivial))
        intro reply store _ _
        cases reply with
        | ok | error => exact yields_pure trivial
  apply yields_bind minterYields
  intro person store _ _
  cases person with
  | some person => exact yields_pure trivial
  | none =>
      apply yields_bind (yields_attempt (by intro _; trivial))
      intro reply store _ _
      cases reply with
      | ok | error => exact yields_pure trivial

theorem spend_yields (token : Token) : Yields (fun _ _ => True) seen (spend token) := by
  apply yields_bind (yields_any (by intro _; trivial))
  intro spent store _ _
  cases spent with
  | none => exact yields_throw
  | some spent => exact yields_pure trivial

/-- The upsert answers with a machine of the tenant it was given. -/
theorem upsertEnrolling_yields {id : NodeId} {name : String}
    {hash : TokenHash} {owner : Option PersonId} :
    Yields (fun node store => Machine tenant node store) seen
      (perform (.upsertEnrolling id tenant name hash owner)) := by
  apply yields_perform
  · intro now _ _
    trivial
  · intro now choice after node _ trusting _ answered
    simp only [Records.answer, Records.draw, Statement.draws, Bool.false_eq_true,
      if_false, Records.upsert] at answered
    split at answered
    case h_1 existing found =>
      rcases Records.write_cases answered with ⟨-, rfl, isNode⟩ | ⟨-, isError⟩
      · cases isNode
        have named := List.find?_some found
        simp only [Bool.and_eq_true, decide_eq_true_eq] at named
        refine ⟨_, List.mem_map_of_mem (List.mem_of_find?_eq_some found), ?_⟩
        rw [if_pos rfl]
        exact ⟨rfl, named.1⟩
      · cases isError
    case h_2 =>
      rcases Records.write_cases answered with ⟨-, rfl, isNode⟩ | ⟨-, isError⟩
      · cases isNode
        exact ⟨_, List.mem_append_right _ (List.mem_singleton_self _), rfl, rfl⟩
      · cases isError

theorem enroll_yields (request : EnrollRequest) :
    Yields (fun _ _ => True) seen (enroll request) := by
  apply yields_bind (spend_yields request.token)
  intro spent store _ _
  apply yields_bind (ownerPerson_yields spent.tenant spent.createdBy)
  intro owner store _ _
  apply yields_bind (ensureCa_yields spent.tenant)
  intro _ store _ _
  apply yields_bind (yields_any (by intro _; trivial))
  intro id store _ _
  apply yields_bind upsertEnrolling_yields
  intro node store _ machine
  exact issue_yields machine

theorem join_yields (request : JoinRequest) :
    Yields (fun _ _ => True) seen (join request) := by
  apply yields_bind (spend_yields request.token)
  intro spent store _ _
  apply yields_bind (ownerPerson_yields spent.tenant spent.createdBy)
  intro owner store _ _
  apply yields_bind (yields_any (by intro _; trivial))
  intro drawn store _ _
  apply yields_bind (yields_any (by intro _; trivial))
  intro node store _ _
  apply yields_bind (yields_any (by intro _; trivial))
  intro slug store _ _
  exact yields_pure trivial

theorem renew_yields (node : NodeId) (csr : Option KeyPair) :
    Yields (fun _ _ => True) seen (renew node csr) := by
  have found : Yields (fun identity store => ∀ known ∈ identity,
      Machine known.tenant node store) seen (perform (.certIdentity node)) := by
    apply yields_perform
    · intro now _ _
      trivial
    · intro now choice after identity _ trusting _ answered known isKnown
      cases answered
      obtain ⟨row, rowFound, rfl⟩ := Option.map_eq_some_iff.mp isKnown
      obtain ⟨member, sameId⟩ := Table.find_some rowFound
      exact ⟨row, member, sameId, rfl⟩
  apply yields_bind found
  intro identity store _ machine
  cases identity with
  | none => exact yields_throw
  | some identity =>
      apply yields_bind yields_ensure
      intro _ later waited _
      cases csr with
      | none => exact yields_throw
      | some presented =>
          dsimp only
          split
          case h_1 => exact yields_throw
          case h_2 known _ =>
            apply yields_bind yields_ensure
            intro _ last further _
            exact issue_yields ((machine identity rfl).later (waited.trans further))

theorem verifyNodeCert_yields (cert : Certificate) :
    Yields (fun _ _ => True) seen (verifyNodeCert cert) := by
  apply yields_bind (yields_any (by intro _; trivial))
  intro now store _ _
  apply yields_bind yields_ensure
  intro _ store _ _
  split
  case h_1 node tenant _ _ =>
    apply yields_bind (yields_any (by intro _; trivial))
    intro state store _ _
    cases state with
    | none => exact yields_throw
    | some state =>
        apply yields_bind yields_ensure
        intro _ store _ _
        apply yields_bind yields_ensure
        intro _ store _ _
        apply yields_bind (yields_any (by intro _; trivial))
        intro bundle store _ _
        apply yields_bind yields_ensure
        intro _ store _ _
        apply yields_bind yields_ensure
        intro _ store _ _
        exact yields_pure trivial
  all_goals exact yields_throw

theorem yields_caught {next : Except ApiError First → Handler Second}
    (yields : Yields (fun _ _ => True) seen program)
    (goesOn : ∀ result store, Later seen store → Yields second store (next result)) :
    Yields second seen (Program.caught program >>= next) := by
  intro trusting past
  apply Contract.keeps_caught
  apply ((yields trusting past).onward trusting).mono
  intro past result store ⟨waited, stillTrusting, _⟩
  exact goesOn result store waited stillTrusting past

theorem byTokenHash_yields {hash : TokenHash} {next : Option (NodeId × TenantId) → Handler Second}
    (goesOn : ∀ row store, Yields second store (next row)) :
    Yields second seen (perform (.byTokenHash hash) >>= next) :=
  yields_bind (yields_any (by intro _; trivial)) fun row store _ _ => goesOn row store

theorem nodeWs_yields (credential : Credential) :
    Yields (fun _ _ => True) seen (nodeWs credential) := by
  cases credential with
  | certificate cert =>
      apply yields_caught (verifyNodeCert_yields cert)
      intro result store _
      cases result with
      | error failure => exact yields_throw
      | ok identity => exact yields_pure trivial
  | bearer token =>
      apply byTokenHash_yields
      intro row store
      cases row with
      | none => exact yields_throw
      | some row => exact yields_pure trivial

theorem fromRequestParts_yields (credential : Credential) :
    Yields (fun _ _ => True) seen (fromRequestParts credential) := by
  have owned (identity : NodeIdentity) {store : Records} :
      Yields (fun _ _ => True) store
        (do let _ ← perform (.tenantOwnerUserId identity.tenantId); pure identity) := by
    apply yields_bind (yields_any (by intro _; trivial))
    intro _ store _ _
    exact yields_pure trivial
  cases credential with
  | certificate cert =>
      apply yields_caught (verifyNodeCert_yields cert)
      intro result store _
      cases result with
      | error failure => exact yields_throw
      | ok identity => exact owned identity
  | bearer token =>
      apply byTokenHash_yields
      intro row store
      cases row with
      | none => exact yields_throw
      | some row => exact owned ⟨row.1, row.2⟩

theorem yields_map {answer : First → Second} (yields : Yields (fun _ _ => True) seen program) :
    Yields (fun _ _ => True) seen (answer <$> program) := by
  intro trusting past
  apply Contract.Keeps.bind
  apply (yields trusting past).mono
  intro past result store _
  cases result with
  | error | ok => exact fun _ _ => trivial

theorem handle_yields (request : Request) :
    Yields (fun _ _ => True) seen (handle request) := by
  cases request with
  | createJoinToken tenant user =>
      apply yields_map
      apply yields_bind (yields_any (by intro _; trivial))
      intro drawn store _ _
      apply yields_bind (yields_any (by intro _; trivial))
      intro now store _ _
      apply yields_bind (yields_any (by intro _; trivial))
      intro _ store _ _
      exact yields_pure trivial
  | join request => exact yields_map (join_yields request)
  | enroll request => exact yields_map (enroll_yields request)
  | renew node csr => exact yields_map (renew_yields node csr)
  | stage tenant => exact yields_map (stageFor_yields tenant)
  | promote tenant ca =>
      apply yields_map
      apply yields_bind (yields_any (by intro _; trivial))
      intro promoted store _ _
      exact yields_ensure.imp fun _ _ _ => trivial
  | retire tenant ca =>
      apply yields_map
      apply yields_bind (yields_any (by intro _; trivial))
      intro live store _ _
      apply yields_bind yields_ensure
      intro _ store _ _
      apply yields_bind (yields_any (by intro _; trivial))
      intro retired store _ _
      exact yields_ensure.imp fun _ _ _ => trivial
  | revokeNode tenant node =>
      apply yields_map
      apply yields_bind (yields_any (by intro _; trivial))
      intro count store _ _
      exact yields_ensure.imp fun _ _ _ => trivial
  | nodeWs credential => exact yields_map (nodeWs_yields credential)
  | api credential => exact yields_map (fromRequestParts_yields credential)

/-- Every call of the control plane keeps what it owes the rotation. -/
theorem rotation_met : rotation.Met controlPlane where
  handlers := by
    intro request store trusting
    apply (handle_yields request trusting []).mono
    intro _ _ _ _
    trivial
  world := nofun

end Handlers

section Claim

/-- A tenant's CAs that sign. -/
def Records.signers (records : Records) (tenant : TenantId) : List TenantCa :=
  records.tenantCas.filter fun ca => ca.tenantId = tenant && ca.state = .active

/-- The leaf a machine holds is trusted: it names a CA of the tenant's bundle,
and that CA's key has signed it. -/
def Records.Trusted (records : Records) (node : Node) : Prop :=
  ∀ cert ∈ node.certPem, ∃ ca ∈ records.trustBundle node.tenantId,
    node.caId = some ca.id ∧ ca.certPem.key = cert.signer

theorem Trusting.trusted (trusting : Trusting records) {node : Node}
    (member : node ∈ records.nodes) : records.Trusted node := by
  intro cert hasCert
  obtain ⟨ca, caMember, named, ofTenant, key⟩ := trusting.anchored node member cert hasCert
  refine ⟨ca, ?_, named, key⟩
  rw [Records.trustBundle, List.mem_insertionSort, List.mem_filter, decide_eq_true_eq]
  exact ⟨caMember, ofTenant⟩

/-- The partial index leaves a tenant one signer at most. -/
theorem Records.Consistent.signers_le (consistent : records.Consistent)
    (tenant : TenantId) : (records.signers tenant).length ≤ 1 := by
  have ofTenant : (((records.tenantCas.filter (·.state = .active)).map
      TenantCa.tenantId).filter (· = tenant)).length ≤ 1 := by
    rw [← List.countP_eq_length_filter]
    exact List.nodup_iff_count_le_one.mp consistent.oneActive tenant
  rw [List.filter_map, List.length_map, List.filter_filter] at ofTenant
  exact ofTenant

theorem Trusting.opened (joinTokens : List JoinToken) (users : List User)
    (slugs : List (TenantId × String)) (drawn : List Nat) :
    Trusting (.opened joinTokens users slugs drawn) where
  consistent := by
    constructor
    all_goals simp [Records.opened]
  sealedKeys := by simp [Records.opened]
  drawn := by simp [Records.opened]
  led := by simp [Records.opened]
  anchored := by simp [Records.opened]

/-- In every interleaving of every call, with any statement failing, each
machine's recorded leaf is signed by a CA of its tenant's bundle, a tenant has
one signer at most, and once it has a CA it goes on having exactly one. -/
theorem rotation_keeps_trust {joinTokens : List JoinToken} {users : List User}
    {slugs : List (TenantId × String)} {drawn : List Nat}
    {earlier later : List (Service.Move Records.Choice Empty Request)}
    {middle final : Service.State Records Request
      (fun request : Statement => Except ApiError request.Value) (Except ApiError Answer)}
    (ranEarlier : run controlPlane.step
      (Service.start (.opened joinTokens users slugs drawn)) earlier = some middle)
    (ranLater : run controlPlane.step middle later = some final) :
    (∀ node ∈ final.store.nodes, final.store.Trusted node) ∧
      (∀ tenant, (final.store.signers tenant).length ≤ 1) ∧
      ∀ ca ∈ middle.store.tenantCas, (final.store.signers ca.tenantId).length = 1 := by
  have begun : rotation.Kept controlPlane
      (Service.start (.opened joinTokens users slugs drawn)) :=
    Contract.kept_start (Trusting.opened joinTokens users slugs drawn)
  have free {start : Service.State Records Request
        (fun request : Statement => Except ApiError request.Value) (Except ApiError Answer)}
      {moves : List (Service.Move Records.Choice Empty Request)} :
      Along controlPlane.step (fun before move _ => rotation.Permits before move) start moves :=
    rotation.along_permits (fun _ _ _ _ => trivial) (fun _ _ => trivial)
  obtain ⟨keptMiddle, -⟩ := Contract.run_kept rotation_met free begun ranEarlier
  obtain ⟨keptFinal, waited⟩ := Contract.run_kept rotation_met free keptMiddle ranLater
  refine ⟨fun node => keptFinal.invariant.trusted,
    keptFinal.invariant.consistent.signers_le, ?_⟩
  intro ca member
  obtain ⟨signer, signerMember, ofTenant, isActive⟩ :=
    waited.led ca.tenantId (keptMiddle.invariant.led ca member)
  have present : signer ∈ final.store.signers ca.tenantId :=
    List.mem_filter.mpr ⟨signerMember, by simp [ofTenant, isActive]⟩
  have some := List.length_pos_of_mem present
  have atMost := keptFinal.invariant.consistent.signers_le ca.tenantId
  omega

/-- The only call goes on, and draws these numbers where it draws any. -/
def goingOn (drawn : List Nat) : List (Service.Move Records.Choice Empty Request) :=
  drawn.map fun number => .goOn 0 { now := 1, drawn := number }

/-- A tenant with an owner and a join token. -/
def someTenant : Records :=
  .opened [⟨1, hashToken (.random 0), some 10, 7, none⟩] [⟨10, 1, 100, true, 0⟩]
    [(1, "acme")] []

/-- The tenant's first machine enrolls. -/
def firstEnrolment : List (Service.Move Records.Choice Empty Request) :=
  .call (.enroll { token := .random 0, csrPem := some 5 }) ::
    goingOn [0, 0, 0, 0, 1, 0, 2, 3, 0, 0, 0, 0, 0, 0, 0, 0]

/-- A CA is staged and promoted, the machine renews under it, and the first CA
is retired. -/
def oneRotation : List (Service.Move Records.Choice Empty Request) :=
  .call (.stage 1) :: goingOn [0, 0, 4, 0, 5, 0] ++
    .call (.promote 1 5) :: goingOn [0, 0] ++
    .call (.renew 3 (some 5)) :: goingOn [0, 0, 0, 0, 0, 0, 0, 0] ++
    .call (.retire 1 2) :: goingOn [0, 0, 0]

/-- A whole rotation, to its end: the machine's leaf is trusted and one CA is
left. -/
theorem rotation_keeps_trust_once : ∃ middle final,
    run controlPlane.step (Service.start someTenant) firstEnrolment = some middle ∧
      run controlPlane.step middle oneRotation = some final ∧
      (∀ node ∈ final.store.nodes, final.store.Trusted node) ∧
      (∀ tenant, (final.store.signers tenant).length ≤ 1) ∧
      ∀ ca ∈ middle.store.tenantCas, (final.store.signers ca.tenantId).length = 1 := by
  have ends : (run controlPlane.step (Service.start someTenant)
      (firstEnrolment ++ oneRotation)).isSome = true := by
    decide +kernel
  obtain ⟨final, ran⟩ := Option.isSome_iff_exists.mp ends
  obtain ⟨middle, ranEarlier, ranLater⟩ := run_append_iff.mp ran
  exact ⟨middle, final, ranEarlier, ranLater, rotation_keeps_trust ranEarlier ranLater⟩

end Claim

end NookOs.Nodes
