/-
Module: NookOs.Ws.TunnelHeaders
Purpose: The headers a tunnelled request takes to the service, and whether the
  control plane's own extractor would know somebody by them.
Trusted boundary: none
Main exports: Header, forwardedHeaders, Accounts, fromRequestParts, Readable, headersRight_iff
-/
import NookOs.Lib.Text

namespace NookOs.Ws.TunnelHeaders

open Lib.Text

/-!
The stripper and the extractor are two parsers of the same headers.  A header map
is the list of its entries in the order it is iterated; a name is in lower case,
as the map keeps it.  A service may send on any of the headers it has received,
so the extractor is asked about every sublist of them.
-/

section Headers

/-- One entry of a header map. -/
structure Header where
  name : List Char
  value : List Char
deriving DecidableEq

/-- `HeaderValue::to_str`: visible ASCII and tabs are text. -/
def isText (value : List Char) : Bool :=
  value.all fun char => (0x20 ≤ char.toNat && char.toNat < 0x7F) || char = '\t'

def toStr (value : List Char) : Option (List Char) :=
  if isText value then some value else none

/-- `strip_prefix`. -/
def stripPrefix (pattern text : List Char) : Option (List Char) :=
  pattern.isPrefixOf? text

def credentialPrefix : List Char := "nook_".toList

def cookieName : List Char := "cookie".toList

def authorizationName : List Char := "authorization".toList

def protocolName : List Char := "sec-websocket-protocol".toList

def bearerScheme : List Char := "Bearer ".toList

/-- The headers of the hop. -/
def hopByHop : List (List Char) :=
  ["connection".toList, "keep-alive".toList, "proxy-authenticate".toList,
    "proxy-authorization".toList, "te".toList, "trailer".toList,
    "transfer-encoding".toList, "upgrade".toList]

theorem lawfulBEq_name : LawfulBEq (List Char) := inferInstance

attribute [local instance] lawfulBEq_name in
/-- The headers of the message, but for the length of a body that is framed
anew. -/
def carried (name : List Char) : Bool :=
  name ∉ hopByHop && name ≠ "content-length".toList

end Headers

section Stripper

/-- The pairs of a `Cookie` header. -/
def pairs (value : List Char) : List (List Char) :=
  ((value.splitOn ';').map trim).filter (· ≠ [])

/-- A cookie by whose name NookOS issued it. -/
def isNookCookie (pair : List Char) : Bool :=
  credentialPrefix.isPrefixOf (trim (pair.takeWhile (· ≠ '=')))

/-- The pairs that are not NookOS's own. -/
def keptPairs (value : List Char) : List (List Char) :=
  (pairs value).filter fun pair => !isNookCookie pair

def stripNookCookies (value : List Char) : Option (List Char) :=
  if keptPairs value = [] then none else some (joinSpaced ';' (keptPairs value))

def isNookCredential (authorization : List Char) : Bool :=
  (stripPrefix bearerScheme authorization).any fun token =>
    credentialPrefix.isPrefixOf (token.dropWhile isWhitespace)

/-- What becomes of one header. -/
def forwardHeader (header : Header) : Option Header :=
  if !carried header.name then none
  else
    match toStr header.value with
    | none => none
    | some value =>
        if header.name = cookieName then
          (stripNookCookies value).map fun kept => { header with value := kept }
        else if header.name = authorizationName then
          if isNookCredential value then none else some header
        else some header

def forwardedHeaders (headers : List Header) : List Header :=
  headers.filterMap forwardHeader

end Stripper

section Extractor

variable {Principal Grant : Type}

/-- What the database and the request's path answer, and how a cookie is parsed:
the stages the extractor goes through once it has found a credential.  A session
is looked up by the cookie's value, parsed as a uuid. -/
structure Accounts (Principal Grant : Type) where
  userToken : List Char → Option (Principal × Grant)
  nodeToken : List Char → Option Principal
  session : List Char → Option Principal
  memberTenant : Principal → List Char → Option Principal
  nodeSession : Principal → List Char → Option (List Char) → Option Principal
  authorize : Principal → Grant → Bool
  parseEncoded : List Char → Option (List Char × List Char)

/-- `headers.get(name)`, as text. -/
def get (name : List Char) (headers : List Header) : Option (List Char) :=
  (headers.find? (·.name = name)).bind (toStr ·.value)

def userTokenPrefix : List Char := "nook_user_".toList

def wsBearerProtocol : List Char := "nook.bearer".toList

def sessionCookie : List Char := "nook_session".toList

/-- A header's trimmed text, unless nothing is left of it. -/
def trimmed (name : List Char) (headers : List Header) : Option (List Char) :=
  ((get name headers).map trim).filter (· ≠ [])

def wantHeader (headers : List Header) : Option (List Char) :=
  trimmed "x-nook-tenant".toList headers

/-- `retenant` of a person: the tenant they ask for, if they are a member. -/
def retenantUser (accounts : Accounts Principal Grant) (headers : List Header)
    (ctx : Principal) : Option Principal :=
  match wantHeader headers with
  | none => some ctx
  | some want => accounts.memberTenant ctx want

/-- `retenant` of a machine: the tenant of the session it claims to run. -/
def retenantNode (accounts : Accounts Principal Grant) (headers : List Header)
    (ctx : Principal) : Option Principal :=
  match trimmed "x-nook-session".toList headers with
  | none => some ctx
  | some claimed => accounts.nodeSession ctx claimed (wantHeader headers)

def fromBearer (accounts : Accounts Principal Grant) (headers : List Header)
    (bearer : List Char) : Option Principal :=
  if userTokenPrefix.isPrefixOf bearer then do
    let (ctx, grant) ← accounts.userToken bearer
    let ctx ← retenantUser accounts headers ctx
    if accounts.authorize ctx grant then some ctx else none
  else do
    let ctx ← accounts.nodeToken bearer
    retenantNode accounts headers ctx

/-- The token that follows the marker among the subprotocols. -/
def protocolToken (value : List Char) : Option (List Char) :=
  (((value.splitOn ',').map trim).dropWhile (· ≠ wsBearerProtocol))[1]?

def fromProtocol (accounts : Accounts Principal Grant) (token : List Char) :
    Option Principal :=
  if userTokenPrefix.isPrefixOf token then do
    let (ctx, grant) ← accounts.userToken token
    if accounts.authorize ctx grant then some ctx else none
  else accounts.nodeToken token

/-- The cookies of a header map, in order: what does not parse is passed over. -/
def cookies (accounts : Accounts Principal Grant) (headers : List Header) :
    List (List Char × List Char) :=
  ((headers.filter (·.name = cookieName)).filterMap (toStr ·.value)).flatMap
    fun value => (value.splitOn ';').filterMap accounts.parseEncoded

/-- `jar.get(SESSION_COOKIE)`: of two cookies of one name the later one stays in
the jar. -/
def sessionValue (jar : List (List Char × List Char)) : Option (List Char) :=
  ((jar.filter (·.1 = sessionCookie)).getLast?).map (·.2)

/-- `AuthCtx::from_request_parts` of a request without a client certificate. -/
def fromRequestParts (accounts : Accounts Principal Grant) (headers : List Header) :
    Option Principal :=
  match (get authorizationName headers).bind (stripPrefix bearerScheme) with
  | some bearer => fromBearer accounts headers bearer
  | none =>
      match (get protocolName headers).bind protocolToken with
      | some token => fromProtocol accounts token
      | none => (sessionValue (cookies accounts headers)).bind accounts.session

end Extractor

section Law

variable {Principal Grant : Type}

/-- A header the service is owed as it is: one of the message that is no cookie
and no credential. -/
def Owed (header : Header) : Prop :=
  carried header.name = true ∧ header.name ≠ cookieName ∧
    ¬ (header.name = authorizationName ∧ isNookCredential header.value = true)

instance (header : Header) : Decidable (Owed header) :=
  inferInstanceAs (Decidable (_ ∧ _))

/-- The cookies the service is owed. -/
def owedCookies (header : Header) : List (List Char) :=
  if header.name = cookieName then keptPairs header.value else []

/-- The law of the stripper: nobody is known by what is sent on, and the rest is
sent on as it came. -/
structure HeadersRight (accounts : Accounts Principal Grant) (headers : List Header) :
    Prop where
  anonymous : ∀ subset, subset.Sublist (forwardedHeaders headers) →
    fromRequestParts accounts subset = none
  unchanged : (forwardedHeaders headers).filter (·.name ≠ cookieName) =
    headers.filter (Owed ·)
  cookies : ((forwardedHeaders headers).filter (·.name = cookieName)).flatMap
    (pairs ·.value) = headers.flatMap owedCookies
  ordered : ((forwardedHeaders headers).map (·.name)).Sublist (headers.map (·.name))

/-- No text of the header is a credential in a form the stripper does not know: a
bearer or a subprotocol token of an account, or a session in a cookie whose name
only decodes to that of the session. -/
structure Quiet (accounts : Accounts Principal Grant) (header : Header) : Prop where
  bearer : header.name = authorizationName → isNookCredential header.value = false →
    ∀ token ∈ stripPrefix bearerScheme header.value, accounts.nodeToken token = none
  protocol : header.name = protocolName → ∀ token ∈ protocolToken header.value,
    fromProtocol accounts token = none
  cookie : header.name = cookieName →
    ∀ sid ∈ sessionValue ((keptPairs header.value).filterMap accounts.parseEncoded),
      accounts.session sid = none

/-- The header is text, or the service is owed nothing of it. -/
def Readable (header : Header) : Prop :=
  isText header.value = true ∨ (¬ Owed header ∧ owedCookies header = [])

instance (accounts : Accounts Principal Grant)
    [∀ token, Decidable (accounts.nodeToken token = none)]
    [∀ token, Decidable (fromProtocol accounts token = none)]
    [∀ sid, Decidable (accounts.session sid = none)] (header : Header) :
    Decidable (Quiet accounts header) :=
  decidable_of_iff
    ((header.name = authorizationName → isNookCredential header.value = false →
        ∀ token ∈ stripPrefix bearerScheme header.value,
          accounts.nodeToken token = none) ∧
      (header.name = protocolName → ∀ token ∈ protocolToken header.value,
        fromProtocol accounts token = none) ∧
      (header.name = cookieName →
        ∀ sid ∈ sessionValue
          ((keptPairs header.value).filterMap accounts.parseEncoded),
          accounts.session sid = none))
    ⟨fun ⟨bearer, protocol, cookie⟩ => ⟨bearer, protocol, cookie⟩,
      fun ⟨bearer, protocol, cookie⟩ => ⟨bearer, protocol, cookie⟩⟩

instance (header : Header) : Decidable (Readable header) :=
  inferInstanceAs (Decidable (_ ∨ _))

end Law

section Cookies

variable {value : List Char}

/-- A kept pair is trimmed, is not empty, and has no semicolon. -/
theorem keptPairs_facts {pair : List Char} (member : pair ∈ keptPairs value) :
    trim pair = pair ∧ pair ≠ [] ∧ ';' ∉ pair := by
  obtain ⟨inPairs, _⟩ := List.mem_filter.mp member
  obtain ⟨trimmedPiece, nonempty⟩ := List.mem_filter.mp inPairs
  obtain ⟨piece, inSplit, rfl⟩ := List.mem_map.mp trimmedPiece
  refine ⟨trim_trim, of_decide_eq_true nonempty, ?_⟩
  intro found
  exact (mem_of_mem_splitOn inSplit (mem_of_mem_trim found)).2 rfl

/-- The service splits the cookies it is sent where they were joined. -/
theorem splitOn_kept {first : List Char} {rest : List (List Char)}
    (kept : keptPairs value = first :: rest) :
    (joinSpaced ';' (keptPairs value)).splitOn ';' =
      first :: rest.map fun pair => ' ' :: pair := by
  rw [kept]
  apply splitOn_joinSpaced (by decide)
  intro pair member
  exact (keptPairs_facts (kept ▸ member)).2.2

/-- The pairs of what is sent are the pairs that were kept. -/
theorem pairs_kept : pairs (joinSpaced ';' (keptPairs value)) = keptPairs value := by
  cases kept : keptPairs value with
  | nil => decide
  | cons first rest =>
      have facts := fun pair (member : pair ∈ first :: rest) =>
        keptPairs_facts (kept ▸ member)
      have trimmedAll : (first :: rest.map fun pair => ' ' :: pair).map trim =
          first :: rest := by
        rw [List.map_cons, (facts first List.mem_cons_self).1, List.map_map]
        congr 1
        conv_rhs => rw [← List.map_id rest]
        apply List.map_congr_left
        intro pair member
        exact trim_space.trans (facts pair (List.mem_cons_of_mem first member)).1
      rw [← kept, pairs, splitOn_kept kept, trimmedAll, kept]
      apply List.filter_eq_self.mpr
      intro pair member
      exact decide_eq_true (facts pair member).2.1

/-- Pieces of a text are text. -/
theorem isText_kept (text : isText value = true) :
    isText (joinSpaced ';' (keptPairs value)) = true := by
  apply List.all_eq_true.mpr
  intro char member
  rcases mem_joinSpaced member with rfl | rfl | ⟨pair, kept, inPair⟩
  · decide
  · decide
  · obtain ⟨inPairs, _⟩ := List.mem_filter.mp kept
    obtain ⟨trimmedPiece, _⟩ := List.mem_filter.mp inPairs
    obtain ⟨piece, inSplit, rfl⟩ := List.mem_map.mp trimmedPiece
    exact List.all_eq_true.mp text char
      (mem_of_mem_splitOn inSplit (mem_of_mem_trim inPair)).1

end Cookies

section Stripping

variable {header sent : Header} {headers : List Header}

theorem toStr_some {value text : List Char} (read : toStr value = some text) :
    isText value = true ∧ text = value := by
  unfold toStr at read
  split at read
  case isTrue isText => exact ⟨isText, (Option.some.inj read).symm⟩
  case isFalse => cases read

theorem toStr_of_text {value : List Char} (text : isText value = true) :
    toStr value = some value := if_pos text

/-- How a header is sent on: a `Cookie` header with the kept pairs, and any other
as it came. -/
inductive SentAs (header : Header) : Header → Prop where
  | cookie : header.name = cookieName → keptPairs header.value ≠ [] →
      SentAs header { header with value := joinSpaced ';' (keptPairs header.value) }
  | whole : Owed header → SentAs header header

theorem forwardHeader_some (forwarded : forwardHeader header = some sent) :
    isText header.value = true ∧ SentAs header sent := by
  unfold forwardHeader at forwarded
  split at forwarded
  case isTrue => cases forwarded
  case isFalse isCarried =>
    have isCarried : carried header.name = true := by simpa using isCarried
    split at forwarded
    case h_1 => cases forwarded
    case h_2 value read =>
      obtain ⟨text, rfl⟩ := toStr_some read
      refine ⟨text, ?_⟩
      split at forwarded
      case isTrue isCookie =>
        obtain ⟨kept, stripped, rfl⟩ := Option.map_eq_some_iff.mp forwarded
        unfold stripNookCookies at stripped
        split at stripped
        case isTrue => cases stripped
        case isFalse remains =>
          cases stripped
          exact .cookie isCookie remains
      case isFalse notCookie =>
        split at forwarded
        case isTrue =>
          split at forwarded
          case isTrue => cases forwarded
          case isFalse notCredential =>
            cases forwarded
            exact .whole ⟨isCarried, notCookie, fun both => notCredential both.2⟩
        case isFalse other =>
          cases forwarded
          exact .whole ⟨isCarried, notCookie, fun both => other both.1⟩

theorem forwardHeader_of_sentAs (text : isText header.value = true)
    (sentAs : SentAs header sent) : forwardHeader header = some sent := by
  cases sentAs with
  | cookie isCookie remains =>
      have isCarried : carried cookieName = true := by decide
      simp [forwardHeader, isCarried, toStr_of_text text, isCookie, stripNookCookies,
        remains]
  | whole owed =>
      obtain ⟨isCarried, notCookie, notCredential⟩ := owed
      by_cases isAuthorization : header.name = authorizationName
      · have other : isNookCredential header.value = false := by
          by_contra credential
          exact notCredential ⟨isAuthorization, by simpa using credential⟩
        simp [forwardHeader, isCarried, toStr_of_text text, notCookie, other]
      · simp [forwardHeader, isCarried, toStr_of_text text, notCookie, isAuthorization]

/-- Sending a header on keeps its name. -/
theorem SentAs.name (sentAs : SentAs header sent) : sent.name = header.name := by
  cases sentAs <;> rfl

/-- What a header contributes to the headers that are sent on but are no cookies,
and to the cookies. -/
theorem contributions :
    ((forwardHeader header).toList.filter (·.name ≠ cookieName) =
      if isText header.value ∧ Owed header then [header] else []) ∧
    ((forwardHeader header).toList.filter (·.name = cookieName)).flatMap
        (pairs ·.value) =
      if isText header.value then owedCookies header else [] := by
  cases forwarded : forwardHeader header with
  | none =>
      have lost : ∀ sent, isText header.value = true → ¬ SentAs header sent := by
        intro sent text sentAs
        rw [forwardHeader_of_sentAs text sentAs] at forwarded
        cases forwarded
      constructor
      · rw [if_neg fun both => lost header both.1 (.whole both.2)]
        rfl
      · by_cases text : isText header.value = true
        · rw [if_pos text, owedCookies]
          split
          case isTrue isCookie =>
            by_contra remains
            exact lost _ text (.cookie isCookie (Ne.symm remains))
          case isFalse => rfl
        · rw [if_neg text]
          rfl
  | some sent =>
      obtain ⟨text, sentAs⟩ := forwardHeader_some forwarded
      cases sentAs with
      | cookie isCookie remains =>
          have notOwed : ¬ Owed header := fun owed => owed.2.1 isCookie
          simp [isCookie, text, notOwed, owedCookies, pairs_kept]
      | whole owed => simp [owed, owed.2.1, text, owedCookies]

theorem sent_of_mem (member : sent ∈ forwardedHeaders headers) :
    ∃ header ∈ headers, isText header.value = true ∧ SentAs header sent := by
  obtain ⟨header, inHeaders, forwarded⟩ := List.mem_filterMap.mp member
  exact ⟨header, inHeaders, forwardHeader_some forwarded⟩

theorem mem_of_sentAs (member : header ∈ headers) (text : isText header.value = true)
    (sentAs : SentAs header sent) : sent ∈ forwardedHeaders headers :=
  List.mem_filterMap.mpr ⟨header, member, forwardHeader_of_sentAs text sentAs⟩

theorem forwardedHeaders_cons :
    forwardedHeaders (header :: headers) =
      (forwardHeader header).toList ++ forwardedHeaders headers := by
  cases forwarded : forwardHeader header <;> simp [forwardedHeaders, forwarded]

/-- The headers that are sent on whole are the ones that are owed and are text. -/
theorem whole_sent :
    (forwardedHeaders headers).filter (·.name ≠ cookieName) =
      (headers.filter (Owed ·)).filter (isText ·.value) := by
  induction headers with
  | nil => rfl
  | cons header headers ih =>
      rw [forwardedHeaders_cons, List.filter_append, contributions.1,
        ih]
      by_cases owed : Owed header <;> by_cases text : isText header.value = true <;>
        simp [owed, text]

theorem cookies_sent :
    ((forwardedHeaders headers).filter (·.name = cookieName)).flatMap (pairs ·.value) =
      headers.flatMap fun header =>
        if isText header.value then owedCookies header else [] := by
  induction headers with
  | nil => rfl
  | cons header headers ih =>
      rw [forwardedHeaders_cons, List.filter_append, List.flatMap_append,
        contributions.2, ih, List.flatMap_cons]

/-- The names that are sent on stand in the order they came in. -/
theorem names_sent :
    ((forwardedHeaders headers).map (·.name)).Sublist (headers.map (·.name)) := by
  induction headers with
  | nil => exact .slnil
  | cons header headers ih =>
      rw [forwardedHeaders_cons, List.map_append, List.map_cons]
      cases forwarded : forwardHeader header with
      | none => exact .cons _ ih
      | some sent =>
          have sameName := (forwardHeader_some forwarded).2.name
          simp only [Option.toList_some, List.map_cons, List.map_nil,
            List.singleton_append, sameName]
          exact .cons_cons _ ih

/-- Of two lists of pieces, one of which leaves some out, the wholes are the same
when nothing but nothing is left out. -/
theorem flatMap_eq_iff {Item Piece : Type} {items : List Item}
    {some_ all : Item → List Piece} (either : ∀ item, some_ item = all item ∨ some_ item = []) :
    items.flatMap some_ = items.flatMap all ↔ ∀ item ∈ items, some_ item = all item := by
  have shorter : ∀ items : List Item,
      (items.flatMap some_).length ≤ (items.flatMap all).length := by
    intro items
    induction items with
    | nil => exact Nat.le_refl 0
    | cons item items ih =>
        rw [List.flatMap_cons, List.flatMap_cons, List.length_append,
          List.length_append]
        rcases either item with same | nothing
        · rw [same]
          exact Nat.add_le_add_left ih _
        · rw [nothing, List.length_nil]
          omega
  constructor
  · intro same
    induction items with
    | nil => exact fun _ member => absurd member List.not_mem_nil
    | cons item items ih =>
        rw [List.flatMap_cons, List.flatMap_cons] at same
        have here : some_ item = all item := by
          rcases either item with same | nothing
          · exact same
          · have lengths := congrArg List.length same
            rw [List.length_append, List.length_append, nothing,
              List.length_nil] at lengths
            have noMore := shorter items
            rw [nothing]
            exact (List.length_eq_zero_iff.mp (by omega)).symm
        rw [here, List.append_cancel_left_eq] at same
        intro other member
        rcases List.mem_cons.mp member with rfl | later
        · exact here
        · exact ih same other later
  · intro each
    induction items with
    | nil => rfl
    | cons item items ih =>
        rw [List.flatMap_cons, List.flatMap_cons, each item List.mem_cons_self,
          ih fun other member => each other (List.mem_cons_of_mem _ member)]

/-- Everything that is owed is sent on exactly when every header is text or owes
nothing. -/
theorem sent_whole_iff :
    ((forwardedHeaders headers).filter (·.name ≠ cookieName) = headers.filter (Owed ·) ∧
      ((forwardedHeaders headers).filter (·.name = cookieName)).flatMap (pairs ·.value) =
        headers.flatMap owedCookies) ↔
      ∀ header ∈ headers, Readable header := by
  have either : ∀ header : Header,
      (if isText header.value then owedCookies header else []) = owedCookies header ∨
        (if isText header.value then owedCookies header else []) = [] := by
    intro header
    split
    · exact .inl rfl
    · exact .inr rfl
  rw [whole_sent, cookies_sent, flatMap_eq_iff either, List.filter_eq_self]
  constructor
  · rintro ⟨wholes, cookies⟩ header member
    by_cases text : isText header.value = true
    · exact .inl text
    · refine .inr ⟨?_, ?_⟩
      · intro owed
        exact text (wholes header (List.mem_filter.mpr ⟨member, decide_eq_true owed⟩))
      · have nothing := cookies header member
        rw [if_neg text] at nothing
        exact nothing.symm
  · intro readable
    constructor
    · intro header inOwed
      obtain ⟨member, owed⟩ := List.mem_filter.mp inOwed
      exact (readable header member).resolve_right fun lost =>
        lost.1 (of_decide_eq_true owed)
    · intro header member
      rcases readable header member with text | ⟨_, nothing⟩
      · rw [if_pos text]
      · rw [nothing, ite_self]

end Stripping

section Extracting

variable {Principal Grant : Type} {accounts : Accounts Principal Grant}
  {header : Header} {headers : List Header}

theorem get_some {name value : List Char} (got : get name headers = some value) :
    ∃ header ∈ headers, header.name = name ∧ value = header.value := by
  obtain ⟨header, found, read⟩ := Option.bind_eq_some_iff.mp got
  have named := List.find?_some found
  rw [decide_eq_true_eq] at named
  exact ⟨header, List.mem_of_find?_eq_some found, named, (toStr_some read).2⟩

theorem get_singleton {name : List Char} :
    get name [header] = if header.name = name then toStr header.value else none := by
  by_cases same : header.name = name <;> simp [get, same]

/-- A person's bearer token is one the stripper knows. -/
theorem isNookCredential_of_userToken {token : List Char}
    (stripped : stripPrefix bearerScheme header.value = some token)
    (ofUser : userTokenPrefix.isPrefixOf token = true) :
    isNookCredential header.value = true := by
  obtain ⟨rest, rfl⟩ := List.isPrefixOf_iff_prefix.mp ofUser
  have spelled : userTokenPrefix ++ rest =
      credentialPrefix ++ ("user_".toList ++ rest) := by
    rw [← List.append_assoc]
    rfl
  have noBlank : (credentialPrefix ++ ("user_".toList ++ rest)).dropWhile isWhitespace =
      credentialPrefix ++ ("user_".toList ++ rest) := by
    apply List.dropWhile_eq_self_iff.mpr
    intro _
    have first : (credentialPrefix ++ ("user_".toList ++ rest))[0] = 'n' := rfl
    rw [first]
    decide
  rw [isNookCredential, stripped, Option.any_some, spelled, noBlank]
  exact List.isPrefixOf_iff_prefix.mpr (List.prefix_append _ _)

theorem sessionValue_append {first second : List (List Char × List Char)} :
    sessionValue (first ++ second) =
      (sessionValue second).or (sessionValue first) := by
  rw [sessionValue, List.filter_append, List.getLast?_append, Option.map_or]
  rfl

/-- The session of a jar stands in one of the headers the jar was filled from. -/
theorem sessionValue_flatMap {Item : Type} {items : List Item}
    {read : Item → List (List Char × List Char)} {sid : List Char}
    (found : sessionValue (items.flatMap read) = some sid) :
    ∃ item ∈ items, sessionValue (read item) = some sid := by
  induction items with
  | nil => cases found
  | cons item items ih =>
      rw [List.flatMap_cons, sessionValue_append, Option.or_eq_some_iff] at found
      rcases found with later | ⟨_, here⟩
      · obtain ⟨other, member, session⟩ := ih later
        exact ⟨other, List.mem_cons_of_mem item member, session⟩
      · exact ⟨item, List.mem_cons_self, here⟩

/-- The jar of a `Cookie` header that is sent on is the jar of the pairs that were
kept: a blank before a pair is nothing to the parser. -/
theorem parse_kept
    (spaced : ∀ pair, accounts.parseEncoded (' ' :: pair) = accounts.parseEncoded pair)
    {value : List Char} (remains : keptPairs value ≠ []) :
    ((joinSpaced ';' (keptPairs value)).splitOn ';').filterMap accounts.parseEncoded =
      (keptPairs value).filterMap accounts.parseEncoded := by
  cases kept : keptPairs value with
  | nil => exact absurd kept remains
  | cons first rest =>
      have blanks : (accounts.parseEncoded ∘ fun pair => ' ' :: pair) =
          accounts.parseEncoded := funext spaced
      rw [← kept, splitOn_kept kept, kept, List.filterMap_cons, List.filterMap_map,
        blanks, List.filterMap_cons]

/-- A token the node's lookup knows is not enough for a request of a person. -/
theorem fromBearer_of_other {token : List Char}
    (notUser : userTokenPrefix.isPrefixOf token = false) :
    fromBearer accounts headers token =
      (accounts.nodeToken token).bind (retenantNode accounts headers) := by
  rw [fromBearer, notUser]
  rfl

/-- By quiet headers nobody is known, whichever of them are sent back. -/
theorem anonymous_of_quiet
    (spaced : ∀ pair, accounts.parseEncoded (' ' :: pair) = accounts.parseEncoded pair)
    (quiet : ∀ header ∈ headers, isText header.value = true → Quiet accounts header)
    {subset : List Header} (sublist : subset.Sublist (forwardedHeaders headers)) :
    fromRequestParts accounts subset = none := by
  have origin := fun sent (member : sent ∈ subset) =>
    sent_of_mem (sublist.subset member)
  rw [fromRequestParts]
  split
  case h_1 token found =>
    obtain ⟨value, got, stripped⟩ := Option.bind_eq_some_iff.mp found
    obtain ⟨sent, member, isAuthorization, rfl⟩ := get_some got
    obtain ⟨header, inHeaders, text, sentAs⟩ := origin sent member
    cases sentAs with
    | cookie isCookie =>
        have same : cookieName = authorizationName := isCookie.symm.trans isAuthorization
        exact absurd same (by decide)
    | whole owed =>
        have other : isNookCredential sent.value = false := by
          by_contra credential
          exact owed.2.2 ⟨isAuthorization, by simpa using credential⟩
        have notUser : userTokenPrefix.isPrefixOf token = false := by
          by_contra ofUser
          rw [isNookCredential_of_userToken stripped (by simpa using ofUser)] at other
          cases other
        rw [fromBearer_of_other notUser,
          (quiet sent inHeaders text).bearer isAuthorization other token stripped]
        rfl
  case h_2 =>
    split
    case h_1 token found =>
      obtain ⟨value, got, offered⟩ := Option.bind_eq_some_iff.mp found
      obtain ⟨sent, member, isProtocol, rfl⟩ := get_some got
      obtain ⟨header, inHeaders, text, sentAs⟩ := origin sent member
      cases sentAs with
      | cookie isCookie =>
          have same : cookieName = protocolName := isCookie.symm.trans isProtocol
          exact absurd same (by decide)
      | whole owed =>
          exact (quiet sent inHeaders text).protocol isProtocol token offered
    case h_2 =>
      cases session : sessionValue (cookies accounts subset) with
      | none => rfl
      | some sid =>
          obtain ⟨value, inValues, here⟩ := sessionValue_flatMap session
          obtain ⟨sent, isCookieHeader, read⟩ := List.mem_filterMap.mp inValues
          obtain ⟨member, named⟩ := List.mem_filter.mp isCookieHeader
          obtain ⟨_, rfl⟩ := toStr_some read
          obtain ⟨header, inHeaders, text, sentAs⟩ := origin sent member
          cases sentAs with
          | cookie isCookie remains =>
              rw [parse_kept spaced remains] at here
              exact (quiet header inHeaders text).cookie isCookie sid here
          | whole owed => exact absurd (of_decide_eq_true named) owed.2.1

/-- Where nobody is known by any part of what is sent on, each header is quiet:
it may be sent back alone. -/
theorem quiet_of_anonymous
    (spaced : ∀ pair, accounts.parseEncoded (' ' :: pair) = accounts.parseEncoded pair)
    (anonymous : ∀ subset, subset.Sublist (forwardedHeaders headers) →
      fromRequestParts accounts subset = none)
    (member : header ∈ headers) (text : isText header.value = true) :
    Quiet accounts header := by
  have alone : ∀ sent, SentAs header sent → fromRequestParts accounts [sent] = none :=
    fun sent sentAs => anonymous [sent]
      (List.singleton_sublist.mpr (mem_of_sentAs member text sentAs))
  constructor
  · intro isAuthorization other token stripped
    have owed : Owed header := by
      refine ⟨?_, ?_, ?_⟩
      · rw [isAuthorization]
        decide
      · rw [isAuthorization]
        decide
      · rintro ⟨_, credential⟩
        rw [other] at credential
        cases credential
    have notUser : userTokenPrefix.isPrefixOf token = false := by
      by_contra ofUser
      rw [isNookCredential_of_userToken stripped (by simpa using ofUser)] at other
      cases other
    have noSession : retenantNode accounts [header] = some := by
      funext ctx
      have apart : authorizationName ≠ "x-nook-session".toList := by decide
      rw [retenantNode, trimmed, get_singleton, isAuthorization, if_neg apart]
      rfl
    have known := alone header (.whole owed)
    rw [fromRequestParts, get_singleton, if_pos isAuthorization, toStr_of_text text,
      Option.bind_some, stripped] at known
    dsimp only at known
    rwa [fromBearer_of_other notUser, noSession, Option.bind_fun_some] at known
  · intro isProtocol token offered
    have apart : protocolName ≠ authorizationName := by decide
    have owed : Owed header := by
      refine ⟨?_, ?_, ?_⟩
      · rw [isProtocol]
        decide
      · rw [isProtocol]
        decide
      · rintro ⟨isAuthorization, _⟩
        exact apart (isProtocol.symm.trans isAuthorization)
    have known := alone header (.whole owed)
    rw [fromRequestParts, get_singleton, get_singleton, if_pos isProtocol, isProtocol,
      if_neg apart, toStr_of_text text, Option.bind_some, offered] at known
    exact known
  · intro isCookie sid session
    have remains : keptPairs header.value ≠ [] := by
      intro nothing
      rw [nothing] at session
      cases session
    have known := alone _ (.cookie isCookie remains)
    have notAuthorization : cookieName ≠ authorizationName := by decide
    have notProtocol : cookieName ≠ protocolName := by decide
    have jar : cookies accounts
        [{ header with value := joinSpaced ';' (keptPairs header.value) }] =
          (keptPairs header.value).filterMap accounts.parseEncoded := by
      simp [cookies, isCookie, toStr_of_text (isText_kept text),
        parse_kept spaced remains]
    rw [fromRequestParts, get_singleton, get_singleton] at known
    dsimp only at known
    rw [isCookie, if_neg notAuthorization, if_neg notProtocol] at known
    simp only [Option.bind_none] at known
    rw [← isCookie, jar, session] at known
    exact known

/-- Nobody is known by the headers a service is sent, and the rest of them is sent
as it came, exactly when every header that is text is quiet and every other one
owes nothing. -/
theorem headersRight_iff
    (spaced : ∀ pair, accounts.parseEncoded (' ' :: pair) = accounts.parseEncoded pair) :
    HeadersRight accounts headers ↔
      ∀ header ∈ headers, Readable header ∧
        (isText header.value = true → Quiet accounts header) := by
  constructor
  · intro right header member
    exact ⟨sent_whole_iff.mp ⟨right.unchanged, right.cookies⟩ header member,
      quiet_of_anonymous spaced right.anonymous member⟩
  · intro each
    obtain ⟨unchanged, cookies⟩ :=
      sent_whole_iff.mpr fun header member => (each header member).1
    constructor
    · intro subset sublist
      exact anonymous_of_quiet spaced (fun header member => (each header member).2)
        sublist
    · exact unchanged
    · exact cookies
    · exact names_sent

end Extracting

section Visitors

def hexDigit (char : Char) : Option Nat :=
  if '0' ≤ char ∧ char ≤ '9' then some (char.toNat - '0'.toNat)
  else if 'a' ≤ char ∧ char ≤ 'f' then some (char.toNat - 'a'.toNat + 10)
  else if 'A' ≤ char ∧ char ≤ 'F' then some (char.toNat - 'A'.toNat + 10)
  else none

/-- Percent-encoded ASCII, decoded. -/
def percentDecode : List Char → List Char
  | '%' :: high :: low :: rest =>
      match hexDigit high, hexDigit low with
      | some sixteens, some ones =>
          Char.ofNat (16 * sixteens + ones) :: percentDecode rest
      | _, _ => '%' :: percentDecode (high :: low :: rest)
  | char :: rest => char :: percentDecode rest
  | [] => []

/-- A cookie's name and value, both of which may be percent-encoded. -/
def parseEncoded (pair : List Char) : Option (List Char × List Char) :=
  (splitOnce '=' pair).bind fun (name, value) =>
    if trim name = [] then none
    else some (percentDecode (trim name), percentDecode (trim value))

theorem parseEncoded_space (pair : List Char) :
    parseEncoded (' ' :: pair) = parseEncoded pair := by
  have split : splitOnce '=' (' ' :: pair) =
      (splitOnce '=' pair).map fun (name, value) => (' ' :: name, value) := by
    rw [splitOnce, splitOnce, List.dropWhile_cons_of_pos (by decide),
      List.takeWhile_cons_of_pos (by decide)]
    cases pair.dropWhile (· ≠ '=') <;> rfl
  rw [parseEncoded, parseEncoded, split]
  cases splitOnce '=' pair with
  | none => rfl
  | some parts => simp

/-- A person with a token and a session, and a machine that enrolled with a
certificate: the token its row was given is spelled from its id. -/
def someAccounts : Accounts Nat Unit :=
  { userToken := fun token =>
      if token = "nook_user_a".toList then some (7, ()) else none
    nodeToken := fun token => if token = "enroll-1".toList then some 1 else none
    session := fun sid => if sid = "5".toList then some 7 else none
    memberTenant := fun _ _ => none
    nodeSession := fun ctx _ _ => some ctx
    authorize := fun _ _ => true
    parseEncoded }

def header (name value : String) : Header :=
  { name := name.toList, value := value.toList }

/-- A token among the subprotocols, a bearer token without the prefix, and a
session cookie under an encoded name. -/
def leaks : List Header :=
  [header "sec-websocket-protocol" "nook.bearer, nook_user_a",
    header "authorization" "Bearer enroll-1",
    header "cookie" "theme=dark; %6eook_session=5"]

/-- By each of the three, the service can be the visitor to the control plane. -/
theorem leaks_forwarded :
    leaks.Forall fun leak =>
      (fromRequestParts someAccounts (forwardedHeaders [leak])).isSome = true ∧
        ¬ HeadersRight someAccounts [leak] := by
  have known : ∀ leak ∈ leaks, (fromRequestParts someAccounts
      (forwardedHeaders [leak])).isSome = true := by decide +kernel
  rw [List.forall_iff_forall_mem]
  intro leak member
  refine ⟨known leak member, ?_⟩
  intro right
  have knows := known leak member
  rw [right.anonymous _ (List.Sublist.refl _)] at knows
  cases knows

/-- A browser's request, with NookOS's cookies beside the service's own. -/
theorem headersRight_browser :
    HeadersRight someAccounts
      [header "connection" "keep-alive", header "host" "api.nook.example",
        header "cookie" "theme=dark; nook_session=5; app_sid=42",
        header "authorization" "Bearer nook_user_a", header "accept" "text/html"] :=
  (headersRight_iff parseEncoded_space).mpr (by decide +kernel)

end Visitors

end NookOs.Ws.TunnelHeaders
