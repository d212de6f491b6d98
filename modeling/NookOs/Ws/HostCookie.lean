/-
Module: NookOs.Ws.HostCookie
Purpose: The cookie that a tunnelled service sets, as it is sent on without its domain and
  as a user agent parses it.
Trusted boundary: which texts are dates is a parameter
Main exports: hostOnlyCookie, parse, StaysItself, FirstIsOwn, NoDomainLeft, staysItself_iff
-/
import NookOs.Lib.Text
import NookOs.Ws.TunnelHeaders

namespace NookOs.Ws.HostCookie

open Lib Lib.Text
open TunnelHeaders (isText)

section Code

/-- The attribute starts with `domain=`. -/
def isDomainAttr (attr : List Char) : Bool :=
  "domain=".toList.isPrefixOf (attr.map Char.toLower)

/-- Force a `Set-Cookie` to be host-only by dropping its `Domain`. -/
def hostOnlyCookie (setCookie : List Char) : List Char :=
  joinSpaced ';' (((setCookie.splitOn ';').map trim).filter fun attr => !isDomainAttr attr)

end Code

/-! ### A user agent's parser -/

section Parser

inductive Attribute where
  | expires (date : List Char)
  | maxAge (seconds : List Char)
  | domain (value : List Char)
  | path (value : Option (List Char))
  | secure
  | httpOnly
deriving DecidableEq

structure Cookie where
  name : List Char
  value : List Char
  attributes : List Attribute
deriving DecidableEq

def Attribute.isDomain : Attribute → Bool
  | domain _ => true
  | _ => false

def isWsp (char : Char) : Bool := char = ' ' || char = '\t'

/-- A text without the blanks around it. -/
def strip (text : List Char) : List Char := (text.dropWhile isWsp).rdropWhile isWsp

/-- The name and the value of a segment; what has no `=` is a name. -/
def nameValue (segment : List Char) : List Char × List Char :=
  match splitOnce '=' segment with
  | some (name, value) => (strip name, strip value)
  | none => (strip segment, [])

/-- A sign or a digit, and digits. -/
def isMaxAge : List Char → Bool
  | first :: rest => (first.isDigit || first = '-') && rest.all Char.isDigit
  | [] => false

variable (isDate : List Char → Bool)

/-- The attribute of a segment, unless the user agent ignores it. -/
def cookieAv (segment : List Char) : Option Attribute :=
  let (name, value) := nameValue segment
  let name := name.map Char.toLower
  if name = "expires".toList then if isDate value then some (.expires value) else none
  else if name = "max-age".toList then if isMaxAge value then some (.maxAge value) else none
  else if name = "domain".toList then if value = [] then none else some (.domain value)
  else if name = "path".toList then
    some (.path (if value.head? = some '/' then some value else none))
  else if name = "secure".toList then some .secure
  else if name = "httponly".toList then some .httpOnly
  else none

/-- The name and the value of a cookie, unless it has no `=` or no name. -/
def pair (segment : List Char) : Option (List Char × List Char) :=
  if '=' ∈ segment then some (nameValue segment) |>.filter (·.1 ≠ []) else none

/-- A `Set-Cookie` value, unless the user agent ignores it. -/
def parse (text : List Char) : Option Cookie :=
  match text.splitOn ';' with
  | [] => none
  | first :: rest =>
      (pair first).map fun (name, value) =>
        { name, value, attributes := rest.filterMap (cookieAv isDate) }

end Parser

section Property

variable (isDate : List Char → Bool) (setCookie : List Char)

/-- The cookie is the same but for its domain. -/
def StaysItself : Prop :=
  parse isDate (hostOnlyCookie setCookie) =
    (parse isDate setCookie).map fun cookie =>
      { cookie with attributes := cookie.attributes.filter (!·.isDomain) }

/-- The segments that are left. -/
def leftOf : List (List Char) :=
  (setCookie.splitOn ';').filter fun segment => !isDomainAttr (trim segment)

/-- The first segment that does not start with `domain=` spells the cookie's name and value. -/
def FirstIsOwn : Prop :=
  (leftOf setCookie).head?.bind pair = (setCookie.splitOn ';').head?.bind pair

/-- When there is a cookie, no segment after it is a domain, as one with a blank before its
`=` is. -/
def NoDomainLeft : Prop :=
  ((setCookie.splitOn ';').head?.bind pair).isSome = true →
    ∀ segment ∈ (leftOf setCookie).tail, ∀ attr ∈ cookieAv isDate segment, attr.isDomain = false

end Property

/-! ### Segments and blanks -/

section Segments

variable {isDate : List Char → Bool} {front text back segment : List Char}

theorem isWsp_equals : isWsp '=' = false := by decide

theorem strip_append (blank : ∀ char ∈ back, isWsp char = true) :
    strip (text ++ back) = strip text := trimmed_append blank

theorem strip_blank (blank : ∀ char ∈ front, isWsp char = true) :
    strip (front ++ text) = strip text := trimmed_blank blank

theorem equals_not_mem (blank : ∀ char ∈ text, isWsp char = true) : '=' ∉ text := by
  intro member
  have isBlank := blank _ member
  rw [isWsp_equals] at isBlank
  cases isBlank

/-- Blanks around a segment are none of its name or value. -/
theorem nameValue_around (leads : ∀ char ∈ front, isWsp char = true)
    (trails : ∀ char ∈ back, isWsp char = true) :
    nameValue (front ++ (text ++ back)) = nameValue text := by
  by_cases member : '=' ∈ text
  · obtain ⟨name, value, rfl, absent⟩ := List.eq_append_cons_of_mem member
    have whole : front ++ ((name ++ '=' :: value) ++ back) =
        (front ++ name) ++ '=' :: (value ++ back) := by
      simp
    have apart : '=' ∉ front ++ name := by
      intro member
      cases List.mem_append.mp member with
      | inl inFront => exact equals_not_mem leads inFront
      | inr inName => exact absent inName
    rw [nameValue, nameValue, whole, splitOnce_append apart, splitOnce_append absent]
    dsimp only
    rw [strip_blank leads, strip_append trails]
  · have apart : '=' ∉ front ++ (text ++ back) := by
      intro inWhole
      rcases List.mem_append.mp inWhole with inFront | inRest
      · exact equals_not_mem leads inFront
      · rcases List.mem_append.mp inRest with inText | inBack
        · exact member inText
        · exact equals_not_mem trails inBack
    rw [nameValue, nameValue, splitOnce_none apart, splitOnce_none member]
    dsimp only
    rw [strip_blank leads, strip_append trails]

theorem cookieAv_around (leads : ∀ char ∈ front, isWsp char = true)
    (trails : ∀ char ∈ back, isWsp char = true) :
    cookieAv isDate (front ++ (text ++ back)) = cookieAv isDate text := by
  rw [cookieAv, cookieAv, nameValue_around leads trails]

theorem pair_around (leads : ∀ char ∈ front, isWsp char = true)
    (trails : ∀ char ∈ back, isWsp char = true) :
    pair (front ++ (text ++ back)) = pair text := by
  have same : '=' ∈ front ++ (text ++ back) ↔ '=' ∈ text := by
    simp [equals_not_mem leads, equals_not_mem trails]
  rw [pair, pair, nameValue_around leads trails]
  simp only [same]

/-- The whitespace of a header's text is blank. -/
theorem isWsp_of_isWhitespace {char : Char} (isAscii : isText [char] = true)
    (isBlank : isWhitespace char = true) : isWsp char = true := by
  have shown : 0x20 ≤ char.toNat ∧ char.toNat < 0x7F ∨ char = '\t' := by
    simpa [isText] using isAscii
  rcases shown with visible | rfl
  · have isSpace : char.toNat = 0x20 := by
      simp only [isWhitespace, Bool.or_eq_true, Bool.and_eq_true, decide_eq_true_eq,
        List.mem_cons, List.not_mem_nil, or_false] at isBlank
      omega
    have same : char = ' ' := Char.toNat_inj.mp isSpace
    rw [same]
    rfl
  · rfl

/-- What the code trims of a header's segment are blanks. -/
theorem exists_around_trim (isAscii : isText segment = true) :
    ∃ front back, segment = front ++ (trim segment ++ back) ∧
      (∀ char ∈ front, isWsp char = true) ∧ ∀ char ∈ back, isWsp char = true := by
  obtain ⟨front, back, whole, leads, trails⟩ := exists_around_trimmed isWhitespace segment
  have blank (char : Char) (member : char ∈ segment) (isBlank : isWhitespace char = true) :
      isWsp char = true :=
    isWsp_of_isWhitespace (by simpa [isText] using List.all_eq_true.mp isAscii char member) isBlank
  refine ⟨front, back, whole, fun char member => ?_, fun char member => ?_⟩
  · refine blank char ?_ (leads char member)
    rw [whole]
    exact List.mem_append_left _ member
  · refine blank char ?_ (trails char member)
    rw [whole]
    exact List.mem_append_right _ (List.mem_append_right _ member)

theorem cookieAv_trim (isAscii : isText segment = true) :
    cookieAv isDate (' ' :: trim segment) = cookieAv isDate segment := by
  obtain ⟨front, back, whole, leads, trails⟩ := exists_around_trim isAscii
  have spaced : cookieAv isDate ([' '] ++ (trim segment ++ [])) = cookieAv isDate (trim segment) :=
    cookieAv_around (by decide) (by decide)
  rw [List.append_nil] at spaced
  conv_rhs => rw [whole, cookieAv_around leads trails]
  exact spaced

theorem pair_trim (isAscii : isText segment = true) : pair (trim segment) = pair segment := by
  obtain ⟨front, back, whole, leads, trails⟩ := exists_around_trim isAscii
  conv_rhs => rw [whole, pair_around leads trails]

end Segments

/-! ### What is sent on -/

section Sent

variable {isDate : List Char → Bool} {setCookie segment : List Char}

theorem isText_segment (isAscii : isText setCookie = true)
    (member : segment ∈ setCookie.splitOn ';') : isText segment = true :=
  List.all_eq_true.mpr fun char found =>
    List.all_eq_true.mp isAscii char (mem_of_mem_splitOn member found).1

theorem mem_splitOn_of_mem_leftOf (member : segment ∈ leftOf setCookie) :
    segment ∈ setCookie.splitOn ';' := List.mem_of_mem_filter member

theorem hostOnlyCookie_eq : hostOnlyCookie setCookie =
    joinSpaced ';' ((leftOf setCookie).map trim) := by
  rw [hostOnlyCookie, leftOf, List.filter_map]
  rfl

theorem parse_eq : parse isDate setCookie =
    ((setCookie.splitOn ';').head?.bind pair).map fun (name, value) =>
      { name, value
        attributes := (setCookie.splitOn ';').tail.filterMap (cookieAv isDate) } := by
  rw [parse]
  cases setCookie.splitOn ';' with
  | nil | cons => rfl

/-- A user agent reads of what is sent on the segments that are left. -/
theorem parse_hostOnlyCookie (isAscii : isText setCookie = true) :
    parse isDate (hostOnlyCookie setCookie) =
      ((leftOf setCookie).head?.bind pair).map fun (name, value) =>
        { name, value
          attributes := (leftOf setCookie).tail.filterMap (cookieAv isDate) } := by
  have ascii : ∀ segment ∈ leftOf setCookie, isText segment = true := fun segment member =>
    isText_segment isAscii (mem_splitOn_of_mem_leftOf member)
  have unmarked : ∀ segment ∈ leftOf setCookie, ';' ∉ trim segment := fun segment member found =>
    (mem_of_mem_splitOn (mem_splitOn_of_mem_leftOf member) (mem_of_mem_trim found)).2 rfl
  rw [hostOnlyCookie_eq]
  cases isLeft : leftOf setCookie with
  | nil => rfl
  | cons first rest =>
      rw [isLeft] at ascii unmarked
      have segments : (joinSpaced ';' ((first :: rest).map trim)).splitOn ';' =
          trim first :: rest.map fun other => ' ' :: trim other := by
        rw [List.map_cons, splitOn_joinSpaced (by decide), List.map_map]
        · rfl
        · simpa [List.forall_mem_cons] using List.forall_mem_cons.mp unmarked
      have attributes : (rest.map fun other => ' ' :: trim other).filterMap (cookieAv isDate) =
          rest.filterMap (cookieAv isDate) := by
        rw [List.filterMap_map]
        exact List.filterMap_congr fun other member =>
          cookieAv_trim (ascii other (List.mem_cons_of_mem first member))
      rw [parse_eq, segments]
      simp only [List.head?_cons, Option.bind_some, List.tail_cons]
      rw [pair_trim (ascii first List.mem_cons_self), attributes]

/-- A segment that is dropped has the name of a domain. -/
theorem name_of_dropped (isAscii : isText segment = true)
    (dropped : isDomainAttr (trim segment) = true) :
    '=' ∈ segment ∧ (nameValue segment).1.map Char.toLower = "domain".toList := by
  obtain ⟨front, back, whole, leads, trails⟩ := exists_around_trim isAscii
  obtain ⟨rest, lower⟩ := List.isPrefixOf_iff_prefix.mp dropped
  -- the text that lowers to `domain=` ends with a `=` of its own
  obtain ⟨attr, value, isTrimmed, isAttr, _⟩ := List.map_eq_append_iff.mp lower.symm
  have parts : attr.map Char.toLower = "domain".toList ++ ['='] := by
    rw [isAttr]
    rfl
  obtain ⟨name, mark, rfl, isName, isMark⟩ := List.map_eq_append_iff.mp parts
  obtain ⟨char, rfl, isEquals⟩ := List.map_eq_singleton_iff.mp isMark
  obtain rfl := (toLower_eq_iff (by decide) (by decide)).mp isEquals
  have noMark : ∀ char ∈ name, isWsp char = false ∧ char ≠ '=' := by
    intro char member
    have lowered : char.toLower ∈ "domain".toList := by
      rw [← isName]
      exact List.mem_map_of_mem member
    have letters : ∀ letter ∈ "domain".toList,
        letter ≠ ' ' ∧ letter ≠ '\t' ∧ letter ≠ '=' := by decide
    obtain ⟨noSpace, noTab, noEquals⟩ := letters _ lowered
    refine ⟨?_, ?_⟩
    · rw [isWsp, Bool.or_eq_false_iff, decide_eq_false_iff_not, decide_eq_false_iff_not]
      refine ⟨?_, ?_⟩
      · rintro rfl
        exact noSpace rfl
      · rintro rfl
        exact noTab rfl
    · rintro rfl
      exact noEquals rfl
  have split : splitOnce '=' (trim segment) = some (name, value) := by
    rw [isTrimmed, List.append_assoc]
    exact splitOnce_append fun member => (noMark '=' member).2 rfl
  have stripped : strip name = name := by
    rw [strip, List.dropWhile_eq_self_iff.mpr, List.rdropWhile_eq_self_iff.mpr]
    · intro nonempty isBlank
      rw [(noMark _ (List.getLast_mem nonempty)).1] at isBlank
      cases isBlank
    · intro nonempty isBlank
      rw [(noMark _ (List.getElem_mem nonempty)).1] at isBlank
      cases isBlank
  constructor
  · rw [whole, isTrimmed]
    simp
  · rw [whole, nameValue_around leads trails, nameValue, split]
    dsimp only
    rw [stripped, isName]

theorem isDomain_of_name (named : (nameValue segment).1.map Char.toLower = "domain".toList) :
    ∀ attr ∈ cookieAv isDate segment, attr.isDomain = true := by
  intro attr member
  unfold cookieAv at member
  dsimp only at member
  rw [named] at member
  rw [if_neg (by decide), if_neg (by decide), if_pos rfl] at member
  split at member
  · cases member
  · cases member
    rfl

/-- The attributes that are not domains are the same without a segment that is one. -/
theorem filterMap_cons_domain {rest : List (List Char)}
    (named : (nameValue segment).1.map Char.toLower = "domain".toList) :
    ((segment :: rest).filterMap (cookieAv isDate)).filter (!·.isDomain) =
      (rest.filterMap (cookieAv isDate)).filter (!·.isDomain) := by
  have isDomain := @isDomain_of_name isDate segment named
  rw [List.filterMap_cons]
  cases attr : cookieAv isDate segment with
  | none => rfl
  | some attr' =>
      dsimp only
      rw [List.filter_cons_of_neg]
      simp [isDomain attr' attr]

theorem filterMap_kept {segments : List (List Char)}
    (ascii : ∀ segment ∈ segments, isText segment = true) :
    ((segments.filter fun segment => !isDomainAttr (trim segment)).filterMap
        (cookieAv isDate)).filter (!·.isDomain) =
      (segments.filterMap (cookieAv isDate)).filter (!·.isDomain) := by
  induction segments with
  | nil => rfl
  | cons segment rest ih =>
      have later := ih fun other member =>
        ascii other (List.mem_cons_of_mem segment member)
      cases dropped : isDomainAttr (trim segment) with
      | true =>
          rw [List.filter_cons_of_neg (by simp [dropped]), later,
            filterMap_cons_domain (name_of_dropped (ascii segment List.mem_cons_self) dropped).2]
      | false =>
          rw [List.filter_cons_of_pos (by simp [dropped]), List.filterMap_cons,
            List.filterMap_cons]
          cases cookieAv isDate segment with
          | none => exact later
          | some attr =>
              dsimp only
              rw [List.filter_cons, List.filter_cons, later]

theorem pair_some {found : List Char × List Char} (isPair : pair segment = some found) :
    nameValue segment = found := by
  unfold pair at isPair
  split at isPair
  · obtain ⟨same, _⟩ := Option.filter_eq_some_iff.mp isPair
    exact Option.some.inj same
  · cases isPair

/-- When the cookie is read off a segment of its own, the attributes that are not domains
are all left. -/
theorem tail_kept (isAscii : isText setCookie = true) {found : List Char × List Char}
    (isCookie : (setCookie.splitOn ';').head?.bind pair = some found)
    (isOwn : (leftOf setCookie).head?.bind pair = some found) :
    ((leftOf setCookie).tail.filterMap (cookieAv isDate)).filter (!·.isDomain) =
      ((setCookie.splitOn ';').tail.filterMap (cookieAv isDate)).filter (!·.isDomain) := by
  have ascii : ∀ segment ∈ setCookie.splitOn ';', isText segment = true := fun segment member =>
    isText_segment isAscii member
  unfold leftOf at isOwn ⊢
  cases segments : setCookie.splitOn ';' with
  | nil => rfl
  | cons first rest =>
      rw [segments] at isCookie isOwn ascii
      have kept := @filterMap_kept isDate rest fun other member =>
        ascii other (List.mem_cons_of_mem first member)
      cases dropped : isDomainAttr (trim first) with
      | false =>
          rw [List.filter_cons_of_pos (by simp [dropped])]
          exact kept
      | true =>
          rw [List.filter_cons_of_neg (by simp [dropped])] at isOwn ⊢
          have named := (name_of_dropped (ascii first List.mem_cons_self) dropped).2
          rw [pair_some isCookie] at named
          -- what is left starts with a segment that spells the same name
          cases isLeft : rest.filter fun segment => !isDomainAttr (trim segment) with
          | nil =>
              rw [isLeft] at isOwn
              cases isOwn
          | cons other more =>
              rw [isLeft] at isOwn kept
              rw [← pair_some isOwn] at named
              rw [filterMap_cons_domain named] at kept
              exact kept

/-- A cookie stays itself exactly when the first segment that is left is its own, and no
domain is left after it. -/
theorem staysItself_iff (isDate : List Char → Bool) (isAscii : isText setCookie = true) :
    StaysItself isDate setCookie ↔ FirstIsOwn setCookie ∧ NoDomainLeft isDate setCookie := by
  unfold StaysItself FirstIsOwn NoDomainLeft
  rw [parse_hostOnlyCookie isAscii, parse_eq]
  cases isCookie : (setCookie.splitOn ';').head?.bind pair with
  | none => simp
  | some found =>
      obtain ⟨name, value⟩ := found
      have kept := fun isOwn => @tail_kept isDate setCookie isAscii _ isCookie isOwn
      cases isLeft : (leftOf setCookie).head?.bind pair with
      | none => simp
      | some other =>
          obtain ⟨otherName, otherValue⟩ := other
          simp only [Option.map_some, Option.some.injEq, Cookie.mk.injEq, Prod.mk.injEq,
            Option.isSome_some, forall_const]
          constructor
          · rintro ⟨rfl, rfl, same⟩
            refine ⟨⟨rfl, rfl⟩, fun segment member attr isAttr => ?_⟩
            have inLeft : attr ∈ (leftOf setCookie).tail.filterMap (cookieAv isDate) :=
              List.mem_filterMap.mpr ⟨segment, member, isAttr⟩
            rw [same] at inLeft
            simpa using (List.mem_filter.mp inLeft).2
          · rintro ⟨⟨rfl, rfl⟩, clean⟩
            refine ⟨rfl, rfl, ?_⟩
            rw [← kept isLeft, List.filter_eq_self.mpr]
            intro attr member
            obtain ⟨segment, inLeft, isAttr⟩ := List.mem_filterMap.mp member
            simp [clean segment inLeft attr isAttr]

/-- A blank before the `=` keeps the domain, and a cookie of that name is dropped. -/
theorem staysItself_domain :
    ¬ StaysItself (fun _ => false) "sid=1; Domain =nook.example; Path=/".toList ∧
      ¬ StaysItself (fun _ => false) "domain=1; Path=/".toList := by
  unfold StaysItself
  decide +kernel

theorem staysItself_sid :
    StaysItself (fun _ => false) "sid=1; Domain=nook.example; Path=/".toList :=
  (staysItself_iff _ (by decide)).mpr ⟨by unfold FirstIsOwn; decide +kernel,
    by unfold NoDomainLeft; decide +kernel⟩

end Sent

end NookOs.Ws.HostCookie
