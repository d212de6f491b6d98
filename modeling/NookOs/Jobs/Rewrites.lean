/-
Module: NookOs.Jobs.Rewrites
Purpose: The `insteadOf` rules of a clone cache's own config, and the removal of
  those that would send the workspace's remote somewhere else.
Trusted boundary: the POSIX matcher of `git config` is a parameter, with the meaning
  of an anchored literal; git's documented choice among the rules is InForce
Main exports: RewriteRule, effective, rewriteRules, Drops, clearRedirectingRewrites_settles
-/
import NookOs.Jobs.Remotes
import Mathlib.Data.List.MinMax
import Mathlib.Data.Prod.Lex

namespace NookOs.Jobs

open Lib

section Config

/-- One value of the mirror's own config, under its key as git spells it back. -/
structure Entry where
  key : List Char
  value : List Char
deriving DecidableEq

abbrev Config := List Entry

/-- What git lets a key and a value hold. -/
structure Entry.Legal (entry : Entry) : Prop where
  keyLine : '\n' ∉ entry.key
  keyNul : '\x00' ∉ entry.key
  valueNul : '\x00' ∉ entry.value

/-- The keys of `^url\..*\.insteadof$`. -/
def Entry.isUrlRule (entry : Entry) : Bool :=
  "url.".toList.isPrefixOf entry.key && ".insteadof".toList.isSuffixOf (entry.key.drop 4)

/-- What `git config --local --null --get-regexp` prints of those.  It fails where
there is none, and may be refused for reasons of git's own. -/
def Config.getRegexp (refusal : Option String) (config : Config) :
    Except String (List Char) :=
  match refusal with
  | some error => .error error
  | none =>
      let found := config.filter Entry.isUrlRule
      if found = [] then .error ""
      else .ok (found.flatMap fun entry => entry.key ++ '\n' :: entry.value ++ ['\x00'])

/-- `git config --local --unset-all` of a key and a pattern, which fails where
nothing matches. -/
def Config.unsetAll (accepts : List Char → List Char → Bool) (config : Config)
    (key pattern : List Char) : Option Config :=
  let gone (entry : Entry) : Bool := entry.key = key && accepts pattern entry.value
  if config.any gone then some (config.filter fun entry => !gone entry) else none

end Config

section Rules

/-- One rule: git replaces the text at the start of a URL with the base. -/
structure RewriteRule where
  key : List Char
  base : List Char
  insteadOf : List Char
deriving DecidableEq

def RewriteRule.rewrite (rule : RewriteRule) (url : List Char) : Option (List Char) :=
  (rule.insteadOf.isPrefixOf? url).map (rule.base ++ ·)

/-- Which rule git will use: the longest, and the earliest of those. -/
def effective (rules : List RewriteRule) (url : List Char) : Option Nat :=
  ((rules.zipIdx.filter fun (rule, _) => rule.insteadOf.isPrefixOf url).argmax
    fun (rule, index) => toLex (Text.utf8Length rule.insteadOf, OrderDual.toDual index)).map
      Prod.snd

def parseRecord (record : List Char) : Option RewriteRule := do
  let (key, insteadOf) ← Text.splitOnce '\n' record
  let rest ← "url.".toList.isPrefixOf? key
  let base ← ".insteadof".toList.isSuffixOf? rest
  some { key := key, base := base, insteadOf := insteadOf }

/-- A read that fails, for whatever reason, is taken for a config without rules. -/
def rewriteRules (refusal : Option String) (config : Config) : List RewriteRule :=
  match config.getRegexp refusal with
  | .error _ => []
  | .ok out =>
      (((Text.trim out).splitOn '\x00').filter (· ≠ [])).filterMap parseRecord

/-- The characters that have a meaning in a pattern. -/
def special : List Char :=
  ['\\', '^', '$', '.', '[', ']', '|', '(', ')', '*', '+', '?', '\x7b', '\x7d']

/-- A value escaped and anchored. -/
def exactValuePattern (value : List Char) : List Char :=
  '^' :: (value.flatMap fun char => if char ∈ special then ['\\', char] else [char]) ++ ['$']

end Rules

section Clearing

/-- What clearing has done when it returns. -/
structure Cleared where
  config : Config
  notes : List String
  result : Except String Unit

variable (accepts : List Char → List Char → Bool) (refused : Nat → Option String)
  (cache : String) (remote : List Char)

def removedNote (rule : RewriteRule) (rewritten : List Char) : String :=
  "removed the git rewrite rule " ++ String.ofList rule.key ++ " = " ++
    String.ofList rule.insteadOf ++ " from the clone cache at " ++ cache ++
    ": it sent this workspace's remote " ++ String.ofList remote ++ " to " ++
    String.ofList rewritten ++
    ", past the credential pinned to the remote the workspace chose"

def removalFailed (rule : RewriteRule) (error : String) : String :=
  "cannot remove the git rewrite rule " ++ String.ofList rule.key ++ " = " ++
    String.ofList rule.insteadOf ++ " from " ++ cache ++ ": " ++ error

/-- The list of rules shrinks with the config.  A call of git may be refused for
reasons of its own. -/
def clearFrom (calls : Nat) (rules : List RewriteRule) (config : Config)
    (notes : List String) : Cleared :=
  match effective rules remote with
  | none => { config := config, notes := notes, result := .ok () }
  | some index =>
      match _isRule : rules[index]? with
      | none => { config := config, notes := notes, result := .ok () }
      | some rule =>
          match rule.rewrite remote with
          | none => { config := config, notes := notes, result := .ok () }
          | some rewritten =>
              if normalizedRemote rewritten = normalizedRemote remote then
                { config := config, notes := notes, result := .ok () }
              else
                match refused calls with
                | some error =>
                    { config := config, notes := notes
                      result := .error (removalFailed cache rule error) }
                | none =>
                    match config.unsetAll accepts rule.key
                        (exactValuePattern rule.insteadOf) with
                    | none =>
                        { config := config, notes := notes
                          result := .error (removalFailed cache rule "") }
                    | some after =>
                        clearFrom (calls + 1)
                          ((rules.eraseIdx index).filter fun other =>
                            other.key ≠ rule.key || other.insteadOf ≠ rule.insteadOf)
                          after (notes ++ [removedNote cache remote rule rewritten])
termination_by rules.length
decreasing_by
  have within := (List.getElem?_eq_some_iff.mp _isRule).1
  have shorter := List.length_eraseIdx_of_lt within
  have fewer := List.length_filter_le (fun other : RewriteRule =>
    other.key ≠ rule.key || other.insteadOf ≠ rule.insteadOf) (rules.eraseIdx index)
  omega

/-- The read is the first call of git. -/
def clearRedirectingRewrites (config : Config) : Cleared :=
  clearFrom accepts refused cache remote 1 (rewriteRules (refused 0) config) config []

end Clearing

section Meaning

/-- The rule of an entry, where it is one. -/
def ruleOf (entry : Entry) : Option RewriteRule := do
  let rest ← "url.".toList.isPrefixOf? entry.key
  let base ← ".insteadof".toList.isSuffixOf? rest
  some { key := entry.key, base := base, insteadOf := entry.value }

def rulesOf (config : Config) : List RewriteRule := config.filterMap ruleOf

/-- The rule that git uses for a URL: it applies, no other that does is longer, and
of its length none stands before it. -/
structure InForce (rules : List RewriteRule) (url : List Char) (index : Nat)
    (rule : RewriteRule) : Prop where
  isRule : rules[index]? = some rule
  applies : rule.insteadOf <+: url
  longest : ∀ other ∈ rules, other.insteadOf <+: url →
    Text.utf8Length other.insteadOf ≤ Text.utf8Length rule.insteadOf
  first : ∀ place other, rules[place]? = some other → other.insteadOf <+: url →
    Text.utf8Length other.insteadOf = Text.utf8Length rule.insteadOf → index ≤ place

/-- The URL that git derives: rewritten once, or as it is where no rule applies. -/
def Derives (rules : List RewriteRule) (url derived : List Char) : Prop :=
  (∃ index rule rest, InForce rules url index rule ∧ url = rule.insteadOf ++ rest ∧
    derived = rule.base ++ rest) ∨
  ((∀ rule ∈ rules, ¬ rule.insteadOf <+: url) ∧ derived = url)

/-- A rule that sends a remote to another place. -/
def RewriteRule.Redirects (rule : RewriteRule) (remote : List Char) : Prop :=
  ∃ rest, remote = rule.insteadOf ++ rest ∧
    normalizedRemote (rule.base ++ rest) ≠ normalizedRemote remote

/-- Entries go one after the other, each with its like, and each the rule in force
and a redirection when it goes. -/
inductive Drops (remote : List Char) : Config → List Entry → Config → Prop where
  | none {config : Config} : Drops remote config [] config
  | one {config after : Config} {entry : Entry} {rest : List Entry} {index : Nat}
      {rule : RewriteRule} (isRule : ruleOf entry = some rule)
      (inForce : InForce (rulesOf config) remote index rule) (redirects : rule.Redirects remote)
      (later : Drops remote (config.filter (· ≠ entry)) rest after) :
      Drops remote config (entry :: rest) after

/-- A pattern that spells a text: what has a meaning is escaped. -/
inductive Literal : List Char → List Char → Prop where
  | nil : Literal [] []
  | ordinary {char : Char} {pattern text : List Char} (plain : char ∉ special)
      (rest : Literal pattern text) : Literal (char :: pattern) (char :: text)
  | escaped {char : Char} {pattern text : List Char} (isSpecial : char ∈ special)
      (rest : Literal pattern text) : Literal ('\\' :: char :: pattern) (char :: text)

/-- The matcher of extended regular expressions.  An anchored literal matches its
text and no other. -/
structure PosixEre where
  accepts : List Char → List Char → Bool
  anchored : ∀ {pattern text : List Char} (value : List Char), Literal pattern text →
    (accepts ('^' :: pattern ++ ['$']) value = true ↔ value = text)

end Meaning

section Reading

variable {config : Config} {entry : Entry} {rule : RewriteRule}

theorem literal_escape (value : List Char) :
    Literal (value.flatMap fun char => if char ∈ special then ['\\', char] else [char])
      value := by
  induction value with
  | nil => exact .nil
  | cons char rest ih =>
      rw [List.flatMap_cons]
      split
      case isTrue isSpecial => exact .escaped isSpecial ih
      case isFalse plain => exact .ordinary plain ih

/-- The pattern of a value matches it alone. -/
theorem PosixEre.exactValue (ere : PosixEre) (value other : List Char) :
    ere.accepts (exactValuePattern value) other = true ↔ other = value :=
  ere.anchored other (literal_escape value)

theorem ruleOf_some (isRule : ruleOf entry = some rule) :
    rule.key = entry.key ∧ rule.insteadOf = entry.value := by
  obtain ⟨rest, -, isBase⟩ := Option.bind_eq_some_iff.mp isRule
  obtain ⟨base, -, same⟩ := Option.bind_eq_some_iff.mp isBase
  cases same
  exact ⟨rfl, rfl⟩

theorem isSuffixOf?_isSome {pattern text : List Char} :
    (pattern.isSuffixOf? text).isSome = pattern.isSuffixOf text := by
  rw [List.isSuffixOf?, List.isSuffixOf, Option.isSome_map]
  cases split : pattern.reverse.isPrefixOf? text.reverse with
  | none =>
      symm
      rw [Option.isSome_none, ← Bool.not_eq_true, List.isPrefixOf_iff_prefix]
      rintro ⟨rest, same⟩
      rw [← same, Text.isPrefixOf?_append] at split
      cases split
  | some rest =>
      symm
      rw [Option.isSome_some, List.isPrefixOf_iff_prefix]
      exact ⟨rest, (Text.isPrefixOf?_some split).symm⟩

/-- The entries that git prints are those of rules. -/
theorem isUrlRule_eq : entry.isUrlRule = (ruleOf entry).isSome := by
  rw [Entry.isUrlRule, ruleOf]
  cases split : "url.".toList.isPrefixOf? entry.key with
  | none =>
      have apart : "url.".toList.isPrefixOf entry.key = false := by
        rw [← Bool.not_eq_true, List.isPrefixOf_iff_prefix]
        rintro ⟨rest, same⟩
        rw [← same, Text.isPrefixOf?_append] at split
        cases split
      rw [apart]
      rfl
  | some rest =>
      have isKey := Text.isPrefixOf?_some split
      have isPrefix : "url.".toList.isPrefixOf entry.key = true :=
        List.isPrefixOf_iff_prefix.mpr ⟨rest, isKey.symm⟩
      have isRest : entry.key.drop 4 = rest := by
        rw [isKey]
        rfl
      rw [isPrefix, isRest, Bool.true_and, ← isSuffixOf?_isSome]
      dsimp only [bind, Option.bind]
      cases ".insteadof".toList.isSuffixOf? rest <;> rfl

theorem parseRecord_entry (legal : entry.Legal) :
    parseRecord (entry.key ++ '\n' :: entry.value) = ruleOf entry := by
  rw [parseRecord, Text.splitOnce_append legal.keyLine]
  rfl

/-- Records that are ended by a mark they do not hold are split at it. -/
theorem splitOn_records {mark : Char} {records : List (List Char)}
    (absent : ∀ record ∈ records, mark ∉ record) :
    (records.flatMap (· ++ [mark])).splitOn mark = records ++ [[]] := by
  induction records with
  | nil => rfl
  | cons record rest ih =>
      rw [List.flatMap_cons, List.append_assoc, List.singleton_append,
        List.splitOn_append_cons_self_of_not_mem (absent record List.mem_cons_self),
        ih fun other member => absent other (List.mem_cons_of_mem record member)]
      rfl

/-- What git prints begins with a key and ends with a mark, so nothing of it is
trimmed. -/
theorem trim_printed {entries : Config} (areRules : ∀ entry ∈ entries, entry.isUrlRule = true)
    (nonempty : entries ≠ []) :
    Text.trim (entries.flatMap fun entry => entry.key ++ '\n' :: entry.value ++ ['\x00']) =
      entries.flatMap fun entry => entry.key ++ '\n' :: entry.value ++ ['\x00'] := by
  apply Text.trim_eq_self
  · intro char isHead
    cases entries with
    | nil => exact absurd rfl nonempty
    | cons entry rest =>
        have isRule := areRules entry List.mem_cons_self
        rw [Entry.isUrlRule, Bool.and_eq_true, List.isPrefixOf_iff_prefix] at isRule
        obtain ⟨tail, isKey⟩ := isRule.1
        rw [List.flatMap_cons, ← isKey] at isHead
        cases isHead
        decide
  · intro char isLast
    obtain ⟨front, last, isSplit⟩ := List.eq_nil_or_concat entries |>.resolve_left nonempty
    rw [isSplit, List.concat_eq_append, List.flatMap_append, List.flatMap_singleton,
      ← List.append_assoc, List.getLast?_concat] at isLast
    cases isLast
    decide

/-- Where keys and values are as git has them, the rules that are read are those of
the config. -/
theorem rewriteRules_eq (legal : ∀ entry ∈ config, entry.Legal) :
    rewriteRules none config = rulesOf config := by
  have isRule (entry : Entry) : entry.isUrlRule = true ↔ (ruleOf entry).isSome = true := by
    rw [isUrlRule_eq]
  have found : (config.filter Entry.isUrlRule).filterMap ruleOf = rulesOf config := by
    rw [List.filterMap_filter, rulesOf]
    apply List.filterMap_congr
    intro entry _
    rw [isUrlRule_eq]
    cases ruleOf entry <;> rfl
  rw [rewriteRules, Config.getRegexp]
  split
  case h_1 noRule =>
    split at noRule
    case isTrue empty =>
      rw [← found, empty]
      rfl
    case isFalse => cases noRule
  case h_2 out isOut =>
    split at isOut
    case isTrue => cases isOut
    case isFalse nonempty =>
      cases isOut
      have areRules : ∀ entry ∈ config.filter Entry.isUrlRule, entry.isUrlRule = true :=
        fun entry member => (List.mem_filter.mp member).2
      have legalToo : ∀ entry ∈ config.filter Entry.isUrlRule, entry.Legal :=
        fun entry member => legal entry (List.mem_filter.mp member).1
      rw [trim_printed areRules nonempty, ← found]
      generalize config.filter Entry.isUrlRule = entries at legalToo
      have records : (entries.flatMap fun entry =>
          entry.key ++ '\n' :: entry.value ++ ['\x00']) =
            (entries.map fun entry => entry.key ++ '\n' :: entry.value).flatMap
              (· ++ ['\x00']) := by
        rw [List.flatMap_map]
      have absent : ∀ record ∈ entries.map fun entry => entry.key ++ '\n' :: entry.value,
          '\x00' ∉ record := by
        intro record member inRecord
        obtain ⟨entry, inConfig, rfl⟩ := List.mem_map.mp member
        have isLegal := legalToo entry inConfig
        rcases List.mem_append.mp inRecord with inKey | inValue
        · exact isLegal.keyNul inKey
        · rcases List.mem_cons.mp inValue with isLine | inValue
          · cases isLine
          · exact isLegal.valueNul inValue
      have kept : (entries.map fun entry => entry.key ++ '\n' :: entry.value).filter (· ≠ []) =
          entries.map fun entry => entry.key ++ '\n' :: entry.value := by
        apply List.filter_eq_self.mpr
        intro record member
        obtain ⟨entry, -, rfl⟩ := List.mem_map.mp member
        exact decide_eq_true (List.append_ne_nil_of_right_ne_nil _ (List.cons_ne_nil _ _))
      rw [records, splitOn_records absent, List.filter_append, kept]
      have noMore : ([[]] : List (List Char)).filter (· ≠ []) = [] := rfl
      rw [noMore, List.append_nil, List.filterMap_map]
      apply List.filterMap_congr
      intro entry member
      exact parseRecord_entry (legalToo entry member)

end Reading

section Choosing

variable {rules : List RewriteRule} {url : List Char} {index : Nat} {rule : RewriteRule}

/-- The candidates are the rules that apply, under their places. -/
theorem mem_candidates :
    (rule, index) ∈ (rules.zipIdx.filter fun (rule, _) => rule.insteadOf.isPrefixOf url) ↔
      rules[index]? = some rule ∧ rule.insteadOf <+: url := by
  rw [List.mem_filter, List.mem_zipIdx_iff_getElem?, List.isPrefixOf_iff_prefix]

/-- The rule that the code takes for the one in force is. -/
theorem inForce_of_effective (chosen : effective rules url = some index) :
    ∃ rule, InForce rules url index rule := by
  obtain ⟨⟨rule, place⟩, isMost, rfl⟩ := Option.map_eq_some_iff.mp chosen
  obtain ⟨isRule, applies⟩ := mem_candidates.mp (List.argmax_mem isMost)
  have most (other : RewriteRule) (otherPlace : Nat) (isOther : rules[otherPlace]? = some other)
      (otherApplies : other.insteadOf <+: url) :
      Text.utf8Length other.insteadOf < Text.utf8Length rule.insteadOf ∨
        (Text.utf8Length other.insteadOf = Text.utf8Length rule.insteadOf ∧
          place ≤ otherPlace) := by
    have atMost := List.le_of_mem_argmax (mem_candidates.mpr ⟨isOther, otherApplies⟩) isMost
    exact Prod.Lex.toLex_le_toLex.mp atMost
  refine ⟨rule, isRule, applies, ?_, ?_⟩
  · intro other member otherApplies
    obtain ⟨otherPlace, isOther⟩ := List.mem_iff_getElem?.mp member
    rcases most other otherPlace isOther otherApplies with shorter | ⟨same, -⟩
    · exact Nat.le_of_lt shorter
    · exact Nat.le_of_eq same
  · intro otherPlace other isOther otherApplies sameLength
    rcases most other otherPlace isOther otherApplies with shorter | ⟨-, later⟩
    · exact absurd sameLength (Nat.ne_of_lt shorter)
    · exact later

theorem effective_none (none : effective rules url = none) :
    ∀ rule ∈ rules, ¬ rule.insteadOf <+: url := by
  intro rule member applies
  obtain ⟨place, isRule⟩ := List.mem_iff_getElem?.mp member
  have noCandidate := List.argmax_eq_none.mp (Option.map_eq_none_iff.mp none)
  have candidate := mem_candidates.mpr ⟨isRule, applies⟩
  rw [noCandidate] at candidate
  cases candidate

/-- One rule is in force. -/
theorem InForce.unique {other : RewriteRule} {place : Nat}
    (inForce : InForce rules url index rule) (otherInForce : InForce rules url place other) :
    index = place ∧ rule = other := by
  have sameLength := Nat.le_antisymm
    (otherInForce.longest rule (List.mem_of_getElem? inForce.isRule) inForce.applies)
    (inForce.longest other (List.mem_of_getElem? otherInForce.isRule) otherInForce.applies)
  have same := Nat.le_antisymm
    (inForce.first place other otherInForce.isRule otherInForce.applies sameLength.symm)
    (otherInForce.first index rule inForce.isRule inForce.applies sameLength)
  refine ⟨same, ?_⟩
  have isRule := inForce.isRule
  rw [same, otherInForce.isRule] at isRule
  exact (Option.some.inj isRule).symm

theorem rewrite_inForce (inForce : InForce rules url index rule) :
    ∃ rest, url = rule.insteadOf ++ rest ∧ rule.rewrite url = some (rule.base ++ rest) := by
  obtain ⟨rest, rfl⟩ := inForce.applies
  refine ⟨rest, rfl, ?_⟩
  rw [RewriteRule.rewrite, Text.isPrefixOf?_append]
  rfl

/-- With a rule in force git derives the URL that it rewrites to. -/
theorem derives_iff_of_inForce {rest derived : List Char}
    (inForce : InForce rules url index rule) (isUrl : url = rule.insteadOf ++ rest) :
    Derives rules url derived ↔ derived = rule.base ++ rest := by
  constructor
  · rintro (⟨place, other, after, otherInForce, isOther, isDerived⟩ | ⟨noRule, -⟩)
    · obtain ⟨-, rfl⟩ := inForce.unique otherInForce
      rw [isDerived, List.append_cancel_left (isOther.symm.trans isUrl)]
    · exact absurd inForce.applies (noRule rule (List.mem_of_getElem? inForce.isRule))
  · intro isDerived
    exact .inl ⟨index, rule, rest, inForce, isUrl, isDerived⟩

theorem derives_iff_of_none {derived : List Char}
    (noRule : ∀ rule ∈ rules, ¬ rule.insteadOf <+: url) :
    Derives rules url derived ↔ derived = url := by
  constructor
  · rintro (⟨place, other, after, inForce, -, -⟩ | ⟨-, isDerived⟩)
    · exact absurd inForce.applies (noRule other (List.mem_of_getElem? inForce.isRule))
    · exact isDerived
  · intro isDerived
    exact .inr ⟨noRule, isDerived⟩

end Choosing

section Run

variable {config after : Config} {entry : Entry} {rule : RewriteRule} {remote : List Char}

/-- Under the rules that are left git derives a URL of the remote's own place. -/
def ReachesRemote (remote : List Char) (config : Config) : Prop :=
  ∃ url, (∀ derived, Derives (rulesOf config) remote derived ↔ derived = url) ∧
    normalizedRemote url = normalizedRemote remote

/-- What was dropped is gone, and everything else is where it was. -/
theorem Drops.kept {dropped : List Entry} (drops : Drops remote config dropped after) :
    after = config.filter (· ∉ dropped) := by
  induction drops with
  | none => simp only [List.not_mem_nil, not_false_eq_true, decide_true, List.filter_true]
  | one _ _ _ _ ih =>
      rw [ih, List.filter_filter]
      apply List.filter_congr
      intro other _
      simp only [List.mem_cons, not_or, Bool.decide_and, Bool.and_comm]

/-- The removal of an entry from the config is that of its rule from the list. -/
theorem rulesOf_filter (isRule : ruleOf entry = some rule) :
    rulesOf (config.filter (· ≠ entry)) = (rulesOf config).filter fun other =>
      other.key ≠ rule.key || other.insteadOf ≠ rule.insteadOf := by
  obtain ⟨isKey, isValue⟩ := ruleOf_some isRule
  rw [rulesOf, rulesOf, List.filterMap_filter, List.filter_filterMap]
  apply List.filterMap_congr
  intro other _
  cases isOther : ruleOf other with
  | none => simp only [Option.filter_none, ite_self]
  | some otherRule =>
      obtain ⟨otherKey, otherValue⟩ := ruleOf_some isOther
      obtain ⟨key, value⟩ := other
      obtain ⟨entryKey, entryValue⟩ := entry
      rw [Option.filter_some, isKey, isValue, otherKey, otherValue]
      simp only [ne_eq, Entry.mk.injEq, decide_eq_true_eq, Bool.or_eq_true, not_and_or]

theorem filter_eraseIdx {Item : Type} {items : List Item} {index : Nat} {item : Item}
    {keeps : Item → Bool} (isItem : items[index]? = some item) (drops : keeps item = false) :
    (items.eraseIdx index).filter keeps = items.filter keeps := by
  induction items generalizing index with
  | nil => cases isItem
  | cons first rest ih =>
      cases index with
      | zero =>
          cases isItem
          rw [List.eraseIdx_cons_zero, List.filter_cons_of_neg (by rw [drops]; decide)]
      | succ index =>
          rw [List.eraseIdx_cons_succ, List.filter_cons, List.filter_cons,
            ih isItem]

/-- The command takes the entry, and nothing else. -/
theorem unsetAll_entry (ere : PosixEre) (isRule : ruleOf entry = some rule)
    (unset : config.unsetAll ere.accepts rule.key (exactValuePattern rule.insteadOf) =
      some after) : after = config.filter (· ≠ entry) := by
  obtain ⟨isKey, isValue⟩ := ruleOf_some isRule
  rw [Config.unsetAll] at unset
  dsimp only at unset
  split at unset
  case isFalse => cases unset
  case isTrue =>
    cases unset
    apply List.filter_congr
    intro other _
    obtain ⟨key, value⟩ := other
    obtain ⟨entryKey, entryValue⟩ := entry
    have matched := ere.exactValue rule.insteadOf value
    rw [isValue] at matched
    simp only [isKey, isValue, ne_eq, Entry.mk.injEq]
    grind

/-- The command finds the entry. -/
theorem unsetAll_ne_none (ere : PosixEre) (member : entry ∈ config)
    (isRule : ruleOf entry = some rule) :
    config.unsetAll ere.accepts rule.key (exactValuePattern rule.insteadOf) ≠ none := by
  obtain ⟨isKey, isValue⟩ := ruleOf_some isRule
  have found : config.any (fun other => other.key = rule.key &&
      ere.accepts (exactValuePattern rule.insteadOf) other.value) = true := by
    refine List.any_eq_true.mpr ⟨entry, member, ?_⟩
    rw [isKey, decide_eq_true rfl, Bool.true_and]
    exact (ere.exactValue rule.insteadOf entry.value).mpr isValue.symm
  rw [Config.unsetAll]
  dsimp only
  rw [if_pos found]
  exact Option.some_ne_none _

theorem reachesRemote_of_effective {rewritten : List Char} {index : Nat}
    (chosen : effective (rulesOf config) remote = some index)
    (isRule : (rulesOf config)[index]? = some rule)
    (rewrites : rule.rewrite remote = some rewritten)
    (same : normalizedRemote rewritten = normalizedRemote remote) :
    ReachesRemote remote config := by
  obtain ⟨other, inForce⟩ := inForce_of_effective chosen
  cases isRule.symm.trans inForce.isRule
  obtain ⟨rest, isUrl, isRewritten⟩ := rewrite_inForce inForce
  cases rewrites.symm.trans isRewritten
  exact ⟨rule.base ++ rest, fun derived => derives_iff_of_inForce inForce isUrl, same⟩

/-- The loop, as long as the list of rules is that of the config: what it drops was
in force and a redirection, it stops where git reaches the remote, and it fails where
a call of git is refused. -/
theorem clearFrom_settles (ere : PosixEre) (refused : Nat → Option String) (cache : String)
    (remote : List Char) (calls : Nat) (rules : List RewriteRule) (config : Config)
    (notes : List String) (isRules : rules = rulesOf config) :
    let cleared := clearFrom ere.accepts refused cache remote calls rules config notes
    ∃ dropped, Drops remote config dropped cleared.config ∧
      (cleared.result = .ok () → ReachesRemote remote cleared.config) ∧
      (cleared.result ≠ .ok () → ∃ call, calls ≤ call ∧ (refused call).isSome = true) := by
  fun_induction clearFrom ere.accepts refused cache remote calls rules config notes with
  | case1 calls rules config notes noRule =>
      subst isRules
      refine ⟨[], .none, fun _ => ⟨remote, fun derived => ?_, rfl⟩, fun failed => ?_⟩
      · exact derives_iff_of_none (effective_none noRule)
      · exact absurd rfl failed
  | case2 calls rules config notes index chosen noRule =>
      obtain ⟨rule, inForce⟩ := inForce_of_effective chosen
      cases noRule.symm.trans inForce.isRule
  | case3 calls rules config notes index chosen rule isRule noRewrite =>
      obtain ⟨other, inForce⟩ := inForce_of_effective chosen
      cases isRule.symm.trans inForce.isRule
      obtain ⟨rest, -, rewrites⟩ := rewrite_inForce inForce
      cases noRewrite.symm.trans rewrites
  | case4 calls rules config notes index chosen rule isRule rewritten rewrites same =>
      subst isRules
      refine ⟨[], .none, fun _ => ?_, fun failed => ?_⟩
      · exact reachesRemote_of_effective chosen isRule rewrites same
      · exact absurd rfl failed
  | case5 calls rules config notes index chosen rule isRule rewritten rewrites redirects error
      isRefused =>
      refine ⟨[], .none, nofun, fun _ => ⟨calls, Nat.le_refl _, ?_⟩⟩
      rw [isRefused, Option.isSome_some]
  | case6 calls rules config notes index chosen rule isRule rewritten rewrites redirects _
      missing =>
      subst isRules
      obtain ⟨entry, member, isEntry⟩ :=
        List.mem_filterMap.mp (List.mem_of_getElem? isRule)
      exact absurd missing (unsetAll_ne_none ere member isEntry)
  | case7 calls rules config notes index chosen rule isRule rewritten rewrites redirects _ after
      unset ih =>
      subst isRules
      obtain ⟨entry, member, isEntry⟩ :=
        List.mem_filterMap.mp (List.mem_of_getElem? isRule)
      have isAfter := unsetAll_entry ere isEntry unset
      subst isAfter
      have shrunk : ((rulesOf config).eraseIdx index).filter (fun other =>
          other.key ≠ rule.key || other.insteadOf ≠ rule.insteadOf) =
            rulesOf (config.filter (· ≠ entry)) := by
        rw [rulesOf_filter isEntry]
        apply filter_eraseIdx isRule
        simp only [ne_eq, not_true_eq_false, decide_false, Bool.or_self]
      obtain ⟨dropped, drops, settles, fails⟩ := ih shrunk
      obtain ⟨other, inForce⟩ := inForce_of_effective chosen
      cases isRule.symm.trans inForce.isRule
      obtain ⟨rest, isUrl, isRewritten⟩ := rewrite_inForce inForce
      cases rewrites.symm.trans isRewritten
      refine ⟨entry :: dropped, .one isEntry inForce ⟨rest, isUrl, redirects⟩ drops, settles,
        fun failed => ?_⟩
      obtain ⟨call, later, isRefused⟩ := fails failed
      exact ⟨call, Nat.le_of_succ_le later, isRefused⟩

/-- A read that is refused hides every rule, and nothing is done. -/
theorem clearRedirectingRewrites_unread (accepts : List Char → List Char → Bool)
    {refused : Nat → Option String} {error : String} (unread : refused 0 = some error)
    (cache : String) (remote : List Char) (config : Config) :
    clearRedirectingRewrites accepts refused cache remote config =
      { config := config, notes := [], result := .ok () } := by
  have noRules : rewriteRules (some error) config = [] := rfl
  have noneInForce : effective [] remote = none := rfl
  rw [clearRedirectingRewrites, unread, noRules, clearFrom, noneInForce]

/-- The removal of the redirecting rules: it returns; what it has dropped was, each
in its turn, the rule in force and a redirection, and everything else is kept; where
it has succeeded git derives a URL of the remote's own place, unless the read of the
rules was refused and did not do so before; a refused read is no failure and drops
nothing; and the removal fails only where a later call of git is refused. -/
theorem clearRedirectingRewrites_settles (ere : PosixEre) (refused : Nat → Option String)
    (cache : String) (remote : List Char) (config : Config)
    (legal : ∀ entry ∈ config, entry.Legal) :
    let cleared := clearRedirectingRewrites ere.accepts refused cache remote config
    ∃ dropped, Drops remote config dropped cleared.config ∧
      cleared.config = config.filter (· ∉ dropped) ∧
      ((cleared.result = .ok () → ReachesRemote remote cleared.config) ↔
        refused 0 = none ∨ ReachesRemote remote config) ∧
      (refused 0 ≠ none → cleared.result = .ok () ∧ dropped = []) ∧
      (cleared.result ≠ .ok () → ∃ call, 0 < call ∧ (refused call).isSome = true) := by
  intro cleared
  cases answered : refused 0 with
  | some error =>
      have isCleared : cleared = { config := config, notes := [], result := .ok () } :=
        clearRedirectingRewrites_unread ere.accepts answered cache remote config
      have noneDropped : Drops remote config [] config := .none
      rw [isCleared]
      refine ⟨[], noneDropped, noneDropped.kept, ?_, fun _ => ⟨rfl, rfl⟩,
        fun failed => absurd rfl failed⟩
      constructor
      · exact fun reaches => .inr (reaches rfl)
      · rintro (isNone | reaches)
        · cases isNone
        · exact fun _ => reaches
  | none =>
      have isRules : rewriteRules (refused 0) config = rulesOf config := by
        rw [answered]
        exact rewriteRules_eq legal
      obtain ⟨dropped, drops, settles, fails⟩ := clearFrom_settles ere refused cache remote 1
        (rewriteRules (refused 0) config) config [] isRules
      exact ⟨dropped, drops, drops.kept, iff_of_true settles (.inl rfl),
        fun refusedRead => absurd rfl refusedRead, fails⟩

/-- The text of a literal: an escape is dropped. -/
def literalText : List Char → List Char
  | '\\' :: char :: rest => char :: literalText rest
  | char :: rest => char :: literalText rest
  | [] => []

theorem Literal.text_eq {pattern text : List Char} (literal : Literal pattern text) :
    literalText pattern = text := by
  induction literal with
  | nil => rfl
  | escaped _ _ ih => rw [literalText, ih]
  | @ordinary char _ _ plain _ ih =>
      have notEscape : char ≠ '\\' := by
        rintro rfl
        exact plain (by decide)
      rw [literalText, ih]
      rintro _ _ rfl
      exact absurd rfl notEscape

/-- A matcher that knows anchored literals alone. -/
def literalEre : PosixEre where
  accepts pattern value := value = literalText (pattern.drop 1).dropLast
  anchored := by
    intro pattern text value literal
    rw [List.cons_append, List.drop_one, List.tail_cons, List.dropLast_concat,
      literal.text_eq, decide_eq_true_eq]

/-- The rule that sends a remote over HTTPS, twice, beside one that respells it and a
value that is no rule. -/
def ghConfig : Config :=
  [⟨"url.https://github.com/.insteadof".toList, "git@github.com:".toList⟩,
    ⟨"remote.origin.url".toList, "git@github.com:acme/api.git".toList⟩,
    ⟨"url.ssh://git@github.com/.insteadof".toList, "git@github.com:".toList⟩,
    ⟨"url.https://github.com/.insteadof".toList, "git@github.com:".toList⟩]

theorem legal_ghConfig : ∀ entry ∈ ghConfig, entry.Legal := by
  intro entry member
  have legal : ∀ entry ∈ ghConfig,
      '\n' ∉ entry.key ∧ '\x00' ∉ entry.key ∧ '\x00' ∉ entry.value := by decide
  obtain ⟨keyLine, keyNul, valueNul⟩ := legal entry member
  exact ⟨keyLine, keyNul, valueNul⟩

theorem clearRedirectingRewrites_settles_gh :
    let cleared := clearRedirectingRewrites literalEre.accepts (fun _ => none) "/cache"
      "git@github.com:acme/api.git".toList ghConfig
    ∃ dropped, Drops "git@github.com:acme/api.git".toList ghConfig dropped cleared.config ∧
      cleared.config = ghConfig.filter (· ∉ dropped) ∧
      (cleared.result = .ok () →
        ReachesRemote "git@github.com:acme/api.git".toList cleared.config) := by
  obtain ⟨dropped, drops, kept, settles, -⟩ := clearRedirectingRewrites_settles literalEre
    (fun _ => none) "/cache" "git@github.com:acme/api.git".toList ghConfig legal_ghConfig
  exact ⟨dropped, drops, kept, settles.mpr (.inl rfl)⟩

/-- Git refuses to read the config once, and the rule of `gh` stays in force. -/
theorem rewrite_unread :
    ¬ ∀ (ere : PosixEre) (refused : Nat → Option String) (cache : String)
      (remote : List Char) (config : Config), (∀ entry ∈ config, entry.Legal) →
        let cleared := clearRedirectingRewrites ere.accepts refused cache remote config
        cleared.result = .ok () → ReachesRemote remote cleared.config := by
  intro reaches
  let refused (call : Nat) : Option String :=
    if call = 0 then some "git failed to start" else none
  have unread : refused 0 = some "git failed to start" := rfl
  have reached := reaches literalEre refused "/cache" "git@github.com:acme/api.git".toList
    ghConfig legal_ghConfig
  rw [clearRedirectingRewrites_unread literalEre.accepts unread] at reached
  obtain ⟨url, isUrl, same⟩ := reached rfl
  have chosen : effective (rulesOf ghConfig) "git@github.com:acme/api.git".toList = some 0 := by
    decide
  obtain ⟨rule, inForce⟩ := inForce_of_effective chosen
  have isRule : (rulesOf ghConfig)[0]? = some ⟨"url.https://github.com/.insteadof".toList,
    "https://github.com/".toList, "git@github.com:".toList⟩ := by decide
  cases isRule.symm.trans inForce.isRule
  have split : "git@github.com:acme/api.git".toList =
    "git@github.com:".toList ++ "acme/api.git".toList := by decide
  have derived := (isUrl _).mp ((derives_iff_of_inForce inForce split).mpr rfl)
  rw [← derived] at same
  exact absurd same (by decide)

end Run

end NookOs.Jobs
