/-
Module: NookOs.Ws.SafeNext
Purpose: Where a sign-in may send the browser, and where a browser that follows the URL
  standard then goes.
Trusted boundary: the reading of a host, and of a URL with a scheme, are parameters
Main exports: safeNext, Browser.resolve, IsPlainPath, staysHere_iff
-/
import NookOs.Ws.TunnelTarget

namespace NookOs.Ws.SafeNext

open Lib Lib.Http Lib.Text
open TunnelTarget (isC0OrSpace cleaned authority cleaned_append)

section Code

/-- An app-relative path, never a URL. -/
def safeNext (next : Option (List Char)) : List Char :=
  (next.filter fun next => ['/'].isPrefixOf next && !(['/', '/'].isPrefixOf next)).getD ['/']

end Code

section Browsers

structure Origin where
  scheme : List Char
  host : Host
  port : Nat
deriving DecidableEq

/-- How a browser reads a host with its port after a special scheme, and the origin of a
text that has a scheme of its own. -/
structure Browser where
  hostPort : (scheme : List Char) → List Char → Option (Host × Nat)
  absolute : (base : Origin) → List Char → Option Origin

/-- What the parser of URLs looks at: nothing that leads or trails, and no tab or newline. -/
def seen (text : List Char) : List Char := cleaned (text.dropWhile isC0OrSpace)

def hasScheme (text : List Char) : Bool :=
  match splitOnce ':' text with
  | some (first :: rest, _) =>
      first.isAlpha && rest.all fun char => char.isAlphanum || char ∈ ['+', '-', '.']
  | _ => false

/-- A backslash is a slash to a special scheme. -/
def isSlash (char : Char) : Bool := char = '/' || char = '\\'

/-- The origin that an authority names; slashes before it are ignored, and what precedes
its last `@` is user information. -/
def Browser.authorityOrigin (browser : Browser) (base : Origin) (text : List Char) :
    Option Origin :=
  (browser.hostPort base.scheme (lastSegment '@' (authority (text.dropWhile isSlash)))).map
    fun found => { base with host := found.1, port := found.2 }

/-- The origin of the URL that a text stands for on a page of an `http` or `https` origin. -/
def Browser.resolve (browser : Browser) (base : Origin) (text : List Char) : Option Origin :=
  if hasScheme (seen text) then browser.absolute base (seen text)
  else
    match seen text with
    | first :: second :: rest =>
        if isSlash first && isSlash second then browser.authorityOrigin base rest
        else some base
    | _ => some base

end Browsers

section Property

/-- A character of a path, a query or a fragment. -/
def isUrlChar (char : Char) : Bool :=
  char.isAlphanum || char ∈ "-._~:/?#[]@!$&'()*+,;=%".toList

/-- An absolute path with its query and fragment. -/
def IsPlainPath (text : List Char) : Prop :=
  ∃ rest, text = '/' :: rest ∧ rest.head? ≠ some '/' ∧ ∀ char ∈ text, isUrlChar char = true

variable (browser : Browser) (base : Origin) (next : Option (List Char))

/-- What is answered leads to this origin, and a plain path is answered as it is. -/
structure StaysHere : Prop where
  origin : browser.resolve base (safeNext next) = some base
  unchanged : ∀ text, next = some text → IsPlainPath text → safeNext next = text

/-- Where a text starts with one slash and a browser sees two, the authority after them is
this origin's. -/
def SlashesFit : Prop :=
  ∀ text, next = some text → ['/'].isPrefixOf text = true → ['/', '/'].isPrefixOf text = false →
    ∀ second rest, seen text = '/' :: second :: rest → isSlash second = true →
      browser.authorityOrigin base rest = some base

end Property

section Proofs

variable {browser : Browser} {base : Origin} {next : Option (List Char)} {rest : List Char}

theorem seen_slash (rest : List Char) : seen ('/' :: rest) = '/' :: cleaned rest := by
  have slash : isC0OrSpace '/' = false := by decide
  rw [seen, List.dropWhile_cons_of_neg (by simp [slash])]
  exact @cleaned_append ['/'] rest (by decide)

/-- A text that starts with a slash has no scheme. -/
theorem hasScheme_slash (rest : List Char) : hasScheme ('/' :: rest) = false := by
  unfold hasScheme
  cases split : splitOnce ':' ('/' :: rest) with
  | none => rfl
  | some parts =>
      obtain ⟨head, tail⟩ := parts
      obtain ⟨whole, _⟩ := splitOnce_some split
      cases head with
      | nil => rfl
      | cons first more =>
          have isFirst : '/' = first := (List.cons.inj whole).1
          subst isFirst
          rfl

/-- A browser that sees one slash stays on the origin of its page. -/
theorem resolve_slash (rest : List Char) :
    browser.resolve base ('/' :: rest) =
      match cleaned rest with
      | second :: after =>
          if isSlash second then browser.authorityOrigin base after else some base
      | [] => some base := by
  rw [Browser.resolve, seen_slash, hasScheme_slash, if_neg Bool.false_ne_true]
  cases cleaned rest with
  | nil | cons => rfl

theorem safeNext_some (text : List Char) :
    safeNext (some text) = text ∧ ['/'].isPrefixOf text = true ∧
        ['/', '/'].isPrefixOf text = false ∨
      safeNext (some text) = ['/'] ∧
        ¬ (['/'].isPrefixOf text = true ∧ ['/', '/'].isPrefixOf text = false) := by
  by_cases fits : ['/'].isPrefixOf text = true ∧ ['/', '/'].isPrefixOf text = false
  · refine Or.inl ⟨?_, fits⟩
    rw [safeNext, Option.filter_some_pos (by simp [fits.1, fits.2]), Option.getD_some]
  · refine Or.inr ⟨?_, fits⟩
    rw [safeNext, Option.filter_some_neg (by simpa using fits), Option.getD_none]

theorem exists_of_isPrefixOf {text : List Char} (starts : ['/'].isPrefixOf text = true) :
    ∃ rest, text = '/' :: rest := by
  obtain ⟨rest, whole⟩ := List.isPrefixOf_iff_prefix.mp starts
  exact ⟨rest, whole.symm⟩

theorem resolve_root : browser.resolve base ['/'] = some base := resolve_slash []

theorem unchanged (text : List Char) (isNext : next = some text) (plain : IsPlainPath text) :
    safeNext next = text := by
  obtain ⟨rest, rfl, single, _⟩ := plain
  subst isNext
  obtain ⟨same, _⟩ | ⟨_, refused⟩ := safeNext_some ('/' :: rest)
  · exact same
  · refine absurd ⟨by simp, ?_⟩ refused
    cases rest with
    | nil => rfl
    | cons second after =>
        have apart : second ≠ '/' := fun same => single (congrArg some same)
        simp [List.isPrefixOf, Ne.symm apart]

/-- A return stays on this origin exactly when no two slashes, of which a browser may see
the second behind a tab or as a backslash, name another one. -/
theorem staysHere_iff (browser : Browser) (base : Origin) (next : Option (List Char)) :
    StaysHere browser base next ↔ SlashesFit browser base next := by
  constructor
  · intro stays text isNext starts single second rest isSeen slash
    have origin := stays.origin
    subst isNext
    obtain ⟨same, _⟩ | ⟨_, refused⟩ := safeNext_some text
    · obtain ⟨tail, rfl⟩ := exists_of_isPrefixOf starts
      rw [seen_slash] at isSeen
      rw [same, resolve_slash, (List.cons.inj isSeen).2] at origin
      dsimp only at origin
      rwa [if_pos slash] at origin
    · exact absurd ⟨starts, single⟩ refused
  · intro fit
    refine ⟨?_, unchanged⟩
    cases next with
    | none => exact resolve_root
    | some text =>
        obtain ⟨same, starts, single⟩ | ⟨root, _⟩ := safeNext_some text
        · rw [same]
          obtain ⟨tail, rfl⟩ := exists_of_isPrefixOf starts
          rw [resolve_slash]
          cases isRest : cleaned tail with
          | nil => rfl
          | cons second after =>
              dsimp only
              split
              · next slash =>
                  exact fit _ rfl starts single second after (by rw [seen_slash, isRest]) slash
              · rfl
        · rw [root]
          exact resolve_root

/-! ### A browser that is sent to a backslash -/

/-- Any name is a host, on the port of `https`. -/
def someBrowser : Browser where
  hostPort _ text := if text = [] then none else some (.name text, 443)
  absolute _ _ := none

def apex : Origin := ⟨"https".toList, .name "nook.example".toList, 443⟩

theorem staysHere_backslash :
    ¬ StaysHere someBrowser apex (some "/\\evil.example/steal".toList) := by
  intro stays
  have away : someBrowser.resolve apex (safeNext (some "/\\evil.example/steal".toList)) =
      some { apex with host := .name "evil.example".toList } := by
    decide +kernel
  have same := away.symm.trans stays.origin
  exact absurd (congrArg (Option.map Origin.host) same) (by decide)

end Proofs

end NookOs.Ws.SafeNext
