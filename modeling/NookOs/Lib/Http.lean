/-
Module: NookOs.Lib.Http
Purpose: An HTTP client that follows redirects, against a world that answers as it
  likes.
Trusted boundary: the client's own parsing and redirecting are parameters
Main exports: Ipv4, Ipv6, Host, Url, Request, Client.send_unfollowed, Client.send_followed
-/
import Mathlib.Tactic.Common
import Mathlib.Data.List.Basic

namespace NookOs.Lib.Http

/-!
The client is somebody else's code: how it reads a URL, how it joins the `Location` of
a response to the URL of its request, and what it sends there are parameters.  What is
fixed is the loop around them, one request after another until a response is no
redirect or there have been too many.  The world sees all that was sent and answers the
last of it in any way.
-/

abbrev Bytes := List UInt8

/-- A name and a value. -/
abbrev Header := List Char × List Char

/-- Four octets. -/
structure Ipv4 where
  a : UInt8
  b : UInt8
  c : UInt8
  d : UInt8
deriving DecidableEq

/-- Eight segments. -/
structure Ipv6 where
  s0 : UInt16
  s1 : UInt16
  s2 : UInt16
  s3 : UInt16
  s4 : UInt16
  s5 : UInt16
  s6 : UInt16
  s7 : UInt16
deriving DecidableEq

/-- The host of a URL: an address, or a name to be resolved. -/
inductive Host where
  | v4 (address : Ipv4)
  | v6 (address : Ipv6)
  | name (text : List Char)
deriving DecidableEq

/-- A URL that was parsed.  The port is the one of the scheme where none is written. -/
structure Url where
  scheme : List Char
  host : Option Host
  port : Nat
  rest : List Char
deriving DecidableEq

/-- Where a request to the URL goes. -/
def Url.target (url : Url) : Option Host × Nat := (url.host, url.port)

structure Request where
  method : List Char
  url : Url
  headers : List Header
  body : Bytes
deriving DecidableEq

/-- The head of a response, its body as it comes in, and how the body ends. -/
structure Response where
  status : Nat
  headers : List Header
  chunks : List Bytes
  ending : Except (List Char) Unit

/-- The client.  `onward` is the request it makes where a response sends it. -/
structure Client where
  join : Url → List Char → Option Url
  onward : Request → Response → Url → Request
  onward_url : ∀ request response url, (onward request response url).url = url
  maxRedirects : Nat

/-- What the world answers to the last of the requests it has been sent. -/
abbrev World := List Request → Except (List Char) Response

/-- What was sent, and the response that came of it with the place of the request it
answers. -/
structure Sent where
  requests : List Request
  result : Except (List Char) (Nat × Response)

/-- The statuses that redirect. -/
def redirectStatuses : List Nat := [301, 302, 303, 307, 308]

def location (headers : List Header) : Option (List Char) :=
  (headers.find? fun header => header.1 = "location".toList).map (·.2)

namespace Client

variable (client : Client) (world : World)

/-- The request that a response redirects to. -/
def follow (request : Request) (response : Response) : Option Request :=
  if response.status ∈ redirectStatuses then
    ((location response.headers).bind (client.join request.url)).map
      (client.onward request response)
  else none

/-- The loop, with the requests before it and the redirects it may still follow. -/
def loop : Nat → List Request → Request → Sent
  | left, before, request =>
      let requests := before ++ [request]
      match world requests with
      | .error failure => ⟨requests, .error failure⟩
      | .ok response =>
          match client.follow request response with
          | none => ⟨requests, .ok (before.length, response)⟩
          | some next =>
              match left with
              | 0 => ⟨requests, .error "too many redirects".toList⟩
              | left + 1 => loop left requests next

def send (request : Request) : Sent := client.loop world client.maxRedirects [] request

section Rules

variable {client world} {left : Nat} {before : List Request} {request next : Request}
  {response : Response}

/-- One round of the loop. -/
theorem loop_eq : client.loop world left before request =
    match world (before ++ [request]) with
    | .error failure => ⟨before ++ [request], .error failure⟩
    | .ok response =>
        match client.follow request response with
        | none => ⟨before ++ [request], .ok (before.length, response)⟩
        | some next =>
            match left with
            | 0 => ⟨before ++ [request], .error "too many redirects".toList⟩
            | left + 1 => client.loop world left (before ++ [request]) next := by
  rw [loop]

/-- What has been sent stays sent. -/
theorem loop_prefix (left : Nat) (before : List Request) (request : Request) :
    (before ++ [request]) <+: (client.loop world left before request).requests := by
  induction left generalizing before request with
  | zero =>
      rw [loop_eq]
      split
      · exact List.prefix_rfl
      · split <;> exact List.prefix_rfl
  | succ left ih =>
      rw [loop_eq]
      split
      · exact List.prefix_rfl
      · split
        · exact List.prefix_rfl
        · exact (List.prefix_append _ _).trans (ih _ _)

/-- The response that comes of it answers a request that was sent after the ones
before. -/
theorem loop_position {place : Nat}
    (came : (client.loop world left before request).result = .ok (place, response)) :
    before.length ≤ place := by
  induction left generalizing before request with
  | zero =>
      rw [loop_eq] at came
      split at came
      case h_1 => cases came
      case h_2 =>
        split at came
        · cases came
          exact Nat.le_refl _
        · cases came
  | succ left ih =>
      rw [loop_eq] at came
      split at came
      case h_1 => cases came
      case h_2 =>
        split at came
        · cases came
          exact Nat.le_refl _
        · have later := ih came
          rw [List.length_append, List.length_singleton] at later
          exact Nat.le_of_succ_le later

/-- The first request is sent. -/
theorem send_first : [request] <+: (client.send world request).requests :=
  loop_prefix client.maxRedirects [] request

/-- A world that fails the first request ends it. -/
theorem send_failed {failure : List Char} (failed : world [request] = .error failure) :
    client.send world request = ⟨[request], .error failure⟩ := by
  rw [send, loop_eq]
  simp only [List.nil_append, failed]

/-- A response that redirects nowhere is the one that comes of it. -/
theorem send_unfollowed (answered : world [request] = .ok response)
    (unfollowed : client.follow request response = none) :
    client.send world request = ⟨[request], .ok (0, response)⟩ := by
  rw [send, loop_eq]
  simp only [List.nil_append, answered, unfollowed, List.length_nil]

/-- A response that redirects is not what comes of it: what does answers a later
request. -/
theorem send_followed (answered : world [request] = .ok response)
    (followed : client.follow request response = some next) {place : Nat} {last : Response}
    (came : (client.send world request).result = .ok (place, last)) : 1 ≤ place := by
  rw [send, loop_eq] at came
  simp only [List.nil_append, answered, followed] at came
  split at came
  · cases came
  · exact loop_position came

/-- With a redirect left, the request it leads to is sent. -/
theorem send_next (answered : world [request] = .ok response)
    (followed : client.follow request response = some next) (may : 0 < client.maxRedirects) :
    [request, next] <+: (client.send world request).requests := by
  rw [send, loop_eq]
  simp only [List.nil_append, answered, followed]
  split
  · rename_i none
    omega
  · exact loop_prefix _ [request] next

end Rules

end Client

end NookOs.Lib.Http
