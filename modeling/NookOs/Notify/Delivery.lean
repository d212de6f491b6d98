/-
Module: NookOs.Notify.Delivery
Purpose: A notification channel from its configuration to the requests its delivery
  sends, against any answers of the name servers and of the servers it reaches.
Trusted boundary: the HTTP client, JSON and the signature are parameters
Main exports: Platform, guardUrl, Provider, deliver, guardConfig, Sendable, delivery_outside_iff
-/
import NookOs.Lib.Fallible
import NookOs.Lib.Text
import NookOs.Notify.Addresses

namespace NookOs.Notify

open Lib Lib.Fallible Lib.Http Lib.Text

/-- The settings of a channel that are strings, the signing secret among them. -/
abbrev Config := String → Option (List Char)

structure Notification where
  id : List Char
  level : String
  kind : List Char
  title : List Char
  body : List Char
  link : Option (List Char)
deriving DecidableEq

def localhost : Ipv4 := ⟨127, 0, 0, 1⟩

/-- The URL of what listens on the machine itself. -/
def localhostUrl : Url := ⟨"http".toList, some (.v4 localhost), 80, "/".toList⟩

/-- The code the control plane was built with that is not its own.  A `Location` that is
a whole URL leads there from everywhere, and a client follows a redirect. -/
structure Platform where
  parse : List Char → Option Url
  client : Client
  isHeader : Header → Bool
  notificationJson : Notification → Bytes
  fieldJson : String → List Char → Bytes
  sign : List Char → Bytes → List Char
  joins : ∀ url, client.join url "http://127.0.0.1/".toList = some localhostUrl
  follows : 0 < client.maxRedirects

/-! ### The guard -/

inductive GuardError where
  | notUrl
  | scheme (other : List Char)
  | noHost
  | unresolved (host : Host)
  | inside (host : Host) (ip : Ip)
deriving DecidableEq

/-- What answers for a host: itself, for an IPv4 address, and the name servers.  An IPv6
address stands in brackets, in which nothing resolves it. -/
def resolve (dns : List Char → List Ip) : Host → List Ip
  | .v4 address => [.v4 address]
  | .v6 _ => []
  | .name text => dns text

def isWeb (url : Url) : Bool := url.scheme = "http".toList || url.scheme = "https".toList

def guardUrl (platform : Platform) (dns : List Char → List Ip) (text : List Char) :
    Except GuardError Unit :=
  match platform.parse text with
  | none => .error .notUrl
  | some url =>
      if !isWeb url then .error (.scheme url.scheme)
      else
        match url.host with
        | none => .error .noHost
        | some host =>
            if resolve dns host = [] then .error (.unresolved host)
            else
              match (resolve dns host).find? isInternal with
              | some ip => .error (.inside host ip)
              | none => .ok ()

/-- The keys of a configuration that hold a URL. -/
def guardedKeys : List String := ["url", "server", "webhook_url"]

/-- The check of a configuration when it is made or changed. -/
def guardConfig (platform : Platform) (dns : List Char → List Ip) (config : Config) :
    Except GuardError Unit :=
  guardedKeys.forM fun key =>
    match config key with
    | none => .ok ()
    | some text => guardUrl platform dns text

/-! ### The providers -/

inductive Provider where
  | webhook
  | slack
  | discord
  | ntfy
deriving DecidableEq

inductive DeliveryError where
  | missing (key : String)
  | guarded (error : GuardError)
  | builder
deriving DecidableEq

/-- A setting that is there and not blank. -/
def field (config : Config) (key : String) : Option (List Char) :=
  (config key).filter fun text => trim text ≠ []

def strField (config : Config) (key : String) : Except DeliveryError (List Char) :=
  match field config key with
  | none => .error (.missing key)
  | some text => .ok text

def emoji (level : String) : List Char :=
  if level = "success" then "✅".toList
  else if level = "warning" then "⚠️".toList
  else if level = "error" then "🔴".toList
  else "•".toList

def bodyLine (notification : Notification) : List Char :=
  if notification.body = [] then [] else '\n' :: notification.body

def slackText (notification : Notification) : List Char :=
  emoji notification.level ++ " *".toList ++ notification.title ++ "*".toList ++
    bodyLine notification ++
    match notification.link with
    | none => []
    | some link => "\n<".toList ++ link ++ "|open in NookOS>".toList

def discordContent (notification : Notification) : List Char :=
  emoji notification.level ++ " **".toList ++ notification.title ++ "**".toList ++
    bodyLine notification ++
    match notification.link with
    | none => []
    | some link => '\n' :: link

def priority (level : String) : List Char :=
  if level = "error" then "urgent".toList
  else if level = "warning" then "high".toList
  else "default".toList

def webhookHeaders (platform : Platform) (config : Config) (notification : Notification) :
    List Header :=
  [("content-type".toList, "application/json".toList), ("user-agent".toList, "NookOS".toList),
    ("x-nook-event".toList, notification.kind), ("x-nook-delivery".toList, notification.id)] ++
    match config "__secret" with
    | none => []
    | some secret =>
        [("x-nook-signature".toList,
          platform.sign secret (platform.notificationJson notification))]

def ntfyHeaders (notification : Notification) : List Header :=
  [("Title".toList, notification.title), ("Priority".toList, priority notification.level)] ++
    match notification.link with
    | none => []
    | some link => [("Click".toList, link)]

def ntfyServer (config : Config) : List Char :=
  (field config "server").getD "https://ntfy.sh".toList

def ntfyUrl (server topic : List Char) : List Char :=
  trimEndMatches '/' server ++ '/' :: topic

section Deliver

variable (platform : Platform) (dns : List Char → List Ip) (config : Config)
  (notification : Notification)

/-- The URL is one that the client sends to, and the headers are ones it can write. -/
def Postable (text : List Char) (headers : List Header) : Prop :=
  (∃ url ∈ platform.parse text, isWeb url = true ∧ url.host ≠ none) ∧
    headers.all platform.isHeader = true

/-- A request that the builder accepts and the client sends. -/
def post (text : List Char) (headers : List Header) (body : Bytes) :
    Except DeliveryError Request :=
  match platform.parse text with
  | none => .error .builder
  | some url =>
      if isWeb url && url.host.isSome && headers.all platform.isHeader then
        .ok ⟨"POST".toList, url, headers, body⟩
      else .error .builder

def guarded (text : List Char) : Except DeliveryError Unit :=
  (guardUrl platform dns text).mapError .guarded

def webhook : Except DeliveryError Request := do
  let url ← strField config "url"
  guarded platform dns url
  post platform url (webhookHeaders platform config notification)
    (platform.notificationJson notification)

/-- A text in one field of a JSON object, to the URL of the configuration. -/
def postField (name : String) (text : List Char) : Except DeliveryError Request := do
  let url ← strField config "webhook_url"
  post platform url [] (platform.fieldJson name text)

def slack : Except DeliveryError Request :=
  postField platform config "text" (slackText notification)

def discord : Except DeliveryError Request :=
  postField platform config "content" (discordContent notification)

def ntfy : Except DeliveryError Request := do
  let topic ← strField config "topic"
  guarded platform dns (ntfyServer config)
  post platform (ntfyUrl (ntfyServer config) topic) (ntfyHeaders notification)
    (String.ofList notification.body).toUTF8.data.toList

def deliver : Provider → Except DeliveryError Request
  | .webhook => webhook platform dns config notification
  | .slack => slack platform config notification
  | .discord => discord platform config notification
  | .ntfy => ntfy platform dns config notification

end Deliver

/-! ### The requests of a channel -/

/-- The name servers' answers at each moment, and the answers of the servers. -/
structure Internet where
  dns : Nat → List Char → List Ip
  answer : World

namespace Internet

variable (internet : Internet)

/-- The address the last of the requests is sent to.  The client resolves for itself. -/
def reach (requests : List Request) : Option Ip :=
  match requests.getLast? with
  | none => none
  | some request =>
      match request.url.host with
      | none => none
      | some (.v4 address) => some (.v4 address)
      | some (.v6 address) => some (.v6 address)
      | some (.name text) => (internet.dns (requests.length + 1) text).head?

/-- A request whose host has no address is not answered. -/
def world : World := fun requests =>
  match internet.reach requests with
  | none => .error "error sending request".toList
  | some _ => internet.answer requests

end Internet

section Runs

variable (platform : Platform) (internet : Internet) (provider : Provider) (config : Config)
  (notification : Notification)

/-- What a channel sends for a notification: it is configured, then guarded, then it
delivers. -/
def delivered : List Request :=
  match guardConfig platform (internet.dns 0) config with
  | .error _ => []
  | .ok () =>
      match deliver platform (internet.dns 1) config notification provider with
      | .error _ => []
      | .ok request => (platform.client.send internet.world request).requests

/-- The addresses that HTTP requests are sent to. -/
def reached : List Ip :=
  let requests := delivered platform internet provider config notification
  (List.range requests.length).filterMap fun index =>
    internet.reach (requests.take (index + 1))

/-- No request is sent inside. -/
def StaysOutside : Prop :=
  ∀ ip ∈ reached platform internet provider config notification, isInternal ip = false

end Runs

/-- The guard can be made to accept the URL: it is one of the web, and its host is a name
or an IPv4 address that is not inside. -/
def Admissible (platform : Platform) (text : List Char) : Prop :=
  ∃ url ∈ platform.parse text, isWeb url = true ∧
    match url.host with
    | some (.v4 address) => isInternalV4 address = false
    | some (.name _) => True
    | _ => False

/-- The channel can send something: its URLs are admissible, and the provider finds its
settings, a URL it can post to and headers it can write. -/
def Sendable (platform : Platform) (provider : Provider) (config : Config)
    (notification : Notification) : Prop :=
  (∀ key ∈ guardedKeys, ∀ text ∈ config key, Admissible platform text) ∧
    match provider with
    | .webhook => ∃ url ∈ field config "url",
        Postable platform url (webhookHeaders platform config notification)
    | .slack | .discord => ∃ url ∈ field config "webhook_url", Postable platform url []
    | .ntfy => ∃ topic ∈ field config "topic", Admissible platform (ntfyServer config) ∧
        Postable platform (ntfyUrl (ntfyServer config) topic) (ntfyHeaders notification)

/-! ### Who can send -/

section Rules

variable {platform : Platform} {dns : List Char → List Ip} {config : Config}
  {notification : Notification} {provider : Provider} {text : List Char} {headers : List Header}
  {body : Bytes} {request : Request} {internet : Internet}

/-- What the guard accepts is admissible. -/
theorem admissible_of_guardUrl (accepted : guardUrl platform dns text = .ok ()) :
    Admissible platform text := by
  unfold guardUrl at accepted
  split at accepted
  case h_1 => cases accepted
  case h_2 url parsed =>
    refine ⟨url, parsed, ?_⟩
    by_cases web : isWeb url = true
    · rw [web] at accepted
      refine ⟨web, ?_⟩
      cases host : url.host with
      | none =>
          rw [host] at accepted
          cases accepted
      | some found =>
          rw [host] at accepted
          cases found with
          | v4 address =>
              simp only [resolve, List.find?_cons, List.find?_nil] at accepted
              cases inside : isInternal (.v4 address) with
              | false => exact inside
              | true =>
                  rw [inside] at accepted
                  cases accepted
          | v6 address => cases accepted
          | name text => trivial
    · rw [Bool.eq_false_iff.mpr web] at accepted
      cases accepted

/-- Name servers that answer with an address outside. -/
def outsideDns : List Char → List Ip := fun _ => [.v4 ⟨8, 8, 8, 8⟩]

theorem guardUrl_of_admissible (admissible : Admissible platform text) :
    guardUrl platform outsideDns text = .ok () := by
  obtain ⟨url, parsed, web, host⟩ := admissible
  unfold guardUrl
  rw [Option.mem_def.mp parsed]
  dsimp only
  rw [web]
  cases found : url.host with
  | none =>
      rw [found] at host
      cases host
  | some named =>
      rw [found] at host
      cases named with
      | v4 address =>
          have outside : isInternal (.v4 address) = false := host
          simp [resolve, outside]
      | v6 address => cases host
      | name text =>
          have outside : isInternal (.v4 ⟨8, 8, 8, 8⟩) = false := by decide
          simp [resolve, outsideDns, outside]

/-- A request that is posted goes to a URL with a host. -/
theorem postable_of_post (posted : post platform text headers body = .ok request) :
    Postable platform text headers ∧ request.url.host ≠ none := by
  unfold post at posted
  split at posted
  case h_1 => cases posted
  case h_2 url parsed =>
    split at posted
    · rename_i fine
      cases posted
      obtain ⟨⟨web, hosted⟩, written⟩ : (isWeb url = true ∧ url.host.isSome = true) ∧
          headers.all platform.isHeader = true := by
        simpa only [Bool.and_eq_true] using fine
      have host : url.host ≠ none := Option.isSome_iff_ne_none.mp hosted
      exact ⟨⟨⟨url, parsed, web, host⟩, written⟩, host⟩
    · cases posted

theorem post_of_postable (postable : Postable platform text headers) (body : Bytes) :
    ∃ request, post platform text headers body = .ok request := by
  obtain ⟨⟨url, parsed, web, host⟩, written⟩ := postable
  refine ⟨⟨"POST".toList, url, headers, body⟩, ?_⟩
  unfold post
  rw [Option.mem_def.mp parsed]
  simp only [web, Option.isSome_iff_ne_none.mpr host, written, Bool.and_self, if_true]

theorem guardConfig_ok_iff : guardConfig platform dns config = .ok () ↔
    ∀ key ∈ guardedKeys, ∀ text ∈ config key, guardUrl platform dns text = .ok () := by
  unfold guardConfig
  rw [forM_ok_iff]
  refine forall₂_congr fun key _ => ?_
  cases config key with
  | none | some => simp

theorem strField_ok {key : String} (there : strField config key = .ok text) :
    text ∈ field config key := by
  unfold strField at there
  split at there
  · cases there
  · rename_i found
    cases there
    exact found

theorem strField_of_mem {key : String} (there : text ∈ field config key) :
    strField config key = .ok text := by
  unfold strField
  rw [Option.mem_def.mp there]

theorem guarded_ok (accepted : guarded platform dns text = .ok ()) :
    guardUrl platform dns text = .ok () := by
  unfold guarded at accepted
  cases found : guardUrl platform dns text with
  | error failure =>
      rw [found] at accepted
      cases accepted
  | ok passed => rfl

theorem guarded_of_ok (accepted : guardUrl platform dns text = .ok ()) :
    guarded platform dns text = .ok () := by
  unfold guarded
  rw [accepted]
  rfl

/-- A delivery that gets as far as a request has its settings, and the request has a host. -/
theorem asks_of_deliver (asked : deliver platform dns config notification provider = .ok request)
    (configured : ∀ key ∈ guardedKeys, ∀ text ∈ config key, Admissible platform text) :
    Sendable platform provider config notification ∧ request.url.host ≠ none := by
  cases provider with
  | webhook =>
      obtain ⟨url, there, rest⟩ := bind_ok asked
      obtain ⟨⟨⟩, -, posted⟩ := bind_ok rest
      obtain ⟨postable, host⟩ := postable_of_post posted
      exact ⟨⟨configured, url, strField_ok there, postable⟩, host⟩
  | slack | discord =>
      obtain ⟨url, there, posted⟩ := bind_ok asked
      obtain ⟨postable, host⟩ := postable_of_post posted
      exact ⟨⟨configured, url, strField_ok there, postable⟩, host⟩
  | ntfy =>
      obtain ⟨topic, there, rest⟩ := bind_ok asked
      obtain ⟨⟨⟩, accepted, posted⟩ := bind_ok rest
      obtain ⟨postable, host⟩ := postable_of_post posted
      exact ⟨⟨configured, topic, strField_ok there,
        admissible_of_guardUrl (guarded_ok accepted), postable⟩, host⟩

theorem field_mem {key : String} (there : text ∈ field config key) : text ∈ config key :=
  (Option.mem_filter_iff.mp there).1

/-- Where names resolve outside, a channel that can send gets as far as a request. -/
theorem deliver_of_sendable (sendable : Sendable platform provider config notification) :
    ∃ request, deliver platform outsideDns config notification provider = .ok request := by
  obtain ⟨configured, asks⟩ := sendable
  cases provider with
  | webhook =>
      obtain ⟨url, there, postable⟩ := asks
      have accepted := guarded_of_ok (guardUrl_of_admissible
        (configured "url" (by decide) url (field_mem there)))
      obtain ⟨request, posted⟩ := post_of_postable postable (platform.notificationJson notification)
      refine ⟨request, ?_⟩
      simp only [deliver, webhook, strField_of_mem there, bind, Except.bind, accepted]
      exact posted
  | slack =>
      obtain ⟨url, there, postable⟩ := asks
      obtain ⟨request, posted⟩ := post_of_postable postable
        (platform.fieldJson "text" (slackText notification))
      refine ⟨request, ?_⟩
      simp only [deliver, slack, postField, strField_of_mem there, bind, Except.bind]
      exact posted
  | discord =>
      obtain ⟨url, there, postable⟩ := asks
      obtain ⟨request, posted⟩ := post_of_postable postable
        (platform.fieldJson "content" (discordContent notification))
      refine ⟨request, ?_⟩
      simp only [deliver, discord, postField, strField_of_mem there, bind, Except.bind]
      exact posted
  | ntfy =>
      obtain ⟨topic, there, admissible, postable⟩ := asks
      have accepted := guarded_of_ok (guardUrl_of_admissible admissible)
      obtain ⟨request, posted⟩ := post_of_postable postable
        (String.ofList notification.body).toUTF8.data.toList
      refine ⟨request, ?_⟩
      simp only [deliver, ntfy, strField_of_mem there, bind, Except.bind, accepted]
      exact posted

/-- A channel that sends something can send something. -/
theorem sendable_of_delivered
    (sent : delivered platform internet provider config notification ≠ []) :
    Sendable platform provider config notification := by
  unfold delivered at sent
  split at sent
  case h_1 => exact absurd rfl sent
  case h_2 accepted =>
    split at sent
    case h_1 => exact absurd rfl sent
    case h_2 request asked =>
      refine (asks_of_deliver asked fun key member text there => ?_).1
      exact admissible_of_guardUrl (guardConfig_ok_iff.mp accepted key member text there)

/-- Every name is outside, and whoever is asked first sends the client to the machine it
runs on. -/
def trap : Internet where
  dns _ := outsideDns
  answer
    | [_] => .ok ⟨302, [("location".toList, "http://127.0.0.1/".toList)], [], .ok ()⟩
    | _ => .ok ⟨200, [], [], .ok ()⟩

/-- A request with a host is answered by the trap. -/
theorem trap_reach (host : request.url.host ≠ none) : trap.reach [request] ≠ none := by
  unfold Internet.reach
  rw [List.getLast?_singleton]
  dsimp only
  split
  · contradiction
  · simp
  · simp
  · simp [trap, outsideDns]

/-- A channel that can send something sends to the machine it runs on where the trap is
laid. -/
theorem reached_trap (sendable : Sendable platform provider config notification) :
    .v4 localhost ∈ reached platform trap provider config notification := by
  have accepted : guardConfig platform (trap.dns 0) config = .ok () :=
    guardConfig_ok_iff.mpr fun key member text there =>
      guardUrl_of_admissible (sendable.1 key member text there)
  obtain ⟨request, asked⟩ := deliver_of_sendable sendable
  have host := (asks_of_deliver asked sendable.1).2
  let redirect : Response :=
    ⟨302, [("location".toList, "http://127.0.0.1/".toList)], [], .ok ()⟩
  have answered : trap.world [request] = .ok redirect := by
    unfold Internet.world
    split
    · rename_i unreached
      exact absurd unreached (trap_reach host)
    · rfl
  have followed : platform.client.follow request redirect =
      some (platform.client.onward request redirect localhostUrl) := by
    have redirects : redirect.status ∈ redirectStatuses := by decide
    have located : location redirect.headers = some "http://127.0.0.1/".toList := by decide
    simp only [Client.follow, if_pos redirects, located, Option.bind_some, platform.joins,
      Option.map_some]
  obtain ⟨rest, whole⟩ := Client.send_next answered followed platform.follows
  have requests : delivered platform trap provider config notification =
      request :: platform.client.onward request redirect localhostUrl :: rest := by
    unfold delivered
    rw [accepted]
    dsimp only
    have asked : deliver platform (trap.dns 1) config notification provider = .ok request := asked
    rw [asked]
    exact whole.symm
  unfold reached
  rw [requests]
  refine List.mem_filterMap.mpr ⟨1, List.mem_range.mpr (by simp), ?_⟩
  simp only [List.take_succ_cons, List.take_zero, Internet.reach, List.getLast?_cons_cons,
    List.getLast?_singleton, platform.client.onward_url, localhostUrl]

end Rules

/-- No answers of the name servers and of the servers bring the channel inside, and the
guard covers the address, exactly when the channel can send nothing and the address is none
of those that the guard lacks. -/
theorem delivery_outside_iff (platform : Platform) (provider : Provider) (config : Config)
    (notification : Notification) (ip : Ip) :
    ((∀ internet, StaysOutside platform internet provider config notification) ∧
      (globalUnicast ip = false → isInternal ip = true)) ↔
    (¬ Sendable platform provider config notification ∧ missed ip = false) := by
  refine and_congr ⟨fun outside sendable => ?_, fun unsendable internet => ?_⟩ (covered_iff ip)
  · have inside : isInternal (.v4 localhost) = true := by decide
    rw [outside trap (.v4 localhost) (reached_trap sendable)] at inside
    cases inside
  · have nothing : delivered platform internet provider config notification = [] := by
      by_contra sent
      exact unsendable (sendable_of_delivered sent)
    intro ip member
    unfold reached at member
    rw [nothing] at member
    cases member

/-! ### A Slack channel -/

def hook : List Char := "https://hooks.example/T0/B0".toList

/-- A platform that knows one URL. -/
def somePlatform : Platform where
  parse text := if text = hook then
      some ⟨"https".toList, some (.name "hooks.example".toList), 443, "/T0/B0".toList⟩
    else none
  client :=
    { join := fun _ text => if text = "http://127.0.0.1/".toList then some localhostUrl else none
      onward := fun request _ url => { request with method := "GET".toList, url := url, body := [] }
      onward_url := fun _ _ _ => rfl
      maxRedirects := 10 }
  isHeader _ := true
  notificationJson _ := []
  fieldJson _ _ := []
  sign _ _ := []
  joins _ := by simp
  follows := by decide

def slackChannel : Config := fun key => if key = "webhook_url" then some hook else none

def sample : Notification :=
  ⟨"1".toList, "info", "test".toList, "t".toList, [], none⟩

/-- The channel is accepted and sends inside; and the guard takes neither a multicast
address nor the loopback address behind NAT64 for inside. -/
theorem delivery_inside :
    .v4 localhost ∈ reached somePlatform trap .slack slackChannel sample ∧
      isInternal (.v4 localhost) = true ∧
      globalUnicast (.v4 ⟨224, 0, 0, 1⟩) = false ∧ isInternal (.v4 ⟨224, 0, 0, 1⟩) = false ∧
      globalUnicast (.v6 ⟨0x64, 0xff9b, 0, 0, 0, 0, 0x7f00, 1⟩) = false ∧
      isInternal (.v6 ⟨0x64, 0xff9b, 0, 0, 0, 0, 0x7f00, 1⟩) = false := by
  decide +kernel

end NookOs.Notify
