/-
Module: NookOs.Ws.Wire
Purpose: The requests that the control plane sends to a node and the answers the
  node gives, as far as their routing and a tunnel's reader see them.
Trusted boundary: none
Main exports: ControlToNode, NodeToControl, TunnelFrame, requestKind, Verb.family
-/

namespace NookOs.Ws

abbrev RequestId := Nat

/-- The variants of `ControlToNode` that carry a request id which the node
answers. -/
inductive Verb where
  | getGitStatus
  | cloneRepo
  | addWorktree
  | removeWorktree
  | reapBuildStacks
  | gitCommit
  | gitPush
  | removeCheckout
  | sessionWindows
  | initProject
  | captureSession
  | readWorkspaceFile
  | tunnelRequest
  | tunnelUpgrade
deriving DecidableEq

/-- A request to a node.  What it asks for in detail is the node's affair. -/
structure ControlToNode where
  requestId : RequestId
  verb : Verb
deriving DecidableEq

/-- The reply families, each with a table of its own. -/
inductive RequestKind where
  | op
  | git
  | tunnel
deriving DecidableEq

/-- Request id and reply family of a message, where the owner of the node has to
remember who asked. -/
def requestKind (message : ControlToNode) : Option (RequestId × RequestKind) :=
  match message.verb with
  | .cloneRepo | .addWorktree | .removeWorktree | .reapBuildStacks | .initProject
  | .captureSession => some (message.requestId, .op)
  | .getGitStatus => some (message.requestId, .git)
  | .tunnelRequest | .tunnelUpgrade => some (message.requestId, .tunnel)
  | _ => none

/-- The table the caller waits in, which is also how the node answers: every
operation with one `OpResult`, the status with one `GitStatusResult`, and what
goes through a tunnel with its frames. -/
def Verb.family : Verb → RequestKind
  | .getGitStatus => .git
  | .tunnelRequest | .tunnelUpgrade => .tunnel
  | _ => .op

/-- Where the list names a verb it names the family the node answers in. -/
theorem requestKind_eq {message : ControlToNode} {key : RequestId × RequestKind}
    (listed : requestKind message = some key) :
    key = (message.requestId, message.verb.family) := by
  obtain ⟨requestId, verb⟩ := message
  cases verb <;> cases listed <;> rfl

structure OpPayload where
  ok : Bool
  path : Option String
  message : String
deriving DecidableEq

structure GitFileStatus where
  status : String
  path : String
deriving DecidableEq

structure GitStatusPayload where
  isRepo : Bool
  branch : Option String
  files : List GitFileStatus
  diff : String
deriving DecidableEq

abbrev TunnelHeader := String × String

/-- The tunnel frames of `NodeToControl`, less their request id. -/
inductive TunnelFrame where
  | tunnelResponse (version status : UInt16) (headers : List TunnelHeader)
  | tunnelChunk (seq : UInt64) (dataB64 : String) (last : Bool)
  | tunnelFailed (message : String)
  | tunnelUpgraded (version : UInt16) (headers : List TunnelHeader)
  | tunnelWsData (dataB64 : String) (binary : Bool)
  | tunnelWsClose (code : Option UInt16) (reason : Option String)
deriving DecidableEq

/-- The frame that ends an exchange. -/
def TunnelFrame.terminal : TunnelFrame → Bool
  | .tunnelFailed _ => true
  | .tunnelChunk _ _ last => last
  | .tunnelWsClose .. => true
  | _ => false

/-- The room of the channel that the caller of a tunnel reads, `mpsc::channel(64)`. -/
def channelRoom : Nat := 64

/-- The answers of a node. -/
inductive NodeToControl where
  | opResult (requestId : RequestId) (payload : OpPayload)
  | gitStatusResult (requestId : RequestId) (payload : GitStatusPayload)
  | tunnel (requestId : RequestId) (frame : TunnelFrame)
deriving DecidableEq

namespace NodeToControl

def requestId : NodeToControl → RequestId
  | .opResult requestId _ | .gitStatusResult requestId _ | .tunnel requestId _ => requestId

def family : NodeToControl → RequestKind
  | .opResult .. => .op
  | .gitStatusResult .. => .git
  | .tunnel .. => .tunnel

/-- Nothing follows it: a result is the whole answer, and a terminal frame is the
last of its exchange. -/
def final : NodeToControl → Bool
  | .opResult .. | .gitStatusResult .. => true
  | .tunnel _ frame => frame.terminal

end NodeToControl

end NookOs.Ws
