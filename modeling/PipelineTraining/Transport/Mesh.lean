import PipelineTraining.Transport.Tag

/-!
Messages between the members of a group. Each member has one endpoint. What is
sent to it arrives in order; a receive asks for one source and one tag and puts
everything it passes over into the mailbox, where it waits to be asked for.
-/

namespace PipelineTraining

variable {α : Type}

structure Envelope (α : Type) where
  source : Nat
  tag : Tag
  payload : α

namespace Envelope

def answers (envelope : Envelope α) (source : Nat) (tag : Tag) : Bool :=
  envelope.source == source && envelope.tag == tag

end Envelope

structure Endpoint (α : Type) where
  arrived : List (Envelope α)
  mailbox : List (Envelope α)
  isOpen : Bool

namespace Endpoint

def fresh : Endpoint α := ⟨[], [], true⟩

def closed : Endpoint α := ⟨[], [], false⟩

def buffered (endpoint : Endpoint α) : Nat :=
  endpoint.mailbox.length

def deliver (endpoint : Endpoint α) (envelope : Envelope α) : Endpoint α :=
  { endpoint with arrived := endpoint.arrived ++ [envelope] }

def pick (source : Nat) (tag : Tag) :
    List (Envelope α) → Option (List (Envelope α) × α × List (Envelope α))
  | [] => none
  | envelope :: rest =>
      if envelope.answers source tag then some ([], envelope.payload, rest)
      else
        match pick source tag rest with
        | none => none
        | some (before, payload, behind) => some (envelope :: before, payload, behind)

/-- Claims the oldest payload from a source under a tag, mailbox first. What has arrived in
front of it, or everything if there is none, moves to the mailbox. -/
def claim (endpoint : Endpoint α) (source : Nat) (tag : Tag) : Option α × Endpoint α :=
  match pick source tag endpoint.mailbox with
  | some (before, payload, behind) => (some payload, { endpoint with mailbox := before ++ behind })
  | none =>
      match pick source tag endpoint.arrived with
      | some (before, payload, behind) =>
          (some payload, { endpoint with arrived := behind, mailbox := endpoint.mailbox ++ before })
      | none =>
          (none, { endpoint with arrived := [], mailbox := endpoint.mailbox ++ endpoint.arrived })

/-- Drops everything under a stale tag, arrived or waiting; the rest waits in the mailbox. -/
def discard (endpoint : Endpoint α) (stale : Tag → Bool) : Nat × Endpoint α :=
  let waiting := endpoint.mailbox ++ endpoint.arrived
  let kept := waiting.filter fun envelope => !stale envelope.tag
  (waiting.length - kept.length, { endpoint with arrived := [], mailbox := kept })

end Endpoint

structure Mesh (α : Type) where
  endpoints : List (Endpoint α)

namespace Mesh

def make (members : Nat) : Mesh α :=
  ⟨List.replicate members .fresh⟩

def size (mesh : Mesh α) : Nat :=
  mesh.endpoints.length

def endpoint? (mesh : Mesh α) (member : Nat) : Option (Endpoint α) :=
  mesh.endpoints[member]?

def update (mesh : Mesh α) (member : Nat) (change : Endpoint α → Endpoint α) : Mesh α :=
  ⟨mesh.endpoints.modify member change⟩

/-- Sending never waits. It fails only if there is nobody at the other end. -/
def send (mesh : Mesh α) (source target : Nat) (tag : Tag) (payload : α) :
    Except DeliveryFault (Mesh α) :=
  match mesh.endpoint? target with
  | none => .error (.outsideGroup target mesh.size)
  | some endpoint =>
      if endpoint.isOpen then .ok (mesh.update target (·.deliver ⟨source, tag, payload⟩))
      else .error (.disconnected target)

/-- Asks for a payload; none if nothing under this source and tag has come yet. -/
def receive (mesh : Mesh α) (member source : Nat) (tag : Tag) :
    Except DeliveryFault (Option α × Mesh α) :=
  if mesh.size ≤ source then .error (.outsideGroup source mesh.size)
  else
    match mesh.endpoint? member with
    | none => .ok (none, mesh)
    | some endpoint =>
        let (payload, endpoint) := endpoint.claim source tag
        .ok (payload, mesh.update member fun _ => endpoint)

def discard (mesh : Mesh α) (member : Nat) (stale : Tag → Bool) : Nat × Mesh α :=
  match mesh.endpoint? member with
  | none => (0, mesh)
  | some endpoint =>
      let (count, endpoint) := endpoint.discard stale
      (count, mesh.update member fun _ => endpoint)

def close (mesh : Mesh α) (member : Nat) : Mesh α :=
  mesh.update member fun _ => .closed

def isOpen (mesh : Mesh α) (member : Nat) : Bool :=
  ((mesh.endpoint? member).map Endpoint.isOpen).getD false

end Mesh
end PipelineTraining
