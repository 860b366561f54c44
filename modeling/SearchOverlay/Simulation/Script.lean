import SearchOverlay.Query
import SearchOverlay.SocketAddress

/-!
# Scripted peers

Peers of a simulation that follow a script instead of running a node. A stub answers
queries; a line answers connections, down to the bytes of a frame; a chain is a row of
members each of which knows the next one alone.
-/

namespace SearchOverlay.Simulation

-- the nodes and peers of a simulation write their blocks in one and the same way
attribute [instance] Snappy.literals

/-! ## Stubs -/

inductive Scripted (α : Type) where
  | failure
  | remote (code : ErrorCode)
  | value (a : α)

def scriptedFailure : CallError := .other "scripted failure"

def Scripted.answer {α β : Type} (f : α → β) : Scripted α → Except CallError β
  | failure => .error scriptedFailure
  | remote code => .error (.remote code)
  | value a => .ok (f a)

/-- The answers to one kind of query: those of the queue one after the other, and then the
standing one. -/
structure Script (α : Type) where
  queue : List (Scripted α)
  standing : Scripted α

def Script.always {α : Type} (a : α) : Script α := ⟨[], .value a⟩

def Script.next {α : Type} (s : Script α) : Scripted α × Script α :=
  match s.queue with
  | a :: queue => (a, { s with queue })
  | [] => (s.standing, s)

/-- Scripts for all queries to one peer. A ping without an identity is answered with the
peer's own; the neighbours are given as of the time they are asked for. -/
structure Stub where
  ping : Script (Option Identity) := .always none
  status : Script SyncStatus := .always ⟨0, 0⟩
  peers : Script (Time → List Contact) := .always fun _ => []
  results : Script (List Record) := .always []
  metadata : Script (List Metadata) := .always []
  metadataOf : Script (Option Metadata) := .always none

/-- Answers a query to `peer`. What a stub says is not trimmed. -/
def Stub.answer (now : Time) (peer : Contact) (s : Stub) :
    (q : Query) → Except CallError q.Reply × Stub
  | .ping _ =>
    let (a, ping) := s.ping.next
    (a.answer (·.getD peer.identity), { s with ping })
  | .getStatus =>
    let (a, status) := s.status.next
    (a.answer id, { s with status })
  | .getPeers =>
    let (a, peers) := s.peers.next
    (a.answer (· now), { s with peers })
  | .getResultsSince _ _ =>
    let (a, results) := s.results.next
    (a.answer id, { s with results })
  | .getMetadataSince _ _ =>
    let (a, metadata) := s.metadata.next
    (a.answer id, { s with metadata })
  | .getMetadataOf _ =>
    let (a, metadataOf) := s.metadataOf.next
    (a.answer id, { s with metadataOf })

/-! ## Chains -/

/-- Members at the addresses that continue `stem` with a number below `length`. -/
structure Chain where
  stem : String
  length : Nat

namespace Chain

def address (c : Chain) (k : Nat) : String := c.stem ++ toString k

def position? (c : Chain) (address : String) : Option Nat :=
  (c.stem.toList.isPrefixOf? address.toList).bind Numeral.decimal?

def answer (now : Time) (c : Chain) (k : Nat) : (q : Query) → Except CallError q.Reply
  | .getPeers => .ok (if k + 1 < c.length then [.ofAddress now (c.address (k + 1))] else [])
  | .ping _ | .getStatus | .getResultsSince _ _ | .getMetadataSince _ _ | .getMetadataOf _ =>
    .error scriptedFailure

end Chain

/-! ## Lines -/

inductive Echo where
  | frame (b : Bytes)
  /-- The frame of a response to the correlation that came plus `shift`, without its last
  `cut` bytes. -/
  | response (error : UInt8) (value : Bytes) (shift : UInt64) (cut : Nat)

def Echo.toFrame (q : Request) : Echo → Bytes
  | frame b => b
  | response error value shift cut =>
    match Frame.encode (⟨error, q.correlation + shift, value⟩ : Response) with
    | .ok b => b.take (b.length - cut)
    | .error _ => []

inductive Line where
  | refuses (reason : String)
  | neverOpens
  | neverAnswers
  | answers (delay : Nat) (echo : Echo)

end SearchOverlay.Simulation
