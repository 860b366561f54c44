import SearchOverlay.Query
import SearchOverlay.Proofs.Activity
import SearchOverlay.Proofs.RoutingTable.Operations
import SearchOverlay.Proofs.Serving.Responses

/-!
# Queries to a node over a connection

A query that is put to a running node, over a connection that loses nothing, is answered with
what the node's own state says, and only a ping changes the node. For this the request and the
response have to fit a message each.
-/

namespace SearchOverlay

open Wire

/-! ## The ends of a connection -/

namespace Call

variable {c : Call} {id : UInt64} {f v : Bytes} {e : ErrorCode}

/-- The request for a call, whether or not it fits a message. -/
def writtenRequest (c : Call) (id : UInt64) : Request := ⟨c.function.toByte, id, c.written⟩

theorem readCall_writtenRequest (h : c.written.length ≤ maxMessage) :
    (c.writtenRequest id).readCall = .ok c := by
  simp only [Request.readCall, writtenRequest, FunctionCode.ofByte?_toByte, decode_written h]

variable [Snappy.Encoder]

theorem frame_eq_ok_iff : c.frame id = .ok f ↔
    (write (c.writtenRequest id)).length ≤ maxMessage ∧ f = Frame.of (c.writtenRequest id) := by
  rw [← Frame.encode_eq_ok_iff, frame]
  rcases Nat.lt_or_ge maxMessage c.written.length with h | h
  · have hlong : maxMessage < (write (c.writtenRequest id)).length := by
      rw [length_write_request]
      exact Nat.lt_of_lt_of_le h (Nat.le_add_left _ _)
    simp [request, arguments_eq, Nat.not_le.mpr h, Except.map, Frame.encode_eq_error hlong]
  · simp only [request_eq h, writtenRequest]
    cases Frame.encode (⟨c.function.toByte, id, c.written⟩ : Request) <;> simp

theorem responseValue_ok (h : (write (Response.ok id v)).length ≤ maxMessage) :
    responseValue id (Frame.of (Response.ok id v)) = .ok v := by
  rw [responseValue, if_neg (Nat.not_lt.mpr (Frame.length_of_le h)), Frame.decode_of h]
  simp [Response.ok, ErrorCode.ofByte?_toByte]

theorem responseValue_failed (he : e ≠ .none) :
    responseValue id (Frame.of (Response.failed id e)) = .error (.remote e) := by
  have h := Response.length_write_failed_le id e
  rw [responseValue, if_neg (Nat.not_lt.mpr (Frame.length_of_le h)), Frame.decode_of h]
  cases e <;> first | exact absurd rfl he | simp [Response.failed, ErrorCode.ofByte?_toByte]

end Call

namespace LocalNode

variable {clock : Clock} {n : LocalNode} {c : Call} {q : Query} {id : UInt64} {f : Bytes}

/-- What the node's own state says on a query. -/
def replyTo (n : LocalNode) : (q : Query) → Except ErrorCode q.Reply
  | .ping _ => if n.bootstrapping then .error .bootstrapping else .ok n.table.identity
  | .getStatus => .ok n.store.status
  | .getPeers => .ok n.table.neighbours
  | .getResultsSince since max => .ok (n.store.recordsSince since (min max 2048))
  | .getMetadataSince since max => .ok (n.store.metadataSince since (min max 2048))
  | .getMetadataOf h => .ok (n.store.metadata? h)

/-- The node behind a query: a ping enters the caller into the table. -/
def after (now : Time) (n : LocalNode) : Query → LocalNode
  | .ping caller => { n with table := (n.table.push now caller).2 }
  | _ => n

theorem batchSize_batch (max : Nat) :
    Call.batchSize (UInt32.ofNat (Query.batch max)) = min max 2048 := by
  have hsmall : Query.batch max < 2 ^ 32 :=
    Nat.lt_of_le_of_lt (Nat.min_le_right max Call.maxBatch) (by decide)
  rw [Call.batchSize, UInt32.toNat_ofNat_of_lt' hsmall, Query.batch, Call.maxBatch, Nat.min_assoc,
    Nat.min_self]

theorem answerCall_of_running (hn : n.stopped = false) : n.answerCall clock c =
    (c.valueOf (n.performRunning clock c.command).1, (n.performRunning clock c.command).2) := by
  rw [answerCall, perform_of_running hn]

/-- Behind the envelopes, the server sends its own view of the query. -/
theorem answerCall_eq (hn : n.stopped = false) :
    n.answerCall clock q.call = ((n.replyTo q).bind Call.replyValue, n.after clock.now q) := by
  rw [answerCall_of_running hn]
  cases q with
  | ping caller =>
    show ((Call.ping caller).valueOf (n.answerPing clock.now caller).1, _) = _
    cases hb : n.bootstrapping with
    | true =>
      simp only [answerPing, replyTo, hb]
      rfl
    | false =>
      simp only [answerPing, replyTo, hb, RoutingTable.identity_push]
      rfl
  | getStatus => rfl
  | getPeers => rfl
  | getResultsSince since max =>
    show (Call.replyValue (n.store.recordsSince since (Call.batchSize _)), n) = _
    rw [batchSize_batch]
    rfl
  | getMetadataSince since max =>
    show (Call.replyValue (n.store.metadataSince since (Call.batchSize _)), n) = _
    rw [batchSize_batch]
    rfl
  | getMetadataOf h => rfl

theorem trim_replyTo {a : q.Reply} (h : n.replyTo q = .ok a) : q.trim a = a := by
  cases q with
  | getResultsSince since max =>
    cases h
    exact List.take_of_length_le (List.length_take_le _ _)
  | getMetadataSince since max =>
    cases h
    exact List.take_of_length_le (List.length_take_le _ _)
  | ping caller => rfl
  | getStatus => rfl
  | getPeers => rfl
  | getMetadataOf h => rfl

theorem answer_write {a : q.Reply} (h : (write a).length ≤ maxMessage) :
    q.answer (.ok (write a)) = .ok (q.trim a) := by
  simp only [Query.answer, Call.readReply, Wire.decode_write h, Except.map]

theorem eq_bootstrapping_of_replyTo {e : ErrorCode} (h : n.replyTo q = .error e) :
    e = .bootstrapping := by
  cases q with
  | ping caller =>
    simp only [replyTo] at h
    split at h <;> cases h
    rfl
  | getStatus => cases h
  | getPeers => cases h
  | getResultsSince since max => cases h
  | getMetadataSince since max => cases h
  | getMetadataOf hash => cases h

section

variable [Snappy.Encoder]

/-- Puts a query to the node over a connection that loses nothing. A server that fails closes
the connection, and the caller finds an empty frame. -/
def queried (clock : Clock) (n : LocalNode) (q : Query) (id : UInt64) :
    Except CallError q.Reply × LocalNode :=
  match q.call.frame id with
  | .error e => (.error e, n)
  | .ok f =>
    let (r, n) := n.serve clock f
    (q.answer (Call.responseValue id (r.toOption.getD [])), n)

theorem serve_frame (h : c.frame id = .ok f) : n.serve clock f =
    (((c.writtenRequest id).answered (n.answerCall clock c).1).send, (n.answerCall clock c).2) := by
  obtain ⟨hfits, rfl⟩ := Call.frame_eq_ok_iff.mp h
  have hargs : c.written.length ≤ maxMessage := Request.length_arguments_le hfits
  rw [serve, if_neg (Nat.not_lt.mpr (Frame.length_of_le hfits)), Frame.decode_of hfits]
  simp only [answerRequest_of_call (Call.readCall_writtenRequest hargs)]

/-- A query to a running node over a connection that loses nothing is answered with what the
node's state says, provided that request and response can be framed. A node that has quit has no
state left to answer from. -/
theorem queried_eq (hn : n.stopped = false) (hrequest : ∃ f, q.call.frame id = .ok f)
    (hresponse : ∀ a, n.replyTo q = .ok a → ∃ f, Frame.encode (Response.ok id (write a)) = .ok f) :
    n.queried clock q id = ((n.replyTo q).mapError .remote, n.after clock.now q) ∧
      ∀ e, n.replyTo q = .error e → (CallError.remote e).isBootstrapping := by
  refine ⟨?_, fun e he => ?_⟩
  · obtain ⟨f, hf⟩ := hrequest
    simp only [queried, hf, serve_frame hf, answerCall_eq hn]
    cases hr : n.replyTo q with
    | error e =>
      obtain rfl := eq_bootstrapping_of_replyTo hr
      have hsend := Response.send_eq_ok (Response.length_write_failed_le id .bootstrapping)
      have hvalue : Call.responseValue id (Frame.of (Response.failed id .bootstrapping)) = _ :=
        Call.responseValue_failed (by decide)
      simp only [Except.bind, Request.answered, Call.writtenRequest, hsend, Except.toOption,
        Option.getD_some, hvalue, Query.answer]
      rfl
    | ok a =>
      obtain ⟨f, hf⟩ := hresponse a hr
      have hfits := (Frame.encode_eq_ok_iff.mp hf).1
      have ha : (write a).length ≤ maxMessage := Response.length_value_le hfits
      have hvalue : Call.replyValue a = .ok (write a) := Call.replyValue_eq_ok_iff.mpr ⟨ha, rfl⟩
      simp only [Except.bind, hvalue, Request.answered, Call.writtenRequest,
        Response.send_eq_ok hfits, Except.toOption, Option.getD_some, Call.responseValue_ok hfits,
        answer_write ha, trim_replyTo hr]
      rfl
  · rw [eq_bootstrapping_of_replyTo he]
    rfl

end

attribute [local instance] Snappy.literals

/-- A pull of more than a batch from a node with one record. -/
theorem queried_one : let n := holderOf (page "s")
    n.stopped = false ∧
      n.queried (.still 1000) (.getResultsSince 0 5000) 7 = (.ok [page "s"], n) := by
  intro n
  have hreply : n.replyTo (.getResultsSince 0 5000) = .ok [page "s"] :=
    congrArg (Except.ok <| List.take 2048 ·) (Store.newer_singleton (by decide))
  have hrequest : ∃ f, (Query.getResultsSince 0 5000).call.frame 7 = .ok f :=
    ⟨_, Call.frame_eq_ok_iff.mpr ⟨by decide, rfl⟩⟩
  have hresponse : ∀ a, n.replyTo (.getResultsSince 0 5000) = .ok a →
      ∃ f, Frame.encode (Response.ok 7 (write a)) = .ok f := by
    intro a ha
    obtain rfl := Except.ok.inj (hreply.symm.trans ha)
    refine ⟨_, Frame.encode_eq_ok ?_⟩
    rw [length_write_response]
    exact Nat.le_trans (Nat.le_of_eq (congrArg (17 + ·) (length_write_page "s"))) (by decide)
  refine ⟨rfl, (queried_eq rfl hrequest hresponse).1.trans ?_⟩
  rw [hreply]
  rfl

end LocalNode

end SearchOverlay
