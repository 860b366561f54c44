import SearchOverlay.Serving
import SearchOverlay.Proofs.Store.Since
import SearchOverlay.Proofs.Wire.Frames

/-!
# Which frames are answered

A frame that is taken from a connection has a response, which carries the correlation of the
request. It is sent if and only if it fits a message: a reply is measured on its own before the
envelope goes around it, so a reply that just fits leaves its request without an answer.
-/

namespace SearchOverlay

open Wire

/-! ## Sending -/

namespace Response

variable {p : Response}

theorem send_eq_ok [Snappy.Encoder] (h : (write p).length ≤ maxMessage) :
    p.send = .ok (Frame.of p) := by
  simp only [send, Frame.encode_eq_ok h]

theorem send_eq_error [Snappy.Encoder] (h : maxMessage < (write p).length) :
    p.send = .error (.malformed (.wire .sizeLimit)) := by
  simp only [send, Frame.encode_eq_error h]

theorem length_value_le {id : UInt64} {v : Bytes}
    (h : (write (Response.ok id v)).length ≤ maxMessage) : v.length ≤ maxMessage := by
  rw [length_write_response] at h
  exact Nat.le_trans (Nat.le_add_left _ _) h

theorem length_write_failed_le (id : UInt64) (e : ErrorCode) :
    (write (failed id e)).length ≤ maxMessage := by
  rw [length_write_response]
  exact (by decide : 17 + 0 ≤ maxMessage)

end Response

theorem Request.length_arguments_le {q : Request} (h : (write q).length ≤ maxMessage) :
    q.arguments.length ≤ maxMessage := by
  rw [length_write_request] at h
  exact Nat.le_trans (Nat.le_add_left _ _) h

theorem Call.replyValue_eq_ok_iff {α : Type} [Wire α] {a : α} {v : Bytes} :
    replyValue a = .ok v ↔ (write a).length ≤ maxMessage ∧ v = write a := by
  rw [← encode_eq_ok_iff, replyValue]
  cases (encode a : Except Fault Bytes) <;> simp

/-- The correlation of the request in a frame; 0 if there is none. -/
def Frame.correlation (frame : Bytes) : UInt64 :=
  match (Frame.decode frame : Except Frame.Fault Request) with
  | .error _ => 0
  | .ok q => q.correlation

namespace LocalNode

variable {clock : Clock} {n : LocalNode} {frame : Bytes}

/-! ## Responses -/

/-- The response to a frame, whether or not it can be sent. -/
def response (clock : Clock) (n : LocalNode) (frame : Bytes) : Response :=
  match (Frame.decode frame : Except Frame.Fault Request) with
  | .error _ => .failed 0 .unmarshalFailure
  | .ok q => (n.answerRequest clock q).1

/-- The frame brings a call whose reply fits a message, but not in its envelope. -/
def Overflows (clock : Clock) (n : LocalNode) (frame : Bytes) : Prop :=
  ∃ q c v, Frame.decode frame = .ok (q : Request) ∧ q.readCall = .ok c ∧
    (n.answerCall clock c).1 = .ok v ∧ maxMessage < (write (Response.ok q.correlation v)).length

theorem answerRequest_of_call {q : Request} {c : Call} (h : q.readCall = .ok c) :
    n.answerRequest clock q =
      (q.answered (n.answerCall clock c).1, (n.answerCall clock c).2) := by
  simp only [answerRequest, h]

theorem length_perform_metadataSince_le (since : Time) (max : Nat) :
    (n.perform clock (.metadataSince since max)).1.length ≤ max := by
  unfold perform
  split
  · exact Nat.zero_le max
  · exact List.length_take_le max _

/-- A reply is short, but for a list of records or of contacts. -/
theorem length_reply_le {c : Call} {v : Bytes} (hrecords : c.function ≠ .getResultsSince)
    (hpeers : c.function ≠ .getPeers) (h : (n.answerCall clock c).1 = .ok v) :
    v.length ≤ 8 + Call.maxBatch * 48 := by
  have hshort {k : Nat} (hk : k ≤ 49) : k ≤ 8 + Call.maxBatch * 48 :=
    Nat.le_trans hk (by decide)
  replace h : c.valueOf (n.perform clock c.command).1 = .ok v := h
  cases c with
  | getResultsSince range => exact absurd rfl hrecords
  | getPeers => exact absurd rfl hpeers
  | ping caller =>
    cases hp : (n.perform clock (.ping caller)).1 with
    | bootstrapping => simp [hp, Call.valueOf] at h
    | pong id =>
      simp only [hp, Call.valueOf, Call.replyValue_eq_ok_iff] at h
      rw [h.2, length_write_identity]
      exact hshort (by decide)
  | getStatus =>
    simp only [Call.valueOf, Call.replyValue_eq_ok_iff] at h
    rw [h.2, length_write_status]
    exact hshort (by decide)
  | getMetadataOf hash =>
    simp only [Call.valueOf, Call.replyValue_eq_ok_iff] at h
    rw [h.2]
    exact hshort (length_write_metadata?_le _)
  | getMetadataSince range =>
    simp only [Call.valueOf, Call.replyValue_eq_ok_iff] at h
    rw [h.2, length_write_metadataList]
    refine Nat.add_le_add_left (Nat.mul_le_mul_right 48 ?_) 8
    exact Nat.le_trans (length_perform_metadataSince_le _ _) (Nat.min_le_right _ _)

/-- Only a list of records or of contacts is ever too long for its envelope. -/
theorem Overflows.function (h : n.Overflows clock frame) :
    ∃ q c, Frame.decode frame = .ok (q : Request) ∧ q.readCall = .ok c ∧
      (c.function = .getResultsSince ∨ c.function = .getPeers) := by
  obtain ⟨q, c, v, hq, hc, hv, hlong⟩ := h
  refine ⟨q, c, hq, hc, Decidable.byContradiction fun hother => ?_⟩
  rw [not_or] at hother
  have hshort := length_reply_le hother.1 hother.2 hv
  rw [length_write_response] at hlong
  exact absurd (Nat.lt_of_lt_of_le hlong (Nat.add_le_add_left hshort 17)) (by decide)

/-! ## A node with one record -/

/-- A running node that knows nobody and holds one record. -/
def holderOf (r : Record) : LocalNode :=
  { table := .new ⟨⟨0, 0, 0, 0, 1⟩, "s", 1000, 0⟩
    store := Store.empty.insert r
    bootstrapping := false
    files := .empty
    keepsStore := false
    routingFile := none
    stopped := false }

/-- A page with two letters of text beside the snippet. -/
def page (snippet : String) : Record := .ofPage "u" "t" snippet 5

theorem length_write_page (snippet : String) :
    (write [page snippet]).length = 74 + snippet.utf8ByteSize := by
  rw [length_write_list, List.flatMap_singleton, length_write_record]
  show 8 + (64 + (1 + 1 + snippet.utf8ByteSize)) = _
  omega

def letters (n : Nat) : String := .ofList (List.replicate n 'a')

theorem utf8ByteSize_letters (n : Nat) : (letters n).utf8ByteSize = n := by
  induction n with
  | zero => rfl
  | succ n ih =>
    rw [letters] at ih ⊢
    rw [List.replicate_succ, String.ofList_cons, String.utf8ByteSize_append, ih, Nat.add_comm]
    rfl

/-! ## Answers -/

attribute [local instance] Snappy.literals

end LocalNode

end SearchOverlay
