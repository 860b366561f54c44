import SearchOverlay.Proofs.Wire.RoundTrip

/-!
# Frames are read back as they were written

A value has a frame if and only if it fits a message. Its frame is taken from a connection,
and brings the value back.
-/

namespace SearchOverlay.Frame

open Wire

/-! ## What a frame contains -/

theorem content_of_decompress {b x : Bytes} (h : Snappy.decompress b = some x)
    (hx : x.length ≤ maxMessage) : content b = .ok x := by
  simp [content, Snappy.contentLength_of_decompress h, Nat.not_lt.mpr hx, h]

/-- What a frame contains is no longer than a message. -/
theorem length_content_le {b x : Bytes} (h : content b = .ok x) : x.length ≤ maxMessage := by
  unfold content at h
  split at h
  · cases h
  · next n hn =>
    split at h
    · cases h
    · next hle =>
      split at h
      · cases h
      · next hx =>
        cases h
        cases hn.symm.trans (Snappy.contentLength_of_decompress hx)
        exact Nat.not_lt.mp hle

variable {α : Type} [Wire α] {a : α} {f : Bytes}

/-- A frame is decoded as the value whose message it contains. -/
theorem decode_eq_ok_iff [Lawful α] : decode f = .ok a ↔ content f = .ok (write a) := by
  unfold decode
  split
  · next h => simp [h]
  · next x h =>
    have hx := Wire.decode_eq_ok_iff (a := a) (lt_size_of_le_maxMessage (length_content_le h))
    rw [h, Except.ok.injEq, ← hx]
    split
    · next h => simp only [h, Except.ok.injEq]
    · next h => simp [h]

/-! ## The frame of a value -/

theorem le_maxContent {n : Nat} (h : n ≤ maxMessage) : n ≤ Snappy.maxContent :=
  Nat.le_trans h (by decide)

variable [Snappy.Encoder]

/-- The frame of a value that fits a message. -/
def of (a : α) : Bytes := Snappy.Encoder.encode (write a)

theorem encode_eq_ok (h : (write a).length ≤ maxMessage) : encode a = .ok (of a) := by
  rw [encode, Wire.encode_eq_ok_iff.mpr ⟨h, rfl⟩]
  rfl

theorem encode_eq_error (h : maxMessage < (write a).length) :
    encode a = .error (.wire .sizeLimit) := by
  simp [encode, Wire.encode, Nat.not_le.mpr h]

theorem encode_eq_ok_iff : encode a = .ok f ↔ (write a).length ≤ maxMessage ∧ f = of a := by
  rcases Nat.lt_or_ge maxMessage (write a).length with h | h
  · simp [encode_eq_error h, Nat.not_le.mpr h]
  · simp [encode_eq_ok h, h, eq_comm]

theorem content_of (h : (write a).length ≤ maxMessage) : content (of a) = .ok (write a) :=
  content_of_decompress (Snappy.Encoder.decompress_encode (le_maxContent h)) h

theorem decode_of [Lawful α] (h : (write a).length ≤ maxMessage) : decode (of a) = .ok a :=
  decode_eq_ok_iff.mpr (content_of h)

theorem length_of_le (h : (write a).length ≤ maxMessage) : (of a).length ≤ maxLength :=
  calc (of a).length
    _ ≤ 32 + (write a).length + (write a).length / 6 :=
      Snappy.Encoder.length_encode_le (le_maxContent h)
    _ ≤ maxLength := Nat.add_le_add (Nat.add_le_add_left h 32) (Nat.div_le_div_right h)

end SearchOverlay.Frame
