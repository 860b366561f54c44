import SearchOverlay.Message
import SearchOverlay.Proofs.Wire.Lawful

/-!
# Messages are read back as they were written

Every type that travels has a lawful wire form, so a message of it is read back as the value
that was written, and a value that was read has no other message: `RoundTrips` says both.
A call comes back from its request in the same way. Only the arguments of a ping can be too
long for a message; a reader of arguments takes them all the same.
-/

namespace SearchOverlay

namespace Wire

variable {α : Type} [Wire α]

/-- Messages of the type are read back, and a value has one message. -/
structure RoundTrips (α : Type) [Wire α] : Prop where
  decode_encode (a : α) (h : (write a).length ≤ maxMessage) :
    ∃ b, encode a = .ok b ∧ decode b = .ok a
  encode_decode (b : Bytes) (a : α) (hb : b.length ≤ maxMessage) (h : decode b = .ok a) :
    encode a = .ok b

theorem lt_size_of_le_maxMessage {n : Nat} (h : n ≤ maxMessage) : n < UInt64.size :=
  Nat.lt_of_le_of_lt h (by decide)

theorem encode_eq_ok_iff {a : α} {b : Bytes} :
    encode a = .ok b ↔ (write a).length ≤ maxMessage ∧ b = write a := by
  simp only [encode]
  by_cases h : (write a).length ≤ maxMessage
  · simp [h, eq_comm]
  · simp [h]

theorem decode_eq_ok_iff [Lawful α] {a : α} {b : Bytes} (hb : b.length < UInt64.size) :
    decode b = .ok a ↔ b = write a := by
  have hread : decode b = .ok a ↔ read b = .ok (a, []) := by
    unfold decode
    split <;> simp [*]
  rw [hread, Lawful.accepts b hb]
  simp

theorem decode_write [Lawful α] {a : α} (h : (write a).length ≤ maxMessage) :
    decode (write a) = .ok a :=
  (decode_eq_ok_iff (lt_size_of_le_maxMessage h)).mpr rfl

theorem eq_of_write_eq [Lawful α] {a b : α} (h : (write a).length ≤ maxMessage)
    (heq : write a = write b) : a = b := by
  have hb : decode (write a) = .ok b := heq ▸ decode_write (heq ▸ h)
  exact Except.ok.inj ((decode_write h).symm.trans hb)

theorem Lawful.roundTrips [Lawful α] : RoundTrips α where
  decode_encode a h := ⟨write a, encode_eq_ok_iff.mpr ⟨h, rfl⟩, decode_write h⟩
  encode_decode b a hb h := by
    obtain rfl := (decode_eq_ok_iff (lt_size_of_le_maxMessage hb)).mp h
    exact encode_eq_ok_iff.mpr ⟨hb, rfl⟩

end Wire

open Wire

/-! ## Structures -/

theorem write_identity (a : Identity) : write a =
    write a.w0 ++ (write a.w1 ++ (write a.w2 ++ (write a.w3 ++ write a.w4))) := by
  show write a.w0 ++ (write a.w1 ++ (write a.w2 ++ (write a.w3 ++ (write a.w4 ++ [])))) = _
  rw [List.append_nil]

theorem write_contact (c : Contact) : write c =
    write c.identity ++ (write c.address ++ (write c.lastSeen ++ write c.staleCount)) := by
  show write c.identity ++ write c.address ++ write c.lastSeen ++ write c.staleCount = _
  simp only [List.append_assoc]

theorem write_record (r : Record) : write r = write r.hash ++
    (write r.url ++ (write r.title ++ (write r.snippet ++ write r.timestamp))) := by
  show write r.hash ++ write r.url ++ write r.title ++ write r.snippet ++ write r.timestamp = _
  simp only [List.append_assoc]

theorem write_metadata (m : Metadata) : write m =
    write m.hash ++ (write m.score ++ (write m.votes ++ write m.timestamp)) := by
  show write m.hash ++ write m.score ++ write m.votes ++ write m.timestamp = _
  simp only [List.append_assoc]

theorem write_request (q : Request) : write q =
    write q.function ++ (write q.correlation ++ write q.arguments) := by
  show write q.function ++ write q.correlation ++ write q.arguments = _
  rw [List.append_assoc]

theorem write_response (p : Response) : write p =
    write p.error ++ (write p.correlation ++ write p.value) := by
  show write p.error ++ write p.correlation ++ write p.value = _
  rw [List.append_assoc]

/-! ## Lengths -/

@[simp] theorem length_write_byte (x : UInt8) : (write x).length = 1 := rfl

@[simp] theorem length_write_word (x : UInt32) : (write x).length = 4 :=
  Bytes.length_littleEndian 4 _

@[simp] theorem length_write_time (x : UInt64) : (write x).length = 8 :=
  Bytes.length_littleEndian 8 _

@[simp] theorem length_write_hash (h : ContentHash) : (write h).length = 32 := h.length_bytes

@[simp] theorem length_write_text (s : String) : (write s).length = 8 + s.utf8ByteSize := by
  show (writeLength _ ++ Utf8.encode s).length = _
  rw [List.length_append, Utf8.length_encode, writeLength, Bytes.length_littleEndian]

theorem length_write_list {α : Type} [Wire α] (as : List α) :
    (write as).length = 8 + (as.flatMap write).length := by
  show (writeLength as.length ++ as.flatMap write).length = _
  rw [List.length_append, writeLength, Bytes.length_littleEndian]

@[simp] theorem length_write_bytes (b : Bytes) : (write b).length = 8 + b.length := by
  have hbytes : b.flatMap write = b := by
    show b.flatMap (fun x => [x]) = b
    simp
  rw [length_write_list, hbytes]

@[simp] theorem length_write_identity (a : Identity) : (write a).length = 20 := by
  simp [write_identity]

@[simp] theorem length_write_contact (c : Contact) :
    (write c).length = 37 + c.address.utf8ByteSize := by
  simp [write_contact]
  omega

@[simp] theorem length_write_record (r : Record) : (write r).length =
    64 + (r.url.utf8ByteSize + r.title.utf8ByteSize + r.snippet.utf8ByteSize) := by
  simp [write_record]
  omega

@[simp] theorem length_write_metadata (m : Metadata) : (write m).length = 48 := by
  have hscore : (write m.score).length = 4 := length_write_word m.score.bits
  simp [write_metadata, hscore]

@[simp] theorem length_write_status (s : SyncStatus) : (write s).length = 16 := by
  show (write s.results ++ write s.metadata).length = 16
  simp

theorem length_write_metadata?_le (m : Option Metadata) : (write m).length ≤ 49 := by
  cases m with
  | none => exact (by decide : 1 ≤ 49)
  | some m => exact Nat.le_of_eq (congrArg (· + 1) (length_write_metadata m))

theorem length_write_metadataList (ms : List Metadata) :
    (write ms).length = 8 + ms.length * 48 := by
  simp [length_write_list, List.length_flatMap, List.map_const']

@[simp] theorem length_write_request (q : Request) :
    (write q).length = 17 + q.arguments.length := by
  simp [write_request]
  omega

@[simp] theorem length_write_response (p : Response) :
    (write p).length = 17 + p.value.length := by
  simp [write_response]
  omega

instance : Visible UInt8 := ⟨fun _ => Nat.one_pos⟩

instance : Visible Contact where
  length_pos c := by
    rw [length_write_contact]
    omega

instance : Visible Record where
  length_pos r := by
    rw [length_write_record]
    omega

instance : Visible Metadata where
  length_pos m := by
    rw [length_write_metadata]
    omega

/-! ## Laws -/

instance : Lawful Identity where
  accepts := by
    refine (Accepts.field fun w0 => Accepts.field fun w1 => Accepts.field fun w2 =>
      Accepts.field fun w3 => Accepts.last fun w4 => Identity.mk w0 w1 w2 w3 w4).congr
      fun a w _ => ?_
    cases a
    grind [write_identity]

instance : Lawful ContentHash where
  accepts := by
    have hread : (read : Reader ContentHash) =
        block 32 >>= fun x => pure ((ContentHash.ofBytes? x).getD .zero) := by
      funext b
      rw [bind_apply]
      show (match block 32 b with | .ok (x, r) => _ | .error e => _) = _
      cases block 32 b <;> rfl
    rw [hread]
    refine ((accepts_block 32).bind fun x => Accepts.pure _).congr fun h w _ => ?_
    constructor
    · rintro ⟨_, x, _, ⟨rfl, hx⟩, ⟨rfl, rfl⟩, rfl⟩
      show x ++ [] = ((ContentHash.ofBytes? x).getD .zero).bytes
      simp [ContentHash.ofBytes?, hx]
    · rintro rfl
      refine ⟨h.bytes, h.bytes, [], ⟨rfl, h.length_bytes⟩, ⟨?_, rfl⟩, (List.append_nil _).symm⟩
      simp [ContentHash.ofBytes?, h.length_bytes]

instance : Lawful Contact where
  accepts := by
    refine (Accepts.field fun id => Accepts.field fun address => Accepts.field fun seen =>
      Accepts.last fun stale => Contact.mk id address seen stale).congr fun c w _ => ?_
    cases c
    grind [write_contact]

instance : Lawful Record where
  accepts := by
    refine (Accepts.field fun hash => Accepts.field fun url => Accepts.field fun title =>
      Accepts.field fun snippet => Accepts.last fun time =>
      Record.mk hash url title snippet time).congr fun r w _ => ?_
    cases r
    grind [write_record]

instance : Lawful Score where
  accepts := by
    refine (Accepts.last Score.mk).congr fun s w _ => ?_
    constructor
    · rintro ⟨bits, rfl, rfl⟩
      rfl
    · rintro rfl
      exact ⟨s.bits, rfl, rfl⟩

instance : Lawful Metadata where
  accepts := by
    refine (Accepts.field fun hash => Accepts.field fun score => Accepts.field fun votes =>
      Accepts.last fun time => Metadata.mk hash score votes time).congr fun m w _ => ?_
    cases m
    grind [write_metadata]

instance : Lawful SyncStatus where
  accepts := by
    refine (Accepts.field fun results => Accepts.last fun metadata =>
      SyncStatus.mk results metadata).congr fun s w _ => ?_
    constructor
    · rintro ⟨results, _, ⟨metadata, rfl, rfl⟩, rfl⟩
      rfl
    · rintro rfl
      exact ⟨s.results, _, ⟨s.metadata, rfl, rfl⟩, rfl⟩

instance : Lawful Since where
  accepts := by
    refine (Accepts.field fun since => Accepts.last fun max => Since.mk since max).congr
      fun s w _ => ?_
    constructor
    · rintro ⟨since, _, ⟨max, rfl, rfl⟩, rfl⟩
      rfl
    · rintro rfl
      exact ⟨s.since, _, ⟨s.max, rfl, rfl⟩, rfl⟩

instance : Lawful Request where
  accepts := by
    refine (Accepts.field fun function => Accepts.field fun correlation =>
      Accepts.last fun arguments => Request.mk function correlation arguments).congr
      fun q w _ => ?_
    cases q
    grind [write_request]

instance : Lawful Response where
  accepts := by
    refine (Accepts.field fun error => Accepts.field fun correlation =>
      Accepts.last fun value => Response.mk error correlation value).congr fun p w _ => ?_
    cases p
    grind [write_response]

/-! ## Calls -/

namespace Call

instance (c : Call) : Lawful c.Reply :=
  match c with
  | ping _ => inferInstanceAs (Lawful Identity)
  | getStatus => inferInstanceAs (Lawful SyncStatus)
  | getResultsSince _ => inferInstanceAs (Lawful (List Record))
  | getPeers => inferInstanceAs (Lawful (List Contact))
  | getMetadataSince _ => inferInstanceAs (Lawful (List Metadata))
  | getMetadataOf _ => inferInstanceAs (Lawful (Option Metadata))

/-- The arguments in wire form, whether or not they fit a message. -/
def written : Call → Bytes
  | ping c => write c
  | getStatus | getPeers => []
  | getResultsSince r | getMetadataSince r => write r
  | getMetadataOf h => write h

theorem arguments_eq (c : Call) :
    c.arguments = if c.written.length ≤ maxMessage then .ok c.written else .error .sizeLimit := by
  cases c <;> rfl

theorem request_eq {c : Call} (h : c.written.length ≤ maxMessage) (id : UInt64) :
    c.request id = .ok ⟨c.function.toByte, id, c.written⟩ := by
  rw [request, arguments_eq, if_pos h]
  rfl

theorem map_decode_eq_ok_iff {α : Type} [Wire α] [Lawful α] {b : Bytes}
    (hb : b.length < UInt64.size) (g : α → Call) {c : Call} :
    (Wire.decode b).map g = .ok c ↔ ∃ a, b = write a ∧ c = g a := by
  simp only [← Wire.decode_eq_ok_iff hb]
  cases (Wire.decode b : Except Fault α) with
  | error e => simp [Except.map]
  | ok a => simp [Except.map, eq_comm]

/-- Arguments are accepted if and only if they are those of a call of the function. -/
theorem decode_eq_ok_iff {f : FunctionCode} {b : Bytes} {c : Call} (hb : b.length < UInt64.size) :
    decode f b = .ok c ↔ c.function = f ∧ b = c.written := by
  have hnone : (∃ a : Unit, b = write a) ↔ b = [] := ⟨fun ⟨_, h⟩ => h, fun h => ⟨(), h⟩⟩
  cases f <;> cases c <;> simp [decode, map_decode_eq_ok_iff hb, function, written, hnone]

theorem decode_written {c : Call} (h : c.written.length ≤ maxMessage) :
    decode c.function c.written = .ok c :=
  (decode_eq_ok_iff (lt_size_of_le_maxMessage h)).mpr ⟨rfl, rfl⟩

end Call

/-- Messages of every type that travels are read back, and no other message stands for the same
value; calls come back from their requests, and arguments from the calls they were read as. -/
theorem messages_round_trip :
    (RoundTrips Request ∧ RoundTrips Response ∧ RoundTrips Identity ∧ RoundTrips Contact ∧
      RoundTrips (List Contact) ∧ RoundTrips SyncStatus ∧ RoundTrips Record ∧
      RoundTrips (List Record) ∧ RoundTrips Metadata ∧ RoundTrips (List Metadata) ∧
      RoundTrips (Option Metadata) ∧ RoundTrips Unit ∧ RoundTrips Since ∧
      RoundTrips ContentHash) ∧
    (∀ (c : Call) (id : UInt64), c.written.length ≤ maxMessage → ∃ q, c.request id = .ok q ∧
      q.correlation = id ∧ FunctionCode.ofByte? q.function = some c.function ∧
      Call.decode c.function q.arguments = .ok c) ∧
    ∀ (f : FunctionCode) (b : Bytes) (c : Call), b.length < UInt64.size →
      Call.decode f b = .ok c → c.function = f ∧
        c.arguments = if b.length ≤ maxMessage then .ok b else .error .sizeLimit := by
  refine ⟨?_, fun c id h => ?_, fun f b c hb h => ?_⟩
  · exact ⟨Lawful.roundTrips, Lawful.roundTrips, Lawful.roundTrips, Lawful.roundTrips,
      Lawful.roundTrips, Lawful.roundTrips, Lawful.roundTrips, Lawful.roundTrips,
      Lawful.roundTrips, Lawful.roundTrips, Lawful.roundTrips, Lawful.roundTrips,
      Lawful.roundTrips, Lawful.roundTrips⟩
  · exact ⟨_, Call.request_eq h id, rfl, FunctionCode.ofByte?_toByte _, Call.decode_written h⟩
  · obtain ⟨hf, rfl⟩ := (Call.decode_eq_ok_iff hb).mp h
    exact ⟨hf, c.arguments_eq⟩

/-- A caller whose address has a letter of two bytes, and metadata whose score is no number. -/
theorem messages_round_trip_of_two :
    let caller : Contact := ⟨⟨1, 2, 3, 4, 5⟩, "né", 9, 7⟩
    let m : Metadata := ⟨.zero, ⟨0x7F800001⟩, 3, 8⟩
    (∃ q, (Call.ping caller).request 42 = .ok q ∧ q.arguments.length = 40 ∧
      Call.decode .ping q.arguments = .ok (.ping caller)) ∧
    ∃ b, encode [m] = .ok b ∧ b.length = 56 ∧ decode b = .ok [m] := by
  intro caller m
  obtain ⟨-, -, -, -, -, -, -, -, -, hmetadata, -⟩ := messages_round_trip.1
  obtain ⟨b, hb, hback⟩ := hmetadata.decode_encode [m] (by decide)
  obtain ⟨q, hq, -, -, hcall⟩ := messages_round_trip.2.1 (.ping caller) 42 (by decide)
  refine ⟨⟨q, hq, ?_, hcall⟩, b, hb, ?_, hback⟩
  · cases hq
    decide
  · rw [(encode_eq_ok_iff.mp hb).2]
    decide

end SearchOverlay
