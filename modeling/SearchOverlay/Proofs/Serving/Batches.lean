import Mathlib.Algebra.Order.BigOperators.Group.List
import Mathlib.Algebra.Order.Group.Nat
import SearchOverlay.Proofs.Serving.Remote
import SearchOverlay.Proofs.Store.Growth
import SearchOverlay.Proofs.Sync.Calls

/-!
# Batches on their way

A pull is answered with a batch, which is cut by the number of its records and never by their
length. A batch that fits a message in its envelope comes back as it was sent. A longer one is
refused by the server that made it, so a peer that holds long records above a watermark is evicted
by whoever has that watermark, however often it is asked.
-/

namespace SearchOverlay

open Wire

/-! ## Replies -/

namespace Response

/-- The response to the request with a correlation. -/
def reply (id : UInt64) : Except ErrorCode Bytes → Response
  | .ok v => .ok id v
  | .error e => .failed id e

variable [Snappy.Encoder]

def sendReply {α : Type} [Wire α] (id : UInt64) (a : α) : Except CallError Bytes :=
  (reply id (Call.replyValue a)).send

variable {α : Type} [Wire α] {a : α} {id : UInt64} {f : Bytes}

theorem sendReply_of_fits (h : (write (Response.ok id (write a))).length ≤ maxMessage) :
    sendReply id a = .ok (Frame.of (Response.ok id (write a))) := by
  rw [sendReply, Call.replyValue_eq_ok_iff.mpr ⟨length_value_le h, rfl⟩]
  exact send_eq_ok h

theorem sendReply_of_overflow (h : (write a).length ≤ maxMessage)
    (hlong : maxMessage < (write (Response.ok id (write a))).length) :
    sendReply id a = .error (.malformed (.wire .sizeLimit)) := by
  rw [sendReply, Call.replyValue_eq_ok_iff.mpr ⟨h, rfl⟩]
  exact send_eq_error hlong

theorem sendReply_of_long (h : maxMessage < (write a).length) :
    sendReply id a = .ok (Frame.of (Response.failed id .unmarshalFailure)) := by
  have hvalue : Call.replyValue a = .error .unmarshalFailure := by
    simp only [Call.replyValue, Wire.encode, if_neg (Nat.not_le.mpr h)]
  rw [sendReply, hvalue]
  exact send_eq_ok (length_write_failed_le id _)

theorem eq_of_sendReply (hf : sendReply id a = .ok f) :
    (write (Response.ok id (write a))).length ≤ maxMessage ∧
        f = Frame.of (Response.ok id (write a)) ∨
      f = Frame.of (Response.failed id .unmarshalFailure) := by
  rcases Nat.lt_or_ge maxMessage (write a).length with hlong | hshort
  · cases (sendReply_of_long hlong).symm.trans hf
    exact .inr rfl
  · rcases Nat.lt_or_ge maxMessage (write (Response.ok id (write a))).length with hlong | hfits
    · cases (sendReply_of_overflow hshort hlong).symm.trans hf
    · cases (sendReply_of_fits hfits).symm.trans hf
      exact .inl ⟨hfits, rfl⟩

end Response

theorem Request.answered_eq (q : Request) (r : Except ErrorCode Bytes) :
    q.answered r = .reply q.correlation r := by cases r <;> rfl

namespace Call

variable {α : Type} [Wire α] {a : α} {p : Response} {id asked : UInt64} {f v : Bytes}

variable [Snappy.Encoder]

theorem responseValue_of_ne (h : (write p).length ≤ maxMessage) (hne : p.correlation ≠ asked) :
    responseValue asked (Frame.of p) = .error (.correlationMismatch asked p.correlation) := by
  rw [responseValue, if_neg (Nat.not_lt.mpr (Frame.length_of_le h)), Frame.decode_of h]
  exact if_pos hne

/-- Whatever is read in the frame of a reply is the reply. -/
theorem value_of_sendReply (hf : Response.sendReply id a = .ok f)
    (hv : responseValue asked f = .ok v) : v = write a ∧ v.length ≤ maxMessage := by
  have hasked {p : Response} (hp : (write p).length ≤ maxMessage) (hid : p.correlation = id)
      (hv : responseValue asked (Frame.of p) = .ok v) : asked = id := by
    refine Decidable.byContradiction fun hne => ?_
    rw [responseValue_of_ne hp (hid ▸ Ne.symm hne)] at hv
    cases hv
  rcases Response.eq_of_sendReply hf with ⟨hfits, rfl⟩ | rfl
  · obtain rfl := hasked hfits rfl hv
    cases (responseValue_ok hfits).symm.trans hv
    exact ⟨rfl, Response.length_value_le hfits⟩
  · obtain rfl := hasked (Response.length_write_failed_le id _) rfl hv
    cases (responseValue_failed (by decide)).symm.trans hv

end Call

/-! ## Pulls -/

/-- The frame that a store answers a pull with, if it answers. -/
def Store.sendBatch [Snappy.Encoder] (s : Store) (since : Time) (max : Nat) (id : UInt64) :
    Except CallError Bytes :=
  Response.sendReply id (s.recordsSince since max)

/-- What a puller reads in a frame that it takes for the answer to its pull. -/
def readBatch (since : Time) (max : Nat) (id : UInt64) (f : Bytes) :
    Except CallError (List Record) :=
  (Query.getResultsSince since max).answer (Call.responseValue id f)

theorem readBatch_of_fits [Snappy.Encoder] {rs : List Record} {since : Time} {max : Nat}
    {id : UInt64} (h : (write (Response.ok id (write rs))).length ≤ maxMessage) :
    readBatch since max id (Frame.of (Response.ok id (write rs))) =
      .ok (rs.take (Query.batch max)) := by
  rw [readBatch, Call.responseValue_ok h]
  exact LocalNode.answer_write (q := .getResultsSince since max) (Response.length_value_le h)

/-- Whatever a puller reads in the answer of a store is the batch, as far as it asked for it. -/
theorem Store.readBatch_sendBatch [Snappy.Encoder] {s : Store} {since w : Time} {max most : Nat}
    {id asked : UInt64} {f : Bytes} {rs : List Record} (hf : s.sendBatch since max id = .ok f)
    (hrs : readBatch w most asked f = .ok rs) :
    rs = (s.recordsSince since max).take (Query.batch most) := by
  rw [readBatch] at hrs
  cases hv : Call.responseValue asked f with
  | error e =>
    rw [hv] at hrs
    cases hrs
  | ok v =>
    obtain ⟨rfl, hshort⟩ := Call.value_of_sendReply hf hv
    have hanswer := LocalNode.answer_write (q := .getResultsSince w most) hshort
    rw [hv] at hrs
    exact (Except.ok.inj (hanswer.symm.trans hrs)).symm

theorem LocalNode.serve_pull [Snappy.Encoder] {clock : Clock} {n : LocalNode} {range : Since}
    {id : UInt64} {f : Bytes} (hn : n.stopped = false)
    (hf : (Call.getResultsSince range).frame id = .ok f) :
    n.serve clock f = (n.store.sendBatch range.since (Call.batchSize range.max) id, n) := by
  rw [serve_frame hf, answerCall_of_running hn, Request.answered_eq]
  rfl

/-! ## Which batches fit -/

/-- The length of the response that carries a batch. -/
def batchLength (rs : List Record) : Nat := 25 + (rs.flatMap write).length

theorem length_write_batch (id : UInt64) (rs : List Record) :
    (write (Response.ok id (write rs))).length = batchLength rs := by
  rw [length_write_response]
  show 17 + (write rs).length = _
  rw [length_write_list, batchLength]
  omega

theorem length_write_batch_le {rs : List Record} (h : batchLength rs ≤ maxMessage) (id : UInt64) :
    (write (Response.ok id (write rs))).length ≤ maxMessage := by rwa [length_write_batch]

theorem batchLength_eq (rs : List Record) : batchLength rs = (write rs).length + 17 := by
  rw [← length_write_batch 0 rs, length_write_response]
  exact Nat.add_comm _ _

/-- A batch whose records stay below 4 KiB each fits a message. -/
theorem batchLength_le {rs : List Record} (hlen : rs.length ≤ Call.maxBatch)
    (h : ∀ r ∈ rs, (write r).length ≤ 4095) : batchLength rs ≤ maxMessage := by
  have hsum : (rs.flatMap write).length ≤ rs.length * 4095 := by
    have hle := List.sum_le_card_nsmul (rs.map fun r => (write r).length) 4095 (by simpa using h)
    rwa [List.length_map, Nat.nsmul_eq_mul, ← List.length_flatMap] at hle
  calc batchLength rs ≤ 25 + rs.length * 4095 := Nat.add_le_add_left hsum 25
    _ ≤ 25 + Call.maxBatch * 4095 := Nat.add_le_add_left (Nat.mul_le_mul_right _ hlen) 25
    _ ≤ maxMessage := by decide

namespace Store

variable [Snappy.Encoder] {s : Store} {since : Time} {max : Nat} {id : UInt64}

theorem sendBatch_of_fits (h : batchLength (s.recordsSince since max) ≤ maxMessage) :
    s.sendBatch since max id =
      .ok (Frame.of (Response.ok id (write (s.recordsSince since max)))) :=
  Response.sendReply_of_fits (length_write_batch_le h id)

theorem sendBatch_of_overflow (hlong : maxMessage < batchLength (s.recordsSince since max))
    (h : batchLength (s.recordsSince since max) ≤ maxMessage + 17) :
    s.sendBatch since max id = .error (.malformed (.wire .sizeLimit)) := by
  refine Response.sendReply_of_overflow ?_
    (Nat.lt_of_lt_of_eq hlong (length_write_batch id _).symm)
  rw [batchLength_eq] at h
  exact Nat.le_of_add_le_add_right h

theorem sendBatch_of_long (h : maxMessage + 17 < batchLength (s.recordsSince since max)) :
    s.sendBatch since max id = .ok (Frame.of (Response.failed id .unmarshalFailure)) := by
  rw [batchLength_eq] at h
  exact Response.sendReply_of_long (Nat.lt_of_add_lt_add_right h)

theorem sendBatch_of_lt (id : UInt64) (h : maxMessage < batchLength (s.recordsSince since max)) :
    s.sendBatch since max id = .error (.malformed (.wire .sizeLimit)) ∨
      s.sendBatch since max id = .ok (Frame.of (Response.failed id .unmarshalFailure)) := by
  rcases Nat.lt_or_ge (maxMessage + 17) (batchLength (s.recordsSince since max)) with hlong | hle
  · exact .inr (sendBatch_of_long hlong)
  · exact .inl (sendBatch_of_overflow h hle)

/-- A list of records is sent if and only if the batch fits, and then it is the batch. -/
theorem sendBatch_eq_ok_iff {rs : List Record} : (∃ f, s.sendBatch since max id = .ok f ∧
    Frame.decode f = .ok (Response.ok id (write rs))) ↔
      batchLength (s.recordsSince since max) ≤ maxMessage ∧ rs = s.recordsSince since max := by
  constructor
  · rintro ⟨f, hf, hdecode⟩
    rcases Response.eq_of_sendReply hf with ⟨hfits, rfl⟩ | rfl
    · rw [Frame.decode_of hfits] at hdecode
      have hwrite : write (s.recordsSince since max) = write rs :=
        congrArg Response.value (Except.ok.inj hdecode)
      refine ⟨length_write_batch id _ ▸ hfits, ?_⟩
      exact (eq_of_write_eq (Response.length_value_le hfits) hwrite).symm
    · rw [Frame.decode_of (Response.length_write_failed_le id _)] at hdecode
      cases hdecode
  · rintro ⟨hfits, rfl⟩
    exact ⟨_, sendBatch_of_fits hfits, Frame.decode_of (length_write_batch_le hfits id)⟩

end Store

namespace LocalNode

variable {clock : Clock} {n : LocalNode} {since : Time} {id : UInt64} {r : Record}

theorem recordsSince_holderOf (h : since < r.timestamp) :
    (holderOf r).store.recordsSince since Call.maxBatch = [r] := by
  rw [Store.recordsSince_eq, holderOf, Store.newer_singleton h]
  rfl

theorem batchLength_page (snippet : String) :
    batchLength [page snippet] = 91 + snippet.utf8ByteSize := by
  rw [batchLength_eq, length_write_page]
  omega

theorem record?_holderOf (r : Record) : (holderOf r).store.record? r.hash = some r :=
  (Store.record?_insert r .empty r.hash).trans (if_pos rfl)

theorem reachable_holderOf (r : Record) : (holderOf r).store.Reachable := ⟨[.insert r], rfl⟩

section

variable [Snappy.Encoder]

theorem frame_pull (since : Time) (id : UInt64) : (Call.getResultsSince ⟨since, 2048⟩).frame id =
    .ok (Frame.of ((Call.getResultsSince ⟨since, 2048⟩).writtenRequest id)) := by
  refine Call.frame_eq_ok_iff.mpr ⟨?_, rfl⟩
  rw [length_write_request]
  show 17 + (write since ++ write (2048 : UInt32)).length ≤ _
  rw [List.length_append, length_write_time, length_write_word]
  decide

theorem serve_pull_fst (hn : n.stopped = false) :
    (n.serve clock (Frame.of ((Call.getResultsSince ⟨since, 2048⟩).writtenRequest id))).1 =
      n.store.sendBatch since Call.maxBatch id := by
  have hmax : Call.batchSize 2048 = Call.maxBatch := by decide
  rw [serve_pull hn (frame_pull since id), hmax]

theorem queried_pull (hn : n.stopped = false) :
    (n.queried clock (.getResultsSince since Call.maxBatch) id).1 =
      readBatch since Call.maxBatch id
        ((n.store.sendBatch since Call.maxBatch id).toOption.getD []) := by
  have hf : (Query.getResultsSince since Call.maxBatch).call.frame id = _ := frame_pull since id
  simp only [queried, hf, serve_pull hn (frame_pull since id)]
  rfl

/-- A pull fails if and only if the batch does not fit. -/
theorem queried_pull_eq_error_iff (hn : n.stopped = false) :
    (∃ e, (n.queried clock (.getResultsSince since Call.maxBatch) id).1 = .error e) ↔
      maxMessage < batchLength (n.store.recordsSince since Call.maxBatch) := by
  rw [queried_pull hn]
  constructor
  · rintro ⟨e, he⟩
    refine Nat.lt_of_not_le fun hfits => ?_
    rw [Store.sendBatch_of_fits hfits, Except.toOption, Option.getD_some,
      readBatch_of_fits (length_write_batch_le hfits id)] at he
    cases he
  · intro hlong
    rcases Store.sendBatch_of_lt id hlong with h | h
    · rw [h]
      exact ⟨_, rfl⟩
    · rw [h, Except.toOption, Option.getD_some, readBatch, Call.responseValue_failed (by decide)]
      exact ⟨_, rfl⟩

/-- A running node that holds a record newer than `since` answers a pull from there with a list of
records if and only if the response with the batch fits a message. A batch that is too long for the
envelope alone is not answered, a longer one is refused; either way, who asked evicts the node.
Records below 4 KiB are always a batch that fits. -/
theorem pull_served_iff (hn : n.stopped = false) (hs : n.store.Reachable) {h : ContentHash}
    (hr : n.store.record? h = some r) (hnewer : since < r.timestamp) (clock : Clock) (id : UInt64) :
    let rs := n.store.recordsSince since Call.maxBatch
    let query : Query := .getResultsSince since Call.maxBatch
    ∃ f, query.call.frame id = .ok f ∧
      ((∃ b qs, (n.serve clock f).1 = .ok b ∧
          Frame.decode b = .ok (Response.ok id (write (qs : List Record))) ∧ qs ≠ []) ↔
        batchLength rs ≤ maxMessage) ∧
      (batchLength rs ≤ maxMessage → rs ≠ [] ∧
        (n.serve clock f).1 = .ok (Frame.of (Response.ok id (write rs)))) ∧
      (maxMessage < batchLength rs → batchLength rs ≤ maxMessage + 17 →
        (n.serve clock f).1 = .error (.malformed (.wire .sizeLimit))) ∧
      (maxMessage + 17 < batchLength rs →
        (n.serve clock f).1 = .ok (Frame.of (Response.failed id .unmarshalFailure))) ∧
      ((∀ r ∈ rs, (write r).length ≤ 4095) → batchLength rs ≤ maxMessage) ∧
      ∀ (σ : Type) (o : Outside σ) (w : σ) (m : LocalNode) (peer : Contact)
        (mine theirs : SyncStatus) (firstSync : Bool), m.stopped = false →
        mine.results = since → since < theirs.results →
        (o.answer w peer query).1 = (n.queried clock query id).1 →
        (((Sync.pullResults peer mine theirs firstSync).run o m w).1.1 = .evicted .syncResults ↔
          maxMessage < batchLength rs) := by
  intro rs query
  have hne : rs ≠ [] := hs.shelved.recordsSince_ne_nil hr hnewer (by decide)
  refine ⟨_, frame_pull since id, ?_⟩
  rw [serve_pull_fst hn]
  refine ⟨⟨?_, fun hfits => ?_⟩, fun hfits => ⟨hne, Store.sendBatch_of_fits hfits⟩,
    Store.sendBatch_of_overflow, Store.sendBatch_of_long,
    batchLength_le (List.length_take_le _ _), ?_⟩
  · rintro ⟨b, qs, hb, hdecode, -⟩
    exact (Store.sendBatch_eq_ok_iff.mp ⟨b, hb, hdecode⟩).1
  · obtain ⟨b, hb, hdecode⟩ := Store.sendBatch_eq_ok_iff.mpr ⟨hfits, rfl⟩
    exact ⟨b, rs, hb, hdecode, hne⟩
  · rintro σ o w m peer mine theirs firstSync hm rfl hahead hanswer
    rw [Sync.pullResults_evicted_iff peer o w firstSync hm hahead, hanswer]
    exact queried_pull_eq_error_iff hn

end

attribute [local instance] Snappy.literals

/-- A node with a short record answers a pull with it. -/
theorem pull_served_of_page : let n := holderOf (page "s")
    n.stopped = false ∧ n.store.Reachable ∧ (0 : Time) < (page "s").timestamp ∧
      ∃ f b qs, (Query.getResultsSince 0 Call.maxBatch).call.frame 7 = .ok f ∧
        (n.serve (.still 1000) f).1 = .ok b ∧
        Frame.decode b = .ok (Response.ok 7 (write (qs : List Record))) ∧ qs ≠ [] := by
  intro n
  have hn : n.store.Reachable := reachable_holderOf _
  have hnewer : (0 : Time) < (page "s").timestamp := by decide
  obtain ⟨f, hf, hserved, -⟩ :=
    pull_served_iff rfl hn (record?_holderOf _) hnewer (.still 1000) 7
  have hfits : batchLength (n.store.recordsSince 0 Call.maxBatch) ≤ maxMessage := by
    rw [recordsSince_holderOf hnewer, batchLength_page]
    decide
  obtain ⟨b, qs, hb, hdecode, hne⟩ := hserved.mpr hfits
  exact ⟨rfl, hn, hnewer, f, b, qs, hf, hb, hdecode, hne⟩

/-- Two records of 4 MiB each, one a little later than the other. Either would fit a message alone;
a pull from below both is refused, since the batch takes both. -/
theorem long_batch_refused :
    let r : Record := .ofPage "u" "t" (letters 4200000) 5
    let q : Record := .ofPage "v" "t" (letters 4200000) 6
    let n := { holderOf r with store := (Store.empty.insert r).insert q }
    n.store.Reachable ∧ n.store.record? r.hash = some r ∧ (0 : Time) < r.timestamp ∧
      batchLength [r] ≤ maxMessage ∧ batchLength [q] ≤ maxMessage ∧
      ∃ f, (Query.getResultsSince 0 Call.maxBatch).call.frame 7 = .ok f ∧
        (n.serve (.still 1000) f).1 = .ok (Frame.of (Response.failed 7 .unmarshalFailure)) ∧
        ¬ ∃ b qs, (n.serve (.still 1000) f).1 = .ok b ∧
          Frame.decode b = .ok (Response.ok 7 (write (qs : List Record))) ∧ qs ≠ [] := by
  intro r q n
  have hapart : r.hash ≠ q.hash := by decide +kernel
  have hlength {url : String} {t : Time} (hurl : url.utf8ByteSize = 1) :
      (write (Record.ofPage url "t" (letters 4200000) t)).length = 4200066 := by
    rw [length_write_record]
    show 64 + (url.utf8ByteSize + 1 + (letters 4200000).utf8ByteSize) = _
    rw [hurl, utf8ByteSize_letters]
  have hr : (write r).length = 4200066 := hlength (by decide)
  have hq : (write q).length = 4200066 := hlength (by decide)
  have hnewer : (n.store.newer 0).Perm [q, r] := by
    have hfresh : (Store.empty.insert r).record? q.hash = none :=
      (Store.record?_insert ..).trans (if_neg hapart)
    have hperm : (n.store.newer 0).Perm (q :: (Store.empty.insert r).newer 0) :=
      (Store.sound_empty.insert r).newer_insert_perm hfresh (by decide)
    rwa [Store.newer_singleton (by decide)] at hperm
  have hbatch : n.store.recordsSince 0 Call.maxBatch = n.store.newer 0 :=
    List.take_of_length_le (Nat.le_trans (Nat.le_of_eq hnewer.length_eq) (by decide))
  have hlong : maxMessage + 17 < batchLength (n.store.recordsSince 0 Call.maxBatch) := by
    rw [hbatch, batchLength, (hnewer.flatMap_right write).length_eq, List.flatMap_cons,
      List.flatMap_singleton, List.length_append, hr, hq]
    decide
  refine ⟨⟨[.insert r, .insert q], rfl⟩, ?_, by decide, ?_, ?_, _, frame_pull 0 7, ?_⟩
  · rw [Store.record?_insert, if_neg hapart.symm, Store.record?_insert, if_pos rfl]
  · rw [batchLength, List.flatMap_singleton, hr]
    decide
  · rw [batchLength, List.flatMap_singleton, hq]
    decide
  · rw [serve_pull_fst rfl]
    refine ⟨Store.sendBatch_of_long hlong, ?_⟩
    rintro ⟨b, qs, hb, hdecode, -⟩
    have hfits := (Store.sendBatch_eq_ok_iff.mp ⟨b, hb, hdecode⟩).1
    exact Nat.not_le.mpr hlong (Nat.le_trans hfits (Nat.le_add_right _ _))

end LocalNode

end SearchOverlay
