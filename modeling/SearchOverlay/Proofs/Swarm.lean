import Mathlib.Logic.Function.Basic
import SearchOverlay.Proofs.Serving.Batches
import SearchOverlay.Proofs.Store.Visibility

/-!
# Gossip among many nodes

Nodes insert records and pull batches from each other. A batch travels as a frame, which may come
late, overtake another one, come twice, come to the wrong node or not come at all. Whatever happens,
no node holds a record that was not inserted somewhere just as it is held, and no watermark is above
the latest of them.
-/

namespace SearchOverlay

open Wire

/-! ## Stores made of given records -/

/-- The latest time of some records; 0 if there are none. -/
def latest (rs : List Record) : Time := rs.foldr (fun r t => max r.timestamp t) 0

theorem latest_le_iff {rs : List Record} {t : Time} :
    latest rs ≤ t ↔ ∀ r ∈ rs, r.timestamp ≤ t := by
  induction rs with
  | nil => simp [latest]
  | cons r rs ih =>
    show max r.timestamp (latest rs) ≤ t ↔ _
    rw [Std.LawfulOrderSup.max_le_iff, ih, List.forall_mem_cons]

theorem le_latest {rs : List Record} {r : Record} (hr : r ∈ rs) : r.timestamp ≤ latest rs :=
  latest_le_iff.mp (UInt64.le_refl _) r hr

namespace Store

variable {rs qs : List Record} {s : Store} {r : Record}

/-- The store holds none but the given records, and its watermark is not above them. -/
structure MadeOf (rs : List Record) (s : Store) : Prop where
  held : ∀ {h r}, s.record? h = some r → r ∈ rs
  seen : s.status.results ≤ latest rs

theorem madeOf_empty : MadeOf rs empty where
  held hr := nomatch hr
  seen := UInt64.zero_le

theorem MadeOf.insert (h : s.MadeOf rs) (hr : r ∈ rs) : (s.insert r).MadeOf rs where
  held {i q} hq := by
    rcases eq_or_held_of_record?_insert hq with rfl | hq
    · exact hr
    · exact h.held hq
  seen := results_insert_le_iff.mpr ⟨h.seen, le_latest hr⟩

theorem MadeOf.mergeRecords (h : s.MadeOf rs) (hsub : qs ⊆ rs) :
    (s.mergeRecords qs).2.MadeOf rs := by
  rw [Store.mergeRecords, mergeEach_snd]
  refine List.foldlRecOn qs _ h fun t ht q hq => ?_
  rcases mergeRecord_snd q t with hsame | hinsert
  · rwa [hsame]
  · exact hinsert ▸ ht.insert (hsub hq)

/-- What a puller makes of a frame that it takes for the answer to its pull. -/
def takeFrame (since : Time) (max : Nat) (id : UInt64) (f : Bytes) (s : Store) : Store :=
  match readBatch since max id f with
  | .ok rs => (s.mergeRecords rs).2
  | .error _ => s

/-- Whatever anybody reads in the frame is among the given records. -/
def Brings (rs : List Record) (f : Bytes) : Prop :=
  ∀ since max id qs, readBatch since max id f = .ok qs → qs ⊆ rs

/-- A store that is made of some records sends none but those. -/
theorem MadeOf.brings [Snappy.Encoder] {since : Time} {max : Nat} {id : UInt64} {f : Bytes}
    (h : s.MadeOf rs) (hs : s.Reachable) (hf : s.sendBatch since max id = .ok f) : Brings rs f := by
  intro w most asked qs hread r hr
  rw [readBatch_sendBatch hf hread] at hr
  have hnewer : r ∈ s.newer since := List.mem_of_mem_take (List.mem_of_mem_take hr)
  exact h.held (hs.sound.mem_newer.mp hnewer).1

theorem Reachable.takeFrame {since : Time} {max : Nat} {id : UInt64} {f : Bytes}
    (h : s.Reachable) : (s.takeFrame since max id f).Reachable := by
  unfold Store.takeFrame
  split
  · next rs _ => exact h.run [.mergeRecords rs]
  · exact h

theorem MadeOf.takeFrame {since : Time} {max : Nat} {id : UInt64} {f : Bytes} (h : s.MadeOf rs)
    (hf : Brings rs f) : (s.takeFrame since max id f).MadeOf rs := by
  unfold Store.takeFrame
  split
  · next hqs => exact h.mergeRecords (hf _ _ _ _ hqs)
  · exact h

end Store

/-! ## Swarms -/

/-- Nodes with their stores, and all frames that were ever sent. -/
structure Swarm (ι : Type) where
  store : ι → Store
  sent : List Bytes

namespace Swarm

inductive Event (ι : Type) where
  | insert (i : ι) (r : Record)
  | answer (i : ι) (since : Time) (max : Nat) (id : UInt64)
  /-- A node takes one of the frames for the answer to its pull. The frame is not used up. -/
  | receive (i : ι) (number : Nat) (since : Time) (max : Nat) (id : UInt64)

variable {ι : Type}

def inserted (es : List (Event ι)) : List Record :=
  es.filterMap fun
    | .insert _ r => some r
    | _ => none

theorem mem_inserted {es : List (Event ι)} {r : Record} :
    r ∈ inserted es ↔ ∃ i, .insert i r ∈ es := by
  rw [inserted, List.mem_filterMap]
  constructor
  · rintro ⟨e, he, hr⟩
    cases e with
    | insert i q =>
      cases hr
      exact ⟨i, he⟩
    | answer => cases hr
    | receive => cases hr
  · rintro ⟨i, he⟩
    exact ⟨_, he, rfl⟩

def start : Swarm ι := ⟨fun _ => .empty, []⟩

/-- All that is held or under way is among the given records. -/
structure Genuine (rs : List Record) (w : Swarm ι) : Prop where
  reachable : ∀ i, (w.store i).Reachable
  stores : ∀ i, (w.store i).MadeOf rs
  frames : ∀ f ∈ w.sent, Store.Brings rs f

variable {rs : List Record} {w : Swarm ι} {i : ι}

theorem genuine_start : (start : Swarm ι).Genuine rs where
  reachable _ := ⟨[], rfl⟩
  stores _ := Store.madeOf_empty
  frames _ hf := absurd hf List.not_mem_nil

variable [DecidableEq ι]

/-! ## Runs -/

theorem Genuine.update (h : w.Genuine rs) {s : Store} (hs : s.Reachable) (hmade : s.MadeOf rs) :
    Genuine rs { w with store := Function.update w.store i s } where
  reachable := Function.forall_update_iff w.store (p := fun _ t => t.Reachable) |>.mpr
    ⟨hs, fun j _ => h.reachable j⟩
  stores := Function.forall_update_iff w.store (p := fun _ t => t.MadeOf rs) |>.mpr
    ⟨hmade, fun j _ => h.stores j⟩
  frames := h.frames

section

variable [Snappy.Encoder]

def step (w : Swarm ι) : Event ι → Swarm ι
  | .insert i r => { w with store := Function.update w.store i ((w.store i).insert r) }
  | .answer i since max id =>
    match (w.store i).sendBatch since max id with
    | .ok f => { w with sent := w.sent ++ [f] }
    | .error _ => w
  | .receive i number since max id =>
    match w.sent[number]? with
    | some f =>
      { w with store := Function.update w.store i ((w.store i).takeFrame since max id f) }
    | none => w

def run (es : List (Event ι)) : Swarm ι := es.foldl step start

theorem step_answer {since : Time} {max : Nat} {id : UInt64} {f : Bytes}
    (hf : (w.store i).sendBatch since max id = .ok f) :
    w.step (.answer i since max id) = { w with sent := w.sent ++ [f] } := by
  simp only [step, hf]

/-- A batch that fits a message reaches whoever waits for it as it was sent. -/
theorem store_receive_answer {j : ι} {since u : Time} {max most : Nat} {id : UInt64}
    (h : batchLength ((w.store i).recordsSince since max) ≤ maxMessage) :
    ((w.step (.answer i since max id)).step (.receive j w.sent.length u most id)).store j =
      ((w.store j).mergeRecords
        (((w.store i).recordsSince since max).take (Query.batch most))).2 := by
  rw [step_answer (Store.sendBatch_of_fits h)]
  simp only [step, List.getElem?_concat_length, Function.update_self, Store.takeFrame,
    readBatch_of_fits (length_write_batch_le h id)]

theorem Genuine.step (h : w.Genuine rs) (e : Event ι) (hsub : inserted [e] ⊆ rs) :
    (w.step e).Genuine rs := by
  cases e with
  | insert i r =>
    have hr : r ∈ rs := hsub (mem_inserted.mpr ⟨i, List.mem_singleton_self _⟩)
    exact h.update ((h.reachable i).run [.insert r]) ((h.stores i).insert hr)
  | answer i since max id =>
    rw [Swarm.step]
    split
    · next f hf =>
      refine ⟨h.reachable, h.stores, fun g hg => ?_⟩
      rcases List.mem_append.mp hg with hg | hg
      · exact h.frames g hg
      · obtain rfl := List.mem_singleton.mp hg
        exact (h.stores i).brings (h.reachable i) hf
    · exact h
  | receive i number since max id =>
    rw [Swarm.step]
    split
    · next f hf =>
      have hbrings := h.frames f (List.mem_of_getElem? hf)
      exact h.update (h.reachable i).takeFrame ((h.stores i).takeFrame hbrings)
    · exact h

theorem genuine_run (es : List (Event ι)) : (run es).Genuine (inserted es) := by
  refine List.foldlRecOn es _ genuine_start fun w hw e he => hw.step e fun r hr => ?_
  obtain ⟨i, hi⟩ := mem_inserted.mp hr
  exact mem_inserted.mpr ⟨i, List.mem_singleton.mp hi ▸ he⟩

/-- However inserts, answers and deliveries interleave among nodes that start with nothing, a record
that some node holds was inserted at some node, field by field as it is held, and no watermark is
above the latest record that was inserted anywhere. -/
theorem run_invents_nothing (es : List (Event ι)) :
    (∀ i h r, ((run es).store i).record? h = some r → ∃ j, .insert j r ∈ es) ∧
      ∀ i, ((run es).store i).status.results ≤ latest (inserted es) := by
  have hrun := genuine_run es
  refine ⟨fun i h r hr => ?_, fun i => (hrun.stores i).seen⟩
  exact mem_inserted.mp ((hrun.stores i).held hr)

end

attribute [local instance] Snappy.literals

/-- One of two nodes inserts a record, and the other one gets it. -/
theorem run_invents_nothing_of_two :
    let r := LocalNode.page "s"
    let es : List (Event Bool) :=
      [.insert false r, .answer false 0 2048 7, .receive true 0 0 2048 7]
    ((run es).store true).record? r.hash = some r ∧ ∃ j, .insert j r ∈ es := by
  intro r es
  let w : Swarm Bool := start.step (.insert false r)
  have hbatch : (w.store false).recordsSince 0 2048 = [r] :=
    LocalNode.recordsSince_holderOf (by decide)
  have hfits : batchLength ((w.store false).recordsSince 0 2048) ≤ maxMessage := by
    rw [hbatch, LocalNode.batchLength_page]
    decide
  have hreceived : (run es).store true = ((Store.empty.mergeRecords
      (((w.store false).recordsSince 0 2048).take (Query.batch 2048))).2) :=
    store_receive_answer hfits
  have hheld : ((run es).store true).record? r.hash = some r := by
    rw [hreceived, hbatch]
    exact LocalNode.record?_holderOf r
  exact ⟨hheld, (run_invents_nothing es).1 true r.hash r hheld⟩

end Swarm

end SearchOverlay
