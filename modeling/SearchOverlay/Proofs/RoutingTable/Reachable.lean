import SearchOverlay.Proofs.RoutingTable.Decoding

/-!
# Reachable tables

A table is reachable if operations make it of a new table or of one that was read. Both are
sound and hold no identity twice to begin with. Soundness stays, so every reachable table has
the shape that `reachable_shape` spells out. That no identity is held twice does not stay:
`start_heldOnce_iff` says for which operations it does, and `crowding` is a sequence for which
it does not.
-/

namespace SearchOverlay.RoutingTable

/-- Where a table comes from: it is new, or it was read. -/
inductive Start : RoutingTable → Prop where
  | new (self : Contact) : Start (new self)
  | decoded {now : Time} {b : Bytes} {t : RoutingTable} (h : decode now b = .ok t) : Start t

def Reachable (t : RoutingTable) : Prop := ∃ s os, Start s ∧ s.run os = t

theorem Start.sound {s : RoutingTable} (h : Start s) : s.Sound := by
  cases h with
  | new self => exact sound_new self
  | decoded h => exact (yields_decode h).1

theorem Start.heldOnce {s : RoutingTable} (h : Start s) : s.HeldOnce := by
  cases h with
  | new self =>
    rw [HeldOnce, held_new]
    exact List.nodup_nil
  | decoded h => exact (yields_decode h).2.1

theorem Reachable.sound {t : RoutingTable} (h : t.Reachable) : t.Sound := by
  obtain ⟨s, os, hs, rfl⟩ := h
  exact hs.sound.run os

/-- What every reachable table looks like. -/
theorem reachable_shape {t : RoutingTable} (h : t.Reachable) :
    t.buckets.toList.length = 160 ∧ ∀ i : Fin 160,
      (t.bucket i).height.toNat = i ∧ (t.bucket i).active.length ≤ 20 ∧
      (t.bucket i).replacements.length ≤ 20 ∧
      ∀ c ∈ (t.bucket i).active ++ (t.bucket i).replacements,
        (c.identity.xor t.self.identity).height = i ∧ c.identity ≠ t.self.identity ∧
        c.address.utf8ByteSize ≤ 255 := by
  refine ⟨t.buckets.length_toList, fun i => ?_⟩
  obtain ⟨hheight, hlists, hhome⟩ := h.sound i
  refine ⟨hheight, hlists.active_le, hlists.replacements_le, fun c hc => ?_⟩
  obtain ⟨hself, hat, hshort⟩ := hhome c hc
  exact ⟨hat, hself, hshort⟩

/-- Twenty contacts that fill a bucket, a stale one and another one that wait for a place. -/
def overfilling : List Operation :=
  let far (n : UInt32) : Identity := ⟨0x80000000, 0, 0, 0, n⟩
  let fill (n : Nat) : Operation := .push 1000 ⟨far (UInt32.ofNat n), "p", 100, 0⟩
  (List.range 20).map fill ++ [.push 1000 ⟨far 32, "a", 2, 9⟩, .push 1000 ⟨far 33, "b", 1, 0⟩]

/-- For a table with a full bucket in which two contacts wait. -/
theorem reachable_shape_of_full :
    let t := (new ⟨.zero, "s", 1, 0⟩).run overfilling
    (t.bucket 159).active.length = 20 ∧ (t.bucket 159).replacements.length = 2 ∧
      (t.bucket 159).height.toNat = 159 ∧
      ∀ c ∈ (t.bucket 159).active ++ (t.bucket 159).replacements,
        (c.identity.xor t.self.identity).height = 159 ∧ c.identity ≠ t.self.identity ∧
        c.address.utf8ByteSize ≤ 255 := by
  intro t
  obtain ⟨-, hbuckets⟩ := reachable_shape (t := t) ⟨_, _, .new _, rfl⟩
  obtain ⟨hheight, -, -, hcontacts⟩ := hbuckets 159
  exact ⟨by decide +kernel, by decide +kernel, hheight, hcontacts⟩

/-- For which operations no identity is ever held twice, and for which tables an eviction
leaves nothing behind. -/
theorem start_heldOnce_iff {s : RoutingTable} (h : Start s) (os : List Operation) :
    ((∀ p, p <+: os → (s.run p).HeldOnce) ↔
      ∀ p now c, p ++ [.push now c] <+: os →
        ¬ ((s.run p).Takes c ∧ ((s.run p).home c.identity).Clashes c.identity)) ∧
    ∀ id, (id ∉ ids ((s.run os).evict id).2.held ∧ (((s.run os).evict id).2.evict id).1 = false) ↔
      (s.run os).copies id ≤ 1 := by
  refine ⟨?_, fun id => ?_⟩
  · rw [h.sound.heldOnce_run_iff h.heldOnce]
    constructor
    · exact fun hnone p now c => hnone p (.push now c)
    · intro hnone p o hpre
      cases o with
      | push now c => exact hnone p now c hpre
      | remove id => exact not_false
      | evict id => exact not_false
      | setSelf clock c => exact not_false
  · have ht := h.sound.run os
    have hcopies := ht.copies_evict id id
    rw [if_pos rfl] at hcopies
    rw [← Bool.not_eq_true, (ht.evict id).evict_fst, and_self, ← copies_eq_zero, hcopies]
    omega

/-- Nobody active is stale before the second of them waits, so whoever waits is held once. -/
theorem start_heldOnce_of_full :
    let s := new ⟨.zero, "s", 1, 0⟩
    let b : Identity := ⟨0x80000000, 0, 0, 0, 33⟩
    (∀ p, p <+: overfilling → (s.run p).HeldOnce) ∧
      b ∈ ids ((s.run overfilling).bucket 159).replacements ∧
      b ∉ ids ((s.run overfilling).evict b).2.held ∧
      (((s.run overfilling).evict b).2.evict b).1 = false := by
  intro s b
  obtain ⟨honce, hgone⟩ := start_heldOnce_iff (.new ⟨.zero, "s", 1, 0⟩) overfilling
  have hfresh : ∀ k : Fin 23, ∀ c ∈ ((new ⟨.zero, "s", 1, 0⟩).run (overfilling.take k)).active,
      ¬ Bucket.staleThreshold ≤ c.staleCount.toNat := by decide +kernel
  refine ⟨honce.mpr fun p now c hp hclash => ?_, by decide +kernel,
    (hgone b).mpr (by decide +kernel)⟩
  obtain ⟨d, hd, hstale⟩ := hclash.2.2.2.2
  have hpre : p <+: overfilling := (List.prefix_append p _).trans hp
  rw [List.prefix_iff_eq_take.mp hpre] at hd
  exact hfresh ⟨p.length, Nat.lt_succ_of_le hpre.length_le⟩ d (mem_active_iff.mpr ⟨_, hd⟩) hstale

/-- A removal brings in the stale contact that waits, and then the other one is seen again. -/
def crowding : List Operation :=
  let far (n : UInt32) : Identity := ⟨0x80000000, 0, 0, 0, n⟩
  overfilling ++ [.remove (far 0), .push 1000 ⟨far 33, "b", 1, 0⟩]

theorem crowding_holds_twice :
    let t := (new ⟨.zero, "s", 1, 0⟩).run crowding
    t.Reachable ∧ ¬ t.HeldOnce ∧
      ⟨0x80000000, 0, 0, 0, 33⟩ ∈ ids (t.evict ⟨0x80000000, 0, 0, 0, 33⟩).2.held ∧
      ((t.evict ⟨0x80000000, 0, 0, 0, 33⟩).2.evict ⟨0x80000000, 0, 0, 0, 33⟩).1 = true := by
  refine ⟨⟨_, _, .new _, rfl⟩, ?_⟩
  decide +kernel

end SearchOverlay.RoutingTable
