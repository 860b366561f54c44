import SearchOverlay.Proofs.RoutingTable.Reachable

/-!
# Who waits

In a table that was never read from bytes, contacts wait only behind a full active list, the one
seen last in front. So the slot of an active contact that leaves goes to the contact that was seen
last of those that wait, and the list stays full. A table that was read may hold contacts that wait
behind free slots.
-/

namespace SearchOverlay

namespace Bucket

variable {now : Time} {c : Contact} {id : Identity} {b b' : Bucket} {o : PushOutcome} {was : Bool}

/-- Contacts wait only behind a full active list. -/
def Backed (b : Bucket) : Prop := b.replacements ≠ [] → capacity ≤ b.active.length

theorem PushStep.backed (s : PushStep now c b o b') (hb : b.Backed) : b'.Backed := by
  intro hwait
  cases s with
  | refreshed named first => simpa [Nat.add_assoc] using hb hwait
  | @inserted _ as rs new room =>
    have hrs : rs ≠ [] := by
      rintro rfl
      exact hwait rfl
    exact absurd (hb hrs) (Nat.not_le_of_lt room)
  | replaced new full stale before after => simpa using full
  | deferred new full fine wait => exact full

theorem RemoveStep.backed (s : RemoveStep id b was b') (hb : b.Backed) : b'.Backed := by
  intro hwait
  cases s with
  | absent none => exact hb hwait
  | marked named first => exact absurd rfl hwait
  | promoted named first => simpa using hb (List.cons_ne_nil _ _)

theorem EvictStep.backed (s : EvictStep id b was b') (hb : b.Backed) : b'.Backed := by
  intro hwait
  cases s with
  | absent none waiting => exact hb hwait
  | dropped named first => exact absurd rfl hwait
  | promoted named first => simpa using hb (List.cons_ne_nil _ _)
  | waiting none named first => exact hb (by simp)

theorem invariant_backed : Invariant Backed where
  empty _ := fun hwait => absurd rfl hwait
  push := PushStep.backed
  remove := RemoveStep.backed
  evict := EvictStep.backed

/-! ## The free slot -/

/-- The first active contact with the identity has left `b`, and its slot has gone to the one seen
last of those that waited. -/
def Refilled (id : Identity) (b b' : Bucket) : Prop :=
  ∃ l old r next rest, b.active = l ++ old :: r ∧ old.identity = id ∧ id ∉ ids l ∧
    b.replacements = next :: rest ∧ (∀ d ∈ rest, d.lastSeen ≤ next.lastSeen) ∧
    b'.active = l ++ next :: r ∧ b'.replacements = rest

theorem Refilled.length_eq (h : b.Refilled id b') : b'.active.length = b.active.length := by
  obtain ⟨l, old, r, next, rest, hactive, -, -, -, -, hactive', -⟩ := h
  simp [hactive, hactive']

theorem RemoveStep.refilled (s : RemoveStep id b was b') (hsorted : SortedBySeen b.replacements)
    (hactive : id ∈ ids b.active) (hwait : b.replacements ≠ []) : b.Refilled id b' := by
  cases s with
  | absent none => exact absurd hactive none
  | marked named first => exact absurd rfl hwait
  | @promoted _ l old r next rest named first =>
    obtain ⟨hnext, hrest⟩ := List.pairwise_cons.mp hsorted
    exact ⟨l, old, r, next, rest, rfl, named, first, rfl, hnext, rfl, sortBySeen_of_sorted hrest⟩

theorem EvictStep.refilled (s : EvictStep id b was b') (hsorted : SortedBySeen b.replacements)
    (hactive : id ∈ ids b.active) (hwait : b.replacements ≠ []) : b.Refilled id b' := by
  cases s with
  | absent none waiting => exact absurd hactive none
  | dropped named first => exact absurd rfl hwait
  | @promoted _ l old r next rest named first =>
    obtain ⟨hnext, -⟩ := List.pairwise_cons.mp hsorted
    exact ⟨l, old, r, next, rest, rfl, named, first, rfl, hnext, rfl, rfl⟩
  | waiting none named first => exact absurd hactive none

end Bucket

namespace RoutingTable

/-- In every bucket of a table that operations make of a new one, contacts wait only behind a full
active list, in the order in which they were seen, the last one first. If an active contact is
removed or evicted while others wait, the one seen last of them takes over its slot. -/
theorem waiting_of_new (self : Contact) (os : List Operation) (i : Fin 160) :
    let t := (new self).run os
    let b := t.bucket i
    b.replacements.Pairwise (fun c d => d.lastSeen ≤ c.lastSeen) ∧
    (b.replacements ≠ [] → b.active.length = 20) ∧
    ∀ id ∈ ids b.active, b.replacements ≠ [] →
      b.Refilled id ((t.remove id).2.bucket i) ∧ b.Refilled id ((t.evict id).2.bucket i) ∧
      ((t.remove id).2.bucket i).active.length = 20 ∧
      ((t.evict id).2.bucket i).active.length = 20 := by
  intro t b
  have hsound : t.Sound := (sound_new self).run os
  have hlists := (hsound i).lists
  have hbacked : b.Backed := Bucket.invariant_backed.run (Bucket.invariant_backed.new self) os i
  have hfull : b.replacements ≠ [] → b.active.length = 20 := fun hwait =>
    Nat.le_antisymm hlists.active_le (hbacked hwait)
  refine ⟨hlists.sorted, hfull, fun id hid hwait => ?_⟩
  obtain ⟨c, hc, rfl⟩ := List.mem_map.mp hid
  have hindex : t.index c.identity = i := hsound.index_eq_of_active hc
  have hne : c.identity ≠ t.identity := ((hsound i).active hc).ne_self
  have hremove : b.Refilled c.identity ((t.remove c.identity).2.bucket i) := by
    rw [bucket_remove hne hindex]
    exact (Bucket.remove_step _ _).refilled hlists.sorted hid hwait
  have hevict : b.Refilled c.identity ((t.evict c.identity).2.bucket i) := by
    rw [bucket_evict hne hindex]
    exact (Bucket.evict_step _ _).refilled hlists.sorted hid hwait
  exact ⟨hremove, hevict, hremove.length_eq.trans (hfull hwait),
    hevict.length_eq.trans (hfull hwait)⟩

/-- In the crowded bucket the contact that waits is active as well. It takes over the slot of the
sixth contact, which is removed. -/
theorem waiting_of_new_crowded :
    let t := (new ⟨.zero, "s", 1, 0⟩).run crowding
    let far (n : UInt32) : Identity := ⟨0x80000000, 0, 0, 0, n⟩
    far 5 ∈ ids (t.bucket 159).active ∧ (t.bucket 159).replacements ≠ [] ∧
      (t.bucket 159).Refilled (far 5) ((t.remove (far 5)).2.bucket 159) ∧
      ((t.evict (far 5)).2.bucket 159).active.length = 20 := by
  intro t far
  obtain ⟨hactive, hwait⟩ :
      far 5 ∈ ids (t.bucket 159).active ∧ (t.bucket 159).replacements ≠ [] := by
    decide +kernel
  obtain ⟨-, -, hslot⟩ := waiting_of_new ⟨.zero, "s", 1, 0⟩ crowding 159
  obtain ⟨hremove, -, -, hlength⟩ := hslot (far 5) hactive hwait
  exact ⟨hactive, hwait, hremove, hlength⟩

end RoutingTable

end SearchOverlay
