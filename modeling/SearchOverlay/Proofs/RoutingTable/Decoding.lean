import SearchOverlay.Proofs.RoutingTable.HeldOnce
import SearchOverlay.Proofs.RoutingTable.Reading

/-!
# What is read is sound

Whatever bytes are read, in whatever order the heights come and however often, a table that
comes out of them is sound, holds no identity twice and has an address that can be written.
The invariant of the reading is `Draft.Sound`: a sound table but for the order of the
replacements, with all its identities among those met so far.
-/

namespace SearchOverlay

/-- What the bucket `i` of a table of `me` keeps while rows are read, when `seen` are the
identities met so far. -/
structure Bucket.Filled (me : Identity) (seen : List Identity) (i : Fin 160) (b : Bucket) :
    Prop where
  height : b.height.toNat = i
  active_le : b.active.length ≤ capacity
  replacements_le : b.replacements.length ≤ capacity
  home : ∀ c ∈ b.held, AtHome me i c
  met : ∀ id ∈ ids b.held, id ∈ seen
  once : b.HeldOnce

namespace Bucket

theorem Filled.mono {me id : Identity} {seen : List Identity} {i : Fin 160} {b : Bucket}
    (h : b.Filled me seen i) : b.Filled me (id :: seen) i :=
  { h with met := fun a ha => List.mem_cons_of_mem _ (h.met a ha) }

end Bucket

namespace RoutingTable

theorem held_addRow_perm (k : Bool) (c : Contact) (b : Bucket) :
    (addRow k c b).held.Perm (c :: b.held) := by
  cases k with
  | false => simp [addRow, Bucket.held]
  | true =>
    have h := List.perm_append_singleton c (b.active ++ b.replacements)
    simpa [addRow, Bucket.held] using h

theorem filled_addRow {me : Identity} {seen : List Identity} {i : Fin 160} {b : Bucket}
    (h : b.Filled me seen i) {k : Bool} {c : Contact} (hc : AtHome me i c)
    (hnew : c.identity ∉ seen) (hroom : (rowsOf k b).length < Bucket.capacity) :
    (addRow k c b).Filled me (c.identity :: seen) i := by
  have hp := held_addRow_perm k c b
  have hids := hp.map (·.identity)
  refine ⟨?_, ?_, ?_, fun d hd => ?_, fun a ha => ?_, ?_⟩
  · cases k <;> exact h.height
  · cases k with
    | false => simpa [addRow, rowsOf] using Nat.succ_le_of_lt hroom
    | true => exact h.active_le
  · cases k with
    | false => exact h.replacements_le
    | true => simpa [addRow, rowsOf] using Nat.succ_le_of_lt hroom
  · rcases List.mem_cons.mp (hp.mem_iff.mp hd) with rfl | hd
    · exact hc
    · exact h.home d hd
  · rcases List.mem_cons.mp (hids.mem_iff.mp ha) with rfl | ha
    · exact List.mem_cons_self
    · exact List.mem_cons_of_mem _ (h.met a ha)
  · have hfree : c.identity ∉ ids b.held := fun hin => hnew (h.met _ hin)
    exact hids.nodup_iff.mpr (List.nodup_cons.mpr ⟨hfree, h.once⟩)

theorem soundAt_sortReplacements {me : Identity} {seen : List Identity} {i : Fin 160} {b : Bucket}
    (h : b.Filled me seen i) : (sortReplacements b).SoundAt me i := by
  refine ⟨h.height, ⟨h.active_le, ?_, Bucket.sortedBySeen_sortBySeen _⟩, fun c hc => ?_⟩
  · simpa [sortReplacements] using h.replacements_le
  · refine h.home c ?_
    simpa [sortReplacements, Bucket.held] using hc

theorem heldOnce_sortReplacements {b : Bucket} (h : b.HeldOnce) : (sortReplacements b).HeldOnce :=
  (((Bucket.sortBySeen_perm b.replacements).append_left b.active).map _).nodup_iff.mpr h

/-! ## Drafts -/

def Draft.Sound (d : Draft) : Prop :=
  ∀ i : Fin 160, (d.table.bucket i).Filled d.table.identity d.seen i

theorem draft_sound_new (self : Contact) : Draft.Sound ⟨new self, []⟩ := by
  intro i
  have h := sound_new self i
  have hempty : ((new self).bucket i).held = [] := by
    rw [bucket_new]
    rfl
  refine ⟨h.height, h.lists.active_le, h.lists.replacements_le, h.home, ?_, ?_⟩
  · rw [hempty]
    exact fun _ => id
  · rw [Bucket.HeldOnce, hempty]
    exact List.nodup_nil

theorem Draft.Sound.add {d d' : Draft} (hd : d.Sound) {h : UInt8} {i : Fin 160}
    {row : Bool × Contact} (hshort : row.2.address.utf8ByteSize ≤ maxAddress)
    (hadd : d.add h i row = .ok d') : d'.Sound ∧ d'.table.self = d.table.self := by
  obtain ⟨k, c⟩ := row
  simp only [Draft.add] at hadd
  split at hadd
  · cases hadd
    exact ⟨hd, rfl⟩
  · next hskip =>
    simp only [Bool.or_eq_true, decide_eq_true_eq, List.contains_eq_mem, not_or] at hskip
    obtain ⟨hself, hnew⟩ := hskip
    split at hadd
    · cases hadd
    · next hat =>
      have hat : d.table.index c.identity = i := not_not.mp hat
      split at hadd
      · cases hadd
      · next hroom =>
        cases hadd
        refine ⟨fun j => ?_, rfl⟩
        have hc : AtHome d.table.identity i c := ⟨hself, congrArg Fin.val hat, hshort⟩
        rw [bucket_setBucket]
        split
        · next hij =>
          subst hij
          exact filled_addRow (hd i) hc hnew (Nat.lt_of_not_le hroom)
        · exact (hd j).mono

/-- What the reader makes of a draft is sound and belongs to the same member. -/
abbrev Keeps (d : Draft) (p : Reader Draft) : Prop :=
  Yields p fun d' => d'.Sound ∧ d'.table.self = d.table.self

theorem keeps_rows (h : UInt8) (i : Fin 160) (n : Nat) {d : Draft} (hd : d.Sound) :
    Keeps d (readRows h i n d) := by
  induction n generalizing d with
  | zero => exact .pure ⟨hd, rfl⟩
  | succ n ih =>
    refine yields_row.bind fun row hrow => ?_
    split
    · next d' hadd =>
      obtain ⟨hd', hself⟩ := hd.add hrow hadd
      exact (ih hd').imp fun _ h => ⟨h.1, h.2.trans hself⟩
    · exact .throw _ _

theorem keeps_section {d : Draft} (hd : d.Sound) : Keeps d (readSection d) := by
  refine (Yields.true _).bind fun h _ => ?_
  split
  · exact (Yields.true _).bind fun n _ => keeps_rows _ _ _ hd
  · exact .throw _ _

theorem keeps_sections (n : Nat) {d : Draft} (hd : d.Sound) : Keeps d (readSections n d) := by
  induction n generalizing d with
  | zero => exact .pure ⟨hd, rfl⟩
  | succ n ih =>
    refine (keeps_section hd).bind fun d' ⟨hd', hself⟩ => ?_
    exact (ih hd').imp fun _ h => ⟨h.1, h.2.trans hself⟩

/-! ## Tables -/

theorem yields_read (now : Time) : Yields (read now) fun t =>
    t.Sound ∧ t.HeldOnce ∧ t.self.address.utf8ByteSize ≤ maxAddress ∧ t.self.staleCount = 0 := by
  refine (Yields.true _).bind fun id _ => yields_address.bind fun address haddr => ?_
  refine (keeps_sections 160 (draft_sound_new _)).bind fun d ⟨hd, hself⟩ => .pure ?_
  have hs : RoutingTable.Sound { d.table with buckets := d.table.buckets.map sortReplacements } :=
    fun i => by
      rw [bucket_map]
      exact soundAt_sortReplacements (hd i)
  refine ⟨hs, hs.heldOnce_of_buckets fun i => ?_, ?_⟩
  · rw [bucket_map]
    exact heldOnce_sortReplacements (hd i).once
  · rw [hself]
    exact ⟨haddr, rfl⟩

theorem yields_decode {now : Time} {b : Bytes} {t : RoutingTable} (h : decode now b = .ok t) :
    t.Sound ∧ t.HeldOnce ∧ t.self.address.utf8ByteSize ≤ maxAddress ∧ t.self.staleCount = 0 := by
  unfold decode at h
  split at h
  · next t' c' hrun =>
    cases h
    exact yields_read now _ _ _ hrun
  · cases h

end RoutingTable

end SearchOverlay
