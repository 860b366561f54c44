import SearchOverlay.Proofs.Bucket.Overflow
import SearchOverlay.Proofs.Identity
import SearchOverlay.Proofs.RoutingTable.Rebinding
import SearchOverlay.Proofs.RoutingTable.Waiting

/-!
# How far a move reaches

A table that moves to another identity offers all its contacts to empty buckets. How high the new
identity is above the old one says which of them change places: seen from both, a contact above that
height is equally high. So the buckets above it are filled with the same contacts in the same order,
and come out as they were. A contact below that height is at that height now, and one at that height
is below it.
-/

namespace SearchOverlay

namespace Bucket

variable {now : Time} {c : Contact} {b b' : Bucket} {o : PushOutcome} {ps : List (Time × Contact)}

/-! ## Filling a bucket again -/

theorem PushStep.joined (s : PushStep now c b o b') (hnone : b.replacements = [])
    (hnew : c.identity ∉ ids b.active) (hroom : b.active.length < capacity) :
    b' = { b with active := b.active ++ [c] } := by
  cases s with
  | refreshed named first => exact absurd (by simp [← named]) hnew
  | @inserted _ as rs new room =>
    obtain rfl : rs = [] := hnone
    rfl
  | replaced new full stale before after => exact absurd hroom (Nat.not_lt_of_le full)
  | deferred new full fine wait => exact absurd hroom (Nat.not_lt_of_le full)

theorem pushEach_of_room (hnone : b.replacements = [])
    (honce : (ids (b.active ++ ps.map (·.2))).Nodup)
    (hroom : (b.active ++ ps.map (·.2)).length ≤ capacity) :
    b.pushEach ps = { b with active := b.active ++ ps.map (·.2) } := by
  induction ps generalizing b with
  | nil => simp
  | cons p ps ih =>
    rw [List.map_cons, List.append_cons] at honce hroom ⊢
    have hnew : p.2.identity ∉ ids b.active :=
      not_mem_ids_of_nodup (honce.sublist ((List.sublist_append_left _ _).map _))
    have hfree : b.active.length < capacity := by
      simp only [List.length_append, List.length_singleton] at hroom
      omega
    have hstep := (push_step p.1 p.2 b).joined hnone hnew hfree
    rw [pushEach_cons, hstep]
    exact ih hnone honce hroom

/-- Newcomers for whom there is room among those that wait stay in the order of the offers, if it is
that of the replacements. -/
theorem Crowded.pushEach_of_room (hb : b.Crowded) (honce : (ids (b.held ++ ps.map (·.2))).Nodup)
    (hroom : (b.replacements ++ ps.map (·.2)).length ≤ capacity)
    (hsorted : SortedBySeen (b.replacements ++ ps.map (·.2))) :
    b.pushEach ps = { b with replacements := b.replacements ++ ps.map (·.2) } := by
  induction ps generalizing b with
  | nil => simp
  | cons p ps ih =>
    rw [List.map_cons, List.append_cons] at honce hroom hsorted ⊢
    have hnew : p.2.identity ∉ ids b.held :=
      not_mem_ids_of_nodup (honce.sublist ((List.sublist_append_left _ _).map _))
    rw [held, ids, List.map_append, List.mem_append, not_or] at hnew
    have hfree : b.replacements.length < capacity := by
      simp only [List.length_append, List.length_singleton] at hroom
      omega
    have hstep := ((push_step p.1 p.2 b).queued hb hnew.1 hnew.2 hfree).2
    rw [sortBySeen_of_sorted (hsorted.sublist (List.sublist_append_left _ _))] at hstep
    rw [pushEach_cons, hstep]
    refine ih (hb.congr rfl) ?_ hroom hsorted
    rwa [held, ← List.append_assoc]

/-- What a bucket holds, offered in order to an empty one, makes the same bucket again. -/
theorem pushEach_held (hb : b.Sound) (honce : b.HeldOnce) (hbacked : b.Backed)
    (hfine : b.replacements ≠ [] → ∀ d ∈ b.active, d.staleCount.toNat < staleThreshold)
    (hps : ps.map (·.2) = b.held) : (empty b.height).pushEach ps = b := by
  obtain ⟨qs, rs, rfl, hqs, hrs⟩ := List.map_eq_append_iff.mp hps
  have hactive : (empty b.height).pushEach qs = { b with replacements := [] } := by
    refine (pushEach_of_room rfl ?_ ?_).trans ?_
    · rw [hqs]
      exact honce.sublist ((List.sublist_append_left _ _).map _)
    · rw [hqs]
      exact hb.active_le
    · rw [hqs]
      rfl
  rw [pushEach_append, hactive]
  by_cases hnone : b.replacements = []
  · rw [hnone, List.map_eq_nil_iff] at hrs
    rw [hrs, ← hnone]
    rfl
  · have hcrowded : ({ b with replacements := [] } : Bucket).Crowded :=
      ⟨hbacked hnone, hfine hnone⟩
    refine (hcrowded.pushEach_of_room ?_ ?_ ?_).trans ?_
    all_goals rw [hrs]
    · rwa [held, List.append_nil]
    · exact hb.replacements_le
    · exact hb.sorted
    · rfl

end Bucket

namespace RoutingTable

variable {clock : Clock} {t : RoutingTable} {n c : Contact} {id : Identity} {i j : Fin 160}
  {cs : List Contact}

theorem exists_bucket_pushFrom (clock : Clock) (k : Nat) (t : RoutingTable) (i : Fin 160)
    (hshort : ∀ c ∈ cs, c.address.utf8ByteSize ≤ maxAddress) :
    ∃ ps : List (Time × Contact), ps.map (·.2) = arriving t.identity i cs ∧
      (t.pushFrom clock k cs).bucket i = (t.bucket i).pushEach ps := by
  induction cs generalizing k t with
  | nil => exact ⟨[], rfl, rfl⟩
  | cons c cs ih =>
    obtain ⟨hc, hshort⟩ := List.forall_mem_cons.mp hshort
    obtain ⟨ps, hps, hbucket⟩ := ih (k + 1) (t.push (clock.reading k) c).2 hshort
    rw [identity_push] at hps
    by_cases harrives : Arrives t.identity i c
    · refine ⟨(clock.reading k, c) :: ps, ?_, ?_⟩
      · rw [arriving_cons_of_arrives harrives, ← hps, List.map_cons]
      · rw [pushFrom, hbucket, bucket_push ⟨harrives.1, hc⟩ harrives.2, Bucket.pushEach_cons]
    · refine ⟨ps, ?_, ?_⟩
      · rw [arriving_cons_of_not harrives, hps]
      · rw [pushFrom, hbucket, bucket_push_of_not_arriving harrives]

theorem arriving_append (id : Identity) (i : Fin 160) (cs ds : List Contact) :
    arriving id i (cs ++ ds) = arriving id i cs ++ arriving id i ds := List.filter_append ..

/-- If nobody but the contacts of a bucket go into the bucket of that height, they go there in the
order in which the bucket holds them. -/
theorem arriving_held (h : ∀ j, ∀ c ∈ (t.bucket j).held, Arrives id i c ↔ j = i) :
    arriving id i t.held = (t.bucket i).held := by
  obtain ⟨l, r, hsplit⟩ := List.append_of_mem (List.mem_finRange i)
  have honce := List.nodup_finRange 160
  rw [hsplit, List.nodup_middle, List.nodup_cons, List.mem_append, not_or] at honce
  have hothers : ∀ js : List (Fin 160), i ∉ js →
      arriving id i (js.flatMap fun j => (t.bucket j).held) = [] := fun js hjs => by
    refine List.filter_eq_nil_iff.mpr fun c hc harrives => hjs ?_
    obtain ⟨j, hj, hc⟩ := List.mem_flatMap.mp hc
    rwa [← (h j c hc).mp (of_decide_eq_true harrives)]
  have hown : arriving id i (t.bucket i).held = (t.bucket i).held :=
    List.filter_eq_self.mpr fun c hc => decide_eq_true ((h i c hc).mpr rfl)
  rw [held, toList_buckets, List.flatMap_map, hsplit, List.flatMap_append, List.flatMap_cons,
    arriving_append, arriving_append, hothers l honce.1.1, hothers r honce.1.2, hown,
    List.nil_append, List.append_nil]

/-! ## Heights seen from the new identity -/

/-- Above the height of the move contacts stay where they are. -/
theorem Sound.height_above (ht : t.Sound) (hj : t.index id < j) (hc : c ∈ (t.bucket j).held) :
    (c.identity.xor id).height = j := by
  have hheight := ((ht j).home c hc).height
  have hlt : (id.xor t.identity).height < (c.identity.xor t.identity).height := by
    rw [hheight]
    exact hj
  rw [Identity.xor_comm, ← Identity.xor_xor_xor id c.identity t.identity,
    Identity.height_xor_of_lt hlt, hheight]

theorem Sound.height_below (ht : t.Sound) (hj : j < t.index id) (hc : c ∈ (t.bucket j).held) :
    (c.identity.xor id).height = t.index id := by
  have hlt : (c.identity.xor t.identity).height < (id.xor t.identity).height := by
    rw [((ht j).home c hc).height]
    exact hj
  rw [← Identity.xor_xor_xor c.identity id t.identity, Identity.height_xor_of_lt hlt]
  rfl

theorem Sound.height_within (ht : t.Sound) (hid : id ≠ t.identity)
    (hc : c ∈ (t.bucket (t.index id)).held) (hne : c.identity ≠ id) :
    (c.identity.xor id).height < t.index id := by
  have hat := (ht (t.index id)).home c hc
  rw [← Identity.xor_xor_xor c.identity id t.identity]
  exact Identity.height_xor_lt (mt Identity.xor_eq_zero_iff.mp hat.ne_self)
    (mt Identity.xor_eq_zero_iff.mp hid) hat.height fun e => hne (Identity.xor_right_cancel e)

theorem Sound.arrives_above (ht : t.Sound) (hid : id ≠ t.identity) (hi : t.index id < i)
    (hc : c ∈ (t.bucket j).held) : Arrives id i c ↔ j = i := by
  constructor
  · rintro ⟨hne, hheight⟩
    rcases Nat.lt_trichotomy j (t.index id) with hlt | heq | hgt
    · rw [ht.height_below hlt hc] at hheight
      exact absurd (Fin.ext hheight) (Fin.ne_of_lt hi)
    · obtain rfl : j = t.index id := Fin.ext heq
      have hlt := ht.height_within hid hc hne
      rw [hheight] at hlt
      exact absurd hi (Fin.lt_asymm hlt)
    · rw [ht.height_above hgt hc] at hheight
      exact Fin.ext hheight
  · rintro rfl
    have hheight := ht.height_above hi hc
    refine ⟨?_, hheight⟩
    rintro rfl
    rw [Identity.xor_self] at hheight
    have hlow : (0 : Nat) = j := hheight
    exact absurd hi (Fin.not_lt.mpr (Fin.le_def.mpr (hlow ▸ Nat.zero_le _)))

/-! ## Moves -/

theorem identity_setSelf (clock : Clock) (n : Contact) (t : RoutingTable) :
    (t.setSelf clock n).identity = n.identity := by
  unfold setSelf
  split
  · next h => exact h.symm
  · exact identity_pushFrom ..

/-- Whoever is held after a move is where his distance from the new identity belongs. -/
theorem Sound.height_of_held_setSelf (ht : t.Sound)
    (h : id ∈ ids ((t.setSelf clock n).bucket j).held) : (id.xor n.identity).height = j := by
  obtain ⟨c, hc, rfl⟩ := List.mem_map.mp h
  rw [← identity_setSelf clock n t]
  exact ((ht.setSelf clock n j).home c hc).height

/-- A bucket above the height of the move comes out as it was, if nobody waits behind a stale
contact. -/
theorem Sound.bucket_setSelf_above (ht : t.Sound) (honce : t.HeldOnce)
    (hn : n.identity ≠ t.identity) (hi : t.index n.identity < i) (hbacked : (t.bucket i).Backed)
    (hfine : (t.bucket i).replacements ≠ [] →
      ∀ d ∈ (t.bucket i).active, d.staleCount.toNat < Bucket.staleThreshold) :
    (t.setSelf clock n).bucket i = t.bucket i := by
  obtain ⟨ps, hps, hbucket⟩ := exists_bucket_pushFrom clock 0 (new n) i ht.short
  have harriving : arriving n.identity i t.held = (t.bucket i).held :=
    arriving_held fun j c hc => ht.arrives_above hn hi hc
  have hbucketOnce : (t.bucket i).HeldOnce := by
    rw [Bucket.HeldOnce, ← harriving]
    exact honce.nodup_arriving
  rw [setSelf_of_ne hn, hbucket, bucket_new, ← (ht i).height_eq]
  exact Bucket.pushEach_held (ht i).lists hbucketOnce hbacked hfine (hps.trans harriving)

/-- A table that operations make of a new one, that holds no identity twice and has no stale contact
where others wait, moves to another identity. The buckets above the height of the distance stay as
they are, in the same order. Whoever was below that height and is still held is at that height. Who
was at that height and is still held is below it, and the new identity itself is gone. Under the
same identity nobody moves. -/
theorem setSelf_reaches (clock : Clock) (self n : Contact) (os : List Operation) :
    let t := (new self).run os
    let t' := t.setSelf clock n
    let h := t.index n.identity
    t.HeldOnce →
    (∀ i, (t.bucket i).replacements ≠ [] →
      ∀ c ∈ (t.bucket i).active, c.staleCount.toNat < 5) →
    (n.identity = t.identity → ∀ i, t'.bucket i = t.bucket i) ∧
    (n.identity ≠ t.identity →
      (∀ i, h < i → t'.bucket i = t.bucket i) ∧
      (∀ i, i < h → ∀ c ∈ (t.bucket i).held, ∀ j, c.identity ∈ ids (t'.bucket j).held → j = h) ∧
      ∀ c ∈ (t.bucket h).held,
        (∀ j, c.identity ∈ ids (t'.bucket j).held → j < h) ∧
        (c.identity.xor n.identity = .zero →
          c.identity = n.identity ∧ c.identity ∉ ids t'.held)) := by
  intro t t' h honce hfine
  have ht : t.Sound := (sound_new self).run os
  have hbacked : ∀ i, (t.bucket i).Backed :=
    Bucket.invariant_backed.run (Bucket.invariant_backed.new self) os
  have ht' : t'.Sound := ht.setSelf clock n
  have hself : n.identity ∉ ids t'.held := by
    rw [← identity_setSelf clock n t]
    exact ht'.self_not_held
  refine ⟨fun hn i => ?_, fun hn => ⟨fun i hi => ?_, fun i hi c hc j hj => ?_, fun c hc => ?_⟩⟩
  · show (t.setSelf clock n).bucket i = t.bucket i
    rw [setSelf, if_pos hn]
    rfl
  · exact ht.bucket_setSelf_above honce hn hi (hbacked i) (hfine i)
  · have hheight := ht.height_of_held_setSelf hj
    rw [ht.height_below hi hc] at hheight
    exact (Fin.ext hheight).symm
  · refine ⟨fun j hj => ?_, fun hzero => ?_⟩
    · have hne : c.identity ≠ n.identity := by
        intro heq
        rw [heq] at hj
        obtain ⟨d, hd, hid⟩ := List.mem_map.mp hj
        exact hself (List.mem_map.mpr ⟨d, RoutingTable.mem_held_iff.mpr ⟨j, hd⟩, hid⟩)
      have hlt := ht.height_within hn hc hne
      rwa [ht.height_of_held_setSelf hj] at hlt
    · have heq := Identity.xor_eq_zero_iff.mp hzero
      exact ⟨heq, heq ▸ hself⟩

/-- A move by the height 5, under a full bucket where two wait. -/
theorem setSelf_reaches_five :
    let near : Contact := ⟨⟨0, 0, 0, 0, 0x02⟩, "a", 100, 0⟩
    let level : Contact := ⟨⟨0, 0, 0, 0, 0x21⟩, "b", 100, 7⟩
    let own : Contact := ⟨⟨0, 0, 0, 0, 0x30⟩, "n", 2000, 0⟩
    let t := (new ⟨.zero, "s", 1, 0⟩).run (filling 22 ++ [.push 1000 near, .push 1000 level])
    let t' := t.setSelf (.still 2000) own
    t.HeldOnce ∧ (t.bucket 158).replacements.length = 2 ∧ t'.bucket 158 = t.bucket 158 ∧
      near ∈ (t.bucket 1).held ∧ (∀ j, near.identity ∈ ids (t'.bucket j).held → j = 5) ∧
      level ∈ (t.bucket 5).held ∧ ∀ j, level.identity ∈ ids (t'.bucket j).held → j < 5 := by
  intro near level own t t'
  obtain ⟨honce, hfine, hne, hheight⟩ : t.HeldOnce ∧
      (∀ i, (t.bucket i).replacements ≠ [] →
        ∀ c ∈ (t.bucket i).active, c.staleCount.toNat < 5) ∧
      own.identity ≠ t.identity ∧ t.index own.identity = 5 := by decide +kernel
  obtain ⟨hwait, hnear, hlevel⟩ : (t.bucket 158).replacements.length = 2 ∧
      near ∈ (t.bucket 1).held ∧ level ∈ (t.bucket 5).held := by
    decide +kernel
  obtain ⟨-, hmoved⟩ := setSelf_reaches (.still 2000) ⟨.zero, "s", 1, 0⟩ own _ honce hfine
  obtain ⟨habove, hbelow, hwithin⟩ := hmoved hne
  rw [hheight] at habove hbelow hwithin
  exact ⟨honce, hwait, habove 158 (by decide), hnear, hbelow 1 (by decide) near hnear, hlevel,
    (hwithin level hlevel).1⟩

/-- The own identity has no distance from itself, and its height is that of the lowest bucket. The
contact of that bucket stays there. -/
theorem same_identity_moves_nobody :
    let c : Contact := ⟨⟨0, 0, 0, 0, 1⟩, "c", 3, 0⟩
    let own : Contact := ⟨.zero, "n", 7, 0⟩
    let t := (new ⟨.zero, "s", 1, 0⟩).run [.push 5 c]
    let t' := t.setSelf (.still 7) own
    t.HeldOnce ∧ (∀ i, (t.bucket i).replacements = []) ∧ t.index own.identity = 0 ∧
      c ∈ (t.bucket 0).held ∧ c.identity.xor own.identity ≠ .zero ∧
      c.identity ∈ ids (t'.bucket 0).held ∧ ¬ (0 : Fin 160) < t.index own.identity := by
  decide +kernel

end RoutingTable

end SearchOverlay
