import SearchOverlay.Proofs.RoutingTable.Reachable

/-!
# Moving a table to another identity

Under a new identity the held contacts are offered to an empty table, one after the other. What
arrives in a bucket becomes active until the bucket is full, and waits from then on. That is so
as long as none of the active ones is stale: a stale one gives its place to the next arrival and
is gone, although there would be room to wait. `setSelf_relocates_iff` says that nothing else
can be lost.
-/

namespace SearchOverlay

namespace Bucket

variable {now : Time} {c : Contact} {b b' : Bucket} {o : PushOutcome} {cs arrived : List Contact}

/-- The bucket has taken up contacts in this order: the first ones are active, the others
wait. -/
structure Gathered (arrived : List Contact) (b : Bucket) : Prop where
  active : b.active = arrived.take capacity
  waiting : b.replacements.Perm (arrived.drop capacity)

/-- The contacts do not fill the bucket beyond its active list, or none of those that fill it is
stale. -/
def KeepsAll (arrived : List Contact) : Prop :=
  arrived.length ≤ capacity ∨
    ∀ d ∈ arrived.take capacity, d.staleCount.toNat < staleThreshold

theorem gathered_empty (h : UInt8) : (empty h).Gathered [] := ⟨rfl, .refl []⟩

theorem Gathered.held_perm (hb : b.Gathered arrived) : b.held.Perm arrived := by
  rw [held, hb.active]
  exact (hb.waiting.append_left _).trans (.of_eq (List.take_append_drop ..))

theorem KeepsAll.of_append (h : KeepsAll (arrived ++ cs)) : KeepsAll arrived := by
  rcases h with hlen | hfine
  · rw [List.length_append] at hlen
    exact .inl (Nat.le_trans (Nat.le_add_right _ _) hlen)
  · refine .inr fun d hd => hfine d ?_
    rw [List.take_append]
    exact List.mem_append_left _ hd

theorem DeferStep.perm (s : DeferStep now c cs arrived) (hnew : c.identity ∉ ids cs)
    (hroom : cs.length < capacity) : arrived.Perm (cs ++ [c]) :=
  s.eq_of_room hnew hroom ▸ sortBySeen_perm _

/-- The next arrival joins the others, if it makes nobody leave. -/
theorem PushStep.gathered (s : PushStep now c b o b') (hb : b.Gathered arrived)
    (hnew : c.identity ∉ ids arrived) (hroom : arrived.length < 2 * capacity)
    (hkeep : KeepsAll (arrived ++ [c])) : b'.Gathered (arrived ++ [c]) := by
  obtain ⟨hactive, hwaiting⟩ := hb
  have hlength : b.active.length = min capacity arrived.length := by
    rw [hactive, List.length_take]
  have hnotActive : c.identity ∉ ids b.active := by
    rw [hactive]
    exact fun h => hnew (((List.take_sublist _ _).map _).mem h)
  have hnotWaiting : c.identity ∉ ids b.replacements := fun h =>
    hnew (((List.drop_sublist _ _).map _).mem ((hwaiting.map _).mem_iff.mp h))
  have hbehind : capacity ≤ b.active.length →
      (arrived ++ [c]).take capacity = arrived.take capacity ∧
      (arrived ++ [c]).drop capacity = arrived.drop capacity ++ [c] := fun hfull => by
    have hle : capacity ≤ arrived.length := by omega
    exact ⟨List.take_append_of_le_length hle, List.drop_append_of_le_length hle⟩
  cases s with
  | refreshed named first => exact absurd (by simp [← named]) hnotActive
  | @inserted _ as rs new room =>
    have hshort : (arrived ++ [c]).length ≤ capacity := by
      simp only [List.length_append, List.length_singleton] at hlength ⊢
      omega
    have hfits : arrived.length ≤ capacity := by
      rw [List.length_append] at hshort
      omega
    rw [List.drop_of_length_le hfits] at hwaiting
    obtain rfl : rs = [] := hwaiting.eq_nil
    obtain rfl : as = arrived := hactive.trans (List.take_of_length_le hfits)
    exact ⟨(List.take_of_length_le hshort).symm, .of_eq (List.drop_of_length_le hshort).symm⟩
  | @replaced _ l old r rs new full stale before after =>
    exfalso
    rcases hkeep with hshort | hfine
    · simp only [List.length_append, List.length_singleton] at hshort hlength full
      omega
    · rw [(hbehind full).1, ← hactive] at hfine
      exact absurd stale (Nat.not_le_of_lt (hfine old (by simp)))
  | @deferred _ as rs rs' new full fine wait =>
    have hwaits : rs.length < capacity := by
      have hdrop := hwaiting.length_eq
      rw [List.length_drop] at hdrop
      simp only [capacity] at hroom hdrop ⊢
      omega
    obtain ⟨htake, hdrop⟩ := hbehind full
    refine ⟨hactive.trans htake.symm, ?_⟩
    rw [hdrop]
    exact (wait.perm hnotWaiting hwaits).trans (hwaiting.append_right [c])

/-- Into a bucket that is just full and has a stale contact, the next arrival makes one leave. -/
theorem PushStep.loses (s : PushStep now c b o b') (hb : b.Gathered arrived)
    (hfull : arrived.length = capacity) (honce : (ids (arrived ++ [c])).Nodup)
    (hstale : ∃ d ∈ arrived, staleThreshold ≤ d.staleCount.toNat) :
    ∃ old ∈ arrived, old.identity ∉ ids b'.held := by
  obtain ⟨hactive, hwaiting⟩ := hb
  rw [List.take_of_length_le (Nat.le_of_eq hfull)] at hactive
  rw [List.drop_of_length_le (Nat.le_of_eq hfull)] at hwaiting
  subst hactive
  have hnew : c.identity ∉ ids b.active := not_mem_ids_of_nodup honce
  cases s with
  | refreshed named first => exact absurd (by simp [← named]) hnew
  | inserted new room => exact absurd hfull (Nat.ne_of_lt room)
  | @replaced _ l old r rs new full stale before after =>
    obtain rfl : rs = [] := hwaiting.eq_nil
    have hperm : (l ++ old :: r ++ [c]).Perm (old :: (l ++ c :: r)) := by
      refine (List.perm_append_singleton c _).trans ?_
      exact (List.perm_middle.cons c).trans ((List.Perm.swap old c _).trans
        (List.perm_middle.symm.cons old))
    have hgone := (List.nodup_cons.mp ((hperm.map _).nodup_iff.mp honce)).1
    refine ⟨old, by simp, ?_⟩
    rwa [held, List.append_nil]
  | deferred new full fine wait =>
    obtain ⟨d, hd, hstale⟩ := hstale
    exact absurd hstale (Nat.not_le_of_lt (fine d hd))

end Bucket

namespace RoutingTable

variable {clock : Clock} {t : RoutingTable} {n : Contact} {id : Identity} {i : Fin 160}
  {cs arrived : List Contact}

/-! ## Arrivals in a bucket -/

/-- The contact goes into the bucket `i` of a table of `id`. -/
abbrev Arrives (id : Identity) (i : Fin 160) (c : Contact) : Prop :=
  c.identity ≠ id ∧ (c.identity.xor id).height = i

/-- The contacts that go into the bucket `i` of a table of `id`, in order. -/
def arriving (id : Identity) (i : Fin 160) (cs : List Contact) : List Contact :=
  cs.filter fun c => Arrives id i c

theorem mem_arriving {c : Contact} : c ∈ arriving id i cs ↔
    c ∈ cs ∧ Arrives id i c := by
  rw [arriving, List.mem_filter, decide_eq_true_iff]

theorem arriving_cons_of_arrives {c : Contact} (h : Arrives id i c) :
    arriving id i (c :: cs) = c :: arriving id i cs :=
  List.filter_cons_of_pos (decide_eq_true h)

theorem arriving_cons_of_not {c : Contact} (h : ¬ Arrives id i c) :
    arriving id i (c :: cs) = arriving id i cs :=
  List.filter_cons_of_neg (by simpa using h)

theorem bucket_push {now : Time} {c : Contact} (htake : t.Takes c)
    (hi : (c.identity.xor t.identity).height = i) :
    (t.push now c).2.bucket i = ((t.bucket i).push now c).2 := by
  have hindex : t.index c.identity = i := Fin.ext hi
  rw [push_of_takes now htake, bucket_setHome, if_pos hindex, home, hindex]

theorem bucket_push_of_not_arriving {now : Time} {c : Contact}
    (h : ¬ Arrives t.identity i c) :
    (t.push now c).2.bucket i = t.bucket i :=
  bucket_push_of_step (P := (· = t.bucket i)) rfl fun htake hi =>
    absurd ⟨htake.1, congrArg Fin.val hi⟩ h

theorem pushFrom_append (k : Nat) (cs ds : List Contact) :
    t.pushFrom clock k (cs ++ ds) = (t.pushFrom clock k cs).pushFrom clock (k + cs.length) ds := by
  induction cs generalizing k t with
  | nil => rfl
  | cons c cs ih =>
    rw [List.cons_append, pushFrom, pushFrom, ih, List.length_cons, Nat.add_assoc k,
      Nat.add_comm 1]

/-- A bucket gathers what arrives in it, as long as nobody has to leave. -/
theorem gathered_pushFrom (k : Nat) (hb : (t.bucket i).Gathered arrived)
    (hshort : ∀ c ∈ cs, c.address.utf8ByteSize ≤ maxAddress)
    (honce : (ids (arrived ++ arriving t.identity i cs)).Nodup)
    (hroom : (arrived ++ arriving t.identity i cs).length ≤ 2 * Bucket.capacity)
    (hkeep : Bucket.KeepsAll (arrived ++ arriving t.identity i cs)) :
    ((t.pushFrom clock k cs).bucket i).Gathered (arrived ++ arriving t.identity i cs) := by
  induction cs generalizing k t arrived with
  | nil =>
    rw [arriving, List.filter_nil, List.append_nil]
    exact hb
  | cons c cs ih =>
    obtain ⟨hc, hshort⟩ := List.forall_mem_cons.mp hshort
    have hidentity := identity_push (clock.reading k) c t
    by_cases harrives : Arrives t.identity i c
    · rw [arriving_cons_of_arrives harrives, List.append_cons, ← hidentity] at honce hroom hkeep ⊢
      refine ih (k + 1) ?_ hshort honce hroom hkeep
      rw [bucket_push ⟨harrives.1, hc⟩ harrives.2]
      refine (Bucket.push_step _ c _).gathered hb ?_ ?_ hkeep.of_append
      · exact Bucket.not_mem_ids_of_nodup (honce.sublist ((List.sublist_append_left _ _).map _))
      · simp only [List.length_append, List.length_singleton] at hroom
        omega
    · rw [arriving_cons_of_not harrives, ← hidentity] at honce hroom hkeep ⊢
      refine ih (k + 1) ?_ hshort honce hroom hkeep
      rw [bucket_push_of_not_arriving harrives]
      exact hb

/-! ## Rebinding -/

theorem setSelf_of_ne (h : n.identity ≠ t.identity) :
    t.setSelf clock n = (new n).pushFrom clock 0 t.held := if_neg h

theorem Sound.short (ht : t.Sound) : ∀ c ∈ t.held, c.address.utf8ByteSize ≤ maxAddress := by
  intro c hc
  obtain ⟨i, hc⟩ := RoutingTable.mem_held_iff.mp hc
  exact ((ht i).home c hc).short

theorem HeldOnce.nodup_arriving (h : t.HeldOnce) : (ids (arriving id i t.held)).Nodup :=
  List.Nodup.sublist (List.filter_sublist.map _) h

theorem gathered_new (clock : Clock) (hshort : ∀ c ∈ cs, c.address.utf8ByteSize ≤ maxAddress)
    (honce : (ids (arriving n.identity i cs)).Nodup)
    (hroom : (arriving n.identity i cs).length ≤ 2 * Bucket.capacity)
    (hkeep : Bucket.KeepsAll (arriving n.identity i cs)) :
    (((new n).pushFrom clock 0 cs).bucket i).Gathered (arriving n.identity i cs) := by
  have hempty : ((new n).bucket i).Gathered [] := by
    rw [bucket_new]
    exact Bucket.gathered_empty _
  exact gathered_pushFrom 0 hempty hshort honce hroom hkeep

theorem length_arriving_le (id : Identity) (i : Fin 160) (cs : List Contact) :
    (arriving id i cs).length ≤
      (cs.filter fun c : Contact => (c.identity.xor id).height = i).length := by
  rw [arriving, ← List.countP_eq_length_filter, ← List.countP_eq_length_filter]
  exact List.countP_mono_left fun c _ h => decide_eq_true (of_decide_eq_true h).2

theorem exists_split_arriving {k : Nat} (h : k < (arriving id i cs).length) :
    ∃ p c r, cs = p ++ c :: r ∧ Arrives id i c ∧ arriving id i p = (arriving id i cs).take k := by
  obtain ⟨c, rest, hdrop⟩ := List.exists_cons_of_ne_nil fun hnil =>
    Nat.not_le_of_lt h (List.drop_eq_nil_iff.mp hnil)
  have hsplit : arriving id i cs = (arriving id i cs).take k ++ c :: rest := by
    rw [← hdrop, List.take_append_drop]
  generalize (arriving id i cs).take k = first at hsplit ⊢
  obtain ⟨p, r, rfl, hp, hr⟩ := List.filter_eq_append_iff.mp hsplit
  obtain ⟨between, r, rfl, hnone, hc, -⟩ := List.filter_eq_cons_iff.mp hr
  refine ⟨p ++ between, c, r, (List.append_assoc ..).symm, of_decide_eq_true hc, ?_⟩
  rw [arriving, List.filter_append, hp, List.filter_eq_nil_iff.mpr hnone, List.append_nil]

theorem Sound.push_loses {now : Time} {c : Contact} (ht : t.Sound)
    (hb : (t.bucket i).Gathered arrived) (hhome : ∀ d ∈ arrived, Arrives t.identity i d)
    (hfull : arrived.length = Bucket.capacity) (honce : (ids (arrived ++ [c])).Nodup)
    (hstale : ∃ d ∈ arrived, Bucket.staleThreshold ≤ d.staleCount.toNat)
    (hc : Arrives t.identity i c) (hshort : c.address.utf8ByteSize ≤ maxAddress) :
    ∃ old ∈ arrived, (t.push now c).2.copies old.identity = 0 := by
  obtain ⟨old, hold, hgone⟩ := (Bucket.push_step now c _).loses hb hfull honce hstale
  have hindex : (t.push now c).2.index old.identity = i := by
    apply Fin.ext
    show (old.identity.xor (t.push now c).2.identity).height = i
    rw [identity_push]
    exact (hhome old hold).2
  refine ⟨old, hold, ?_⟩
  rw [(ht.push now c).copies_eq, List.count_eq_zero, home, hindex,
    bucket_push ⟨hc.1, hshort⟩ hc.2]
  exact hgone

theorem Sound.setSelf_loses (ht : t.Sound) (honce : t.HeldOnce) (hn : n.identity ≠ t.identity)
    (hloses : ¬ Bucket.KeepsAll (arriving n.identity i t.held)) :
    ∃ c ∈ t.held, c.identity ≠ n.identity ∧ (t.setSelf clock n).copies c.identity = 0 := by
  simp only [Bucket.KeepsAll, not_or, Nat.not_le, Classical.not_forall, Nat.not_lt] at hloses
  obtain ⟨hcrowd, d, hd, hstale⟩ := hloses
  obtain ⟨p, c, r, hsplit, hc, hp⟩ := exists_split_arriving hcrowd
  rw [← hp] at hd
  have hfull : (arriving n.identity i p).length = Bucket.capacity := by
    rw [hp, List.length_take]
    omega
  have hshort := ht.short
  rw [HeldOnce] at honce
  rw [hsplit] at hshort honce
  have hnodup : (ids (arriving n.identity i p ++ [c])).Nodup := by
    refine honce.sublist (List.Sublist.map _ (List.Sublist.append List.filter_sublist ?_))
    exact List.singleton_sublist.mpr List.mem_cons_self
  have hgathered : (((new n).pushFrom clock 0 p).bucket i).Gathered (arriving n.identity i p) :=
    gathered_new clock (fun e he => hshort e (List.mem_append_left _ he))
      (hnodup.sublist ((List.sublist_append_left _ _).map _)) (by rw [hfull]; decide)
      (.inl (Nat.le_of_eq hfull))
  have hsound := (sound_new n).pushFrom clock 0 p
  have hidentity : ((new n).pushFrom clock 0 p).identity = n.identity := identity_pushFrom ..
  obtain ⟨old, hold, hgone⟩ := hsound.push_loses hgathered
    (fun e he => hidentity ▸ (mem_arriving.mp he).2) hfull hnodup ⟨d, hd, hstale⟩ (hidentity ▸ hc)
    (hshort c (by simp))
  obtain ⟨hmem, hne, -⟩ := mem_arriving.mp hold
  refine ⟨old, by simp [hsplit, hmem], hne, ?_⟩
  rw [setSelf_of_ne hn, hsplit, pushFrom_append]
  refine (hsound.push _ c).copies_pushFrom_of_absent clock _ hgone fun hlater => ?_
  rw [ids, List.map_append, List.nodup_append] at honce
  exact honce.2.2 _ (List.mem_map_of_mem hmem) _ (List.mem_cons_of_mem _ hlater) rfl

/-- Rebinding a table keeps every contact, in the bucket that it then belongs to, if and only if
no stale contact is among those that fill a bucket for which there are more. -/
theorem setSelf_relocates_iff (clock : Clock) (ht : t.Reachable) (honce : t.HeldOnce)
    (hn : n.identity ≠ t.identity)
    (hroom : ∀ i : Fin 160,
      (t.held.filter fun c : Contact => (c.identity.xor n.identity).height = i).length ≤ 40) :
    (∀ c ∈ t.held, c.identity ≠ n.identity → (t.setSelf clock n).copies c.identity = 1 ∧
      c ∈ ((t.setSelf clock n).bucket
        ⟨(c.identity.xor n.identity).height, Identity.height_lt _⟩).held) ↔
    ∀ i : Fin 160, (arriving n.identity i t.held).length ≤ 20 ∨
      ∀ c ∈ (arriving n.identity i t.held).take 20, c.staleCount.toNat < 5 := by
  have hsound := ht.sound
  constructor
  · intro hall i
    refine Classical.byContradiction fun hloses => ?_
    obtain ⟨c, hc, hne, hgone⟩ := hsound.setSelf_loses honce hn hloses
    have hone := (hall c hc hne).1
    rw [hgone] at hone
    cases hone
  · intro hkeep c hc hne
    generalize hi : (⟨(c.identity.xor n.identity).height, Identity.height_lt _⟩ : Fin 160) = i
    have hfits : (arriving n.identity i t.held).length ≤ 40 :=
      Nat.le_trans (length_arriving_le ..) (hroom i)
    have hgathered := gathered_new clock hsound.short honce.nodup_arriving hfits (hkeep i)
    rw [← setSelf_of_ne hn] at hgathered
    have hheld : c ∈ ((t.setSelf clock n).bucket i).held := by
      refine hgathered.held_perm.mem_iff.mpr (mem_arriving.mpr ⟨hc, hne, ?_⟩)
      exact congrArg Fin.val hi
    refine ⟨Nat.le_antisymm ?_ ?_, hheld⟩
    · exact heldOnce_iff_copies.mp (heldOnce_setSelf honce clock n) c.identity
    · exact List.count_pos_iff.mpr (List.mem_map_of_mem (RoutingTable.mem_held_iff.mpr ⟨i, hheld⟩))

/-- Contacts of the bucket 158 of a table of the identity 0. -/
def filling (count : Nat) : List Operation :=
  (List.range count).map fun k =>
    .push 1000 ⟨⟨0x40000000, 0, 0, 0, UInt32.ofNat k⟩, "p", 100, 0⟩

/-- The other end of the identities: seen from there, that bucket is the bucket 159. -/
def antipode : Contact := ⟨⟨0x80000000, 0, 0, 0, 0⟩, "n", 2000, 0⟩

theorem roomy_of_length_le (id : Identity) (h : cs.length ≤ 40) (i : Fin 160) :
    (cs.filter fun c : Contact => (c.identity.xor id).height = i).length ≤ 40 :=
  Nat.le_trans (List.length_filter_le ..) h

/-- Twenty-two contacts move from one bucket to another, and a stale one to a bucket of its
own. -/
theorem setSelf_relocates_two_buckets :
    let q : Contact := ⟨⟨0x80000000, 0, 0, 0, 1⟩, "q", 100, 9⟩
    let t := (new ⟨.zero, "s", 1, 0⟩).run (filling 22 ++ [.push 1000 q])
    t.HeldOnce ∧ t.held.length = 23 ∧
      (∀ c ∈ t.held, (t.setSelf (.still 2000) antipode).copies c.identity = 1) ∧
      q ∈ ((t.setSelf (.still 2000) antipode).bucket 0).held := by
  intro q t
  obtain ⟨honce, hlength, hne, hother, hq⟩ : t.HeldOnce ∧ t.held.length = 23 ∧
      antipode.identity ≠ t.identity ∧ (∀ c ∈ t.held, c.identity ≠ antipode.identity) ∧
      q ∈ t.held := by decide +kernel
  have hroom := roomy_of_length_le antipode.identity (hlength ▸ by decide : t.held.length ≤ 40)
  have hkeep : ∀ i : Fin 160, (arriving antipode.identity i t.held).length ≤ 20 ∨
      ∀ c ∈ (arriving antipode.identity i t.held).take 20, c.staleCount.toNat < 5 := by
    decide +kernel
  have hall := (setSelf_relocates_iff (.still 2000) ⟨_, _, .new _, rfl⟩ honce hne hroom).mpr hkeep
  have hheight : (q.identity.xor antipode.identity).height = 0 := by decide
  have hbucket := (hall q hq (hother q hq)).2
  simp only [hheight] at hbucket
  exact ⟨honce, hlength, fun c hc => (hall c hc (hother c hc)).1, hbucket⟩

/-- A contact of another bucket joins twenty of which one did not answer five times. -/
def joining : List Operation :=
  filling 20 ++ [.push 1000 ⟨⟨0, 0, 0, 0, 1⟩, "q", 100, 0⟩] ++
    List.replicate 5 (.remove ⟨0x40000000, 0, 0, 0, 0⟩)

/-- Twenty-one contacts meet in one bucket, and the stale one is gone. -/
theorem rebinding_loses_stale :
    let t := (new ⟨.zero, "s", 1, 0⟩).run joining
    t.Reachable ∧ t.HeldOnce ∧ antipode.identity ≠ t.identity ∧
      (∀ i : Fin 160, (t.held.filter
        fun c : Contact => (c.identity.xor antipode.identity).height = i).length ≤ 40) ∧
      ⟨⟨0x40000000, 0, 0, 0, 0⟩, "p", 100, 5⟩ ∈ t.held ∧
      ⟨0x40000000, 0, 0, 0, 0⟩ ∉ ids (t.setSelf (.still 2000) antipode).held := by
  intro t
  obtain ⟨honce, hlength, hne, hlost⟩ : t.HeldOnce ∧ t.held.length = 21 ∧
      antipode.identity ≠ t.identity ∧
      ⟨⟨0x40000000, 0, 0, 0, 0⟩, "p", 100, 5⟩ ∈ t.held ∧
      ⟨0x40000000, 0, 0, 0, 0⟩ ∉ ids (t.setSelf (.still 2000) antipode).held := by decide +kernel
  have hroom := roomy_of_length_le antipode.identity (hlength ▸ by decide : t.held.length ≤ 40)
  exact ⟨⟨_, _, .new _, rfl⟩, honce, hne, hroom, hlost⟩

end RoutingTable

end SearchOverlay
