import Mathlib.Data.List.Flatten
import Mathlib.Data.List.Nodup
import SearchOverlay.Proofs.Identity
import SearchOverlay.Proofs.RoutingTable.Reachable

/-!
# The closest contacts

A table answers with those of its candidates that are closest to a target, as many as it was
asked for. No two contacts with different identities are equally far from a target, so the answer
of a table that holds no identity twice does not depend on where in the table the contacts stand.

A contact of a lower bucket is closer to the table itself than one of a higher bucket, since the
bucket is the height of the distance. So the table's neighbours can be had by a walk through the
buckets, from the lowest one up, that sorts one bucket at a time.
-/

namespace SearchOverlay.RoutingTable

def distance (target : Identity) (c : Contact) : Nat := (c.identity.xor target).toNat

variable {t t' : RoutingTable} {target : Identity} {c d : Contact}

theorem noFarther_iff : noFarther target c d ↔ distance target c ≤ distance target d := by
  rw [noFarther, Identity.compare_eq_compare_toNat, Nat.isLE_compare]
  rfl

theorem identity_eq_of_distance_eq (h : distance target c = distance target d) :
    c.identity = d.identity :=
  Identity.xor_right_cancel (Identity.eq_of_toNat_eq h)

/-- All candidates, the closest first. -/
def ranking (t : RoutingTable) (target : Identity) : List Contact :=
  sortBy (noFarther target) (t.candidates target)

theorem closest_eq (t : RoutingTable) (target : Identity) (n : Nat) :
    t.closest target n = (t.ranking target).take n := rfl

theorem ranking_perm (t : RoutingTable) (target : Identity) :
    (t.ranking target).Perm (t.candidates target) := sortBy_perm _ _

theorem ranking_sorted (t : RoutingTable) (target : Identity) :
    (t.ranking target).Pairwise fun c d => distance target c ≤ distance target d := by
  have htrans : ∀ a b c, noFarther target a b → noFarther target b c → noFarther target a c := by
    simp only [noFarther_iff]
    exact fun _ _ _ => Nat.le_trans
  have htotal : ∀ a b, noFarther target a b || noFarther target b a := by
    simp only [Bool.or_eq_true, noFarther_iff]
    exact fun _ _ => Nat.le_total _ _
  rw [ranking, sortBy_eq_mergeSort htrans htotal]
  exact (List.pairwise_mergeSort htrans htotal _).imp noFarther_iff.mp

/-! ## Candidates -/

theorem candidates_eq (t : RoutingTable) (target : Identity) :
    t.candidates target = t.active ++ if target = t.identity then [] else [t.self] := by
  unfold candidates
  split
  · exact (List.append_nil _).symm
  · rfl

theorem active_sublist_held (t : RoutingTable) : t.active.Sublist t.held :=
  List.Sublist.flatMap_right _ fun b _ => List.sublist_append_left b.active b.replacements

theorem Sound.nodup_candidates (ht : t.Sound) (honce : t.HeldOnce) (target : Identity) :
    (ids (t.candidates target)).Nodup := by
  have hsub : (ids t.active).Sublist (ids t.held) := (active_sublist_held t).map _
  have hself : t.identity ∉ ids t.active := fun h => ht.self_not_held (hsub.subset h)
  unfold candidates
  split
  · exact honce.sublist hsub
  · rw [ids, List.map_append, List.nodup_append]
    refine ⟨honce.sublist hsub, List.nodup_singleton _, ?_⟩
    rintro id hid own hown rfl
    obtain rfl : id = t.identity := List.mem_singleton.mp hown
    exact hself hid

/-- Two tables that choose from the same contacts rank them in the same way. -/
theorem ranking_eq_of_perm (h : (t'.candidates target).Perm (t.candidates target))
    (honce : (ids (t.candidates target)).Nodup) : t'.ranking target = t.ranking target := by
  have hperm : (t'.ranking target).Perm (t.ranking target) :=
    (ranking_perm t' target).trans (h.trans (ranking_perm t target).symm)
  refine hperm.eq_of_pairwise (fun c d hc hd hcd hdc => ?_) (ranking_sorted t' target)
    (ranking_sorted t target)
  have hc : c ∈ t.candidates target := (ranking_perm t target).subset (hperm.subset hc)
  have hd : d ∈ t.candidates target := (ranking_perm t target).subset hd
  exact List.inj_on_of_nodup_map honce hc hd (identity_eq_of_distance_eq (Nat.le_antisymm hcd hdc))

/-- The contacts closest to a target are as many as were asked for, or all candidates if there are
fewer: the active contacts and, unless it is the target, the table's own contact. The closest come
first, and none that is left out is closer than one of them. A table with the same own contact and
the same active contacts gives the same answer, if neither holds an identity twice. -/
theorem closest_of_reachable (ht : t.Reachable) (target : Identity) (n : Nat) :
    let cs := t.closest target n
    let among := t.active ++ if target = t.identity then [] else [t.self]
    cs.length = min n among.length ∧
    cs.Pairwise (fun c d => distance target c ≤ distance target d) ∧
    (∃ rest, among.Perm (cs ++ rest) ∧
      ∀ c ∈ cs, ∀ d ∈ rest, distance target c ≤ distance target d) ∧
    ∀ t' : RoutingTable, t'.Reachable → t'.self = t.self → t.HeldOnce → t'.HeldOnce →
      (∀ c, c ∈ t'.active ↔ c ∈ t.active) → t'.closest target n = cs := by
  intro cs among
  have hamong : (t.ranking target).Perm among :=
    (ranking_perm t target).trans (.of_eq (candidates_eq t target))
  have hsplit : cs ++ (t.ranking target).drop n = t.ranking target := List.take_append_drop ..
  have hsorted := ranking_sorted t target
  rw [← hsplit, List.pairwise_append] at hsorted
  refine ⟨?_, hsorted.1, ⟨_, hamong.symm.trans (.of_eq hsplit.symm), hsorted.2.2⟩, ?_⟩
  · rw [← hamong.length_eq]
    exact List.length_take
  · intro t' ht' hself honce honce' hactive
    have hnodup := ht.sound.nodup_candidates honce target
    have hnodup' := ht'.sound.nodup_candidates honce' target
    have hperm : (t'.candidates target).Perm (t.candidates target) := by
      have hid : t'.identity = t.identity := congrArg Contact.identity hself
      refine (List.perm_ext_iff_of_nodup hnodup'.of_map hnodup.of_map).mpr fun c => ?_
      simp only [candidates_eq, hid, hself, List.mem_append, hactive]
    rw [closest_eq, ranking_eq_of_perm hperm hnodup]
    rfl

/-- Two contacts of one bucket that came in either order, and a target to which the first of them
is closer than the table's own contact. -/
theorem closest_of_reachable_of_two :
    let c : Contact := ⟨⟨0x80000000, 0, 0, 0, 1⟩, "c", 5, 0⟩
    let d : Contact := ⟨⟨0xC0000000, 0, 0, 0, 2⟩, "d", 6, 0⟩
    let self : Contact := ⟨.zero, "a", 1, 0⟩
    let t := (new self).run [.push 7 c, .push 8 d]
    let t' := (new self).run [.push 7 d, .push 8 c]
    let target : Identity := ⟨0x80000000, 0, 0, 0, 3⟩
    t.active = [c, d] ∧ t'.active = [d, c] ∧ t.closest target 2 = [c, d] ∧
      t'.closest target 2 = [c, d] ∧ (t.closest target 9).length = 3 := by
  intro c d self t t' target
  have hactive : t.active = [c, d] := by decide +kernel
  have hactive' : t'.active = [d, c] := by decide +kernel
  have honce : t.HeldOnce := by decide +kernel
  have honce' : t'.HeldOnce := by decide +kernel
  have hclosest : t.closest target 2 = [c, d] := by decide +kernel
  have ht : t.Reachable := ⟨_, _, .new _, rfl⟩
  have ht' : t'.Reachable := ⟨_, _, .new _, rfl⟩
  obtain ⟨hlength, -⟩ := closest_of_reachable ht target 9
  obtain ⟨-, -, -, hsame⟩ := closest_of_reachable ht target 2
  refine ⟨hactive, hactive', hclosest, ?_, ?_⟩
  · rw [hsame t' ht' (by decide +kernel) honce honce' fun x => ?_, hclosest]
    rw [hactive, hactive', List.mem_pair, List.mem_pair, or_comm]
  · rw [hlength, hactive]
    decide +kernel

/-! ## Bucket by bucket -/

/-- The active contacts from the lowest bucket up, those of one bucket sorted among themselves. -/
def bucketwise (t : RoutingTable) : List Contact :=
  (List.finRange 160).flatMap fun i => sortBy (noFarther t.identity) (t.bucket i).active

theorem active_eq_flatMap (t : RoutingTable) :
    t.active = (List.finRange 160).flatMap fun i => (t.bucket i).active := by
  rw [active, toList_buckets, List.flatMap_map]

theorem ranking_perm_active (t : RoutingTable) : (t.ranking t.identity).Perm t.active := by
  have hperm := ranking_perm t t.identity
  rwa [candidates, if_pos rfl] at hperm

/-- A contact of a lower bucket is closer. -/
theorem Sound.distance_lt (ht : t.Sound) {i j : Fin 160} (hij : i < j)
    (hc : c ∈ (t.bucket i).active) (hd : d ∈ (t.bucket j).active) :
    distance t.identity c < distance t.identity d := by
  have hci := ((ht i).active hc).height
  have hdj := ((ht j).active hd).height
  apply Identity.toNat_lt_of_height_lt
  rw [hci, hdj]
  exact hij

theorem Sound.height_le (ht : t.Sound) {i j : Fin 160} (hc : c ∈ (t.bucket i).active)
    (hd : d ∈ (t.bucket j).active) (h : distance t.identity c ≤ distance t.identity d) :
    (t.bucket i).height ≤ (t.bucket j).height := by
  have hij : i ≤ j := Fin.not_lt.mp fun hji => Nat.not_lt_of_le h (ht.distance_lt hji hd hc)
  rw [UInt8.le_iff_toNat_le, (ht i).height, (ht j).height]
  exact hij

theorem Sound.ranking_eq_bucketwise (ht : t.Sound) : t.ranking t.identity = t.bucketwise := by
  rw [ranking, candidates, if_pos rfl, active_eq_flatMap]
  refine sortBy_flatMap ((List.pairwise_lt_finRange 160).imp fun hij c hc d hd => ?_)
  exact noFarther_iff.mpr (Nat.le_of_lt (ht.distance_lt hij hc hd))

/-- The neighbours are the first contacts of the walk through the buckets. So they come from the
lowest bucket up, and where an active contact is left out, there are as many as there can be and
all of them are active in buckets that are no higher. -/
theorem neighbours_bucketwise (ht : t.Reachable) :
    let cs := t.neighbours
    cs = t.bucketwise.take 20 ∧
    cs.Pairwise (fun c d => ∀ i j, c ∈ (t.bucket i).active → d ∈ (t.bucket j).active →
      (t.bucket i).height ≤ (t.bucket j).height) ∧
    ∃ rest, t.active.Perm (cs ++ rest) ∧ ∀ d ∈ rest, ∀ h, d ∈ (t.bucket h).active →
      cs.length = 20 ∧
      ∀ c ∈ cs, ∃ i, c ∈ (t.bucket i).active ∧ (t.bucket i).height ≤ (t.bucket h).height := by
  intro cs
  have hsound := ht.sound
  have hcs : cs = (t.ranking t.identity).take 20 := rfl
  have hsplit : cs ++ (t.ranking t.identity).drop 20 = t.ranking t.identity :=
    List.take_append_drop ..
  have hsorted := ranking_sorted t t.identity
  rw [← hsplit, List.pairwise_append] at hsorted
  obtain ⟨hwithin, -, hacross⟩ := hsorted
  refine ⟨?_, hwithin.imp fun hcd i j hc hd => hsound.height_le hc hd hcd,
    (t.ranking t.identity).drop 20, ?_, fun d hd h hdh => ⟨?_, fun c hc => ?_⟩⟩
  · rw [hcs, hsound.ranking_eq_bucketwise]
  · rw [hsplit]
    exact (ranking_perm_active t).symm
  · have hpos := List.length_pos_of_mem hd
    rw [List.length_drop] at hpos
    rw [hcs, List.length_take]
    omega
  · have hmem : c ∈ t.ranking t.identity := hsplit ▸ List.mem_append_left _ hc
    obtain ⟨i, hci⟩ := mem_active_iff.mp ((ranking_perm_active t).mem_iff.mp hmem)
    exact ⟨i, hci, hsound.height_le hci hdh (hacross c hc d hd)⟩

/-- Twenty contacts of a high bucket, one of them waiting there as well, and one of the lowest
bucket: it comes first, and somebody is left out. -/
theorem neighbours_bucketwise_of_two :
    let near : Contact := ⟨⟨0, 0, 0, 0, 1⟩, "n", 7, 0⟩
    let t := (new ⟨.zero, "s", 1, 0⟩).run (crowding ++ [.push 1000 near])
    t.neighbours.head? = some near ∧ t.active.length = 21 ∧
      t.neighbours = t.bucketwise.take 20 ∧ t.neighbours.length = 20 := by
  intro near t
  have hlength : t.active.length = 21 := by decide +kernel
  obtain ⟨hwalk, -, rest, hperm, hleft⟩ := neighbours_bucketwise (t := t) ⟨_, _, .new _, rfl⟩
  have hhead : t.neighbours.head? = some near := by decide +kernel
  refine ⟨hhead, hlength, hwalk, ?_⟩
  have hsome : 0 < rest.length := by
    have htotal := hperm.length_eq
    have hle : t.neighbours.length ≤ 20 := List.length_take_le ..
    rw [hlength, List.length_append] at htotal
    omega
  obtain ⟨d, hd⟩ := List.exists_mem_of_length_pos hsome
  obtain ⟨h, hdh⟩ := mem_active_iff.mp (hperm.mem_iff.mpr (List.mem_append_right _ hd))
  exact (hleft d hd h hdh).1

end SearchOverlay.RoutingTable
