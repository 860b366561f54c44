import SearchOverlay.Proofs.Bucket.Held

/-!
# The others

An operation names one identity, and what is held of the others stays as it is, though it may move
from one list to the other. Only an offer can cost another contact its place: the stale one that it
reports, or one of those seen longest ago where too many wait.
-/

namespace SearchOverlay.Bucket

variable {now : Time} {c d old : Contact} {id : Identity} {cs cs' l r : List Contact}
  {b b' : Bucket} {o : PushOutcome} {was : Bool}

/-- The contacts with another identity. -/
def others (id : Identity) (cs : List Contact) : List Contact := cs.filter (! hasId id ·)

@[simp] theorem others_append (id : Identity) (l r : List Contact) :
    others id (l ++ r) = others id l ++ others id r := List.filter_append ..

@[simp] theorem others_nil (id : Identity) : others id [] = [] := rfl

theorem others_cons_of_eq (h : d.identity = id) : others id (d :: cs) = others id cs :=
  List.filter_cons_of_neg (by simpa using h)

theorem others_cons_of_ne (h : d.identity ≠ id) : others id (d :: cs) = d :: others id cs :=
  List.filter_cons_of_pos (by simpa using h)

theorem others_filter (id : Identity) (cs : List Contact) :
    others id (cs.filter (! hasId id ·)) = others id cs := by
  simp [others]

theorem others_perm (id : Identity) (h : cs'.Perm cs) : (others id cs').Perm (others id cs) :=
  h.filter _

/-! ## Offers -/

/-- There is no room for `c` among the contacts that wait, and `old` is one of those seen longest
ago when `c` is counted in. -/
def FallsOut (c : Contact) (cs : List Contact) (old : Contact) : Prop :=
  capacity ≤ cs.length ∧ c.identity ∉ ids cs ∧ old ∈ cs ++ [c] ∧
    ∀ d ∈ cs ++ [c], old.lastSeen ≤ d.lastSeen

theorem DeferStep.others (s : DeferStep now c cs cs') :
    (others c.identity cs').Perm (others c.identity cs) ∨
      ∃ old, FallsOut c cs old ∧ (cs ++ [c]).Perm (old :: cs') := by
  cases s with
  | @renewed l old r named first =>
    have named' : (renew now c old).identity = c.identity := named
    refine .inl ((others_perm _ (sortBySeen_perm _)).trans (.of_eq ?_))
    rw [others_append, others_append, others_cons_of_eq named, others_cons_of_eq named']
  | added new room =>
    refine .inl ((others_perm _ (sortBySeen_perm _)).trans (.of_eq ?_))
    rw [others_append, others_cons_of_eq rfl, others_nil, List.append_nil]
  | @dropped _ l old r new full split before after =>
    refine .inr ⟨old, ⟨full, new, by simp [split], ?_⟩, ?_⟩
    · rw [split]
      intro d hd
      rcases List.mem_append.mp hd with hd | hd
      · exact UInt64.le_of_lt (before d hd)
      · rcases List.mem_cons.mp hd with rfl | hd
        · exact UInt64.le_refl _
        · exact after d hd
    · rw [split]
      exact List.perm_middle.trans ((sortBySeen_perm _).symm.cons old)

theorem PushStep.others_refreshed (s : PushStep now c b .refreshed b') :
    others c.identity b'.held = others c.identity b.held := by
  cases s with
  | @refreshed _ l old r rs named first =>
    have named' : (renew now c old).identity = c.identity := named
    rw [held, List.cons_append, others_cons_of_eq named']
    simp only [held, others_append]
    rw [others_cons_of_eq named]

theorem PushStep.others_inserted (s : PushStep now c b .inserted b') :
    others c.identity b'.held = others c.identity b.held := by
  cases s with
  | inserted new room =>
    simp only [held, others_append]
    rw [others_cons_of_eq rfl, others_filter, others_nil, List.append_nil]

theorem PushStep.others_replaced (s : PushStep now c b (.replacedStale old) b') :
    old ∈ b.active ∧ (others c.identity b.held).Perm (old :: others c.identity b'.held) := by
  cases s with
  | @replaced _ l _ r rs new full stale before after =>
    have hne : old.identity ≠ c.identity := fun e => new (by simp [← e])
    refine ⟨by simp, ?_⟩
    simp only [held, others_append]
    rw [others_cons_of_ne hne, others_cons_of_eq rfl]
    exact List.perm_middle.append_right _

theorem PushStep.others_deferred (s : PushStep now c b .deferred b') :
    (others c.identity b'.held).Perm (others c.identity b.held) ∨
      ∃ old, FallsOut c b.replacements old ∧ (b.held ++ [c]).Perm (old :: b'.held) := by
  cases s with
  | @deferred _ as rs rs' new full fine wait =>
    simp only [held, others_append]
    rcases wait.others with hsame | ⟨old, hold, hperm⟩
    · exact .inl (hsame.append_left _)
    · refine .inr ⟨old, hold, ?_⟩
      rw [List.append_assoc]
      exact (hperm.append_left as).trans List.perm_middle

/-! ## Removals and evictions -/

theorem RemoveStep.others (s : RemoveStep id b was b') :
    (others id b'.held).Perm (others id b.held) := by
  cases s with
  | absent none => exact .refl _
  | @marked _ l old r named first =>
    have named' : (moreStale old).identity = id := named
    simp only [held, others_append]
    rw [others_cons_of_eq named, others_cons_of_eq named']
  | @promoted _ l old r next rs named first =>
    refine (others_perm id (promote_sorted_perm l r rs next)).trans (.of_eq ?_)
    simp only [held, others_append]
    rw [others_cons_of_eq named]

theorem EvictStep.others (s : EvictStep id b was b') :
    (others id b'.held).Perm (others id b.held) := by
  cases was with
  | false => exact .of_eq (by rw [s.absent_of_false.1])
  | true =>
    obtain ⟨old, hold, hperm⟩ := s.perm
    exact ((others_perm id hperm).trans (.of_eq (others_cons_of_eq hold))).symm

/-- Whoever is removed goes if and only if one of those that wait takes over the slot. -/
theorem RemoveStep.gone_iff (s : RemoveStep id b was b') (honce : b.HeldOnce) :
    id ∈ ids b.held ∧ id ∉ ids b'.held ↔
      ∃ l old r next rest, b.active = l ++ old :: r ∧ old.identity = id ∧
        b.replacements = next :: rest ∧ b'.active = l ++ next :: r := by
  constructor
  · rintro ⟨hheld, hgone⟩
    cases s with
    | absent none => exact absurd hheld hgone
    | marked named first => exact absurd (by simp [held, ← named]) hgone
    | @promoted _ l old r next rs named first => exact ⟨l, old, r, next, rs, rfl, named, rfl, rfl⟩
  · rintro ⟨l, old, r, next, rest, hactive, rfl, hwait, -⟩
    have hid : old.identity ∈ ids b.active := by simp [hactive]
    refine ⟨?_, ?_⟩
    · rw [held, ids, List.map_append]
      exact List.mem_append_left _ hid
    · cases s with
      | absent none => exact absurd hid none
      | marked named first => cases hwait
      | @promoted _ l old' r next rs named first =>
        have hperm : (l ++ old' :: r ++ next :: rs).Perm
            (old' :: (l ++ next :: r ++ sortBySeen rs)) :=
          (List.perm_middle.append_right _).trans ((promote_sorted_perm l r rs next).symm.cons old')
        rw [← named]
        exact (List.nodup_cons.mp ((hperm.map _).nodup_iff.mp honce)).1

theorem EvictStep.gone (s : EvictStep id b was b') (honce : b.HeldOnce) : id ∉ ids b'.held := by
  cases was with
  | false =>
    obtain ⟨rfl, habsent⟩ := s.absent_of_false
    exact habsent
  | true =>
    obtain ⟨old, rfl, hperm⟩ := s.perm
    exact (List.nodup_cons.mp ((hperm.map _).nodup_iff.mp honce)).1

/-- What an operation keeps of the contacts that it does not name, with all that is known of them.
An offer keeps them all, or all but the one that it reports as dropped, or all but one of those seen
longest ago where too many wait. A removal keeps them all, and who is removed goes only if one of
those that wait takes over the slot. An eviction keeps them all, and who is evicted is gone. -/
theorem operations_spare_others (honce : b.HeldOnce) :
    (∀ now c,
      let o := (b.push now c).1
      let b' := (b.push now c).2
      (o = .refreshed ∨ o = .inserted →
        (others c.identity b'.held).Perm (others c.identity b.held)) ∧
      (∀ old, o = .replacedStale old → old ∈ b.active ∧
        (others c.identity b.held).Perm (old :: others c.identity b'.held)) ∧
      (o = .deferred → (others c.identity b'.held).Perm (others c.identity b.held) ∨
        ∃ old, FallsOut c b.replacements old ∧ (b.held ++ [c]).Perm (old :: b'.held))) ∧
    (∀ id,
      let b' := (b.remove id).2
      (others id b'.held).Perm (others id b.held) ∧
      (id ∈ ids b.held ∧ id ∉ ids b'.held ↔
        ∃ l old r next rest, b.active = l ++ old :: r ∧ old.identity = id ∧
          b.replacements = next :: rest ∧ b'.active = l ++ next :: r)) ∧
    ∀ id,
      let b' := (b.evict id).2
      (others id b'.held).Perm (others id b.held) ∧ id ∉ ids b'.held := by
  refine ⟨fun now c => ?_, fun id => ?_, fun id => ?_⟩
  · intro o b'
    have hstep : PushStep now c b o b' := push_step now c b
    clear_value o b'
    refine ⟨?_, ?_, ?_⟩
    · rintro (rfl | rfl)
      · exact .of_eq hstep.others_refreshed
      · exact .of_eq hstep.others_inserted
    · rintro old rfl
      exact hstep.others_replaced
    · rintro rfl
      exact hstep.others_deferred
  · exact ⟨(remove_step id b).others, (remove_step id b).gone_iff honce⟩
  · exact ⟨(evict_step id b).others, (evict_step id b).gone honce⟩

/-- A full bucket with one stale contact and one that waits: a newcomer costs the stale one its
place, a removal and an eviction nobody but the one that they name. -/
theorem operations_spare_others_of_full :
    let contact (n : Nat) : Contact :=
      ⟨⟨0x80000000, 0, 0, 0, UInt32.ofNat n⟩, "p", 100, if n = 3 then 9 else 0⟩
    let b : Bucket := ⟨159, (List.range 20).map contact, [contact 20]⟩
    let newcomer := contact 30
    let silent := (contact 7).identity
    b.HeldOnce ∧ (others newcomer.identity b.held).Perm
        (contact 3 :: others newcomer.identity (b.push 9 newcomer).2.held) ∧
      (others silent (b.remove silent).2.held).Perm (others silent b.held) ∧
      silent ∉ ids (b.remove silent).2.held ∧
      (others silent (b.evict silent).2.held).Perm (others silent b.held) ∧
      silent ∉ ids (b.evict silent).2.held := by
  intro contact b newcomer silent
  have honce : b.HeldOnce := by decide +kernel
  have houtcome : (b.push 9 newcomer).1 = .replacedStale (contact 3) := by decide +kernel
  have hsplit : b.active = (List.range 7).map contact ++ contact 7 ::
      (List.range' 8 12).map contact := by
    decide +kernel
  have hslot : (b.remove silent).2.active = (List.range 7).map contact ++ contact 20 ::
      (List.range' 8 12).map contact := by
    decide +kernel
  obtain ⟨hpush, hremove, hevict⟩ := operations_spare_others honce
  obtain ⟨hothers, hgone⟩ := hremove silent
  exact ⟨honce, ((hpush 9 newcomer).2.1 _ houtcome).2, hothers,
    (hgone.mpr ⟨_, _, _, _, _, hsplit, rfl, rfl, hslot⟩).2, hevict silent⟩

end SearchOverlay.Bucket
