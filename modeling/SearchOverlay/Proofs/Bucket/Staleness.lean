import SearchOverlay.Proofs.Bucket.Overflow

/-!
# Contacts that do not answer

Where nobody waits, a removal drops nobody: it counts against the contact that it names. However
many removals there were, a contact is as stale as those make it that named it, up to the largest
count. The next newcomer to the full bucket takes the place of the stalest contact, the first of
several, and has to wait if not even that one is stale enough.
-/

namespace SearchOverlay.Bucket

variable {now : Time} {c : Contact} {id : Identity} {b b' : Bucket} {o : PushOutcome} {was : Bool}

/-- The contact after `n` more removals. -/
def stalerBy (n : Nat) (c : Contact) : Contact :=
  { c with staleCount := UInt8.ofNat (min 255 (c.staleCount.toNat + n)) }

@[simp] theorem stalerBy_identity (n : Nat) (c : Contact) : (stalerBy n c).identity = c.identity :=
  rfl

@[simp] theorem stalerBy_zero (c : Contact) : stalerBy 0 c = c := by
  have hle : c.staleCount.toNat ≤ 255 := Nat.le_of_lt_succ c.staleCount.toNat_lt
  simp [stalerBy, Nat.min_eq_right hle]

theorem stalerBy_stalerBy (m n : Nat) (c : Contact) :
    stalerBy n (stalerBy m c) = stalerBy (m + n) c := by
  simp only [stalerBy, UInt8.toNat_ofNat']
  congr 2
  omega

theorem moreStale_eq (c : Contact) : moreStale c = stalerBy 1 c := by
  have hlt : c.staleCount.toNat < 256 := c.staleCount.toNat_lt
  simp only [moreStale, stalerBy]
  congr 1
  apply UInt8.toNat_inj.mp
  split
  · next h => simp [h]
  · next h =>
    have hne : c.staleCount.toNat ≠ 255 := fun e => h (UInt8.toNat_inj.mp e)
    simp only [UInt8.toNat_add, UInt8.toNat_ofNat', UInt8.reduceToNat]
    omega

/-- The contacts after removals, each of which counts against the one that it names. -/
def unanswered (removed : List Identity) (cs : List Contact) : List Contact :=
  cs.map fun d => stalerBy (removed.count d.identity) d

@[simp] theorem ids_unanswered (removed : List Identity) (cs : List Contact) :
    ids (unanswered removed cs) = ids cs := by
  simp [unanswered, Function.comp_def]

@[simp] theorem length_unanswered (removed : List Identity) (cs : List Contact) :
    (unanswered removed cs).length = cs.length := List.length_map _

@[simp] theorem unanswered_nil (cs : List Contact) : unanswered [] cs = cs := by
  simp [unanswered]

theorem unanswered_append (removed removed' : List Identity) (cs : List Contact) :
    unanswered (removed ++ removed') cs = unanswered removed' (unanswered removed cs) := by
  simp only [unanswered, List.map_map, Function.comp_def, stalerBy_stalerBy, stalerBy_identity,
    List.count_append]

theorem unanswered_of_not_mem {cs : List Contact} (h : id ∉ ids cs) :
    unanswered [id] cs = cs := by
  refine (List.map_congr_left fun d hd => ?_).trans (List.map_id cs)
  have hne : d.identity ≠ id := fun e => h (List.mem_map.mpr ⟨d, hd, e⟩)
  rw [List.count_eq_zero.mpr (by simpa using hne), stalerBy_zero, id_eq]

theorem unanswered_split {l r : List Contact} {old : Contact} (hold : old.identity = id)
    (hl : id ∉ ids l) (hr : id ∉ ids r) :
    unanswered [id] (l ++ old :: r) = l ++ moreStale old :: r := by
  have hl' := unanswered_of_not_mem hl
  have hr' := unanswered_of_not_mem hr
  simp only [unanswered] at hl' hr' ⊢
  rw [List.map_append, List.map_cons, hl', hr', hold, List.count_singleton_self, moreStale_eq]

/-! ## Removals -/

/-- Reports contacts that did not answer, one after the other. -/
def removeEach (removed : List Identity) (b : Bucket) : Bucket :=
  removed.foldl (fun b id => (b.remove id).2) b

theorem RemoveStep.unanswered (s : RemoveStep id b was b') (hnone : b.replacements = [])
    (honce : (ids b.active).Nodup) : b' = { b with active := unanswered [id] b.active } := by
  cases s with
  | absent none => rw [unanswered_of_not_mem none]
  | @marked _ l old r named first =>
    have hlast : id ∉ ids r := by
      rw [ids, List.map_append, List.map_cons, named, List.nodup_append, List.nodup_cons] at honce
      exact honce.2.1.1
    rw [unanswered_split named first hlast]
  | promoted named first => cases hnone

theorem removeEach_eq (hnone : b.replacements = []) (honce : (ids b.active).Nodup)
    (removed : List Identity) :
    b.removeEach removed = { b with active := unanswered removed b.active } := by
  induction removed generalizing b with
  | nil => simp [removeEach]
  | cons id removed ih =>
    have hstep := (remove_step id b).unanswered hnone honce
    have hnone' : (b.remove id).2.replacements = [] := by rw [hstep, hnone]
    have honce' : (ids (b.remove id).2.active).Nodup := by rwa [hstep, ids_unanswered]
    rw [removeEach, List.foldl_cons]
    refine (ih hnone' honce').trans ?_
    rw [hstep, ← unanswered_append, List.singleton_append]

/-! ## The next newcomer -/

/-- A newcomer takes the place of the first of the stalest contacts. -/
theorem PushStep.supplants (s : PushStep now c b o b') (hfull : capacity ≤ b.active.length)
    (hnew : c.identity ∉ ids b.active)
    (hstale : ∃ d ∈ b.active, staleThreshold ≤ d.staleCount.toNat) :
    ∃ l old r, b.active = l ++ old :: r ∧ (∀ d ∈ l, d.staleCount < old.staleCount) ∧
      (∀ d ∈ r, d.staleCount ≤ old.staleCount) ∧ staleThreshold ≤ old.staleCount.toNat ∧
      o = .replacedStale old ∧ b' = { b with active := l ++ c :: r } := by
  cases s with
  | refreshed named first => exact absurd (by simp [← named]) hnew
  | inserted new room => exact absurd room (Nat.not_lt_of_le hfull)
  | @replaced _ l old r rs new full stale before after =>
    exact ⟨l, old, r, rfl, before, after, stale, rfl, rfl⟩
  | deferred new full fine wait =>
    obtain ⟨d, hd, hstale⟩ := hstale
    exact absurd hstale (Nat.not_le_of_lt (fine d hd))

/-- In a full bucket where nobody waits, removals only add to the stale counts, each one to that of
the contact that it names, up to 255. A newcomer then takes the slot of the first of the stalest
contacts if that one has come to 5, and is left to wait otherwise. -/
theorem newcomer_after_removals (hfull : b.isFull = true) (honce : (ids b.active).Nodup)
    (hnone : b.replacements = []) (removed : List Identity) (now : Time)
    (hnew : c.identity ∉ ids b.active) :
    let after := b.removeEach removed
    after = { b with active := b.active.map fun d => stalerBy (removed.count d.identity) d } ∧
    ((∃ d ∈ after.active, 5 ≤ d.staleCount.toNat) →
      ∃ l old r, after.active = l ++ old :: r ∧ (∀ d ∈ l, d.staleCount < old.staleCount) ∧
        (∀ d ∈ r, d.staleCount ≤ old.staleCount) ∧ 5 ≤ old.staleCount.toNat ∧
        after.push now c = (.replacedStale old, { after with active := l ++ c :: r })) ∧
    ((∀ d ∈ after.active, d.staleCount.toNat < 5) →
      after.push now c = (.deferred, { after with replacements := [c] })) := by
  intro after
  have hafter : after = { b with active := unanswered removed b.active } :=
    removeEach_eq hnone honce removed
  have hfull' : capacity ≤ after.active.length := by
    rw [hafter, length_unanswered]
    exact Nat.le_of_eq (of_decide_eq_true hfull).symm
  have hnew' : c.identity ∉ ids after.active := by rwa [hafter, ids_unanswered]
  have hnone' : after.replacements = [] := by rw [hafter, hnone]
  have hstep := push_step now c after
  refine ⟨hafter, fun hstale => ?_, fun hfine => ?_⟩
  · obtain ⟨l, old, r, hsplit, hl, hr, hold, ho, hb'⟩ := hstep.supplants hfull' hnew' hstale
    exact ⟨l, old, r, hsplit, hl, hr, hold, Prod.ext ho hb'⟩
  · have hwait : c.identity ∉ ids after.replacements := by simp [hnone']
    have hroom : after.replacements.length < capacity := by simp [hnone', capacity]
    obtain ⟨ho, hb'⟩ := hstep.queued ⟨hfull', hfine⟩ hnew' hwait hroom
    rw [hnone'] at hb'
    exact Prod.ext ho hb'

/-- Twenty contacts, two of which do not answer until both have the largest count: the first of the
stalest has to go. After three removals nobody has to, and the newcomer waits. -/
theorem newcomer_after_removals_of_two :
    let contact (n : Nat) : Contact :=
      ⟨⟨0x80000000, 0, 0, 0, UInt32.ofNat n⟩, "p", 100, UInt8.ofNat (n % 2)⟩
    let b : Bucket := ⟨159, (List.range 20).map contact, []⟩
    let many := List.replicate 300 (contact 7).identity ++ List.replicate 255 (contact 4).identity
    let few := List.replicate 3 (contact 7).identity
    (∃ l old r, (b.removeEach many).active = l ++ old :: r ∧
        (∀ d ∈ l, d.staleCount < old.staleCount) ∧
        ((b.removeEach many).push 9 (contact 20)).1 = .replacedStale old) ∧
      (b.removeEach few).push 9 (contact 20) =
        (.deferred, { b.removeEach few with replacements := [contact 20] }) := by
  intro contact b many few
  obtain ⟨hfull, honce, hnew⟩ : b.isFull = true ∧ (ids b.active).Nodup ∧
      (contact 20).identity ∉ ids b.active := by
    decide +kernel
  have hstale : { contact 7 with staleCount := 255 } ∈ (b.removeEach many).active := by
    decide +kernel
  have hfine : ∀ d ∈ (b.removeEach few).active, d.staleCount.toNat < 5 := by decide +kernel
  obtain ⟨-, hreplaced, -⟩ := newcomer_after_removals hfull honce rfl many 9 hnew
  obtain ⟨-, -, hdeferred⟩ := newcomer_after_removals hfull honce rfl few 9 hnew
  obtain ⟨l, old, r, hsplit, hl, -, -, hpush⟩ := hreplaced ⟨_, hstale, by decide⟩
  exact ⟨⟨l, old, r, hsplit, hl, congrArg Prod.fst hpush⟩, hdeferred hfine⟩

end SearchOverlay.Bucket
