import SearchOverlay.RoutingTable
import SearchOverlay.Proofs.Bucket.Held

/-!
# Operations on a routing table

An operation reaches one bucket, the home of the identity that it names; only a change of the
own contact rebuilds the table. `Sound` is what every table keeps, and `Sound.run` says that no
sequence of operations breaks it.
-/

namespace SearchOverlay

/-- A contact that may be held in the bucket `i` of a table of `me`. -/
structure AtHome (me : Identity) (i : Fin 160) (c : Contact) : Prop where
  ne_self : c.identity ≠ me
  height : (c.identity.xor me).height = i
  short : c.address.utf8ByteSize ≤ RoutingTable.maxAddress

/-- When a contact was seen and how stale it is does not matter. -/
theorem AtHome.congr {me : Identity} {i : Fin 160} {c d : Contact} (h : AtHome me i c)
    (hid : d.identity = c.identity) (haddr : d.address = c.address) : AtHome me i d :=
  ⟨hid ▸ h.ne_self, hid ▸ h.height, haddr ▸ h.short⟩

/-- What the bucket `i` of a table of `me` keeps. -/
structure Bucket.SoundAt (me : Identity) (i : Fin 160) (b : Bucket) : Prop where
  height : b.height.toNat = i
  lists : b.Sound
  home : ∀ c ∈ b.held, AtHome me i c

theorem Bucket.SoundAt.active {me : Identity} {i : Fin 160} {b : Bucket} {c : Contact}
    (h : b.SoundAt me i) (hc : c ∈ b.active) : AtHome me i c :=
  h.home c (List.mem_append_left _ hc)

theorem Bucket.SoundAt.height_eq {me : Identity} {i : Fin 160} {b : Bucket} (h : b.SoundAt me i) :
    b.height = UInt8.ofNat i := by
  rw [← h.height, UInt8.ofNat_toNat]

namespace RoutingTable

def Sound (t : RoutingTable) : Prop := ∀ i : Fin 160, (t.bucket i).SoundAt t.identity i

/-- What is done to a table, with what the clock shows meanwhile. -/
inductive Operation where
  | push (now : Time) (c : Contact)
  | remove (id : Identity)
  | evict (id : Identity)
  | setSelf (clock : Clock) (c : Contact)

def Operation.apply : Operation → RoutingTable → RoutingTable
  | push now c, t => (t.push now c).2
  | remove id, t => (t.remove id).2
  | evict id, t => (t.evict id).2
  | setSelf clock c, t => t.setSelf clock c

/-- Applies operations one after the other. -/
def run (os : List Operation) (t : RoutingTable) : RoutingTable :=
  os.foldl (fun t o => o.apply t) t

@[simp] theorem run_nil (t : RoutingTable) : t.run [] = t := rfl

@[simp] theorem run_cons (o : Operation) (os : List Operation) (t : RoutingTable) :
    t.run (o :: os) = (o.apply t).run os := rfl

theorem run_append (os os' : List Operation) (t : RoutingTable) :
    t.run (os ++ os') = (t.run os).run os' := List.foldl_append

/-! ## One bucket at a time -/

theorem bucket_setHome (t : RoutingTable) (id : Identity) (b : Bucket) (i : Fin 160) :
    (t.setHome id b).bucket i = if t.index id = i then b else t.bucket i :=
  t.bucket_setBucket (t.index id) i b

@[simp] theorem self_setHome (t : RoutingTable) (id : Identity) (b : Bucket) :
    (t.setHome id b).self = t.self := rfl

theorem home_setHome_of_ne {t : RoutingTable} {id other : Identity} (b : Bucket)
    (h : t.index id ≠ t.index other) : (t.setHome id b).home other = t.home other := by
  have h' := t.bucket_setHome id b (t.index other)
  rwa [if_neg h] at h'

theorem home_setHome_of_eq {t : RoutingTable} {id other : Identity} (b : Bucket)
    (h : t.index id = t.index other) : (t.setHome id b).home other = b := by
  have h' := t.bucket_setHome id b (t.index other)
  rwa [if_pos h] at h'

theorem home_congr {t : RoutingTable} {id other : Identity} (h : t.index id = t.index other) :
    t.home id = t.home other := by
  simp only [home, h]

/-- Whether a table takes a contact at all. -/
def Takes (t : RoutingTable) (c : Contact) : Prop :=
  c.identity ≠ t.identity ∧ c.address.utf8ByteSize ≤ maxAddress

instance (t : RoutingTable) (c : Contact) : Decidable (t.Takes c) :=
  inferInstanceAs (Decidable (_ ∧ _))

theorem push_of_not_takes {t : RoutingTable} {c : Contact} (now : Time) (h : ¬ t.Takes c) :
    t.push now c = (none, t) := by
  unfold push
  by_cases hid : c.identity = t.identity
  · rw [if_pos hid]
  · rw [if_neg hid, if_pos (Nat.lt_of_not_le fun hle => h ⟨hid, hle⟩)]

theorem push_of_takes {t : RoutingTable} {c : Contact} (now : Time) (h : t.Takes c) :
    t.push now c = (some ((t.home c.identity).push now c).1,
      t.setHome c.identity ((t.home c.identity).push now c).2) := by
  unfold push
  rw [if_neg h.1, if_neg (Nat.not_lt_of_le h.2)]

theorem remove_self (t : RoutingTable) : t.remove t.identity = (false, t) := by simp [remove]

theorem remove_of_ne {t : RoutingTable} {id : Identity} (h : id ≠ t.identity) :
    t.remove id = (((t.home id).remove id).1, t.setHome id ((t.home id).remove id).2) := by
  simp [remove, h]

theorem evict_self (t : RoutingTable) : t.evict t.identity = (false, t) := by simp [evict]

theorem evict_of_ne {t : RoutingTable} {id : Identity} (h : id ≠ t.identity) :
    t.evict id = (((t.home id).evict id).1, t.setHome id ((t.home id).evict id).2) := by
  simp [evict, h]

@[simp] theorem self_push (now : Time) (c : Contact) (t : RoutingTable) :
    (t.push now c).2.self = t.self := by
  by_cases h : t.Takes c
  · rw [push_of_takes now h, self_setHome]
  · rw [push_of_not_takes now h]

@[simp] theorem self_pushFrom (clock : Clock) (i : Nat) (cs : List Contact) (t : RoutingTable) :
    (t.pushFrom clock i cs).self = t.self := by
  induction cs generalizing i t with
  | nil => rfl
  | cons c cs ih => rw [pushFrom, ih, self_push]

@[simp] theorem identity_push (now : Time) (c : Contact) (t : RoutingTable) :
    (t.push now c).2.identity = t.identity :=
  congrArg Contact.identity (self_push now c t)

@[simp] theorem identity_pushFrom (clock : Clock) (i : Nat) (cs : List Contact)
    (t : RoutingTable) : (t.pushFrom clock i cs).identity = t.identity :=
  congrArg Contact.identity (self_pushFrom clock i cs t)

@[simp] theorem self_remove (id : Identity) (t : RoutingTable) : (t.remove id).2.self = t.self := by
  unfold remove
  split <;> rfl

@[simp] theorem self_evict (id : Identity) (t : RoutingTable) : (t.evict id).2.self = t.self := by
  unfold evict
  split <;> rfl

@[simp] theorem identity_remove (id : Identity) (t : RoutingTable) :
    (t.remove id).2.identity = t.identity :=
  congrArg Contact.identity (self_remove id t)

@[simp] theorem identity_evict (id : Identity) (t : RoutingTable) :
    (t.evict id).2.identity = t.identity :=
  congrArg Contact.identity (self_evict id t)

theorem index_congr {t t' : RoutingTable} (h : t'.self = t.self) (id : Identity) :
    t'.index id = t.index id := by
  simp only [index, identity, h]

theorem home_eq {t t' : RoutingTable} (h : t'.self = t.self) (id : Identity) :
    t'.home id = t'.bucket (t.index id) := by
  rw [home, index_congr h]

/-! ## The steps of a bucket -/

section

variable {t : RoutingTable} {i : Fin 160} {P : Bucket → Prop}

/-- A bucket is what it was or, if it is the home of the contact, comes from an offer to it. -/
theorem bucket_push_of_step {now : Time} {c : Contact} (h : P (t.bucket i))
    (hstep : t.Takes c → t.index c.identity = i →
      ∀ o b', Bucket.PushStep now c (t.bucket i) o b' → P b') :
    P ((t.push now c).2.bucket i) := by
  by_cases htake : t.Takes c
  · rw [push_of_takes now htake, bucket_setHome]
    split
    · next hi =>
      subst hi
      exact hstep htake rfl _ _ (Bucket.push_step now c _)
    · exact h
  · rw [push_of_not_takes now htake]
    exact h

/-- A bucket is what it was or, if it is the home of the identity, comes from a removal. -/
theorem bucket_remove_of_step {id : Identity} (h : P (t.bucket i))
    (hstep : t.index id = i → ∀ was b', Bucket.RemoveStep id (t.bucket i) was b' → P b') :
    P ((t.remove id).2.bucket i) := by
  by_cases hself : id = t.identity
  · rw [hself, remove_self]
    exact h
  · rw [remove_of_ne hself, bucket_setHome]
    split
    · next hi =>
      subst hi
      exact hstep rfl _ _ (Bucket.remove_step id _)
    · exact h

/-- A bucket is what it was or, if it is the home of the identity, comes from an eviction. -/
theorem bucket_evict_of_step {id : Identity} (h : P (t.bucket i))
    (hstep : t.index id = i → ∀ was b', Bucket.EvictStep id (t.bucket i) was b' → P b') :
    P ((t.evict id).2.bucket i) := by
  by_cases hself : id = t.identity
  · rw [hself, evict_self]
    exact h
  · rw [evict_of_ne hself, bucket_setHome]
    split
    · next hi =>
      subst hi
      exact hstep rfl _ _ (Bucket.evict_step id _)
    · exact h

theorem home_push {now : Time} {c : Contact} {id : Identity} (h : P (t.home id))
    (hstep : t.Takes c → ∀ o b', Bucket.PushStep now c (t.home id) o b' → P b') :
    P ((t.push now c).2.home id) := by
  rw [home_eq (self_push now c t)]
  exact bucket_push_of_step h fun htake _ => hstep htake

theorem home_remove {id other : Identity} (h : P (t.home other))
    (hstep : ∀ was b', Bucket.RemoveStep id (t.home other) was b' → P b') :
    P ((t.remove id).2.home other) := by
  rw [home_eq (self_remove id t)]
  exact bucket_remove_of_step h fun _ => hstep

theorem home_evict {id other : Identity} (h : P (t.home other))
    (hstep : ∀ was b', Bucket.EvictStep id (t.home other) was b' → P b') :
    P ((t.evict id).2.home other) := by
  rw [home_eq (self_evict id t)]
  exact bucket_evict_of_step h fun _ => hstep

theorem bucket_remove {id : Identity} (hne : id ≠ t.identity) (hi : t.index id = i) :
    (t.remove id).2.bucket i = ((t.bucket i).remove id).2 := by
  rw [remove_of_ne hne, bucket_setHome, if_pos hi, home, hi]

theorem bucket_evict {id : Identity} (hne : id ≠ t.identity) (hi : t.index id = i) :
    (t.evict id).2.bucket i = ((t.bucket i).evict id).2 := by
  rw [evict_of_ne hne, bucket_setHome, if_pos hi, home, hi]

theorem bucket_push_of_ne {now : Time} {c : Contact} (h : t.index c.identity ≠ i) :
    (t.push now c).2.bucket i = t.bucket i :=
  bucket_push_of_step (P := (· = t.bucket i)) rfl fun _ hi => absurd hi h

theorem bucket_remove_of_ne {id : Identity} (h : t.index id ≠ i) :
    (t.remove id).2.bucket i = t.bucket i :=
  bucket_remove_of_step (P := (· = t.bucket i)) rfl fun hi => absurd hi h

theorem bucket_evict_of_ne {id : Identity} (h : t.index id ≠ i) :
    (t.evict id).2.bucket i = t.bucket i :=
  bucket_evict_of_step (P := (· = t.bucket i)) rfl fun hi => absurd hi h

end

/-! ## Soundness -/

@[simp] theorem bucket_new (self : Contact) (i : Fin 160) :
    (new self).bucket i = Bucket.empty (UInt8.ofNat i) := by
  simp [bucket, new, emptyBuckets]

theorem sound_new (self : Contact) : (new self).Sound := by
  intro i
  rw [bucket_new]
  refine ⟨?_, Bucket.sound_empty _, by simp [Bucket.empty, Bucket.held]⟩
  have := i.isLt
  simp only [Bucket.empty, UInt8.toNat_ofNat']
  omega

theorem Sound.push {t : RoutingTable} (ht : t.Sound) (now : Time) (c : Contact) :
    (t.push now c).2.Sound := by
  intro i
  rw [identity_push]
  refine bucket_push_of_step (P := (·.SoundAt t.identity i)) (ht i) fun htake hi o b' s => ?_
  refine ⟨s.height.trans (ht i).height, s.sound (ht i).lists, fun d hd => ?_⟩
  rcases s.mem_held hd with hd | ⟨hid, haddr⟩
  · exact (ht i).home d hd
  · exact AtHome.congr (c := c) ⟨htake.1, congrArg Fin.val hi, htake.2⟩ hid haddr

theorem Sound.pushFrom {t : RoutingTable} (ht : t.Sound) (clock : Clock) (i : Nat)
    (cs : List Contact) : (t.pushFrom clock i cs).Sound := by
  induction cs generalizing i t with
  | nil => exact ht
  | cons c cs ih => exact ih (ht.push _ c) _

theorem Sound.remove {t : RoutingTable} (ht : t.Sound) (id : Identity) :
    (t.remove id).2.Sound := by
  intro i
  rw [identity_remove]
  refine bucket_remove_of_step (P := (·.SoundAt t.identity i)) (ht i) fun _ was b' s => ?_
  refine ⟨s.height.trans (ht i).height, s.sound (ht i).lists, fun d hd => ?_⟩
  obtain ⟨e, he, hid, haddr⟩ := s.mem_held hd
  exact ((ht i).home e he).congr hid haddr

theorem Sound.evict {t : RoutingTable} (ht : t.Sound) (id : Identity) :
    (t.evict id).2.Sound := by
  intro i
  rw [identity_evict]
  refine bucket_evict_of_step (P := (·.SoundAt t.identity i)) (ht i) fun _ was b' s => ?_
  exact ⟨s.height.trans (ht i).height, s.sound (ht i).lists,
    fun d hd => (ht i).home d (s.mem_held hd)⟩

theorem Sound.setSelf {t : RoutingTable} (ht : t.Sound) (clock : Clock) (c : Contact) :
    (t.setSelf clock c).Sound := by
  unfold RoutingTable.setSelf
  split
  · exact ht
  · exact (sound_new c).pushFrom clock 0 _

theorem Sound.apply {t : RoutingTable} (ht : t.Sound) (o : Operation) : (o.apply t).Sound := by
  cases o with
  | push now c => exact ht.push now c
  | remove id => exact ht.remove id
  | evict id => exact ht.evict id
  | setSelf clock c => exact ht.setSelf clock c

theorem Sound.run {t : RoutingTable} (ht : t.Sound) (os : List Operation) : (t.run os).Sound := by
  induction os generalizing t with
  | nil => exact ht
  | cons o os ih => exact ih (ht.apply o)

end RoutingTable

/-! ## Invariants of buckets -/

/-- Holds of empty buckets, and the steps of a bucket keep it, whatever table it belongs to. -/
structure Bucket.Invariant (P : Bucket → Prop) : Prop where
  empty (h : UInt8) : P (Bucket.empty h)
  push {now : Time} {c : Contact} {b b' : Bucket} {o : PushOutcome} :
    Bucket.PushStep now c b o b' → P b → P b'
  remove {id : Identity} {b b' : Bucket} {was : Bool} : Bucket.RemoveStep id b was b' → P b → P b'
  evict {id : Identity} {b b' : Bucket} {was : Bool} : Bucket.EvictStep id b was b' → P b → P b'

namespace Bucket.Invariant

variable {P : Bucket → Prop} {t : RoutingTable}

theorem new (hP : Invariant P) (self : Contact) (i : Fin 160) :
    P ((RoutingTable.new self).bucket i) := by
  rw [RoutingTable.bucket_new]
  exact hP.empty _

theorem pushFrom (hP : Invariant P) (h : ∀ i, P (t.bucket i)) (clock : Clock) (k : Nat)
    (cs : List Contact) (i : Fin 160) : P ((t.pushFrom clock k cs).bucket i) := by
  induction cs generalizing k t with
  | nil => exact h i
  | cons c cs ih =>
    exact ih (fun j => RoutingTable.bucket_push_of_step (h j) fun _ _ _ _ s => hP.push s (h j)) _

theorem apply (hP : Invariant P) (h : ∀ i, P (t.bucket i)) (o : RoutingTable.Operation)
    (i : Fin 160) : P ((o.apply t).bucket i) := by
  cases o with
  | push now c => exact RoutingTable.bucket_push_of_step (h i) fun _ _ _ _ s => hP.push s (h i)
  | remove id => exact RoutingTable.bucket_remove_of_step (h i) fun _ _ _ s => hP.remove s (h i)
  | evict id => exact RoutingTable.bucket_evict_of_step (h i) fun _ _ _ s => hP.evict s (h i)
  | setSelf clock c =>
    rw [RoutingTable.Operation.apply, RoutingTable.setSelf]
    split
    · exact h i
    · exact hP.pushFrom (hP.new c) clock 0 _ i

theorem run (hP : Invariant P) (h : ∀ i, P (t.bucket i)) (os : List RoutingTable.Operation)
    (i : Fin 160) : P ((t.run os).bucket i) := by
  induction os generalizing t with
  | nil => exact h i
  | cons o os ih => exact ih fun j => hP.apply h o j

end Bucket.Invariant

end SearchOverlay
