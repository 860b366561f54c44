import Mathlib.Data.List.Flatten
import SearchOverlay.Proofs.RoutingTable.Reachable

/-!
# Writing a table and reading it back

A sound table whose own address is short enough can be written, and `needs_read` says that it
can be read again: `reread` is what comes back, with the first of several contacts of one
identity. If no identity is held twice, every bucket comes back as it was. The reader goes
through the buckets in the order in which they were written: `partialDraft t self k` is what it
has then after the first `k` of them.

Nothing that was written ends early: wherever a stored form is cut, the reader is short of
input there, whatever it has taken up before, and none of its other checks comes first. What
follows the stored form is not looked at. So no stored form continues another one.
-/

namespace SearchOverlay.RoutingTable

/-! ## Writing -/

theorem encodeEach_cons_eq_ok_iff {α : Type} {f : α → Except CodecError Bytes} {a : α} {as : List α}
    {b : Bytes} : encodeEach f (a :: as) = .ok b ↔
      ∃ x y, f a = .ok x ∧ encodeEach f as = .ok y ∧ b = x ++ y := by
  rw [encodeEach]
  cases f a with
  | error e => simp
  | ok x =>
    cases encodeEach f as with
    | error e => simp
    | ok y => simp [eq_comm]

theorem exists_encodeEach {α : Type} {f : α → Except CodecError Bytes} {as : List α}
    (h : ∀ a ∈ as, ∃ x, f a = .ok x) : ∃ b, encodeEach f as = .ok b := by
  induction as with
  | nil => exact ⟨[], rfl⟩
  | cons a as ih =>
    obtain ⟨x, hx⟩ := h a List.mem_cons_self
    obtain ⟨y, hy⟩ := ih fun a' ha' => h a' (List.mem_cons_of_mem _ ha')
    exact ⟨x ++ y, encodeEach_cons_eq_ok_iff.mpr ⟨x, y, hx, hy, rfl⟩⟩

theorem exists_encodeRow {k : Bool} {c : Contact} (h : c.address.utf8ByteSize ≤ maxAddress) :
    ∃ b, encodeRow k c = .ok b :=
  ⟨_, encodeRow_eq_ok_iff.mpr ⟨_, encodeAddress_eq_ok_iff.mpr ⟨h, rfl⟩, rfl⟩⟩

theorem encodeEach_append_eq_ok_iff {α : Type} {f : α → Except CodecError Bytes} {as as' : List α}
    {b : Bytes} : encodeEach f (as ++ as') = .ok b ↔
      ∃ x y, encodeEach f as = .ok x ∧ encodeEach f as' = .ok y ∧ b = x ++ y := by
  induction as generalizing b with
  | nil => simp [encodeEach, eq_comm]
  | cons a as ih =>
    rw [List.cons_append, encodeEach_cons_eq_ok_iff]
    constructor
    · rintro ⟨x, yz, hx, hyz, rfl⟩
      obtain ⟨y, z, hy, hz, rfl⟩ := ih.mp hyz
      exact ⟨_, z, encodeEach_cons_eq_ok_iff.mpr ⟨x, y, hx, hy, rfl⟩, hz, by simp⟩
    · rintro ⟨xy, z, hxy, hz, rfl⟩
      obtain ⟨x, y, hx, hy, rfl⟩ := encodeEach_cons_eq_ok_iff.mp hxy
      exact ⟨x, y ++ z, hx, ih.mpr ⟨y, z, hy, hz, rfl⟩, by simp⟩

theorem encodeEach_map {α β : Type} (f : β → Except CodecError Bytes) (g : α → β) (as : List α) :
    encodeEach f (as.map g) = encodeEach (fun a => f (g a)) as := by
  induction as with
  | nil => rfl
  | cons a as ih => simp only [List.map_cons, encodeEach, ih]

/-- A row together with its kind. -/
def encodeEntry (r : Bool × Contact) : Except CodecError Bytes := encodeRow r.1 r.2

/-- The rows of a bucket in the order in which they are written. -/
def rows (b : Bucket) : List (Bool × Contact) :=
  b.active.map (false, ·) ++ b.replacements.map (true, ·)

@[simp] theorem map_snd_rows (b : Bucket) : (rows b).map Prod.snd = b.held := by
  simp [rows, Bucket.held, Function.comp_def]

theorem mem_held_of_mem_rows {r : Bool × Contact} {b : Bucket} (h : r ∈ rows b) : r.2 ∈ b.held := by
  rw [← map_snd_rows]
  exact List.mem_map_of_mem h

@[simp] theorem length_rows (b : Bucket) :
    (rows b).length = b.active.length + b.replacements.length := by
  simp [rows]

theorem encodeBucket_eq_ok_iff {b : Bucket} {bytes : Bytes} : encodeBucket b = .ok bytes ↔
    (rows b).length ≤ 255 ∧ ∃ z, encodeEach encodeEntry (rows b) = .ok z ∧
      bytes = b.height :: UInt8.ofNat (rows b).length :: z := by
  have hrows : ∀ z, encodeEach encodeEntry (rows b) = .ok z ↔
      ∃ x y, encodeEach (encodeRow false) b.active = .ok x ∧
        encodeEach (encodeRow true) b.replacements = .ok y ∧ z = x ++ y := fun z => by
    rw [rows, encodeEach_append_eq_ok_iff, encodeEach_map, encodeEach_map]
    rfl
  simp only [hrows, length_rows, encodeBucket]
  split
  · next hle =>
    cases encodeEach (encodeRow false) b.active with
    | error e => simp
    | ok x =>
      cases encodeEach (encodeRow true) b.replacements with
      | error e => simp
      | ok y => simp [hle, eq_comm]
  · next hgt => simp [hgt]

theorem Sound.exists_encodeBucket {t : RoutingTable} (ht : t.Sound) (i : Fin 160) :
    ∃ x, encodeBucket (t.bucket i) = .ok x := by
  obtain ⟨-, ⟨hactive, hrepl, -⟩, hhome⟩ := ht i
  have hcap : Bucket.capacity = 20 := rfl
  obtain ⟨z, hz⟩ : ∃ z, encodeEach encodeEntry (rows (t.bucket i)) = .ok z := by
    apply exists_encodeEach
    intro r hr
    exact exists_encodeRow (hhome r.2 (mem_held_of_mem_rows hr)).short
  exact ⟨_, encodeBucket_eq_ok_iff.mpr ⟨by rw [length_rows]; omega, z, hz, rfl⟩⟩

theorem encode_eq_ok_iff {t : RoutingTable} {b : Bytes} : encode t = .ok b ↔
    ∃ x y, encodeAddress t.self.address = .ok x ∧
      encodeEach encodeBucket t.buckets.toList = .ok y ∧ b = t.identity.toBytes ++ (x ++ y) := by
  unfold encode
  cases encodeAddress t.self.address with
  | error e => simp
  | ok x =>
    cases encodeEach encodeBucket t.buckets.toList with
    | error e => simp
    | ok y => simp [eq_comm]

/-- Nothing but the own address can keep a sound table from being written. -/
theorem Sound.exists_encode {t : RoutingTable} (ht : t.Sound)
    (hself : t.self.address.utf8ByteSize ≤ maxAddress) : ∃ b, encode t = .ok b := by
  obtain ⟨y, hy⟩ : ∃ y, encodeEach encodeBucket t.buckets.toList = .ok y :=
    exists_encodeEach fun b hb => by
      obtain ⟨i, hi, rfl⟩ := List.mem_iff_getElem.mp hb
      exact ht.exists_encodeBucket ⟨i, by simpa using hi⟩
  exact ⟨_, encode_eq_ok_iff.mpr ⟨_, y, encodeAddress_eq_ok_iff.mpr ⟨hself, rfl⟩, hy, rfl⟩⟩

/-! ## Reading the rows of a bucket -/

def addRows (rs : List (Bool × Contact)) (b : Bucket) : Bucket :=
  rs.foldl (fun b r => addRow r.1 r.2 b) b

theorem addRows_append (rs rs' : List (Bool × Contact)) (b : Bucket) :
    addRows (rs ++ rs') b = addRows rs' (addRows rs b) := List.foldl_append

theorem addRows_active (cs : List Contact) (b : Bucket) :
    addRows (cs.map (false, ·)) b = { b with active := b.active ++ cs } := by
  induction cs generalizing b with
  | nil => simp [addRows]
  | cons c cs ih =>
    rw [List.map_cons, addRows, List.foldl_cons]
    exact (ih _).trans (by simp [addRow])

theorem addRows_replacements (cs : List Contact) (b : Bucket) :
    addRows (cs.map (true, ·)) b = { b with replacements := b.replacements ++ cs } := by
  induction cs generalizing b with
  | nil => simp [addRows]
  | cons c cs ih =>
    rw [List.map_cons, addRows, List.foldl_cons]
    exact (ih _).trans (by simp [addRow])

/-- The rows of a bucket fill an empty one. -/
theorem addRows_rows (b : Bucket) : addRows (rows b) (Bucket.empty b.height) = b := by
  rw [rows, addRows_append, addRows_active, addRows_replacements]
  simp [Bucket.empty]

def countOf (k : Bool) (rs : List (Bool × Contact)) : Nat := rs.countP fun r => r.1 == k

theorem countOf_rows (k : Bool) (b : Bucket) : countOf k (rows b) = (rowsOf k b).length := by
  cases k <;> simp [countOf, rows, rowsOf, List.countP_append, List.countP_map, Function.comp_def]

theorem length_rowsOf_addRow (k l : Bool) (c : Contact) (b : Bucket) :
    (rowsOf k (addRow l c b)).length = (rowsOf k b).length + if l = k then 1 else 0 := by
  cases k <;> cases l <;> simp [rowsOf, addRow]

/-- Takes up a row that is at home, unless its identity was met before. -/
def Draft.take (i : Fin 160) (r : Bool × Contact) (d : Draft) : Draft :=
  if r.2.identity ∈ d.seen then d
  else ⟨d.table.setBucket i (addRow r.1 r.2 (d.table.bucket i)), r.2.identity :: d.seen⟩

/-- Takes up rows one after the other. -/
def Draft.takeAll (i : Fin 160) (rs : List (Bool × Contact)) (d : Draft) : Draft :=
  rs.foldl (fun d r => d.take i r) d

@[simp] theorem Draft.self_take (i : Fin 160) (r : Bool × Contact) (d : Draft) :
    (d.take i r).table.self = d.table.self := by
  unfold take
  split <;> rfl

theorem Draft.bucket_take_of_ne {i j : Fin 160} (h : i ≠ j) (r : Bool × Contact) (d : Draft) :
    (d.take i r).table.bucket j = d.table.bucket j := by
  unfold take
  split
  · rfl
  · rw [bucket_setBucket, if_neg h]

theorem Draft.length_rowsOf_take (k : Bool) (i : Fin 160) (r : Bool × Contact) (d : Draft) :
    (rowsOf k ((d.take i r).table.bucket i)).length ≤
      (rowsOf k (d.table.bucket i)).length + if r.1 = k then 1 else 0 := by
  unfold take
  split
  · exact Nat.le_add_right _ _
  · exact Nat.le_of_eq (by rw [bucket_setBucket_self, length_rowsOf_addRow])

@[simp] theorem Draft.self_takeAll (i : Fin 160) (rs : List (Bool × Contact)) (d : Draft) :
    (d.takeAll i rs).table.self = d.table.self := by
  induction rs generalizing d with
  | nil => rfl
  | cons r rs ih => exact (ih (d.take i r)).trans (d.self_take i r)

theorem Draft.bucket_takeAll_of_ne {i j : Fin 160} (h : i ≠ j) (rs : List (Bool × Contact))
    (d : Draft) : (d.takeAll i rs).table.bucket j = d.table.bucket j := by
  induction rs generalizing d with
  | nil => rfl
  | cons r rs ih => exact (ih (d.take i r)).trans (bucket_take_of_ne h r d)

theorem Draft.takeAll_of_new (i : Fin 160) {rs : List (Bool × Contact)} {d : Draft}
    (hnew : ∀ id ∈ ids (rs.map Prod.snd), id ∉ d.seen) (honce : (ids (rs.map Prod.snd)).Nodup) :
    d.takeAll i rs = ⟨d.table.setBucket i (addRows rs (d.table.bucket i)),
      (ids (rs.map Prod.snd)).reverse ++ d.seen⟩ := by
  induction rs generalizing d with
  | nil => simp [takeAll, addRows]
  | cons r rs ih =>
    obtain ⟨hr, honce⟩ := List.nodup_cons.mp honce
    have htake : d.take i r = ⟨d.table.setBucket i (addRow r.1 r.2 (d.table.bucket i)),
        r.2.identity :: d.seen⟩ := if_neg (hnew _ List.mem_cons_self)
    have hnew' : ∀ id ∈ ids (rs.map Prod.snd), id ∉ (d.take i r).seen := fun id hid => by
      rw [htake, List.mem_cons, not_or]
      refine ⟨?_, hnew id (List.mem_cons_of_mem _ hid)⟩
      rintro rfl
      exact hr hid
    have hrest := ih hnew' honce
    rw [htake] at hrest
    rw [takeAll, List.foldl_cons, htake]
    simpa [takeAll, addRows] using hrest

theorem Draft.add_of_home {d : Draft} {i : Fin 160} {r : Bool × Contact} (h : UInt8)
    (hr : AtHome d.table.identity i r.2)
    (hroom : (rowsOf r.1 (d.table.bucket i)).length < Bucket.capacity) :
    d.add h i r = .ok (d.take i r) := by
  have hat : d.table.index r.2.identity = i := Fin.ext hr.height
  by_cases hseen : r.2.identity ∈ d.seen
  · simp [add, take, hseen]
  · simpa [add, take, hseen, hr.ne_self, hat] using hroom

/-- Rows that are at home and within the capacity are read into their bucket. -/
theorem needs_rows (h : UInt8) (i : Fin 160) {rs : List (Bool × Contact)} {bytes : Bytes}
    (hbytes : encodeEach encodeEntry rs = .ok bytes) {d : Draft}
    (hhome : ∀ r ∈ rs, AtHome d.table.identity i r.2)
    (hroom : ∀ k, (rowsOf k (d.table.bucket i)).length + countOf k rs ≤ Bucket.capacity) :
    Needs (readRows h i rs.length d) bytes (d.takeAll i rs) := by
  induction rs generalizing d bytes with
  | nil =>
    cases hbytes
    exact .pure d
  | cons r rs ih =>
    obtain ⟨x, y, hx, hy, rfl⟩ := encodeEach_cons_eq_ok_iff.mp hbytes
    have hcount : ∀ k, countOf k (r :: rs) = countOf k rs + if r.1 = k then 1 else 0 := fun k => by
      simp [countOf, List.countP_cons]
    have hfits : (rowsOf r.1 (d.table.bucket i)).length < Bucket.capacity := by
      have hk := hroom r.1
      rw [hcount, if_pos rfl] at hk
      omega
    refine (needs_row hx).bind ?_
    rw [Draft.add_of_home h (hhome r List.mem_cons_self) hfits]
    refine ih hy (fun r' hr' => ?_) fun k => ?_
    · have hr := hhome r' (List.mem_cons_of_mem _ hr')
      rwa [identity, ← d.self_take i r] at hr
    · have hk := hroom k
      have htake := d.length_rowsOf_take k i r
      rw [hcount] at hk
      omega

/-- The section of a bucket of which nothing was read before is read. -/
theorem Sound.needs_section {t : RoutingTable} (ht : t.Sound) {i : Fin 160} {bytes : Bytes}
    (hbytes : encodeBucket (t.bucket i) = .ok bytes) {d : Draft}
    (hself : d.table.identity = t.identity) {h : UInt8} (hempty : d.table.bucket i = .empty h) :
    Needs (readSection d) bytes (d.takeAll i (rows (t.bucket i))) := by
  obtain ⟨hlen, z, hz, rfl⟩ := encodeBucket_eq_ok_iff.mp hbytes
  obtain ⟨hi, hlists, hhome⟩ := ht i
  have hlt : (t.bucket i).height.toNat < 160 := by omega
  have hfin : (⟨(t.bucket i).height.toNat, hlt⟩ : Fin 160) = i := Fin.ext hi
  have hcount : (UInt8.ofNat (rows (t.bucket i)).length).toNat = (rows (t.bucket i)).length := by
    rw [UInt8.toNat_ofNat', Nat.mod_eq_of_lt]
    omega
  rw [← List.singleton_append, ← List.singleton_append (l := z)]
  refine (needs_byte _).bind ?_
  rw [dif_pos hlt]
  refine (needs_byte _).bind ?_
  rw [hcount, hfin]
  refine needs_rows _ i hz (fun r hr => ?_) fun k => ?_
  · rw [hself]
    exact hhome r.2 (mem_held_of_mem_rows hr)
  · rw [hempty, countOf_rows]
    cases k with
    | false => simpa [rowsOf, Bucket.empty] using hlists.active_le
    | true => simpa [rowsOf, Bucket.empty] using hlists.replacements_le

/-! ## Reading a table -/

/-- Takes up the rows of buckets of a table one after the other. -/
def takeBuckets (t : RoutingTable) (is : List (Fin 160)) (d : Draft) : Draft :=
  is.foldl (fun d i => d.takeAll i (rows (t.bucket i))) d

theorem takeBuckets_append (t : RoutingTable) (is is' : List (Fin 160)) (d : Draft) :
    t.takeBuckets (is ++ is') d = t.takeBuckets is' (t.takeBuckets is d) := List.foldl_append

theorem Sound.needs_sections {t : RoutingTable} (ht : t.Sound) {is : List (Fin 160)}
    (hnodup : is.Nodup) {bytes : Bytes}
    (hbytes : encodeEach encodeBucket (is.map t.bucket) = .ok bytes) {d : Draft}
    (hself : d.table.identity = t.identity)
    (hempty : ∀ i ∈ is, ∃ h, d.table.bucket i = .empty h) :
    Needs (readSections is.length d) bytes (t.takeBuckets is d) := by
  induction is generalizing d bytes with
  | nil =>
    cases hbytes
    exact .pure d
  | cons i is ih =>
    obtain ⟨hi, hnodup⟩ := List.nodup_cons.mp hnodup
    obtain ⟨x, y, hx, hy, rfl⟩ := encodeEach_cons_eq_ok_iff.mp hbytes
    obtain ⟨h, hd⟩ := hempty i List.mem_cons_self
    refine (ht.needs_section hx hself hd).bind (ih hnodup hy ?_ fun j hj => ?_)
    · rwa [identity, d.self_takeAll]
    · obtain ⟨h', hd'⟩ := hempty j (List.mem_cons_of_mem _ hj)
      have hij : i ≠ j := fun he => hi (he ▸ hj)
      exact ⟨h', (d.bucket_takeAll_of_ne hij _).trans hd'⟩

/-- What comes back of a table that was written, with the own contact as seen now. -/
def reread (now : Time) (t : RoutingTable) : RoutingTable :=
  let d := t.takeBuckets (List.finRange 160) ⟨new (.fresh now t.identity t.self.address), []⟩
  { d.table with buckets := d.table.buckets.map sortReplacements }

theorem Sound.needs_read {t : RoutingTable} (ht : t.Sound) {b : Bytes} (hb : encode t = .ok b)
    (now : Time) : Needs (read now) b (t.reread now) := by
  obtain ⟨x, y, hx, hy, rfl⟩ := encode_eq_ok_iff.mp hb
  rw [toList_buckets] at hy
  have hsections := ht.needs_sections (List.nodup_finRange 160) hy
    (d := ⟨new (.fresh now t.identity t.self.address), []⟩) rfl
    fun i _ => ⟨UInt8.ofNat i, bucket_new _ i⟩
  rw [List.length_finRange] at hsections
  rw [← List.append_nil y]
  exact (needs_identity _).bind ((needs_address hx).bind (hsections.bind (.pure _)))

theorem Needs.decode_append {now : Time} {b : Bytes} {t : RoutingTable} (h : Needs (read now) b t)
    (x : Bytes) : decode now (b ++ x) = .ok t := by
  rw [decode, StateT.run, h.reads]

/-! ## Reading a table that holds no identity twice -/

/-- What has been read of a table after its first `k` buckets. -/
def partialDraft (t : RoutingTable) (self : Contact) (k : Nat) : Draft :=
  ⟨⟨self, Vector.ofFn fun i => if i < k then t.bucket i else Bucket.empty (UInt8.ofNat i)⟩,
    (ids ((t.buckets.toList.take k).flatMap Bucket.held)).reverse⟩

theorem partialDraft_zero (t : RoutingTable) (self : Contact) :
    partialDraft t self 0 = ⟨new self, []⟩ := by
  simp [partialDraft, new, emptyBuckets]

theorem partialDraft_all (t : RoutingTable) (self : Contact) :
    (partialDraft t self 160).table = ⟨self, t.buckets⟩ := by
  exact ext_bucket rfl fun i => by simp [partialDraft, bucket]

/-- The bucket that is read next is empty so far, with the height that it will have. -/
theorem Sound.partialDraft_bucket {t : RoutingTable} (ht : t.Sound) (self : Contact) (i : Fin 160) :
    (partialDraft t self i).table.bucket i = Bucket.empty (t.bucket i).height := by
  rw [(ht i).height_eq]
  simp [partialDraft, bucket]

theorem ids_take_succ (t : RoutingTable) (i : Fin 160) :
    ids ((t.buckets.toList.take (i + 1)).flatMap Bucket.held) =
      ids ((t.buckets.toList.take i).flatMap Bucket.held) ++ ids (t.bucket i).held := by
  have hi : i.val < t.buckets.toList.length := by simp
  rw [List.take_succ_eq_append_getElem hi, List.flatMap_append, ids, List.map_append]
  simp [bucket]

theorem Sound.partialDraft_succ {t : RoutingTable} (ht : t.Sound) (self : Contact) (i : Fin 160) :
    let d := partialDraft t self i
    partialDraft t self (i + 1) =
      ⟨d.table.setBucket i (addRows (rows (t.bucket i)) (d.table.bucket i)),
        (ids ((rows (t.bucket i)).map Prod.snd)).reverse ++ d.seen⟩ := by
  intro d
  rw [ht.partialDraft_bucket self i, addRows_rows, map_snd_rows]
  have htable : (partialDraft t self (i + 1)).table = d.table.setBucket i (t.bucket i) := by
    refine ext_bucket rfl fun j => ?_
    rw [bucket_setBucket]
    simp only [d, partialDraft, bucket, Fin.getElem_fin, Vector.getElem_ofFn]
    rcases Nat.lt_trichotomy j i with hlt | heq | hgt
    · rw [if_pos (by omega), if_neg (by omega), if_pos hlt]
    · rw [if_pos (by omega), if_pos (by omega)]
      simp only [heq]
    · rw [if_neg (by omega), if_neg (by omega), if_neg (by omega)]
  have hseen : (partialDraft t self (i + 1)).seen = (ids (t.bucket i).held).reverse ++ d.seen := by
    simp only [d, partialDraft, ids_take_succ, List.reverse_append]
  rw [← htable, ← hseen]

theorem HeldOnce.apart {t : RoutingTable} (honce : t.HeldOnce) (i : Fin 160) :
    (ids (t.bucket i).held).Nodup ∧ ∀ id ∈ ids (t.bucket i).held,
      id ∉ ids ((t.buckets.toList.take i).flatMap Bucket.held) := by
  have hnodup := honce.sublist (((List.take_sublist (i + 1) t.buckets.toList).flatMap _).map _)
  rw [← ids, ids_take_succ, List.nodup_append] at hnodup
  obtain ⟨-, hbucket, hapart⟩ := hnodup
  exact ⟨hbucket, fun id hid hmet => hapart id hmet id hid rfl⟩

theorem Sound.takeBuckets_take {t : RoutingTable} (ht : t.Sound) (honce : t.HeldOnce)
    (self : Contact) {k : Nat} (hk : k ≤ 160) :
    t.takeBuckets ((List.finRange 160).take k) ⟨new self, []⟩ = partialDraft t self k := by
  induction k with
  | zero => exact (partialDraft_zero t self).symm
  | succ k ih =>
    have hlt : k < (List.finRange 160).length := by
      rw [List.length_finRange]
      exact hk
    let i : Fin 160 := ⟨k, hk⟩
    obtain ⟨hbucket, hapart⟩ := honce.apart i
    rw [List.take_succ_eq_append_getElem hlt, List.getElem_finRange, takeBuckets_append,
      ih (Nat.le_of_succ_le hk)]
    refine (Draft.takeAll_of_new i (fun id hid hseen => ?_) ?_).trans
      (ht.partialDraft_succ self i).symm
    · rw [map_snd_rows] at hid
      exact hapart id hid (List.mem_reverse.mp hseen)
    · rwa [map_snd_rows]

theorem Sound.reread_of_heldOnce {t : RoutingTable} (ht : t.Sound) (honce : t.HeldOnce)
    (now : Time) : t.reread now = { t with self := .fresh now t.self.identity t.self.address } := by
  have hall := ht.takeBuckets_take honce (.fresh now t.identity t.self.address) (Nat.le_refl 160)
  rw [List.take_of_length_le (by simp)] at hall
  simp only [reread, hall, partialDraft_all]
  refine ext_bucket rfl fun i => (bucket_map ⟨_, t.buckets⟩ _ i).trans ?_
  exact congrArg ({ t.bucket i with replacements := · })
    (Bucket.sortBySeen_of_sorted (ht i).lists.sorted)

theorem Sound.decode_of_encode {t : RoutingTable} (ht : t.Sound) (honce : t.HeldOnce) {b : Bytes}
    (hb : encode t = .ok b) (now : Time) :
    decode now b = .ok { t with self := .fresh now t.self.identity t.self.address } := by
  have hread := (ht.needs_read hb now).decode_append []
  rwa [List.append_nil, ht.reread_of_heldOnce honce] at hread

/-- Every reachable table with a short own address can be written, and is read back if it holds
no identity twice. What was read once is read back whenever it is written. -/
theorem decode_encode_reachable :
    (∀ t : RoutingTable, t.Reachable → t.self.address.utf8ByteSize ≤ 255 →
      ∃ b, encode t = .ok b ∧ (t.HeldOnce → ∀ now,
        decode now b = .ok { t with self := .fresh now t.self.identity t.self.address })) ∧
    ∀ now b t, decode now b = .ok t → ∃ b', encode t = .ok b' ∧ ∀ now',
      decode now' b' = .ok { t with self := { t.self with lastSeen := now' } } := by
  constructor
  · intro t ht hshort
    obtain ⟨b, hb⟩ := ht.sound.exists_encode hshort
    exact ⟨b, hb, fun honce now => ht.sound.decode_of_encode honce hb now⟩
  · intro now b t hread
    obtain ⟨hs, honce, hshort, hstale⟩ := yields_decode hread
    obtain ⟨b', hb'⟩ := hs.exists_encode hshort
    refine ⟨b', hb', fun now' => ?_⟩
    rw [hs.decode_of_encode honce hb' now', Contact.fresh, ← hstale]

/-- For a table with a full bucket in which two contacts wait. -/
theorem decode_encode_of_full :
    let t := (new ⟨.zero, "s", 1, 0⟩).run overfilling
    t.HeldOnce ∧ (t.bucket 159).active.length = 20 ∧ (t.bucket 159).replacements.length = 2 ∧
      ∃ b t', encode t = .ok b ∧ decode 9 b = .ok t' ∧ t'.buckets = t.buckets ∧
      ∃ b', encode t' = .ok b' ∧
        decode 12 b' = .ok { t' with self := { t'.self with lastSeen := 12 } } := by
  intro t
  have honce : t.HeldOnce := by decide +kernel
  have ht : t.Reachable := ⟨_, _, .new _, rfl⟩
  have hshort : t.self.address.utf8ByteSize ≤ 255 := by decide +kernel
  have hactive : (t.bucket 159).active.length = 20 := by decide +kernel
  have hwaiting : (t.bucket 159).replacements.length = 2 := by decide +kernel
  clear_value t
  obtain ⟨b, hb, hread⟩ := decode_encode_reachable.1 t ht hshort
  obtain ⟨b', hb', hread'⟩ := decode_encode_reachable.2 9 b _ (hread honce 9)
  exact ⟨honce, hactive, hwaiting, b, _, hb, hread honce 9, rfl, b', hb', hread' 12⟩

/-! ## Cut and continued forms -/

theorem Needs.decode_short {now : Time} {b p : Bytes} {t : RoutingTable} (h : Needs (read now) b t)
    (hp : p <+: b) (hne : p ≠ b) : ∃ k ≤ p.length, decode now p = .error (.truncated k) := by
  obtain ⟨k, hk, hshort⟩ := h.short 0 p hp hne
  rw [Nat.zero_add] at hk
  refine ⟨k, hk, ?_⟩
  rw [decode, StateT.run, hshort]

/-- A stored form that begins with another one is that one. -/
theorem Sound.encode_prefix_free {t t' : RoutingTable} (ht : t.Sound) (ht' : t'.Sound)
    {b b' : Bytes} (hb : encode t = .ok b) (hb' : encode t' = .ok b') (hp : b <+: b') : b = b' := by
  by_contra hne
  obtain ⟨k, -, hshort⟩ := (ht'.needs_read hb' 0).decode_short hp hne
  have hread := (ht.needs_read hb 0).decode_append []
  rw [List.append_nil, hshort] at hread
  cases hread

/-- What was written of a reachable table cannot be read when it is cut, and is read as it is
when it is continued. -/
theorem decode_cut_or_continued {t : RoutingTable} (ht : t.Reachable) {b : Bytes}
    (hb : encode t = .ok b) (now : Time) :
    (∀ p, p <+: b → p ≠ b → ∃ k ≤ p.length, decode now p = .error (.truncated k)) ∧
      ∃ t', decode now b = .ok t' ∧ ∀ x, decode now (b ++ x) = .ok t' := by
  have hneeds := ht.sound.needs_read hb now
  refine ⟨fun p hp hne => hneeds.decode_short hp hne, t.reread now, ?_, hneeds.decode_append⟩
  have hread := hneeds.decode_append []
  rwa [List.append_nil] at hread

/-- For a table that holds a contact twice. -/
theorem decode_cut_or_continued_crowding :
    let t := (new ⟨.zero, "s", 1, 0⟩).run crowding
    ¬ t.HeldOnce ∧ ∃ b t', encode t = .ok b ∧ decode 9 (b ++ [7]) = .ok t' ∧
      ∃ k ≤ b.dropLast.length, decode 9 b.dropLast = .error (.truncated k) := by
  intro t
  have htwice : ¬ t.HeldOnce := by decide +kernel
  have ht : t.Reachable := ⟨_, _, .new _, rfl⟩
  have hshort : t.self.address.utf8ByteSize ≤ maxAddress := by decide +kernel
  clear_value t
  obtain ⟨b, hb⟩ := ht.sound.exists_encode hshort
  obtain ⟨hcut, t', hread, hcontinued⟩ := decode_cut_or_continued ht hb 9
  have hne : b.dropLast ≠ b := fun he => by
    obtain ⟨x, y, -, -, rfl⟩ := encode_eq_ok_iff.mp hb
    have hlen := congrArg List.length he
    have hid : idBytes = 20 := rfl
    simp only [List.length_dropLast, List.length_append, Identity.length_toBytes] at hlen
    omega
  exact ⟨htwice, b, t', hb, hcontinued [7], hcut _ b.dropLast_prefix hne⟩

end SearchOverlay.RoutingTable
