import SearchOverlay.RoutingTable.Codec

/-!
# Readers

Two things are said of a reader: `Yields p Q`, that whatever it reads has the property `Q`,
and `Needs p b a`, that it reads `a` from the bytes `b`, whatever follows them, and from no
fewer. Both pass through a sequence of readers, so a statement about a row or a table is put
together from those about its items. `needs_row` is the round trip of one row.
-/

namespace SearchOverlay.RoutingTable

variable {α β : Type}

/-- Whatever the reader reads has the property. -/
def Yields (p : Reader α) (Q : α → Prop) : Prop := ∀ c a c', p c = .ok (a, c') → Q a

/-- The reader reads the value from these bytes and leaves what follows. -/
def Reads (p : Reader α) (b : Bytes) (a : α) : Prop :=
  ∀ pos r, p ⟨pos, b ++ r⟩ = .ok (a, ⟨pos + b.length, r⟩)

/-- The reader reads the value from these bytes, and is short of input when they are cut off
anywhere. -/
structure Needs (p : Reader α) (b : Bytes) (a : α) : Prop where
  reads : Reads p b a
  short : ∀ pos q, q <+: b → q ≠ b → ∃ k ≤ pos + q.length, p ⟨pos, q⟩ = .error (.truncated k)

theorem bind_apply (p : Reader α) (f : α → Reader β) (c : Cursor) :
    (p >>= f) c = (p c).bind fun r => f r.1 r.2 := rfl

theorem Yields.true (p : Reader α) : Yields p fun _ => True := fun _ _ _ _ => trivial

theorem Yields.imp {p : Reader α} {P Q : α → Prop} (hp : Yields p P) (h : ∀ a, P a → Q a) :
    Yields p Q := fun c a c' e => h a (hp c a c' e)

theorem Yields.pure {Q : α → Prop} {a : α} (h : Q a) : Yields (pure a) Q := by
  intro c a' c' e
  cases e
  exact h

theorem Yields.throw (e : CodecError) (Q : α → Prop) : Yields (throw e) Q := by
  intro c a c' h
  cases h

theorem Yields.bind {p : Reader α} {f : α → Reader β} {P : α → Prop} {Q : β → Prop}
    (hp : Yields p P) (hf : ∀ a, P a → Yields (f a) Q) : Yields (p >>= f) Q := by
  intro c b c' h
  rw [bind_apply] at h
  cases hr : p c with
  | error e => rw [hr] at h; cases h
  | ok r =>
    rw [hr] at h
    exact hf r.1 (hp c r.1 r.2 hr) r.2 b c' h

theorem Needs.pure (a : α) : Needs (pure a) [] a where
  reads _ _ := rfl
  short _ _ hq hne := absurd (List.prefix_nil.mp hq) hne

theorem Needs.bind {p : Reader α} {f : α → Reader β} {b b' : Bytes} {a : α} {a' : β}
    (hp : Needs p b a) (hf : Needs (f a) b' a') : Needs (p >>= f) (b ++ b') a' where
  reads pos r := by
    rw [bind_apply, List.append_assoc, hp.reads]
    have h := hf.reads (pos + b.length) r
    rwa [Nat.add_assoc, ← List.length_append] at h
  short pos q hq hne := by
    rw [bind_apply]
    by_cases hb : b <+: q
    · obtain ⟨q', rfl⟩ := hb
      have hq' : q' <+: b' := (List.prefix_append_right_inj b).mp hq
      have hne' : q' ≠ b' := fun h => hne (congrArg (b ++ ·) h)
      obtain ⟨k, hk, hshort⟩ := hf.short (pos + b.length) q' hq' hne'
      rw [Nat.add_assoc, ← List.length_append] at hk
      exact ⟨k, hk, by rw [hp.reads]; exact hshort⟩
    · have hqb : q <+: b :=
        (List.prefix_or_prefix_of_prefix hq (List.prefix_append b b')).resolve_right hb
      have hne' : q ≠ b := fun h => hb (h ▸ List.prefix_refl q)
      obtain ⟨k, hk, hshort⟩ := hp.short pos q hqb hne'
      exact ⟨k, hk, by rw [hshort]; rfl⟩

/-- A reader behind which nothing is left to read. -/
theorem Needs.map {p : Reader α} {b : Bytes} {a : α} (hp : Needs p b a) (f : α → β) :
    Needs (do return f (← p)) b (f a) := by
  have h := hp.bind (f := fun a => Pure.pure (f a)) (Needs.pure (f a))
  rwa [List.append_nil] at h

/-! ## Items -/

theorem needs_bytes {n : Nat} {b : Bytes} (h : b.length = n) : Needs (readBytes n) b b where
  reads pos r := by
    subst h
    simp [readBytes, Bytes.splitAt?_append]
  short pos q hq hne := by
    have hlt : q.length < n := by
      rw [← h]
      exact Nat.lt_of_le_of_ne hq.length_le fun he => hne (hq.eq_of_length he)
    have hnone : Bytes.splitAt? n q = none := by
      simp only [Bytes.splitAt?, List.length_take]
      rw [if_neg (by omega)]
    exact ⟨pos, Nat.le_add_right _ _, by simp only [readBytes, hnone]⟩

theorem needs_byte (x : UInt8) : Needs readByte [x] x where
  reads _ _ := rfl
  short pos q hq hne := by
    obtain rfl : q = [] := (List.prefix_cons_iff.mp hq).resolve_right fun ⟨t, ht, hnil⟩ =>
      hne (by rw [ht, List.prefix_nil.mp hnil])
    exact ⟨pos, Nat.le_add_right _ _, rfl⟩

theorem needs_identity (a : Identity) : Needs readIdentity a.toBytes a := by
  have h := (needs_bytes a.length_toBytes).map fun b => (Identity.ofBytes? b).getD .zero
  rwa [Identity.ofBytes?_toBytes] at h

theorem needs_time (t : Time) : Needs readTime (Bytes.littleEndian 8 t.toNat) t := by
  have h := (needs_bytes (Bytes.length_littleEndian 8 t.toNat)).map fun b =>
    UInt64.ofNat (Bytes.ofLittleEndian b)
  have ht : t.toNat < 256 ^ 8 := t.toNat_lt
  rwa [Bytes.ofLittleEndian_littleEndian, Nat.mod_eq_of_lt ht, UInt64.ofNat_toNat] at h

theorem yields_bytes (n : Nat) : Yields (readBytes n) fun b => b.length = n := by
  intro c b c' h
  unfold readBytes at h
  split at h
  · next b' r hsplit =>
    cases h
    exact (Bytes.splitAt?_eq_some_iff.mp hsplit).2
  · cases h

theorem encodeAddress_eq_ok_iff {s : String} {b : Bytes} : encodeAddress s = .ok b ↔
    s.utf8ByteSize ≤ maxAddress ∧ b = UInt8.ofNat s.utf8ByteSize :: Utf8.encode s := by
  simp only [encodeAddress, Utf8.length_encode]
  by_cases h : s.utf8ByteSize ≤ maxAddress
  · simp [h, eq_comm]
  · simp [h]

theorem needs_address {s : String} {b : Bytes} (h : encodeAddress s = .ok b) :
    Needs readAddress b s := by
  obtain ⟨hle, rfl⟩ := encodeAddress_eq_ok_iff.mp h
  have hlen : (Utf8.encode s).length = (UInt8.ofNat s.utf8ByteSize).toNat := by
    have : maxAddress = 255 := rfl
    simp
    omega
  rw [← List.append_nil (Utf8.encode s), ← List.singleton_append]
  refine (needs_byte _).bind ((needs_bytes hlen).bind ?_)
  rw [Utf8.decode_encode]
  exact .pure s

/-- The length stands in one byte, so no address is too long. -/
theorem yields_address : Yields readAddress fun s => s.utf8ByteSize ≤ maxAddress := by
  refine (Yields.true _).bind fun n _ => (yields_bytes _).bind fun b hb => ?_
  split
  · next s hs =>
    refine .pure ?_
    have hn : n.toNat < 256 := n.toNat_lt
    have : maxAddress = 255 := rfl
    rw [Utf8.encode_of_decode hs, Utf8.length_encode] at hb
    omega
  · exact .throw _ _

/-! ## Rows -/

theorem encodeRow_eq_ok_iff {k : Bool} {c : Contact} {b : Bytes} : encodeRow k c = .ok b ↔
    ∃ x, encodeAddress c.address = .ok x ∧ b = (if k then 1 else 0) :: (c.identity.toBytes ++
      (Bytes.littleEndian 8 c.lastSeen.toNat ++ (c.staleCount :: x))) := by
  unfold encodeRow
  split
  · next e he => simp [he]
  · next x hx => simp [hx, eq_comm]

theorem needs_row {k : Bool} {c : Contact} {b : Bytes} (h : encodeRow k c = .ok b) :
    Needs readRow b (k, c) := by
  obtain ⟨x, hx, rfl⟩ := encodeRow_eq_ok_iff.mp h
  have hk : ((if k then 1 else 0 : UInt8) != 0) = k := by cases k <;> rfl
  rw [← List.singleton_append, ← List.singleton_append (l := x), ← List.append_nil x]
  unfold readRow
  refine (needs_byte _).bind ((needs_identity _).bind ((needs_time _).bind ?_))
  refine (needs_byte _).bind ((needs_address hx).bind ?_)
  rw [hk]
  exact .pure (k, c)

theorem yields_row : Yields readRow fun row => row.2.address.utf8ByteSize ≤ maxAddress := by
  refine (Yields.true _).bind fun _ _ => (Yields.true _).bind fun _ _ =>
    (Yields.true _).bind fun _ _ => (Yields.true _).bind fun _ _ => ?_
  exact yields_address.bind fun _ h => .pure h

end SearchOverlay.RoutingTable
