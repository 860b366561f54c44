import SearchOverlay.Wire

/-!
# Lawful wire forms

A reader `Accepts` a relation of values and bytes if what it takes off the front of an input
are exactly such bytes. The wire form of a type is `Lawful` if its reader accepts what its
writer writes and nothing else; every value then has one form, and reading is the inverse of
writing. A structure is lawful if its fields are, and a list or an optional value if its items
are.

A length has eight bytes, so all of this is said of inputs whose own length can be written.
-/

namespace SearchOverlay.Wire

-- powers are those of the core library, whatever else is imported
attribute [local instance (high)] instPowNat

variable {α β : Type}

/-- What the reader takes off the front of an input is what the relation allows. -/
def Accepts (p : Reader α) (S : α → Bytes → Prop) : Prop :=
  ∀ b, b.length < UInt64.size → ∀ a r, p b = .ok (a, r) ↔ ∃ w, S a w ∧ b = w ++ r

/-! ## Readers in sequence -/

theorem bind_apply (p : Reader α) (f : α → Reader β) (b : Bytes) :
    (p >>= f) b = (p b).bind fun r => f r.1 r.2 := rfl

theorem Accepts.congr {p : Reader α} {S T : α → Bytes → Prop} (hp : Accepts p S)
    (h : ∀ a w, w.length < UInt64.size → (S a w ↔ T a w)) : Accepts p T := by
  intro b hb a r
  have hiff : ∀ w, b = w ++ r → (S a w ↔ T a w) := by
    rintro w rfl
    rw [List.length_append] at hb
    exact h a w (Nat.lt_of_le_of_lt (Nat.le_add_right _ _) hb)
  rw [hp b hb]
  exact exists_congr fun w => and_congr_left (hiff w)

theorem Accepts.pure (a : α) : Accepts (pure a) fun a' w => a' = a ∧ w = [] := by
  intro b _ a' r
  constructor
  · intro h
    cases h
    exact ⟨[], ⟨rfl, rfl⟩, rfl⟩
  · rintro ⟨_, ⟨rfl, rfl⟩, rfl⟩
    rfl

theorem Accepts.throw (e : Fault) : Accepts (throw e : Reader α) fun _ _ => False := by
  intro b _ a r
  constructor
  · intro h
    cases h
  · rintro ⟨_, h, -⟩
    exact h.elim

theorem Accepts.bind {p : Reader α} {f : α → Reader β} {S : α → Bytes → Prop}
    {T : α → β → Bytes → Prop} (hp : Accepts p S) (hf : ∀ a, Accepts (f a) (T a)) :
    Accepts (p >>= f) fun b w => ∃ a u v, S a u ∧ T a b v ∧ w = u ++ v := by
  intro b hb y r
  have hrest : ∀ {u v : Bytes}, b = u ++ v → v.length < UInt64.size := by
    rintro u v rfl
    rw [List.length_append] at hb
    exact Nat.lt_of_le_of_lt (Nat.le_add_left _ _) hb
  rw [bind_apply]
  constructor
  · intro h
    cases ha : p b with
    | error e => rw [ha] at h; cases h
    | ok x =>
      obtain ⟨a, c⟩ := x
      rw [ha] at h
      obtain ⟨u, hu, rfl⟩ := (hp b hb a c).mp ha
      obtain ⟨v, hv, rfl⟩ := (hf a c (hrest rfl) y r).mp h
      exact ⟨u ++ v, ⟨a, u, v, hu, hv, rfl⟩, (List.append_assoc u v r).symm⟩
  · rintro ⟨_, ⟨a, u, v, hu, hv, rfl⟩, hsplit⟩
    rw [List.append_assoc] at hsplit
    rw [(hp b hb a (v ++ r)).mpr ⟨u, hu, hsplit⟩]
    exact (hf a (v ++ r) (hrest hsplit) y r).mpr ⟨v, hv, rfl⟩

theorem accepts_block (n : Nat) : Accepts (block n) fun b w => w = b ∧ b.length = n := by
  intro b _ h r
  have hsplit : block n b = .ok (h, r) ↔ Bytes.splitAt? n b = some (h, r) := by
    unfold block
    cases Bytes.splitAt? n b <;> simp
  rw [hsplit, Bytes.splitAt?_eq_some_iff]
  constructor
  · rintro ⟨rfl, hn⟩
    exact ⟨h, ⟨rfl, hn⟩, rfl⟩
  · rintro ⟨_, ⟨rfl, hn⟩, rfl⟩
    exact ⟨rfl, hn⟩

/-! ## Lawful types -/

/-- The reader accepts what the writer writes, and nothing else. -/
class Lawful (α : Type) [Wire α] : Prop where
  accepts : Accepts (read : Reader α) fun a w => w = write a

/-- No value is written without a byte. -/
class Visible (α : Type) [Wire α] : Prop where
  length_pos : ∀ a : α, 0 < (write a).length

/-- A field in front of others. -/
theorem Accepts.field [Wire α] [Lawful α] {f : α → Reader β} {T : α → β → Bytes → Prop}
    (hf : ∀ a, Accepts (f a) (T a)) :
    Accepts (read >>= f) fun b w => ∃ a v, T a b v ∧ w = write a ++ v := by
  refine (Lawful.accepts.bind hf).congr fun b w _ => ?_
  constructor
  · rintro ⟨a, _, v, rfl, hv, rfl⟩
    exact ⟨a, v, hv, rfl⟩
  · rintro ⟨a, v, hv, rfl⟩
    exact ⟨a, _, v, rfl, hv, rfl⟩

/-- The last field. -/
theorem Accepts.last [Wire α] [Lawful α] (f : α → β) :
    Accepts (do return f (← read)) fun b w => ∃ a, b = f a ∧ w = write a := by
  refine (Accepts.field fun a => Accepts.pure (f a)).congr fun b w _ => ?_
  constructor
  · rintro ⟨a, _, ⟨rfl, rfl⟩, rfl⟩
    exact ⟨a, rfl, List.append_nil _⟩
  · rintro ⟨a, rfl, rfl⟩
    exact ⟨a, [], ⟨rfl, rfl⟩, (List.append_nil _).symm⟩

/-! ## Numbers -/

instance : Lawful Unit where
  accepts := (Accepts.pure ()).congr fun _ _ _ => ⟨fun h => h.2, fun h => ⟨rfl, h⟩⟩

instance : Lawful UInt8 where
  accepts := by
    intro b _ x r
    cases b with
    | nil => simp [read, write]
    | cons y b => simp [read, write, eq_comm]

theorem accepts_number (n : Nat) (f : Nat → α) :
    Accepts (do return f (Bytes.ofLittleEndian (← block n))) fun a w =>
      ∃ v, v < 256 ^ n ∧ a = f v ∧ w = Bytes.littleEndian n v := by
  refine ((accepts_block n).bind fun b => Accepts.pure (f (Bytes.ofLittleEndian b))).congr
    fun a w _ => ?_
  constructor
  · rintro ⟨_, b, _, ⟨rfl, hn⟩, ⟨rfl, rfl⟩, rfl⟩
    have hv := Bytes.ofLittleEndian_lt b
    rw [hn] at hv
    rw [List.append_nil]
    exact ⟨_, hv, rfl, (Bytes.eq_littleEndian_iff hv).mpr ⟨hn, rfl⟩⟩
  · rintro ⟨v, hv, rfl, hw⟩
    obtain ⟨hn, hval⟩ := (Bytes.eq_littleEndian_iff hv).mp hw
    exact ⟨w, w, [], ⟨rfl, hn⟩, ⟨by rw [hval], rfl⟩, (List.append_nil w).symm⟩

/-- A type that counts up to the largest number of its width. -/
theorem accepts_word {n : Nat} {ofNat : Nat → α} {toNat : α → Nat}
    (hlt : ∀ x, toNat x < 256 ^ n) (hback : ∀ x, ofNat (toNat x) = x)
    (hforth : ∀ v < 256 ^ n, toNat (ofNat v) = v) :
    Accepts (do return ofNat (Bytes.ofLittleEndian (← block n))) fun x w =>
      w = Bytes.littleEndian n (toNat x) := by
  refine (accepts_number n ofNat).congr fun x w _ => ?_
  constructor
  · rintro ⟨v, hv, rfl, rfl⟩
    rw [hforth v hv]
  · rintro rfl
    exact ⟨toNat x, hlt x, (hback x).symm, rfl⟩

instance : Lawful UInt32 where
  accepts := accepts_word UInt32.toNat_lt (fun _ => UInt32.ofNat_toNat)
    fun _ => UInt32.toNat_ofNat_of_lt

instance : Lawful UInt64 where
  accepts := accepts_word UInt64.toNat_lt (fun _ => UInt64.ofNat_toNat)
    fun _ => UInt64.toNat_ofNat_of_lt

/-! ## Texts and lists -/

theorem accepts_length : Accepts readLength fun n w => n < UInt64.size ∧ w = writeLength n := by
  refine (accepts_number 8 id).congr fun n w _ => ?_
  constructor
  · rintro ⟨v, hv, rfl, rfl⟩
    exact ⟨hv, rfl⟩
  · rintro ⟨hn, rfl⟩
    exact ⟨n, hn, rfl, rfl⟩

/-- What is preceded by its length. -/
theorem Accepts.counted {f : Nat → Reader α} {size : α → Nat} {body : α → Bytes}
    (hf : ∀ n, Accepts (f n) fun a w => w = body a ∧ size a = n)
    (hsize : ∀ a, size a ≤ (body a).length) :
    Accepts (readLength >>= f) fun a w => w = writeLength (size a) ++ body a := by
  refine (accepts_length.bind hf).congr fun a w hw => ?_
  constructor
  · rintro ⟨n, _, _, ⟨-, rfl⟩, ⟨rfl, rfl⟩, rfl⟩
    rfl
  · rintro rfl
    have hle := hsize a
    rw [List.length_append] at hw
    exact ⟨size a, _, _, ⟨by omega, rfl⟩, ⟨rfl, rfl⟩, rfl⟩

theorem accepts_textBlock (n : Nat) : Accepts (textBlock n) fun s w =>
    w = Utf8.encode s ∧ (Utf8.encode s).length = n := by
  intro b _ s r
  have hread : textBlock n b = .ok (s, r) ↔ Bytes.splitAt? n b = some (Utf8.encode s, r) := by
    unfold textBlock
    cases Bytes.splitAt? n b with
    | none => simp
    | some p =>
      obtain ⟨w, r'⟩ := p
      rw [Option.some.injEq, Prod.mk.injEq, ← Utf8.decode_eq_ok_iff]
      cases hw : Utf8.decode w <;> simp [hw]
  rw [hread, Bytes.splitAt?_eq_some_iff]
  constructor
  · rintro ⟨rfl, hn⟩
    exact ⟨_, ⟨rfl, hn⟩, rfl⟩
  · rintro ⟨_, ⟨rfl, hn⟩, rfl⟩
    exact ⟨rfl, hn⟩

instance : Lawful String where
  accepts := .counted accepts_textBlock fun _ => Nat.le_refl _

theorem readMany_succ [Wire α] (n : Nat) (done : Array α) :
    readMany (n + 1) done = read >>= fun a => readMany n (done.push a) := by
  funext b
  rw [bind_apply, readMany]
  cases (read b : Except Fault (α × Bytes)) with
  | error e => rfl
  | ok x => rfl

theorem accepts_readMany [Wire α] [Lawful α] (n : Nat) (done : Array α) :
    Accepts (readMany n done) fun as w =>
      ∃ more, as = done.toList ++ more ∧ more.length = n ∧ w = more.flatMap write := by
  induction n generalizing done with
  | zero =>
    refine (Accepts.pure done.toList).congr fun as w _ => ?_
    constructor
    · rintro ⟨rfl, rfl⟩
      exact ⟨[], (List.append_nil _).symm, rfl, rfl⟩
    · rintro ⟨more, rfl, hn, rfl⟩
      rw [List.eq_nil_of_length_eq_zero hn]
      exact ⟨List.append_nil _, rfl⟩
  | succ n ih =>
    rw [readMany_succ]
    refine (Accepts.field fun a => ih (done.push a)).congr fun as w _ => ?_
    constructor
    · rintro ⟨a, _, ⟨more, rfl, rfl, rfl⟩, rfl⟩
      exact ⟨a :: more, by simp, rfl, rfl⟩
    · rintro ⟨_ | ⟨a, more⟩, rfl, hn, rfl⟩
      · cases hn
      · exact ⟨a, _, ⟨more, by simp, Nat.succ.inj hn, rfl⟩, rfl⟩

theorem length_le_flatMap_write [Wire α] [Visible α] (as : List α) :
    as.length ≤ (as.flatMap write).length := by
  induction as with
  | nil => exact Nat.le_refl 0
  | cons a as ih =>
    have := Visible.length_pos a
    rw [List.flatMap_cons, List.length_append, List.length_cons]
    omega

instance [Wire α] [Lawful α] [Visible α] : Lawful (List α) where
  accepts := by
    refine .counted (fun n => ?_) length_le_flatMap_write
    refine (accepts_readMany n #[]).congr fun as w _ => ?_
    constructor
    · rintro ⟨_, rfl, rfl, rfl⟩
      exact ⟨rfl, rfl⟩
    · rintro ⟨rfl, hn⟩
      exact ⟨as, rfl, hn, rfl⟩

instance [Wire α] [Lawful α] : Lawful (Option α) where
  accepts := by
    have htag : ∀ t : UInt8, Accepts (match t with
        | 0 => return none
        | 1 => return some (← read)
        | t => throw (.invalidTag t) : Reader (Option α)) fun a w =>
          (t = 0 ∧ a = none ∧ w = []) ∨ (t = 1 ∧ ∃ x, a = some x ∧ w = write x) := by
      intro t
      split
      · exact (Accepts.pure none).congr fun a w _ => by simp
      · exact (Accepts.last some).congr fun a w _ => by simp
      · next h0 h1 =>
        refine (Accepts.throw _).congr fun a w _ => ⟨False.elim, ?_⟩
        rintro (⟨h, -⟩ | ⟨h, -⟩)
        · exact h0 h
        · exact h1 h
    refine (Accepts.field htag).congr fun a w _ => ?_
    constructor
    · rintro ⟨_, _, ⟨rfl, rfl, rfl⟩ | ⟨rfl, x, rfl, rfl⟩, rfl⟩ <;> rfl
    · rintro rfl
      cases a with
      | none => exact ⟨0, [], .inl ⟨rfl, rfl, rfl⟩, rfl⟩
      | some x => exact ⟨1, write x, .inr ⟨rfl, x, rfl, rfl⟩, rfl⟩

end SearchOverlay.Wire
