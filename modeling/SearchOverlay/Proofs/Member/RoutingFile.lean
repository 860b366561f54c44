import SearchOverlay.Proofs.RoutingTable.RoundTrip
import SearchOverlay.Proofs.Sync.Flag

/-!
# The routing file

A node that keeps its table on file has one routing file at most, named after the identity that it
has now. The file moves when the identity changes, and its content is the table that was written
last. `Filed n content` says so of a node and what the file holds, if it is there; every command
keeps it, with the content that the command writes.
-/

namespace SearchOverlay

/-! ## Names -/

namespace Hex

theorem digit_inj {m n : Nat} (hm : m < 16) (hn : n < 16) (h : digit m = digit n) : m = n := by
  have hall : ∀ i j : Fin 16, digit i = digit j → i = j := by decide
  exact congrArg Fin.val (hall ⟨m, hm⟩ ⟨n, hn⟩ h)

theorem encodeChars_injective : Function.Injective encodeChars := by
  intro b b' h
  induction b generalizing b' with
  | nil =>
    cases b' with
    | nil => rfl
    | cons y b' => cases h
  | cons x b ih =>
    cases b' with
    | nil => cases h
    | cons y b' =>
      simp only [encodeChars, List.flatMap_cons, List.cons_append, List.nil_append,
        List.cons.injEq] at h
      obtain ⟨hhigh, hlow, hrest⟩ := h
      have hx : x.toNat < 256 := x.toNat_lt
      have hy : y.toNat < 256 := y.toNat_lt
      have hhigh := digit_inj (by omega) (by omega) hhigh
      have hlow := digit_inj (by omega) (by omega) hlow
      rw [UInt8.toNat_inj.mp (show x.toNat = y.toNat by omega), ih hrest]

theorem encode_injective : Function.Injective encode := fun _ _ h =>
  encodeChars_injective (String.ofList_injective h)

end Hex

theorem Identity.toHex_injective : Function.Injective toHex := by
  intro a b h
  have hbytes : a.toBytes = b.toBytes := Hex.encode_injective h
  exact Option.some.inj (by rw [← ofBytes?_toBytes a, hbytes, ofBytes?_toBytes])

namespace RoutingTable

theorem fileName_injective : Function.Injective fileName := by
  intro a b h
  rw [fileName, fileName, String.append_left_inj, fileStem, fileStem, String.append_right_inj] at h
  exact Identity.toHex_injective h

theorem fileName_ne_temporaryName (id other : Identity) : fileName id ≠ temporaryName other := by
  intro h
  have hlast := congrArg (·.toList.getLast?) h
  simp [fileName, temporaryName] at hlast

theorem fileName_ne_of_head (id : Identity) {name : String} (h : name.toList.head? ≠ some 'r') :
    fileName id ≠ name := by
  rintro rfl
  simp [fileName, fileStem] at h

theorem read?_saveStore (s : Store) (id : Identity) (d : Directory) :
    (s.save d).read? (fileName id) = d.read? (fileName id) :=
  Directory.read?_replace_of_ne (fileName_ne_of_head id (by decide))
    (fileName_ne_of_head id (by decide)) _ d

end RoutingTable

theorem Directory.read?_rename (old new : String) (d : Directory) (name : String) :
    (d.rename old new).read? name = if name = new then (d.read? old).or (d.read? new)
      else if name = old then none else d.read? name := by
  unfold rename
  cases hold : d.read? old with
  | none =>
    dsimp only
    split
    · next hname => rw [hname, Option.none_or]
    · split
      · next hname => rw [hname, hold]
      · rfl
  | some b =>
    dsimp only
    split
    · next hname => rw [hname, read?_write_self, Option.some_or]
    · next hnew =>
      rw [read?_write_of_ne hnew]
      split
      · next hname => rw [hname, read?_remove_self]
      · next hne => rw [read?_remove_of_ne hne]

/-- Whether the command writes the files. -/
def Command.writesFiles : Command → Bool
  | persist | quit => true
  | _ => false

namespace LocalNode

variable {n : LocalNode} {content : Option Bytes}

/-! ## What is written -/

/-- What the command writes into the routing file, if it does. -/
def written (n : LocalNode) (c : Command) : Option Bytes :=
  if n.stopped || !c.writesFiles then none else n.table.encode.toOption

/-- What commands write into the routing file, one after the other. -/
def writings (n : LocalNode) : List (Clock × Command) → List Bytes
  | [] => []
  | c :: cs => (n.written c.2).toList ++ (n.perform c.1 c.2).2.writings cs

/-- No identity has a routing file but the present one, and that file, if it is there, has this
content. -/
structure Filed (n : LocalNode) (content : Option Bytes) : Prop where
  named : n.routingFile = some n.table.identity
  read : ∀ id, n.files.read? (RoutingTable.fileName id) =
    if id = n.table.identity then content else none

theorem filed_iff : n.Filed content ↔ n.routingFile = some n.table.identity ∧
    (∀ id, n.files.has (RoutingTable.fileName id) → id = n.table.identity) ∧
    n.files.read? (RoutingTable.fileName n.table.identity) = content := by
  constructor
  · intro h
    refine ⟨h.named, fun id hid => ?_, by rw [h.read, if_pos rfl]⟩
    by_contra hne
    rw [Directory.has, h.read, if_neg hne] at hid
    cases hid
  · rintro ⟨hnamed, honly, hread⟩
    refine ⟨hnamed, fun id => ?_⟩
    split
    · next hid => rw [hid, hread]
    · next hid =>
      cases hnone : n.files.read? (RoutingTable.fileName id) with
      | none => rfl
      | some b => exact absurd (honly id (by rw [Directory.has, hnone]; rfl)) hid

/-! ## Commands -/

theorem Filed.of_same {m : LocalNode} (h : n.Filed content)
    (hid : m.table.identity = n.table.identity) (hfiles : m.files = n.files)
    (hname : m.routingFile = n.routingFile) : m.Filed content where
  named := by rw [hname, h.named, hid]
  read id := by rw [hfiles, h.read, hid]

theorem Filed.persist (h : n.Filed content) :
    n.persist.Filed (n.table.encode.toOption.or content) := by
  have hstore (id : Identity) : (if n.keepsStore then n.store.save n.files else n.files).read?
      (RoutingTable.fileName id) = if id = n.table.identity then content else none := by
    rw [← h.read]
    split
    · exact RoutingTable.read?_saveStore n.store id n.files
    · rfl
  unfold LocalNode.persist
  generalize (if n.keepsStore then n.store.save n.files else n.files) = files at hstore
  simp only [h.named, RoutingTable.save]
  cases n.table.encode with
  | error e => exact ⟨rfl, hstore⟩
  | ok b =>
    refine ⟨rfl, fun id => ?_⟩
    dsimp only
    split
    · next hid =>
      rw [hid, Directory.read?_replace_self]
      rfl
    · next hid =>
      have hname : RoutingTable.fileName id ≠ RoutingTable.fileName n.table.identity :=
        fun heq => hid (RoutingTable.fileName_injective heq)
      have htemporary := RoutingTable.fileName_ne_temporaryName id n.table.identity
      rw [Directory.read?_replace_of_ne htemporary hname, hstore, if_neg hid]

theorem Filed.setSelf (h : n.Filed content) (clock : Clock) (c : Contact) :
    (n.setSelf clock c).Filed content := by
  unfold LocalNode.setSelf
  dsimp only
  split
  · next hid => exact h.of_same hid rfl rfl
  · next hid =>
    simp only [h.named]
    refine ⟨rfl, fun id => ?_⟩
    dsimp only
    rw [Directory.read?_rename, h.read, h.read, h.read, if_pos rfl, if_neg hid, Option.or_none]
    simp only [RoutingTable.fileName_injective.eq_iff]
    split
    · rfl
    · split <;> rfl

theorem Filed.perform (h : n.Filed content) (shown : Clock) (c : Command) :
    (n.perform shown c).2.Filed ((n.written c).or content) := by
  unfold LocalNode.perform written
  cases hn : n.stopped with
  | true => exact h
  | false =>
    cases c with
    | persist => exact h.persist
    | quit => exact h.persist.of_same rfl rfl rfl
    | setSelf contact => exact h.setSelf shown contact
    | pushAll cs => exact h.of_same (RoutingTable.identity_pushFrom ..) rfl rfl
    | ping caller => exact h.of_same (RoutingTable.identity_push ..) rfl rfl
    | remove id => exact h.of_same (congrArg (·.identity) (RoutingTable.self_remove ..)) rfl rfl
    | evict id => exact h.of_same (congrArg (·.identity) (RoutingTable.self_evict ..)) rfl rfl
    | _ => exact h.of_same rfl rfl rfl

theorem Filed.performAll (h : n.Filed content) (cs : List (Clock × Command)) :
    (n.performAll cs).Filed ((n.writings cs).getLast?.or content) := by
  induction cs generalizing n content with
  | nil => exact h
  | cons c cs ih =>
    have hcs := ih (h.perform c.1 c.2)
    have hlast : (n.written c.2).toList.getLast? = n.written c.2 := by
      cases n.written c.2 <;> rfl
    rwa [writings, List.getLast?_append, Option.or_assoc, hlast]

/-! ## The table -/

theorem sound_perform (h : n.table.Sound) (shown : Clock) (c : Command) :
    (n.perform shown c).2.table.Sound := by
  unfold LocalNode.perform
  split
  · exact h
  · cases c with
    | persist | quit =>
      obtain ⟨files, hpersist, -⟩ := persist_frame n
      simpa only [performRunning, hpersist] using h
    | setSelf contact =>
      have htable : (n.setSelf shown contact).table = n.table.setSelf shown contact := by
        unfold LocalNode.setSelf
        dsimp only
        split
        · rfl
        · split <;> rfl
      exact htable ▸ h.setSelf shown contact
    | pushAll cs => exact h.pushFrom shown 0 cs
    | ping caller => exact h.push shown.now caller
    | remove id => exact h.remove id
    | evict id => exact h.evict id
    | _ => exact h

theorem sound_performAll (h : n.table.Sound) (cs : List (Clock × Command)) :
    (n.performAll cs).table.Sound := by
  induction cs generalizing n with
  | nil => exact h
  | cons c cs ih => exact ih (sound_perform h c.1 c.2)

theorem table_perform_of_writesFiles {c : Command} (hc : c.writesFiles) (shown : Clock) :
    (n.perform shown c).2.table = n.table := by
  unfold LocalNode.perform
  split
  · rfl
  · obtain ⟨files, hpersist, -⟩ := persist_frame n
    cases c with
    | persist | quit => simp only [performRunning, hpersist]
    | _ => cases hc

/-- Whatever commands a node works off that began with one routing file at most, its own: there is
no other routing file but that of its present identity, and that file holds the table that was
written last, or what it held in the beginning. Commands that write the files leave the routing
file as it was if the table cannot be encoded; if the own address is short enough it can, and the
file holds the present table afterwards. -/
theorem routing_file_of_performAll (htable : n.table.Reachable)
    (hname : n.routingFile = some n.table.identity)
    (hown : ∀ id, n.files.has (RoutingTable.fileName id) → id = n.table.identity)
    (cs : List (Clock × Command)) :
    let m := n.performAll cs
    m.routingFile = some m.table.identity ∧
    (∀ id, m.files.has (RoutingTable.fileName id) → id = m.table.identity) ∧
    m.files.read? (RoutingTable.fileName m.table.identity) = (n.writings cs).getLast?.or
      (n.files.read? (RoutingTable.fileName n.table.identity)) ∧
    ∀ shown c, c.writesFiles → let m' := (m.perform shown c).2
      ((∀ b, m.table.encode ≠ .ok b) → ∀ id, m'.files.read? (RoutingTable.fileName id) =
        m.files.read? (RoutingTable.fileName id)) ∧
      (m.stopped = false → m.table.self.address.utf8ByteSize ≤ RoutingTable.maxAddress →
        m'.table = m.table ∧ ∃ b, m.table.encode = .ok b ∧
          m'.files.read? (RoutingTable.fileName m.table.identity) = some b) := by
  intro m
  have hfiled : n.Filed _ := filed_iff.mpr ⟨hname, hown, rfl⟩
  have hm : m.Filed _ := hfiled.performAll cs
  have hsound : m.table.Sound := sound_performAll htable.sound cs
  obtain ⟨hname, hown, hread⟩ := filed_iff.mp hm
  refine ⟨hname, hown, hread, fun shown c hc => ?_⟩
  intro m'
  have hm' : m'.Filed _ := hm.perform shown c
  have hsame : m'.table = m.table := table_perform_of_writesFiles hc shown
  constructor
  · intro hencode id
    have hwritten : m.written c = none := by
      unfold written
      split
      · rfl
      · cases h : m.table.encode with
        | error e => rfl
        | ok b => exact absurd h (hencode b)
    rw [hm'.read, hm.read, hsame, hwritten, Option.none_or]
  · intro hrunning hshort
    obtain ⟨b, hb⟩ := hsound.exists_encode hshort
    have hwritten : m.written c = some b := by
      rw [written, hrunning, hc, hb]
      rfl
    refine ⟨hsame, b, hb, ?_⟩
    rw [hm'.read, if_pos (congrArg _ hsame.symm), hwritten, Option.some_or]

/-- A node that has written its table moves to another identity: the file moves with it, and
quitting writes the present table into it. -/
theorem routing_file_of_performAll_moved :
    let me : Contact := ⟨.zero, "s", 0, 0⟩
    let other : Contact := ⟨⟨1, 0, 0, 0, 0⟩, "t", 0, 0⟩
    let n : LocalNode := ⟨.new me, .empty, false, .empty, false, some .zero, false⟩
    let m := n.performAll [(.still 5, .persist), (.still 5, .setSelf other)]
    (∀ id, m.files.has (RoutingTable.fileName id) → id = other.identity) ∧
      (∃ b, n.table.encode = .ok b ∧
        m.files.read? (RoutingTable.fileName other.identity) = some b) ∧
      ∃ b, m.table.encode = .ok b ∧ (m.perform (.still 5) .quit).2.files.read?
        (RoutingTable.fileName other.identity) = some b := by
  intro me other n
  have hn : n.table.Reachable := ⟨_, [], .new me, rfl⟩
  have hnone (id : Identity) : n.files.has (RoutingTable.fileName id) = false := rfl
  have hlaw := routing_file_of_performAll hn rfl
    (fun id hid => absurd hid (by rw [hnone]; decide))
    [(.still 5, .persist), (.still 5, .setSelf other)]
  have hrunning : (n.performAll [(.still 5, .persist), (.still 5, .setSelf other)]).stopped =
    false := by decide +kernel
  have hself : (n.performAll [(.still 5, .persist), (.still 5, .setSelf other)]).table.self =
    other := by decide +kernel
  obtain ⟨b', hb'⟩ := hn.sound.exists_encode (by decide)
  have hwritings : n.writings [(.still 5, .persist), (.still 5, .setSelf other)] = [b'] := by
    have hmoved : (n.perform (.still 5) .persist).2.written (.setSelf other) = none := by
      simp [written, Command.writesFiles]
    have hfirst : n.written .persist = some b' := by
      simp [written, Command.writesFiles, hb', n, Except.toOption]
    simp only [writings, hfirst, hmoved, Option.toList, List.append_nil]
  rw [hwritings] at hlaw
  generalize n.performAll [(.still 5, .persist), (.still 5, .setSelf other)] = m
    at hlaw hrunning hself ⊢
  obtain ⟨-, hown, hread, hwrites⟩ := hlaw
  obtain ⟨-, b, hb, hquit⟩ := (hwrites (.still 5) .quit rfl).2 hrunning (by rw [hself]; decide)
  have hid : m.table.identity = other.identity := congrArg Contact.identity hself
  rw [hid] at hown hread hquit
  exact ⟨hown, ⟨b', hb', hread⟩, b, hb, hquit⟩

end LocalNode

end SearchOverlay
