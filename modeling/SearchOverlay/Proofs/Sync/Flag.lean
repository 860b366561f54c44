import SearchOverlay.Sync

/-!
# The flag and the marker of the first sync

Only one command sets the flag, and no command touches the marker: the files that a node writes
and renames have other names.
-/

namespace SearchOverlay

namespace LocalNode

/-- Whether the node is in its first sync, as it answers the question. -/
def inFirstSync (n : LocalNode) : Bool := !n.stopped && n.bootstrapping

/-- Whether the marker is there. -/
def marked (n : LocalNode) : Bool := n.files.has markerName

variable {n : LocalNode}

theorem inFirstSync_iff : n.inFirstSync ↔ n.stopped = false ∧ n.bootstrapping := by
  simp [inFirstSync]

theorem inFirstSync_of_running (hn : n.stopped = false) : n.inFirstSync = n.bootstrapping := by
  rw [inFirstSync, hn]
  rfl

theorem perform_isBootstrapping (shown : Clock) (n : LocalNode) :
    n.perform shown .isBootstrapping = (n.inFirstSync, n) := by
  unfold perform inFirstSync
  cases n.stopped <;> rfl

theorem marked_dropMarker (n : LocalNode) : n.dropMarker.marked = false := by
  simp [marked, dropMarker, Directory.has]

/-- A node is prepared with the flag set if and only if the marker is there. -/
theorem bootstrapping_startSync (n : LocalNode) : n.startSync.bootstrapping = n.startSync.marked :=
  rfl

/-! ## The names of files -/

theorem markerName_ne_of_routing {name : String} (h : name.toList.head? = some 'r') :
    markerName ≠ name := by
  rintro rfl
  exact absurd h (by decide)

theorem markerName_ne_fileName (id : Identity) : markerName ≠ RoutingTable.fileName id :=
  markerName_ne_of_routing (by simp [RoutingTable.fileName, RoutingTable.fileStem])

theorem markerName_ne_temporaryName (id : Identity) : markerName ≠ RoutingTable.temporaryName id :=
  markerName_ne_of_routing (by simp [RoutingTable.temporaryName, RoutingTable.fileStem])

theorem has_saveStore (s : Store) (d : Directory) :
    (s.save d).has markerName = d.has markerName := by
  rw [Directory.has, Store.save, Directory.read?_replace_of_ne (by decide) (by decide)]
  rfl

theorem has_saveTable {id : Identity} {t : RoutingTable} {d d' : Directory}
    (h : t.save id d = .ok d') : d'.has markerName = d.has markerName := by
  unfold RoutingTable.save at h
  split at h
  · cases h
    rw [Directory.has, Directory.read?_replace_of_ne (markerName_ne_temporaryName id)
      (markerName_ne_fileName id)]
    rfl
  · cases h

/-- Writing the files changes nothing else, and the marker is none of them. -/
theorem persist_frame (n : LocalNode) : ∃ files, n.persist = { n with files } ∧
    files.has markerName = n.files.has markerName := by
  have hstore : (if n.keepsStore then n.store.save n.files else n.files).has markerName =
      n.files.has markerName := by
    split
    · exact has_saveStore n.store n.files
    · rfl
  unfold persist
  generalize (if n.keepsStore then n.store.save n.files else n.files) = files at hstore
  dsimp only
  split
  · exact ⟨files, rfl, hstore⟩
  · split
    · next h => exact ⟨_, rfl, (has_saveTable h).trans hstore⟩
    · exact ⟨files, rfl, hstore⟩

theorem setSelf_frame (clock : Clock) (c : Contact) (n : LocalNode) : ∃ table files routingFile,
    n.setSelf clock c = { n with table, files, routingFile } ∧
      files.has markerName = n.files.has markerName := by
  unfold setSelf
  dsimp only
  split
  · exact ⟨_, n.files, n.routingFile, rfl, rfl⟩
  · split
    · exact ⟨_, n.files, n.routingFile, rfl, rfl⟩
    · refine ⟨_, _, _, rfl, ?_⟩
      rw [Directory.has, Directory.read?_rename_of_ne (markerName_ne_fileName _)
        (markerName_ne_fileName _)]
      rfl

end LocalNode

/-! ## Commands -/

/-- Whether the command leaves the flag alone. -/
def Command.keepsFlag : Command → Bool
  | setBootstrapping _ => false
  | _ => true

/-- Whether the command sets the flag. -/
def Command.raisesFlag : Command → Bool
  | setBootstrapping value => value
  | _ => false

theorem Command.not_raisesFlag {c : Command} (h : c.keepsFlag) : c.raisesFlag = false := by
  cases c with
  | setBootstrapping value => cases h
  | _ => rfl

namespace LocalNode

variable {n : LocalNode} {c : Command}

theorem marked_perform (n : LocalNode) (shown : Clock) (c : Command) :
    (n.perform shown c).2.marked = n.marked := by
  unfold perform
  split
  · rfl
  · cases c with
    | persist | quit =>
      obtain ⟨files, hpersist, hmarked⟩ := persist_frame n
      simpa only [performRunning, hpersist, marked] using hmarked
    | setSelf contact =>
      obtain ⟨table, files, routingFile, hset, hmarked⟩ := setSelf_frame shown contact n
      simpa only [performRunning, hset, marked] using hmarked
    | _ => rfl

theorem bootstrapping_perform (shown : Clock) (hc : c.keepsFlag) :
    (n.perform shown c).2.bootstrapping = n.bootstrapping := by
  unfold perform
  split
  · rfl
  · cases c with
    | setBootstrapping value => cases hc
    | persist | quit =>
      obtain ⟨files, hpersist, -⟩ := persist_frame n
      simp only [performRunning, hpersist]
    | setSelf contact =>
      obtain ⟨table, files, routingFile, hset, -⟩ := setSelf_frame shown contact n
      simp only [performRunning, hset]
    | _ => rfl

/-- Only the command that sets the flag sets it. -/
theorem bootstrapping_of_perform (shown : Clock) (hc : c.raisesFlag = false)
    (h : (n.perform shown c).2.bootstrapping) : n.bootstrapping := by
  cases c with
  | setBootstrapping value =>
    cases hc
    unfold perform at h
    split at h
    · exact h
    · cases h
  | _ => rwa [bootstrapping_perform shown rfl] at h

theorem running_of_perform {shown : Clock} (h : (n.perform shown c).2.stopped = false) :
    n.stopped = false := by
  unfold perform at h
  split at h
  · exact h
  · next hn => exact Bool.eq_false_iff.mpr hn

end LocalNode

end SearchOverlay
