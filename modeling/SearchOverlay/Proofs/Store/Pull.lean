import SearchOverlay.Call
import SearchOverlay.Proofs.Store.Since

/-!
# Pulling all records of a store

A client that starts empty pulls batches of a server that does not change, each from its own
watermark on, until it has caught up or a batch is empty. The watermark is a time and nothing
more: where a full batch ends between records of one time, the rest of them are never offered
again. `Pulls.complete_iff` says that this is the only way to miss a record.
-/

namespace SearchOverlay.Store

-- powers are those of the core library, whatever else is imported
attribute [local instance (high)] instPowNat

/-- Rounds of a client with a server until there is nothing left to pull, in batches of `cap`. -/
inductive Pulls (cap : Nat) (server : Store) : Store → Store → Prop where
  | done {client : Store} (ended : ¬ (client.status.results < server.status.results ∧
      server.recordsSince client.status.results cap ≠ [])) : Pulls cap server client client
  | round {client client' : Store} (behind : client.status.results < server.status.results)
      (offer : server.recordsSince client.status.results cap ≠ [])
      (rest : Pulls cap server
        (client.mergeRecords (server.recordsSince client.status.results cap)).2 client') :
      Pulls cap server client client'

/-- Cut into batches of `cap`, the list is never cut between records of one time. -/
def CleanCuts (cap : Nat) (rs : List Record) : Prop :=
  ∀ i (h : i + 1 < rs.length), cap ∣ i + 1 → rs[i].timestamp < rs[i + 1].timestamp

variable {cap : Nat} {server client client' : Store} {r x y : Record} {rs l : List Record}

theorem cleanCuts_of_length_le (h : rs.length ≤ cap) : CleanCuts cap rs := by
  intro i hi hcut
  have := Nat.le_of_dvd (Nat.succ_pos i) hcut
  omega

theorem cleanCuts_append_iff (hl : (l ++ [x]).length = cap) :
    CleanCuts cap ((l ++ [x]) ++ y :: rs) ↔
      x.timestamp < y.timestamp ∧ CleanCuts cap (y :: rs) := by
  have hlen : l.length + 1 = cap := by simpa using hl
  have hlast (h : l.length < ((l ++ [x]) ++ y :: rs).length) :
      ((l ++ [x]) ++ y :: rs)[l.length] = x := by simp
  have hrest (i j : Nat) (hj : j < ((l ++ [x]) ++ y :: rs).length) (hi : i < (y :: rs).length)
      (hij : j = cap + i) : ((l ++ [x]) ++ y :: rs)[j] = (y :: rs)[i] := by
    subst hij
    rw [List.getElem_append_right (by omega)]
    simp only [hl, Nat.add_sub_cancel_left]
  constructor
  · intro hclean
    constructor
    · have hcut := hclean l.length (by simp) (hlen ▸ Nat.dvd_refl _)
      simp only [hlen] at hcut
      rwa [hlast, hrest 0 cap _ (by simp) rfl] at hcut
    · intro i hi hdvd
      have hcut := hclean (cap + i) (by simp at hi ⊢; omega) (by
        rw [Nat.add_assoc]
        exact Nat.dvd_add (Nat.dvd_refl _) hdvd)
      rwa [hrest i _ _ (by omega) rfl, hrest (i + 1) (cap + i + 1) _ hi rfl] at hcut
  · rintro ⟨hxy, hclean⟩ i hi hdvd
    have hle := Nat.le_of_dvd (Nat.succ_pos i) hdvd
    rcases Nat.eq_or_lt_of_le hle with heq | hlt
    · obtain rfl : i = l.length := by omega
      simp only [hlen]
      rwa [hlast, hrest 0 cap _ (by simp) rfl]
    · obtain ⟨j, rfl⟩ : ∃ j, i = cap + j := ⟨i - cap, by omega⟩
      have hj : j + 1 < (y :: rs).length := by simp at hi ⊢; omega
      rw [hrest j _ _ (by omega) rfl, hrest (j + 1) (cap + j + 1) _ hj rfl]
      exact hclean j hj (by rwa [Nat.add_assoc, Nat.dvd_add_right (Nat.dvd_refl _)] at hdvd)

theorem Sound.cleanCuts_of_times {s : Store} (hs : s.Sound) {since : Time}
    (htimes : ∀ r q, s.record? r.hash = some r → s.record? q.hash = some q →
      r.timestamp = q.timestamp → r = q) : CleanCuts cap (s.newer since) := by
  intro i hi _
  have hsorted := List.pairwise_iff_getElem.mp (newer_sorted since s) i (i + 1) (by omega) hi
    (Nat.lt_succ_self i)
  rcases notLater_iff.mp hsorted with hlt | ⟨heq, -⟩
  · exact hlt
  · have hnodup := List.pairwise_iff_getElem.mp (List.pairwise_map.mp (hs.nodup_newer since)) i
      (i + 1) (by omega) hi (Nat.lt_succ_self i)
    refine absurd (congrArg Record.hash (htimes _ _ ?_ ?_ heq)) hnodup
    · exact (hs.mem_newer.mp (List.getElem_mem _)).1
    · exact (hs.mem_newer.mp (List.getElem_mem _)).1

/-! ## A batch of new records -/

def insertAll (rs : List Record) (s : Store) : Store := rs.foldl (fun s r => s.insert r) s

theorem record?_insertAll_of_not_mem {s : Store} {h : ContentHash}
    (hh : h ∉ rs.map (·.hash)) : (insertAll rs s).record? h = s.record? h :=
  Shelf.lawful_records.held_putAll_of_not_mem hh

theorem record?_insertAll_of_mem {s : Store} (hnodup : (rs.map (·.hash)).Nodup) (hr : r ∈ rs) :
    (insertAll rs s).record? r.hash = some r :=
  Shelf.lawful_records.held_putAll_of_mem hnodup hr

theorem mem_or_held_of_record?_insertAll {s : Store} {h : ContentHash}
    (hr : (insertAll rs s).record? h = some r) : r ∈ rs ∨ s.record? h = some r := by
  induction rs generalizing s with
  | nil => exact .inr hr
  | cons q rs ih =>
    rcases ih hr with hr | hr
    · exact .inl (List.mem_cons_of_mem _ hr)
    · rcases eq_or_held_of_record?_insert hr with rfl | hr
      · exact .inl List.mem_cons_self
      · exact .inr hr

theorem results_insertAll_le {s : Store} {t : Time} (hs : s.status.results ≤ t)
    (hrs : ∀ r ∈ rs, r.timestamp ≤ t) : (insertAll rs s).status.results ≤ t := by
  induction rs generalizing s with
  | nil => exact hs
  | cons q rs ih =>
    obtain ⟨hq, hrs⟩ := List.forall_mem_cons.mp hrs
    exact ih (results_insert_le_iff.mpr ⟨hs, hq⟩) hrs

theorem results_insertAll_concat {s : Store} (hs : s.status.results ≤ x.timestamp)
    (hl : ∀ r ∈ l, r.timestamp ≤ x.timestamp) :
    (insertAll (l ++ [x]) s).status.results = x.timestamp := by
  rw [insertAll, List.foldl_append]
  show ((insertAll l s).insert x).status.results = x.timestamp
  rw [results_insert, if_pos (results_insertAll_le hs hl)]

theorem mergeRecord_of_newer {s : Store}
    (hnewer : ∀ old, s.record? r.hash = some old → old.timestamp < r.timestamp) :
    s.mergeRecord r = (true, s.insert r) := by
  rw [mergeRecord]
  split
  · next old hold => rw [if_neg (UInt64.not_le.mpr (hnewer old hold))]
  · rfl

/-- Records with different hashes that are newer than what is held of them are all inserted, and
each of them counts. -/
theorem mergeRecords_of_newer {s : Store} (hnodup : (rs.map (·.hash)).Nodup)
    (hnewer : ∀ r ∈ rs, ∀ old, s.record? r.hash = some old → old.timestamp < r.timestamp) :
    s.mergeRecords rs = (rs.length, insertAll rs s) := by
  induction rs generalizing s with
  | nil => rfl
  | cons r rs ih =>
    obtain ⟨hfresh, hnodup⟩ := List.nodup_cons.mp hnodup
    obtain ⟨hr, hnewer⟩ := List.forall_mem_cons.mp hnewer
    have ih : mergeEach mergeRecord rs (s.insert r) = (rs.length, insertAll rs (s.insert r)) := by
      refine ih hnodup fun q hq old hold => hnewer q hq old ?_
      rwa [record?_insert, if_neg] at hold
      exact fun heq => hfresh (List.mem_map.mpr ⟨q, hq, heq.symm⟩)
    rw [mergeRecords, mergeEach_cons, mergeRecord_of_newer hr, ih, List.length_cons, Nat.add_comm]
    rfl

/-! ## One round -/

abbrev offered (cap : Nat) (server client : Store) : List Record :=
  server.recordsSince client.status.results cap

abbrev pulled (cap : Nat) (server client : Store) : Store :=
  (client.mergeRecords (offered cap server client)).2

theorem mem_newer_of_offered (hr : r ∈ offered cap server client) :
    r ∈ server.newer client.status.results := List.mem_of_mem_take hr

theorem offered_of_newer (hl : l.length = cap)
    (hnewer : server.newer client.status.results = l ++ rs) : offered cap server client = l := by
  rw [offered, recordsSince_eq, hnewer, ← hl, List.take_left]

theorem results_le_pulled (cap : Nat) (server client : Store) :
    client.status.results ≤ (pulled cap server client).status.results :=
  Shelf.lawful_records.mergeAll_rec (UInt64.le_refl _)
    (fun s r hs => UInt64.le_trans hs (results_le_insert r s)) _

theorem Sound.held_and_newer_of_offered (hserver : server.Sound)
    (hr : r ∈ offered cap server client) :
    server.record? r.hash = some r ∧ client.status.results < r.timestamp :=
  hserver.mem_newer.mp (mem_newer_of_offered hr)

theorem Sound.nodup_offered (hserver : server.Sound) (cap : Nat) (client : Store) :
    ((offered cap server client).map (·.hash)).Nodup :=
  (hserver.nodup_newer _).sublist ((List.take_sublist _ _).map _)

/-- All that is pulled is newer than what the client holds, whatever that is. -/
theorem Sound.mergeRecords_offered (hserver : server.Sound) (hclient : client.Sound) :
    client.mergeRecords (offered cap server client) =
      ((offered cap server client).length, insertAll (offered cap server client) client) := by
  refine mergeRecords_of_newer (hserver.nodup_offered cap client) fun r hr old hold => ?_
  exact UInt64.lt_of_le_of_lt (hclient.seen hold) (hserver.held_and_newer_of_offered hr).2

theorem Sound.pulled_eq (hserver : server.Sound) (hclient : client.Sound) :
    pulled cap server client = insertAll (offered cap server client) client :=
  congrArg Prod.snd (hserver.mergeRecords_offered hclient)

theorem Sound.record?_pulled_of_offered (hserver : server.Sound) (hclient : client.Sound)
    (hr : r ∈ offered cap server client) :
    (pulled cap server client).record? r.hash = some r := by
  rw [hserver.pulled_eq hclient]
  exact record?_insertAll_of_mem (hserver.nodup_offered cap client) hr

theorem Sound.results_pulled (hserver : server.Sound) (hclient : client.Sound)
    (hoffer : offered cap server client = l ++ [x]) :
    (pulled cap server client).status.results = x.timestamp := by
  have hsorted : (offered cap server client).Pairwise _ :=
    (newer_sorted client.status.results server).sublist (List.take_sublist _ _)
  have hx : x ∈ offered cap server client := by
    rw [hoffer]
    exact List.mem_append_right l List.mem_cons_self
  have hnewer := (hserver.held_and_newer_of_offered hx).2
  rw [hserver.pulled_eq hclient, hoffer]
  apply results_insertAll_concat (UInt64.le_of_lt hnewer)
  intro r hr
  rw [hoffer] at hsorted
  exact le_of_notLater ((List.pairwise_append.mp hsorted).2.2 r hr x List.mem_cons_self)

/-- A batch that is not empty leaves less to offer. -/
theorem Sound.length_newer_pulled (hserver : server.Sound) (hclient : client.Sound)
    (hoffer : offered cap server client ≠ []) :
    (server.newer (pulled cap server client).status.results).length <
      (server.newer client.status.results).length := by
  obtain ⟨x, hx⟩ := List.exists_mem_of_ne_nil _ hoffer
  rw [hserver.newer_of_le (results_le_pulled cap server client)]
  refine List.length_filter_lt_length_iff_exists.mpr ⟨x, mem_newer_of_offered hx, ?_⟩
  have hheld := hserver.record?_pulled_of_offered hclient hx
  simpa using (hclient.mergeRecords _).seen hheld

/-! ## A client of this server only -/

/-- A client that holds nothing but what it has from the server. -/
structure Replica (server client : Store) : Prop where
  server_sound : server.Sound
  client_sound : client.Sound
  copy : ∀ {h r}, client.record? h = some r → server.record? h = some r

theorem replica_empty (hserver : server.Sound) : Replica server empty where
  server_sound := hserver
  client_sound := sound_empty
  copy h := by cases h

theorem Replica.new_of_mem_newer (h : Replica server client)
    (hr : r ∈ server.newer client.status.results) : client.record? r.hash = none := by
  obtain ⟨hheld, hnewer⟩ := h.server_sound.mem_newer.mp hr
  cases hq : client.record? r.hash with
  | none => rfl
  | some q =>
    have hrq := h.copy hq
    rw [hheld] at hrq
    cases hrq
    exact absurd hnewer (UInt64.not_lt.mpr (h.client_sound.seen hq))

theorem Replica.record?_pulled_of_held (h : Replica server client) {hash : ContentHash}
    (hr : client.record? hash = some r) : (pulled cap server client).record? hash = some r := by
  rw [h.server_sound.pulled_eq h.client_sound, record?_insertAll_of_not_mem, hr]
  intro hh
  obtain ⟨q, hq, rfl⟩ := List.mem_map.mp hh
  rw [h.new_of_mem_newer (mem_newer_of_offered hq)] at hr
  cases hr

theorem Replica.offered_or_held (h : Replica server client) {hash : ContentHash}
    (hr : (pulled cap server client).record? hash = some r) :
    r ∈ offered cap server client ∨ client.record? hash = some r := by
  rw [h.server_sound.pulled_eq h.client_sound] at hr
  exact mem_or_held_of_record?_insertAll hr

theorem Replica.pulled (h : Replica server client) : Replica server (pulled cap server client) where
  server_sound := h.server_sound
  client_sound := h.client_sound.mergeRecords _
  copy {hash r} hr := by
    obtain rfl := (h.client_sound.mergeRecords _).hash hr
    rcases h.offered_or_held hr with hr | hr
    · exact (h.server_sound.held_and_newer_of_offered hr).1
    · exact h.copy hr

/-- After a full batch, the records of its last time are left out for good. -/
theorem Replica.newer_pulled (h : Replica server client) (hl : (l ++ [x]).length = cap)
    (hnewer : server.newer client.status.results = (l ++ [x]) ++ rs) :
    server.newer (Store.pulled cap server client).status.results =
      rs.filter (x.timestamp < ·.timestamp) := by
  have hsorted := newer_sorted client.status.results server
  rw [hnewer] at hsorted
  have hfront : ∀ r ∈ l ++ [x], r.timestamp ≤ x.timestamp := by
    intro r hr
    rcases List.mem_append.mp hr with hr | hr
    · have hfront := (List.pairwise_append.mp hsorted).1
      exact le_of_notLater ((List.pairwise_append.mp hfront).2.2 r hr x List.mem_cons_self)
    · rw [List.mem_singleton.mp hr]
      exact UInt64.le_refl _
  rw [h.server_sound.newer_of_le (results_le_pulled cap server client),
    h.server_sound.results_pulled h.client_sound (offered_of_newer hl hnewer), hnewer,
    List.filter_append, List.filter_eq_nil_iff.mpr, List.nil_append]
  exact fun r hr => by simpa using hfront r hr

/-! ## All rounds -/

theorem Pulls.record?_of_held (hp : Pulls cap server client client') (h : Replica server client)
    {hash : ContentHash} (hr : client.record? hash = some r) : client'.record? hash = some r := by
  induction hp with
  | done ended => exact hr
  | round behind offer rest ih => exact ih h.pulled (h.record?_pulled_of_held hr)

/-- What is not above the watermark is not pulled any more. -/
theorem Pulls.newer_or_held (hp : Pulls cap server client client') (h : Replica server client)
    {hash : ContentHash} (hr : client'.record? hash = some r) :
    client.status.results < r.timestamp ∨ client.record? hash = some r := by
  induction hp with
  | done ended => exact .inr hr
  | @round client client' behind offer rest ih =>
    rcases ih h.pulled hr with hlt | hr
    · exact .inl (UInt64.lt_of_le_of_lt (results_le_pulled cap server client) hlt)
    · refine (h.offered_or_held hr).imp_left fun hr => ?_
      exact (h.server_sound.mem_newer.mp (mem_newer_of_offered hr)).2

/-- The rounds end in one way. -/
theorem Pulls.unique {client₁ client₂ : Store} (h₁ : Pulls cap server client client₁)
    (h₂ : Pulls cap server client client₂) : client₁ = client₂ := by
  induction h₁ with
  | done ended =>
    cases h₂ with
    | done => rfl
    | round behind offer => exact absurd ⟨behind, offer⟩ ended
  | round behind offer rest ih =>
    cases h₂ with
    | done ended => exact absurd ⟨behind, offer⟩ ended
    | round _ _ rest' => exact ih rest'

/-- A batch that is not empty is not offered again, so the rounds end. -/
theorem Replica.exists_pulls (cap : Nat) {client : Store} (h : Replica server client) :
    ∃ client', Pulls cap server client client' := by
  by_cases hmore : client.status.results < server.status.results ∧ offered cap server client ≠ []
  · have hshorter := h.server_sound.length_newer_pulled h.client_sound hmore.2
    obtain ⟨client', hp⟩ := exists_pulls cap h.pulled
    exact ⟨client', .round hmore.1 hmore.2 hp⟩
  · exact ⟨client, .done hmore⟩
termination_by (server.newer client.status.results).length

/-- When the rounds are over there is nothing above the watermark. -/
theorem Replica.newer_of_done (h : Replica server client) (hcap : 0 < cap)
    (ended : ¬ (client.status.results < server.status.results ∧ offered cap server client ≠ [])) :
    server.newer client.status.results = [] := by
  apply Classical.byContradiction
  intro hne
  apply ended
  obtain ⟨x, hx⟩ := List.exists_mem_of_ne_nil _ hne
  obtain ⟨hheld, hlt⟩ := h.server_sound.mem_newer.mp hx
  refine ⟨UInt64.lt_of_lt_of_le hlt (h.server_sound.seen hheld), fun hnil => ?_⟩
  rcases List.take_eq_nil_iff.mp hnil with h0 | hnil
  · omega
  · exact hne hnil

theorem exists_full_batch (hcap : 0 < cap) (hlen : cap < rs.length) :
    ∃ l x y rest, (l ++ [x]).length = cap ∧ rs = (l ++ [x]) ++ y :: rest := by
  obtain ⟨k, rfl⟩ : ∃ k, cap = k + 1 := ⟨cap - 1, by omega⟩
  refine ⟨rs.take k, rs[k], rs[k + 1], rs.drop (k + 2), ?_, ?_⟩
  · simp
    omega
  · rw [← List.take_succ_eq_append_getElem, List.getElem_cons_drop, List.take_append_drop]

/-- A record that comes after a full batch and is of the time of its last record is never
pulled. -/
theorem Replica.missed (h : Replica server client)
    (hp : Pulls cap server (Store.pulled cap server client) client')
    (hl : (l ++ [x]).length = cap)
    (hnewer : server.newer client.status.results = (l ++ [x]) ++ y :: rs)
    (htie : y.timestamp ≤ x.timestamp) : client'.record? y.hash ≠ some y := by
  have hoffer := offered_of_newer hl hnewer
  intro hy
  rcases hp.newer_or_held h.pulled hy with hlt | hy
  · rw [h.server_sound.results_pulled h.client_sound hoffer] at hlt
    exact UInt64.not_lt.mpr htie hlt
  · rcases h.offered_or_held hy with hy | hy
    · have hnodup := h.server_sound.nodup_newer client.status.results
      rw [hnewer, List.map_append] at hnodup
      rw [hoffer] at hy
      exact (List.nodup_append.mp hnodup).2.2 _ (List.mem_map_of_mem hy) _ List.mem_cons_self rfl
    · rw [h.new_of_mem_newer (by simp [hnewer])] at hy
      cases hy

/-- A client gets all it does not have if and only if no batch ends between records of one
time. -/
theorem Pulls.complete_iff (hp : Pulls cap server client client') (h : Replica server client)
    (hcap : 0 < cap) :
    (∀ r ∈ server.newer client.status.results, client'.record? r.hash = some r) ↔
      CleanCuts cap (server.newer client.status.results) := by
  induction hp with
  | done ended =>
    rw [h.newer_of_done hcap ended]
    simp [CleanCuts]
  | @round client client' behind offer rest ih =>
    have hheld : ∀ r ∈ offered cap server client, client'.record? r.hash = some r := fun r hr =>
      rest.record?_of_held h.pulled (h.server_sound.record?_pulled_of_offered h.client_sound hr)
    rcases Nat.lt_or_ge cap (server.newer client.status.results).length with hlong | hshort
    · obtain ⟨l, x, y, rs, hl, hnewer⟩ := exists_full_batch hcap hlong
      by_cases hxy : x.timestamp < y.timestamp
      · have hlater : ∀ r ∈ y :: rs, x.timestamp < r.timestamp := by
          have hsorted := newer_sorted client.status.results server
          rw [hnewer] at hsorted
          have hy := (List.pairwise_append.mp hsorted).2.1
          refine List.forall_mem_cons.mpr ⟨hxy, fun r hr => ?_⟩
          exact UInt64.lt_of_lt_of_le hxy (le_of_notLater (List.rel_of_pairwise_cons hy hr))
        have hleft := h.newer_pulled hl hnewer
        rw [List.filter_eq_self.mpr (by simpa using hlater)] at hleft
        have ih := ih h.pulled
        rw [hleft] at ih
        rw [hnewer, cleanCuts_append_iff hl, ← ih]
        constructor
        · exact fun hall => ⟨hxy, fun r hr => hall r (List.mem_append_right _ hr)⟩
        · rintro ⟨-, hall⟩ r hr
          rcases List.mem_append.mp hr with hr | hr
          · exact hheld r (offered_of_newer hl hnewer ▸ hr)
          · exact hall r hr
      · rw [hnewer, cleanCuts_append_iff hl]
        refine iff_of_false (fun hall => ?_) fun hclean => hxy hclean.1
        exact h.missed rest hl hnewer (UInt64.not_lt.mp hxy) (hall y (by simp))
    · refine iff_of_true (fun r hr => hheld r ?_) (cleanCuts_of_length_le hshort)
      rwa [offered, recordsSince_eq, List.take_of_length_le hshort]

/-- Starting empty, a client ends up with every record of a server that has a time, unchanged,
if and only if no batch ends between records of one time. -/
theorem pull_complete_iff (h : server.Reachable) :
    ∃ client, Pulls Call.maxBatch server empty client ∧
      (∀ client', Pulls Call.maxBatch server empty client' → client' = client) ∧
      ((∀ hash r, server.record? hash = some r → 0 < r.timestamp →
          client.record? hash = some r) ↔ CleanCuts Call.maxBatch (server.newer 0)) := by
  have hempty := replica_empty h.sound
  obtain ⟨client, hp⟩ := hempty.exists_pulls Call.maxBatch
  have hcap : 0 < Call.maxBatch := by decide
  refine ⟨client, hp, fun client' hp' => hp'.unique hp, ?_⟩
  refine Iff.trans ?_ (hp.complete_iff hempty hcap)
  constructor
  · intro hall r hr
    obtain ⟨hheld, hpos⟩ := h.sound.mem_newer.mp hr
    exact hall r.hash r hheld hpos
  · intro hall hash r hheld hpos
    obtain rfl := h.sound.hash hheld
    exact hall r (h.sound.mem_newer.mpr ⟨hheld, hpos⟩)

/-! ## Numbered records -/

/-- The record whose hash is the number `k`. -/
def numbered (time : Nat → Time) (k : Nat) : Record :=
  ⟨⟨Bytes.bigEndian 32 k, Bytes.length_bigEndian 32 k⟩, "", "", "", time k⟩

/-- A server of `n` records. -/
def library (time : Nat → Time) (n : Nat) : Store :=
  (empty.mergeRecords ((List.range n).map (numbered time))).2

variable {time : Nat → Time} {n k : Nat}

theorem reachable_library (time : Nat → Time) (n : Nat) : (library time n).Reachable :=
  ⟨[.mergeRecords ((List.range n).map (numbered time))], rfl⟩

theorem nodup_numbered (time : Nat → Time) (hn : n ≤ 256 ^ (32 : Nat)) :
    (((List.range n).map (numbered time)).map (·.hash)).Nodup := by
  rw [List.map_map, List.nodup_iff_pairwise_ne, List.pairwise_map]
  refine List.Pairwise.imp_of_mem ?_ (List.nodup_iff_pairwise_ne.mp List.nodup_range)
  intro j k hj hk hne heq
  have hbytes : Bytes.bigEndian 32 j = Bytes.bigEndian 32 k := congrArg ContentHash.bytes heq
  have hnum := congrArg Bytes.ofBigEndian hbytes
  have hsmall : ∀ i ∈ List.range n, i < 256 ^ (32 : Nat) := fun i hi =>
    Nat.lt_of_lt_of_le (List.mem_range.mp hi) hn
  rw [Bytes.ofBigEndian_bigEndian, Bytes.ofBigEndian_bigEndian, Nat.mod_eq_of_lt (hsmall j hj),
    Nat.mod_eq_of_lt (hsmall k hk)] at hnum
  exact hne hnum

theorem library_eq (time : Nat → Time) (hn : n ≤ 256 ^ (32 : Nat)) :
    library time n = insertAll ((List.range n).map (numbered time)) empty := by
  refine congrArg Prod.snd (mergeRecords_of_newer (nodup_numbered time hn) fun r _ old hold => ?_)
  rw [record?_empty] at hold
  cases hold

theorem record?_library (hn : n ≤ 256 ^ (32 : Nat)) (hk : k < n) :
    (library time n).record? (numbered time k).hash = some (numbered time k) := by
  rw [library_eq time hn]
  refine record?_insertAll_of_mem (nodup_numbered time hn) (List.mem_map_of_mem ?_)
  exact List.mem_range.mpr hk

theorem numbered_of_record?_library (hn : n ≤ 256 ^ (32 : Nat)) {h : ContentHash}
    (hr : (library time n).record? h = some r) : ∃ k < n, r = numbered time k := by
  rw [library_eq time hn] at hr
  rcases mem_or_held_of_record?_insertAll hr with hr | hr
  · obtain ⟨k, hk, rfl⟩ := List.mem_map.mp hr
    exact ⟨k, List.mem_range.mp hk, rfl⟩
  · cases hr

/-- At different times, two batches bring every record. -/
theorem pull_complete_of_two_batches : (library (.ofNat <| · + 1) 2049).Reachable ∧
    ∃ client, Pulls Call.maxBatch (library (.ofNat <| · + 1) 2049) empty client ∧
      ∀ k < 2049, client.record? (numbered (.ofNat <| · + 1) k).hash =
        some (numbered (.ofNat <| · + 1) k) := by
  have hserver := reachable_library (.ofNat <| · + 1) 2049
  have hn : 2049 ≤ 256 ^ (32 : Nat) := by decide
  have htime : ∀ {k}, k < 2049 → (UInt64.ofNat (k + 1)).toNat = k + 1 := fun {k} hk =>
    UInt64.toNat_ofNat_of_lt (Nat.lt_of_le_of_lt hk (by decide))
  obtain ⟨client, hp, -, hiff⟩ := pull_complete_iff hserver
  refine ⟨hserver, client, hp, fun k hk => hiff.mpr ?_ _ _ (record?_library hn hk) ?_⟩
  · apply hserver.sound.cleanCuts_of_times
    intro r q hr hq heq
    obtain ⟨j, hj, rfl⟩ := numbered_of_record?_library hn hr
    obtain ⟨k, hk, rfl⟩ := numbered_of_record?_library hn hq
    have hjk := congrArg UInt64.toNat heq
    simp only [numbered, htime hj, htime hk] at hjk
    rw [Nat.succ.inj hjk]
  · rw [numbered, UInt64.lt_iff_toNat_lt, htime hk]
    exact Nat.succ_pos k

theorem length_newer_library (hn : n ≤ 256 ^ (32 : Nat)) (htime : ∀ k < n, 0 < time k) :
    n ≤ ((library time n).newer 0).length := by
  have hsub : ((List.range n).map (numbered time)).map (·.hash) ⊆
      ((library time n).newer 0).map (·.hash) := by
    refine List.map_subset _ fun r hr => ?_
    obtain ⟨k, hk, rfl⟩ := List.mem_map.mp hr
    have hk := List.mem_range.mp hk
    exact (reachable_library time n).sound.mem_newer.mpr ⟨record?_library hn hk, htime k hk⟩
  simpa using (nodup_numbered time hn).length_le_of_subset hsub

/-- At one time, what does not fit the first batch is never offered. -/
theorem pull_misses_tie : (library (fun _ => 5) 2049).Reachable ∧
    ∃ client, Pulls Call.maxBatch (library (fun _ => 5) 2049) empty client ∧
      ∃ r, (library (fun _ => 5) 2049).record? r.hash = some r ∧ 0 < r.timestamp ∧
        client.record? r.hash ≠ some r := by
  have hserver := reachable_library (fun _ => 5) 2049
  have hn : 2049 ≤ 256 ^ (32 : Nat) := by decide
  have hempty := replica_empty hserver.sound
  obtain ⟨client, hp⟩ := hempty.exists_pulls Call.maxBatch
  refine ⟨hserver, client, hp, Classical.byContradiction fun hnone => ?_⟩
  have hlong : 2049 ≤ ((library (fun _ => 5) 2049).newer 0).length :=
    length_newer_library hn fun _ _ => by decide
  have hclean : CleanCuts Call.maxBatch ((library (fun _ => 5) 2049).newer 0) := by
    refine (hp.complete_iff hempty (by decide)).mp fun r hr => ?_
    obtain ⟨hheld, hpos⟩ := hserver.sound.mem_newer.mp hr
    exact Classical.byContradiction fun hr' => hnone ⟨r, hheld, hpos, hr'⟩
  have htime : ∀ r ∈ (library (fun _ => 5) 2049).newer 0, r.timestamp = 5 := by
    intro r hr
    obtain ⟨k, -, rfl⟩ := numbered_of_record?_library hn (hserver.sound.mem_newer.mp hr).1
    rfl
  have hcut := hclean 2047 (by omega) (by decide)
  rw [htime _ (List.getElem_mem _), htime _ (List.getElem_mem _)] at hcut
  exact absurd hcut (by decide)

end SearchOverlay.Store
