import SearchOverlay.Sorting
import SearchOverlay.Proofs.Store.Pull

/-!
# Rounds of pulls

A client pulls batch after batch of a server that does not change, whatever it holds already.
Every record of a batch is newer than the client's watermark, and so than what the client holds of
its page; the watermark then goes up to the last of them. So every batch counts in full, no record
comes twice, and after at most as many rounds as the server has records there is no more to pull.
-/

namespace SearchOverlay.Store

/-- The batches of the first `n` rounds. -/
def batches (cap : Nat) (server : Store) : Nat → Store → List (List Record)
  | 0, _ => []
  | n + 1, client => offered cap server client :: batches cap server n (pulled cap server client)

def afterRounds (cap : Nat) (server : Store) : Nat → Store → Store
  | 0, client => client
  | n + 1, client => afterRounds cap server n (pulled cap server client)

variable {cap n : Nat} {server client : Store} {since : Time} {r q : Record} {h : ContentHash}

/-! ## One batch -/

theorem length_newer_le_size (since : Time) (s : Store) : (s.newer since).length ≤ s.size := by
  calc (s.newer since).length = (s.recordList.filter (since < ·.timestamp)).length :=
        (newer_perm since s).length_eq
    _ ≤ s.recordList.length := List.length_filter_le ..
    _ = s.size := by rw [recordList, List.length_map, Std.ExtTreeMap.length_toList, size]

theorem recordsSince_of_size_le {s : Store} (h : s.size ≤ n) :
    s.recordsSince since n = s.newer since := by
  rw [recordsSince_eq, List.take_of_length_le (Nat.le_trans (length_newer_le_size since s) h)]

/-- Sorted by insertion, a batch evaluates. -/
theorem recordsSince_eq_sortBy (since : Time) (max : Nat) (s : Store) : s.recordsSince since max =
    (sortBy (fun r q : Record => notLater r.timestamp r.hash q.timestamp q.hash)
      (s.recordList.filter (since < ·.timestamp))).take max := by
  rw [sortBy_eq_mergeSort]
  · rfl
  · exact fun _ _ _ => notLater_trans
  · exact fun _ _ => notLater_total ..

theorem offered_sorted (cap : Nat) (server client : Store) :
    (offered cap server client).Pairwise (·.timestamp ≤ ·.timestamp) :=
  ((newer_sorted _ server).sublist (List.take_sublist _ _)).imp le_of_notLater

/-- What the client does not hold yet, and nothing else, changes by a batch. -/
theorem Sound.record?_pulled (hserver : server.Sound) (hclient : client.Sound) (cap : Nat) :
    (∀ r ∈ offered cap server client, client.record? r.hash ≠ some r ∧
      (pulled cap server client).record? r.hash = some r) ∧
    ∀ h ∉ (offered cap server client).map (·.hash),
      (pulled cap server client).record? h = client.record? h := by
  constructor
  · intro r hr
    refine ⟨fun hold => ?_, hserver.record?_pulled_of_offered hclient hr⟩
    exact UInt64.not_lt.mpr (hclient.seen hold) (hserver.held_and_newer_of_offered hr).2
  · intro h hh
    rw [hserver.pulled_eq hclient, record?_insertAll_of_not_mem hh]

theorem Sound.results_pulled_of_getLast? (hserver : server.Sound) (hclient : client.Sound)
    (hr : (offered cap server client).getLast? = some r) :
    (pulled cap server client).status.results = r.timestamp ∧
      client.status.results < r.timestamp := by
  obtain ⟨l, hoffer⟩ := List.getLast?_eq_some_iff.mp hr
  have hmem : r ∈ offered cap server client := List.mem_of_getLast? hr
  exact ⟨hserver.results_pulled hclient hoffer, (hserver.held_and_newer_of_offered hmem).2⟩

/-! ## All batches -/

/-- What comes in later rounds is held by the server and above the watermark. -/
theorem Sound.held_and_newer_of_batches (hserver : server.Sound)
    (hr : r ∈ (batches cap server n client).flatten) :
    server.record? r.hash = some r ∧ client.status.results < r.timestamp := by
  induction n generalizing client with
  | zero => cases hr
  | succ n ih =>
    rw [batches, List.flatten_cons, List.mem_append] at hr
    rcases hr with hr | hr
    · exact hserver.held_and_newer_of_offered hr
    · obtain ⟨hheld, hnewer⟩ := ih hr
      exact ⟨hheld, UInt64.lt_of_le_of_lt (results_le_pulled cap server client) hnewer⟩

theorem Sound.nodup_batches (hserver : server.Sound) (hclient : client.Sound) (cap n : Nat) :
    ((batches cap server n client).flatten.map (·.hash)).Nodup := by
  induction n generalizing client with
  | zero => exact .nil
  | succ n ih =>
    rw [batches, List.flatten_cons, List.map_append, List.nodup_append]
    refine ⟨hserver.nodup_offered cap client, ih (hclient.mergeRecords _), ?_⟩
    intro h hoffer i hlater heq
    obtain ⟨r, hr, rfl⟩ := List.mem_map.mp hoffer
    obtain ⟨q, hq, rfl⟩ := List.mem_map.mp hlater
    obtain ⟨hheld, hnewer⟩ := hserver.held_and_newer_of_batches hq
    rw [← heq, (hserver.held_and_newer_of_offered hr).1] at hheld
    obtain rfl := Option.some.inj hheld
    have hseen := (hclient.mergeRecords _).seen (hserver.record?_pulled_of_offered hclient hr)
    exact UInt64.not_lt.mpr hseen hnewer

theorem Sound.exists_dry_round (hserver : server.Sound) (hclient : client.Sound) (cap : Nat)
    (hn : (server.newer client.status.results).length ≤ n) :
    ∃ k ≤ n, offered cap server (afterRounds cap server k client) = [] := by
  induction n generalizing client with
  | zero =>
    refine ⟨0, Nat.le_refl 0, ?_⟩
    rw [afterRounds, offered, recordsSince_eq, List.length_eq_zero_iff.mp (Nat.le_zero.mp hn),
      List.take_nil]
  | succ n ih =>
    by_cases hoffer : offered cap server client = []
    · exact ⟨0, Nat.zero_le _, hoffer⟩
    · have hless := hserver.length_newer_pulled hclient hoffer
      obtain ⟨k, hk, hdry⟩ := ih (hclient.mergeRecords _)
        (Nat.le_of_lt_succ (Nat.lt_of_lt_of_le hless hn))
      exact ⟨k + 1, Nat.succ_le_succ hk, hdry⟩

/-- A batch with room for a record is empty only if the watermark has seen all records. -/
theorem Sound.le_results_of_dry (hserver : server.Sound) (hcap : 0 < cap)
    (hdry : offered cap server client = []) (hr : server.record? h = some r) :
    r.timestamp ≤ client.status.results := by
  obtain rfl := hserver.hash hr
  apply UInt64.not_lt.mp
  intro hlt
  have hmem : r ∈ server.newer client.status.results := hserver.mem_newer.mpr ⟨hr, hlt⟩
  rcases List.take_eq_nil_iff.mp hdry with hzero | hnil
  · exact Nat.ne_of_gt hcap hzero
  · exact List.ne_nil_of_mem hmem hnil

/-- The batch that a client pulls has different pages, is newer than the client's watermark, goes up
in time and is the front of all there is to pull. Each record of it counts as a change and takes
its place in the client, nothing else changes, and the watermark goes up to the last record. Over
any number of rounds with a server that does not change no page comes twice, and after at most as
many rounds as the server has records the batch is empty and the watermark has seen all of them. -/
theorem rounds_run_dry (hclient : client.Reachable) (hserver : server.Reachable) (cap : Nat) :
    let since := client.status.results
    let batch := server.recordsSince since cap
    let merged := client.mergeRecords batch
    (batch.map (·.hash)).Nodup ∧ (∀ r ∈ batch, since < r.timestamp) ∧
    batch.Pairwise (·.timestamp ≤ ·.timestamp) ∧
    (∀ n, server.size ≤ n → batch = (server.recordsSince since n).take cap ∧
      ∀ r, r ∈ server.recordsSince since n ↔
        server.record? r.hash = some r ∧ since < r.timestamp) ∧
    merged.1 = batch.length ∧
    (∀ r ∈ batch, client.record? r.hash ≠ some r ∧ merged.2.record? r.hash = some r) ∧
    (∀ h ∉ batch.map (·.hash), merged.2.record? h = client.record? h) ∧
    (∀ r, batch.getLast? = some r → merged.2.status.results = r.timestamp ∧ since < r.timestamp) ∧
    (∀ n, ((batches cap server n client).flatten.map (·.hash)).Nodup) ∧
    ∃ n ≤ server.size, let final := afterRounds cap server n client
      server.recordsSince final.status.results cap = [] ∧
      (0 < cap → ∀ h r, server.record? h = some r → r.timestamp ≤ final.status.results) := by
  intro since batch merged
  have hclient := hclient.sound
  have hserver := hserver.sound
  have hchanged : client.mergeRecords batch = (batch.length, insertAll batch client) :=
    hserver.mergeRecords_offered hclient
  obtain ⟨hheld, hframe⟩ := hserver.record?_pulled hclient cap
  obtain ⟨n, hn, hdry⟩ := hserver.exists_dry_round hclient cap (length_newer_le_size since server)
  refine ⟨hserver.nodup_offered cap client, fun r hr => (hserver.held_and_newer_of_offered hr).2,
    offered_sorted cap server client, fun n hn => ?_, congrArg Prod.fst hchanged, hheld, hframe,
    fun r => hserver.results_pulled_of_getLast? hclient, hserver.nodup_batches hclient cap,
    n, hn, hdry, fun hcap h r => hserver.le_results_of_dry hcap hdry⟩
  rw [recordsSince_of_size_le hn]
  exact ⟨rfl, fun r => hserver.mem_newer⟩

/-- Of the five records of a server the first two are of one time and the next two of a later one,
and the client holds an older record of the second page. A batch of three takes the place of that
one too and ends between the two later ones. -/
theorem rounds_run_dry_of_five :
    let server := library (fun k => .ofNat (k / 2 + 1)) 5
    let client := empty.run [.insert (numbered (fun _ => 0) 1)]
    let merged := client.mergeRecords (server.recordsSince 0 3)
    client.Reachable ∧ server.Reachable ∧
      (server.recordsSince 0 3).map (·.timestamp) = [1, 1, 2] ∧ merged.1 = 3 ∧
      merged.2.status.results = 2 ∧
      ((batches 3 server 5 client).flatten.map (·.hash)).Nodup ∧
      ∃ n ≤ 5, server.recordsSince (afterRounds 3 server n client).status.results 3 = [] := by
  intro server client merged
  have hclient : client.Reachable := ⟨_, rfl⟩
  have hserver : server.Reachable := reachable_library ..
  have htimes : (server.recordsSince 0 3).map (·.timestamp) = [1, 1, 2] := by
    rw [recordsSince_eq_sortBy]
    decide +kernel
  obtain ⟨-, -, -, -, hcount, -, -, hlast, honce, n, hn, hdry, -⟩ :=
    rounds_run_dry hclient hserver 3
  have hlength : (server.recordsSince 0 3).length = 3 := by
    simpa using congrArg List.length htimes
  obtain ⟨r, hr, htime⟩ : ∃ r, (server.recordsSince 0 3).getLast? = some r ∧ r.timestamp = 2 := by
    simpa [List.getLast?_map] using congrArg List.getLast? htimes
  have hsize : server.size = 5 := by decide +kernel
  exact ⟨hclient, hserver, htimes, hcount.trans hlength, (hlast r hr).1.trans htime, honce 5, n,
    hsize ▸ hn, hdry⟩

end SearchOverlay.Store
