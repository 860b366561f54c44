import SearchOverlay.Proofs.Log
import SearchOverlay.Proofs.Sync.Eviction
import SearchOverlay.Proofs.Sync.FirstSync

/-!
# When the marker goes

A visit removes the marker if and only if its cycle knows that the node is in its first sync and
the watermarks show that the node has caught up with the peer. Nothing restores it in the course of
cycles, so a node that starts from the files later is in its first sync again if and only if its
store is empty. A cycle that knows better leaves the marker alone: once a ping has failed, no peer
that the node catches up with removes it.
-/

namespace SearchOverlay

namespace Event

/-- Whether the event neither compares watermarks nor removes the marker. -/
def isPlain : Event → Bool
  | asked ⟨_, .getStatus, _⟩ | told .status _ | dropped => false
  | _ => true

theorem isPlain_told {c : Command} (hc : c ≠ .status) (answer : c.Answer) :
    (told c answer).isPlain := by
  cases c with
  | status => exact absurd rfl hc
  | _ => rfl

theorem isPlain_asked (peer : Contact) {q : Query} (hq : q ≠ .getStatus)
    (r : Except CallError q.Reply) : (asked ⟨peer, q, r⟩).isPlain := by
  cases q with
  | getStatus => exact absurd rfl hq
  | _ => rfl

/-- The watermarks that the peer answered with. -/
def theirs? (peer : Contact) : Event → Option SyncStatus
  | asked ⟨p, .getStatus, .ok theirs⟩ => if p = peer then some theirs else none
  | _ => none

/-- The watermarks that the node answered with. -/
def mine? : Event → Option SyncStatus
  | told .status mine => some mine
  | _ => none

theorem theirs?_of_isPlain {e : Event} (peer : Contact) (h : e.isPlain) :
    e.theirs? peer = none := by
  unfold theirs?
  split
  · cases h
  · rfl

theorem mine?_of_isPlain {e : Event} (h : e.isPlain) : e.mine? = none := by
  unfold mine?
  split
  · cases h
  · rfl

theorem ne_dropped_of_isPlain {e : Event} (h : e.isPlain) : .dropped ≠ e := by
  rintro rfl
  cases h

end Event

/-- The node compared its watermarks with those of the peer, and neither of the peer's is ahead. -/
def FindsCaughtUp (peer : Contact) (es : List Event) : Prop :=
  ∃ theirs ∈ es.filterMap (Event.theirs? peer), ∃ mine ∈ es.filterMap Event.mine?,
    Sync.caughtUp mine theirs

instance (peer : Contact) (es : List Event) : Decidable (FindsCaughtUp peer es) :=
  inferInstanceAs (Decidable (∃ theirs ∈ es.filterMap (Event.theirs? peer),
    ∃ mine ∈ es.filterMap Event.mine?, Sync.caughtUp mine theirs))

/-- The marker is removed if and only if the node is known to be in its first sync and has caught
up. -/
def Judges (known : Bool) (peer : Contact) (es : List Event) : Prop :=
  .dropped ∈ es ↔ known ∧ FindsCaughtUp peer es

section Judges

variable {known : Bool} {peer : Contact} {es fs : List Event} {e : Event}

theorem Judges.cons (he : e.isPlain) (h : Judges known peer es) : Judges known peer (e :: es) := by
  unfold Judges FindsCaughtUp
  rw [List.filterMap_cons_none (Event.theirs?_of_isPlain peer he),
    List.filterMap_cons_none (Event.mine?_of_isPlain he), List.mem_cons,
    or_iff_right (Event.ne_dropped_of_isPlain he)]
  exact h

theorem Judges.append (hes : ∀ e ∈ es, e.isPlain) (h : Judges known peer fs) :
    Judges known peer (es ++ fs) := by
  induction es with
  | nil => exact h
  | cons e es ih =>
    obtain ⟨he, hes⟩ := List.forall_mem_cons.mp hes
    exact (ih hes).cons he

theorem judges_nil (known : Bool) (peer : Contact) : Judges known peer [] := by
  simp [Judges, FindsCaughtUp]

theorem judges_of_plain (known : Bool) (peer : Contact) (h : ∀ e ∈ es, e.isPlain) :
    Judges known peer es := by
  rw [← List.append_nil es]
  exact (judges_nil known peer).append h

/-- A log in which only the first two events compare watermarks. -/
theorem findsCaughtUp_compared {mine theirs : SyncStatus}
    (htheirs : es.filterMap (Event.theirs? peer) = []) (hmine : es.filterMap Event.mine? = []) :
    FindsCaughtUp peer (.asked ⟨peer, .getStatus, .ok theirs⟩ :: .told .status mine :: es) ↔
      Sync.caughtUp mine theirs := by
  have hreported : (Event.asked ⟨peer, .getStatus, .ok theirs⟩).theirs? peer = some theirs :=
    if_pos rfl
  have htold : (Event.told .status mine).mine? = some mine := rfl
  rw [FindsCaughtUp, List.filterMap_cons_some hreported, List.filterMap_cons_none rfl, htheirs,
    List.filterMap_cons_none rfl, List.filterMap_cons_some htold, hmine]
  simp only [List.mem_singleton, exists_eq_left]

theorem filterMap_theirs?_of_plain (peer : Contact) (hes : ∀ e ∈ es, e.isPlain) :
    es.filterMap (Event.theirs? peer) = [] :=
  List.filterMap_eq_nil_iff.mpr fun e he => Event.theirs?_of_isPlain peer (hes e he)

theorem filterMap_mine?_of_plain (hes : ∀ e ∈ es, e.isPlain) : es.filterMap Event.mine? = [] :=
  List.filterMap_eq_nil_iff.mpr fun e he => Event.mine?_of_isPlain (hes e he)

theorem not_mem_of_plain (hes : ∀ e ∈ es, e.isPlain) : .dropped ∉ es :=
  fun h => Event.ne_dropped_of_isPlain (hes _ h) rfl

end Judges

namespace Activity

/-- The activity neither compares watermarks nor removes the marker. -/
def Plain {α : Type} (x : Activity α) : Prop := x.Tells fun _ es => ∀ e ∈ es, e.isPlain

theorem plain_pulling : Pulling @Plain where
  done _ := .done fun _ he => absurd he List.not_mem_nil
  tell _ hc h := .tell fun answer => (h answer).imp fun _ _ hes =>
    List.forall_mem_cons.mpr ⟨Event.isPlain_told hc answer, hes⟩
  ask _ hq h := .ask fun r => (h r).imp fun _ _ hes =>
    List.forall_mem_cons.mpr ⟨Event.isPlain_asked _ hq r, hes⟩
  bind hx hf := .bind (hx.imp fun a _ hes => (hf a).imp fun _ _ hfs =>
    List.forall_mem_append.mpr ⟨hes, hfs⟩)

end Activity

namespace Sync

open Activity

/-! ## What a visit does to the marker -/

section Stages

variable (me peer : Contact) (known : Bool)

theorem setFlag_tells (value : Bool) :
    (setFlag known value).Tells fun flag es => flag = value ∧ ∀ e ∈ es, e.isPlain := by
  unfold setFlag
  split
  · next h => exact .done ⟨h, nofun⟩
  · exact .tell fun _ => .done ⟨rfl, fun e he => by rw [List.mem_singleton.mp he]; rfl⟩

theorem compareStatus_judges : (compareStatus peer known).Tells fun _ => Judges known peer := by
  refine .ask fun r => ?_
  cases r with
  | error e =>
    refine (evict_return_closed plain_pulling peer known .status).imp fun _ es hes => ?_
    refine iff_of_false ?_ ?_
    · simpa using not_mem_of_plain hes
    · rintro ⟨-, theirs, htheirs, -⟩
      rw [List.filterMap_cons_none rfl, filterMap_theirs?_of_plain peer hes] at htheirs
      cases htheirs
  | ok theirs =>
    refine .tell fun (mine : SyncStatus) => ?_
    split
    · next hcaught =>
      obtain ⟨hknown, hcaught⟩ := Bool.and_eq_true_iff.mp hcaught
      have hpull := pullResults_closed plain_pulling peer mine theirs known
      refine .dropMarker (hpull.imp fun _ es hes => ?_)
      refine iff_of_true (by simp) ⟨hknown, (findsCaughtUp_compared ?_ ?_).mpr hcaught⟩
      · rw [List.filterMap_cons_none rfl, filterMap_theirs?_of_plain peer hes]
      · rw [List.filterMap_cons_none rfl, filterMap_mine?_of_plain hes]
    · next hnot =>
      refine (pullResults_closed plain_pulling peer mine theirs known).imp fun _ es hes => ?_
      refine iff_of_false ?_ ?_
      · simpa using not_mem_of_plain hes
      · rintro ⟨hknown, hcaught⟩
        have hcaught := (findsCaughtUp_compared (filterMap_theirs?_of_plain peer hes)
          (filterMap_mine?_of_plain hes)).mp hcaught
        exact hnot (Bool.and_eq_true_iff.mpr ⟨hknown, hcaught⟩)

theorem refreshRouting_judges :
    (refreshRouting me.identity peer known).Tells fun _ => Judges known peer := by
  refine .tell fun full => ?_
  split
  · exact (compareStatus_judges peer known).imp fun _ _ h => h.cons rfl
  · refine .ask fun r => ?_
    cases r with
    | ok cs =>
      refine .clock fun shown => .tell fun _ => ?_
      refine (compareStatus_judges peer known).imp fun _ _ h => ?_
      exact ((h.cons rfl).cons rfl).cons rfl
    | error e =>
      refine (evict_return_closed plain_pulling peer known .refreshRouting).imp fun _ _ hes => ?_
      exact ((judges_of_plain known peer hes).cons rfl).cons rfl

/-- A ping that fails takes the flag, but then the watermarks are not compared. -/
theorem afterPing_judges {flag : Bool} {pong : Except CallError (Query.ping me).Reply}
    (hflag : flag = (known && pong.isOk)) :
    (afterPing me peer flag pong).Tells fun _ => Judges known peer := by
  cases pong with
  | ok id =>
    obtain rfl : flag = known := hflag.trans (Bool.and_true known)
    exact refreshRouting_judges me peer flag
  | error e =>
    unfold afterPing
    dsimp only
    split
    · exact .done (judges_of_plain known peer nofun)
    · exact (evict_return_closed plain_pulling peer flag .ping).imp fun _ _ =>
        judges_of_plain known peer

theorem visit_judges : (visit me peer known).Tells fun _ => Judges known peer := by
  rw [visit_eq]
  refine .ask fun pong => ?_
  cases known with
  | false => exact .bind (.done ((afterPing_judges me peer false rfl).imp fun _ _ h => h.cons rfl))
  | true =>
    refine .bind ((setFlag_tells true pong.isOk).imp ?_)
    rintro flag es ⟨hflag, hes⟩
    exact (afterPing_judges me peer true hflag).imp fun _ fs h => (h.append hes).cons rfl

end Stages

end Sync

/-! ## The marker on the node -/

namespace Activity

variable {α : Type} {R : LocalNode → LocalNode → Prop} {x y : Activity α} {n n' : LocalNode}
  {es : List Event} {xs : List Exchange} {a : α}

/-- If nobody makes the marker, it is there in the end only if it was there and has not been
removed. -/
theorem Log.marked (hR : ∀ n m, R n m → m.marked → n.marked) (h : x.Log R n es a n')
    (hn' : n'.marked) : n.marked ∧ .dropped ∉ es := by
  induction h with
  | done a meanwhile => exact ⟨hR _ _ meanwhile hn', List.not_mem_nil⟩
  | clock meanwhile _ _ ih =>
    obtain ⟨hm, hes⟩ := ih hn'
    exact ⟨hR _ _ meanwhile hm, hes⟩
  | pause meanwhile _ ih =>
    obtain ⟨hm, hes⟩ := ih hn'
    exact ⟨hR _ _ meanwhile hm, hes⟩
  | tell meanwhile shown _ ih =>
    obtain ⟨hm, hes⟩ := ih hn'
    rw [LocalNode.marked_perform] at hm
    exact ⟨hR _ _ meanwhile hm, by simpa using hes⟩
  | dropMarker _ _ ih =>
    obtain ⟨hm, -⟩ := ih hn'
    rw [LocalNode.marked_dropMarker] at hm
    cases hm
  | ask meanwhile _ _ ih =>
    obtain ⟨hm, hes⟩ := ih hn'
    exact ⟨hR _ _ meanwhile hm, by simpa using hes⟩

theorem Log.marked_eq (hR : ∀ n m, R n m → m.marked = n.marked) (h : x.Log R n es a n')
    (hes : .dropped ∉ es) : n'.marked = n.marked := by
  induction h with
  | done a meanwhile => exact hR _ _ meanwhile
  | clock meanwhile _ _ ih | pause meanwhile _ ih => exact (ih hes).trans (hR _ _ meanwhile)
  | tell meanwhile shown _ ih =>
    have hm := ih fun h => hes (List.mem_cons_of_mem _ h)
    rw [LocalNode.marked_perform] at hm
    exact hm.trans (hR _ _ meanwhile)
  | dropMarker _ _ _ => exact absurd List.mem_cons_self hes
  | ask meanwhile _ _ ih =>
    exact (ih fun h => hes (List.mem_cons_of_mem _ h)).trans (hR _ _ meanwhile)

theorem Happens.marked {m : LocalNode} (h : Happens n m) (hm : m.marked) : n.marked := by
  induction h with
  | refl n => exact hm
  | step first rest ih =>
    have hm := ih hm
    cases first with
    | tell c k n shown => rwa [LocalNode.marked_perform] at hm
    | dropMarker k n =>
      rw [LocalNode.marked_dropMarker] at hm
      cases hm
    | _ => exact hm

end Activity

/-- A node that starts is in its first sync if its files have the marker or its store is empty. -/
theorem LocalNode.bootstrapping_startSync_iff (n : LocalNode) :
    n.startSync.bootstrapping ↔ n.marked ∨ n.store.isEmpty := by
  have hmade : (n.files.write markerName []).has markerName := by simp [Directory.has]
  unfold startSync marked
  cases n.store.isEmpty <;> cases hmarker : n.files.has markerName <;> simp [hmarker, hmade]

namespace Sync

open Activity

/-- While cycles run one at a time amid commands of others, a visit leaves the marker where it is,
unless it begins in the first sync and finds that the node has caught up with the peer: then the
marker is gone. So it is then whatever else happens on the node during the visit, other cycles
included. Once gone the marker stays so, and a node that starts on the files is in its first sync if
and only if its store is empty. -/
theorem marker_left_iff (n₀ : LocalNode) :
    (∀ n n' known known' me peer es outcome, Serial n₀ (some known) n →
      (visit me peer known).Log Others n es (outcome, known') n' →
      Serial n₀ (some known') n' ∧ (n.stopped = false → known = n.inFirstSync) ∧
        (n'.marked ↔ n.marked ∧ ¬ (known ∧ FindsCaughtUp peer es))) ∧
    (∀ n n' known me peer xs r, (visit me peer known).Trace n xs (.done r) n' →
      ∃ es, (visit me peer known).Log Others n es r n' ∧ es.filterMap Event.exchange? = xs) ∧
    (∀ n n' me peer es r, (visit me peer true).Log Happens n es r n' → FindsCaughtUp peer es →
      n'.marked = false) ∧
    ∀ n m, n.marked = false → Happens n m → m.marked = false ∧
      ∀ started : LocalNode, started.files = m.files →
        (started.startSync.bootstrapping ↔ started.store.isEmpty) := by
  refine ⟨fun n n' known known' me peer es outcome hserial hlog => ?_, fun _ _ _ _ _ _ _ h =>
    h.exists_log, fun n n' me peer es r hlog hcaught => ?_, fun n m hn h => ?_⟩
  · have hjudged : Judges known peer es := visit_judges me peer known _ _ hlog.says
    refine ⟨hserial.visit hlog.trace, fun hn => ?_, ?_⟩
    · rw [LocalNode.inFirstSync_of_running hn]
      exact ((hserial.sound hn).2 known rfl).symm
    · constructor
      · intro hn'
        obtain ⟨hn, hes⟩ := hlog.marked (fun _ _ ho => by rw [ho.marked]; exact id) hn'
        exact ⟨hn, fun h => hes (hjudged.mpr h)⟩
      · rintro ⟨hn, hnot⟩
        rw [hlog.marked_eq (fun _ _ ho => ho.marked) fun h => hnot (hjudged.mp h)]
        exact hn
  · have hdropped := (visit_judges me peer true _ _ hlog.says).mpr ⟨rfl, hcaught⟩
    exact Bool.eq_false_iff.mpr fun hn' =>
      (hlog.marked (fun _ _ h => h.marked) hn').2 hdropped
  · have hm : m.marked = false :=
      Bool.eq_false_iff.mpr fun hm => Bool.eq_false_iff.mp hn (h.marked hm)
    refine ⟨hm, fun started hfiles => ?_⟩
    have hgone : started.marked = false := by rw [LocalNode.marked, hfiles]; exact hm
    rw [started.bootstrapping_startSync_iff, hgone]
    simp

/-- A node that holds a record and has not finished its first sync. -/
def unfinished : LocalNode :=
  { nodeOfTwo with
    store := Store.empty.insert ⟨.zero, "u", "t", "s", 5⟩
    files := Directory.empty.write markerName [] }

/-- The node catches up with `b`, and so it is not in its first sync when it starts again. -/
theorem marker_left_iff_of_caught_up :
    let b : Contact := ⟨⟨0, 0, 0, 0, 2⟩, "b", 3, 0⟩
    let x := visit unfinished.table.self b true
    let n' := (x.run (reporting []) unfinished.startSync ()).2.1
    unfinished.startSync.inFirstSync ∧ unfinished.startSync.marked ∧
      FindsCaughtUp b (x.events (reporting []) unfinished.startSync ()) ∧ n'.marked = false ∧
      n'.startSync.bootstrapping = false := by
  intro b x
  have hin : unfinished.startSync.inFirstSync = true := by decide +kernel
  have hmarked : unfinished.startSync.marked = true := by decide +kernel
  have hcaught : FindsCaughtUp b (x.events (reporting []) unfinished.startSync ()) := by
    decide +kernel
  have hfull : (x.run (reporting []) unfinished.startSync ()).2.1.store.isEmpty = false := by
    decide +kernel
  have hserial : Serial unfinished (some true) unfinished.startSync := hin ▸ Serial.start.begin
  have hlog := run_log Others.refl (reporting []) x unfinished.startSync ()
  generalize x.events (reporting []) unfinished.startSync () = es at hlog hcaught ⊢
  generalize x.run (reporting []) unfinished.startSync () = r at hlog hfull ⊢
  obtain ⟨⟨outcome, known⟩, n', w⟩ := r
  obtain ⟨hvisit, -, -, hgone⟩ := marker_left_iff unfinished
  obtain ⟨-, -, hiff⟩ := hvisit _ _ _ _ _ _ _ _ hserial hlog
  have hn' : n'.marked = false := Bool.eq_false_iff.mpr fun h => (hiff.mp h).2 ⟨rfl, hcaught⟩
  have hrestart := (hgone n' n' hn' (.refl n')).2 n' rfl
  rw [hfull] at hrestart
  exact ⟨hin, hmarked, hcaught, hn', by simpa using hrestart⟩

/-- The ping of `a` fails first: the node catches up with `b` all the same, but the marker stays and
the node is in its first sync when it starts again. Without records it is so even when the marker
has been removed. -/
theorem failed_ping_keeps_marker :
    let b : Contact := ⟨⟨0, 0, 0, 0, 2⟩, "b", 3, 0⟩
    let r := cycle.run (reporting []) unfinished.startSync ()
    let n := ((visit nodeOfTwo.table.self b true).run (reporting []) nodeOfTwo.startSync ()).2.1
    unfinished.startSync.inFirstSync ∧ unfinished.startSync.marked ∧
      r.1 = [(⟨⟨0, 0, 0, 0, 1⟩, "a", 3, 0⟩, .evicted .ping), (b, .synced 0 0)] ∧
      FindsCaughtUp b (cycle.events (reporting []) unfinished.startSync ()) ∧
      r.2.1.marked ∧ r.2.1.startSync.bootstrapping ∧
      nodeOfTwo.startSync.inFirstSync ∧ n.marked = false ∧ n.startSync.bootstrapping := by
  decide +kernel

end Sync

end SearchOverlay
