import SearchOverlay.Proofs.Trace
import SearchOverlay.Proofs.Member.Blind

/-!
# Foreign bookkeeping

A member works off inputs: commands, among them the pings of others, and steps of the activities
that it has under way, with what the clock shows and what its peers answer. Inputs that differ
only in what foreign contacts say of when they were seen lead to the same tables up to the first
ping that adopts its caller: reports are restamped, a caller that is adopted is not.
-/

namespace SearchOverlay

/-! ## Activities step by step -/

namespace Activity

variable {α : Type} {x y : Activity α} {n m : LocalNode}

abbrev Answers := (q : Query) → Except CallError q.Reply

/-- The next step of an activity, given what the clock shows and what peers answer. -/
def advance (shown : Clock) (answers : Answers) : Activity α → LocalNode → Activity α × LocalNode
  | done a, n => (done a, n)
  | clock k, n => (k shown, n)
  | pause _ k, n => (k (), n)
  | tell c k, n => (k (n.perform shown c).1, (n.perform shown c).2)
  | dropMarker k, n => (k (), n.dropMarker)
  | ask _ q k, n => (k (answers q), n)

theorem Blind.advance (h : x.Blind) (shown : Clock) (answers : Answers) (n : LocalNode) :
    (x.advance shown answers n).1.Blind := by
  cases x with
  | done a => exact h
  | clock k => exact h shown
  | pause ms k => exact h
  | tell c k => exact h _
  | dropMarker k => exact h
  | ask p q k => exact (h _).1

theorem Blind.advance_blur (h : x.Blind) (shown : Clock) (answers : Answers) (n : LocalNode) :
    x.advance shown (fun q => (answers q).map q.blur) n = x.advance shown answers n := by
  cases x with
  | ask p q k => simp only [Activity.advance, (h _).2]
  | _ => rfl

end Activity

/-! ## Members at work -/

/-- A member at work: its node and the activities that it has under way. -/
structure Member where
  node : LocalNode
  underway : List (Activity Unit)

namespace Member

inductive Task where
  | lookup
  | join (address : String)
  | cycle
  | nextCycle (pace : Sync.Pace) (cycles : Nat)

def Task.activity : Task → Activity Unit
  | lookup => do let _ ← Lookup.run
  | join address => do let _ ← Join.run address
  | cycle => do let _ ← Sync.cycle
  | nextCycle pace cycles => Sync.nextCycle pace cycles

theorem Task.blind (x : Task) : x.activity.Blind := by
  cases x with
  | lookup => exact Lookup.run_blind.bind fun _ => trivial
  | join address => exact (Join.run_blind address).bind fun _ => trivial
  | cycle => exact (Sync.cycle_closed Activity.closed_blind).bind fun _ => trivial
  | nextCycle pace cycles => exact Sync.nextCycle_blind pace cycles

inductive Input where
  /-- A command of the member itself, or of a call that it serves. -/
  | command (shown : Clock) (c : Command)
  | start (x : Task)
  /-- The next step of the activity with a number. -/
  | advance (number : Nat) (shown : Clock) (answers : Activity.Answers)

/-- The input without what foreign contacts say of when they were seen. -/
def Input.blur : Input → Input
  | command shown (.ping c) => command shown (.ping c.blur)
  | advance number shown answers => advance number shown fun q => (answers q).map q.blur
  | i => i

def step (i : Input) (m : Member) : Member :=
  match i with
  | .command shown c => { m with node := (m.node.perform shown c).2 }
  | .start x => { m with underway := m.underway ++ [x.activity] }
  | .advance number shown answers =>
    match m.underway[number]? with
    | none => m
    | some x =>
      let (x, node) := x.advance shown answers m.node
      ⟨node, m.underway.set number x⟩

/-- Works off inputs one after the other. -/
def run (is : List Input) (m : Member) : Member := is.foldl (fun m i => m.step i) m

def idle (n : LocalNode) : Member := ⟨n, []⟩

/-- Both inputs are pings, of different callers, and the table adopts one of them. -/
def Imports (n : LocalNode) : Input → Input → Prop
  | .command _ (.ping c), .command _ (.ping d) =>
    n.stopped = false ∧ c ≠ d ∧ (n.table.Adopts c ∨ n.table.Adopts d)
  | _, _ => False

def Blind (m : Member) : Prop := ∀ x ∈ m.underway, x.Blind

variable {m : Member} {n : LocalNode} {i j : Input} {is js : List Input}

theorem Blind.step (h : m.Blind) (i : Input) : (m.step i).Blind := by
  cases i with
  | command shown c => exact h
  | start x =>
    intro y hy
    rcases List.mem_append.mp hy with hy | hy
    · exact h y hy
    · rw [List.mem_singleton.mp hy]
      exact x.blind
  | advance number shown answers =>
    simp only [Member.step]
    split
    · exact h
    · next x hx =>
      intro y hy
      rcases List.mem_or_eq_of_mem_set hy with hy | rfl
      · exact h y hy
      · exact (h x (List.mem_of_getElem? hx)).advance shown answers m.node

/-! ## One input -/

theorem step_ping (shown : Clock) (c : Contact) (m : Member) :
    m.step (.command shown (.ping c)) = if m.node.stopped then m else
      { m with node := { m.node with table := (m.node.table.push shown.now c).2 } } := by
  simp only [step, LocalNode.perform]
  split <;> rfl

theorem Blind.step_blur (h : m.Blind) (hi : ∀ shown c, i ≠ .command shown (.ping c)) :
    m.step i.blur = m.step i := by
  cases i with
  | command shown c =>
    cases c with
    | ping c => exact absurd rfl (hi shown c)
    | _ => rfl
  | start x => rfl
  | advance number shown answers =>
    simp only [Input.blur, Member.step]
    split
    · rfl
    · next x hx => rw [(h x (List.mem_of_getElem? hx)).advance_blur]

theorem Input.blur_eq_ping {shown : Clock} {c : Contact}
    (h : i.blur = .command shown (.ping c)) :
    ∃ d, i = .command shown (.ping d) ∧ c = d.blur := by
  cases i with
  | command shown' c' =>
    cases c' with
    | ping d =>
      cases h
      exact ⟨d, rfl, rfl⟩
    | _ => cases h
  | start x => cases h
  | advance number shown answers => cases h

/-- Inputs that differ in bookkeeping only do the same, or are pings. -/
theorem Blind.step_eq_or_pings (h : m.Blind) (hij : i.blur = j.blur) :
    (m.step i = m.step j ∧ ∀ shown c, i ≠ .command shown (.ping c)) ∨
      ∃ shown c d, i = .command shown (.ping c) ∧ j = .command shown (.ping d) ∧
        c.blur = d.blur := by
  by_cases hi : ∃ shown c, i = .command shown (.ping c)
  · obtain ⟨shown, c, rfl⟩ := hi
    obtain ⟨d, rfl, hcd⟩ := Input.blur_eq_ping hij.symm
    exact .inr ⟨shown, c, d, rfl, rfl, hcd⟩
  · have hi : ∀ shown c, i ≠ .command shown (.ping c) := fun shown c hic => hi ⟨shown, c, hic⟩
    have hj : ∀ shown c, j ≠ .command shown (.ping c) := by
      rintro shown c rfl
      obtain ⟨d, hd, -⟩ := Input.blur_eq_ping hij
      exact hi shown d hd
    refine .inl ⟨?_, hi⟩
    rw [← h.step_blur hi, hij, h.step_blur hj]

theorem Imports.eq_ping (h : Imports n i j) : ∃ shown c, i = .command shown (.ping c) := by
  unfold Imports at h
  split at h
  · exact ⟨_, _, rfl⟩
  · exact h.elim

theorem Blind.table_step_eq_iff (h : m.Blind) (hij : i.blur = j.blur) :
    (m.step i).node.table = (m.step j).node.table ↔ ¬ Imports m.node i j := by
  rcases h.step_eq_or_pings hij with ⟨heq, hi⟩ | ⟨shown, c, d, rfl, rfl, hcd⟩
  · refine iff_of_true (by rw [heq]) fun himports => ?_
    obtain ⟨shown, c, rfl⟩ := himports.eq_ping
    exact hi shown c rfl
  · rw [step_ping, step_ping]
    unfold Imports
    cases hstopped : m.node.stopped with
    | true => simp
    | false =>
      simp only [Bool.false_eq_true, if_false, RoutingTable.push_eq_iff _ _ hcd, true_and,
        ne_eq, Classical.not_and_iff_not_or_not, Classical.not_not, not_or]

/-- A table that stays the same is all that stays the same. -/
theorem Blind.step_eq_of_table (h : m.Blind) (hij : i.blur = j.blur)
    (htable : (m.step i).node.table = (m.step j).node.table) : m.step i = m.step j := by
  rcases h.step_eq_or_pings hij with ⟨heq, -⟩ | ⟨shown, c, d, rfl, rfl, -⟩
  · exact heq
  · rw [step_ping, step_ping] at htable ⊢
    split at htable
    · next hstopped => rw [if_pos hstopped, if_pos hstopped]
    · next hrunning =>
      have htable : (m.node.table.push shown.now c).2 = (m.node.table.push shown.now d).2 := htable
      rw [if_neg hrunning, if_neg hrunning, htable]

/-! ## Runs -/

@[simp] theorem run_cons (i : Input) (is : List Input) (m : Member) :
    m.run (i :: is) = (m.step i).run is := rfl

theorem Blind.run_agree_iff (h : m.Blind) (hblur : is.map Input.blur = js.map Input.blur) :
    (∀ k, (m.run (is.take k)).node.table = (m.run (js.take k)).node.table) ↔
      ∀ k i j, is[k]? = some i → js[k]? = some j → ¬ Imports (m.run (is.take k)).node i j := by
  induction is generalizing js m with
  | nil =>
    obtain rfl : js = [] := List.map_eq_nil_iff.mp hblur.symm
    simp
  | cons i is ih =>
    obtain ⟨j, js, rfl⟩ : ∃ j js', js = j :: js' := by
      cases js with
      | nil => cases hblur
      | cons j js => exact ⟨j, js, rfl⟩
    rw [List.map_cons, List.map_cons, List.cons.injEq] at hblur
    obtain ⟨hij, hblur⟩ := hblur
    constructor
    · intro hall
      have hstep : m.step i = m.step j := h.step_eq_of_table hij (hall 1)
      have hrest := (ih (h.step i) hblur).mp fun k => by
        have hk := hall (k + 1)
        rwa [List.take_succ_cons, List.take_succ_cons, run_cons, run_cons, ← hstep] at hk
      intro k i' j' hi hj
      cases k with
      | zero =>
        cases hi
        cases hj
        exact (h.table_step_eq_iff hij).mp (hall 1)
      | succ k => exact hrest k i' j' hi hj
    · intro hall
      have htable := (h.table_step_eq_iff hij).mpr (hall 0 i j rfl rfl)
      have hstep : m.step i = m.step j := h.step_eq_of_table hij htable
      have hrest := (ih (h.step i) hblur).mpr fun k i' j' hi hj => hall (k + 1) i' j' hi hj
      intro k
      cases k with
      | zero => rfl
      | succ k =>
        rw [List.take_succ_cons, List.take_succ_cons, run_cons, run_cons, ← hstep]
        exact hrest k

/-- Two runs of a member, with the same clock and the same inputs but for what foreign contacts
say of when they were seen, have the same table after every input if and only if no ping imports
anything: its caller says the same in both runs, or is not adopted in either. -/
theorem tables_agree_iff (n : LocalNode) (is js : List Input)
    (hblur : is.map Input.blur = js.map Input.blur) :
    (∀ k, ((idle n).run (is.take k)).node.table = ((idle n).run (js.take k)).node.table) ↔
      ∀ k i j, is[k]? = some i → js[k]? = some j →
        ¬ Imports ((idle n).run (is.take k)).node i j :=
  Blind.run_agree_iff (m := idle n) (fun _ hx => absurd hx List.not_mem_nil) hblur

def loner : LocalNode :=
  { table := .new ⟨⟨0, 0, 0, 0, 1⟩, "s", 0, 0⟩
    store := .empty
    bootstrapping := false
    files := .empty
    keepsStore := false
    routingFile := none
    stopped := false }

/-- A lookup asks the only neighbour, which pinged before. Both the ping and the report say
different things of when contacts were seen. -/
theorem tables_agree_of_lookup :
    let p (seen : Time) (stale : UInt8) : Contact := ⟨⟨0x80000000, 0, 0, 0, 0⟩, "p", seen, stale⟩
    let report (seen : Time) (stale : UInt8) : Activity.Answers
      | .getPeers => .ok [⟨⟨0x40000000, 0, 0, 0, 0⟩, "q", seen, stale⟩]
      | _ => .error (.timedOut 0)
    let inputs (seen : Time) (stale : UInt8) : List Input :=
      .command (.still 5) (.pushAll [p 5 0]) :: .command (.still 6) (.ping (p seen stale)) ::
        .start .lookup :: List.replicate 5 (.advance 0 (.still 7) (report seen stale))
    ∀ k, ((idle loner).run ((inputs 3 9).take k)).node.table =
      ((idle loner).run ((inputs 8 0).take k)).node.table := by
  intro p report inputs
  have hreport : (fun q : Query => (report 3 9 q).map q.blur) =
      fun q => (report 8 0 q).map q.blur := by
    funext q
    cases q <;> rfl
  have hblur : (inputs 3 9).map Input.blur = (inputs 8 0).map Input.blur := by
    simp only [inputs, List.map_cons, List.map_replicate, Input.blur, hreport]
    rfl
  refine (tables_agree_iff loner (inputs 3 9) (inputs 8 0) hblur).mpr fun k i j hi hj himports => ?_
  obtain ⟨shown, c, rfl⟩ := himports.eq_ping
  rcases k with _ | _ | k
  · cases hi
  · cases hi
    cases hj
    obtain ⟨-, -, ⟨-, hnew, -⟩ | ⟨-, hnew, -⟩⟩ := himports
    · exact hnew (by decide +kernel)
    · exact hnew (by decide +kernel)
  · rcases List.mem_cons.mp (List.mem_of_getElem? hi : _ ∈ Input.start .lookup :: _) with h | h
    · cases h
    · cases List.eq_of_mem_replicate h

/-- A caller is adopted with what it says of itself. -/
theorem ping_imports_bookkeeping :
    let p (seen : Time) (stale : UInt8) : Contact := ⟨⟨0x80000000, 0, 0, 0, 0⟩, "p", seen, stale⟩
    let inputs (seen : Time) (stale : UInt8) : List Input :=
      [.command (.still 2000) (.ping (p seen stale))]
    (inputs 7 9).map Input.blur = (inputs 2000 0).map Input.blur ∧
      ((idle loner).run (inputs 7 9)).node.table.held = [p 7 9] ∧
      ((idle loner).run (inputs 7 9)).node.table ≠
        ((idle loner).run (inputs 2000 0)).node.table := by
  intro p inputs
  exact ⟨rfl, by decide +kernel, by decide +kernel⟩

end Member

end SearchOverlay
