import SearchOverlay.Proofs.Activity
import SearchOverlay.Proofs.Sync.Flag

/-!
# Activities amid others

`Step` is one step of an activity: peers answer and the clock shows what they like. In a
`Trace` others send commands to the node in between, any but the one that sets the flag of the
first sync. A command takes effect where it is sent: a node performs commands in the order in
which they reach it, so whoever asks it cannot tell the difference.

`x.Amid flag marked Q` says how runs of `x` amid others end, from any node with that flag and
with or without the marker: if the node still runs, then as `Q` says of the result, the flag, the
marker and the exchanges.
-/

namespace SearchOverlay

namespace Activity

variable {α β : Type}

/-- One step of an activity on a node, with the exchange if it is a query. -/
inductive Step {α : Type} :
    Activity α → LocalNode → List Exchange → Activity α → LocalNode → Prop where
  | clock (k : Clock → Activity α) (n : LocalNode) (shown : Clock) :
      Step (.clock k) n [] (k shown) n
  | pause (ms : Nat) (k : Unit → Activity α) (n : LocalNode) : Step (.pause ms k) n [] (k ()) n
  | tell (c : Command) (k : c.Answer → Activity α) (n : LocalNode) (shown : Clock) :
      Step (.tell c k) n [] (k (n.perform shown c).1) (n.perform shown c).2
  | dropMarker (k : Unit → Activity α) (n : LocalNode) :
      Step (.dropMarker k) n [] (k ()) n.dropMarker
  | ask (p : Contact) (q : Query) (k : Except CallError q.Reply → Activity α) (n : LocalNode)
      (r : Except CallError q.Reply) : Step (.ask p q k) n [⟨p, q, r⟩] (k r) n

/-- Commands of others, any but the one that sets the flag. -/
inductive Others : LocalNode → LocalNode → Prop where
  | refl (n : LocalNode) : Others n n
  | cons {n n' : LocalNode} {c : Command} (hc : c.keepsFlag) (shown : Clock)
      (rest : Others (n.perform shown c).2 n') : Others n n'

/-- Steps of an activity amid commands of others. -/
inductive Trace {α : Type} :
    Activity α → LocalNode → List Exchange → Activity α → LocalNode → Prop where
  | refl (x : Activity α) (n : LocalNode) : Trace x n [] x n
  | step {x y z : Activity α} {n m n' : LocalNode} {xs ys : List Exchange}
      (first : Step x n xs y m) (rest : Trace y m ys z n') : Trace x n (xs ++ ys) z n'
  | other {x y : Activity α} {n n' : LocalNode} {xs : List Exchange} {c : Command}
      (hc : c.keepsFlag) (shown : Clock) (rest : Trace x (n.perform shown c).2 xs y n') :
      Trace x n xs y n'

variable {x y : Activity α} {n m n' : LocalNode} {xs : List Exchange} {a : α}

theorem Others.bootstrapping (h : Others n n') : n'.bootstrapping = n.bootstrapping := by
  induction h with
  | refl n => rfl
  | cons hc shown rest ih => exact ih.trans (LocalNode.bootstrapping_perform shown hc)

theorem Others.marked (h : Others n n') : n'.marked = n.marked := by
  induction h with
  | refl n => rfl
  | cons hc shown rest ih => exact ih.trans (LocalNode.marked_perform _ shown _)

theorem Others.trace (h : Others n m) (ht : Trace x m xs y n') : Trace x n xs y n' := by
  induction h with
  | refl n => exact ht
  | cons hc shown rest ih => exact .other hc shown (ih ht)

theorem Step.running (h : Step x n xs y m) (hm : m.stopped = false) : n.stopped = false := by
  cases h with
  | tell c k n shown => exact LocalNode.running_of_perform hm
  | _ => exact hm

theorem Trace.running (h : Trace x n xs y n') (hn : n'.stopped = false) : n.stopped = false := by
  induction h with
  | refl x n => exact hn
  | step first rest ih => exact first.running (ih hn)
  | other hc shown rest ih => exact LocalNode.running_of_perform (ih hn)

/-- A trace begins with commands of others, and is over then or goes on with a step. -/
theorem Trace.first (h : Trace x n xs y n') : (Others n n' ∧ y = x ∧ xs = []) ∨
    ∃ m ys z m' zs, Others n m ∧ Step x m ys z m' ∧ Trace z m' zs y n' ∧ xs = ys ++ zs := by
  induction h with
  | refl x n => exact .inl ⟨.refl n, rfl, rfl⟩
  | step first rest ih => exact .inr ⟨_, _, _, _, _, .refl _, first, rest, rfl⟩
  | other hc shown rest ih =>
    rcases ih with ⟨ho, hy, hxs⟩ | ⟨m, ys, z, m', zs, ho, hrest⟩
    · exact .inl ⟨.cons hc shown ho, hy, hxs⟩
    · exact .inr ⟨m, ys, z, m', zs, .cons hc shown ho, hrest⟩

theorem Trace.of_done (h : Trace (.done a) n xs y n') : Others n n' ∧ y = .done a ∧ xs = [] := by
  rcases h.first with h | ⟨_, _, _, _, _, -, hstep, -⟩
  · exact h
  · cases hstep

theorem Step.of_bind {f : α → Activity β} {z : Activity β} (hx : ∀ a, x ≠ .done a)
    (h : Step (x.bind f) n xs z m) : ∃ y, z = y.bind f ∧ Step x n xs y m := by
  cases x with
  | done a => exact absurd rfl (hx a)
  | clock k =>
    cases h
    exact ⟨_, rfl, .clock k n _⟩
  | pause ms k =>
    cases h
    exact ⟨_, rfl, .pause ms k n⟩
  | tell c k =>
    cases h
    exact ⟨_, rfl, .tell c k n _⟩
  | dropMarker k =>
    cases h
    exact ⟨_, rfl, .dropMarker k n⟩
  | ask p q k =>
    cases h
    exact ⟨_, rfl, .ask p q k n _⟩

/-- A trace to the end of the whole is one to the end of the first part and one from there. -/
theorem Trace.of_bind {f : α → Activity β} {b : β} (h : Trace (x.bind f) n xs (.done b) n') :
    ∃ a m ys zs, Trace x n ys (.done a) m ∧ Trace (f a) m zs (.done b) n' ∧ xs = ys ++ zs := by
  generalize hwhole : x.bind f = whole at h
  generalize hlast : Activity.done b = last at h
  induction h generalizing x with
  | refl whole n =>
    subst hlast
    cases x with
    | done a => exact ⟨a, n, [], [], .refl _ n, hwhole ▸ .refl _ n, rfl⟩
    | _ => cases hwhole
  | @step whole y last n m n' xs ys first rest ih =>
    subst hwhole
    by_cases hx : ∃ a, x = .done a
    · obtain ⟨a, rfl⟩ := hx
      exact ⟨a, n, [], xs ++ ys, .refl _ n, .step first rest, rfl⟩
    · obtain ⟨y', rfl, hfirst⟩ := first.of_bind fun a ha => hx ⟨a, ha⟩
      obtain ⟨a, m', zs, zs', ht, ht', rfl⟩ := ih rfl hlast
      exact ⟨a, m', xs ++ zs, zs', .step hfirst ht, ht', (List.append_assoc ..).symm⟩
  | other hc shown rest ih =>
    obtain ⟨a, m, ys, zs, ht, ht', hxs⟩ := ih hwhole hlast
    exact ⟨a, m, ys, zs, .other hc shown ht, ht', hxs⟩

/-- A run that nobody disturbs is a trace. -/
theorem run_trace {σ : Type} (o : Outside σ) (x : Activity α) (n : LocalNode) (w : σ) :
    Trace x n (x.exchanges o n w) (.done (x.run o n w).1) (x.run o n w).2.1 := by
  induction x generalizing n w with
  | done a => exact .refl _ n
  | clock k ih => exact .step (.clock k n _) (ih _ n _)
  | pause ms k ih => exact .step (.pause ms k n) (ih () n w)
  | tell c k ih => exact .step (.tell c k n _) (ih _ _ _)
  | dropMarker k ih => exact .step (.dropMarker k n) (ih () _ w)
  | ask p q k ih => exact .step (.ask p q k n _) (ih _ n _)

/-! ## What is ensured amid others -/

/-- However a run amid others goes, it ends as `Q` says if the node still runs. -/
def Amid (x : Activity α) (flag marked : Bool) (Q : α → Bool → Bool → List Exchange → Prop) :
    Prop :=
  ∀ n xs a n', n.bootstrapping = flag → n.marked = marked → Trace x n xs (.done a) n' →
    n'.stopped = false → Q a n'.bootstrapping n'.marked xs

namespace Amid

variable {flag marked : Bool} {Q : α → Bool → Bool → List Exchange → Prop}

theorem imp {P : α → Bool → Bool → List Exchange → Prop} (h : x.Amid flag marked P)
    (hPQ : ∀ a f m xs, P a f m xs → Q a f m xs) : x.Amid flag marked Q :=
  fun n xs a n' hf hm ht hn => hPQ _ _ _ _ (h n xs a n' hf hm ht hn)

theorem done (h : Q a flag marked []) : (Activity.done a).Amid flag marked Q := by
  rintro n xs b n' rfl rfl ht hn
  obtain ⟨ho, hb, rfl⟩ := ht.of_done
  cases hb
  rwa [ho.bootstrapping, ho.marked]

/-- The first step of a run amid others, from a node with the same flag and marker. -/
theorem of_step (hx : ∀ a, x ≠ .done a)
    (h : ∀ m ys y m', m.bootstrapping = flag → m.marked = marked → m'.stopped = false →
      Step x m ys y m' → y.Amid m'.bootstrapping m'.marked fun a f k zs => Q a f k (ys ++ zs)) :
    x.Amid flag marked Q := by
  rintro n xs a n' rfl rfl ht hn
  rcases ht.first with ⟨-, hdone, -⟩ | ⟨m, ys, y, m', zs, ho, hstep, hrest, rfl⟩
  · exact absurd hdone.symm (hx a)
  · have hy := h m ys y m' ho.bootstrapping ho.marked (hrest.running hn) hstep
    exact hy m' zs a n' rfl rfl hrest hn

theorem clock {k : Clock → Activity α} (h : ∀ shown, (k shown).Amid flag marked Q) :
    (Activity.clock k).Amid flag marked Q := by
  refine of_step nofun fun m ys y m' hf hm _ hstep => ?_
  cases hstep
  rw [hf, hm]
  exact h _

theorem tell {c : Command} {k : c.Answer → Activity α} (hc : c.keepsFlag)
    (h : ∀ answer, (k answer).Amid flag marked Q) : (Activity.tell c k).Amid flag marked Q := by
  refine of_step nofun fun m ys y m' hf hm _ hstep => ?_
  cases hstep with
  | tell _ _ _ shown =>
    rw [LocalNode.bootstrapping_perform shown hc, LocalNode.marked_perform, hf, hm]
    exact h _

theorem setFlag {value : Bool} {k : Unit → Activity α} (h : (k ()).Amid value marked Q) :
    (Activity.tell (.setBootstrapping value) k).Amid flag marked Q := by
  refine of_step nofun fun m ys y m' _ hm hrunning hstep => ?_
  have hm' := hstep.running hrunning
  cases hstep with
  | tell _ _ _ shown =>
    rw [LocalNode.marked_perform, hm, LocalNode.perform_of_running hm']
    exact h

theorem dropMarker {k : Unit → Activity α} (h : (k ()).Amid flag false Q) :
    (Activity.dropMarker k).Amid flag marked Q := by
  refine of_step nofun fun m ys y m' hf _ _ hstep => ?_
  cases hstep
  rw [LocalNode.marked_dropMarker]
  subst hf
  exact h

theorem ask {p : Contact} {q : Query} {k : Except CallError q.Reply → Activity α}
    (h : ∀ r, (k r).Amid flag marked fun a f m xs => Q a f m (⟨p, q, r⟩ :: xs)) :
    (Activity.ask p q k).Amid flag marked Q := by
  refine of_step nofun fun m ys y m' hf hm _ hstep => ?_
  cases hstep with
  | ask _ _ _ _ r =>
    rw [hf, hm]
    exact h r

theorem bind {x : Activity β} {f : β → Activity α}
    (h : x.Amid flag marked fun b flag marked xs =>
      (f b).Amid flag marked fun a f m ys => Q a f m (xs ++ ys)) :
    (x >>= f).Amid flag marked Q := by
  intro n xs a n' hf hm ht hn
  obtain ⟨b, m, ys, zs, hx, hrest, rfl⟩ := Trace.of_bind ht
  exact h n ys b m hf hm hx (hrest.running hn) m zs a n' rfl rfl hrest hn

end Amid

end Activity

end SearchOverlay
