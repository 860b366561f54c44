import SearchOverlay.Proofs.Trace

/-!
# Logs of activities

A log lists what an activity learns from peers and from its node, and when it removes the marker.
`x.Says es a` says that `x` may come to `a` with the log `es`, whatever it is told;
`x.Log R n es a n'` that it does so on a node, to which anything that `R` allows may happen between
two steps. A trace amid others is such a run, with its exchanges in the log.
-/

namespace SearchOverlay

inductive Event where
  | asked (e : Exchange)
  | told (c : Command) (answer : c.Answer)
  | dropped

def Event.exchange? : Event → Option Exchange
  | asked e => some e
  | _ => none

namespace Activity

variable {α β : Type}

/-- The activity may come to its end with this log. -/
inductive Says {α : Type} : Activity α → List Event → α → Prop where
  | done (a : α) : Says (.done a) [] a
  | clock {k : Clock → Activity α} {es : List Event} {a : α} (shown : Clock)
      (rest : Says (k shown) es a) : Says (.clock k) es a
  | pause {ms : Nat} {k : Unit → Activity α} {es : List Event} {a : α} (rest : Says (k ()) es a) :
      Says (.pause ms k) es a
  | tell {c : Command} {k : c.Answer → Activity α} {es : List Event} {a : α} (answer : c.Answer)
      (rest : Says (k answer) es a) : Says (.tell c k) (.told c answer :: es) a
  | dropMarker {k : Unit → Activity α} {es : List Event} {a : α} (rest : Says (k ()) es a) :
      Says (.dropMarker k) (.dropped :: es) a
  | ask {p : Contact} {q : Query} {k : Except CallError q.Reply → Activity α} {es : List Event}
      {a : α} (r : Except CallError q.Reply) (rest : Says (k r) es a) :
      Says (.ask p q k) (.asked ⟨p, q, r⟩ :: es) a

/-- A run on a node to which something may happen before each step and after the last. -/
inductive Log (R : LocalNode → LocalNode → Prop) {α : Type} :
    Activity α → LocalNode → List Event → α → LocalNode → Prop where
  | done {n n' : LocalNode} (a : α) (meanwhile : R n n') : Log R (.done a) n [] a n'
  | clock {k : Clock → Activity α} {n m n' : LocalNode} {es : List Event} {a : α}
      (meanwhile : R n m) (shown : Clock) (rest : Log R (k shown) m es a n') :
      Log R (.clock k) n es a n'
  | pause {ms : Nat} {k : Unit → Activity α} {n m n' : LocalNode} {es : List Event} {a : α}
      (meanwhile : R n m) (rest : Log R (k ()) m es a n') : Log R (.pause ms k) n es a n'
  | tell {c : Command} {k : c.Answer → Activity α} {n m n' : LocalNode} {es : List Event} {a : α}
      (meanwhile : R n m) (shown : Clock)
      (rest : Log R (k (m.perform shown c).1) (m.perform shown c).2 es a n') :
      Log R (.tell c k) n (.told c (m.perform shown c).1 :: es) a n'
  | dropMarker {k : Unit → Activity α} {n m n' : LocalNode} {es : List Event} {a : α}
      (meanwhile : R n m) (rest : Log R (k ()) m.dropMarker es a n') :
      Log R (.dropMarker k) n (.dropped :: es) a n'
  | ask {p : Contact} {q : Query} {k : Except CallError q.Reply → Activity α}
      {n m n' : LocalNode} {es : List Event} {a : α} (meanwhile : R n m)
      (r : Except CallError q.Reply) (rest : Log R (k r) m es a n') :
      Log R (.ask p q k) n (.asked ⟨p, q, r⟩ :: es) a n'

/-- Steps of any activities, one after the other. -/
inductive Happens : LocalNode → LocalNode → Prop where
  | refl (n : LocalNode) : Happens n n
  | step {α : Type} {x y : Activity α} {n m n' : LocalNode} {xs : List Exchange}
      (first : x.Step n xs y m) (rest : Happens m n') : Happens n n'

/-- The log of a run that nobody disturbs. -/
def events {σ : Type} (o : Outside σ) : Activity α → LocalNode → σ → List Event
  | done _, _, _ => []
  | clock k, n, w =>
    let (shown, w) := o.look w
    (k shown).events o n w
  | pause _ k, n, w => (k ()).events o n w
  | tell c k, n, w =>
    let (shown, w) := o.look w
    let (a, n) := n.perform shown c
    .told c a :: (k a).events o n w
  | dropMarker k, n, w => .dropped :: (k ()).events o n.dropMarker w
  | ask p q k, n, w =>
    let (r, w) := o.answer w p q
    .asked ⟨p, q, r⟩ :: (k r).events o n w

variable {R : LocalNode → LocalNode → Prop} {x : Activity α} {n n' : LocalNode} {es : List Event}
  {xs : List Exchange} {a : α}

theorem Log.says (h : x.Log R n es a n') : x.Says es a := by
  induction h with
  | done a _ => exact .done a
  | clock _ shown _ ih => exact .clock shown ih
  | pause _ _ ih => exact .pause ih
  | tell _ shown _ ih => exact .tell _ ih
  | dropMarker _ _ ih => exact .dropMarker ih
  | ask _ r _ ih => exact .ask r ih

theorem run_log {σ : Type} (hR : ∀ n, R n n) (o : Outside σ) (x : Activity α) (n : LocalNode)
    (w : σ) : x.Log R n (x.events o n w) (x.run o n w).1 (x.run o n w).2.1 := by
  induction x generalizing n w with
  | done a => exact .done a (hR n)
  | clock k ih => exact .clock (hR n) _ (ih _ n _)
  | pause ms k ih => exact .pause (hR n) (ih () n w)
  | tell c k ih => exact .tell (hR n) _ (ih _ _ _)
  | dropMarker k ih => exact .dropMarker (hR n) (ih () _ w)
  | ask p q k ih => exact .ask (hR n) _ (ih _ n _)

/-! ## Traces -/

theorem Log.trace (h : x.Log Others n es a n') :
    x.Trace n (es.filterMap Event.exchange?) (.done a) n' := by
  induction h with
  | done a others => exact others.trace (.refl _ _)
  | clock others shown _ ih => exact others.trace (.step (.clock _ _ shown) ih)
  | pause others _ ih => exact others.trace (.step (.pause _ _ _) ih)
  | tell others shown _ ih => exact others.trace (.step (.tell _ _ _ shown) ih)
  | dropMarker others _ ih => exact others.trace (.step (.dropMarker _ _) ih)
  | ask others r _ ih => exact others.trace (.step (.ask _ _ _ _ r) ih)

/-- A trace to the end begins with a step, unless there is nothing to do. -/
theorem Trace.first_step (h : x.Trace n xs (.done a) n') (hx : ∀ b, x ≠ .done b) :
    ∃ m ys y m' zs, Others n m ∧ Step x m ys y m' ∧ y.Trace m' zs (.done a) n' ∧ xs = ys ++ zs := by
  rcases h.first with ⟨-, hdone, -⟩ | hstep
  · exact absurd hdone.symm (hx a)
  · exact hstep

theorem Trace.exists_log (h : x.Trace n xs (.done a) n') :
    ∃ es, x.Log Others n es a n' ∧ es.filterMap Event.exchange? = xs := by
  induction x generalizing n xs with
  | done b =>
    obtain ⟨others, hdone, rfl⟩ := h.of_done
    cases hdone
    exact ⟨[], .done _ others, rfl⟩
  | clock k ih =>
    obtain ⟨m, _, y, m', zs, others, ⟨_, _, shown⟩, hrest, rfl⟩ := h.first_step nofun
    obtain ⟨es, hlog, rfl⟩ := ih shown hrest
    exact ⟨es, .clock others shown hlog, rfl⟩
  | pause ms k ih =>
    obtain ⟨m, _, y, m', zs, others, ⟨⟩, hrest, rfl⟩ := h.first_step nofun
    obtain ⟨es, hlog, rfl⟩ := ih () hrest
    exact ⟨es, .pause others hlog, rfl⟩
  | tell c k ih =>
    obtain ⟨m, _, y, m', zs, others, hstep, hrest, rfl⟩ := h.first_step nofun
    cases hstep with
    | tell _ _ _ shown =>
      obtain ⟨es, hlog, rfl⟩ := ih _ hrest
      exact ⟨_, .tell others shown hlog, rfl⟩
  | dropMarker k ih =>
    obtain ⟨m, _, y, m', zs, others, ⟨⟩, hrest, rfl⟩ := h.first_step nofun
    obtain ⟨es, hlog, rfl⟩ := ih () hrest
    exact ⟨_, .dropMarker others hlog, rfl⟩
  | ask p q k ih =>
    obtain ⟨m, _, y, m', zs, others, hstep, hrest, rfl⟩ := h.first_step nofun
    cases hstep with
    | ask _ _ _ _ r =>
      obtain ⟨es, hlog, rfl⟩ := ih r hrest
      exact ⟨_, .ask others r hlog, rfl⟩

/-! ## What logs say -/

/-- Whatever the activity is told, it ends as `Q` says of the result and the log. -/
def Tells (x : Activity α) (Q : α → List Event → Prop) : Prop := ∀ es a, x.Says es a → Q a es

namespace Tells

variable {Q : α → List Event → Prop}

theorem imp {P : α → List Event → Prop} (h : x.Tells P) (hPQ : ∀ a es, P a es → Q a es) :
    x.Tells Q := fun es a hsays => hPQ a es (h es a hsays)

theorem done (h : Q a []) : (Activity.done a).Tells Q := by
  rintro es b ⟨⟩
  exact h

theorem clock {k : Clock → Activity α} (h : ∀ shown, (k shown).Tells Q) :
    (Activity.clock k).Tells Q := by
  rintro es a ⟨⟩
  next shown rest => exact h shown es a rest

theorem tell {c : Command} {k : c.Answer → Activity α}
    (h : ∀ answer, (k answer).Tells fun a es => Q a (.told c answer :: es)) :
    (Activity.tell c k).Tells Q := by
  rintro _ a ⟨⟩
  next es answer rest => exact h answer es a rest

theorem dropMarker {k : Unit → Activity α} (h : (k ()).Tells fun a es => Q a (.dropped :: es)) :
    (Activity.dropMarker k).Tells Q := by
  rintro _ a ⟨⟩
  next es rest => exact h es a rest

theorem ask {p : Contact} {q : Query} {k : Except CallError q.Reply → Activity α}
    (h : ∀ r, (k r).Tells fun a es => Q a (.asked ⟨p, q, r⟩ :: es)) :
    (Activity.ask p q k).Tells Q := by
  rintro _ a ⟨⟩
  next es r rest => exact h r es a rest

theorem bind {x : Activity β} {f : β → Activity α}
    (h : x.Tells fun b es => (f b).Tells fun a fs => Q a (es ++ fs)) : (x >>= f).Tells Q := by
  show (x.bind f).Tells Q
  induction x generalizing Q with
  | done b => exact h [] b (.done b)
  | clock k ih => exact clock fun shown => ih shown fun es b hb => h es b (.clock shown hb)
  | pause ms k ih =>
    rintro es a ⟨⟩
    next rest => exact ih () (fun es b hb => h es b (.pause hb)) es a rest
  | tell c k ih => exact tell fun answer => ih answer fun es b hb => h _ b (.tell answer hb)
  | dropMarker k ih => exact dropMarker (ih () fun es b hb => h _ b (.dropMarker hb))
  | ask p q k ih => exact ask fun r => ih r fun es b hb => h _ b (.ask r hb)

end Tells

end Activity

end SearchOverlay
