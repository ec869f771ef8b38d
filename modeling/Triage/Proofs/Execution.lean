import Triage.Proofs.Ordered
import Triage.Service

/-!
# Passes carried out

`Pass.runWith` carries a pass out with a handler, and `Pass.exec` does so on the stores alone, with
a transport that reaches everyone; an `Outbox` also keeps an account of what was sent.  The lemmas say
what each building block of a pass does, so that a pass is evaluated by rewriting.
`Service.perform_eq_runWith` ties all this to the running service.
-/

namespace Triage

namespace Work

variable {α σ τ : Type}

/-- A handler whose steps are those of another one, seen through `view`, does the same. -/
theorem run_view (h : Handler σ) (g : Handler τ) (view : σ → τ) (ok : σ → Prop)
    (hanswer : ∀ c s, ok s → ok (h.answer c s).2 ∧ (h.answer c s).1 = (g.answer c (view s)).1 ∧
      view (h.answer c s).2 = (g.answer c (view s)).2)
    (hdeliver : ∀ m s, ok s → ok (h.deliver m s).2 ∧ (h.deliver m s).1 = (g.deliver m (view s)).1 ∧
      view (h.deliver m s).2 = (g.deliver m (view s)).2)
    (hrecord : ∀ r s, ok s → ok (h.record r s) ∧ view (h.record r s) = g.record r (view s))
    (w : Work α) (s : σ) (hs : ok s) :
    (w.run h s).1 = (w.run g (view s)).1 ∧ view (w.run h s).2 = (w.run g (view s)).2 := by
  induction w generalizing s with
  | done a => exact ⟨rfl, rfl⟩
  | call c next ih =>
    obtain ⟨hok, h1, h2⟩ := hanswer c s hs
    simp only [run]
    rw [← h1, ← h2]
    exact ih _ _ hok
  | send m next ih =>
    obtain ⟨hok, h1, h2⟩ := hdeliver m s hs
    simp only [run]
    rw [← h1, ← h2]
    exact ih _ _ hok
  | log r next ih =>
    obtain ⟨hok, h1⟩ := hrecord r s hs
    simp only [run]
    rw [← h1]
    exact ih _ hok

end Work

/-! ## Evaluation of a pass -/

namespace Pass

variable {α β σ : Type}

def runWith (h : Work.Handler σ) (p : Pass α) (s : σ) : Except Failure α × σ := Work.run h p.run s

variable (h : Work.Handler σ)

@[simp] theorem runWith_pure (a : α) (s : σ) : runWith h (pure a : Pass α) s = (.ok a, s) := rfl

theorem runWith_bind (p : Pass α) (f : α → Pass β) (s : σ) :
    runWith h (p >>= f) s =
      match runWith h p s with
      | (.ok a, s') => runWith h (f a) s'
      | (.error e, s') => (.error e, s') := by
  have hb := Work.run_bind h p.run (ExceptT.bindCont f) s
  have hr : runWith h (p >>= f) s = ((p.run).bind (ExceptT.bindCont f)).run h s := rfl
  rw [hr, hb]
  unfold runWith
  rcases hp : Work.run h p.run s with ⟨r, s'⟩
  cases r <;> rfl

theorem runWith_bind_of_ok {p : Pass α} {f : α → Pass β} {s s' : σ} {a : α}
    (hp : runWith h p s = (.ok a, s')) : runWith h (p >>= f) s = runWith h (f a) s' := by
  rw [runWith_bind, hp]

theorem runWith_map (p : Pass α) (f : α → β) (s : σ) :
    runWith h (f <$> p) s =
      match runWith h p s with
      | (.ok a, s') => (.ok (f a), s')
      | (.error e, s') => (.error e, s') := by
  rw [← bind_pure_comp, runWith_bind]
  rfl

theorem runWith_ask (c : Call) (s : σ) :
    runWith h (ask c) s =
      ((h.answer c s).1.mapError fun e => .error (.storage e), (h.answer c s).2) := by
  simp only [runWith, ask, ExceptT.run, ExceptT.mk, Work.run]
  cases (h.answer c s).1 <;> rfl

theorem runWith_ask_of_ok {c : Call} {a : c.Answer} {s s' : σ} (ha : h.answer c s = (.ok a, s')) :
    runWith h (ask c) s = (.ok a, s') := by
  rw [runWith_ask, ha]
  rfl

@[simp] theorem runWith_send (m : Message) (s : σ) :
    runWith h (send m) s = (.ok (h.deliver m s).1, (h.deliver m s).2) := rfl

@[simp] theorem runWith_log (r : LogRecord) (s : σ) :
    runWith h (log r) s = (.ok (), h.record r s) := rfl

@[simp] theorem runWith_fail (e : ServiceError) (s : σ) :
    runWith h (fail e : Pass α) s = (.error (.error e), s) := rfl

theorem runWith_tryAsk (c : Call) (s : σ) :
    runWith h (tryAsk c) s = (.ok (h.answer c s).1, (h.answer c s).2) := rfl

theorem runWith_attempt_of_ok {p : Pass α} {s s' : σ} {a : α} (hp : runWith h p s = (.ok a, s')) :
    runWith h (attempt p) s = (.ok (.ok a), s') := by
  have hp' : p.run.run h s = (.ok a, s') := hp
  unfold attempt
  show Work.run h (p.run.bind _) s = _
  rw [Work.run_bind, hp']
  rfl

theorem runWith_ofTime (t : Except Timestamp.Overflow Timestamp) (s : σ) :
    runWith h (ofTime t) s =
      match t with
      | .ok t => (.ok t, s)
      | .error o => (.error (.crash o), s) := by
  cases t <;> rfl

end Pass

/-! ## The stores alone -/

/-- Carries requests out on the stores, keeps no log, and delivers as `reach` says. -/
def Stores.handler (reach : Message → Except ServiceError Unit) : Work.Handler Stores where
  answer c s := s.answer c
  deliver m s := (reach m, s)
  record _ s := s

/-- Carries a pass out on the stores; every message reaches its address. -/
def Pass.exec {α : Type} (p : Pass α) (s : Stores) : Except Failure α × Stores :=
  p.runWith (Stores.handler fun _ => .ok ()) s

/-- No pass changes the recorded histories or the builds. -/
theorem Pass.records_exec {α : Type} (p : Pass α) (s : Stores) :
    (p.exec s).2.histories = s.histories ∧ (p.exec s).2.builds = s.builds := by
  unfold exec runWith
  generalize p.run = w
  induction w generalizing s with
  | done a => exact ⟨rfl, rfl⟩
  | call c next ih =>
    have hanswer : (s.answer c).2.histories = s.histories ∧ (s.answer c).2.builds = s.builds := by
      cases c with
      | updateDefect id change =>
        simp only [Stores.answer]
        cases s.defects.update id change <;> exact ⟨rfl, rfl⟩
      | _ => exact ⟨rfl, rfl⟩
    obtain ⟨hhistories, hbuilds⟩ := ih (s.answer c).1 (s.answer c).2
    exact ⟨hhistories.trans hanswer.1, hbuilds.trans hanswer.2⟩
  | send m next ih => exact ih _ s
  | log r next ih => exact ih s

theorem Pass.histories_exec {α : Type} (p : Pass α) (s : Stores) :
    (p.exec s).2.histories = s.histories := (p.records_exec s).1

theorem Pass.builds_exec {α : Type} (p : Pass α) (s : Stores) :
    (p.exec s).2.builds = s.builds := (p.records_exec s).2

/-- The stores, and every message that was handed to the transport with the flag whether it got
through, newest last. -/
structure Outbox where
  stores : Stores
  sent : List (Message × Bool)

def Outbox.withIssues (o : Outbox) (is : IssueStore) : Outbox :=
  { o with stores := { o.stores with issues := is } }

/-- Carries requests out on the stores and delivers as `reach` says, which may depend on all that was
sent before. -/
def Outbox.handler (reach : List (Message × Bool) → Message → Except ServiceError Unit) :
    Work.Handler Outbox where
  answer c o := ((o.stores.answer c).1, { o with stores := (o.stores.answer c).2 })
  deliver m o := (reach o.sent m, { o with sent := o.sent ++ [(m, (reach o.sent m).isOk)] })
  record _ o := o

/-- What becomes of a message that is handed to the transport. -/
def Transport.reach : Transport → Message → Except ServiceError Unit
  | .log, _ => .ok ()
  | .direct unreachable, m =>
    match unreachable.find? m.address with
    | some reason => .error (.notification m.address reason)
    | none => .ok ()

namespace Service

theorem intervene_nil {s : Service} (h : s.interventions = []) (kind : CallKind) :
    s.intervene kind = (none, s) := by
  unfold intervene
  rw [h]
  simp only [Intervention.next]
  rw [← h]

theorem answer_nil {s : Service} (h : s.interventions = []) (c : Call) :
    s.answer c = s.carryOut c := by
  unfold answer
  rw [intervene_nil h]
  cases c with
  | history branch identity => simp only [intervene_nil h]
  | _ => rfl

theorem deliver_eq (m : Message) (s : Service) :
    (s.deliver m).1 = s.transport.reach m ∧ (s.deliver m).2.stores = s.stores ∧
      (s.deliver m).2.interventions = s.interventions ∧
      (s.deliver m).2.transport = s.transport := by
  unfold deliver
  cases hr : s.transport with
  | log => exact ⟨rfl, rfl, rfl, hr⟩
  | direct unreachable =>
    simp only [Transport.reach]
    cases unreachable.find? m.address <;> simp

/-- Without interventions the service does to its stores what `Stores.handler` does. -/
theorem perform_eq_runWith {α : Type} (p : Pass α) (s : Service) (h : s.interventions = []) :
    (s.perform p).1 = (p.runWith (Stores.handler s.transport.reach) s.stores).1 ∧
      (s.perform p).2.stores = (p.runWith (Stores.handler s.transport.reach) s.stores).2 := by
  refine Work.run_view handler (Stores.handler s.transport.reach) Service.stores
    (fun s' => s'.interventions = [] ∧ s'.transport = s.transport) ?_ ?_ ?_ p.run s ⟨h, rfl⟩
  · rintro c s' ⟨hi, ht⟩
    have ha : handler.answer c s' = s'.carryOut c := answer_nil hi c
    rw [ha]
    exact ⟨⟨hi, ht⟩, rfl, rfl⟩
  · rintro m s' ⟨hi, ht⟩
    obtain ⟨h1, h2, h3, h4⟩ := deliver_eq m s'
    exact ⟨⟨h3.trans hi, h4.trans ht⟩, h1.trans (by rw [ht]; rfl), h2⟩
  · rintro r s' ⟨hi, ht⟩
    exact ⟨⟨hi, ht⟩, rfl⟩

end Service

end Triage
