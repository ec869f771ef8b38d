import Triage.Proofs.Execution

/-!
# Passes that are broken off

A piece of work can be stopped before each of its steps, and each of its requests can fail without
having done anything.  `Work.Ends` lists the ways in which work may come to an end then, `Pass.CutWith`
the states that a pass may leave behind, and `Pass.Cut` the stores; the lemmas tell them step by step,
as those on `Pass.runWith` do for a pass that nothing happens to.  `Service.OnlyFails.cut_perform` says
that a service whose requests fail leaves its stores in one of these states.
-/

namespace Triage

/-- How work may end: with a result, or without one if it is stopped. -/
inductive Work.Ends {α σ : Type} (h : Handler σ) : Work α → σ → Option α → σ → Prop
  | stopped (w : Work α) (s : σ) : Ends h w s none s
  | done (a : α) (s : σ) : Ends h (.done a) s (some a) s
  | answered {c : Call} {next : Except StorageError c.Answer → Work α} {s s' : σ} {r : Option α}
      (rest : Ends h (next (h.answer c s).1) (h.answer c s).2 r s') : Ends h (.call c next) s r s'
  /-- The request fails and has no effect. -/
  | failed {c : Call} {next : Except StorageError c.Answer → Work α} {s s' : σ} {r : Option α}
      (e : StorageError) (rest : Ends h (next (.error e)) s r s') : Ends h (.call c next) s r s'
  | sent {m : Message} {next : Except ServiceError Unit → Work α} {s s' : σ} {r : Option α}
      (rest : Ends h (next (h.deliver m s).1) (h.deliver m s).2 r s') : Ends h (.send m next) s r s'
  | logged {m : LogRecord} {next : Work α} {s s' : σ} {r : Option α}
      (rest : Ends h next (h.record m s) r s') : Ends h (.log m next) s r s'

/-- What every step keeps holds however work ends. -/
theorem Work.Ends.preserves {α σ : Type} {h : Handler σ} {I : σ → Prop}
    (answer : ∀ c s, I s → I (h.answer c s).2) (deliver : ∀ m s, I s → I (h.deliver m s).2)
    (record : ∀ m s, I s → I (h.record m s)) {w : Work α} {s s' : σ} {r : Option α}
    (hends : Ends h w s r s') (hs : I s) : I s' := by
  induction hends with
  | stopped => exact hs
  | done => exact hs
  | answered _ ih => exact ih (answer _ _ hs)
  | failed _ _ ih => exact ih hs
  | sent _ ih => exact ih (deliver _ _ hs)
  | logged _ ih => exact ih (record _ _ hs)

namespace Pass

section CutWith

variable {α β σ : Type} {h : Work.Handler σ} {s s' s₁ : σ}

/-- Carried out from the state `s`, a pass that is stopped, or whose requests fail, may leave the
state `s'`. -/
def CutWith (h : Work.Handler σ) (p : Pass α) (s s' : σ) : Prop := ∃ r, Work.Ends h p.run s r s'

theorem CutWith.refl (h : Work.Handler σ) (p : Pass α) (s : σ) : CutWith h p s s :=
  ⟨none, .stopped p.run s⟩

theorem cutWith_pure {a : α} : CutWith h (pure a) s s' ↔ s' = s := by
  constructor
  · rintro ⟨r, hends⟩
    change Work.Ends _ (.done _) s r s' at hends
    cases hends <;> rfl
  · rintro rfl
    exact .refl _ _ _

theorem cutWith_ofTime_bind_of_error {o : Timestamp.Overflow} {f : Timestamp → Pass β}
    (hcut : CutWith h (ofTime (.error o) >>= f) s s') : s' = s := by
  obtain ⟨r, hends⟩ := hcut
  change Work.Ends _ (.done _) s r s' at hends
  cases hends <;> rfl

/-- A pass is cut before a request, which then does nothing, or in what comes after it. -/
theorem cutWith_ask_bind {c : Call} {a : c.Answer} {f : c.Answer → Pass β}
    (ha : h.answer c s = (.ok a, s₁)) :
    CutWith h (ask c >>= f) s s' ↔ s' = s ∨ CutWith h (f a) s₁ s' := by
  obtain ⟨next, hrun, hok, hfail⟩ : ∃ next, (ask c >>= f).run = .call c next ∧
      (∀ a, next (.ok a) = (f a).run) ∧
      ∀ e, next (.error e) = .done (.error (.error (.storage e))) :=
    ⟨_, rfl, fun _ => rfl, fun _ => rfl⟩
  unfold CutWith
  rw [hrun]
  constructor
  · rintro ⟨r, hends⟩
    cases hends with
    | stopped => exact .inl rfl
    | answered rest =>
      rw [ha, hok] at rest
      exact .inr ⟨r, rest⟩
    | failed e rest =>
      rw [hfail] at rest
      cases rest <;> exact .inl rfl
  · rintro (rfl | ⟨r, hends⟩)
    · exact ⟨none, .stopped _ _⟩
    · refine ⟨r, .answered ?_⟩
      rw [ha, hok]
      exact hends

theorem cutWith_send_bind {m : Message} {f : Except ServiceError Unit → Pass β} :
    CutWith h (send m >>= f) s s' ↔
      s' = s ∨ CutWith h (f (h.deliver m s).1) (h.deliver m s).2 s' := by
  have hrun : (send m >>= f).run = .send m fun r => (f r).run := rfl
  unfold CutWith
  rw [hrun]
  constructor
  · rintro ⟨r, hends⟩
    cases hends with
    | stopped => exact .inl rfl
    | sent rest => exact .inr ⟨r, rest⟩
  · rintro (rfl | ⟨r, hends⟩)
    · exact ⟨none, .stopped _ _⟩
    · exact ⟨r, .sent hends⟩

theorem cutWith_log_bind {m : LogRecord} {f : Unit → Pass β} (hm : h.record m s = s) :
    CutWith h (log m >>= f) s s' ↔ CutWith h (f ()) s s' := by
  have hrun : (log m >>= f).run = .log m (f ()).run := rfl
  unfold CutWith
  rw [hrun]
  constructor
  · rintro ⟨r, hends⟩
    cases hends with
    | stopped => exact CutWith.refl h (f ()) s
    | logged rest =>
      rw [hm] at rest
      exact ⟨r, rest⟩
  · rintro ⟨r, hends⟩
    refine ⟨r, .logged ?_⟩
    rw [hm]
    exact hends

end CutWith

variable {α β : Type} {s s' s₁ : Stores}

/-- A pass from the stores `s` that is stopped, or whose requests fail, may leave the stores `s'`. -/
def Cut (p : Pass α) (s s' : Stores) : Prop :=
  ∃ reach r, Work.Ends (Stores.handler reach) p.run s r s'

theorem Cut.refl (p : Pass α) (s : Stores) : p.Cut s s :=
  ⟨fun _ => .ok (), CutWith.refl _ p s⟩

theorem cut_pure {a : α} : Cut (pure a) s s' ↔ s' = s := by
  constructor
  · rintro ⟨reach, h⟩
    exact cutWith_pure.1 h
  · rintro rfl
    exact .refl _ _

theorem cut_ofTime_bind_of_error {o : Timestamp.Overflow} {f : Timestamp → Pass β}
    (h : Cut (ofTime (.error o) >>= f) s s') : s' = s := by
  obtain ⟨reach, h⟩ := h
  exact cutWith_ofTime_bind_of_error h

theorem cut_ask_bind {c : Call} {a : c.Answer} {f : c.Answer → Pass β}
    (ha : s.answer c = (.ok a, s₁)) :
    Cut (ask c >>= f) s s' ↔ s' = s ∨ Cut (f a) s₁ s' := by
  have hanswer : ∀ reach, (Stores.handler reach).answer c s = (.ok a, s₁) := fun _ => ha
  constructor
  · rintro ⟨reach, h⟩
    exact ((cutWith_ask_bind (hanswer reach)).1 h).imp_right fun h => ⟨reach, h⟩
  · rintro (rfl | ⟨reach, h⟩)
    · exact .refl _ _
    · exact ⟨reach, (cutWith_ask_bind (hanswer reach)).2 (.inr h)⟩

theorem cut_log_bind {m : LogRecord} {f : Unit → Pass β} :
    Cut (log m >>= f) s s' ↔ Cut (f ()) s s' :=
  exists_congr fun _ => cutWith_log_bind rfl

end Pass

namespace Service

variable {s : Service}

/-- The only thing that happens to requests is that some of them fail. -/
def OnlyFails (s : Service) : Prop :=
  ∀ i ∈ s.interventions, i.acts = [] ∧ i.kind ≠ .historyAnswer

/-- An intervention that takes place has been waiting for the kind, and the others wait on. -/
theorem next_spec (kind : CallKind) (is : List Intervention) :
    (∀ i, (Intervention.next kind is).1 = some i → i ∈ is ∧ i.kind = kind) ∧
      ∀ i ∈ (Intervention.next kind is).2, ∃ j ∈ is, i.acts = j.acts ∧ i.kind = j.kind := by
  induction is with
  | nil => simp [Intervention.next]
  | cons j is ih =>
    unfold Intervention.next
    by_cases hkind : j.kind = kind
    · by_cases hskip : 0 < j.skip
      · rw [if_pos hkind, if_pos hskip]
        refine ⟨fun i hi => (by cases hi), fun i hi => ?_⟩
        rcases List.mem_cons.1 hi with rfl | hi
        · exact ⟨j, by simp, rfl, rfl⟩
        · exact ⟨i, by simp [hi], rfl, rfl⟩
      · rw [if_pos hkind, if_neg hskip]
        refine ⟨fun i hi => ?_, fun i hi => ⟨i, by simp [hi], rfl, rfl⟩⟩
        cases hi
        exact ⟨by simp, hkind⟩
    · rw [if_neg hkind]
      refine ⟨fun i hi => ?_, fun i hi => ?_⟩
      · obtain ⟨hmem, hk⟩ := ih.1 i hi
        exact ⟨by simp [hmem], hk⟩
      · rcases List.mem_cons.1 hi with rfl | hi
        · exact ⟨i, by simp, rfl, rfl⟩
        · obtain ⟨j', hj', hsame⟩ := ih.2 i hi
          exact ⟨j', by simp [hj'], hsame⟩

theorem OnlyFails.intervene (h : s.OnlyFails) (kind : CallKind) :
    (s.intervene kind).2.stores = s.stores ∧ (s.intervene kind).2.transport = s.transport ∧
      (s.intervene kind).2.OnlyFails ∧
      (kind = .historyAnswer → (s.intervene kind).1 = none) := by
  obtain ⟨hfound, hrest⟩ := next_spec kind s.interventions
  unfold Service.intervene
  rcases hnext : Intervention.next kind s.interventions with ⟨found, rest⟩
  rw [hnext] at hfound hrest
  have hleft : ∀ i ∈ rest, i.acts = [] ∧ i.kind ≠ .historyAnswer := by
    intro i hi
    obtain ⟨j, hj, hacts, hkind⟩ := hrest i hi
    rw [hacts, hkind]
    exact h j hj
  cases found with
  | none => exact ⟨rfl, rfl, hleft, fun _ => rfl⟩
  | some i =>
    obtain ⟨hmem, hkind⟩ := hfound i rfl
    obtain ⟨hacts, hne⟩ := h i hmem
    refine ⟨?_, rfl, hleft, fun hk => absurd (hkind.trans hk) hne⟩
    simp only [hacts, List.foldl_nil]

/-- A request is carried out or fails without effect. -/
theorem OnlyFails.answer (h : s.OnlyFails) (c : Call) :
    ∃ s', s'.OnlyFails ∧ s'.transport = s.transport ∧
      (s.answer c = ((s.stores.answer c).1, s') ∧ s'.stores = (s.stores.answer c).2 ∨
        (∃ e, s.answer c = (.error e, s')) ∧ s'.stores = s.stores) := by
  have carried : ∀ s' : Service, s'.OnlyFails → s'.transport = s.transport →
      s'.stores = s.stores → ∃ s'', s''.OnlyFails ∧ s''.transport = s.transport ∧
        (s'.carryOut c = ((s.stores.answer c).1, s'') ∧ s''.stores = (s.stores.answer c).2) := by
    intro s' honly htransport hstores
    refine ⟨{ s' with stores := (s.stores.answer c).2 }, honly, htransport, ?_, rfl⟩
    unfold carryOut
    rw [hstores]
  obtain ⟨hstores, htransport, honly, -⟩ := h.intervene c.kind
  unfold Service.answer
  rcases hi : s.intervene c.kind with ⟨failure, s'⟩
  rw [hi] at hstores htransport honly
  cases failure with
  | some e => exact ⟨s', honly, htransport, .inr ⟨⟨e, rfl⟩, hstores⟩⟩
  | none =>
    cases c with
    | history branch identity =>
      obtain ⟨hstores', htransport', honly', hnone⟩ := honly.intervene .historyAnswer
      simp only
      rcases hi' : s'.intervene .historyAnswer with ⟨failure, s''⟩
      rw [hi'] at hstores' htransport' honly' hnone
      cases hnone rfl
      obtain ⟨r, honly, htransport, hr⟩ :=
        carried s'' honly' (htransport'.trans htransport) (hstores'.trans hstores)
      exact ⟨r, honly, htransport, .inl hr⟩
    | _ =>
      obtain ⟨r, honly, htransport, hr⟩ := carried s' honly htransport hstores
      exact ⟨r, honly, htransport, .inl hr⟩

/-- A service whose requests may fail leaves its stores as a pass does that is cut. -/
theorem OnlyFails.cut_perform {α : Type} (h : s.OnlyFails) (p : Pass α) :
    p.Cut s.stores (s.perform p).2.stores := by
  have key : ∀ (w : Work (Except Failure α)) (s' : Service), s'.OnlyFails →
      s'.transport = s.transport → ∃ r, Work.Ends (Stores.handler s.transport.reach) w s'.stores r
        (w.run handler s').2.stores := by
    intro w
    induction w with
    | done a => exact fun s' _ _ => ⟨_, .done a _⟩
    | call c next ih =>
      intro s' honly htransport
      obtain ⟨s'', honly', htransport', hanswer⟩ := honly.answer c
      obtain ⟨r, hr⟩ := ih (s'.answer c).1 s'' honly' (htransport'.trans htransport)
      rcases hanswer with ⟨ha, hstores⟩ | ⟨⟨e, ha⟩, hstores⟩
      · have hrun : (Work.call c next).run handler s' =
            (next (s'.stores.answer c).1).run handler s'' := by
          change Work.run handler (next (s'.answer c).1) (s'.answer c).2 = _
          rw [ha]
        rw [ha, hstores] at hr
        rw [hrun]
        exact ⟨r, .answered hr⟩
      · have hrun : (Work.call c next).run handler s' = (next (.error e)).run handler s'' := by
          change Work.run handler (next (s'.answer c).1) (s'.answer c).2 = _
          rw [ha]
        rw [ha, hstores] at hr
        rw [hrun]
        exact ⟨r, .failed e hr⟩
    | send m next ih =>
      intro s' honly htransport
      obtain ⟨hresult, hstores, hinterventions, ht⟩ := deliver_eq m s'
      have honly' : (s'.deliver m).2.OnlyFails := fun i hi => honly i (hinterventions ▸ hi)
      obtain ⟨r, hr⟩ := ih (s'.deliver m).1 _ honly' (ht.trans htransport)
      rw [hresult, hstores, htransport] at hr
      refine ⟨r, .sent ?_⟩
      change Work.Ends _ _ _ r (Work.run handler (next (s'.deliver m).1) (s'.deliver m).2).2.stores
      rw [hresult, htransport]
      exact hr
    | log m next ih =>
      intro s' honly htransport
      obtain ⟨r, hr⟩ := ih (s'.record m) honly htransport
      exact ⟨r, .logged hr⟩
  obtain ⟨r, hr⟩ := key p.run s h rfl
  exact ⟨s.transport.reach, r, hr⟩

end Service

end Triage
