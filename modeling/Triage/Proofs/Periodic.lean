import Triage.Proofs.Operation
import Triage.Proofs.Schedule.Registry

/-!
# The periodic jobs

Requests for one name coalesce and the last one wins (`Registry.Asked`), and a sweep does what is
pending under each name once, in whatever order it comes to the names (`Service.sweepIn_of_awaits`).  So
each job is done that is the last of its name among the periodic ones.  The name of a detection is put
together from the server and the branch, and two branches can have the same
(`Service.sweep_after_requests`).
-/

namespace Triage

/-! ### Names -/

namespace Job

/-- The last of the jobs that have the name. -/
def lastNamed (js : List Job) (name : String) : Option Job :=
  (js.filter fun j => j.taskName = name).getLast?

variable {js : List Job} {job : Job} {name : String}

theorem lastNamed_concat (js : List Job) (job : Job) (name : String) :
    lastNamed (js ++ [job]) name = if job.taskName = name then some job else lastNamed js name := by
  unfold lastNamed
  rw [List.filter_append]
  by_cases h : job.taskName = name
  · rw [if_pos h, List.filter_cons_of_pos (by simpa using h)]
    exact List.getLast?_concat
  · rw [if_neg h, List.filter_cons_of_neg (by simpa using h), List.filter_nil, List.append_nil]

theorem mem_of_lastNamed (h : lastNamed js name = some job) : job ∈ js ∧ job.taskName = name := by
  obtain ⟨hmem, hname⟩ := List.mem_filter.1 (List.mem_of_getLast? h)
  exact ⟨hmem, of_decide_eq_true hname⟩

theorem exists_lastNamed (h : ∃ j ∈ js, j.taskName = name) :
    ∃ job, lastNamed js name = some job := by
  obtain ⟨j, hj, hname⟩ := h
  refine Option.isSome_iff_exists.1 (List.getLast?_isSome.2 ?_)
  exact List.ne_nil_of_mem (List.mem_filter.2 ⟨hj, decide_eq_true hname⟩)

/-! #### The names of the periodic jobs -/

theorem toList_taskName_detect (p : TrackedBranch) :
    (detect p).taskName.toList = "detect:".toList ++ (p.server.toList ++ ':' :: p.branch.toList) := by
  show ("detect:" ++ p.server ++ ":" ++ p.branch).toList = _
  simp

theorem head?_taskName_detect (p : TrackedBranch) :
    (detect p).taskName.toList.head? = some 'd' := by
  rw [toList_taskName_detect]
  rfl

/-- No other job has the name of a detection. -/
theorem taskName_detect_ne (p : TrackedBranch) (h : ∀ q, job ≠ detect q) :
    job.taskName ≠ (detect p).taskName := by
  intro hname
  have hhead := congrArg (fun name : String => name.toList.head?) hname
  simp only [head?_taskName_detect] at hhead
  cases job with
  | detect q => exact h q rfl
  | cluster => exact absurd hhead (by decide)
  | notify => exact absurd hhead (by decide)
  | clean => exact absurd hhead (by decide)

/-- The branches that are tracked under the name of the branch. -/
def namesakes (cfg : Config) (p : TrackedBranch) : List TrackedBranch :=
  cfg.detection.tracked.filter fun q => (detect q).taskName = (detect p).taskName

theorem lastNamed_detect (cfg : Config) (p : TrackedBranch) :
    lastNamed (periodic cfg) (detect p).taskName = (namesakes cfg p).getLast?.map detect := by
  have hother : ([cluster, notify] ++ if cfg.cleaner.enabled then [clean] else []).filter
      (fun j => j.taskName = (detect p).taskName) = [] := by
    refine List.filter_eq_nil_iff.2 fun j hj => ?_
    have hne : ∀ q, j ≠ detect q := by
      rintro q rfl
      split at hj <;> simp at hj
    simpa using taskName_detect_ne p hne
  unfold lastNamed periodic namesakes
  rw [List.append_assoc, List.filter_append, hother, List.append_nil, List.filter_map,
    List.getLast?_map]
  rfl

theorem filter_detections (cfg : Config) (h : ∀ q, job ≠ detect q) :
    (cfg.detection.tracked.map detect).filter (fun j => j.taskName = job.taskName) = [] := by
  refine List.filter_eq_nil_iff.2 fun j hj => ?_
  obtain ⟨p, -, rfl⟩ := List.mem_map.1 hj
  simpa using (taskName_detect_ne p h).symm

theorem lastNamed_other (cfg : Config) (h : ∀ q, job ≠ detect q) :
    lastNamed (periodic cfg) job.taskName =
      if job = clean ∧ cfg.cleaner.enabled = false then none else some job := by
  unfold lastNamed periodic
  rw [List.append_assoc, List.filter_append, filter_detections cfg h, List.nil_append]
  cases hc : cfg.cleaner.enabled <;> cases job with
  | detect q => exact absurd rfl (h q)
  | _ => decide

/-- Every tracked branch is the last one of its name exactly if no two have the same name. -/
theorem forall_namesakes_iff (cfg : Config) :
    (∀ p ∈ cfg.detection.tracked, (namesakes cfg p).getLast? = some p) ↔
      Set.InjOn (fun p => (detect p).taskName) {p | p ∈ cfg.detection.tracked} := by
  constructor
  · intro h p hp q hq hname
    have hsame : namesakes cfg p = namesakes cfg q := by
      unfold namesakes
      rw [show (detect p).taskName = (detect q).taskName from hname]
    have hlast := h p hp
    rw [hsame, h q hq] at hlast
    exact (Option.some.inj hlast).symm
  · intro h p hp
    have hself : p ∈ namesakes cfg p := List.mem_filter.2 ⟨hp, decide_eq_true rfl⟩
    obtain ⟨q, hq⟩ := Option.isSome_iff_exists.1 (List.getLast?_isSome.2 (List.ne_nil_of_mem hself))
    obtain ⟨htracked, hname⟩ := List.mem_filter.1 (List.mem_of_getLast? hq)
    rw [hq, h htracked hp (of_decide_eq_true hname)]

/-- Names are different as long as no server has a colon in its name. -/
theorem injOn_taskName {ps : List TrackedBranch} (h : ∀ p ∈ ps, ':' ∉ p.server.toList) :
    Set.InjOn (fun p => (detect p).taskName) {p | p ∈ ps} := by
  have hserver : ∀ p ∈ ps, (p.server.toList ++ ':' :: p.branch.toList).span (· ≠ ':') =
      (p.server.toList, ':' :: p.branch.toList) := by
    intro p hp
    have hall : ∀ c ∈ p.server.toList, decide (c ≠ ':') = true := by
      rintro c hc
      exact decide_eq_true fun heq => h p hp (heq ▸ hc)
    rw [List.span_eq_takeWhile_dropWhile, List.takeWhile_append_of_pos hall,
      List.dropWhile_append_of_pos hall]
    simp
  intro p hp q hq hname
  have hlists := congrArg String.toList hname
  simp only [toList_taskName_detect] at hlists
  have hrest := congrArg (List.span (· ≠ ':')) (List.append_cancel_left hlists)
  rw [hserver p hp, hserver q hq] at hrest
  obtain ⟨hservers, hbranches⟩ := Prod.mk.inj hrest
  obtain ⟨server, branch⟩ := p
  obtain ⟨server', branch'⟩ := q
  obtain rfl := String.toList_inj.1 hservers
  obtain rfl := String.toList_inj.1 (List.cons.inj hbranches).2
  rfl

end Job

/-! ### Requests -/

/-- The task has not run yet and the job is pending. -/
structure Task.Awaits (t : Task Job) (job : Job) : Prop where
  notRunning : t.status ≠ .running
  unfinished : t.lastFinish = none
  pending : t.pending = some job
  hasPending : t.hasPending = true

theorem Task.Awaits.claim? {t : Task Job} {job : Job} (h : t.Awaits job) (now : Nat) :
    t.claim? now = some (job, t.claimed) := by
  have hquiet : t.isQuiet now = true := by
    unfold Task.isQuiet
    rw [h.unfinished]
  exact Task.claim?_eq_some.2
    ⟨Task.isEligible_iff.2 ⟨h.notRunning, h.hasPending, hquiet⟩, h.pending, rfl⟩

namespace Registry

/-- Only jobs of the list have been requested, and no task has run. -/
structure Untouched (js : List Job) (r : Registry Job) : Prop where
  nodup : r.names.Nodup
  known {name : String} : name ∈ r.names → ∃ j ∈ js, j.taskName = name
  notRunning {name : String} {t : Task Job} : r.find? name = some t → t.status ≠ .running
  unfinished {name : String} {t : Task Job} : r.find? name = some t → t.lastFinish = none

/-- The jobs of the list have been requested one after the other. -/
structure Asked (js : List Job) (r : Registry Job) : Prop where
  nodup : r.names.Nodup
  mem_names {name : String} : name ∈ r.names ↔ ∃ j ∈ js, j.taskName = name
  awaits {name : String} {job : Job} : Job.lastNamed js name = some job →
    ∃ t, r.find? name = some t ∧ t.Awaits job

variable {js : List Job} {r : Registry Job} {job : Job}

theorem untouched_empty (js : List Job) : Untouched js .empty where
  nodup := List.nodup_nil
  known h := absurd h List.not_mem_nil
  notRunning h := by cases h
  unfinished h := by cases h

theorem Untouched.request (h : Untouched js r) (hj : job ∈ js) (quietMs : Nat) :
    Untouched js (r.request job.taskName job quietMs) := by
  have htask : ∀ {name t}, (r.request job.taskName job quietMs).find? name = some t →
      t.status ≠ .running ∧ t.lastFinish = none := by
    intro name t ht
    rw [find?_request] at ht
    split at ht
    · cases ht
      cases hold : r.find? job.taskName with
      | none => exact ⟨by simp [Task.make], rfl⟩
      | some old => exact ⟨h.notRunning (t := old) hold, h.unfinished (t := old) hold⟩
    · exact ⟨h.notRunning ht, h.unfinished ht⟩
  refine ⟨nodup_names_request h.nodup _ _ _, fun {name} hname => ?_, fun ht => (htask ht).1,
    fun ht => (htask ht).2⟩
  rw [names_request] at hname
  split at hname
  · exact h.known hname
  · rcases List.mem_append.1 hname with hname | hname
    · exact h.known hname
    · exact ⟨job, hj, (List.mem_singleton.1 hname).symm⟩

theorem Asked.untouched (h : Asked js r) : Untouched js r := by
  have hawaits : ∀ {name t}, r.find? name = some t → ∃ job, t.Awaits job := by
    intro name t ht
    have hname : name ∈ r.names := by
      by_contra hnot
      rw [find?_eq_none_iff.2 hnot] at ht
      cases ht
    obtain ⟨job, hjob⟩ := Job.exists_lastNamed (h.mem_names.1 hname)
    obtain ⟨t', ht', ha⟩ := h.awaits hjob
    cases ht.symm.trans ht'
    exact ⟨job, ha⟩
  refine ⟨h.nodup, h.mem_names.1, fun ht => ?_, fun ht => ?_⟩
  · obtain ⟨job, ha⟩ := hawaits ht
    exact ha.notRunning
  · obtain ⟨job, ha⟩ := hawaits ht
    exact ha.unfinished

end Registry

namespace Service

/-- The service with other tasks. -/
def withTasks (r : Registry Job) (s : Service) : Service := { s with tasks := r }

/-- What the run of a job does to the service. -/
def doJob (s : Service) (job : Job) : Service :=
  (Work.run handler (job.execution s.config s.now) s).2

/-- Again and again some time passes and then all periodic jobs are requested. -/
def requestRounds (waits : List Nat) (s : Service) : Service :=
  waits.foldl (fun s ms => (s.advance ms).requestPeriodic) s

/-- A sweep that comes to the tasks in the given order. -/
def sweepIn (order : List String) (s : Service) : Nat × Service :=
  order.foldl (fun (n, s) name =>
    let (ran, s) := s.runTask name
    (if ran then n + 1 else n, s)) (0, s)

variable {s : Service} {js : List Job} {job : Job} {name : String}

theorem sweep_eq_sweepIn (s : Service) : s.sweep = s.sweepIn s.tasks.names := rfl

/-! #### Rounds of requests -/

theorem config_requests (js : List Job) (s : Service) :
    (js.foldl (fun s j => s.request j) s).config = s.config := by
  induction js generalizing s with
  | nil => rfl
  | cons j js ih => exact ih (s.request j)

/-- Each job that is requested keeps the registry untouched, and the last one of a name is pending. -/
theorem untouched_requests {all : List Job} (h : s.tasks.Untouched all) (js : List Job)
    (hjs : ∀ j ∈ js, j ∈ all) :
    (js.foldl (fun s j => s.request j) s).tasks.Untouched all ∧
      (∀ j ∈ js, j.taskName ∈ (js.foldl (fun s j => s.request j) s).tasks.names) ∧
      ∀ name job, Job.lastNamed js name = some job →
        ∃ t, (js.foldl (fun s j => s.request j) s).tasks.find? name = some t ∧ t.Awaits job := by
  induction js using List.reverseRecOn with
  | nil => exact ⟨h, fun _ hj => absurd hj List.not_mem_nil, fun _ _ hjob => by cases hjob⟩
  | append_singleton js j ih =>
    obtain ⟨huntouched, hnames, hawaits⟩ := ih fun k hk => hjs k (List.mem_append_left _ hk)
    have hj : j ∈ all := hjs j (by simp)
    rw [List.foldl_append, List.foldl_cons, List.foldl_nil]
    generalize js.foldl (fun s j => s.request j) s = s' at *
    have hrequest := huntouched.request hj (quietMsOfSecs (j.quietSecs s'.config))
    have htasks : (s'.request j).tasks =
        s'.tasks.request j.taskName j (quietMsOfSecs (j.quietSecs s'.config)) := rfl
    rw [htasks]
    refine ⟨hrequest, fun k hk => ?_, fun name job hjob => ?_⟩
    · rw [Registry.names_request]
      rcases List.mem_append.1 hk with hk | hk
      · split
        · exact hnames k hk
        · exact List.mem_append_left _ (hnames k hk)
      · rw [List.mem_singleton.1 hk]
        split
        · assumption
        · simp
    · rw [Job.lastNamed_concat] at hjob
      split at hjob
      · rename_i hname
        cases hjob
        subst hname
        have hfind := Registry.find?_request s'.tasks j.taskName j
          (quietMsOfSecs (j.quietSecs s'.config)) j.taskName
        rw [if_pos rfl] at hfind
        exact ⟨_, hfind, hrequest.notRunning hfind, hrequest.unfinished hfind, rfl, rfl⟩
      · rename_i hname
        rw [Registry.find?_request, if_neg (Ne.symm hname)]
        exact hawaits name job hjob

theorem asked_requestPeriodic (h : s.tasks.Untouched (Job.periodic s.config)) :
    s.requestPeriodic.tasks.Asked (Job.periodic s.config) := by
  obtain ⟨huntouched, hnames, hawaits⟩ := untouched_requests h (Job.periodic s.config) fun _ hj => hj
  refine ⟨huntouched.nodup, fun {name} => ⟨huntouched.known, ?_⟩, fun {name job} => hawaits name job⟩
  rintro ⟨j, hj, rfl⟩
  exact hnames j hj

/-- However often the periodic jobs are requested, they are requested as if it were once. -/
theorem asked_requestRounds {waits : List Nat} (hw : waits ≠ [])
    (h : s.tasks.Untouched (Job.periodic s.config)) :
    (s.requestRounds waits).tasks.Asked (Job.periodic s.config) := by
  induction waits generalizing s with
  | nil => exact absurd rfl hw
  | cons ms waits ih =>
    have hround : (s.advance ms).requestPeriodic.tasks.Asked (Job.periodic s.config) :=
      asked_requestPeriodic (s := s.advance ms) h
    have hconfig : (s.advance ms).requestPeriodic.config = s.config :=
      config_requests _ (s.advance ms)
    cases waits with
    | nil => exact hround
    | cons ms' waits =>
      have hrest := ih (s := (s.advance ms).requestPeriodic) (List.cons_ne_nil _ _)
        (hconfig ▸ hround.untouched)
      rw [hconfig] at hrest
      exact hrest

/-! ### Runs -/

theorem answer_withTasks (r : Registry Job) (c : Call) (s : Service) :
    (s.withTasks r).answer c = ((s.answer c).1, (s.answer c).2.withTasks r) := by
  have hintervene : ∀ (kind : CallKind) (s : Service),
      (s.withTasks r).intervene kind = ((s.intervene kind).1, (s.intervene kind).2.withTasks r) := by
    intro kind s
    unfold intervene withTasks
    simp only
    cases hnext : Intervention.next kind s.interventions with
    | mk found rest => cases found <;> rfl
  unfold answer
  rw [hintervene]
  cases hc : s.intervene c.kind with
  | mk failure s' =>
    cases failure with
    | some e => rfl
    | none =>
      cases c with
      | history branch identity =>
        simp only [hintervene]
        cases hh : s'.intervene .historyAnswer with
        | mk failure s'' => cases failure <;> rfl
      | _ => rfl

theorem deliver_withTasks (r : Registry Job) (m : Message) (s : Service) :
    (s.withTasks r).deliver m = ((s.deliver m).1, (s.deliver m).2.withTasks r) := by
  rcases s with ⟨config, stores, now, uptimeMs, tasks, transport, interventions, records, attempts⟩
  cases transport with
  | log => rfl
  | direct unreachable =>
    unfold deliver withTasks
    simp only
    cases unreachable.find? m.address <;> rfl

/-- No job looks at the tasks or changes them. -/
theorem doJob_withTasks (r : Registry Job) (s : Service) (job : Job) :
    (s.withTasks r).doJob job = (s.doJob job).withTasks r := by
  have hview := Work.run_view handler handler (withTasks r) (fun _ => True)
    (fun c s _ => ⟨trivial, (congrArg Prod.fst (answer_withTasks r c s)).symm,
      (congrArg Prod.snd (answer_withTasks r c s)).symm⟩)
    (fun m s _ => ⟨trivial, (congrArg Prod.fst (deliver_withTasks r m s)).symm,
      (congrArg Prod.snd (deliver_withTasks r m s)).symm⟩)
    (fun _ _ _ => ⟨trivial, rfl⟩) (job.execution s.config s.now) s trivial
  exact hview.2.symm

theorem doJobs_withTasks (r : Registry Job) (s : Service) (js : List Job) :
    js.foldl doJob (s.withTasks r) = (js.foldl doJob s).withTasks r := by
  induction js generalizing s with
  | nil => rfl
  | cons j js ih => rw [List.foldl_cons, List.foldl_cons, doJob_withTasks, ih]

/-- The turn of a task does its pending job and leaves the other tasks alone. -/
theorem runTask_of_awaits {t : Task Job} (ht : s.tasks.find? name = some t) (ha : t.Awaits job) :
    ∃ r : Registry Job, s.runTask name = (true, (s.doJob job).withTasks r) ∧
      ∀ other, other ≠ name → r.find? other = s.tasks.find? other := by
  let claimed := s.tasks.modify name fun _ => t.claimed
  have hclaim : s.tasks.claim? name s.uptimeMs = some (job, claimed) := by
    unfold Registry.claim?
    rw [ht, Option.bind_some, ha.claim?]
  obtain ⟨_, -, -, -, hfind, -⟩ := Registry.find?_of_claim? hclaim
  have hrun : (s.withTasks claimed).doJob job = (s.doJob job).withTasks claimed :=
    doJob_withTasks claimed s job
  refine ⟨claimed.finish name ((s.withTasks claimed).doJob job).uptimeMs, ?_, fun other hne => ?_⟩
  · unfold runTask
    rw [hclaim]
    have hdo : (Work.run handler (job.execution s.config s.now) { s with tasks := claimed }).2 =
        (s.doJob job).withTasks claimed := hrun
    simp only
    rw [hdo, hrun]
    rfl
  · rw [Registry.find?_finish, if_neg hne, hfind, if_neg hne]

/-- A sweep over tasks that have not run yet does what is pending for each of them. -/
theorem sweepIn_of_awaits {order : List String} (hnd : order.Nodup) (f : String → Option Job)
    (hf : ∀ name ∈ order, ∃ job t, f name = some job ∧ s.tasks.find? name = some t ∧ t.Awaits job) :
    ∃ r : Registry Job, s.sweepIn order =
      ((order.filterMap f).length, ((order.filterMap f).foldl doJob s).withTasks r) := by
  have go : ∀ (order : List String) (n : Nat) (s : Service), order.Nodup →
      (∀ name ∈ order, ∃ job t, f name = some job ∧ s.tasks.find? name = some t ∧ t.Awaits job) →
      ∃ r : Registry Job, order.foldl (fun (n, s) name =>
          let (ran, s) := s.runTask name
          (if ran then n + 1 else n, s)) (n, s) =
        (n + (order.filterMap f).length, ((order.filterMap f).foldl doJob s).withTasks r) := by
    intro order
    induction order with
    | nil => exact fun n s _ _ => ⟨s.tasks, rfl⟩
    | cons name order ih =>
      intro n s hnd hf
      obtain ⟨hnot, hnd⟩ := List.nodup_cons.1 hnd
      obtain ⟨job, t, hjob, ht, ha⟩ := hf name List.mem_cons_self
      obtain ⟨r, hrun, hother⟩ := runTask_of_awaits ht ha
      -- the tasks that the sweep has still to come to are as they were
      have hrest : ∀ other ∈ order, ∃ job t, f other = some job ∧
          ((s.doJob job).withTasks r).tasks.find? other = some t ∧ t.Awaits job := by
        intro other hmem
        obtain ⟨job', t', hjob', ht', ha'⟩ := hf other (List.mem_cons_of_mem _ hmem)
        have hne : other ≠ name := fun heq => hnot (heq ▸ hmem)
        exact ⟨job', t', hjob', (hother other hne).trans ht', ha'⟩
      obtain ⟨r', hsweep⟩ := ih (n + 1) ((s.doJob job).withTasks r) hnd hrest
      refine ⟨r', ?_⟩
      rw [List.foldl_cons, List.filterMap_cons_some hjob, List.length_cons, List.foldl_cons]
      simp only [hrun, if_true]
      rw [hsweep, doJobs_withTasks, Nat.add_assoc, Nat.add_comm 1]
      rfl
  obtain ⟨r, hr⟩ := go order 0 s hnd hf
  rw [Nat.zero_add] at hr
  exact ⟨r, hr⟩

/-! ### Main result -/

theorem mem_jobs_iff {r : Registry Job} (h : r.Asked js) {order : List String}
    (ho : order.Perm r.names) :
    job ∈ order.filterMap (Job.lastNamed js) ↔ Job.lastNamed js job.taskName = some job := by
  rw [List.mem_filterMap]
  constructor
  · rintro ⟨name, -, hjob⟩
    rw [(Job.mem_of_lastNamed hjob).2]
    exact hjob
  · intro hjob
    have hname : job.taskName ∈ r.names := h.mem_names.2 ⟨job, (Job.mem_of_lastNamed hjob).1, rfl⟩
    exact ⟨job.taskName, ho.mem_iff.2 hname, hjob⟩

theorem nodup_jobs {order : List String} (h : order.Nodup) :
    (order.filterMap (Job.lastNamed js)).Nodup := by
  refine List.Nodup.filterMap (fun name name' job hjob hjob' => ?_) h
  exact (Job.mem_of_lastNamed hjob).2.symm.trans (Job.mem_of_lastNamed hjob').2

/-- After any positive number of rounds of requests, a sweep does jobs that are all different, each
once, and counts them.  These are the clustering, the notification, the cleaning if it is enabled, and the
detection on each tracked branch that no other branch with the same name follows.  So every tracked branch
is checked exactly if no two of them have the same name. -/
theorem sweep_after_requests (hs : s.tasks = .empty) {waits : List Nat} (hw : waits ≠ [])
    (wait : Nat) {order : List String} (ho : order.Perm (s.requestRounds waits).tasks.names) :
    ∃ (jobs : List Job) (r : Registry Job), jobs.Nodup ∧
      ((s.requestRounds waits).advance wait).sweepIn order =
        (jobs.length, (jobs.foldl doJob ((s.requestRounds waits).advance wait)).withTasks r) ∧
      Job.cluster ∈ jobs ∧ Job.notify ∈ jobs ∧
      (Job.clean ∈ jobs ↔ s.config.cleaner.enabled = true) ∧
      (∀ p, Job.detect p ∈ jobs ↔ (Job.namesakes s.config p).getLast? = some p) ∧
      ((∀ p ∈ s.config.detection.tracked, Job.detect p ∈ jobs) ↔
        Set.InjOn (fun p => (Job.detect p).taskName) {p | p ∈ s.config.detection.tracked}) := by
  have hasked := asked_requestRounds hw (hs ▸ Registry.untouched_empty (Job.periodic s.config))
  let js := Job.periodic s.config
  have hnd : order.Nodup := ho.nodup_iff.2 hasked.nodup
  have hlast : ∀ name ∈ order, ∃ job t, Job.lastNamed js name = some job ∧
      ((s.requestRounds waits).advance wait).tasks.find? name = some t ∧ t.Awaits job := by
    intro name hname
    obtain ⟨job, hjob⟩ := Job.exists_lastNamed (hasked.mem_names.1 (ho.mem_iff.1 hname))
    obtain ⟨t, ht, ha⟩ := hasked.awaits hjob
    exact ⟨job, t, hjob, ht, ha⟩
  obtain ⟨r, hsweep⟩ := sweepIn_of_awaits hnd (Job.lastNamed js) hlast
  have hmem : ∀ job, job ∈ order.filterMap (Job.lastNamed js) ↔
      Job.lastNamed js job.taskName = some job := fun job => mem_jobs_iff hasked ho
  have hdetect : ∀ p, Job.detect p ∈ order.filterMap (Job.lastNamed js) ↔
      (Job.namesakes s.config p).getLast? = some p := by
    intro p
    rw [hmem, Job.lastNamed_detect, Option.map_eq_some_iff]
    constructor
    · rintro ⟨q, hq, heq⟩
      cases heq
      exact hq
    · exact fun hp => ⟨p, hp, rfl⟩
  refine ⟨_, r, nodup_jobs hnd, hsweep, ?_, ?_, ?_, hdetect, ?_⟩
  · rw [hmem, Job.lastNamed_other _ (by simp)]
    simp
  · rw [hmem, Job.lastNamed_other _ (by simp)]
    simp
  · rw [hmem, Job.lastNamed_other _ (by simp)]
    simp
  · rw [← Job.forall_namesakes_iff]
    exact forall₂_congr fun p _ => hdetect p

/-- The service as it starts, with the default settings and the given branches tracked. -/
def tracking (tracked : List TrackedBranch) : Service :=
  .make { Config.default with detection := { DetectionConfig.default with tracked } } bridgeTime .log

/-- Two branches of one server are both checked, after two rounds of requests. -/
theorem sweep_after_requests_oneServer :
    ∃ s : Service, s = tracking [⟨"apache", "master"⟩, ⟨"apache", "dev"⟩] ∧
      ∃ (jobs : List Job) (r : Registry Job), jobs.Nodup ∧
        ((s.requestRounds [0, 1000]).advance 60000).sweep =
          (jobs.length, (jobs.foldl doJob ((s.requestRounds [0, 1000]).advance 60000)).withTasks r) ∧
        Job.detect ⟨"apache", "master"⟩ ∈ jobs ∧ Job.detect ⟨"apache", "dev"⟩ ∈ jobs ∧
        Job.cluster ∈ jobs ∧ Job.notify ∈ jobs ∧ Job.clean ∈ jobs := by
  obtain ⟨jobs, r, hnd, hsweep, hcluster, hnotify, hclean, -, hall⟩ :=
    sweep_after_requests (s := tracking [⟨"apache", "master"⟩, ⟨"apache", "dev"⟩]) rfl
      (List.cons_ne_nil 0 [1000]) 60000 (.refl _)
  have hdetect := hall.2 (Job.injOn_taskName (by decide))
  exact ⟨_, rfl, jobs, r, hnd, (sweep_eq_sweepIn _).trans hsweep, hdetect _ (by decide),
    hdetect _ (by decide), hcluster, hnotify, hclean.2 rfl⟩

/-- Two branches with one name, each with a test that failed for good. -/
def colliding : Service :=
  let failing : RunHistory :=
    ⟨(List.range 9).map fun n => ⟨100 + n, if n < 5 then .ok else .failure⟩⟩
  { tracking [⟨"a:b", "c"⟩, ⟨"a", "b:c"⟩] with
    stores := { Stores.empty with
      histories := (HistoryStore.empty.insert ⟨"a:b", "c"⟩ ⟨"t1", some "S"⟩ failing).insert
        ⟨"a", "b:c"⟩ ⟨"t1", some "S"⟩ failing } }

/-- The sweep runs four tasks, not five, and leaves the first branch unchecked, whose check would have
registered an issue. -/
theorem sweep_after_requests_colliding :
    colliding.tasks.names = [] ∧
      colliding.config.detection.tracked = [⟨"a:b", "c"⟩, ⟨"a", "b:c"⟩] ∧
      colliding.requestPeriodic.sweep.1 = 4 ∧
      colliding.requestPeriodic.sweep.2.stores.issues.all.map (·.key) = [⟨"a", 105, "t1"⟩] ∧
      (colliding.doJob (.detect ⟨"a:b", "c"⟩)).stores.issues.all.map (·.key) =
        [⟨"a:b", 105, "t1"⟩] := by
  decide +kernel

end Service

end Triage
