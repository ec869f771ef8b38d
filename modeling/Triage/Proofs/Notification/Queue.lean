import Triage.Notification
import Triage.Proofs.Execution

/-!
# What a notification pass queues

`prepared` gives the issue store and the queue once every recent issue has been offered to every
subscriber, and `exec_foldlM_offerAll` says that a pass gets there whatever the transport does.
-/

namespace Triage.Notification

/-! ### Listed issues -/

/-- How often a notification lists the issue with the given key. -/
def listed (k : IssueKey) (n : Notification) : Nat := n.issues.countP fun i => i.key = k

theorem issues_add_perm (n : Notification) (i : Issue) : (n.add i).issues.Perm (i :: n.issues) := by
  have hadd := (OrderedMap.values_insert_perm n.byBuild i.key.build
    ((n.byBuild.find? i.key.build).getD [] ++ [i])).flatten
  refine hadd.trans ?_
  rw [List.flatten_cons]
  unfold issues
  cases hf : n.byBuild.find? i.key.build with
  | none =>
    rw [OrderedMap.erase_of_find? hf]
    exact .refl _
  | some is =>
    have hold := (OrderedMap.values_insert_perm n.byBuild i.key.build is).flatten
    rw [OrderedMap.insert_of_find? hf, List.flatten_cons] at hold
    refine .trans ?_ (hold.symm.cons i)
    rw [Option.getD_some, List.append_assoc]
    exact List.perm_middle

theorem listed_add (k : IssueKey) (n : Notification) (i : Issue) :
    (n.add i).listed k = n.listed k + if i.key = k then 1 else 0 := by
  unfold listed
  rw [(issues_add_perm n i).countP_eq, List.countP_cons]
  simp

/-- How often the notification for an address lists the issue. -/
def Queue.listed (k : IssueKey) (address : String) (q : Queue) : Nat :=
  ((q.find? address).getD (.empty address)).listed k

/-- Each notification is stored under its address. -/
def Queue.Addressed (q : Queue) : Prop := ∀ a n, q.find? a = some n → n.address = a

theorem find?_enqueue (q : Queue) (address a : String) (i : Issue) :
    (enqueue q address i).find? a =
      if address = a then some (((q.find? address).getD (.empty address)).add i) else q.find? a :=
  OrderedMap.find?_insert q address a _

theorem listed_enqueue (q : Queue) (k : IssueKey) (address a : String) (i : Issue) :
    (enqueue q address i).listed k a =
      q.listed k a + if address = a ∧ i.key = k then 1 else 0 := by
  unfold Queue.listed
  rw [find?_enqueue]
  by_cases ha : address = a
  · subst ha
    rw [if_pos rfl, Option.getD_some, listed_add]
    simp
  · simp [ha]

theorem addressed_enqueue {q : Queue} (h : q.Addressed) (address : String) (i : Issue) :
    (enqueue q address i).Addressed := by
  intro a n hn
  rw [find?_enqueue] at hn
  split at hn
  · rename_i ha
    cases hn
    cases hq : q.find? address with
    | none => exact ha
    | some n => exact (h _ _ hq).trans ha
  · exact h a n hn

/-! ### Offers -/

/-- Whether an issue passes all filters of a subscriber. -/
def wanted (s : Subscriber) (i : Issue) : Bool :=
  s.followsServer i.key.server && s.followsBranch i.trackedBranch && s.followsTags i.tags

/-- The counts once a subscriber has been offered an issue. -/
def counted (i : Issue) (stat : SubscriberStat) (s : Subscriber) : SubscriberStat :=
  if !s.followsServer i.key.server then stat
  else if !s.followsBranch i.trackedBranch then
    { stat with serverAllowed := stat.serverAllowed + 1 }
  else if !s.followsTags i.tags then
    { stat with serverAllowed := stat.serverAllowed + 1, subscribed := stat.subscribed + 1 }
  else ⟨stat.serverAllowed + 1, stat.subscribed + 1, stat.tagsFilterPassed + 1⟩

/-- The issues and the queue once a subscriber has been offered an issue. -/
def offered (maxRetries : Nat) (i : Issue) (acc : IssueStore × Queue) (s : Subscriber) :
    IssueStore × Queue :=
  if wanted s i then
    ((acc.1.announce i.key s.address maxRetries).2,
      if (acc.1.announce i.key s.address maxRetries).1 then enqueue acc.2 s.address i else acc.2)
  else acc

/-- The issues and the queue once every subscriber has been offered an issue. -/
def offeredAll (cfg : NotificationConfig) (acc : IssueStore × Queue) (i : Issue) :
    IssueStore × Queue :=
  (((cfg.subscribers.foldl (offered cfg.maxRetries i) acc).1).saveStat i.key
      (cfg.subscribers.foldl (counted i) ⟨0, 0, 0⟩),
    (cfg.subscribers.foldl (offered cfg.maxRetries i) acc).2)

/-- The issues and the queue once all the issues have been offered. -/
def prepared (cfg : NotificationConfig) (is : List Issue) (store : IssueStore) : IssueStore × Queue :=
  is.foldl (offeredAll cfg) (store, .empty)

section Exec

variable (reach : List (Message × Bool) → Message → Except ServiceError Unit)

theorem runWith_offer (maxRetries : Nat) (i : Issue) (q : Queue) (stat : SubscriberStat)
    (s : Subscriber) (o : Outbox) :
    (offer maxRetries i (q, stat) s).runWith (Outbox.handler reach) o =
      (.ok ((offered maxRetries i (o.stores.issues, q) s).2, counted i stat s),
        o.withIssues (offered maxRetries i (o.stores.issues, q) s).1) := by
  unfold offer offered counted wanted
  cases hserver : s.followsServer i.key.server with
  | false => rfl
  | true =>
    cases hbranch : s.followsBranch i.trackedBranch with
    | false => rfl
    | true =>
      cases htags : s.followsTags i.tags with
      | false => rfl
      | true =>
        have hask : (Pass.ask (.announce i.key s.address maxRetries)).runWith (Outbox.handler reach) o =
            (.ok (o.stores.issues.announce i.key s.address maxRetries).1,
              o.withIssues (o.stores.issues.announce i.key s.address maxRetries).2) :=
          Pass.runWith_ask_of_ok _ (c := .announce i.key s.address maxRetries) rfl
        simp only [Bool.not_true, Bool.false_eq_true, if_false, Bool.and_self, if_true]
        rw [Pass.runWith_bind_of_ok _ hask]
        cases (o.stores.issues.announce i.key s.address maxRetries).1 <;> rfl

theorem runWith_foldlM_offer (maxRetries : Nat) (i : Issue) :
    ∀ (ss : List Subscriber) (q : Queue) (stat : SubscriberStat) (o : Outbox),
      Pass.runWith (Outbox.handler reach) (ss.foldlM (offer maxRetries i) (q, stat)) o =
        (.ok ((ss.foldl (offered maxRetries i) (o.stores.issues, q)).2,
            ss.foldl (counted i) stat),
          o.withIssues (ss.foldl (offered maxRetries i) (o.stores.issues, q)).1)
  | [], _, _, _ => rfl
  | s :: ss, q, stat, o => by
    rw [List.foldlM_cons, List.foldl_cons, List.foldl_cons,
      Pass.runWith_bind_of_ok _ (runWith_offer reach maxRetries i q stat s o)]
    exact runWith_foldlM_offer maxRetries i ss _ _ _

theorem runWith_offerAll (cfg : NotificationConfig) (q : Queue) (i : Issue) (o : Outbox) :
    (offerAll cfg q i).runWith (Outbox.handler reach) o =
      (.ok (offeredAll cfg (o.stores.issues, q) i).2,
        o.withIssues (offeredAll cfg (o.stores.issues, q) i).1) := by
  have hsave : ∀ (stat : SubscriberStat) (o : Outbox),
      (Pass.ask (.saveStat i.key stat)).runWith (Outbox.handler reach) o =
        (.ok (), o.withIssues (o.stores.issues.saveStat i.key stat)) :=
    fun stat _ => Pass.runWith_ask_of_ok _ (c := .saveStat i.key stat) rfl
  unfold offerAll
  rw [Pass.runWith_bind_of_ok _ (runWith_foldlM_offer reach cfg.maxRetries i cfg.subscribers q _ o)]
  simp only
  rw [Pass.runWith_bind_of_ok _ (hsave _ _)]
  rfl

/-- Preparing a pass is offering every recent issue to every subscriber. -/
theorem runWith_foldlM_offerAll (cfg : NotificationConfig) :
    ∀ (is : List Issue) (q : Queue) (o : Outbox),
      Pass.runWith (Outbox.handler reach) (is.foldlM (offerAll cfg) q) o =
        (.ok (is.foldl (offeredAll cfg) (o.stores.issues, q)).2,
          o.withIssues (is.foldl (offeredAll cfg) (o.stores.issues, q)).1)
  | [], _, _ => rfl
  | i :: is, q, o => by
    rw [List.foldlM_cons, List.foldl_cons,
      Pass.runWith_bind_of_ok _ (runWith_offerAll reach cfg q i o)]
    exact runWith_foldlM_offerAll cfg is _ _

end Exec

end Triage.Notification
