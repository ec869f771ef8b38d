import Triage.Config
import Triage.Work

/-!
# Notifications

A pass queues every recent issue for the subscribers that follow it and have not been told of it
yet, and sends one message to each address with something in its queue.
-/

namespace Triage

/-- The issues queued for one address, by build id. -/
structure Notification where
  address : String
  byBuild : OrderedMap Nat (List Issue)

namespace Notification

def empty (address : String) : Notification := ⟨address, .empty⟩

def add (n : Notification) (i : Issue) : Notification :=
  { n with byBuild := n.byBuild.insert i.key.build ((n.byBuild.find? i.key.build).getD [] ++ [i]) }

def issues (n : Notification) : List Issue := n.byBuild.values.flatten

def subject (n : Notification) : String :=
  let builds := ", ".intercalate (n.byBuild.keys.map toString)
  s!"[healthbot]: {n.issues.length} new failures in builds [{builds}] need to be handled"

/-- The lines of the issues of one build, the last with the changes of the build. -/
def issueLines : List Issue → String
  | [] => ""
  | [i] => i.plainText true ++ "\n"
  | i :: is => i.plainText false ++ "\n" ++ issueLines is

def sectionText (build : Nat) (is : List Issue) : String := s!"Build {build}\n" ++ issueLines is ++ "\n"

def body (n : Notification) : String :=
  String.join (n.byBuild.entries.map fun e => sectionText e.1 e.2)

def message (n : Notification) : Message := ⟨n.address, n.subject, n.body⟩

structure Report where
  checked : Nat
  sent : Nat
  failed : Nat
  deriving DecidableEq, Repr

/-- Queued notifications by address. -/
abbrev Queue := OrderedMap String Notification

def enqueue (q : Queue) (address : String) (i : Issue) : Queue :=
  q.insert address (((q.find? address).getD (.empty address)).add i)

/-- Offers an issue to one subscriber: counts the filters that it passes and queues it if it passes
all of them and the address has not been told of it. -/
def offer (maxRetries : Nat) (i : Issue) (acc : Queue × SubscriberStat) (s : Subscriber) :
    Pass (Queue × SubscriberStat) := do
  let (q, stat) := acc
  if !s.followsServer i.key.server then return (q, stat)
  let stat := { stat with serverAllowed := stat.serverAllowed + 1 }
  if !s.followsBranch i.trackedBranch then return (q, stat)
  let stat := { stat with subscribed := stat.subscribed + 1 }
  if !s.followsTags i.tags then return (q, stat)
  let stat := { stat with tagsFilterPassed := stat.tagsFilterPassed + 1 }
  if ← Pass.ask (.announce i.key s.address maxRetries) then
    Pass.log (.queued s.address i.key)
    return (enqueue q s.address i, stat)
  return (q, stat)

/-- Offers an issue to every subscriber and stores the counts. -/
def offerAll (cfg : NotificationConfig) (q : Queue) (i : Issue) : Pass Queue := do
  let (q, stat) ← cfg.subscribers.foldlM (offer cfg.maxRetries i) (q, ⟨0, 0, 0⟩)
  Pass.ask (.saveStat i.key stat)
  return q

/-- Takes the marks of a message back that did not reach its address. -/
def recordFailures (maxRetries : Nat) (address reason : String) : List Issue → Pass Unit
  | [] => return ()
  | i :: is => do
    let _ ← Pass.ask (.recordFailure i.key address reason maxRetries)
    recordFailures maxRetries address reason is

def deliver (maxRetries : Nat) (r : Report) (n : Notification) : Pass Report := do
  match ← Pass.send n.message with
  | .ok () =>
    Pass.log (.messageSent n.address n.issues.length)
    return { r with sent := r.sent + 1 }
  | .error e =>
    Pass.log (.messageFailed n.address e.message)
    recordFailures maxRetries n.address e.message n.issues
    return { r with failed := r.failed + 1 }

/-- One pass over the issues detected within the recent window. -/
def sendNew (cfg : NotificationConfig) (now : Timestamp) : Pass Report := do
  let cutoff ← Pass.ofTime (now.minusMinutes cfg.recentMinutes)
  let recent := (← Pass.ask .allIssues).filter fun i => cutoff ≤ i.detectedAt
  let queue ← recent.foldlM (offerAll cfg) OrderedMap.empty
  queue.values.foldlM (deliver cfg.maxRetries) ⟨recent.length, 0, 0⟩

end Notification

end Triage
