import SlicePolicy.Report

namespace SlicePolicy

/-!
# Collecting reports

* `Collector` — keeps the reports delivered to it, oldest first.
* `Broadcast` — delivers every report to a list of collectors, to one that is listed twice also
  twice.
-/

/-- The reports delivered so far, oldest first. -/
structure Collector where
  reports : List Report

namespace Collector

/-- A collector to which nothing was delivered. -/
def empty : Collector := ⟨[]⟩

instance : Inhabited Collector := ⟨empty⟩

/-- The collector after one more delivery. -/
def deliver (c : Collector) (r : Report) : Collector := ⟨c.reports ++ [r]⟩

/-- Whether nothing was delivered. -/
def isEmpty (c : Collector) : Bool := c.reports.isEmpty

/-- Whether a report has the outcome. -/
def hasOutcome (c : Collector) (o : CheckOutcome) : Bool := c.reports.any fun r => r.outcome = o

/-- The reports of a kind, oldest first. -/
def ofKind (c : Collector) (k : CheckKind) : List Report := c.reports.filter fun r => r.kind = k

/-- Whether every check that was reported holds. -/
def allHold (c : Collector) : Bool := c.reports.all fun r => r.outcome = .holds

end Collector

/-- A list of collectors, given by their numbers, to which reports are passed on. -/
structure Broadcast where
  recipients : List Nat
  deriving DecidableEq, Repr

namespace Broadcast

/-- The broadcast with one more recipient. -/
def add (b : Broadcast) (recipient : Nat) : Broadcast := ⟨b.recipients ++ [recipient]⟩

/-- The collectors after a report was passed on, recipient by recipient. -/
def deliver (b : Broadcast) (collectors : List Collector) (r : Report) : List Collector :=
  b.recipients.foldl (fun cs i => cs.modify i (·.deliver r)) collectors

/-- The broadcast as shown: the number of recipients. -/
def text (b : Broadcast) : String :=
  "CompositeObserver \x7b num_observers: " ++ Text.natural b.recipients.length ++ " \x7d"

end Broadcast

end SlicePolicy
