import SlicePolicy.Query
import SlicePolicy.Report

namespace SlicePolicy

/-!
# Runs

A check asks a solver, which may remember what it was asked, and lets others watch. A run says all
of that in one value.

* `Signal` — what can be seen from outside while a check runs.
* `Episode` — one run: its result, the solver's new state, and the signals, oldest first.
* `Run` — a computation whose steps are run one after the other until one fails.
-/

/-- Something that can be seen while a check runs. -/
inductive Signal
  | log (record : LogRecord)
  /-- The solver is asked. -/
  | asked (query : Query)
  /-- The observer gets a report. -/
  | report (report : Report)

namespace Signal

/-- The query the solver is asked, if that is the signal. -/
def asked? : Signal → Option Query
  | asked q => some q
  | _ => none

/-- The report the observer gets, if that is the signal. -/
def report? : Signal → Option Report
  | report r => some r
  | _ => none

/-- What a log shows of the signal if reports are logged as well. -/
def logRecord? : Signal → Option LogRecord
  | log record => some record
  | asked _ => none
  | report r => some r.logRecord

end Signal

/-- What a run did. -/
structure Episode (σ α : Type) where
  result : Except Error α
  /-- The solver's state afterwards. -/
  state : σ
  /-- The signals, oldest first. -/
  signals : List Signal

namespace Episode

variable {σ α : Type}

/-- The queries that the solver was asked. -/
def asked (e : Episode σ α) : List Query := e.signals.filterMap Signal.asked?

/-- The reports that the observer got. -/
def reports (e : Episode σ α) : List Report := e.signals.filterMap Signal.report?

/-- The log, if reports are logged as well. -/
def log (e : Episode σ α) : List LogRecord := e.signals.filterMap Signal.logRecord?

end Episode

/-- A computation that uses a solver with states of type `σ`. -/
def Run (σ α : Type) : Type := σ → Episode σ α

namespace Run

variable {σ α β : Type}

/-- A result without any work. -/
def ofExcept (result : Except Error α) : Run σ α := fun s => ⟨result, s, []⟩

/-- One computation after another; a failure is the end. -/
def andThen (x : Run σ α) (next : α → Run σ β) : Run σ β := fun s =>
  let first := x s
  match first.result with
  | .error e => ⟨.error e, first.state, first.signals⟩
  | .ok a =>
    let second := next a first.state
    ⟨second.result, second.state, first.signals ++ second.signals⟩

instance : Monad (Run σ) where
  pure a := ofExcept (.ok a)
  bind := andThen

/-- Gives a signal. -/
def emit (signal : Signal) : Run σ Unit := fun s => ⟨.ok (), s, [signal]⟩

/-- Makes a log record. -/
def log (record : LogRecord) : Run σ Unit := emit (.log record)

/-- Delivers a report. -/
def report (r : Report) : Run σ Unit := emit (.report r)

end Run

end SlicePolicy
