import StackMachine.Machine.Basic
import StackMachine.Panel

/-! Watching a machine: its events go to a log and to a subscriber, neither of which can reach back to it. -/

namespace StackMachine

/-- How a subscriber takes a batch. -/
inductive Verdict where
  | accepted
  /-- It returned a failure. -/
  | failed (message : Bytes)
  /-- It broke off. -/
  | crashed (message : Bytes)
  deriving DecidableEq, Repr

/-- What a subscriber does with a batch. -/
structure Reply where
  verdict : Verdict
  /-- Whether it unsubscribes. -/
  leaves : Bool
  deriving DecidableEq, Repr

/-- Who is told about changes. -/
inductive Subscriber where
  | nobody
  /-- The panel of the watch. -/
  | panel
  /-- A subscriber whose reply may depend on every batch it has received, the latest first. -/
  | tap (reply : List Batch → Reply)

/-- A log, a panel and a subscriber. -/
structure Watch where
  /-- Whether trace entries are written to the log. -/
  verbose : Bool
  subscriber : Subscriber
  panel : Panel
  /-- The batches that a tap has received, the latest first. -/
  received : List Batch
  /-- The entries of the log, the latest first. -/
  log : List LogEntry

namespace Watch

/-- A watch that has seen nothing and tells nobody. -/
def idle : Watch :=
  ⟨false, .nobody, .blank, [], []⟩

/-- Writes an entry to the log, unless it is a trace entry and the log is not verbose. -/
def note (watch : Watch) (entry : LogEntry) : Watch :=
  if entry.isTrace ∧ ¬ watch.verbose then watch else { watch with log := entry :: watch.log }

/-- Notes in the log that a subscriber did not accept a batch. -/
def noteVerdict (watch : Watch) : Verdict → Watch
  | .accepted => watch
  | .failed message => watch.note (.subscriberFailed message)
  | .crashed message => watch.note (.subscriberCrashed message)

/-- Hands a batch to the subscriber. -/
def announce (watch : Watch) (batch : Batch) : Watch :=
  match watch.subscriber with
  | .nobody => watch
  | .panel =>
    let (fault, panel) := watch.panel.update batch
    { watch with panel }.noteVerdict (fault.elim .accepted fun fault => .failed fault.message)
  | .tap reply =>
    let received := batch :: watch.received
    let answer := reply received
    let subscriber := if answer.leaves then .nobody else watch.subscriber
    { watch with received, subscriber }.noteVerdict answer.verdict

/-- Takes in one event. -/
def observe (watch : Watch) : Event → Watch
  | .log entry => watch.note entry
  | .changes batch => watch.announce batch

/-- Takes in events in order. -/
def observeAll (watch : Watch) (events : List Event) : Watch :=
  events.foldl observe watch

/-- Events are taken in one after the other, however they are grouped. -/
theorem observeAll_append (watch : Watch) (earlier later : List Event) :
    watch.observeAll (earlier ++ later) = (watch.observeAll earlier).observeAll later :=
  List.foldl_append

/-- The log as text, one line to an entry, the earliest first. -/
def logText (watch : Watch) : Bytes :=
  watch.log.reverse.flatMap fun entry => entry.text.asLine

end Watch

end StackMachine
