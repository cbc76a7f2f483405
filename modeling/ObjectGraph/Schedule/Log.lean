import ObjectGraph.Schedule.Run

/-! # Logs

A log tells what a run did, record by record: a span for the whole generation, then its events. An
event that emits configuration has no record of its own.
-/
namespace ObjectGraph

inductive Level where
  | trace
  | debug
  | warn
  deriving DecidableEq

def Level.name : Level → String
  | trace => "TRACE"
  | debug => "DEBUG"
  | warn => "WARN"

/-- A line of a log: the name of a span or the message of an event, with named fields. -/
structure Record where
  isSpan : Bool
  title : String
  level : Level
  fields : List (String × String)
  deriving DecidableEq

/-- The record of an event in the generation of a document. -/
def Event.record? (document : Document) : Event → Option Record
  | declared x p =>
    some ⟨false, "declared", .trace,
      [("identifier", x.text), ("code", document.code p.statement)]⟩
  | configured _ _ => none
  | notReady .retain x _ =>
    some ⟨false, "declaration not ready, retained", .trace, [("identifier", x.text)]⟩
  | notReady .discard x _ =>
    some ⟨false, "declaration discarded before its dependencies were declared", .warn,
      [("identifier", x.text)]⟩
  | passEnded number resolved blocked =>
    some ⟨false, "declaration pass", .debug,
      [("pass", number.repr), ("resolved", resolved.repr), ("blocked", blocked.repr)]⟩
  | drained phase statements =>
    some ⟨false, "draining phase", .debug,
      [("phase", phase.name), ("count", statements.length.repr)]⟩
  | unscheduled count discarded =>
    some ⟨false, "statements left unscheduled", .debug,
      [("count", count.repr), ("discarded", discarded.repr)]⟩

namespace Document

def span (document : Document) : Record :=
  ⟨true, "generate", .debug,
    [("statements", document.statements.length.repr),
      ("references", document.references.length.repr)]⟩

def log (policy : Policy) (document : Document) : List Record :=
  document.span :: (document.run policy).events.filterMap (Event.record? document)

end Document

end ObjectGraph
