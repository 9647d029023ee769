import AccessTrace.History.Basic
import AccessTrace.Json.Printer

/-!
# Summaries

What a consumer reports of a stream: how many entries it had and, thread by thread, how many of
each sort. The events themselves are part of it only on demand.
-/

namespace AccessTrace

/-- What is reported of a thread. -/
structure ThreadSummary where
  pid : Option UInt32
  messages : Nat
  reads : Nat
  writes : Nat
  fetches : Nat
  events : Option (List Entry)

/-- What is reported of a stream. -/
structure Summary where
  entries : Nat
  /-- The threads by identifier, in ascending order. -/
  threads : List (UInt64 × ThreadSummary)

/-- Reports on a thread. -/
def ThreadHistory.summary (t : ThreadHistory) (withEvents : Bool) : ThreadSummary :=
  { pid := t.pid
    messages := t.messages
    reads := t.count .read
    writes := t.count .write
    fetches := t.count .fetch
    events := if withEvents then some t.events.toList else none }

/-- Reports on a stream. -/
def History.summary (h : History) (withEvents : Bool) : Summary :=
  { entries := h.entriesSeen
    threads := h.threads.map fun (tid, t) => (tid, t.summary withEvents) }

/-- The name of a kind in a report. -/
def Entry.Kind.name : Entry.Kind → String
  | .read => "Read"
  | .write => "Write"
  | .fetch => "InstrFetch"
  | .thread => "Thread"
  | .process => "Pid"

/-- An entry in a report. -/
def Entry.toJson (e : Entry) : Json :=
  .object [("kind", .string e.kind.name), ("size", .ofNat e.size.toNat),
    ("opcode", .ofNat e.opcode.toNat), ("addr", .ofNat e.addr.toNat)]

/-- The report on a thread. -/
def ThreadSummary.toJson (t : ThreadSummary) : Json :=
  .object ([("pid", (t.pid.map fun pid => Json.ofNat pid.toNat).getD .null),
    ("messages", .ofNat t.messages), ("reads", .ofNat t.reads), ("writes", .ofNat t.writes),
    ("instr_fetches", .ofNat t.fetches)] ++
    (t.events.map fun events => ("events", Json.array (events.map Entry.toJson))).toList)

/-- The report on a stream. -/
def Summary.toJson (s : Summary) : Json :=
  .object [("entries", .ofNat s.entries),
    ("threads", .object (s.threads.map fun (tid, t) => (toString tid, t.toJson)))]

/-- The text of a report. -/
def Summary.text (s : Summary) : String := s.toJson.render 0

end AccessTrace
