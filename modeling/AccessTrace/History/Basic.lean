import AccessTrace.Entry.Layout

/-!
# What the threads did

A history sorts the entries of one stream back by thread and checks on the way that every thread
registers before anything else: its first header is followed by the process, and by no process
ever after. An entry that breaks the order is counted and otherwise ignored.
-/

namespace AccessTrace

/-- What is known of a thread. -/
structure ThreadHistory where
  /-- The process of the thread, once it registered. -/
  pid : Option UInt32 := none
  /-- The headers of the thread, less the one of its registration. -/
  messages : Nat := 0
  /-- The events of the thread, in order. -/
  events : Array Entry := #[]
  deriving DecidableEq

/-- The number of events of a kind. -/
def ThreadHistory.count (t : ThreadHistory) (kind : Entry.Kind) : Nat :=
  t.events.toList.countP (·.kind = kind)

/-- Threads by identifier, in ascending order. -/
abbrev Threads := List (UInt64 × ThreadHistory)

namespace Threads

/-- What is known of thread `tid`. -/
def get? (ts : Threads) (tid : UInt64) : Option ThreadHistory := ts.lookup tid

/-- Notes a header of thread `tid`: a message of a known thread, or a new thread. -/
def enter (tid : UInt64) : Threads → Threads
  | [] => [(tid, {})]
  | (t, x) :: rest =>
    if t = tid then (t, { x with messages := x.messages + 1 }) :: rest
    else if tid < t then (tid, {}) :: (t, x) :: rest
    else (t, x) :: enter tid rest

/-- Changes what is known of thread `tid`. -/
def modify (tid : UInt64) (f : ThreadHistory → ThreadHistory) : Threads → Threads
  | [] => []
  | (t, x) :: rest => if t = tid then (t, f x) :: rest else (t, x) :: modify tid f rest

theorem get?_modify {ts : Threads} {tid t : UInt64} {f : ThreadHistory → ThreadHistory} :
    (modify tid f ts).get? t = if t = tid then (get? ts t).map f else get? ts t := by
  induction ts with
  | nil => simp [modify, get?]
  | cons head rest ih =>
    obtain ⟨u, x⟩ := head
    simp only [get?] at ih ⊢
    by_cases h : u = tid
    · by_cases ht : t = tid
      · simp [modify, h, ht]
      · have htu : (t == tid) = false := by simpa using ht
        simp [modify, h, ht, List.lookup_cons, htu]
    · by_cases htu : t = u
      · have : t ≠ tid := htu ▸ h
        simp [modify, h, htu]
      · have hb : (t == u) = false := by simpa using htu
        simp [modify, h, List.lookup_cons, hb, ih]

end Threads

/-- The threads of a stream as far as it was read. -/
structure History where
  threads : Threads := []
  /-- The thread of the last header. -/
  current : Option UInt64 := none
  /-- The entries read, those that were ignored included. -/
  entriesSeen : Nat := 0
  deriving DecidableEq

namespace History

/-- What is known of thread `tid`. -/
def thread? (h : History) (tid : UInt64) : Option ThreadHistory := h.threads.get? tid

/-- The process of thread `tid`. -/
def pid? (h : History) (tid : UInt64) : Option UInt32 := h.thread? tid >>= ThreadHistory.pid

/-- What is wrong with an entry where it stands, if anything is. -/
def fault? (h : History) (e : Entry) : Option StreamError :=
  match h.current with
  | none => if e.kind = .thread then none else some (.orphan h.entriesSeen)
  | some tid =>
    match h.pid? tid, e.kind with
    | none, .process => none
    | none, _ => some (.unregistered tid)
    | some _, .process => some (.reregistered tid)
    | some _, _ => none

/-- Changes what is known of the current thread. -/
def modifyCurrent (h : History) (f : ThreadHistory → ThreadHistory) : History :=
  match h.current with
  | none => h
  | some tid => { h with threads := h.threads.modify tid f }

/-- What an entry without fault does to the threads. -/
def apply (h : History) (e : Entry) : History :=
  match e.kind with
  | .thread => { h with threads := h.threads.enter e.addr, current := some e.addr }
  | .process => h.modifyCurrent fun t => { t with pid := some e.addr.toUInt32 }
  | .read | .write | .fetch => h.modifyCurrent fun t => { t with events := t.events.push e }

/-- Counts an entry. -/
def tick (h : History) : History := { h with entriesSeen := h.entriesSeen + 1 }

/-- Reads an entry. -/
def push (h : History) (e : Entry) : Except StreamError Unit × History :=
  match h.fault? e with
  | none => (.ok (), (h.apply e).tick)
  | some error => (.error error, h.tick)

/-- Reads entries, going on behind faults, and says what became of each. -/
def pushAll (h : History) : List Entry → List (Except StreamError Unit) × History
  | [] => ([], h)
  | e :: es =>
    match h.push e with
    | (answer, h) =>
      match pushAll h es with
      | (answers, h) => (answer :: answers, h)

end History

end AccessTrace
