import Mathlib
import AccessTrace.Proofs.Records

/-!
# Replaying a log

A log is what the messages of a stream were meant to say. Its history knows of every thread that
registered the process, the number of payloads and their events in order (`Log.view`), whatever the
order in which the threads took turns; and it is accepted exactly if no thread registers twice
(`Orderly.read`).
-/

namespace AccessTrace

/-- A message of a thread. -/
inductive Message where
  | registration (tid : UInt64)
  | payload (tid : UInt64) (events : List Entry)

namespace Message

/-- The entries that a message carries. -/
def entries (pid : UInt32) : Message → List Entry
  | registration tid => [Entry.thread tid, Entry.process pid]
  | payload tid events => Entry.thread tid :: events

/-- The thread that a message registers. -/
def registers? : Message → Option UInt64
  | registration tid => some tid
  | payload _ _ => none

/-- The events that a message brings of a thread. -/
def eventsOf (tid : UInt64) : Message → List Entry
  | registration _ => []
  | payload t events => if t = tid then events else []

/-- Whether a message is a payload of a thread. -/
def isPayloadOf (tid : UInt64) : Message → Bool
  | registration _ => false
  | payload t _ => t = tid

end Message

/-- The messages of a stream, in order. -/
abbrev Log := List Message

namespace Log

/-- All entries of a log. -/
def entries (pid : UInt32) (log : Log) : List Entry := log.flatMap (Message.entries pid)

/-- The threads that register, once for each time. -/
def registrations (log : Log) : List UInt64 := log.filterMap Message.registers?

/-- The events of a thread, in order. -/
def events (tid : UInt64) (log : Log) : List Entry := log.flatMap (Message.eventsOf tid)

/-- The number of payloads of a thread. -/
def payloads (tid : UInt64) (log : Log) : Nat := log.countP (Message.isPayloadOf tid)

/-- What there is to know of a thread. -/
def view (pid : UInt32) (log : Log) (tid : UInt64) : Option ThreadHistory :=
  if tid ∈ log.registrations then
    some { pid := some pid, messages := log.payloads tid, events := (log.events tid).toArray }
  else none

@[simp] theorem entries_append (pid : UInt32) (log more : Log) :
    (log ++ more).entries pid = log.entries pid ++ more.entries pid := List.flatMap_append

@[simp] theorem registrations_append (log more : Log) :
    (log ++ more).registrations = log.registrations ++ more.registrations :=
  List.filterMap_append

@[simp] theorem events_append (tid : UInt64) (log more : Log) :
    (log ++ more).events tid = log.events tid ++ more.events tid := List.flatMap_append

@[simp] theorem payloads_append (tid : UInt64) (log more : Log) :
    (log ++ more).payloads tid = log.payloads tid + more.payloads tid := List.countP_append

/-- Nothing is sent before the thread registered, and nothing but events. -/
inductive Orderly : Log → Prop
  | nil : Orderly []
  | registration {log : Log} (tid : UInt64) : Orderly log → Orderly (log ++ [.registration tid])
  | payload {log : Log} {tid : UInt64} {events : List Entry} : Orderly log →
    tid ∈ log.registrations → (∀ e ∈ events, e.kind.isEvent = true) →
    Orderly (log ++ [.payload tid events])

end Log

namespace Threads

/-- The threads stand in ascending order. -/
def Ascending (ts : Threads) : Prop := ts.Pairwise fun a b => a.1 < b.1

/-- What is known of a thread after another of its headers. -/
def entered (known : Option ThreadHistory) : ThreadHistory :=
  match known with
  | none => {}
  | some x => { x with messages := x.messages + 1 }

theorem get?_cons (t u : UInt64) (x : ThreadHistory) (ts : Threads) :
    get? ((u, x) :: ts) t = if t = u then some x else get? ts t := by
  rw [get?, List.lookup_cons]
  by_cases same : t = u
  · rw [if_pos same, same, beq_self_eq_true]
  · rw [if_neg same, beq_false_of_ne same]
    rfl

theorem get?_eq_none {ts : Threads} {t : UInt64} (absent : ∀ p ∈ ts, p.1 ≠ t) :
    get? ts t = none := by
  induction ts with
  | nil => rfl
  | cons head rest ih =>
    obtain ⟨u, x⟩ := head
    rw [get?_cons, if_neg (absent (u, x) List.mem_cons_self).symm]
    exact ih fun p mem => absent p (List.mem_cons_of_mem _ mem)

theorem get?_enter {ts : Threads} (ascending : ts.Ascending) (tid t : UInt64) :
    get? (enter tid ts) t = if t = tid then some (entered (get? ts tid)) else get? ts t := by
  induction ts with
  | nil =>
    rw [enter, get?_cons]
    rfl
  | cons head rest ih =>
    obtain ⟨u, x⟩ := head
    rw [Ascending, List.pairwise_cons] at ascending
    rw [enter]
    by_cases same : u = tid
    · rw [if_pos same, get?_cons, get?_cons, get?_cons, same, if_pos rfl]
      by_cases here : t = tid
      · rw [if_pos here, if_pos here]
        rfl
      · rw [if_neg here, if_neg here, if_neg here]
    · rw [if_neg same]
      by_cases before : tid < u
      · -- A thread that belongs before all others is new.
        have absent : get? ((u, x) :: rest) tid = none := by
          apply get?_eq_none
          intro p mem
          rcases List.mem_cons.1 mem with rfl | later
          · exact same
          · exact (UInt64.ne_of_lt (UInt64.lt_trans before (ascending.1 p later))).symm
        rw [if_pos before, absent, get?_cons]
        rfl
      · rw [if_neg before, get?_cons t, get?_cons tid, get?_cons t, ih ascending.2,
          if_neg (Ne.symm same)]
        by_cases here : t = u
        · rw [if_pos here, if_pos here, if_neg (here ▸ same)]
        · rw [if_neg here, if_neg here]

theorem mem_enter {ts : Threads} {tid : UInt64} {p : UInt64 × ThreadHistory}
    (mem : p ∈ enter tid ts) : p.1 = tid ∨ ∃ q ∈ ts, q.1 = p.1 := by
  induction ts with
  | nil =>
    rw [enter, List.mem_singleton] at mem
    exact .inl (congrArg Prod.fst mem)
  | cons head rest ih =>
    obtain ⟨u, x⟩ := head
    unfold enter at mem
    split at mem
    · rcases List.mem_cons.1 mem with rfl | later
      · exact .inr ⟨(u, x), List.mem_cons_self, rfl⟩
      · exact .inr ⟨p, List.mem_cons_of_mem _ later, rfl⟩
    · split at mem
      · rcases List.mem_cons.1 mem with rfl | later
        · exact .inl rfl
        · exact .inr ⟨p, later, rfl⟩
      · rcases List.mem_cons.1 mem with rfl | later
        · exact .inr ⟨(u, x), List.mem_cons_self, rfl⟩
        · rcases ih later with new | ⟨q, old, same⟩
          · exact .inl new
          · exact .inr ⟨q, List.mem_cons_of_mem _ old, same⟩

theorem ascending_enter {ts : Threads} (ascending : ts.Ascending) (tid : UInt64) :
    (enter tid ts).Ascending := by
  induction ts with
  | nil => exact List.pairwise_singleton _ _
  | cons head rest ih =>
    obtain ⟨u, x⟩ := head
    have all := List.pairwise_cons.1 ascending
    unfold enter
    split
    · exact List.pairwise_cons.2 all
    · rename_i other
      split
      · rename_i before
        refine List.pairwise_cons.2 ⟨fun p mem => ?_, ascending⟩
        rcases List.mem_cons.1 mem with rfl | later
        · exact before
        · exact UInt64.lt_trans before (all.1 p later)
      · rename_i behind
        refine List.pairwise_cons.2 ⟨fun p mem => ?_, ih all.2⟩
        rcases mem_enter mem with new | ⟨q, old, same⟩
        · rw [new]
          exact UInt64.lt_of_le_of_ne (UInt64.not_lt.1 behind) other
        · rw [← same]
          exact all.1 q old

theorem map_fst_modify (tid : UInt64) (f : ThreadHistory → ThreadHistory) (ts : Threads) :
    (modify tid f ts).map Prod.fst = ts.map Prod.fst := by
  induction ts with
  | nil => rfl
  | cons head rest ih =>
    obtain ⟨u, x⟩ := head
    unfold modify
    split
    · rfl
    · rw [List.map_cons, ih, List.map_cons]

theorem ascending_modify {ts : Threads} (ascending : ts.Ascending) (tid : UInt64)
    (f : ThreadHistory → ThreadHistory) : (modify tid f ts).Ascending := by
  have keys := List.pairwise_map.2 ascending
  rw [← map_fst_modify tid f] at keys
  exact List.pairwise_map.1 keys

end Threads

namespace History

/-- Where a history stands: the thread of the last header, and what is known of each thread. -/
structure Stands (h : History) (current : Option UInt64)
    (view : UInt64 → Option ThreadHistory) : Prop where
  ascending : h.threads.Ascending
  current : h.current = current
  threads : ∀ t, h.thread? t = view t

/-- Where a history stands once more is known of one thread. -/
def learned (view : UInt64 → Option ThreadHistory) (tid : UInt64) (x : ThreadHistory)
    (t : UInt64) : Option ThreadHistory :=
  if t = tid then some x else view t

variable {h : History} {current : Option UInt64} {tid : UInt64}
  {view : UInt64 → Option ThreadHistory} {x : ThreadHistory}

theorem Stands.push_thread (stands : Stands h current view)
    (known : ∀ t ∈ current, ∃ x pid, view t = some x ∧ x.pid = some pid) (tid : UInt64) :
    ∃ h', h.push (Entry.thread tid) = (.ok (), h') ∧
      Stands h' (some tid) (learned view tid (Threads.entered (view tid))) := by
  have sound : h.fault? (Entry.thread tid) = none := by
    rw [fault?, stands.current]
    cases current with
    | none => rfl
    | some t =>
      obtain ⟨x, pid, here, registered⟩ := known t rfl
      simp only [pid?, stands.threads, here, Option.bind_eq_bind, Option.bind_some, registered]
      rfl
  refine ⟨((h.apply (Entry.thread tid)).tick), by rw [push, sound], ?_, rfl, fun t => ?_⟩
  · exact Threads.ascending_enter stands.ascending tid
  · change (h.threads.enter tid).get? t = _
    rw [Threads.get?_enter stands.ascending, learned]
    congr 1
    · rw [← stands.threads tid]; rfl
    · exact stands.threads t

theorem Stands.modified (stands : Stands h (some tid) view) (here : view tid = some x)
    (f : ThreadHistory → ThreadHistory) :
    Stands (h.modifyCurrent f).tick (some tid) (learned view tid (f x)) := by
  have modified : h.modifyCurrent f = { h with threads := h.threads.modify tid f } := by
    rw [modifyCurrent, stands.current]
  rw [modified]
  refine ⟨Threads.ascending_modify stands.ascending tid f, stands.current, fun t => ?_⟩
  change (h.threads.modify tid f).get? t = _
  rw [Threads.get?_modify, learned]
  by_cases same : t = tid
  · rw [if_pos same, if_pos same, same]
    change (h.thread? tid).map f = _
    rw [stands.threads, here]
    rfl
  · rw [if_neg same, if_neg same]
    exact stands.threads t

theorem Stands.push_process (stands : Stands h (some tid) view) (here : view tid = some x)
    (unregistered : x.pid = none) (pid : UInt32) :
    ∃ h', h.push (Entry.process pid) = (.ok (), h') ∧
      Stands h' (some tid) (learned view tid { x with pid := some pid }) := by
  have sound : h.fault? (Entry.process pid) = none := by
    rw [fault?, stands.current]
    simp only [pid?, stands.threads, here, Option.bind_eq_bind, Option.bind_some, unregistered]
    rfl
  refine ⟨_, by rw [push, sound], ?_⟩
  change Stands (h.modifyCurrent fun t => { t with pid := some pid.toUInt64.toUInt32 }).tick _ _
  rw [UInt32.toUInt32_toUInt64]
  exact stands.modified here fun t => { t with pid := some pid }

theorem Stands.push_process_again (stands : Stands h (some tid) view) (here : view tid = some x)
    {known : UInt32} (registered : x.pid = some known) (pid : UInt32) :
    (h.push (Entry.process pid)).1 = .error (.reregistered tid) := by
  have fault : h.fault? (Entry.process pid) = some (.reregistered tid) := by
    rw [fault?, stands.current]
    simp only [pid?, stands.threads, here, Option.bind_eq_bind, Option.bind_some, registered]
    rfl
  rw [push, fault]

theorem Stands.push_event (stands : Stands h (some tid) view) (here : view tid = some x)
    {pid : UInt32} (registered : x.pid = some pid) {e : Entry} (event : e.kind.isEvent = true) :
    ∃ h', h.push e = (.ok (), h') ∧
      Stands h' (some tid) (learned view tid { x with events := x.events.push e }) := by
  obtain ⟨kind, size, opcode, addr⟩ := e
  have sound : h.fault? { kind, size, opcode, addr } = none := by
    rw [fault?, stands.current]
    simp only [pid?, stands.threads, here, Option.bind_eq_bind, Option.bind_some, registered]
    cases kind <;> first | rfl | cases event
  refine ⟨_, by rw [push, sound], ?_⟩
  have same := stands.modified here fun t =>
    { t with events := t.events.push { kind, size, opcode, addr } }
  cases kind <;> first | exact same | cases event

theorem learned_self (here : view tid = some x) : learned view tid x = view := by
  funext t
  rw [learned]
  by_cases same : t = tid
  · rw [if_pos same, same, here]
  · rw [if_neg same]

theorem learned_same (view : UInt64 → Option ThreadHistory) (tid : UInt64) (x : ThreadHistory) :
    learned view tid x tid = some x := if_pos rfl

theorem learned_learned (view : UInt64 → Option ThreadHistory) (tid : UInt64)
    (x y : ThreadHistory) : learned (learned view tid x) tid y = learned view tid y := by
  funext t
  rw [learned, learned, learned]
  by_cases same : t = tid
  · rw [if_pos same, if_pos same]
  · rw [if_neg same, if_neg same, if_neg same]

theorem Stands.readAll_events (stands : Stands h (some tid) view) (here : view tid = some x)
    {pid : UInt32} (registered : x.pid = some pid) {es : List Entry}
    (events : ∀ e ∈ es, e.kind.isEvent = true) :
    ∃ h', h.readAll es = .ok h' ∧
      Stands h' (some tid) (learned view tid { x with events := x.events ++ es.toArray }) := by
  induction es generalizing h view x with
  | nil =>
    refine ⟨h, rfl, ?_⟩
    rw [Array.append_empty, learned_self here]
    exact stands
  | cons e es ih =>
    obtain ⟨h₁, pushed, stands₁⟩ := stands.push_event here registered (events e List.mem_cons_self)
    obtain ⟨h', read, stands'⟩ := ih stands₁ (learned_same _ _ _) registered
      fun e' mem => events e' (List.mem_cons_of_mem _ mem)
    refine ⟨h', by rw [readAll, pushed]; exact read, ?_⟩
    rw [learned_learned] at stands'
    rw [List.toArray_cons, ← Array.append_assoc]
    exact stands'

/-- The thread of the last header, if there was one, has registered. -/
def Registered (current : Option UInt64) (view : UInt64 → Option ThreadHistory) : Prop :=
  ∀ t ∈ current, ∃ x pid, view t = some x ∧ x.pid = some pid

theorem registered_learned (view : UInt64 → Option ThreadHistory) (tid : UInt64) {pid : UInt32}
    (registered : x.pid = some pid) : Registered (some tid) (learned view tid x) := by
  intro t mem
  obtain rfl : tid = t := by simpa using mem
  exact ⟨x, pid, learned_same _ _ _, registered⟩

theorem Stands.registration (stands : Stands h current view) (known : Registered current view)
    (new : view tid = none) (pid : UInt32) :
    ∃ h', h.readAll ((Message.registration tid).entries pid) = .ok h' ∧
      Stands h' (some tid) (learned view tid { pid := some pid }) := by
  obtain ⟨h₁, pushed, stands₁⟩ := stands.push_thread known tid
  rw [new] at stands₁
  obtain ⟨h₂, pushed', stands₂⟩ := stands₁.push_process (learned_same _ _ _) rfl pid
  rw [learned_learned] at stands₂
  refine ⟨h₂, ?_, stands₂⟩
  rw [Message.entries, readAll, pushed]
  simp only [readAll, pushed']

/-- A thread cannot register twice. -/
theorem Stands.registration_again (stands : Stands h current view)
    (known : Registered current view) (here : view tid = some x) {before : UInt32}
    (registered : x.pid = some before) (pid : UInt32) :
    h.readAll ((Message.registration tid).entries pid) = .error (.reregistered tid) := by
  obtain ⟨h₁, pushed, stands₁⟩ := stands.push_thread known tid
  have refused := stands₁.push_process_again (learned_same _ _ _)
    (show (Threads.entered (view tid)).pid = some before by rw [here]; exact registered) pid
  rcases second : h₁.push (Entry.process pid) with ⟨answer, h₂⟩
  rw [second] at refused
  obtain rfl : answer = .error (.reregistered tid) := refused
  rw [Message.entries, readAll, pushed]
  simp only [readAll, second]

theorem Stands.payload (stands : Stands h current view) (known : Registered current view)
    (here : view tid = some x) {pid : UInt32} (registered : x.pid = some pid) {es : List Entry}
    (events : ∀ e ∈ es, e.kind.isEvent = true) :
    ∃ h', h.readAll ((Message.payload tid es).entries pid) = .ok h' ∧
      Stands h' (some tid) (learned view tid
        { x with messages := x.messages + 1, events := x.events ++ es.toArray }) := by
  obtain ⟨h₁, pushed, stands₁⟩ := stands.push_thread known tid
  rw [here] at stands₁
  obtain ⟨h', read, stands'⟩ := stands₁.readAll_events (learned_same _ _ _) registered events
  rw [learned_learned] at stands'
  refine ⟨h', ?_, stands'⟩
  rw [Message.entries, readAll, pushed]
  exact read

end History

namespace Log

variable {log : Log} {tid : UInt64} {pid : UInt32}

/-- A thread that has not registered has sent nothing. -/
theorem Orderly.silent (orderly : Orderly log) (unregistered : tid ∉ log.registrations) :
    log.payloads tid = 0 ∧ log.events tid = [] := by
  induction orderly with
  | nil => exact ⟨rfl, rfl⟩
  | registration t _ ih =>
    rw [registrations_append, List.mem_append, not_or] at unregistered
    obtain ⟨payloads, events⟩ := ih unregistered.1
    rw [payloads_append, events_append, payloads, events]
    exact ⟨rfl, rfl⟩
  | @payload log t es _ known _ ih =>
    rw [registrations_append, List.mem_append, not_or] at unregistered
    obtain ⟨payloads, events⟩ := ih unregistered.1
    have other : t ≠ tid := by
      rintro rfl
      exact unregistered.1 known
    rw [payloads_append, events_append, payloads, events]
    constructor
    · simp [Log.payloads, Message.isPayloadOf, other]
    · simp [Log.events, Message.eventsOf, other]

theorem view_registration (orderly : Orderly log) (new : tid ∉ log.registrations) :
    Log.view pid (log ++ [.registration tid]) =
      History.learned (log.view pid) tid { pid := some pid } := by
  funext t
  rw [History.learned, view, registrations_append, payloads_append, events_append]
  by_cases same : t = tid
  · obtain ⟨payloads, events⟩ := orderly.silent new
    rw [if_pos same, same, payloads, events]
    exact if_pos (List.mem_append_right _ List.mem_cons_self)
  · rw [if_neg same, view]
    have unchanged : t ∈ log.registrations ++ registrations [.registration tid] ↔
        t ∈ log.registrations := by
      simp [registrations, Message.registers?, same]
    simp only [unchanged]
    congr 1
    simp [Log.payloads, Log.events, Message.isPayloadOf, Message.eventsOf]

theorem view_payload (known : tid ∈ log.registrations) (es : List Entry) :
    Log.view pid (log ++ [.payload tid es]) = History.learned (log.view pid) tid
      { pid := some pid, messages := log.payloads tid + 1
        events := (log.events tid).toArray ++ es.toArray } := by
  funext t
  rw [History.learned, view, registrations_append, payloads_append, events_append]
  have unchanged : log.registrations ++ registrations [.payload tid es] = log.registrations :=
    List.append_nil _
  rw [unchanged]
  by_cases same : t = tid
  · rw [if_pos same, same, if_pos known]
    simp [Log.payloads, Log.events, Message.isPayloadOf, Message.eventsOf]
  · rw [if_neg same, view]
    congr 1
    simp [Log.payloads, Log.events, Message.isPayloadOf, Message.eventsOf, Ne.symm same]

/-- How reading a log ends: it is accepted exactly if no thread registers twice, and its history is
what there is to know of each thread then. -/
structure Read (pid : UInt32) (log : Log) : Prop where
  accepted : log.registrations.Nodup → ∃ h current, History.readAll {} (log.entries pid) = .ok h ∧
    History.Stands h current (log.view pid) ∧ History.Registered current (log.view pid)
  refused : ¬ log.registrations.Nodup →
    ∃ tid, History.readAll {} (log.entries pid) = .error (.reregistered tid)

/-- One more message is read behind what was read before. -/
theorem readAll_snoc (pid : UInt32) (log : Log) (m : Message) :
    History.readAll {} (Log.entries pid (log ++ [m])) =
      match History.readAll {} (log.entries pid) with
      | .ok h => h.readAll (m.entries pid)
      | .error error => .error error := by
  have one : Log.entries pid [m] = m.entries pid := List.append_nil _
  rw [entries_append, one]
  exact History.readAll_append _ _ _

theorem read_nil (pid : UInt32) : Read pid [] where
  accepted := by
    intro _
    refine ⟨{}, none, rfl, ⟨List.Pairwise.nil, rfl, fun _ => rfl⟩, ?_⟩
    intro t mem
    cases mem
  refused := fun twice => absurd List.nodup_nil twice

theorem Read.registration (read : Read pid log) (orderly : Orderly log) (tid : UInt64) :
    Read pid (log ++ [.registration tid]) := by
  have registrations : Log.registrations (log ++ [.registration tid]) =
      log.registrations ++ [tid] := registrations_append _ _
  have nodup : (log.registrations ++ [tid]).Nodup ↔
      tid ∉ log.registrations ∧ log.registrations.Nodup := by
    rw [List.nodup_append_comm]
    exact List.nodup_cons
  constructor
  · intro all
    rw [registrations, nodup] at all
    obtain ⟨new, once⟩ := all
    obtain ⟨h, current, ok, stands, known⟩ := read.accepted once
    obtain ⟨h', ok', stands'⟩ := stands.registration known (if_neg new) pid
    rw [readAll_snoc, ok, view_registration orderly new]
    exact ⟨h', _, ok', stands', History.registered_learned _ _ rfl⟩
  · intro twice
    rw [registrations, nodup] at twice
    rw [readAll_snoc]
    by_cases once : log.registrations.Nodup
    · obtain ⟨h, current, ok, stands, known⟩ := read.accepted once
      have again : tid ∈ log.registrations := by
        by_contra new
        exact twice ⟨new, once⟩
      have here : log.view pid tid = some _ := if_pos again
      rw [ok]
      exact ⟨tid, stands.registration_again known here rfl pid⟩
    · obtain ⟨t, error⟩ := read.refused once
      rw [error]
      exact ⟨t, rfl⟩

theorem Read.payload (read : Read pid log) (registered : tid ∈ log.registrations)
    {es : List Entry} (events : ∀ e ∈ es, e.kind.isEvent = true) :
    Read pid (log ++ [.payload tid es]) := by
  have registrations : Log.registrations (log ++ [.payload tid es]) = log.registrations :=
    (registrations_append _ _).trans (List.append_nil _)
  constructor
  · intro once
    rw [registrations] at once
    obtain ⟨h, current, ok, stands, known⟩ := read.accepted once
    have here : log.view pid tid = some _ := if_pos registered
    obtain ⟨h', ok', stands'⟩ := stands.payload known here rfl events
    rw [readAll_snoc, ok, view_payload registered es]
    exact ⟨h', _, ok', stands', History.registered_learned _ _ rfl⟩
  · intro twice
    rw [registrations] at twice
    obtain ⟨t, error⟩ := read.refused twice
    rw [readAll_snoc, error]
    exact ⟨t, rfl⟩

theorem Orderly.read (orderly : Orderly log) (pid : UInt32) : Read pid log := by
  induction orderly with
  | nil => exact read_nil pid
  | registration tid orderly ih => exact ih.registration orderly tid
  | payload _ registered events ih => exact ih.payload registered events

end Log

end AccessTrace
