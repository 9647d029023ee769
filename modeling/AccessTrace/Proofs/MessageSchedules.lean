import Mathlib
import AccessTrace.Proofs.Pauses
import AccessTrace.Proofs.Schedules
import AccessTrace.Proofs.Shares

/-!
# Schedules of messages

Also where every message is scheduled by itself, and threads pause between theirs, each thread gets
the same results, sends the same messages in the same order and ends with the same machine, and the
total is the same (`Scheduled.agree`). For a schedule of messages leaves behind what a schedule of
actions does (`Scheduled.actions`), in which what is sent from the buffers of a thread is what the
thread sends (`Schedule.toldBy_eq`). Schedules of actions are schedules of messages in which nobody
pauses (`Scheduled.of_schedule`).
-/

namespace AccessTrace

namespace Shutdown

variable {x₀ x : Shutdown} {limit : Option Nat} {pid : UInt32} {capacity : Nat}
  {events : List Event}

/-- A buffer is that of a thread that was started under its name. -/
theorem Runs.tids (runs : Runs { session := .begun limit pid capacity } events x)
    (unmade : ∀ e ∈ events, ∀ tid capacity, e.action ≠ .allocate tid capacity)
    {P : String → UInt64 → Prop}
    (starts : ∀ e ∈ events, ∀ tid, e.action = .start tid → P e.name tid) :
    (∀ name b, x.session.buffers.get? name = some b → P name b.tid) ∧
      ∀ e ∈ events, ∀ b, e.buffer? = some b → P e.name b.tid := by
  induction runs with
  | nil =>
    refine ⟨fun name b here => ?_, fun e mem => absurd mem List.not_mem_nil⟩
    cases here
  | @act events x name machineName action runs ih =>
    obtain ⟨held, earlier⟩ := ih (fun e mem => unmade e (List.mem_append_left _ mem))
      fun e mem => starts e (List.mem_append_left _ mem)
    have last : x.session.event name machineName action ∈
        events ++ [x.session.event name machineName action] :=
      List.mem_append_right _ List.mem_cons_self
    have handled := Session.handled_act (runs.descends List.nodup_nil).1.distinct name machineName
      action
    refine ⟨fun other b here => ?_, fun e mem => ?_⟩
    · by_cases same : other = name
      · subst same
        rcases handled.custody.tid (unmade _ last) here with started | ⟨c, before, same⟩
        · exact starts _ last _ (Event.action_of_started started)
        · rw [← same]
          exact held other c before
      · exact held other b ((handled.elsewhere.buffers other same).symm.trans here)
    · rcases List.mem_append.1 mem with old | new
      · exact earlier e old
      · rw [List.mem_singleton.1 new]
        exact held name
  | begin _ ih => exact ih unmade starts
  | wait _ _ _ _ _ ih => exact ih unmade starts
  | close _ _ _ _ _ ih => exact ih unmade starts

/-- Where no exit has begun in the end, none had before. -/
theorem Runs.unexited (runs : Runs x₀ events x) (distinct : x₀.session.buffers.Distinct)
    (none : x.session.exits = #[]) : ∀ e ∈ events, e.before.exits = #[] := by
  induction runs with
  | nil => exact fun e mem => absurd mem List.not_mem_nil
  | @act events x name machineName action runs ih =>
    have handled := Session.handled_act (runs.descends distinct).1.distinct name machineName action
    have before : x.session.exits = #[] := handled.elsewhere.exits.symm.trans none
    intro e mem
    rcases List.mem_append.1 mem with old | new
    · exact ih before e old
    · rw [List.mem_singleton.1 new]
      exact before
  | begin _ _ => exact absurd none Array.push_ne_empty
  | wait _ _ _ _ _ ih => exact ih none
  | close _ _ _ _ _ ih => exact ih (exits_of_close none)

/-- If every thread was started before an exit was begun, there was a moment when all had been
started and no exit had begun. -/
theorem Runs.parted (runs : Runs x₀ events x) (distinct : x₀.session.buffers.Distinct)
    (unexited : x₀.session.exits = #[])
    (early : ∀ e ∈ events, e.action.starts? ≠ none → e.before.exits = #[]) :
    ∃ front x₁ back, events = front ++ back ∧ Runs x₀ front x₁ ∧ x₁.session.exits = #[] ∧
      Runs x₁ back x ∧ ∀ e ∈ back, e.action.starts? = none := by
  induction runs with
  | nil => exact ⟨[], x₀, [], rfl, .nil, unexited, .nil, fun e mem => absurd mem List.not_mem_nil⟩
  | @act events x name machineName action runs ih =>
    obtain ⟨front, x₁, back, rfl, before, empty, after, unstarted⟩ :=
      ih fun e mem => early e (List.mem_append_left _ mem)
    by_cases starts : action.starts? = none
    · refine ⟨front, x₁, _, List.append_assoc _ _ _, before, empty,
        after.act name machineName action, fun e mem => ?_⟩
      rcases List.mem_append.1 mem with old | new
      · exact unstarted e old
      · rw [List.mem_singleton.1 new]
        exact starts
    · have handled := Session.handled_act (runs.descends distinct).1.distinct name machineName
        action
      refine ⟨_, _, [], (List.append_nil _).symm, runs.act name machineName action, ?_, .nil,
        fun e mem => absurd mem List.not_mem_nil⟩
      exact handled.elsewhere.exits.trans
        (early _ (List.mem_append_right _ List.mem_cons_self) starts)
  | begin _ ih =>
    obtain ⟨front, x₁, back, parts, before, empty, after, unstarted⟩ := ih early
    exact ⟨front, x₁, back, parts, before, empty, after.begin, unstarted⟩
  | wait i waiting unread idle _ ih =>
    obtain ⟨front, x₁, back, parts, before, empty, after, unstarted⟩ := ih early
    exact ⟨front, x₁, back, parts, before, empty, after.wait i waiting unread idle, unstarted⟩
  | close i total waiting read _ ih =>
    obtain ⟨front, x₁, back, parts, before, empty, after, unstarted⟩ := ih early
    exact ⟨front, x₁, back, parts, before, empty, after.close i total waiting read, unstarted⟩

end Shutdown

theorem Action.Own.threaded {action : Action} (own : action.Own) : action.Threaded := by
  cases action with
  | allocate | send | close | channel | flushAs => exact own.elim
  | _ => trivial

/-- Choices that differ only in elements that tell nothing tell the same. -/
theorem flatMap_filter_congr {α β : Type} {p q : α → Bool} {f : α → List β} {l : List α}
    (same : ∀ a ∈ l, f a ≠ [] → p a = q a) : (l.filter p).flatMap f = (l.filter q).flatMap f := by
  induction l with
  | nil => rfl
  | cons a l ih =>
    have rest := ih fun a mem => same a (List.mem_cons_of_mem _ mem)
    by_cases silent : f a = []
    · rw [List.filter_cons, List.filter_cons]
      split <;> split <;> simp [silent, rest]
    · rw [List.filter_cons, List.filter_cons, same a List.mem_cons_self silent]
      split
      · rw [List.flatMap_cons, List.flatMap_cons, rest]
      · exact rest

namespace Schedule

variable {pid : UInt32} {capacity : Nat} {routines : List Routine} {events : List Event}
  {x : Shutdown} (schedule : Schedule pid capacity routines events x) (family : Family routines)
include schedule family

/-- The buffer of an event is that of the thread of its name. -/
theorem owner {e : Event} (mem : e ∈ events) {b : Buffer} (here : e.buffer? = some b) :
    ∃ r ∈ routines, r.name = e.name ∧ r.tid = b.tid := by
  refine (schedule.runs.tids (P := fun name tid => ∃ r ∈ routines, r.name = name ∧ r.tid = tid)
    (fun e mem tid capacity allocate => ?_) fun e mem tid start => ?_).2 e mem b here
  · have counted := (schedule.owned family mem).counted
    rw [allocate] at counted
    exact counted
  · obtain ⟨-, r, known, name⟩ := schedule.own e mem
    refine ⟨r, known, name, ?_⟩
    have started : tid ∈ (r.part events).filterMap (·.action.starts?) :=
      List.mem_filterMap.2 ⟨e, List.mem_filter.2 ⟨mem, decide_eq_true name.symm⟩, by
        rw [start]
        rfl⟩
    rw [Routine.starts_part (schedule.performs r known) (family.works r known)] at started
    exact (List.mem_singleton.1 started).symm

/-- What was sent from the buffers of a thread is what the thread sent. -/
theorem toldBy_eq {r : Routine} (known : r ∈ routines) :
    toldBy events r.tid = (r.part events).flatMap Event.sent := by
  refine flatMap_filter_congr fun e mem speaks => ?_
  cases here : e.buffer? with
  | none =>
    have acted := ((schedule.runs.descends List.nodup_nil).2 e mem).acted
    exact absurd (Event.sent_of_vacant acted (schedule.owned family mem).counted here).1 speaks
  | some b =>
    obtain ⟨s, known', name, tid⟩ := schedule.owner family mem here
    rw [Event.isOf, here, Option.any_some, ← tid, ← name, decide_eq_decide]
    constructor
    · intro same
      rw [List.inj_on_of_nodup_map family.tids known' known same]
    · intro same
      rw [List.inj_on_of_nodup_map family.names known' known same]

/-- Nothing was sent for anybody else. -/
theorem toldBy_stranger {tid : UInt64} (stranger : ∀ r ∈ routines, r.tid ≠ tid) :
    toldBy events tid = [] := by
  refine List.flatMap_eq_nil_iff.2 fun e mem => ?_
  obtain ⟨mem, own⟩ := List.mem_filter.1 mem
  obtain ⟨b, here, same⟩ := (Option.any_eq_true _ _).1 own
  obtain ⟨r, known, -, tid⟩ := schedule.owner family mem here
  exact absurd (tid.trans (of_decide_eq_true same)) (stranger r known)

end Schedule

/-- What is the same for every key is the same in all, but for the order. -/
theorem perm_of_shares {κ α : Type} [DecidableEq κ] [DecidableEq α] {l l' : List (κ × α)}
    (same : ∀ k, (l.filter (·.1 = k)).map Prod.snd = (l'.filter (·.1 = k)).map Prod.snd) :
    l.Perm l' := by
  have count : ∀ (l : List (κ × α)) k a,
      l.count (k, a) = ((l.filter (·.1 = k)).map Prod.snd).count a := by
    intro l k a
    rw [List.count, List.count, List.countP_map, List.countP_filter]
    refine List.countP_congr fun q _ => ?_
    simp [Prod.ext_iff, and_comm]
  refine List.perm_iff_count.2 fun q => ?_
  rw [count, count, same]

namespace Split

/-- These threads have done all they had to, message by message in this order, over a recorder that
takes everything, and had started when the first exit was begun. -/
structure Scheduled (pid : UInt32) (capacity : Nat) (routines : List Routine)
    (answers : List Answered) (y : Split) : Prop where
  own : ∀ a ∈ answers, ∃ r ∈ routines, r.name = a.name
  performs : ∀ r ∈ routines, (answersOf r.name answers).map (·.action) =
    Action.follow r.actions ((answersOf r.name answers).map (·.outcome.failed))
  ended : ∀ name, y.underway name = none
  early : ∃ front y₁ back, answers = front ++ back ∧ Runs (begun none pid capacity) front y₁ ∧
    y₁.session.exits = #[] ∧ Runs y₁ back y ∧ ∀ a ∈ back, a.action.starts? = none

/-- What two schedules of the messages of the same threads have in common. -/
structure Agree (routines : List Routine) (answers : List Answered) (y : Split)
    (answers' : List Answered) (y' : Split) : Prop where
  /-- Every thread does the same, with the same results. -/
  results : ∀ r ∈ routines, (answersOf r.name answers).map (fun a => (a.action, a.outcome)) =
    (answersOf r.name answers').map fun a => (a.action, a.outcome)
  machines : ∀ r ∈ routines, y.session.machine r.name = y'.session.machine r.name
  /-- No exit has to wait any more. -/
  idle : y.session.tracer.roster.live = [] ∧ y'.session.tracer.roster.live = []
  total : y.session.tracer.roster.total = y'.session.tracer.roster.total
  /-- Exits that are over have returned the same. -/
  returned : ∀ i j n m : Nat, y.session.exits[i]? = some (some n) →
    y'.session.exits[j]? = some (some m) → n = m
  /-- Every thread has sent the same messages in the same order. -/
  said : ∀ tid, y.said tid = y'.said tid
  /-- Nothing else is on the channel than what the threads have sent, in some order. -/
  messages : y.session.tracer.channel.messages.toList = y.log.map Prod.snd ∧
    y'.session.tracer.channel.messages.toList = y'.log.map Prod.snd
  shuffled : y.session.tracer.channel.messages.toList.Perm
    y'.session.tracer.channel.messages.toList

namespace Scheduled

variable {pid : UInt32} {capacity : Nat} {routines : List Routine}
  {answers answers' : List Answered} {y y' : Split}

/-- Threads whose messages are scheduled do what they do in a schedule of their actions. -/
theorem actions (scheduled : Scheduled pid capacity routines answers y) : ∃ events x,
    Schedule pid capacity routines events x ∧ Mirrored answers y events x := by
  obtain ⟨front, y₁, back, rfl, before, unexited, after, unstarted⟩ := scheduled.early
  obtain ⟨early, x₁, coarse, mirrored₁⟩ := before.mirrored
  obtain ⟨late, x, -, all, mirrored⟩ := after.mirroredFrom coarse mirrored₁
  have answered := mirrored.answers
  rw [List.map_append, mirrored₁.answers, List.append_cancel_left_eq] at answered
  rw [mirrored₁.exits] at unexited
  refine ⟨early ++ late, x, ⟨all, fun e mem => ⟨(mirrored.threaded e mem).2, ?_⟩,
    fun r known => ?_, fun e mem starts => ?_⟩, mirrored⟩
  · refine scheduled.own e.answered ?_
    rw [← mirrored.answers]
    exact List.mem_map_of_mem mem
  · have performs := scheduled.performs r known
    rw [← mirrored.answers, answersOf_map, List.map_map, List.map_map] at performs
    exact performs
  · rcases List.mem_append.1 mem with old | new
    · exact coarse.unexited List.nodup_nil unexited e old
    · refine absurd (unstarted e.answered ?_) starts
      rw [← answered]
      exact List.mem_map_of_mem new

/-- A schedule of actions is a schedule of messages in which nobody pauses. -/
theorem of_schedule {events : List Event} {x : Shutdown}
    (schedule : Schedule pid capacity routines events x) (family : Family routines) :
    ∃ y, Scheduled pid capacity routines (events.map Event.answered) y ∧ y.toShutdown = x := by
  have threaded : ∀ e ∈ events, e.action.Threaded ∧ e.machine = e.name := fun e mem =>
    ⟨(schedule.owned family mem).threaded, (schedule.own e mem).1⟩
  obtain ⟨front, x₁, back, rfl, before, unexited, after, unstarted⟩ :=
    schedule.runs.parted List.nodup_nil rfl schedule.early
  obtain ⟨y₁, runs₁, rfl, free⟩ := (@Runs.nil (begun none pid capacity)).unpaused before
    (fun e mem => threaded e (List.mem_append_left _ mem)) fun _ _ => rfl
  obtain ⟨y, runs, rfl, same⟩ := (@Runs.nil y₁).unpaused after
    (fun e mem => threaded e (List.mem_append_right _ mem)) fun e _ => free e.name
  refine ⟨y, ⟨fun a mem => ?_, fun r known => ?_, fun name => (same name).trans (free name), _, y₁,
    _, List.map_append, runs₁, unexited, runs, fun a mem => ?_⟩, rfl⟩
  · obtain ⟨e, among, rfl⟩ := List.mem_map.1 mem
    exact (schedule.own e among).2
  · rw [answersOf_map, List.map_map, List.map_map]
    exact schedule.performs r known
  · obtain ⟨e, among, rfl⟩ := List.mem_map.1 mem
    exact unstarted e among

/-- What was recorded of a thread of a schedule. -/
theorem said_eq (scheduled : Scheduled pid capacity routines answers y) {events : List Event}
    {x : Shutdown} (mirrored : Mirrored answers y events x) (tid : UInt64) :
    y.said tid = toldBy events tid := by
  refine mirrored.tells.others tid fun name u busy => ?_
  cases (scheduled.ended name).symm.trans busy

/-- Whatever order the messages of threads are scheduled in, each thread gets the same results,
sends the same messages in the same order and ends with the same machine, and the total is the
same. -/
theorem agree (scheduled : Scheduled pid capacity routines answers y)
    (scheduled' : Scheduled pid capacity routines answers' y') (family : Family routines) :
    Agree routines answers y answers' y' := by
  obtain ⟨events, x, schedule, mirrored⟩ := scheduled.actions
  obtain ⟨events', x', schedule', mirrored'⟩ := scheduled'.actions
  have said : ∀ tid, y.said tid = y'.said tid := by
    intro tid
    rw [scheduled.said_eq mirrored, scheduled'.said_eq mirrored']
    by_cases known : ∃ r ∈ routines, r.tid = tid
    · obtain ⟨r, known, rfl⟩ := known
      rw [schedule.toldBy_eq family known, schedule'.toldBy_eq family known, List.flatMap_def,
        List.flatMap_def, map_eq_of_alike _ (fun e e' alike => alike.sent)
          (schedule.alike schedule' family known).1]
    · have stranger : ∀ r ∈ routines, r.tid ≠ tid := fun r mem same => known ⟨r, mem, same⟩
      rw [schedule.toldBy_stranger family stranger, schedule'.toldBy_stranger family stranger]
  refine ⟨fun r known => ?_, fun r known => ?_, ⟨?_, ?_⟩, ?_, fun i j n m ended ended' => ?_, said,
    ⟨mirrored.log, mirrored'.log⟩, ?_⟩
  · rw [← mirrored.answers, ← mirrored'.answers, answersOf_map, answersOf_map, List.map_map,
      List.map_map]
    refine map_eq_of_alike (fun e => (e.action, e.outcome)) (fun e e' alike => ?_)
      (schedule.alike schedule' family known).1
    rw [alike.action, alike.outcome]
  · rw [mirrored.machine, mirrored'.machine]
    exact congrArg Standing.machine (schedule.alike schedule' family known).2
  · rw [mirrored.roster]
    exact schedule.idle family
  · rw [mirrored'.roster]
    exact schedule'.idle family
  · rw [mirrored.roster, mirrored'.roster]
    exact schedule.total_eq schedule' family
  · rw [mirrored.exits] at ended
    rw [mirrored'.exits] at ended'
    rw [← schedule.returned family ended, ← schedule'.returned family ended',
      schedule.total_eq schedule' family]
  · rw [mirrored.log, mirrored'.log]
    exact (perm_of_shares said).map Prod.snd

end Scheduled

end Split

end AccessTrace
