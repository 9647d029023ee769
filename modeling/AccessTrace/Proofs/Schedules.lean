import Mathlib
import AccessTrace.Proofs.Faithful
import AccessTrace.Proofs.Isolation

/-!
# Schedules

Threads that have fixed work to do are scheduled in any order. Nobody else has a hand in how a
thread stands (`Linked`), so that two runs of the same thread go the same way, event by event
(`Performs.alike`). It gets the same answers, sends the same messages and ends in the same way in
every order, and all threads together have sent the same (`schedule_independent`).
-/

namespace AccessTrace

/-- Whether something failed. -/
def Outcome.failed : Outcome → Bool
  | resourceError _ | channelError _ | traceError _ | misuse _ | executed _ (some _) _ => true
  | nameInUse | noBuffer => true
  | _ => false

/-- What a thread has left to do when this fails: it lets go of its buffer, unless it has none. -/
def Action.recovery : Action → List Action
  | start _ | finish | drop => []
  | _ => [drop]

/-- The thread that is to start. -/
def Action.starts? : Action → Option UInt64
  | start tid => some tid
  | _ => none

/-- What a thread does that has this left to do and is told of each action whether it failed: after
the first failure nothing of it is done any more. -/
def Action.follow : (left : List Action) → (failed : List Bool) → List Action
  | [], _ => []
  | left, [] => left
  | action :: left, false :: failed => action :: follow left failed
  | action :: _, true :: failed => action :: follow action.recovery failed

/-- A thread that had this left to do has done all of it, or what it does when something fails. -/
def Performs (left : List Action) (part : List Event) : Prop :=
  part.map (·.action) = Action.follow left (part.map (·.outcome.failed))

/-- A thread and its work. -/
structure Routine where
  name : String
  tid : UInt64
  work : List Action

namespace Routine

/-- All that a thread is to do, from its start to its end. -/
def actions (r : Routine) : List Action := .start r.tid :: r.work ++ [.finish]

/-- The events of a thread. -/
def part (r : Routine) (events : List Event) : List Event :=
  events.filter fun e => e.name = r.name

theorem part_own {r : Routine} {e : Event} (own : e.name = r.name) (events : List Event) :
    r.part (events ++ [e]) = r.part events ++ [e] := by
  rw [part, part, List.filter_append, List.filter_singleton, decide_eq_true own]
  rfl

theorem part_other {r : Routine} {e : Event} (other : e.name ≠ r.name) (events : List Event) :
    r.part (events ++ [e]) = r.part events := by
  rw [part, part, List.filter_append, List.filter_singleton, decide_eq_false other]
  exact List.append_nil _

end Routine

/-- These threads have done all they had to in this order, over a recorder that takes everything,
and were started before an exit was begun. -/
structure Schedule (pid : UInt32) (capacity : Nat) (routines : List Routine) (events : List Event)
    (x : Shutdown) : Prop where
  runs : Shutdown.Runs { session := .begun none pid capacity } events x
  own : ∀ e ∈ events, e.machine = e.name ∧ ∃ r ∈ routines, r.name = e.name
  performs : ∀ r ∈ routines, Performs r.actions (r.part events)
  early : ∀ e ∈ events, e.action.starts? ≠ none → e.before.exits = #[]

/-- Two events are the same for their thread. -/
structure Event.Alike (e e' : Event) : Prop where
  action : e.action = e'.action
  before : e.before.standing e.name = e'.before.standing e'.name
  response : e.response = e'.response

/-- Events that follow on each other: from the one to the next the thread stands as it stood. -/
inductive Linked : Standing → List Event → Standing → Prop
  | nil (standing : Standing) : Linked standing [] standing
  | cons {e : Event} {later : List Event} {last : Standing}
    (linked : Linked (e.after.standing e.name) later last) :
    Linked (e.before.standing e.name) (e :: later) last

theorem Linked.snoc {first : Standing} {events : List Event} {e : Event}
    (linked : Linked first events (e.before.standing e.name)) :
    Linked first (events ++ [e]) (e.after.standing e.name) := by
  generalize before : e.before.standing e.name = last at linked
  induction linked with
  | nil standing =>
    rw [← before]
    exact .cons (.nil _)
  | cons _ ih => exact .cons (ih before)

theorem Linked.idle {first last : Standing} (linked : Linked first [] last) : last = first := by
  cases linked
  rfl

theorem Linked.next {first last : Standing} {e : Event} {later : List Event}
    (linked : Linked first (e :: later) last) :
    first = e.before.standing e.name ∧ Linked (e.after.standing e.name) later last := by
  cases linked with
  | cons linked => exact ⟨rfl, linked⟩

namespace Event.Alike

variable {e e' : Event}

theorem outcome (alike : e.Alike e') : e.outcome = e'.outcome :=
  congrArg Response.outcome alike.response

theorem sent (alike : e.Alike e') : e.sent = e'.sent := congrArg Response.sent alike.response

theorem after (alike : e.Alike e') : e.after.standing e.name = e'.after.standing e'.name :=
  congrArg Response.standing alike.response

/-- A buffer that goes away has sent as many entries as the other. -/
theorem ended (alike : e.Alike e') : e.ended? = e'.ended? := by
  have buffer : e.buffer? = e'.buffer? := congrArg Standing.buffer alike.before
  rw [Event.ended?, Event.ended?, alike.action, buffer, alike.outcome]

end Event.Alike

namespace Performs

variable {left : List Action} {first last last' : Standing} {part part' : List Event}

theorem idle (performs : Performs [] part) : part = [] := by
  rw [Performs, Action.follow] at performs
  exact List.map_eq_nil_iff.1 performs

theorem next {action : Action} (performs : Performs (action :: left) part) :
    ∃ e later, part = e :: later ∧ e.action = action ∧
      Performs (if e.outcome.failed then action.recovery else left) later := by
  cases part with
  | nil => cases performs
  | cons e later =>
    rw [Performs, List.map_cons, List.map_cons] at performs
    refine ⟨e, later, rfl, ?_⟩
    cases failed : e.outcome.failed with
    | false =>
      rw [failed, Action.follow] at performs
      exact List.cons.inj performs
    | true =>
      rw [failed, Action.follow] at performs
      exact List.cons.inj performs

/-- A thread that has the same to do and is answered alike does the same and ends in the same
way. -/
theorem alike (performs : Performs left part) (performs' : Performs left part')
    (linked : Linked first part last) (linked' : Linked first part' last')
    (answers : ∀ e ∈ part, ∀ e' ∈ part', e.action = e'.action →
      e.before.standing e.name = e'.before.standing e'.name → e.response = e'.response) :
    List.Forall₂ Event.Alike part part' ∧ last = last' := by
  induction part generalizing left first part' with
  | nil =>
    cases left with
    | nil =>
      obtain rfl := performs'.idle
      exact ⟨.nil, linked.idle.trans linked'.idle.symm⟩
    | cons => cases performs
  | cons e later ih =>
    cases left with
    | nil => cases performs.idle
    | cons action left =>
      obtain ⟨_, _, same, acts, rest⟩ := performs.next
      cases same
      obtain ⟨e', later', rfl, acts', rest'⟩ := performs'.next
      obtain ⟨before, linked⟩ := linked.next
      obtain ⟨before', linked'⟩ := linked'.next
      have action : e.action = e'.action := acts.trans acts'.symm
      have stands := before.symm.trans before'
      have alike : e.Alike e' := ⟨action, stands,
        answers e List.mem_cons_self e' List.mem_cons_self action stands⟩
      rw [← alike.outcome] at rest'
      rw [← alike.after] at linked'
      obtain ⟨others, ends⟩ := ih rest rest' linked linked' fun d mem d' mem' =>
        answers d (List.mem_cons_of_mem _ mem) d' (List.mem_cons_of_mem _ mem')
      exact ⟨.cons alike others, ends⟩

/-- What a thread does is among what it had to do, unless it lets go of its buffer. -/
theorem mem_actions (performs : Performs left part) {e : Event} (mem : e ∈ part) :
    e.action ∈ left ∨ e.action = .drop := by
  have recovers : ∀ action : Action, ∀ a ∈ action.recovery, a = .drop := by
    intro action a mem
    cases action <;> simp_all [Action.recovery]
  induction part generalizing left with
  | nil => cases mem
  | cons d later ih =>
    cases left with
    | nil => cases performs.idle
    | cons action left =>
      obtain ⟨_, _, same, acts, rest⟩ := performs.next
      cases same
      rcases List.mem_cons.1 mem with rfl | mem
      · exact .inl (acts ▸ List.mem_cons_self)
      · rcases ih rest mem with own | drop
        · split at own
          · exact .inr (recovers _ _ own)
          · exact .inl (List.mem_cons_of_mem _ own)
        · exact .inr drop

/-- A thread that is to end with giving back or letting go of its buffer does so. -/
theorem ends (performs : Performs left part) (unstarted : ∀ tid, Action.start tid ∉ left)
    (final : ∃ action ∈ left.getLast?, action = .finish ∨ action = .drop) :
    ∃ e ∈ part.getLast?, e.action = .finish ∨ e.action = .drop := by
  induction part generalizing left with
  | nil =>
    cases left with
    | nil =>
      obtain ⟨_, mem, _⟩ := final
      cases mem
    | cons => cases performs
  | cons e later ih =>
    cases left with
    | nil => cases performs.idle
    | cons action left =>
      obtain ⟨_, _, same, acts, rest⟩ := performs.next
      cases same
      split at rest
      -- After a failure nothing is left but to let go of the buffer, if it is not gone already.
      · have recovers : action.recovery = [.drop] ∨
            action.recovery = [] ∧ (action = .finish ∨ action = .drop) := by
          cases action with
          | start tid => exact absurd List.mem_cons_self (unstarted tid)
          | finish => exact .inr ⟨rfl, .inl rfl⟩
          | drop => exact .inr ⟨rfl, .inr rfl⟩
          | _ => exact .inl rfl
        rcases recovers with drop | ⟨nothing, ending⟩
        · rw [drop] at rest
          obtain ⟨d, mem, ending⟩ := ih rest (by simp) ⟨_, rfl, .inr rfl⟩
          exact ⟨d, List.mem_getLast?_cons mem, ending⟩
        · rw [nothing] at rest
          obtain rfl := rest.idle
          exact ⟨e, rfl, acts ▸ ending⟩
      · cases left with
        | nil =>
          obtain rfl := rest.idle
          obtain ⟨_, mem, ending⟩ := final
          cases mem
          exact ⟨e, rfl, acts ▸ ending⟩
        | cons next left =>
          rw [List.getLast?_cons_cons] at final
          obtain ⟨d, mem, ending⟩ := ih rest
            (fun tid mem => unstarted tid (List.mem_cons_of_mem _ mem)) final
          exact ⟨d, List.mem_getLast?_cons mem, ending⟩

end Performs

theorem Linked.last {first last : Standing} {events : List Event}
    (linked : Linked first events last) {e : Event} (mem : e ∈ events.getLast?) :
    last = e.after.standing e.name := by
  induction linked with
  | nil => cases mem
  | @cons d later _ linked ih =>
    cases later with
    | nil =>
      cases mem
      exact linked.idle
    | cons c later =>
      rw [List.getLast?_cons_cons] at mem
      exact ih mem

/-- Where there is no buffer none goes away, and the total stays as it is. -/
theorem Custody.vacant_total {action : Action} {r r' : Roster} {before after : Option Buffer}
    {started : Option UInt64} {ended : Option Nat}
    (custody : Custody action r before r' after started ended) (absent : before = none) :
    ended = none ∧ r'.total = r.total := by
  cases custody with
  | vacant => exact ⟨rfl, rfl⟩
  | handed => exact ⟨rfl, rfl⟩
  | made => exact ⟨rfl, rfl⟩
  | _ => cases absent

theorem Action.Works.own {action : Action} (works : action.Works) : action.Own := by
  cases action with
  | start => trivial
  | finish => trivial
  | drop => trivial
  | _ => exact works

theorem Action.Own.counted {action : Action} (own : action.Own) : action.Counted := by
  cases action with
  | buffer action =>
    cases action with
    | push => trivial
    | _ => exact own.elim
  | execute plans times => exact own
  | start => trivial
  | setRegisters => trivial
  | flush => trivial
  | finish => trivial
  | drop => trivial
  | _ => exact own.elim

namespace Shutdown

variable {pid : UInt32} {capacity : Nat} {events : List Event} {x : Shutdown}

/-- Nobody else has a hand in how a thread stands. -/
theorem Runs.linked {limit : Option Nat}
    (runs : Runs { session := .begun limit pid capacity } events x)
    (own : ∀ e ∈ events, e.machine = e.name) (r : Routine) :
    Linked ⟨none, {}⟩ (r.part events) (x.session.standing r.name) := by
  induction runs with
  | nil => exact .nil _
  | @act events x name machineName action runs ih =>
    have linked := ih fun e mem => own e (List.mem_append_left _ mem)
    have new := own _ (List.mem_append_right _ List.mem_cons_self)
    obtain rfl : machineName = name := new
    have elsewhere := (Session.handled_act (runs.descends List.nodup_nil).1.distinct machineName
      machineName action).elsewhere
    by_cases same : machineName = r.name
    · subst same
      rw [Routine.part_own rfl]
      exact linked.snoc
    · rw [Routine.part_other same]
      have stands : (x.session.act machineName machineName action).2.standing r.name =
          x.session.standing r.name := by
        rw [Session.standing, Session.standing]
        exact congr (congrArg _ (elsewhere.buffers _ (Ne.symm same)))
          (elsewhere.machines _ (Ne.symm same))
      rw [stands]
      exact linked
  | begin _ ih => exact ih own
  | wait _ _ _ _ _ ih => exact ih own
  | close _ _ _ _ _ ih => exact ih own

/-- All buffers are in use: what threads do leaves them so, or takes them away. -/
theorem Runs.active {limit : Option Nat}
    (runs : Runs { session := .begun limit pid capacity } events x)
    (own : ∀ e ∈ events, e.machine = e.name ∧ e.action.Own) :
    (∀ name b, x.session.buffers.get? name = some b → b.phase = .active) ∧
      ∀ e ∈ events, ∀ b, e.buffer? = some b → b.phase = .active := by
  induction runs with
  | nil =>
    refine ⟨fun name b here => ?_, fun e mem => absurd mem List.not_mem_nil⟩
    cases here
  | @act events x name machineName action runs ih =>
    obtain ⟨held, earlier⟩ := ih fun e mem => own e (List.mem_append_left _ mem)
    have new := own _ (List.mem_append_right _ List.mem_cons_self)
    have owned : action.Own := new.2
    obtain rfl : machineName = name := new.1
    have distinct := (runs.descends List.nodup_nil).1.distinct
    have elsewhere := (Session.handled_act distinct machineName machineName action).elsewhere
    refine ⟨fun other b here => ?_, fun e mem => ?_⟩
    · by_cases same : other = machineName
      · subst same
        exact Session.active_act distinct owned (held other) here
      · exact held other b ((elsewhere.buffers other same).symm.trans here)
    · rcases List.mem_append.1 mem with old | last
      · exact earlier e old
      · rw [List.mem_singleton.1 last]
        exact held machineName
  | begin _ ih => exact ih own
  | wait _ _ _ _ _ ih => exact ih own
  | close _ _ _ _ _ ih => exact ih own

/-- The total is what the buffers had sent that went away. -/
theorem Runs.total {limit : Option Nat}
    (runs : Runs { session := .begun limit pid capacity } events x)
    (counted : ∀ e ∈ events, e.action.Counted) (unfreed : ∀ e ∈ events, e.unfreed = true) :
    x.session.tracer.roster.total = (events.map fun e => e.ended?.getD 0).sum := by
  induction runs with
  | nil => rfl
  | @act events x name machineName action runs ih =>
    have earlier : ∀ e ∈ events, e.action.Counted := fun e mem =>
      counted e (List.mem_append_left _ mem)
    have new := List.mem_append_right events
      (List.mem_singleton_self (x.session.event name machineName action))
    have total := ih earlier fun e mem => unfreed e (List.mem_append_left _ mem)
    have handled := Session.handled_act (runs.descends List.nodup_nil).1.distinct name machineName
      action
    rw [List.map_append, List.sum_append, ← total, List.map_singleton, List.sum_singleton]
    cases here : x.session.buffers.get? name with
    | none =>
      obtain ⟨ended, same⟩ := handled.custody.vacant_total here
      rw [ended]
      exact same
    | some b =>
      have kept : action ≠ .free := by
        rintro rfl
        exact counted _ new
      rcases handled.custody.leaves here ((runs.attached earlier).1 name b here)
        (fun ended => Event.phase_of_unfreed (counted _ new) (unfreed _ new) ended here) kept with
        ⟨ended, same⟩ | ⟨n, ended, more, _⟩
      · rw [ended]
        exact congrArg Roster.total same
      · rw [ended]
        exact more
  | begin _ ih => exact ih counted unfreed
  | wait _ _ _ _ _ ih => exact ih counted unfreed
  | close _ _ _ _ _ ih => exact ih counted unfreed

/-- A thread that is started once, and before an exit is begun, finds its tid free and tracing not
over. -/
theorem Runs.running {limit : Option Nat}
    (runs : Runs { session := .begun limit pid capacity } events x)
    (counted : ∀ e ∈ events, e.action.Counted) (unfreed : ∀ e ∈ events, e.unfreed = true)
    (once : (events.filterMap (·.action.starts?)).Nodup)
    (early : ∀ e ∈ events, e.action.starts? ≠ none → e.before.exits = #[]) :
    (x.session.exits = #[] → x.session.tracer.roster.exited = false) ∧
      ∀ e ∈ events, ∀ tid, e.action = .start tid →
        e.before.tracer.roster.exited = false ∧ tid ∉ e.before.tracer.roster.live := by
  induction runs with
  | nil => exact ⟨fun _ => rfl, fun e mem => absurd mem List.not_mem_nil⟩
  | @act events x name machineName action runs ih =>
    have earlier : ∀ e ∈ events, e.action.Counted := fun e mem =>
      counted e (List.mem_append_left _ mem)
    have unfreed' : ∀ e ∈ events, e.unfreed = true := fun e mem =>
      unfreed e (List.mem_append_left _ mem)
    rw [List.filterMap_append, List.nodup_append] at once
    obtain ⟨once, _, apart⟩ := once
    obtain ⟨unexited, running⟩ := ih earlier unfreed' once fun e mem =>
      early e (List.mem_append_left _ mem)
    have handled := Session.handled_act (runs.descends List.nodup_nil).1.distinct name machineName
      action
    refine ⟨fun none => ?_, fun e mem tid start => ?_⟩
    · exact handled.custody.exited.trans (unexited (handled.elsewhere.exits.symm.trans none))
    · rcases List.mem_append.1 mem with old | new
      · exact running e old tid start
      · obtain rfl := List.mem_singleton.1 new
        have starts : action.starts? = some tid := by
          rw [show action = .start tid from start]
          rfl
        refine ⟨unexited (early _ mem fun none => ?_), fun live => ?_⟩
        · cases starts.symm.trans none
        -- A live thread was started by an earlier event.
        obtain ⟨a, known, _, same⟩ := ((runs.ledger earlier unfreed').1.live tid).1 live
        have opened : tid ∈ (accounts events).map (·.tid) := List.mem_map.2 ⟨a, known, same⟩
        rw [tids_accounts] at opened
        obtain ⟨d, before, started⟩ := List.mem_filterMap.1 opened
        refine apart tid (List.mem_filterMap.2 ⟨d, before, ?_⟩) tid
          (List.mem_filterMap.2 ⟨_, List.mem_singleton_self _, starts⟩) rfl
        rw [Event.action_of_started started]
        rfl
  | begin _ ih =>
    obtain ⟨_, running⟩ := ih counted unfreed once early
    exact ⟨fun none => absurd none Array.push_ne_empty, running⟩
  | wait _ _ _ _ _ ih => exact ih counted unfreed once early
  | close _ _ _ _ _ ih =>
    obtain ⟨unexited, running⟩ := ih counted unfreed once early
    exact ⟨fun none => unexited (exits_of_close none), running⟩

end Shutdown

/-- Threads with names and tids of their own, and the work of threads. -/
structure Family (routines : List Routine) : Prop where
  names : (routines.map (·.name)).Nodup
  tids : (routines.map (·.tid)).Nodup
  works : ∀ r ∈ routines, ∀ action ∈ r.work, action.Works

/-- The events are those of the threads. -/
theorem perm_parts {routines : List Routine} {events : List Event}
    (names : (routines.map (·.name)).Nodup)
    (all : ∀ e ∈ events, ∃ r ∈ routines, r.name = e.name) :
    events.Perm (routines.flatMap fun r => r.part events) := by
  induction routines generalizing events with
  | nil =>
    have empty : events = [] := by
      refine List.eq_nil_iff_forall_not_mem.2 fun e mem => ?_
      obtain ⟨_, nobody, _⟩ := all e mem
      cases nobody
    rw [empty]
    rfl
  | cons r rest ih =>
    rw [List.map_cons, List.nodup_cons] at names
    have others : ∀ e ∈ events.filter (fun e => !decide (e.name = r.name)),
        ∃ s ∈ rest, s.name = e.name := by
      intro e mem
      obtain ⟨mem, other⟩ := List.mem_filter.1 mem
      obtain ⟨s, known, same⟩ := all e mem
      rcases List.mem_cons.1 known with rfl | known
      · simp [same] at other
      · exact ⟨s, known, same⟩
    have same : ∀ s ∈ rest, s.part (events.filter fun e => !decide (e.name = r.name)) =
        s.part events := by
      intro s mem
      rw [Routine.part, Routine.part, List.filter_filter]
      refine List.filter_congr fun e _ => ?_
      by_cases own : e.name = s.name
      · have other : e.name ≠ r.name := by
          intro both
          exact names.1 (List.mem_map.2 ⟨s, mem, own.symm.trans both⟩)
        simp [own, own ▸ other]
      · simp [own]
    have split := List.filter_append_perm (fun e : Event => decide (e.name = r.name)) events
    rw [List.flatMap_cons]
    refine split.symm.trans (List.Perm.append_left _ ?_)
    rw [← List.flatMap_congr same]
    exact ih names.2 others

namespace Routine

variable {r : Routine} {events : List Event} {first last : Standing}

/-- A thread starts once, and first. -/
theorem starts_part {part : List Event} (performs : Performs r.actions part)
    (works : ∀ action ∈ r.work, action.Works) :
    part.filterMap (·.action.starts?) = [r.tid] := by
  obtain ⟨e, later, rfl, start, performs⟩ := Performs.next performs
  have others : ∀ d ∈ later, d.action.starts? = none := by
    intro d mem
    have working : d.action ∈ r.work ++ [.finish] ∨ d.action = .drop := by
      split at performs
      · rw [Performs.idle performs] at mem
        cases mem
      · exact performs.mem_actions mem
    rcases working with own | drop
    · rcases List.mem_append.1 own with work | finish
      · have works := works _ work
        cases action : d.action with
        | start tid =>
          rw [action] at works
          exact works.elim
        | _ => rfl
      · rw [List.mem_singleton.1 finish]
        rfl
    · rw [drop]
      rfl
  rw [List.filterMap_cons, start]
  exact congrArg (r.tid :: ·) (List.filterMap_eq_nil_iff.2 others)

theorem own_of_mem {part : List Event} (performs : Performs r.actions part)
    (works : ∀ action ∈ r.work, action.Works) {e : Event} (mem : e ∈ part) : e.action.Own := by
  rcases performs.mem_actions mem with own | drop
  · rcases List.mem_append.1 own with early | finish
    · rcases List.mem_cons.1 early with start | work
      · rw [start]
        trivial
      · exact (works _ work).own
    · rw [List.mem_singleton.1 finish]
      trivial
  · rw [drop]
    trivial

end Routine

namespace Schedule

variable {pid : UInt32} {capacity : Nat} {routines : List Routine} {events events' : List Event}
  {x x' : Shutdown}

theorem perm (schedule : Schedule pid capacity routines events x) (family : Family routines) :
    events.Perm (routines.flatMap fun r => r.part events) :=
  perm_parts family.names fun e mem => (schedule.own e mem).2

theorem owned (schedule : Schedule pid capacity routines events x) (family : Family routines)
    {e : Event} (mem : e ∈ events) : e.action.Own := by
  obtain ⟨_, r, known, same⟩ := schedule.own e mem
  exact Routine.own_of_mem (schedule.performs r known) (family.works r known)
    (List.mem_filter.2 ⟨mem, decide_eq_true same.symm⟩)

theorem unfreed (schedule : Schedule pid capacity routines events x) (family : Family routines)
    {e : Event} (mem : e ∈ events) : e.unfreed = true := by
  obtain ⟨_, active⟩ := schedule.runs.active fun e mem =>
    ⟨(schedule.own e mem).1, schedule.owned family mem⟩
  have used : e.buffer?.all (·.phase ≠ .freed) = true := by
    cases here : e.buffer? with
    | none => rfl
    | some b => simp [active e mem b here]
  unfold Event.unfreed
  split
  · exact used
  · exact used
  · rfl

/-- No tid is asked for twice. -/
theorem once (schedule : Schedule pid capacity routines events x) (family : Family routines) :
    (events.filterMap (·.action.starts?)).Nodup := by
  have starts : ∀ r ∈ routines, (r.part events).filterMap (·.action.starts?) = [r.tid] :=
    fun r mem => Routine.starts_part (schedule.performs r mem) (family.works r mem)
  refine ((schedule.perm family).filterMap _).nodup_iff.2 ?_
  rw [List.filterMap_flatMap, List.flatMap_congr starts, ← List.map_eq_flatMap]
  exact family.tids

/-- Nothing is in the way of an action. -/
theorem admits (schedule : Schedule pid capacity routines events x) (family : Family routines)
    {e : Event} (mem : e ∈ events) : e.before.Admits pid capacity e.name e.action := by
  have counted : ∀ e ∈ events, e.action.Counted := fun e mem => (schedule.owned family mem).counted
  have within := (schedule.runs.descends List.nodup_nil).2 e mem
  obtain ⟨_, running⟩ := schedule.runs.running counted (fun e mem => schedule.unfreed family mem)
    (schedule.once family) schedule.early
  exact ⟨within.distinct, within.pid, within.capacity,
    fun b here => ⟨within.limit, schedule.runs.isOpen counted mem here⟩, running e mem⟩

/-- In two schedules a thread does the same, and ends in the same way. -/
theorem alike (schedule : Schedule pid capacity routines events x)
    (schedule' : Schedule pid capacity routines events' x') (family : Family routines)
    {r : Routine} (known : r ∈ routines) :
    List.Forall₂ Event.Alike (r.part events) (r.part events') ∧
      x.session.standing r.name = x'.session.standing r.name := by
  refine (schedule.performs r known).alike (schedule'.performs r known)
    (schedule.runs.linked (fun e mem => (schedule.own e mem).1) r)
    (schedule'.runs.linked (fun e mem => (schedule'.own e mem).1) r) ?_
  intro e inPart e' inPart' action stands
  obtain ⟨mem, name⟩ := List.mem_filter.1 inPart
  obtain ⟨mem', name'⟩ := List.mem_filter.1 inPart'
  have same : e.name = e'.name := (of_decide_eq_true name).trans (of_decide_eq_true name').symm
  have acted := ((schedule.runs.descends List.nodup_nil).2 e mem).acted
  have acted' := ((schedule'.runs.descends List.nodup_nil).2 e' mem').acted
  rw [(schedule.own e mem).1] at acted
  rw [(schedule'.own e' mem').1, ← same, ← action] at acted'
  rw [← same] at stands
  have admits' := schedule'.admits family mem'
  rw [← same, ← action] at admits'
  have answer := Session.response_eq (schedule.admits family mem) admits' stands
    (schedule.owned family mem)
  rw [acted, acted'] at answer
  exact answer

/-- A thread that did not start still has no buffer. -/
theorem vacant_of_failed (schedule : Schedule pid capacity routines events x) {e : Event}
    (mem : e ∈ events) {tid : UInt64} (start : e.action = .start tid)
    (failed : e.outcome.failed = true) (vacant : e.buffer? = none) :
    (e.after.standing e.name).buffer = none := by
  have acted := ((schedule.runs.descends List.nodup_nil).2 e mem).acted
  rw [start] at acted
  rcases Session.started_or_idle e.before e.name e.machine tid with
    ⟨_, _, _, _, _, _, _, started⟩ | ⟨_, _, idle⟩
  · rw [← acted, Session.event, started] at failed
    cases failed
  · rw [← congrArg Event.after acted, Session.event, idle]
    exact vacant

/-- A thread that has done all it has to has no buffer any more. -/
theorem vacant (schedule : Schedule pid capacity routines events x) (family : Family routines)
    {r : Routine} (known : r ∈ routines) : x.session.buffers.get? r.name = none := by
  have linked := schedule.runs.linked (fun e mem => (schedule.own e mem).1) r
  have inside : ∀ e ∈ r.part events, e ∈ events := fun e mem => (List.mem_filter.1 mem).1
  have performs := schedule.performs r known
  obtain ⟨e, later, part, start, rest⟩ := Performs.next performs
  rw [part] at linked inside
  obtain ⟨before, afterwards⟩ := linked.next
  split at rest
  · rename_i failed
    obtain rfl := Performs.idle rest
    have gone := schedule.vacant_of_failed (inside e List.mem_cons_self) start failed
      (congrArg Standing.buffer before).symm
    rw [← afterwards.idle] at gone
    exact gone
  · have unstarted : ∀ tid, Action.start tid ∉ r.work ++ [.finish] := by
      intro tid mem
      rcases List.mem_append.1 mem with work | finish
      · exact family.works r known _ work
      · cases List.mem_singleton.1 finish
    obtain ⟨d, last, ending⟩ := Performs.ends rest unstarted ⟨.finish, by simp, .inl rfl⟩
    have mem := inside d (List.mem_cons_of_mem _ (List.mem_of_getLast? last))
    have within := (schedule.runs.descends List.nodup_nil).2 d mem
    have acted := within.acted
    rw [(schedule.own d mem).1] at acted
    have gone : (d.before.act d.name d.name d.action).2.buffers.get? d.name = none :=
      Session.gone_of_ending within.distinct ending
    rw [show (d.before.act d.name d.name d.action).2 = d.after from congrArg Event.after acted]
      at gone
    exact (congrArg Standing.buffer (afterwards.last last)).trans gone

/-- No thread is running any more. -/
theorem idle (schedule : Schedule pid capacity routines events x) (family : Family routines) :
    x.session.tracer.roster.live = [] := by
  have counted : ∀ e ∈ events, e.action.Counted := fun e mem => (schedule.owned family mem).counted
  have ledger := (schedule.runs.ledger counted fun e mem => schedule.unfreed family mem).1
  have accounted := (schedule.runs.stands counted).1
  refine List.eq_nil_iff_forall_not_mem.2 fun tid live => ?_
  obtain ⟨a, known, unended, _⟩ := (ledger.live tid).1 live
  obtain ⟨b, here, _⟩ := accounted.held a known unended
  by_cases named : ∃ r ∈ routines, r.name = a.name
  · obtain ⟨r, known, same⟩ := named
    rw [← same] at here
    cases here.symm.trans (schedule.vacant family known)
  · -- Under other names there was nothing.
    have linked := schedule.runs.linked (fun e mem => (schedule.own e mem).1) ⟨a.name, 0, []⟩
    have nobody : Routine.part ⟨a.name, 0, []⟩ events = [] := by
      refine List.filter_eq_nil_iff.2 fun e mem same => named ?_
      obtain ⟨_, r, known, name⟩ := schedule.own e mem
      exact ⟨r, known, name.trans (of_decide_eq_true same)⟩
    rw [nobody] at linked
    cases here.symm.trans (congrArg Standing.buffer linked.idle)

/-- What exits return is the total. -/
theorem returned (schedule : Schedule pid capacity routines events x) (family : Family routines)
    {i n : Nat} (ended : x.session.exits[i]? = some (some n)) :
    x.session.tracer.roster.total = n := by
  have counted : ∀ e ∈ events, e.action.Counted := fun e mem => (schedule.owned family mem).counted
  obtain ⟨_, attached⟩ := schedule.runs.attached counted
  have guarded := schedule.runs.guarded (Shutdown.guarded_begun none pid capacity) fun e mem =>
    Event.fair_of_counted (counted e mem) (attached e mem)
  exact guarded.total i n (guarded.returned i n ended)

theorem total (schedule : Schedule pid capacity routines events x) (family : Family routines) :
    x.session.tracer.roster.total =
      ((routines.flatMap fun r => r.part events).map fun e => e.ended?.getD 0).sum := by
  rw [schedule.runs.total (fun e mem => (schedule.owned family mem).counted)
    fun e mem => schedule.unfreed family mem]
  exact ((schedule.perm family).map _).sum_eq

theorem messages (schedule : Schedule pid capacity routines events x) :
    x.session.tracer.channel.messages.toList = events.flatMap Event.sent :=
  (schedule.runs.descends List.nodup_nil).1.messages

end Schedule

/-- What is told by what is the same for a thread is the same. -/
theorem map_eq_of_alike {α : Type} {part part' : List Event} (f : Event → α)
    (same : ∀ e e', e.Alike e' → f e = f e') (alike : List.Forall₂ Event.Alike part part') :
    part.map f = part'.map f := by
  induction alike with
  | nil => rfl
  | cons here _ ih => rw [List.map_cons, List.map_cons, same _ _ here, ih]

namespace Schedule

variable {pid : UInt32} {capacity : Nat} {routines : List Routine} {events events' : List Event}
  {x x' : Shutdown}

/-- What is told by events that are the same for their thread is the same, thread by thread. -/
theorem map_parts {α : Type} (schedule : Schedule pid capacity routines events x)
    (schedule' : Schedule pid capacity routines events' x') (family : Family routines)
    (f : Event → α) (same : ∀ e e', e.Alike e' → f e = f e') :
    (routines.flatMap fun r => r.part events).map f =
      (routines.flatMap fun r => r.part events').map f := by
  rw [List.map_flatMap, List.map_flatMap]
  exact List.flatMap_congr fun r known =>
    map_eq_of_alike f same (schedule.alike schedule' family known).1

theorem total_eq (schedule : Schedule pid capacity routines events x)
    (schedule' : Schedule pid capacity routines events' x') (family : Family routines) :
    x.session.tracer.roster.total = x'.session.tracer.roster.total := by
  rw [schedule.total family, schedule'.total family,
    schedule.map_parts schedule' family _ fun e e' alike => by rw [alike.ended]]

end Schedule

/-- What two schedules of the same threads have in common. -/
structure SameWork (routines : List Routine) (events : List Event) (x : Shutdown)
    (events' : List Event) (x' : Shutdown) : Prop where
  /-- Every thread does the same, with the same results, and sends the same messages. -/
  results : ∀ r ∈ routines, (r.part events).map (fun e => (e.action, e.outcome, e.sent)) =
    (r.part events').map fun e => (e.action, e.outcome, e.sent)
  machines : ∀ r ∈ routines, x.session.machine r.name = x'.session.machine r.name
  /-- No exit has to wait any more. -/
  idle : x.session.tracer.roster.live = [] ∧ x'.session.tracer.roster.live = []
  total : x.session.tracer.roster.total = x'.session.tracer.roster.total
  /-- Exits that are over have returned the same. -/
  returned : ∀ i j n m : Nat, x.session.exits[i]? = some (some n) →
    x'.session.exits[j]? = some (some m) → n = m
  /-- Nothing else is on the channel than what the threads have sent, in some order. -/
  messages : x.session.tracer.channel.messages.toList = events.flatMap Event.sent ∧
    x'.session.tracer.channel.messages.toList = events'.flatMap Event.sent
  shuffled : x.session.tracer.channel.messages.toList.Perm
    x'.session.tracer.channel.messages.toList

/-- Whatever order threads are scheduled in, each of them gets the same results, sends the same
messages in the same order and ends with the same machine, and the total is the same. -/
theorem schedule_independent {pid : UInt32} {capacity : Nat} {routines : List Routine}
    {events events' : List Event} {x x' : Shutdown} (family : Family routines)
    (schedule : Schedule pid capacity routines events x)
    (schedule' : Schedule pid capacity routines events' x') :
    SameWork routines events x events' x' := by
  refine ⟨fun r known => ?_, fun r known => ?_, ⟨schedule.idle family, schedule'.idle family⟩,
    schedule.total_eq schedule' family, fun i j n m ended ended' => ?_,
    ⟨schedule.messages, schedule'.messages⟩, ?_⟩
  · refine map_eq_of_alike _ (fun e e' alike => ?_) (schedule.alike schedule' family known).1
    rw [alike.action, alike.outcome, alike.sent]
  · exact congrArg Standing.machine (schedule.alike schedule' family known).2
  · rw [← schedule.returned family ended, ← schedule'.returned family ended',
      schedule.total_eq schedule' family]
  · rw [schedule.messages, schedule'.messages]
    refine ((schedule.perm family).flatMap_right _).trans ?_
    rw [List.flatMap_def, schedule.map_parts schedule' family _ fun e e' alike => alike.sent,
      ← List.flatMap_def]
    exact ((schedule'.perm family).flatMap_right _).symm

/-- A thread that loads through the scratch registers and delivers what it holds. -/
def reader : Routine where
  name := "a"
  tid := 1
  work := [.setRegisters [(1, 256), (3, 2)],
    .execute [Session.fetching.plan aliasedLoad true] 1, .flush .forced]

/-- A thread whose buffer overflows. -/
def writer : Routine where
  name := "b"
  tid := 2
  work := [.buffer (.push (.write 8 64) 8 1), .flush .forced, .buffer (.push (.write 8 64) 8 9),
    .flush .forced]

/-- What that thread comes to do, since it fails. -/
def writer.attempts : List (String × Action) :=
  [("b", .start 2), ("b", .buffer (.push (.write 8 64) 8 1)), ("b", .flush .forced),
    ("b", .buffer (.push (.write 8 64) 8 9)), ("b", .drop)]

theorem schedule_independent_overflowing : ∃ events x events' x',
    SameWork [reader, writer] events x events' x' ∧
      x.session.exits = #[some 7] ∧ x'.session.exits = #[some 7] ∧
      x.session.tracer.channel.messages ≠ x'.session.tracer.channel.messages ∧
      (writer.part events).map (·.outcome.failed) = [false, false, false, true, false] := by
  have family : Family [reader, writer] := by
    refine ⟨by decide, by decide, fun r mem action work => ?_⟩
    rcases List.mem_pair.1 mem with rfl | rfl
    · simp only [reader, List.mem_cons, List.not_mem_nil, or_false] at work
      rcases work with rfl | rfl | rfl
      · trivial
      · exact ⟨[⟨Session.fetching, aliasedLoad, true⟩], rfl⟩
      · trivial
    · simp only [writer, List.mem_cons, List.not_mem_nil, or_false] at work
      rcases work with rfl | rfl | rfl | rfl
      all_goals trivial
  have scheduled : ∀ {events : List Event} {s : Session}, (Session.fresh 7 4).Runs events s →
      (∀ e ∈ events, e.machine = e.name ∧ ∃ r ∈ [reader, writer], r.name = e.name) →
      (∀ e ∈ events, e.action.starts? ≠ none → e.before.exits = #[]) →
      (reader.part events).map (·.outcome.failed) = [false, false, false, false, false] →
      (reader.part events).map (·.action) = reader.actions →
      (writer.part events).map (·.outcome.failed) = [false, false, false, true, false] →
      (writer.part events).map (·.action) = writer.attempts.map Prod.snd →
      ∃ read, Schedule 7 4 [reader, writer] events ⟨s, read⟩ := by
    intro events s runs own early well reads failed writes
    obtain ⟨read, runs⟩ := Shutdown.runs_of_session runs List.nodup_nil
    refine ⟨read, runs, own, fun r mem => ?_, early⟩
    rcases List.mem_pair.1 mem with rfl | rfl
    · rw [Performs, well, reads]
      rfl
    · rw [Performs, failed, writes]
      rfl
  -- One after the other, and then the exit.
  have apart : (Session.fresh 7 4).Runs _ _ :=
    (Session.Runs.nil.actAll (writer.attempts ++ reader.actions.map (Prod.mk "a"))).beginExit.settle
  -- The exit begins when both have started, and then they take turns.
  have turns : (Session.fresh 7 4).Runs _ _ :=
    ((Session.Runs.nil.actAll [("a", .start 1), ("b", .start 2)]).beginExit.actAll
      (((reader.actions.tail.map (Prod.mk "a")).zip writer.attempts.tail).flatMap
        fun (a, b) => [a, b])).settle
  obtain ⟨read, schedule⟩ := scheduled apart (by decide +kernel) (by decide +kernel)
    (by decide +kernel) rfl (by decide +kernel) rfl
  obtain ⟨read', schedule'⟩ := scheduled turns (by decide +kernel) (by decide +kernel)
    (by decide +kernel) rfl (by decide +kernel) rfl
  refine ⟨_, _, _, _, schedule_independent family schedule schedule', ?_, ?_, ?_,
    by decide +kernel⟩
  all_goals
    dsimp only
    decide +kernel

end AccessTrace
