import Mathlib
import AccessTrace.Proofs.Splitting

/-!
# Pauses

Whatever can be done without a pause can be done message by message, also while others are between
their messages (`Runs.unpaused`), and at any moment all that is under way can come to its end
(`Runs.concluded`). While a thread pauses between two messages it is live and the channel is open,
however many exits have begun: no exit reads the total, and nothing that is sent is refused, before
the last thread has left (`Runs.closes`).
-/

namespace AccessTrace

/-- What the threads of a program do needs no message, or is an errand. -/
theorem Action.Threaded.quiet_or_errand {action : Action} (threaded : action.Threaded) (s : Session)
    (name : String) : s.Quiet name action ∨
      ∃ (b : Buffer) (errand : Errand), s.buffers.get? name = some b ∧ errand.Ready b ∧
        errand.action = action := by
  cases action with
  | allocate | send | close | channel | flushAs => exact threaded.elim
  | flush policy =>
    cases here : s.buffers.get? name with
    | none => exact .inl here
    | some b => exact .inr ⟨b, .flush policy, rfl, trivial, rfl⟩
  | execute plans times =>
    cases here : s.buffers.get? name with
    | none => exact .inl here
    | some b => exact .inr ⟨b, .execute plans times, rfl, trivial, rfl⟩
  | finish =>
    by_cases active : ∃ b, s.buffers.get? name = some b ∧ b.phase = .active
    · obtain ⟨b, here, active⟩ := active
      exact .inr ⟨b, .finish, here, active, rfl⟩
    · exact .inl fun b here phase => active ⟨b, here, phase⟩
  | _ => exact .inl trivial

/-- Where there is no buffer nothing is sent, and so nothing refused. -/
theorem Action.Threaded.refused_of_vacant {action : Action} (threaded : action.Threaded)
    {s : Session} {name : String} (absent : s.buffers.get? name = none) (machineName : String) :
    (s.act name machineName action).1.refused = false := by
  have nothing : ∀ act : Buffer → Session → Outcome × Session,
      (s.withBuffer name act).1.refused = false := by
    intro act
    rw [Session.withBuffer_of_vacant absent]
    rfl
  cases action with
  | allocate | send | close | channel | flushAs => exact threaded.elim
  | start tid =>
    rcases Session.started_or_idle s name machineName tid with
      ⟨b, _, _, _, _, _, _, started⟩ | ⟨outcome, failed, idle⟩
    · rw [started]
      rfl
    · rw [idle]
      rcases failed with rfl | ⟨e, other, rfl⟩
      · rfl
      · refine decide_eq_false fun refused => ?_
        exact other .closed (TraceError.closed_of_failure? refused)
  | setRegisters values => rfl
  | machine => rfl
  | _ => exact nothing _

namespace Answered

/-- The thread that was started, as for events (`Event.started?`). -/
def started? (a : Answered) : Option UInt64 :=
  match a.action, a.outcome with
  | .start tid, .made _ _ _ => some tid
  | _, _ => none

end Answered

namespace Split

variable {y₀ y : Split} {answers : List Answered} {name : String} {u : Underway}

/-- What is under way comes to its end without a further pause. -/
theorem Runs.finishing (runs : Runs y₀ answers y) (busy : y.underway name = some u) :
    ∃ y', Runs y₀ (answers ++
        [⟨name, u.errand.action, (u.rest.run y.session.tracer.channel).1.1⟩]) y' ∧
      y'.session = (y.session.withChannel (u.rest.run y.session.tracer.channel).2).conclude name
        (u.rest.run y.session.tracer.channel).1.2 ∧
      y'.read = y.read ∧
      ∀ other, y'.underway other = if other = name then none else y.underway other := by
  obtain ⟨errand, tid, sent, rest⟩ := u
  induction rest generalizing sent y with
  | stop result =>
    exact ⟨_, runs.conclude name _ _ _ busy rfl, rfl, rfl, fun other =>
      y.underway_conclude name other result.2⟩
  | send message next ih =>
    obtain ⟨y', ended, session, read, underway⟩ :=
      ih _ (runs.send name _ message next busy rfl) _ (Function.update_self _ _ _)
    refine ⟨y', ended, session, read, fun other => ?_⟩
    rw [underway]
    split
    · rfl
    · rename_i differs
      exact Function.update_of_ne differs _ _

/-- Whatever can be done without a pause can be done message by message, also while others are
between their messages. -/
theorem Runs.unpaused (before : Runs y₀ answers y) {x : Shutdown} {events : List Event}
    (runs : Shutdown.Runs y.toShutdown events x)
    (threaded : ∀ e ∈ events, e.action.Threaded ∧ e.machine = e.name)
    (free : ∀ e ∈ events, y.underway e.name = none) :
    ∃ y', Runs y₀ (answers ++ events.map Event.answered) y' ∧ y'.toShutdown = x ∧
      ∀ name, y'.underway name = y.underway name := by
  induction runs with
  | nil =>
    refine ⟨y, ?_, rfl, fun _ => rfl⟩
    rw [List.map_nil, List.append_nil]
    exact before
  | @act events x name machineName action _ ih =>
    obtain ⟨y', runs, rfl, same⟩ := ih (fun e mem => threaded e (List.mem_append_left _ mem))
      fun e mem => free e (List.mem_append_left _ mem)
    obtain ⟨last, own⟩ := threaded _ (List.mem_append_right _ List.mem_cons_self)
    obtain rfl : machineName = name := own
    have idle : y.underway machineName = none :=
      free _ (List.mem_append_right _ List.mem_cons_self)
    have idle' := (same machineName).trans idle
    rw [List.map_append, ← List.append_assoc]
    rcases last.quiet_or_errand y'.session machineName with quiet | ⟨b, errand, here, ready, rfl⟩
    · exact ⟨_, runs.act machineName action idle' quiet, rfl, same⟩
    · obtain ⟨⟨⟨session', read'⟩, underway', log'⟩, ended, session, read, underway⟩ :=
        (runs.begin machineName b errand idle' here ready).finishing (Function.update_self _ _ _)
      have acted := Session.act_eq_run here ready rfl
      refine ⟨_, ?_, ?_, fun other => (underway other).trans ?_⟩
      · rw [List.map_singleton, Event.answered, Session.event, acted]
        exact ended
      · simp only at session read
        rw [session, read, acted]
        rfl
      · rw [underway_begin]
        split
        · rename_i same
          rw [same, idle]
        · exact same other
  | begin _ ih =>
    obtain ⟨y', runs, rfl, same⟩ := ih threaded free
    exact ⟨_, runs.beginExit, rfl, same⟩
  | wait i waiting unread idle _ ih =>
    obtain ⟨y', runs, rfl, same⟩ := ih threaded free
    exact ⟨_, runs.wait i waiting unread idle, rfl, same⟩
  | close i total waiting read _ ih =>
    obtain ⟨y', runs, rfl, same⟩ := ih threaded free
    exact ⟨_, runs.close i total waiting read, rfl, same⟩

/-- What is under way with these names can come to its end. -/
theorem Runs.ending (runs : Runs y₀ answers y) (names : List String) :
    ∃ more y', Runs y₀ (answers ++ more) y' ∧
      (∀ a ∈ more, ∃ u, y.underway a.name = some u ∧ u.errand.action = a.action) ∧
      ∀ name, y'.underway name = if name ∈ names then none else y.underway name := by
  induction names with
  | nil =>
    refine ⟨[], y, ?_, fun a mem => absurd mem List.not_mem_nil, fun _ => rfl⟩
    rw [List.append_nil]
    exact runs
  | cons name names ih =>
    obtain ⟨more, y', run, own, underway⟩ := ih
    have left : ∀ u, y'.underway name = some u → y.underway name = some u := by
      intro u busy
      rw [underway] at busy
      split at busy
      · cases busy
      · exact busy
    cases busy : y'.underway name with
    | none =>
      refine ⟨more, y', run, own, fun other => ?_⟩
      by_cases same : other = name
      · rw [same, busy, if_pos List.mem_cons_self]
      · simp only [underway, List.mem_cons, same, false_or]
    | some u =>
      obtain ⟨y'', ended, _, _, underway'⟩ := run.finishing busy
      rw [List.append_assoc] at ended
      refine ⟨_, y'', ended, ?_, fun other => ?_⟩
      · intro a mem
        rcases List.mem_append.1 mem with old | new
        · exact own a old
        · rw [List.mem_singleton.1 new]
          exact ⟨u, left u busy, rfl⟩
      · rw [underway', underway]
        by_cases same : other = name
        · rw [if_pos same, same, if_pos List.mem_cons_self]
        · simp only [List.mem_cons, same, if_false, false_or]

variable {limit : Option Nat} {pid : UInt32} {capacity : Nat}

/-- Wherever a run stands, nothing but what is under way needs to be done for all threads to have
done what they began. -/
theorem Runs.concluded (runs : Runs (begun limit pid capacity) answers y) :
    ∃ more y', Runs (begun limit pid capacity) (answers ++ more) y' ∧
      (∀ a ∈ more, ∃ u, y.underway a.name = some u ∧ u.errand.action = a.action) ∧
      ∀ name, y'.underway name = none := by
  obtain ⟨events, x, _, mirrored⟩ := runs.mirrored
  obtain ⟨more, y', run, own, underway⟩ := runs.ending (x.session.buffers.map Prod.fst)
  refine ⟨more, y', run, own, fun name => ?_⟩
  rw [underway]
  split
  · rfl
  · rename_i absent
    cases busy : y.underway name with
    | none => rfl
    | some u =>
      obtain ⟨b, suspended⟩ := mirrored.underway name u busy
      cases (Named.get?_eq_none_iff.2 absent).symm.trans suspended.here

section
variable {events : List Event} {x : Shutdown}
  (coarse : Shutdown.Runs { session := .begun limit pid capacity } events x)
  (mirrored : Mirrored answers y events x)
include coarse mirrored

/-- While a thread is between its messages it is live, the channel is open and no exit has read the
total. -/
theorem live_of_underway (busy : y.underway name = some u) :
    u.tid ∈ y.session.tracer.roster.live ∧ y.session.tracer.channel.closed = false ∧
      ∀ i, y.read i = none := by
  obtain ⟨guarded, attached, -⟩ := guarded_of_mirrored coarse mirrored
  obtain ⟨b, suspended⟩ := mirrored.underway name u busy
  have handed := attached name b suspended.here
  have live := guarded.live name b suspended.here handed
  rw [suspended.tid] at live
  rw [mirrored.roster, mirrored.read]
  refine ⟨live, mirrored.closed.trans (guarded.isOpen suspended.here handed), fun i => ?_⟩
  cases read : x.read i with
  | none => rfl
  | some n =>
    rw [guarded.idle i n read] at live
    cases live

/-- Nothing that the threads send is refused because the channel is closed. -/
theorem unrefused_of_answered {a : Answered} (mem : a ∈ answers) : a.outcome.refused = false := by
  obtain ⟨-, -, fair⟩ := guarded_of_mirrored coarse mirrored
  rw [← mirrored.answers] at mem
  obtain ⟨e, among, rfl⟩ := List.mem_map.1 mem
  cases here : e.buffer? with
  | none =>
    rw [← ((coarse.descends List.nodup_nil).2 e among).acted]
    exact (mirrored.threaded e among).1.refused_of_vacant here e.machine
  | some b =>
    obtain ⟨handled, isOpen⟩ := coarse.handled (Shutdown.guarded_begun limit pid capacity)
      (fun e mem => (fair e mem).1) e among
    by_contra refused
    rw [Bool.not_eq_false] at refused
    cases (handled.refused refused).symm.trans (isOpen b here ((fair e among).2 b here))

/-- When the channel is closed no thread is left, and none is between its messages. -/
theorem vacant_of_closed (closed : y.session.tracer.channel.closed = true) :
    y.session.tracer.roster.live = [] ∧
      ∀ name, y.session.buffers.get? name = none ∧ y.underway name = none := by
  obtain ⟨guarded, attached, -⟩ := guarded_of_mirrored coarse mirrored
  rw [mirrored.closed] at closed
  obtain ⟨i, n, returned⟩ := guarded.closed closed
  have vacant : ∀ name, x.session.buffers.get? name = none := by
    intro name
    cases here : x.session.buffers.get? name with
    | none => rfl
    | some b => cases closed.symm.trans (guarded.isOpen here (attached name b here))
  rw [mirrored.roster, mirrored.buffers]
  refine ⟨guarded.idle i n (guarded.returned i n returned), fun name => ⟨vacant name, ?_⟩⟩
  cases busy : y.underway name with
  | none => rfl
  | some u =>
    obtain ⟨b, suspended⟩ := mirrored.underway name u busy
    cases (vacant name).symm.trans suspended.here

/-- Once an exit was begun no thread starts, and threads only end. -/
theorem unstarted_of_exits (exits : y.session.exits ≠ #[]) {later : List Answered} {y' : Split}
    (runs : Runs y later y') : (∀ a ∈ later, a.started? = none) ∧
      y'.session.tracer.roster.live ⊆ y.session.tracer.roster.live := by
  obtain ⟨guarded, -⟩ := guarded_of_mirrored coarse mirrored
  obtain ⟨more, x', after, all, mirrored'⟩ := runs.mirroredFrom coarse mirrored
  obtain ⟨-, -, fair⟩ := guarded_of_mirrored all mirrored'
  rw [mirrored.exits] at exits
  obtain ⟨-, unstarted, fewer⟩ :=
    after.ending guarded (fun e mem => (fair e (List.mem_append_right _ mem)).1) exits
  have answered := mirrored'.answers
  rw [List.map_append, mirrored.answers, List.append_cancel_left_eq] at answered
  rw [mirrored'.roster, mirrored.roster]
  refine ⟨fun a mem => ?_, fewer⟩
  rw [← answered] at mem
  obtain ⟨e, among, rfl⟩ := List.mem_map.1 mem
  exact unstarted e among

end

/-- While a thread is between its messages it is live, the channel is open and no exit has read the
total. So nothing that a thread sends is refused, the channel is closed only when no thread is left,
all exits return the same total, and once an exit was begun no thread starts. -/
theorem Runs.closes (runs : Runs (begun limit pid capacity) answers y) :
    (∀ name u, y.underway name = some u → u.tid ∈ y.session.tracer.roster.live ∧
      y.session.tracer.channel.closed = false ∧ ∀ i, y.read i = none) ∧
    (∀ a ∈ answers, a.outcome.refused = false) ∧
    (y.session.tracer.channel.closed = true → y.session.tracer.roster.live = [] ∧
      ∀ name, y.session.buffers.get? name = none ∧ y.underway name = none) ∧
    (∀ i j n m : Nat, y.session.exits[i]? = some (some n) → y.session.exits[j]? = some (some m) →
      n = m) ∧
    (y.session.exits ≠ #[] → ∀ later y', Runs y later y' → (∀ a ∈ later, a.started? = none) ∧
      y'.session.tracer.roster.live ⊆ y.session.tracer.roster.live) := by
  obtain ⟨events, x, coarse, mirrored⟩ := runs.mirrored
  have total : ∀ i n : Nat, y.session.exits[i]? = some (some n) →
      x.session.tracer.roster.total = n := by
    intro i n returned
    obtain ⟨guarded, -⟩ := guarded_of_mirrored coarse mirrored
    rw [mirrored.exits] at returned
    exact guarded.total i n (guarded.returned i n returned)
  exact ⟨fun name u => live_of_underway coarse mirrored,
    fun a => unrefused_of_answered coarse mirrored, vacant_of_closed coarse mirrored,
    fun i j n m first second => (total i n first).symm.trans (total j m second),
    fun exits later y' => unstarted_of_exits coarse mirrored exits⟩

end Split

end AccessTrace
