import Mathlib
import AccessTrace.Proofs.Handling

/-!
# Ending tracing

An exit is begun, waits until no thread is running and reads the total, and closes the channel in a
step of its own; others may act in between, and other exits may be under way (`Shutdown.Runs`). From
the beginning of an exit on no thread starts (`Guarded`), so that a total once read stays what it
is, and the channel is closed only when no buffer is in use (`closes_after_threads`).
-/

namespace AccessTrace

/-- A session that has just begun, over a recorder with this limit. -/
def Session.begun (limit : Option Nat) (pid : UInt32) (capacity : Nat) : Session where
  tracer := { pid, capacity, channel := { limit } }

/-- A session in which all exits that were begun are over. -/
def Session.settled (s : Session) : Session :=
  { s with
    tracer := s.tracer.close
    exits := s.exits.map fun total => total <|> some s.tracer.roster.total }

theorem Session.settle_eq (s : Session) : s.settle = s ∨
    s.tracer.idle = true ∧ none ∈ s.exits ∧ s.settle = s.settled := by
  unfold Session.settle
  split
  · rename_i settled
    rw [Bool.and_eq_true, Array.contains_iff_mem] at settled
    exact .inr ⟨settled.1, settled.2, rfl⟩
  · exact .inl rfl

theorem Session.settled_eq {s : Session} (ended : none ∉ s.exits)
    (closed : s.tracer.close = s.tracer) : s.settled = s := by
  obtain ⟨tracer, buffers, machines, exits⟩ := s
  simp only [settled, Session.mk.injEq, true_and]
  refine ⟨closed, Array.ext_getElem? fun i => ?_⟩
  rw [Array.getElem?_map]
  rcases here : exits[i]? with _ | (_ | total)
  · rfl
  · exact absurd (Array.mem_iff_getElem?.2 ⟨i, here⟩) ended
  · rfl

namespace Event

/-- Only an exit closes the channel, and only buffers that were handed out are given back. -/
def fair (e : Event) : Bool :=
  match e.action with
  | .close => false
  | .finish => e.buffer?.all (·.attached)
  | _ => true

variable {e : Event}

theorem unclosed_of_fair (fair : e.fair = true) : e.action ≠ .close := by
  intro close
  rw [Event.fair, close] at fair
  cases fair

theorem attached_of_fair (fair : e.fair = true) (finish : e.action = .finish) {b : Buffer}
    (here : e.buffer? = some b) : b.attached = true := by
  rw [Event.fair, finish, here] at fair
  exact fair

end Event

/-- A session with what its exits have read: the total, once no thread was running. -/
structure Shutdown where
  session : Session
  read : Nat → Option Nat := fun _ => none

namespace Shutdown

/-- An exit that finds no thread running reads the total. -/
def wait (x : Shutdown) (i : Nat) : Shutdown :=
  { x with read := Function.update x.read i (some x.session.tracer.roster.total) }

theorem read_wait (x : Shutdown) (i j : Nat) : (x.wait i).read j =
    if j = i then some x.session.tracer.roster.total else x.read j :=
  Function.update_apply _ _ _ _

/-- An exit that has read the total closes the channel and returns it. -/
def close (x : Shutdown) (i total : Nat) : Shutdown :=
  { x with session := { x.session with
      tracer := x.session.tracer.close
      exits := x.session.exits.setIfInBounds i (some total) } }

/-- No exit is begun by one that returns. -/
theorem exits_of_close {x : Shutdown} {i total : Nat}
    (empty : (x.close i total).session.exits = #[]) : x.session.exits = #[] := by
  have size := congrArg Array.size empty
  rw [close, Array.size_setIfInBounds] at size
  exact Array.eq_empty_of_size_eq_zero size

/-- The runs from `x₀`, in which each exit goes step by step. -/
inductive Runs (x₀ : Shutdown) : List Event → Shutdown → Prop
  | nil : Runs x₀ [] x₀
  | act {events : List Event} {x : Shutdown} (name machineName : String) (action : Action) :
    Runs x₀ events x → Runs x₀ (events ++ [x.session.event name machineName action])
      { x with session := (x.session.act name machineName action).2 }
  | begin {events : List Event} {x : Shutdown} : Runs x₀ events x →
    Runs x₀ events { x with session := x.session.beginExit }
  | wait {events : List Event} {x : Shutdown} (i : Nat)
    (waiting : x.session.exits[i]? = some none) (unread : x.read i = none)
    (idle : x.session.tracer.idle = true) : Runs x₀ events x → Runs x₀ events (x.wait i)
  | close {events : List Event} {x : Shutdown} (i total : Nat)
    (waiting : x.session.exits[i]? = some none) (read : x.read i = some total) :
    Runs x₀ events x → Runs x₀ events (x.close i total)

/-- Every buffer that was handed out is that of a live thread of its own, no thread starts once an
exit was begun, and none is left once an exit has read the total, which is final then. -/
structure Guarded (x : Shutdown) : Prop where
  distinct : x.session.buffers.Distinct
  live : ∀ name b, x.session.buffers.get? name = some b → b.attached = true →
    b.tid ∈ x.session.tracer.roster.live
  apart : ∀ name other b c, x.session.buffers.get? name = some b →
    x.session.buffers.get? other = some c → b.attached = true → c.attached = true →
    b.tid = c.tid → name = other
  begun : x.session.exits ≠ #[] → x.session.tracer.roster.exited = true
  unread : ∀ i, x.session.exits.size ≤ i → x.read i = none
  idle : ∀ i n, x.read i = some n → x.session.tracer.roster.live = []
  total : ∀ i n, x.read i = some n → x.session.tracer.roster.total = n
  returned : ∀ (i n : Nat), x.session.exits[i]? = some (some n) → x.read i = some n
  closed : x.session.tracer.channel.closed = true → ∃ i n : Nat, x.session.exits[i]? = some (some n)

variable {x x' : Shutdown} {limit : Option Nat} {pid : UInt32} {capacity : Nat}
  {events : List Event}

theorem guarded_begun (limit : Option Nat) (pid : UInt32) (capacity : Nat) :
    Guarded { session := .begun limit pid capacity } where
  distinct := List.nodup_nil
  live := by intro name b here; cases here
  apart := by intro name other b c here; cases here
  begun := fun some => absurd rfl some
  unread := fun _ _ => rfl
  idle := by intro i n read; cases read
  total := by intro i n read; cases read
  returned := by intro i n returned; simp [Session.begun] at returned
  closed := by intro closed; cases closed

/-- Once an exit has read the total, tracing is over. -/
theorem Guarded.exited (guarded : Guarded x) {i n : Nat} (read : x.read i = some n) :
    x.session.tracer.roster.exited = true := by
  apply guarded.begun
  intro none
  have unread := guarded.unread i (by rw [none]; exact Nat.zero_le i)
  cases unread.symm.trans read

/-- An action that is handled keeps a session guarded. -/
theorem Guarded.handled {e : Event} {read : Nat → Option Nat} (guarded : Guarded ⟨e.before, read⟩)
    (handled : e.Handled) (fair : e.fair = true) : Guarded ⟨e.after, read⟩ := by
  have custody := handled.custody
  have elsewhere := handled.elsewhere
  have own : ∀ b, e.buffer? = some b → b.attached = true → b.tid ∈ e.before.tracer.roster.live :=
    guarded.live e.name
  -- Buffers under other names are those of before, and none of them has the thread of this one.
  have others : ∀ other ≠ e.name, ∀ c, e.after.buffers.get? other = some c → c.attached = true →
      e.before.buffers.get? other = some c ∧ c.tid ∈ e.before.tracer.roster.live ∧
        ∀ b, e.buffer? = some b → b.attached = true → b.tid ≠ c.tid := by
    intro other differs c there attached
    rw [elsewhere.buffers other differs] at there
    refine ⟨there, guarded.live other c there attached, fun b here attached' same => ?_⟩
    exact differs (guarded.apart _ _ b c here there attached' attached same).symm
  -- The buffer under the name has its thread of before, or a new one.
  have apart : ∀ b, e.after.buffers.get? e.name = some b → b.attached = true → ∀ other ≠ e.name,
      ∀ c, e.after.buffers.get? other = some c → c.attached = true → b.tid ≠ c.tid := by
    intro b here attached other differs c there attached' same
    obtain ⟨_, live, unlike⟩ := others other differs c there attached'
    rcases (custody.attached own here attached).2 with new | ⟨b₀, before, was, kept⟩
    · exact new (same ▸ live)
    · exact unlike b₀ before was (kept.symm.trans same)
  refine ⟨elsewhere.distinct guarded.distinct, ?_, ?_, ?_, ?_, ?_, ?_, ?_, ?_⟩
  · intro other b here attached
    by_cases same : other = e.name
    · subst same
      exact (custody.attached own here attached).1
    · obtain ⟨_, live, unlike⟩ := others other same b here attached
      refine custody.live_of_other live fun c there ends => unlike c there ?_
      rcases ends with finish | attached
      · exact Event.attached_of_fair fair finish there
      · exact attached
  · intro first second b c here there attached attached' same
    by_cases isFirst : first = e.name
    · by_cases isSecond : second = e.name
      · rw [isFirst, isSecond]
      · subst isFirst
        exact absurd same (apart b here attached second isSecond c there attached')
    · by_cases isSecond : second = e.name
      · subst isSecond
        exact absurd same.symm (apart c there attached' first isFirst b here attached)
      · exact guarded.apart first second b c (others first isFirst b here attached).1
          (others second isSecond c there attached').1 attached attached' same
  · intro some
    rw [elsewhere.exits] at some
    exact custody.exited.trans (guarded.begun some)
  · intro i beyond
    rw [elsewhere.exits] at beyond
    exact guarded.unread i beyond
  · intro i n read
    rw [custody.quiet (guarded.exited read) (guarded.idle i n read) own fun finish _ =>
      Event.attached_of_fair fair finish]
    exact guarded.idle i n read
  · intro i n read
    rw [custody.quiet (guarded.exited read) (guarded.idle i n read) own fun finish _ =>
      Event.attached_of_fair fair finish]
    exact guarded.total i n read
  · intro i n returned
    rw [elsewhere.exits] at returned
    exact guarded.returned i n returned
  · intro closed
    rw [handled.closed (Event.unclosed_of_fair fair)] at closed
    rw [elsewhere.exits]
    exact guarded.closed closed

theorem Guarded.begin (guarded : Guarded x) :
    Guarded { x with session := x.session.beginExit } where
  distinct := guarded.distinct
  live := guarded.live
  apart := guarded.apart
  begun := fun _ => rfl
  unread := by
    intro i beyond
    rw [Session.beginExit, Array.size_push] at beyond
    exact guarded.unread i (Nat.le_of_succ_le beyond)
  idle := guarded.idle
  total := guarded.total
  returned := by
    intro i n returned
    rw [Session.beginExit, Array.getElem?_push] at returned
    split at returned
    · cases returned
    · exact guarded.returned i n returned
  closed := by
    intro closed
    obtain ⟨i, n, returned⟩ := guarded.closed closed
    refine ⟨i, n, ?_⟩
    obtain ⟨inside, _⟩ := Array.getElem?_eq_some_iff.1 returned
    rw [Session.beginExit, Array.getElem?_push, if_neg (Nat.ne_of_lt inside)]
    exact returned

theorem Guarded.wait (guarded : Guarded x) {i : Nat} (waiting : x.session.exits[i]? = some none)
    (idle : x.session.tracer.idle = true) : Guarded (x.wait i) := by
  obtain ⟨inside, _⟩ := Array.getElem?_eq_some_iff.1 waiting
  have empty : x.session.tracer.roster.live = [] := List.isEmpty_iff.1 idle
  have other : ∀ j n, x.session.exits[j]? = some (some n) → j ≠ i := by
    rintro j n returned rfl
    cases waiting.symm.trans returned
  refine ⟨guarded.distinct, guarded.live, guarded.apart, guarded.begun, ?_, fun _ _ _ => empty, ?_,
    ?_, guarded.closed⟩
  · intro j beyond
    have differs : j ≠ i := (Nat.lt_of_lt_of_le inside beyond).ne'
    rw [read_wait, if_neg differs]
    exact guarded.unread j beyond
  · intro j n read
    rw [read_wait] at read
    split at read
    · exact Option.some.inj read
    · exact guarded.total j n read
  · intro j n returned
    rw [read_wait, if_neg (other j n returned)]
    exact guarded.returned j n returned

theorem Guarded.close (guarded : Guarded x) {i total : Nat}
    (waiting : x.session.exits[i]? = some none) (read : x.read i = some total) :
    Guarded (x.close i total) := by
  obtain ⟨inside, _⟩ := Array.getElem?_eq_some_iff.1 waiting
  refine ⟨guarded.distinct, guarded.live, guarded.apart, fun _ => guarded.exited read, ?_,
    guarded.idle, guarded.total, ?_, fun _ => ⟨i, total, ?_⟩⟩
  · intro j beyond
    rw [Shutdown.close, Array.size_setIfInBounds] at beyond
    exact guarded.unread j beyond
  · intro j n returned
    rw [Shutdown.close, Array.getElem?_setIfInBounds] at returned
    split at returned
    · rename_i same
      subst same
      cases returned
      exact read
    · exact guarded.returned j n returned
  · rw [Shutdown.close, Array.getElem?_setIfInBounds, if_pos rfl, if_pos inside]

theorem Runs.guarded (runs : Runs x events x') (guarded : Guarded x)
    (fair : ∀ e ∈ events, e.fair = true) : Guarded x' := by
  induction runs with
  | nil => exact guarded
  | act name machineName action _ ih =>
    have before := ih fun e mem => fair e (List.mem_append_left _ mem)
    exact before.handled (Session.handled_act before.distinct name machineName action)
      (fair _ (List.mem_append_right _ List.mem_cons_self))
  | begin _ ih => exact (ih fair).begin
  | wait i waiting _ idle _ ih => exact (ih fair).wait waiting idle
  | close i total waiting read _ ih => exact (ih fair).close waiting read

/-- As long as a buffer is in use that was handed out, the channel is open. -/
theorem Guarded.isOpen (guarded : Guarded x) {name : String} {b : Buffer}
    (here : x.session.buffers.get? name = some b) (attached : b.attached = true) :
    x.session.tracer.channel.closed = false := by
  by_contra closed
  rw [Bool.not_eq_false] at closed
  obtain ⟨i, n, returned⟩ := guarded.closed closed
  have live := guarded.live name b here attached
  rw [guarded.idle i n (guarded.returned i n returned)] at live
  cases live

/-- What is known of each action of a run: it is handled, and the channel was open if its buffer was
handed out. -/
theorem Runs.handled (runs : Runs x events x') (guarded : Guarded x)
    (fair : ∀ e ∈ events, e.fair = true) :
    ∀ e ∈ events, e.Handled ∧ ∀ b, e.buffer? = some b → b.attached = true →
      e.before.tracer.channel.closed = false := by
  induction runs with
  | nil => exact fun e mem => absurd mem List.not_mem_nil
  | @act events x' name machineName action runs ih =>
    have earlier : ∀ e ∈ events, e.fair = true := fun e mem => fair e (List.mem_append_left _ mem)
    intro e mem
    rcases List.mem_append.1 mem with old | new
    · exact ih earlier e old
    · have before := runs.guarded guarded earlier
      rw [List.mem_singleton.1 new]
      exact ⟨Session.handled_act before.distinct name machineName action,
        fun b here attached => before.isOpen here attached⟩
  | begin _ ih => exact ih fair
  | wait _ _ _ _ _ ih => exact ih fair
  | close _ _ _ _ _ ih => exact ih fair

/-- Once an exit was begun no thread starts, and threads only end. -/
theorem Runs.ending (runs : Runs x events x') (guarded : Guarded x)
    (fair : ∀ e ∈ events, e.fair = true) (begun : x.session.exits ≠ #[]) :
    x'.session.exits ≠ #[] ∧
      (∀ e ∈ events, e.started? = none) ∧
      x'.session.tracer.roster.live ⊆ x.session.tracer.roster.live := by
  induction runs with
  | nil => exact ⟨begun, fun e mem => absurd mem List.not_mem_nil, List.Subset.refl _⟩
  | @act events x' name machineName action runs ih =>
    have earlier : ∀ e ∈ events, e.fair = true := fun e mem => fair e (List.mem_append_left _ mem)
    obtain ⟨still, quiet, fewer⟩ := ih earlier
    have before := runs.guarded guarded earlier
    have handled := Session.handled_act before.distinct name machineName action
    obtain ⟨unstarted, subset⟩ := handled.custody.ending (before.begun still)
    refine ⟨?_, fun e mem => ?_, fun tid live => fewer (subset live)⟩
    · rw [show (x'.session.act name machineName action).2.exits = x'.session.exits from
        handled.elsewhere.exits]
      exact still
    · rcases List.mem_append.1 mem with old | new
      · exact quiet e old
      · rw [List.mem_singleton.1 new]
        exact unstarted
  | begin _ ih =>
    obtain ⟨_, quiet, fewer⟩ := ih fair
    exact ⟨Array.push_ne_empty, quiet, fewer⟩
  | wait _ _ _ _ _ ih => exact ih fair
  | close _ _ _ _ _ ih =>
    obtain ⟨still, quiet, fewer⟩ := ih fair
    exact ⟨fun empty => still (exits_of_close empty), quiet, fewer⟩

/-- When one of the exits that wait has ended, the others are left to end as before. -/
theorem settled_close {i : Nat} (waiting : x.session.exits[i]? = some none) :
    ((x.wait i).close i x.session.tracer.roster.total).session.settled = x.session.settled ∧
      ((x.wait i).close i x.session.tracer.roster.total).session.exits.count none <
        x.session.exits.count none := by
  obtain ⟨inside, here⟩ := Array.getElem?_eq_some_iff.1 waiting
  constructor
  · simp only [Session.settled, Shutdown.close, Shutdown.wait, Session.mk.injEq, true_and]
    refine ⟨rfl, Array.ext_getElem? fun j => ?_⟩
    rw [Array.getElem?_map, Array.getElem?_map, Array.getElem?_setIfInBounds]
    split
    · rename_i same
      rw [← same, waiting]
      rfl
    · rfl
  · have some := Array.count_pos_iff.2 (Array.mem_iff_getElem?.2 ⟨i, waiting⟩)
    simp only [Shutdown.close, Shutdown.wait, Array.setIfInBounds_def, dif_pos inside,
      Array.count_set, here]
    simpa using some

/-- Exits that wait can all end when no thread is running. -/
theorem Runs.settled {x₀ : Shutdown} (runs : Runs x₀ events x)
    (idle : x.session.tracer.idle = true) (waits : none ∈ x.session.exits)
    (unread : ∀ i : Nat, x.session.exits[i]? = some none → x.read i = none) :
    ∃ read, Runs x₀ events ⟨x.session.settled, read⟩ ∧
      ∀ i, x.session.exits.size ≤ i → read i = x.read i := by
  induction count : x.session.exits.count none using Nat.strong_induction_on generalizing x with
  | h n ih =>
    obtain ⟨i, waiting⟩ := Array.mem_iff_getElem?.1 waits
    obtain ⟨same, fewer⟩ := settled_close waiting
    obtain ⟨inside, _⟩ := Array.getElem?_eq_some_iff.1 waiting
    have read : (x.wait i).read i = some x.session.tracer.roster.total := by
      rw [read_wait, if_pos rfl]
    have ended := Runs.close (x := x.wait i) i _ waiting read
      (runs.wait i waiting (unread i waiting) idle)
    have beyond : ∀ j, x.session.exits.size ≤ j → (x.wait i).read j = x.read j := by
      intro j outside
      rw [read_wait, if_neg (Nat.lt_of_lt_of_le inside outside).ne']
    by_cases more : none ∈ ((x.wait i).close i x.session.tracer.roster.total).session.exits
    · have unread' : ∀ j : Nat,
          ((x.wait i).close i x.session.tracer.roster.total).session.exits[j]? = some none →
            (x.wait i).read j = none := by
        intro j waiting'
        simp only [Shutdown.close, Shutdown.wait] at waiting'
        rw [Array.getElem?_setIfInBounds] at waiting'
        split at waiting'
        · cases waiting'
        · rename_i differs
          rw [read_wait, if_neg (Ne.symm differs)]
          exact unread j waiting'
      obtain ⟨read', settled, kept⟩ := ih _ (count ▸ fewer) ended idle more unread' rfl
      rw [same] at settled
      refine ⟨read', settled, fun j outside => (kept j ?_).trans (beyond j outside)⟩
      rw [Shutdown.close, Array.size_setIfInBounds]
      exact outside
    · refine ⟨(x.wait i).read, ?_, beyond⟩
      rw [← same, Session.settled_eq more rfl]
      exact ended

/-- A run of a session is one in which the exits that wait end all at once. -/
theorem runs_of_session {s₀ s : Session} (runs : s₀.Runs events s)
    (distinct : s₀.buffers.Distinct) : ∃ read, Runs { session := s₀ } events ⟨s, read⟩ := by
  suffices steps : s.buffers.Distinct ∧ ∃ read, Runs { session := s₀ } events ⟨s, read⟩ ∧
      ∀ i : Nat, (∀ n : Nat, s.exits[i]? ≠ some (some n)) → read i = none by
    obtain ⟨_, read, runs, _⟩ := steps
    exact ⟨read, runs⟩
  induction runs with
  | nil => exact ⟨distinct, _, .nil, fun _ _ => rfl⟩
  | @act events s name machineName action runs ih =>
    obtain ⟨apart, read, steps, unread⟩ := ih
    have elsewhere := (Session.handled_act apart name machineName action).elsewhere
    refine ⟨elsewhere.distinct apart, read, steps.act name machineName action, ?_⟩
    intro i waiting
    refine unread i fun n returned => waiting n ?_
    rw [show (s.act name machineName action).2.exits = s.exits from elsewhere.exits]
    exact returned
  | @beginExit events s runs ih =>
    obtain ⟨apart, read, steps, unread⟩ := ih
    refine ⟨apart, read, steps.begin, fun i waiting => unread i fun n returned => waiting n ?_⟩
    obtain ⟨inside, _⟩ := Array.getElem?_eq_some_iff.1 returned
    rw [Session.beginExit, Array.getElem?_push, if_neg (Nat.ne_of_lt inside)]
    exact returned
  | @settle events s runs ih =>
    obtain ⟨apart, read, steps, unread⟩ := ih
    rcases s.settle_eq with same | ⟨idle, waits, same⟩
    · rw [same]
      exact ⟨apart, read, steps, unread⟩
    · rw [same]
      obtain ⟨read', settled, kept⟩ := steps.settled idle waits fun i waiting =>
        unread i fun n returned => by cases waiting.symm.trans returned
      refine ⟨apart, read', settled, fun i waiting => ?_⟩
      -- All exits are over, so that this is none of them.
      have outside : s.exits.size ≤ i := by
        by_contra inside
        obtain ⟨total, here⟩ : ∃ total, s.exits[i]? = some total :=
          ⟨_, Array.getElem?_eq_getElem (Nat.lt_of_not_le inside)⟩
        have ended : s.settled.exits[i]? = some (total <|> some s.tracer.roster.total) := by
          rw [Session.settled, Array.getElem?_map, here]
          rfl
        cases total with
        | none => exact waiting _ ended
        | some n => exact waiting n ended
      rw [kept i outside]
      refine unread i fun n returned => ?_
      obtain ⟨inside, _⟩ := Array.getElem?_eq_some_iff.1 returned
      exact absurd inside (Nat.not_lt.2 outside)

/-- The channel is closed only when no thread is running and no buffer is in use, so that nothing
that is sent from a buffer in use is refused; all exits return the same total; and from the
beginning of an exit on no thread starts, and threads only end. -/
theorem closes_after_threads (runs : Runs { session := .begun limit pid capacity } events x)
    (fair : ∀ e ∈ events, e.fair = true) :
    (x.session.tracer.channel.closed = true → x.session.tracer.roster.live = [] ∧
      ∀ name b, x.session.buffers.get? name = some b → b.attached = false) ∧
    (∀ e ∈ events, ∀ b, e.buffer? = some b → b.attached = true → e.outcome.refused = false) ∧
    (∀ i j n m : Nat, x.session.exits[i]? = some (some n) → x.session.exits[j]? = some (some m) →
      n = m) ∧
    (x.session.exits ≠ #[] → ∀ later x', Runs x later x' → (∀ e ∈ later, e.fair = true) →
      (∀ e ∈ later, e.started? = none) ∧
      x'.session.tracer.roster.live ⊆ x.session.tracer.roster.live) := by
  have begun := guarded_begun limit pid capacity
  have guarded := runs.guarded begun fair
  refine ⟨fun closed => ?_, fun e mem b here attached => ?_, ?_, ?_⟩
  · obtain ⟨i, n, returned⟩ := guarded.closed closed
    refine ⟨guarded.idle i n (guarded.returned i n returned), fun name b here => ?_⟩
    by_contra attached
    rw [Bool.not_eq_false] at attached
    cases closed.symm.trans (guarded.isOpen here attached)
  · obtain ⟨handled, isOpen⟩ := runs.handled begun fair e mem
    by_contra refused
    rw [Bool.not_eq_false] at refused
    cases (handled.refused refused).symm.trans (isOpen b here attached)
  · intro i j n m first second
    have total := guarded.total i n (guarded.returned i n first)
    exact total.symm.trans (guarded.total j m (guarded.returned j m second))
  · intro exits later x' runs' fair'
    exact (runs'.ending guarded fair' exits).2

/-- Two exits wait for a thread, which ends when both were begun; the second closes the channel
first. -/
theorem closes_after_threads_twice : ∃ events x,
    Runs { session := .begun none 1 2 } events x ∧ events.length = 2 ∧
      x.session.exits = #[some 1, some 1] ∧ x.session.tracer.channel.closed = true ∧
      x.session.tracer.roster.live = [] ∧ ∀ e ∈ events, e.outcome.refused = false := by
  have start : Runs { session := .begun none 1 2 } [] _ := .nil
  have begun := Runs.begin (.begin (.act "t" "m" (.start 1) start))
  have ended := Runs.act "t" "m" .finish begun
  have first := Runs.wait 0 (by decide +kernel) rfl (by decide +kernel) ended
  have second := Runs.wait 1 (by decide +kernel) (by decide +kernel) (by decide +kernel) first
  have closed := Runs.close 1 1 (by decide +kernel) (by decide +kernel) second
  have runs := Runs.close 0 1 (by decide +kernel) (by decide +kernel) closed
  obtain ⟨idle, accepted, _, _⟩ := closes_after_threads runs (by decide +kernel)
  exact ⟨_, _, runs, rfl, by decide +kernel, by decide +kernel, (idle (by decide +kernel)).1,
    by decide +kernel⟩

end Shutdown

end AccessTrace
