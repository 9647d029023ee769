import Mathlib
import AccessTrace.Proofs.Runs

/-!
# Threads that are started again

A thread may be started again after it has ended, with a new buffer that has not registered. Every
buffer that sends anything registers its thread, so that the stream has as many registrations of a
thread as it had buffers that did (`registrations_of_run`); from the second on it is rejected.
-/

namespace AccessTrace

/-- Whether a record says a process. -/
def isProcess : Except StreamError Entry → Bool
  | .ok e => e.kind = .process
  | .error _ => false

/-- The number of registrations of a thread in a stream: its header with a process right behind. -/
def registrationPairs (tid : UInt64) : List (Except StreamError Entry) → Nat
  | a :: b :: rest =>
    (if a = .ok (Entry.thread tid) ∧ isProcess b = true then 1 else 0) +
      registrationPairs tid (b :: rest)
  | _ => 0

namespace Log

variable {log : Log} {pid : UInt32} {tid : UInt64}

theorem Orderly.events_of_payload (orderly : Orderly log) {t : UInt64} {es : List Entry}
    (mem : .payload t es ∈ log) : ∀ e ∈ es, e.kind.isEvent = true := by
  induction orderly with
  | nil => cases mem
  | registration _ _ ih =>
    rcases List.mem_append.1 mem with old | new
    · exact ih old
    · cases List.mem_singleton.1 new
  | payload _ _ events ih =>
    rcases List.mem_append.1 mem with old | new
    · exact ih old
    · cases List.mem_singleton.1 new
      exact events

/-- What is not followed by a process is no registration. -/
theorem pairs_cons {a : Except StreamError Entry} {rest : List (Except StreamError Entry)}
    (other : a ≠ .ok (Entry.thread tid) ∨ ∀ b ∈ rest.head?, isProcess b = false) :
    registrationPairs tid (a :: rest) = registrationPairs tid rest := by
  cases rest with
  | nil => rfl
  | cons b rest =>
    rw [registrationPairs, if_neg, Nat.zero_add]
    rintro ⟨header, process⟩
    rcases other with differs | noProcess
    · exact differs header
    · rw [noProcess b rfl] at process
      cases process

theorem pairs_events {es : List Entry} (events : ∀ e ∈ es, e.kind.isEvent = true)
    (rest : List (Except StreamError Entry)) :
    registrationPairs tid (es.map .ok ++ rest) = registrationPairs tid rest := by
  induction es with
  | nil => rfl
  | cons e es ih =>
    rw [List.map_cons, List.cons_append, pairs_cons (.inl ?_)]
    · exact ih fun e' mem => events e' (List.mem_cons_of_mem _ mem)
    · rintro ⟨⟩
      have event := events _ List.mem_cons_self
      cases event

/-- A log begins with a header. -/
theorem head_entries (pid : UInt32) (log : Log) :
    ∀ b ∈ ((Log.entries pid log).map (Except.ok (ε := StreamError))).head?,
      isProcess b = false := by
  cases log with
  | nil => intro b mem; cases mem
  | cons m log =>
    intro b mem
    cases m with
    | registration t => cases mem; rfl
    | payload t es => cases mem; rfl

/-- A log has one pair of headers for every registration. -/
theorem pairs_entries (events : ∀ t es, .payload t es ∈ log → ∀ e ∈ es, e.kind.isEvent = true) :
    registrationPairs tid ((log.entries pid).map .ok) = log.registrations.count tid := by
  induction log with
  | nil => rfl
  | cons m log ih =>
    have rest := ih fun t es mem => events t es (List.mem_cons_of_mem _ mem)
    have head := head_entries pid log
    rw [entries, List.flatMap_cons, ← entries, List.map_append, registrations, List.filterMap_cons,
      ← registrations]
    cases m with
    | registration t =>
      have process : registrationPairs tid
          (.ok (Entry.process pid) :: (Log.entries pid log).map .ok) =
          registrationPairs tid ((Log.entries pid log).map .ok) := by
        apply pairs_cons
        left
        rintro ⟨⟩
      have same : (Except.ok (ε := StreamError) (Entry.thread t) = .ok (Entry.thread tid)) ↔
          (t == tid) = true := by
        simp [Entry.thread]
      rw [Message.registers?, List.count_cons, ← rest, ← process, Nat.add_comm]
      change (if _ ∧ isProcess (.ok (Entry.process pid)) = true then 1 else 0) + _ = _
      simp only [same, isProcess, Entry.process, decide_true, and_true]
      rfl
    | payload t es =>
      have listed := events t es List.mem_cons_self
      rw [Message.registers?, ← rest, Message.entries, List.map_cons, List.cons_append,
        pairs_cons (.inr ?_), pairs_events listed]
      intro b mem
      cases es with
      | nil => exact head b mem
      | cons e es =>
        obtain rfl : .ok e = b := by simpa using mem
        have event := listed e List.mem_cons_self
        rw [isProcess, decide_eq_false_iff_not]
        intro process
        rw [process] at event
        cases event

end Log

namespace Session

variable {pid : UInt32} {capacity : Nat} {events : List Event} {s : Session}
  {name machineName : String}

/-- No thread has registered more often than it was started, and one that runs and has not
registered less often. -/
structure Counted (registered started : List UInt64) (s : Session) : Prop where
  all : ∀ tid, registered.count tid ≤ started.count tid
  running : ∀ name b, s.buffers.get? name = some b → b.registered = false →
    registered.count b.tid < started.count b.tid

theorem Counted.turned {log : Log} {s' : Session} {registered started new : List UInt64}
    {es es' added : List Entry} {told : Log} (counted : Counted registered started s)
    (sound : Sound pid log s) (turned : Turned s s' name machineName es es' added told)
    (starts : ∀ b, s.buffers.get? name = none → s'.buffers.get? name = some b → new = [b.tid]) :
    Counted (registered ++ told.registrations) (started ++ new) s' where
  all := by
    intro tid
    rw [List.count_append, List.count_append]
    have before := counted.all tid
    rcases turned.turn.registers_own with nothing | ⟨b, here, unregistered, own⟩
    · rw [nothing, List.count_nil]
      omega
    · rw [own, List.count_singleton]
      split
      · rename_i same
        have room := counted.running name b here unregistered
        rw [beq_iff_eq.1 same] at room
        omega
      · omega
  running := by
    intro other b' here unregistered
    rw [List.count_append, List.count_append]
    by_cases same : other = name
    · subst same
      have turn := turned.turn
      rw [here] at turn
      obtain ⟨nothing, kept⟩ := turn.unregistered unregistered
      rw [nothing, List.count_nil]
      cases before : s.buffers.get? other with
      | none =>
        have all := counted.all b'.tid
        rw [starts b' before here, List.count_singleton_self]
        omega
      | some b =>
        obtain ⟨unregistered, tid⟩ := kept b before
        have room := counted.running other b before unregistered
        rw [tid]
        omega
    · rw [turned.elsewhere.buffers other same] at here
      have room := counted.running other b' here unregistered
      rcases turned.turn.registers_own with nothing | ⟨b, there, _, own⟩
      · rw [nothing, List.count_nil]
        omega
      · have differs : b.tid ≠ b'.tid := fun tid =>
          same (sound.apart other name b' b here there tid.symm)
        rw [own, List.count_singleton, beq_false_of_ne differs]
        simp only [Bool.false_eq_true, if_false]
        omega

theorem Runs.counted (runs : Runs (fresh pid capacity) events s)
    (orderly : ∀ e ∈ events, e.action.Orderly) :
    Counted (events.filterMap Event.registered?) (events.filterMap Event.started?) s := by
  induction runs with
  | nil =>
    refine ⟨fun tid => Nat.le_refl _, fun name b here => ?_⟩
    cases here
  | @act events s name machineName action runs ih =>
    have earlier : ∀ e ∈ events, e.action.Orderly :=
      fun e mem => orderly e (List.mem_append_left _ mem)
    have now : action.Orderly := orderly _ (List.mem_append_right _ List.mem_cons_self)
    obtain ⟨log, sound, registrations⟩ := runs.sound earlier
    obtain ⟨es, empty, holds⟩ := sound.held name
    obtain ⟨es', added, told, turned, _⟩ :=
      turned_of_orderly (sound.ready name empty holds) machineName now
    have counted := (ih earlier).turned sound turned fun b absent here => by
      have started := started?_of_new now absent here
      exact congrArg Option.toList started
    rw [turned.turn.registrations] at counted
    have single : ∀ f : Event → Option UInt64,
        [s.event name machineName action].filterMap f =
          (f (s.event name machineName action)).toList := by
      intro f
      rw [List.filterMap_cons]
      cases f (s.event name machineName action) <;> rfl
    rw [List.filterMap_append, List.filterMap_append, single, single]
    exact counted
  | beginExit _ ih => exact ⟨(ih orderly).all, (ih orderly).running⟩
  | @settle events s _ ih =>
    refine ⟨(ih orderly).all, fun name b here => (ih orderly).running name b ?_⟩
    rw [← (settle_threads s).1]
    exact here

/-- A stream has as many registrations of a thread as the run registered it, and no more than the
thread was started. It is accepted exactly if the run registered no thread twice, and is rejected
for such a thread otherwise. -/
theorem registrations_of_run (runs : Runs (fresh pid capacity) events s)
    (orderly : ∀ e ∈ events, e.action.Orderly) :
    (∀ tid, registrationPairs tid (records s.tracer.channel.stream) =
      (events.filterMap Event.registered?).count tid) ∧
    ((events.filterMap Event.registered?).Nodup →
      ∃ h, History.ofBytes s.tracer.channel.stream = .ok h) ∧
    (¬ (events.filterMap Event.registered?).Nodup →
      ∃ tid, History.ofBytes s.tracer.channel.stream = .error (.reregistered tid)) ∧
    ∀ tid, (events.filterMap Event.registered?).count tid ≤
      (events.filterMap Event.started?).count tid := by
  obtain ⟨log, sound, registrations⟩ := runs.sound orderly
  have carries := sound.sent.carries
  obtain ⟨accepted, refused⟩ := sound.orderly.read pid
  rw [← registrations]
  refine ⟨?_, ?_, ?_, ?_⟩
  · intro tid
    rw [Recorder.stream, carries.reads]
    exact Log.pairs_entries fun t es mem => sound.orderly.events_of_payload mem
  · intro once
    obtain ⟨h, _, read, _⟩ := accepted once
    exact ⟨h, (History.ofBytes_eq carries).trans read⟩
  · intro twice
    obtain ⟨tid, read⟩ := refused twice
    exact ⟨tid, (History.ofBytes_eq carries).trans read⟩
  · rw [registrations]
    exact (runs.counted orderly).all

/-- A session in which a thread was started and has ended. -/
def endedOnce : Session :=
  (((fresh 1 2).act "t" "m" (.start 1)).2.act "t" "m" .finish).2

theorem registrations_of_run_once : ∃ events, Runs (fresh 1 2) events endedOnce ∧
    events.filterMap Event.registered? = [1] ∧
    registrationPairs 1 (records endedOnce.tracer.channel.stream) = 1 ∧
    ∃ h, History.ofBytes endedOnce.tracer.channel.stream = .ok h := by
  have runs : Runs (fresh 1 2) _ endedOnce := .act "t" "m" .finish (.act "t" "m" (.start 1) .nil)
  have orderly : ∀ e ∈ ([] ++ [(fresh 1 2).event "t" "m" (.start 1)]) ++
      [((fresh 1 2).act "t" "m" (.start 1)).2.event "t" "m" .finish], e.action.Orderly := by
    intro e mem
    rcases List.mem_append.1 mem with first | second
    · rw [List.mem_singleton.1 first]
      trivial
    · rw [List.mem_singleton.1 second]
      trivial
  obtain ⟨pairs, accepted, _, _⟩ := registrations_of_run runs orderly
  have once : (([] ++ [(fresh 1 2).event "t" "m" (.start 1)]) ++
      [((fresh 1 2).act "t" "m" (.start 1)).2.event "t" "m" .finish]).filterMap
        Event.registered? = [1] := by decide +kernel
  refine ⟨_, runs, once, ?_, accepted ?_⟩
  · rw [pairs, once]
    rfl
  · rw [once]
    exact List.nodup_singleton 1

/-- A thread that is started again registers again, and its stream is rejected. -/
theorem registered_again :
    let again := ((endedOnce.act "t" "m" (.start 1)).2.act "t" "m" .finish).2
    registrationPairs 1 (records again.tracer.channel.stream) = 2 ∧
      History.ofBytes again.tracer.channel.stream = .error (.reregistered 1) := by
  refine ⟨by decide +kernel, ?_⟩
  have carries :
      Carries ((endedOnce.act "t" "m" (.start 1)).2.act "t" "m" .finish).2.tracer.channel.stream
        [.thread 1, .process 1, .thread 1, .thread 1, .process 1, .thread 1] :=
    ⟨by decide +kernel, by decide +kernel⟩
  rw [History.ofBytes_eq carries]
  decide +kernel

end Session

end AccessTrace
