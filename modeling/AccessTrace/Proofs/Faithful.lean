import Mathlib
import AccessTrace.Proofs.TracedThreads

/-!
# Histories are faithful

In whatever order traced threads take turns, and whenever tracing is ended meanwhile, the stream is
accepted, and the history of each thread for which all went well is what its instructions called for
(`history_of_run`). Along a run every thread is at its stage and none has registered twice
(`Staged`).
-/

namespace AccessTrace

namespace Session

/-- A run is one of these threads: each acts on its own machine, and does what it is to do in its
order. -/
structure Follows (threads : List TracedThread) (events : List Event) : Prop where
  own : ∀ e ∈ events, e.machine = e.name ∧ ∃ th ∈ threads, th.name = e.name
  order : ∀ th ∈ threads, (th.part events).map (·.action) <+: th.actions

variable {threads : List TracedThread} {events : List Event} {s : Session} {pid : UInt32}
  {capacity : Nat} {scheme : Instrumentation}

theorem Follows.earlier {later : List Event} (follows : Follows threads (events ++ later)) :
    Follows threads events where
  own := fun e mem => follows.own e (List.mem_append_left _ mem)
  order := by
    intro th mem
    have all := follows.order th mem
    rw [TracedThread.part_append, List.map_append] at all
    exact (List.prefix_append _ _).trans all

/-- Where a run of threads is: each thread is at its stage, and none has registered twice. -/
structure Staged (pid : UInt32) (fetches : Bool) (threads : List TracedThread)
    (events : List Event) (log : Log) (s : Session) : Prop where
  sound : Sound pid log s
  once : log.registrations.Nodup
  stages : ∀ th ∈ threads, th.Stage fetches log s (th.part events)

variable {log : Log}

theorem staged_fresh (pid : UInt32) (capacity : Nat) (fetches : Bool)
    (threads : List TracedThread) : Staged pid fetches threads [] [] (fresh pid capacity) where
  sound := sound_fresh pid capacity
  once := List.nodup_nil
  stages := fun _ _ => .waiting rfl rfl List.not_mem_nil

/-- What a thread does next is its turn, takes it to its next stage and leaves the others at
theirs. -/
theorem Staged.act (staged : Staged pid scheme.fetches threads events log s)
    (names : (threads.map (·.name)).Nodup) (tids : (threads.map (·.tid)).Nodup)
    {th : TracedThread} (mem : th ∈ threads) (planned : ∀ d ∈ th.deeds, d.Planned scheme)
    {action : Action} (next : (th.part events).map (·.action) ++ [action] <+: th.actions) :
    ∃ es es' added told,
      Turned s (s.act th.name th.name action).2 th.name th.name es es' added told ∧
      Staged pid scheme.fetches threads (events ++ [s.event th.name th.name action])
        (log ++ told) (s.act th.name th.name action).2 := by
  have stage := staged.stages th mem
  obtain ⟨es, es', added, told, stepped⟩ := stage.step staged.sound planned next
  obtain ⟨turn, elsewhere⟩ := stepped.turned
  refine ⟨es, es', added, told, stepped.turned,
    staged.sound.turned stepped.turned stepped.holds, ?_, ?_⟩
  · rw [Log.registrations_append]
    rcases turn.registers_own with nothing | ⟨b, here, unregistered, own⟩
    · rw [nothing, List.append_nil]
      exact staged.once
    · obtain ⟨tid, new⟩ := stage.buffer here
      rw [own, List.nodup_append_comm, tid]
      exact List.nodup_cons.2 ⟨new unregistered, staged.once⟩
  · intro other mem'
    by_cases same : other.name = th.name
    · obtain rfl := List.inj_on_of_nodup_map names mem' mem same
      rw [TracedThread.part_own rfl]
      exact stepped.stage
    · have differs : ∀ b, s.buffers.get? th.name = some b → b.tid ≠ other.tid := by
        intro b here tid
        rw [(stage.buffer here).1] at tid
        exact same (congrArg _ (List.inj_on_of_nodup_map tids mem' mem tid.symm))
      obtain ⟨silent, apart⟩ := turn.silent other.tid differs
      rw [TracedThread.part_other (Ne.symm same)]
      exact (staged.stages other mem').other (elsewhere.buffers _ same)
        (elsewhere.machines _ same) silent apart

/-- Where no thread acts, all stay where they are. -/
theorem Staged.quiet {fetches : Bool} {s' : Session}
    (staged : Staged pid fetches threads events log s) (sound : Sound pid log s')
    (buffers : s'.buffers = s.buffers) (machines : s'.machines = s.machines) :
    Staged pid fetches threads events log s' where
  sound := sound
  once := staged.once
  stages := by
    intro th mem
    rw [← List.append_nil log]
    apply (staged.stages th mem).other _ _ rfl List.not_mem_nil
    · rw [buffers]
    · rw [machine, machine, machines]

theorem Runs.staged (runs : Runs (fresh pid capacity) events s)
    (names : (threads.map (·.name)).Nodup) (tids : (threads.map (·.tid)).Nodup)
    (planned : ∀ th ∈ threads, ∀ d ∈ th.deeds, d.Planned scheme)
    (follows : Follows threads events) :
    ∃ log, Staged pid scheme.fetches threads events log s := by
  induction runs with
  | nil => exact ⟨[], staged_fresh pid capacity _ threads⟩
  | @act events s name machineName action _ ih =>
    obtain ⟨log, staged⟩ := ih follows.earlier
    obtain ⟨ownMachine, th, mem, ownName⟩ :=
      follows.own _ (List.mem_append_right _ List.mem_cons_self)
    obtain rfl : machineName = name := ownMachine
    obtain rfl : th.name = machineName := ownName
    have next := follows.order th mem
    rw [TracedThread.part_own rfl, List.map_append] at next
    obtain ⟨_, _, _, told, _, staged'⟩ := staged.act names tids mem (planned th mem) next
    exact ⟨_, staged'⟩
  | beginExit _ ih =>
    obtain ⟨log, staged⟩ := ih follows
    exact ⟨log, staged.quiet staged.sound.beginExit rfl rfl⟩
  | @settle events s _ ih =>
    obtain ⟨log, staged⟩ := ih follows
    obtain ⟨buffers, machines⟩ := settle_threads s
    exact ⟨log, staged.quiet staged.sound.settle buffers machines⟩

/-- The stream of a run of traced threads is accepted, and the history of a thread that has ended,
and for which all went well, has its process and exactly the entries that its instructions called
for, in order. -/
theorem history_of_run (runs : Runs (fresh pid capacity) events s)
    (names : (threads.map (·.name)).Nodup) (tids : (threads.map (·.tid)).Nodup)
    (planned : ∀ th ∈ threads, ∀ d ∈ th.deeds, d.Planned scheme)
    (follows : Follows threads events) :
    ∃ history, History.ofBytes s.tracer.channel.stream = .ok history ∧
      ∀ th ∈ threads, (th.part events).map (·.action) = th.actions →
        (∀ e ∈ th.part events, e.succeeded = true) →
        ∃ h, history.thread? th.tid = some h ∧ h.pid = some pid ∧
          h.events.toList = Deed.calledAll scheme.fetches {} th.deeds := by
  obtain ⟨log, sound, once, stages⟩ := runs.staged names tids planned follows
  obtain ⟨history, current, read, stands, _⟩ := (sound.orderly.read pid).accepted once
  refine ⟨history, (History.ofBytes_eq sound.sent.carries).trans read, ?_⟩
  intro th mem all well
  obtain ⟨registered, called⟩ := (stages th mem).complete all well
  refine ⟨_, (stands.threads th.tid).trans (if_pos registered), rfl, ?_⟩
  rw [List.toList_toArray]
  exact called

/-- The session after threads have acted one after the other. -/
def actAll (s : Session) : List (String × Action) → Session
  | [] => s
  | (name, action) :: rest => actAll (s.act name name action).2 rest

/-- The events of that. -/
def eventsAll (s : Session) : List (String × Action) → List Event
  | [] => []
  | (name, action) :: rest =>
    s.event name name action :: eventsAll (s.act name name action).2 rest

theorem actions_eventsAll (s : Session) (steps : List (String × Action)) :
    (s.eventsAll steps).map (·.action) = steps.map Prod.snd := by
  induction steps generalizing s with
  | nil => rfl
  | cons step rest ih =>
    obtain ⟨name, action⟩ := step
    rw [eventsAll, List.map_cons, List.map_cons, ih]
    rfl

theorem Runs.actAll {s₀ : Session} (runs : Runs s₀ events s) (steps : List (String × Action)) :
    Runs s₀ (events ++ s.eventsAll steps) (s.actAll steps) := by
  induction steps generalizing s events with
  | nil =>
    rw [eventsAll, List.append_nil]
    exact runs
  | cons step rest ih =>
    obtain ⟨name, action⟩ := step
    have run := ih (runs.act name name action)
    rw [List.append_assoc] at run
    exact run

/-- A store of eight bytes. -/
def plainStore : Instruction where
  pc := 8192
  opcode := 9
  length := 3
  destinations := [.memory { base := some 5, disp := 16, size := 8 }]

/-- Every instruction gets an entry of its own. -/
def fetching : Instrumentation where
  architecture := .x86
  fetches := true

/-- A thread that loads through the scratch registers. -/
def loader : TracedThread where
  name := "a"
  tid := 1
  deeds := [.set [(1, 256), (3, 2)], .execute [(aliasedLoad, fetching.plan aliasedLoad true)] 1]

/-- A thread that stores twice. -/
def storer : TracedThread where
  name := "b"
  tid := 2
  deeds := [.set [(5, 64)], .execute [(plainStore, fetching.plan plainStore true)] 2]

/-- Both of them, taking turns. -/
def turns : List (String × Action) :=
  (storer.actions.zip loader.actions).flatMap fun (b, a) => [("b", b), ("a", a)]

theorem history_of_run_turns : ∃ history,
    History.ofBytes ((fresh 7 4).actAll turns).tracer.channel.stream = .ok history ∧
    (∃ h, history.thread? 1 = some h ∧ h.pid = some 7 ∧
      h.events.toList = [.fetch 7 4 4096, .read 8 256]) ∧
    ∃ h, history.thread? 2 = some h ∧ h.pid = some 7 ∧
      h.events.toList = [.fetch 9 3 8192, .write 8 80, .fetch 9 3 8192, .write 8 80] := by
  have runs : Runs (fresh 7 4) ((fresh 7 4).eventsAll turns) ((fresh 7 4).actAll turns) :=
    Runs.nil.actAll turns
  have planned : ∀ th ∈ [loader, storer], ∀ d ∈ th.deeds, d.Planned fetching := by
    have block : ∀ i ∈ [aliasedLoad, plainStore], fetching.Makes i (fetching.plan i true) := by
      intro i mem
      rcases List.mem_pair.1 mem with rfl | rfl
      · exact ⟨[aliasedLoad], _, 0, rfl, rfl, rfl⟩
      · exact ⟨[plainStore], _, 0, rfl, rfl, rfl⟩
    intro th mem d deed
    rcases List.mem_pair.1 mem with rfl | rfl
    · rcases List.mem_pair.1 deed with rfl | rfl
      · trivial
      · intro step mem'
        rw [List.mem_singleton.1 mem']
        exact block _ List.mem_cons_self
    · rcases List.mem_pair.1 deed with rfl | rfl
      · trivial
      · intro step mem'
        rw [List.mem_singleton.1 mem']
        exact block _ (List.mem_cons_of_mem _ List.mem_cons_self)
  have own : ∀ e ∈ (fresh 7 4).eventsAll turns, e.machine = e.name ∧
      ∃ th ∈ [loader, storer], th.name = e.name := by decide +kernel
  have all : ∀ th ∈ [loader, storer],
      (th.part ((fresh 7 4).eventsAll turns)).map (·.action) = th.actions := by
    intro th mem
    rcases List.mem_pair.1 mem with rfl | rfl
    · rfl
    · rfl
  have well : ∀ th ∈ [loader, storer], ∀ e ∈ th.part ((fresh 7 4).eventsAll turns),
      e.succeeded = true := by decide +kernel
  obtain ⟨history, accepted, faithful⟩ := history_of_run runs (by decide) (by decide) planned
    ⟨own, fun th mem => (all th mem).symm ▸ List.prefix_rfl⟩
  have first := List.mem_cons_self (a := loader) (l := [storer])
  have second : storer ∈ [loader, storer] := List.mem_cons_of_mem _ List.mem_cons_self
  obtain ⟨h, here, process, events⟩ := faithful loader first (all _ first) (well _ first)
  obtain ⟨h', here', process', events'⟩ := faithful storer second (all _ second) (well _ second)
  refine ⟨history, accepted, ⟨h, here, process, ?_⟩, h', here', process', ?_⟩
  · rw [events]
    decide +kernel
  · rw [events']
    decide +kernel

end Session

end AccessTrace
