import Mathlib
import AccessTrace.Proofs.Runs

/-!
# Traced threads

A traced thread is started, sets registers and executes plans of blocks, and ends. How far it has
come is told by its events (`Stage`). While it runs, the log and what its buffer holds are together
what it has called for so far; when it has ended, the log is.
-/

namespace AccessTrace

/-- A plan is that of an instruction as part of a block. -/
def Instrumentation.Makes (s : Instrumentation) (i : Instruction) (p : InstructionPlan) : Prop :=
  ∃ (block : List Instruction) (plans : BlockPlan) (k : Nat), s.planBlock block = .ok plans ∧
    block[k]? = some i ∧ plans[k]? = some p

theorem Instrumentation.Makes.eq_plan {s : Instrumentation} {i : Instruction} {p : InstructionPlan}
    (made : s.Makes i p) : ∃ check, p = s.plan i check := by
  obtain ⟨block, plans, k, planned, instruction, plan⟩ := made
  rw [planBlock_eq planned] at plan
  exact plansFrom_get instruction plan

/-- What a thread does between its start and its end. -/
inductive Deed where
  | set (values : List (Register × UInt64))
  /-- Executes the plans of instructions, over and over. -/
  | execute (steps : List (Instruction × InstructionPlan)) (times : Nat)

namespace Deed

/-- The action of a deed. -/
def action : Deed → Action
  | set values => .setRegisters values
  | execute steps times => .execute (steps.map Prod.snd) times

/-- The machine after a deed; executing plans leaves the program's registers alone. -/
def effect (m : Machine) : Deed → Machine
  | set values => m.setAll values
  | execute _ _ => m

/-- The entries that a deed calls for. -/
def called (fetches : Bool) (m : Machine) : Deed → List Entry
  | set _ => []
  | execute steps times =>
    (List.replicate times (steps.flatMap fun step => step.1.entries fetches m.get)).flatten

/-- The entries that deeds call for, one after the other. -/
def calledAll (fetches : Bool) (m : Machine) : List Deed → List Entry
  | [] => []
  | d :: ds => d.called fetches m ++ calledAll fetches (d.effect m) ds

/-- All plans are those of their instructions. -/
def Planned (s : Instrumentation) : Deed → Prop
  | set _ => True
  | execute steps _ => ∀ step ∈ steps, s.Makes step.1 step.2

theorem calledAll_append (fetches : Bool) (m : Machine) (ds : List Deed) (d : Deed) :
    calledAll fetches m (ds ++ [d]) =
      calledAll fetches m ds ++ d.called fetches (ds.foldl effect m) := by
  induction ds generalizing m with
  | nil => exact List.append_nil _
  | cons first rest ih =>
    rw [List.cons_append, calledAll, ih, calledAll, List.append_assoc, List.foldl_cons]

theorem called_congr (fetches : Bool) {m m' : Machine} (same : m'.registers = m.registers)
    (d : Deed) : d.called fetches m' = d.called fetches m := by
  cases d with
  | set values => rfl
  | execute steps times => rw [called, called, Host.get_congr same]

end Deed

/-- Setting registers takes no notice of the spill slots. -/
theorem Machine.registers_setAll {m m' : Machine} (same : m'.registers = m.registers)
    (values : List (Register × UInt64)) :
    (m'.setAll values).registers = (m.setAll values).registers := by
  induction values generalizing m m' with
  | nil => exact same
  | cons value rest ih =>
    apply ih
    simp only [Machine.set, same]

theorem Deed.effect_congr {m m' : Machine} (same : m'.registers = m.registers) (d : Deed) :
    (d.effect m').registers = (d.effect m).registers := by
  cases d with
  | set values => exact Machine.registers_setAll same values
  | execute _ _ => exact same

/-- Plans of blocks are plans with what they were made for. -/
theorem planned_steps {s : Instrumentation} {steps : List (Instruction × InstructionPlan)}
    (made : ∀ step ∈ steps, s.Makes step.1 step.2) :
    ∃ ps : List PlannedInstruction, ps.map (·.plan) = steps.map Prod.snd ∧
      ∀ value, (ps.flatMap fun p => p.called value) =
        steps.flatMap fun step => step.1.entries s.fetches value := by
  induction steps with
  | nil => exact ⟨[], rfl, fun _ => rfl⟩
  | cons step rest ih =>
    obtain ⟨i, p⟩ := step
    obtain ⟨ps, plans, called⟩ := ih fun step mem => made step (List.mem_cons_of_mem _ mem)
    obtain ⟨check, same⟩ := (made (i, p) List.mem_cons_self).eq_plan
    refine ⟨⟨s, i, check⟩ :: ps, ?_, fun value => ?_⟩
    · rw [List.map_cons, List.map_cons, plans]
      exact congrArg (· :: rest.map Prod.snd) same.symm
    · rw [List.flatMap_cons, List.flatMap_cons, called]
      rfl

theorem flatMap_rounds {α β : Type} (f : α → List β) (xs : List α) (times : Nat) :
    (List.replicate times xs).flatten.flatMap f =
      (List.replicate times (xs.flatMap f)).flatten := by
  induction times with
  | zero => rfl
  | succ times ih =>
    rw [List.replicate_succ, List.flatten_cons, List.flatMap_append, ih, List.replicate_succ,
      List.flatten_cons]

theorem Deed.Planned.orderly {s : Instrumentation} {d : Deed} (planned : d.Planned s) :
    d.action.Orderly := by
  cases d with
  | set values => trivial
  | execute steps times =>
    obtain ⟨ps, plans, _⟩ := planned_steps planned
    exact ⟨ps, plans.symm⟩

/-- A thread and what it does. -/
structure TracedThread where
  name : String
  tid : UInt64
  deeds : List Deed

namespace TracedThread

/-- All actions of a thread, from its start to its end. -/
def actions (th : TracedThread) : List Action :=
  .start th.tid :: th.deeds.map Deed.action ++ [.finish]

/-- The events of a thread. -/
def part (th : TracedThread) (events : List Event) : List Event :=
  events.filter fun e => e.name = th.name

theorem part_append (th : TracedThread) (events later : List Event) :
    th.part (events ++ later) = th.part events ++ th.part later := List.filter_append _ _

theorem part_own {th : TracedThread} {e : Event} (own : e.name = th.name) (events : List Event) :
    th.part (events ++ [e]) = th.part events ++ [e] := by
  rw [part_append, part, part, List.filter_singleton, decide_eq_true own]
  rfl

theorem part_other {th : TracedThread} {e : Event} (other : e.name ≠ th.name)
    (events : List Event) : th.part (events ++ [e]) = th.part events := by
  rw [part_append, part, part, List.filter_singleton, decide_eq_false other]
  exact List.append_nil _

end TracedThread

/-- Executing and ending went well; nothing is asked of other actions. -/
def Event.succeeded (e : Event) : Bool :=
  match e.action, e.outcome with
  | .execute _ _, .executed _ none _ => true
  | .execute _ _, _ => false
  | .finish, .count _ => true
  | .finish, _ => false
  | _, _ => true

theorem Event.executed_of_succeeded {e : Event} {plans : List InstructionPlan} {times : Nat}
    (action : e.action = .execute plans times) (well : e.succeeded = true) :
    ∃ done m, e.outcome = .executed done none m := by
  rw [succeeded, action] at well
  split at well
  · rename_i done m _ outcome
    exact ⟨done, m, outcome⟩
  all_goals simp_all

theorem Event.finished_of_succeeded {e : Event} (action : e.action = .finish)
    (well : e.succeeded = true) : ∃ refs, e.outcome = .count refs := by
  rw [succeeded, action] at well
  split at well
  all_goals simp_all

namespace TracedThread

/-- A thread that runs and has done its first deeds. Its buffer, if it could have one, is its
own. -/
structure Running (fetches : Bool) (th : TracedThread) (log : Log) (s : Session)
    (events : List Event) (done : List Deed) : Prop where
  actions : events.map (·.action) = .start th.tid :: done.map Deed.action
  own : ∀ b, s.buffers.get? th.name = some b → b.tid = th.tid
  unregistered : ∀ b, s.buffers.get? th.name = some b → b.registered = false →
    th.tid ∉ log.registrations
  registers : (∀ e ∈ events, e.succeeded = true) → ∀ b, s.buffers.get? th.name = some b →
    (s.machine th.name).registers = (done.foldl Deed.effect {}).registers
  faithful : (∀ e ∈ events, e.succeeded = true) → ∀ b es, s.buffers.get? th.name = some b →
    b.Holds es → log.events th.tid ++ es = Deed.calledAll fetches {} done

/-- How far a thread has come. -/
inductive Stage (fetches : Bool) (th : TracedThread) (log : Log) (s : Session) :
    List Event → Prop
  /-- It has not started. -/
  | waiting (absent : s.buffers.get? th.name = none)
    (registers : (s.machine th.name).registers = ({} : Machine).registers)
    (new : th.tid ∉ log.registrations) : Stage fetches th log s []
  /-- It runs. -/
  | running {events : List Event} {done rest : List Deed} (deeds : th.deeds = done ++ rest)
    (running : th.Running fetches log s events done) : Stage fetches th log s events
  /-- It has ended. -/
  | ended {events : List Event} (actions : events.map (·.action) = th.actions)
    (absent : s.buffers.get? th.name = none)
    (faithful : (∀ e ∈ events, e.succeeded = true) → th.tid ∈ log.registrations ∧
      log.events th.tid = Deed.calledAll fetches {} th.deeds) : Stage fetches th log s events

variable {th : TracedThread} {fetches : Bool} {log : Log} {s s' : Session} {events : List Event}
  {done rest : List Deed} {pid : UInt32} {es es' added : List Entry} {told : Log}

/-- What another thread does, or whoever ends tracing, does not concern the thread. -/
theorem Stage.other (stage : th.Stage fetches log s events)
    (buffers : s'.buffers.get? th.name = s.buffers.get? th.name)
    (machine : s'.machine th.name = s.machine th.name)
    (silent : told.events th.tid = []) (apart : th.tid ∉ told.registrations) :
    th.Stage fetches (log ++ told) s' events := by
  have same : (log ++ told).events th.tid = log.events th.tid := by
    rw [Log.events_append, silent, List.append_nil]
  have known : th.tid ∈ (log ++ told).registrations ↔ th.tid ∈ log.registrations := by
    rw [Log.registrations_append, List.mem_append]
    exact or_iff_left apart
  cases stage with
  | waiting absent registers new =>
    apply Stage.waiting (buffers.trans absent)
    · rw [machine]
      exact registers
    · intro mem
      exact new (known.1 mem)
  | running deeds running =>
    refine .running deeds ⟨running.actions, ?_, ?_, ?_, ?_⟩
    · rw [buffers]
      exact running.own
    · rw [buffers, known]
      exact running.unregistered
    · rw [buffers, machine]
      exact running.registers
    · rw [buffers, same]
      exact running.faithful
  | ended actions absent faithful =>
    apply Stage.ended actions (buffers.trans absent)
    rw [same, known]
    exact faithful

/-- The buffer of a thread is its own, and if that has not registered nor has the thread. -/
theorem Stage.buffer (stage : th.Stage fetches log s events) {b : Buffer}
    (here : s.buffers.get? th.name = some b) :
    b.tid = th.tid ∧ (b.registered = false → th.tid ∉ log.registrations) := by
  cases stage with
  | waiting absent => cases here.symm.trans absent
  | running _ running => exact ⟨running.own b here, running.unregistered b here⟩
  | ended _ absent => cases here.symm.trans absent

/-- What a thread does next. -/
theorem Stage.next (stage : th.Stage fetches log s events) {action : Action}
    (next : events.map (·.action) ++ [action] <+: th.actions) :
    (events = [] ∧ s.buffers.get? th.name = none ∧
      (s.machine th.name).registers = ({} : Machine).registers ∧
      th.tid ∉ log.registrations ∧ action = .start th.tid) ∨
    (∃ done d rest, th.deeds = done ++ d :: rest ∧ th.Running fetches log s events done ∧
      action = d.action) ∨
    (th.Running fetches log s events th.deeds ∧ action = .finish) := by
  cases stage with
  | waiting absent registers new =>
    refine .inl ⟨rfl, absent, registers, new, ?_⟩
    exact (List.cons_prefix_cons.1 next).1
  | @running _ done rest deeds running =>
    right
    rw [running.actions, actions, deeds, List.map_append, List.cons_append, List.cons_append,
      List.cons_prefix_cons, List.append_assoc, List.prefix_append_right_inj] at next
    cases rest with
    | nil =>
      right
      rw [List.append_nil] at deeds
      rw [deeds]
      exact ⟨running, (List.cons_prefix_cons.1 next.2).1⟩
    | cons d rest => exact .inl ⟨done, d, rest, deeds, running, (List.cons_prefix_cons.1 next.2).1⟩
  | ended actions =>
    rw [actions] at next
    have bound := next.length_le
    rw [List.length_append, List.length_singleton] at bound
    omega

/-- The log has all of a thread that has done everything, if all went well. -/
theorem Stage.complete (stage : th.Stage fetches log s events)
    (all : events.map (·.action) = th.actions) (well : ∀ e ∈ events, e.succeeded = true) :
    th.tid ∈ log.registrations ∧ log.events th.tid = Deed.calledAll fetches {} th.deeds := by
  cases stage with
  | waiting => cases all
  | running deeds running =>
    have lengths := congrArg List.length (running.actions.symm.trans all)
    simp only [actions, deeds, List.length_cons, List.length_append, List.length_map,
      List.length_nil] at lengths
    omega
  | ended _ _ faithful => exact faithful well

/-- A thread has had its turn, and has come to its next stage. -/
structure Stepped (fetches : Bool) (th : TracedThread) (log : Log) (s : Session)
    (events : List Event) (e : Event) (es es' added : List Entry) (told : Log) : Prop where
  turned : Session.Turned s e.after th.name th.name es es' added told
  holds : ∀ b, s.buffers.get? th.name = some b → b.Holds es
  stage : th.Stage fetches (log ++ told) e.after (events ++ [e])

theorem stepped_start (sound : Session.Sound pid log s) (absent : s.buffers.get? th.name = none)
    (registers : (s.machine th.name).registers = ({} : Machine).registers)
    (new : th.tid ∉ log.registrations) :
    ∃ es', th.Stepped fetches log s [] (s.event th.name th.name (.start th.tid)) [] es' [] [] := by
  have holds : ∀ b, s.buffers.get? th.name = some b → b.Holds [] := by
    intro b here
    cases here.symm.trans absent
  have ready : s.Ready th.name [] := sound.ready th.name (fun _ => rfl) holds
  obtain ⟨es', turned⟩ := Session.turned_start ready th.name th.tid
  refine ⟨es', turned, holds, .running (List.nil_append _).symm ?_⟩
  rw [List.append_nil]
  rcases Session.started_or_idle s th.name th.name th.tid with
    ⟨b, _, tid, _, _, _, handed, started⟩ | ⟨outcome, _, nothing⟩
  · have here : (s.event th.name th.name (.start th.tid)).after.buffers.get? th.name = some b := by
      rw [Session.event, started]
      simp only
      rw [Named.get?_put, if_pos rfl]
    have machine : (s.event th.name th.name (.start th.tid)).after.machine th.name =
        s.machine th.name := by
      rw [Session.event, started]
      rfl
    refine ⟨rfl, ?_, fun _ _ _ => new, ?_, ?_⟩
    · intro c there
      cases here.symm.trans there
      exact tid
    · intro _ _ _
      rw [machine]
      exact registers
    · intro _ c es there held
      cases here.symm.trans there
      rw [(sound.orderly.silent new).2, (Buffer.holds_nil handed.empty).unique held]
      rfl
  · have gone : (s.event th.name th.name (.start th.tid)).after.buffers.get? th.name = none := by
      rw [Session.event, nothing]
      exact absent
    refine ⟨rfl, fun b here => ?_, fun b here => ?_, fun _ b here => ?_, fun _ b es here => ?_⟩
    all_goals cases here.symm.trans gone

/-- What a thread that runs does with its buffer is added to what it has called for. -/
theorem Running.turned (running : th.Running fetches log s events done)
    (turned : Session.Turned s s' th.name th.name es es' added told)
    (holds : ∀ b, s.buffers.get? th.name = some b → b.Holds es) {b' : Buffer}
    (here : s'.buffers.get? th.name = some b') {b : Buffer}
    (before : s.buffers.get? th.name = some b) :
    b'.tid = th.tid ∧ (b'.registered = false → th.tid ∉ (log ++ told).registrations) ∧
      ((∀ e ∈ events, e.succeeded = true) → ∀ held, b'.Holds held →
        (log ++ told).events th.tid ++ held = Deed.calledAll fetches {} done ++ added) := by
  have turn := turned.turn
  rw [before, here] at turn
  have own := running.own b before
  obtain ⟨same, held', conserved⟩ := turn.conserved (holds b before)
  rw [own] at same conserved
  refine ⟨same, ?_, ?_⟩
  · intro unregistered
    obtain ⟨nothing, kept⟩ := turn.unregistered unregistered
    rw [Log.registrations_append, nothing, List.append_nil]
    exact running.unregistered b before (kept b rfl).1
  · intro well held again
    rw [held'.unique again, Log.events_append, List.append_assoc, conserved, ← List.append_assoc,
      running.faithful well b es before (holds b before)]

/-- A deed calls for what its turn adds, and does to the registers what the turn does. -/
theorem Running.deed (running : th.Running fetches log s events done) {d : Deed}
    (deeds : th.deeds = done ++ d :: rest) {e : Event} (action : e.action = d.action)
    (turned : Session.Turned s e.after th.name th.name es es' added told)
    (holds : ∀ b, s.buffers.get? th.name = some b → b.Holds es)
    (kept : ∀ b', e.after.buffers.get? th.name = some b' →
      ∃ b, s.buffers.get? th.name = some b)
    (does : e.succeeded = true →
      (e.after.machine th.name).registers = (d.effect (s.machine th.name)).registers ∧
      added = d.called fetches (s.machine th.name)) :
    th.Stepped fetches log s events e es es' added told := by
  have split : ∀ {p : Event → Prop}, (∀ x ∈ events ++ [e], p x) → (∀ x ∈ events, p x) ∧ p e :=
    fun all => ⟨fun x mem => all x (List.mem_append_left _ mem),
      all e (List.mem_append_right _ List.mem_cons_self)⟩
  have now : th.deeds = (done ++ [d]) ++ rest := by rw [deeds, List.append_assoc]; rfl
  refine ⟨turned, holds, .running now ⟨?_, ?_, ?_, ?_, ?_⟩⟩
  · rw [List.map_append, running.actions, List.map_append, List.map_singleton, action]
    rfl
  · intro b' here
    obtain ⟨b, before⟩ := kept b' here
    exact (running.turned turned holds here before).1
  · intro b' here
    obtain ⟨b, before⟩ := kept b' here
    exact (running.turned turned holds here before).2.1
  · intro all b' here
    obtain ⟨b, before⟩ := kept b' here
    obtain ⟨earlier, now⟩ := split all
    rw [(does now).1, List.foldl_append]
    exact Deed.effect_congr (running.registers earlier b before) d
  · intro all b' held here again
    obtain ⟨b, before⟩ := kept b' here
    obtain ⟨earlier, now⟩ := split all
    rw [(running.turned turned holds here before).2.2 earlier held again, (does now).2,
      Deed.calledAll_append, Deed.called_congr fetches (running.registers earlier b before) d]

theorem stepped_deed {scheme : Instrumentation} (sound : Session.Sound pid log s)
    (running : th.Running scheme.fetches log s events done) {d : Deed}
    (deeds : th.deeds = done ++ d :: rest) (planned : d.Planned scheme) :
    ∃ es es' added told, th.Stepped scheme.fetches log s events
      (s.event th.name th.name d.action) es es' added told := by
  obtain ⟨es, empty, holds⟩ := sound.held th.name
  have ready := sound.ready th.name empty holds
  have kept : ∀ b', (s.event th.name th.name d.action).after.buffers.get? th.name = some b' →
      ∃ b, s.buffers.get? th.name = some b := by
    intro b' here
    cases before : s.buffers.get? th.name with
    | some b => exact ⟨b, rfl⟩
    | none =>
      have started := Session.started?_of_new planned.orderly before here
      cases d <;> cases started
  cases d with
  | set values =>
    obtain ⟨turned, machine⟩ := Session.turned_setRegisters s th.name th.name values es
    exact ⟨es, es, [], [], running.deed deeds rfl turned holds kept
      fun _ => ⟨congrArg Machine.registers machine, rfl⟩⟩
  | execute steps times =>
    obtain ⟨ps, plans, called⟩ := planned_steps planned
    obtain ⟨es', added, told, turned, _, does⟩ := Session.turned_execute ready th.name ps times
    rw [plans] at turned does
    refine ⟨es, es', added, told, running.deed deeds rfl turned holds kept fun well => ?_⟩
    obtain ⟨count, m, outcome⟩ := Event.executed_of_succeeded rfl well
    obtain ⟨adds, registers⟩ := does count m outcome
    refine ⟨registers, ?_⟩
    rw [adds, flatMap_rounds, called, Deed.called]

theorem stepped_finish (sound : Session.Sound pid log s)
    (running : th.Running fetches log s events th.deeds) :
    ∃ es told, th.Stepped fetches log s events (s.event th.name th.name .finish) es [] [] told := by
  obtain ⟨es, empty, holds⟩ := sound.held th.name
  obtain ⟨told, turned, gone, ends⟩ :=
    Session.turned_finish (sound.ready th.name empty holds) th.name
  refine ⟨es, told, turned, holds, .ended ?_ gone fun all => ?_⟩
  · rw [List.map_append, running.actions]
    rfl
  · have earlier : ∀ e ∈ events, e.succeeded = true :=
      fun e mem => all e (List.mem_append_left _ mem)
    obtain ⟨refs, outcome⟩ := Event.finished_of_succeeded
      (e := s.event th.name th.name .finish) rfl
      (all _ (List.mem_append_right _ List.mem_cons_self))
    obtain ⟨b, here, rfl⟩ := ends refs outcome
    have own := running.own b here
    constructor
    · rw [← own]
      exact Log.mem_registrations_talk (sound.seated th.name b here).known (Bool.or_true _)
    · rw [Log.events_append, Log.events_talk, if_pos own.symm, List.flatten_singleton]
      exact running.faithful earlier b es here (holds b here)

/-- Whatever a thread does next, it has its turn and comes to its next stage. -/
theorem Stage.step {scheme : Instrumentation} (stage : th.Stage scheme.fetches log s events)
    (sound : Session.Sound pid log s) (planned : ∀ d ∈ th.deeds, d.Planned scheme)
    {action : Action} (next : events.map (·.action) ++ [action] <+: th.actions) :
    ∃ es es' added told, th.Stepped scheme.fetches log s events
      (s.event th.name th.name action) es es' added told := by
  rcases stage.next next with ⟨rfl, absent, registers, new, rfl⟩ |
    ⟨done, d, rest, deeds, running, rfl⟩ | ⟨running, rfl⟩
  · obtain ⟨es', stepped⟩ := stepped_start sound absent registers new
    exact ⟨_, _, _, _, stepped⟩
  · have mem : d ∈ th.deeds := by
      rw [deeds]
      exact List.mem_append_right _ List.mem_cons_self
    exact stepped_deed sound running deeds (planned d mem)
  · obtain ⟨es, told, stepped⟩ := stepped_finish sound running
    exact ⟨_, _, _, _, stepped⟩

end TracedThread

end AccessTrace
