import Mathlib
import AccessTrace.Proofs.Isolation

/-!
# Message by message

What a thread does with its buffer is told here as a `Sending`: a result, or a message and how the
thread goes on when it is answered. Between two messages others may act. Nothing else is split, and
no other order of steps chosen: carried out on a channel without a pause, a sending is what the
delivery (`flush_eq_run`), the execution of plans (`executeTimes_eq_run`) and the action of the
session (`act_eq_run`) are.
-/

namespace AccessTrace

/-- What is left to be done by somebody who sends messages. -/
inductive Sending (α : Type) where
  /-- It is over. -/
  | stop (result : α)
  /-- A message is sent; how it goes on depends on the answer. -/
  | send (message : List UInt8) (next : Except ChannelError Unit → Sending α)

namespace Sending

variable {σ α β : Type}

/-- Goes on with what depends on the result. -/
def bind : Sending α → (α → Sending β) → Sending β
  | stop result, f => f result
  | send message next, f => send message fun answer => (next answer).bind f

/-- Sends all messages to a channel without a pause. -/
def run [Channel σ] : Sending α → σ → α × σ
  | stop result, c => (result, c)
  | send message next, c =>
    match Channel.send c message with
    | (answer, c) => (next answer).run c

theorem run_bind [Channel σ] (p : Sending α) (f : α → Sending β) (c : σ) :
    (p.bind f).run c = (f (p.run c).1).run (p.run c).2 := by
  induction p generalizing c with
  | stop result => rfl
  | send message next ih =>
    rw [bind, run, run]
    exact ih _ _

end Sending

namespace Buffer

variable {σ : Type} [Channel σ]

/-- The registration, message by message. -/
def registering (b : Buffer) (pid : UInt32) : Sending (Except ChannelError Bool × Buffer) :=
  if b.registered then .stop (.ok false, b)
  else .send (registration b.tid pid) fun answer =>
    .stop (answer.map fun _ => true, { b with registered := true })

/-- The payload. -/
def delivering (b : Buffer) : Sending (Except ChannelError Nat × Buffer) :=
  .send b.occupiedBytes fun
    | .ok () => .stop (.ok b.occupied, (b.addRefs b.occupied).reset)
    | .error e => .stop (.error e, b)

/-- A delivery, message by message. -/
def flushing (b : Buffer) (pid : UInt32) (policy : FlushPolicy) :
    Sending (Except ChannelError FlushOutcome × Buffer) :=
  if policy = .deferrable && b.mayDefer then .stop (.ok .deferred, b)
  else (b.writeHeader.registering pid).bind fun
    | (.error e, b) => .stop (.error e, b)
    | (.ok registered, b) => b.delivering.bind fun
      | (.error e, b) => .stop (.error e, b)
      | (.ok entries, b) => .stop (.ok (.flushed entries registered), b)

theorem register_eq_run (b : Buffer) (c : σ) (pid : UInt32) :
    b.register c pid = (((b.registering pid).run c).1.1, ((b.registering pid).run c).1.2,
      ((b.registering pid).run c).2) := by
  unfold registering register
  split
  · rfl
  · rfl

theorem deliver_eq_run (b : Buffer) (c : σ) :
    b.deliver c = ((b.delivering.run c).1.1, (b.delivering.run c).1.2, (b.delivering.run c).2) := by
  unfold deliver
  rw [delivering, Sending.run]
  rcases Channel.send c b.occupiedBytes with ⟨_ | _, c'⟩
  · rfl
  · rfl

/-- A delivery is its messages sent without a pause. -/
theorem flush_eq_run (b : Buffer) (c : σ) (pid : UInt32) (policy : FlushPolicy) :
    b.flush c pid policy = (((b.flushing pid policy).run c).1.1,
      ((b.flushing pid policy).run c).1.2, ((b.flushing pid policy).run c).2) := by
  unfold flushing flush
  split
  · rfl
  · rw [Sending.run_bind, register_eq_run]
    rcases (b.writeHeader.registering pid).run c with ⟨⟨_ | registered, b₁⟩, c₁⟩
    · rfl
    · simp only [Sending.run_bind, deliver_eq_run]
      rcases b₁.delivering.run c₁ with ⟨⟨_ | entries, b₂⟩, c₂⟩
      · rfl
      · rfl

end Buffer

/-! ## Executing plans -/

/-- What is a thread's own: its machine and its buffer. -/
structure Belongings where
  machine : Machine
  buffer : Buffer

/-- Nothing is sent on a channel that is elsewhere. -/
instance : Channel Unit := ⟨fun _ _ => (.ok (), ()), id⟩

namespace Belongings

/-- The thread with the tracer that it shares with others. -/
def sharing {σ : Type} (o : Belongings) (t : Tracer σ) : Host σ := ⟨o.machine, o.buffer, t⟩

/-- An operation that sends nothing. -/
def step (o : Belongings) (pid : UInt32) (op : Operation) : Except TraceError Unit × Belongings :=
  match (o.sharing { pid, channel := () }).step op with
  | (answer, h) => (answer, ⟨h.machine, h.buffer⟩)

/-- An operation, message by message: only the check has any. -/
def stepping (o : Belongings) (pid : UInt32) :
    Operation → Sending (Except TraceError Unit × Belongings)
  | .flushCheck => (o.buffer.flushing pid .deferrable).bind fun
    | (.ok _, buffer) => .stop (.ok (), { o with buffer })
    | (.error e, buffer) => .stop (.error (.channel e), { o with buffer })
  | op => .stop (o.step pid op)

/-- Operations until one fails. -/
def executingOperations (o : Belongings) (pid : UInt32) :
    List Operation → Sending (Except TraceError Unit × Belongings)
  | [] => .stop (.ok (), o)
  | op :: ops => (o.stepping pid op).bind fun
    | (.ok (), o) => executingOperations o pid ops
    | (.error e, o) => .stop (.error e, o)

/-- Plans until one fails. -/
def executingAll (o : Belongings) (pid : UInt32) (done : Nat) :
    List InstructionPlan → Sending (Nat × Except TraceError Unit × Belongings)
  | [] => .stop (done, .ok (), o)
  | p :: ps => (o.executingOperations pid p.operations).bind fun
    | (.ok (), o) => executingAll o pid (done + 1) ps
    | (.error e, o) => .stop (done, .error e, o)

/-- Plans over and over until one fails. -/
def executing (o : Belongings) (pid : UInt32) (done : Nat) (ps : List InstructionPlan) :
    (times : Nat) → Sending (Nat × Except TraceError Unit × Belongings)
  | 0 => .stop (done, .ok (), o)
  | times + 1 => (o.executingAll pid done ps).bind fun
    | (done, .ok (), o) => executing o pid done ps times
    | (done, .error e, o) => .stop (done, .error e, o)

section
variable {σ : Type}

theorem storeAt_sharing (o : Belongings) (t : Tracer σ) (pid : UInt32) (base : Register)
    (disp : Nat) (bs : List UInt8) (scratch : Option (Register × UInt64)) :
    (o.sharing t).storeAt base disp bs scratch =
      match (o.sharing ({ pid, channel := () } : Tracer Unit)).storeAt base disp bs scratch with
      | (answer, h) => (answer, ⟨h.machine, h.buffer, t⟩) := by
  simp only [Host.storeAt, sharing]
  rcases o.machine.offset? base disp with _ | offset
  · rfl
  · rcases stored : o.buffer.store offset bs with ⟨_ | _, b⟩
    · simp only [stored]
    · simp only [stored]

variable [Channel σ]

/-- What sends nothing does the same whatever the thread shares with others. -/
theorem step_sharing (o : Belongings) (t : Tracer σ) {op : Operation} (silent : op ≠ .flushCheck) :
    (o.sharing t).step op = ((o.step t.pid op).1, (o.step t.pid op).2.sharing t) := by
  cases op with
  | flushCheck => exact absurd rfl silent
  | storeImmediate16 base scratch disp value =>
    exact o.storeAt_sharing t t.pid base disp _ (some (scratch, value.toUInt64))
  | storeImmediate64 base scratch disp value =>
    exact o.storeAt_sharing t t.pid base disp _ (some (scratch, value))
  | storeRegister base disp src => exact o.storeAt_sharing t t.pid base disp _ none
  | advance reg amount =>
    simp only [Host.step, step, sharing]
    rcases o.machine.offset? reg amount with _ | ptr
    · rfl
    · rcases moved : o.buffer.setPtr ptr with ⟨_ | _, b⟩
      · simp only [moved]
      · simp only [moved]
  | _ => rfl

theorem step_eq_run (o : Belongings) (t : Tracer σ) (op : Operation) :
    (o.sharing t).step op = (((o.stepping t.pid op).run t.channel).1.1,
      ((o.stepping t.pid op).run t.channel).1.2.sharing
        { t with channel := ((o.stepping t.pid op).run t.channel).2 }) := by
  by_cases check : op = .flushCheck
  · subst check
    have flush := Tracer.flush_eq (o.buffer.flush_eq_run t.channel t.pid .deferrable)
    rw [stepping, Sending.run_bind]
    simp only [Host.step, sharing, flush]
    rcases (o.buffer.flushing t.pid .deferrable).run t.channel with ⟨⟨_ | _, b⟩, c⟩
    · rfl
    · rfl
  · rw [o.step_sharing t check]
    cases op with
    | flushCheck => exact absurd rfl check
    | _ => rfl

theorem exec_eq_run (o : Belongings) (t : Tracer σ) (ops : List Operation) :
    (o.sharing t).exec ops = (((o.executingOperations t.pid ops).run t.channel).1.1,
      ((o.executingOperations t.pid ops).run t.channel).1.2.sharing
        { t with channel := ((o.executingOperations t.pid ops).run t.channel).2 }) := by
  induction ops generalizing o t with
  | nil => rfl
  | cons op ops ih =>
    rw [Host.exec, executingOperations, step_eq_run, Sending.run_bind]
    rcases (o.stepping t.pid op).run t.channel with ⟨⟨_ | _, o'⟩, c⟩
    · rfl
    · exact ih o' { t with channel := c }

theorem executeAll_eq_run (o : Belongings) (t : Tracer σ) (done : Nat)
    (ps : List InstructionPlan) : (o.sharing t).executeAll done ps =
      (((o.executingAll t.pid done ps).run t.channel).1.1,
        ((o.executingAll t.pid done ps).run t.channel).1.2.1,
        ((o.executingAll t.pid done ps).run t.channel).1.2.2.sharing
          { t with channel := ((o.executingAll t.pid done ps).run t.channel).2 }) := by
  induction ps generalizing o t done with
  | nil => rfl
  | cons p ps ih =>
    rw [Host.executeAll, Host.execute, executingAll, exec_eq_run, Sending.run_bind]
    rcases (o.executingOperations t.pid p.operations).run t.channel with ⟨⟨_ | _, o'⟩, c⟩
    · rfl
    · exact ih o' { t with channel := c } (done + 1)

/-- Executing plans is sending the messages of their checks without a pause. -/
theorem executeTimes_eq_run (o : Belongings) (t : Tracer σ) (done : Nat)
    (ps : List InstructionPlan) (times : Nat) : (o.sharing t).executeTimes done ps times =
      (((o.executing t.pid done ps times).run t.channel).1.1,
        ((o.executing t.pid done ps times).run t.channel).1.2.1,
        ((o.executing t.pid done ps times).run t.channel).1.2.2.sharing
          { t with channel := ((o.executing t.pid done ps times).run t.channel).2 }) := by
  induction times generalizing o t done with
  | zero => rfl
  | succ times ih =>
    rw [Host.executeTimes, executing, executeAll_eq_run, Sending.run_bind]
    rcases (o.executingAll t.pid done ps).run t.channel with ⟨⟨done', _ | _, o'⟩, c⟩
    · rfl
    · exact ih o' { t with channel := c } done'

end

end Belongings

/-! ## What a thread does -/

/-- What a thread does in the course of which it may send messages. -/
inductive Errand where
  /-- It delivers its buffer. -/
  | flush (policy : FlushPolicy)
  /-- It executes plans, over and over. -/
  | execute (plans : List InstructionPlan) (times : Nat)
  /-- It gives its buffer back. -/
  | finish

/-- What becomes of a thread by its errand. -/
inductive Fate where
  /-- It goes on with the buffer. -/
  | kept (b : Buffer)
  /-- It goes on with the buffer and its machine. -/
  | worked (o : Belongings)
  /-- It ends, having sent `refs` entries. -/
  | left (tid : UInt64) (refs : Nat)

namespace Errand

/-- What it is for the session. -/
def action : Errand → Action
  | flush policy => .flush policy
  | execute plans times => .execute plans times
  | finish => .finish

/-- A buffer is given back with a last delivery if it is active. -/
def Ready (b : Buffer) : Errand → Prop
  | finish => b.phase = .active
  | _ => True

/-- An errand, message by message. The thread leaves only behind its last message. -/
def sending (pid : UInt32) (o : Belongings) : Errand → Sending (Outcome × Fate)
  | flush policy => (o.buffer.flushing pid policy).bind fun (answer, b) =>
    .stop (.ofFlush .traceError (answer.mapError TraceError.channel), .kept b)
  | execute plans times => (o.executing pid 0 plans times).bind fun
    | (done, .ok (), o) => .stop (.executed done none o.machine, .worked o)
    | (done, .error e, o) => .stop (.executed done (some e) o.machine, .worked o)
  | finish => (({ o.buffer with phase := .draining } : Buffer).flushing pid .forced).bind fun
    | (.ok _, b) => .stop (.count b.refs, .left b.tid b.refs)
    | (.error e, b) => .stop (.traceError (.channel e), .left b.tid b.refs)

end Errand

namespace Session

/-- A session with what has become of its channel. -/
def withChannel (s : Session) (c : Recorder) : Session :=
  { s with tracer := { s.tracer with channel := c } }

/-- What becomes of the thread of this name, whose buffer is out. -/
def conclude (s : Session) (name : String) (fate : Fate) : Session :=
  match s.buffers.take? name with
  | none => s
  | some (_, rest) =>
    match fate with
    | .kept b => { s with buffers := rest.put name b }
    | .worked o =>
      { s with
        buffers := rest.put name o.buffer
        machines := (takeMachine s.machines name).2.put name o.machine }
    | .left tid refs =>
      { s with
        buffers := rest
        tracer := { s.tracer with roster := s.tracer.roster.leave tid refs } }

theorem conclude_withChannel (s : Session) (c : Recorder) (name : String) (fate : Fate) :
    (s.withChannel c).conclude name fate = (s.conclude name fate).withChannel c := by
  simp only [conclude, withChannel]
  rcases s.buffers.take? name with _ | ⟨b, rest⟩
  · rfl
  · cases fate <;> rfl

/-- An action that sends messages is its errand, sent without a pause. -/
theorem act_eq_run {s : Session} {name : String} {b : Buffer} {errand : Errand}
    (here : s.buffers.get? name = some b) (ready : errand.Ready b) {outcome : Outcome}
    {fate : Fate} {c : Recorder} (run : (errand.sending s.tracer.pid ⟨s.machine name, b⟩).run
      s.tracer.channel = ((outcome, fate), c)) :
    s.act name name errand.action = (outcome, (s.withChannel c).conclude name fate) := by
  obtain ⟨rest, taken⟩ := Named.take?_of_get? here
  have used : ∀ act : Buffer → Session → Outcome × Session,
      s.withBuffer name act = act b { s with buffers := rest } := by
    intro act
    simp only [withBuffer, taken]
  have concluded : (s.withChannel c).buffers.take? name = some (b, rest) := taken
  cases errand with
  | flush policy =>
    have flush := Tracer.flush_eq (b.flush_eq_run s.tracer.channel s.tracer.pid policy)
    simp only [Errand.sending, Sending.run_bind] at run
    rw [Errand.action, act, used]
    simp only [flush, conclude, concluded]
    revert run
    rcases (b.flushing s.tracer.pid policy).run s.tracer.channel with ⟨⟨answer, b'⟩, c'⟩
    rintro ⟨⟩
    rfl
  | execute plans times =>
    have executed := Belongings.executeTimes_eq_run ⟨s.machine name, b⟩ s.tracer 0 plans times
    simp only [Errand.sending, Sending.run_bind] at run
    rw [Errand.action, act, used, execute_eq]
    simp only [Belongings.sharing] at executed
    simp only [executed, conclude, concluded]
    revert run
    rcases (Belongings.executing ⟨s.machine name, b⟩ s.tracer.pid 0 plans times).run
      s.tracer.channel with ⟨⟨done, _ | _, o⟩, c'⟩
    · rintro ⟨⟩
      rfl
    · rintro ⟨⟩
      rfl
  | finish =>
    have finish := Tracer.finish_eq ready
      (({ b with phase := .draining } : Buffer).flush_eq_run s.tracer.channel s.tracer.pid .forced)
    simp only [Errand.sending, Sending.run_bind] at run
    rw [Errand.action, act, used]
    simp only [finish, conclude, concluded]
    revert run
    rcases (({ b with phase := .draining } : Buffer).flushing s.tracer.pid .forced).run
      s.tracer.channel with ⟨⟨_ | _, b'⟩, c'⟩
    · rintro ⟨⟩
      rfl
    · rintro ⟨⟩
      rfl

/-- What is done under a name without a message: it is no errand, or there is no buffer for it, or
one that is not given back with a last delivery. -/
def Quiet (s : Session) (name : String) : Action → Prop
  | .start _ | .setRegisters _ | .machine | .buffer _ | .free | .drop => True
  | .flush _ | .execute _ _ => s.buffers.get? name = none
  | .finish => ∀ b, s.buffers.get? name = some b → b.phase ≠ .active
  | _ => False

theorem start_withChannel (t : Tracer Recorder) (c : Recorder) (tid : UInt64) :
    ({ t with channel := c } : Tracer Recorder).start tid =
      ((t.start tid).1, { (t.start tid).2 with channel := c }) := by
  simp only [Tracer.start, Tracer.discard]
  cases Buffer.new tid t.capacity with
  | error e => rfl
  | ok b =>
    simp only
    split
    · split <;> rfl
    · split
      · split <;> rfl
      · rfl

theorem discard_withChannel (t : Tracer Recorder) (c : Recorder) (b : Buffer) :
    ({ t with channel := c } : Tracer Recorder).discard b =
      { t.discard b with channel := c } := by
  unfold Tracer.discard
  split
  · rfl
  · rfl

/-- What takes a buffer has nothing to do with the channel if it has not where there is one. -/
theorem withBuffer_withChannel {s : Session} {name : String} {c : Recorder}
    {act : Buffer → Session → Outcome × Session}
    (apart : ∀ b rest, s.buffers.get? name = some b →
      act b (({ s with buffers := rest } : Session).withChannel c) =
        ((act b { s with buffers := rest }).1,
          (act b { s with buffers := rest }).2.withChannel c)) :
    (s.withChannel c).withBuffer name act =
      ((s.withBuffer name act).1, (s.withBuffer name act).2.withChannel c) := by
  obtain ⟨tracer, buffers, machines, exits⟩ := s
  simp only [withBuffer, withChannel]
  cases here : buffers.get? name with
  | none => rw [Named.take?_none here]
  | some b =>
    obtain ⟨rest, taken⟩ := Named.take?_of_get? here
    rw [taken]
    exact apart b rest here

/-- What is done without a message has nothing to do with the channel. -/
theorem act_withChannel {s : Session} {name : String} {action : Action}
    (quiet : s.Quiet name action) (c : Recorder) :
    (s.withChannel c).act name name action =
      ((s.act name name action).1, (s.act name name action).2.withChannel c) := by
  cases action with
  | start tid =>
    have same : ((s.withChannel c).buffers.get? name).isSome = (s.buffers.get? name).isSome := rfl
    rw [act, act, same]
    split
    · rfl
    · simp only [withChannel, start_withChannel]
      rcases s.tracer.start tid with ⟨_ | _, t⟩
      · rfl
      · rfl
  | setRegisters values => rfl
  | machine => rfl
  | buffer action =>
    simp only [act]
    exact withBuffer_withChannel fun b rest _ => rfl
  | free =>
    simp only [act]
    refine withBuffer_withChannel fun b rest _ => ?_
    simp only [withChannel, Tracer.free, discard_withChannel]
    rcases (b.transition .freed).1 with _ | _
    · rfl
    · rfl
  | drop =>
    simp only [act]
    refine withBuffer_withChannel fun b rest _ => ?_
    simp only [withChannel, discard_withChannel]
  | flush policy =>
    simp only [act]
    refine withBuffer_withChannel fun b rest here => ?_
    cases here.symm.trans quiet
  | execute plans times =>
    simp only [act]
    refine withBuffer_withChannel fun b rest here => ?_
    cases here.symm.trans quiet
  | finish =>
    simp only [act]
    refine withBuffer_withChannel fun b rest here => ?_
    have inactive := quiet b here
    simp only [withChannel, Tracer.finish_inactive inactive, discard_withChannel]
  | _ => exact quiet.elim

end Session

end AccessTrace
