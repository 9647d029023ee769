import Mathlib
import AccessTrace.Proofs.Accounting

/-!
# Threads on their own

All threads share the channel and the roster. Over a recorder that takes everything none of them
notices: what an action answers and sends, and how the thread stands afterwards, are told by how the
thread stood before (`response_eq`). Two hosts are compared for that, step by step, whose recorders
may have taken whatever they like before (`Matched`). A buffer stays in its phase while its thread
works, so that all buffers are in use (`active_act`).
-/

namespace AccessTrace

namespace Recorder

/-- A recorder that has taken these messages as well. -/
def record (c : Recorder) (new : List (List UInt8)) : Recorder :=
  { c with messages := (c.messages.toList ++ new).toArray }

theorem record_nil (c : Recorder) : c.record [] = c := by
  rw [record, List.append_nil]

theorem record_record (c : Recorder) (new more : List (List UInt8)) :
    (c.record new).record more = c.record (new ++ more) := by
  simp only [record, List.append_assoc]

theorem since_record (c : Recorder) (new : List (List UInt8)) : c.since (c.record new) = new := by
  rw [since, record, ← Array.length_toList, List.drop_left]

theorem since_self (c : Recorder) : c.since c = [] := by
  rw [since, ← Array.length_toList, List.drop_length]

theorem Open.recorded {c : Recorder} (isOpen : c.Open) (new : List (List UInt8)) :
    (c.record new).Open := ⟨isOpen.unlimited, isOpen.opened⟩

theorem Open.send {c : Recorder} (isOpen : c.Open) (bytes : List UInt8) :
    Channel.send c bytes = (.ok (), c.record [bytes]) := by
  have sent : Channel.send c bytes = (.ok (), { c with messages := c.messages.push bytes }) :=
    send_accepted (isOpen.accepts _)
  rw [sent, record, ← Array.toList_push]

theorem Open.send_again {c : Recorder} (isOpen : c.Open) (first second : List UInt8) :
    Channel.send (c.record [first]) second = (.ok (), c.record [first, second]) := by
  rw [(isOpen.recorded [first]).send, record_record]
  rfl

end Recorder

/-- A delivery does the same over all recorders that take everything. -/
theorem Buffer.flush_recorded (b : Buffer) (pid : UInt32) (policy : FlushPolicy) :
    ∃ answer b' new, ∀ c : Recorder, c.Open →
      b.flush c pid policy = (answer, b', c.record new) := by
  by_cases deferred : (policy = .deferrable && b.mayDefer) = true
  · refine ⟨.ok .deferred, b, [], fun c _ => ?_⟩
    rw [Recorder.record_nil]
    exact Buffer.flush_deferred deferred
  · by_cases registered : b.writeHeader.registered = true
    · exact ⟨_, _, _, fun c isOpen => Buffer.flush_delivered deferred
        (Buffer.register_registered registered) (Buffer.deliver_through (isOpen.send _))⟩
    · rw [Bool.not_eq_true] at registered
      exact ⟨_, _, _, fun c isOpen => Buffer.flush_delivered deferred
        (Buffer.register_through registered (isOpen.send _))
        (Buffer.deliver_through (isOpen.send_again _ _))⟩

namespace Host

/-- Two hosts have the same machine and buffer, in the same process, and their recorders have taken
the same since they were `c` and `d`. -/
structure Matched (c d : Recorder) (h k : Host Recorder) : Prop where
  machine : h.machine = k.machine
  buffer : h.buffer = k.buffer
  pid : h.tracer.pid = k.tracer.pid
  sent : ∃ new, h.tracer.channel = c.record new ∧ k.tracer.channel = d.record new

/-- Something was answered alike, and the hosts still match. -/
structure Agreed {α : Type} (c d : Recorder) (r r' : α × Host Recorder) : Prop where
  answer : r.1 = r'.1
  matched : Matched c d r.2 r'.2

variable {c d : Recorder} {h k : Host Recorder}

theorem matched_self (m : Machine) (b : Buffer) {t t' : Tracer Recorder} (pid : t.pid = t'.pid) :
    Matched t.channel t'.channel ⟨m, b, t⟩ ⟨m, b, t'⟩ :=
  ⟨rfl, rfl, pid, [], (t.channel.record_nil).symm, (t'.channel.record_nil).symm⟩

theorem Matched.storeAt (matched : Matched c d h k) (base : Register) (disp : Nat)
    (bs : List UInt8) (scratch : Option (Register × UInt64)) :
    Agreed c d (h.storeAt base disp bs scratch) (k.storeAt base disp bs scratch) := by
  obtain ⟨m, b, t⟩ := h
  obtain ⟨m', b', t'⟩ := k
  obtain ⟨rfl, rfl, pid, sent⟩ := matched
  simp only [Host.storeAt]
  rcases m.offset? base disp with _ | offset
  · exact ⟨rfl, rfl, rfl, pid, sent⟩
  · rcases stored : b.store offset bs with ⟨_ | _, b'⟩
    · simp only [stored]
      exact ⟨rfl, rfl, rfl, pid, sent⟩
    · simp only [stored]
      exact ⟨rfl, rfl, rfl, pid, sent⟩

/-- Deliveries from hosts that match send the same. -/
theorem Matched.flush (matched : Matched c d h k) (isOpen : c.Open) (isOpen' : d.Open)
    (policy : FlushPolicy) : ∃ answer b' e f,
      h.tracer.flush h.buffer policy = (answer, b', { h.tracer with channel := e }) ∧
      k.tracer.flush k.buffer policy = (answer, b', { k.tracer with channel := f }) ∧
      ∃ new, e = c.record new ∧ f = d.record new := by
  obtain ⟨m, b, t⟩ := h
  obtain ⟨m', b', t'⟩ := k
  obtain ⟨rfl, rfl, pid, old, first, second⟩ := matched
  simp only at pid first second
  obtain ⟨answer, b', new, flushed⟩ := b.flush_recorded t.pid policy
  have here := flushed t.channel (first ▸ isOpen.recorded old)
  have there := flushed t'.channel (second ▸ isOpen'.recorded old)
  rw [pid] at there
  refine ⟨_, b', _, _, Tracer.flush_eq here, Tracer.flush_eq there, old ++ new, ?_, ?_⟩
  · rw [first, Recorder.record_record]
  · rw [second, Recorder.record_record]

theorem Matched.step (matched : Matched c d h k) (isOpen : c.Open) (isOpen' : d.Open)
    (op : Operation) : Agreed c d (h.step op) (k.step op) := by
  cases op with
  | flushCheck =>
    obtain ⟨answer, b', e, f, here, there, sent⟩ := matched.flush isOpen isOpen' .deferrable
    obtain ⟨m, b, t⟩ := h
    obtain ⟨m', _, t'⟩ := k
    obtain ⟨rfl, rfl, pid, _⟩ := matched
    simp only [Host.step, here, there]
    cases answer with
    | ok _ => exact ⟨rfl, rfl, rfl, pid, sent⟩
    | error _ => exact ⟨rfl, rfl, rfl, pid, sent⟩
  | storeRegister base disp src =>
    rw [Host.step, Host.step, ← matched.machine]
    exact matched.storeAt _ _ _ _
  | storeImmediate16 base scratch disp value =>
    exact matched.storeAt base disp _ (some (scratch, value.toUInt64))
  | storeImmediate64 base scratch disp value =>
    exact matched.storeAt base disp _ (some (scratch, value))
  | advance reg amount =>
    obtain ⟨m, b, t⟩ := h
    obtain ⟨m', b', t'⟩ := k
    obtain ⟨rfl, rfl, pid, sent⟩ := matched
    simp only [Host.step]
    rcases m.offset? reg amount with _ | ptr
    · exact ⟨rfl, rfl, rfl, pid, sent⟩
    · rcases moved : b.setPtr ptr with ⟨_ | _, b'⟩
      · simp only [moved]
        exact ⟨rfl, rfl, rfl, pid, sent⟩
      · simp only [moved]
        exact ⟨rfl, rfl, rfl, pid, sent⟩
  | _ =>
    -- The others change the machine alone, which is the same for both.
    obtain ⟨m, b, t⟩ := h
    obtain ⟨m', b', t'⟩ := k
    obtain ⟨rfl, rfl, pid, sent⟩ := matched
    exact ⟨rfl, rfl, rfl, pid, sent⟩

theorem Matched.exec (matched : Matched c d h k) (isOpen : c.Open) (isOpen' : d.Open)
    (ops : List Operation) : Agreed c d (h.exec ops) (k.exec ops) := by
  induction ops generalizing h k with
  | nil => exact ⟨rfl, matched⟩
  | cons op ops ih =>
    obtain ⟨same, next⟩ := matched.step isOpen isOpen' op
    rw [Host.exec, Host.exec]
    rcases here : h.step op with ⟨answer, h₁⟩
    rcases there : k.step op with ⟨answer', k₁⟩
    rw [here, there] at same next
    obtain rfl : answer = answer' := same
    cases answer with
    | ok _ => exact ih next
    | error _ => exact ⟨rfl, next⟩

theorem Matched.executeAll (matched : Matched c d h k) (isOpen : c.Open) (isOpen' : d.Open)
    (ps : List InstructionPlan) (done : Nat) :
    (h.executeAll done ps).1 = (k.executeAll done ps).1 ∧
      Agreed c d (h.executeAll done ps).2 (k.executeAll done ps).2 := by
  induction ps generalizing h k done with
  | nil => exact ⟨rfl, rfl, matched⟩
  | cons p ps ih =>
    obtain ⟨same, next⟩ := matched.exec isOpen isOpen' p.operations
    rw [Host.executeAll, Host.executeAll, Host.execute, Host.execute]
    rcases here : h.exec p.operations with ⟨answer, h₁⟩
    rcases there : k.exec p.operations with ⟨answer', k₁⟩
    rw [here, there] at same next
    obtain rfl : answer = answer' := same
    cases answer with
    | ok _ => exact ih next (done + 1)
    | error _ => exact ⟨rfl, rfl, next⟩

/-- Executing plans over and over on hosts that match comes to the same. -/
theorem Matched.executeTimes (matched : Matched c d h k) (isOpen : c.Open) (isOpen' : d.Open)
    (ps : List InstructionPlan) (done times : Nat) :
    (h.executeTimes done ps times).1 = (k.executeTimes done ps times).1 ∧
      Agreed c d (h.executeTimes done ps times).2 (k.executeTimes done ps times).2 := by
  rw [executeTimes_eq, executeTimes_eq]
  exact matched.executeAll isOpen isOpen' _ done

end Host

/-- How a thread stands: its buffer and its machine. -/
structure Standing where
  buffer : Option Buffer
  machine : Machine

/-- How the thread of this name stands. -/
def Session.standing (s : Session) (name : String) : Standing :=
  ⟨s.buffers.get? name, s.machine name⟩

/-- What comes of an action for its thread. -/
structure Response where
  outcome : Outcome
  sent : List (List UInt8)
  standing : Standing

/-- What came of an action for its thread. -/
def Event.response (e : Event) : Response := ⟨e.outcome, e.sent, e.after.standing e.name⟩

/-- What a thread does between its start and its end. -/
def Action.Works : Action → Prop
  | setRegisters _ | buffer (.push _ _ _) | flush _ => True
  | execute plans _ => ∃ ps : List PlannedInstruction, plans = ps.map (·.plan)
  | _ => False

/-- What a thread does: it starts, works, ends or lets go of its buffer. -/
def Action.Own : Action → Prop
  | start _ | finish | drop => True
  | action => action.Works

namespace Session

/-- Nothing is in the way of an action of this thread: the channel takes what is sent from a buffer,
and a thread can start. -/
structure Admits (pid : UInt32) (capacity : Nat) (s : Session) (name : String) (action : Action) :
    Prop where
  distinct : s.buffers.Distinct
  pid : s.tracer.pid = pid
  capacity : s.tracer.capacity = capacity
  isOpen : ∀ b, s.buffers.get? name = some b → s.tracer.channel.Open
  running : ∀ tid, action = .start tid →
    s.tracer.roster.exited = false ∧ tid ∉ s.tracer.roster.live

variable {s s' : Session} {name : String} {action : Action} {pid : UInt32} {capacity : Nat}

theorem response_of_act {outcome : Outcome} {s₁ : Session}
    (acted : s.act name name action = (outcome, s₁)) : (s.event name name action).response =
      ⟨outcome, s.tracer.channel.since s₁.tracer.channel, s₁.standing name⟩ := by
  rw [Event.response, event, acted]
  rfl

/-- What takes a buffer is answered alike if it is so where there is one. -/
theorem response_withBuffer {act' : Buffer → Session → Outcome × Session}
    (acts : ∀ s : Session, s.act name name action = s.withBuffer name act')
    (same : s.standing name = s'.standing name)
    (used : ∀ b rest rest', s.buffers.get? name = some b → s'.buffers.get? name = some b →
      s.buffers.Without rest name → s'.buffers.Without rest' name →
      s.act name name action = act' b { s with buffers := rest } →
      s'.act name name action = act' b { s' with buffers := rest' } →
      (s.event name name action).response = (s'.event name name action).response) :
    (s.event name name action).response = (s'.event name name action).response := by
  have buffers : s.buffers.get? name = s'.buffers.get? name := congrArg Standing.buffer same
  rcases withBuffer_cases s name with ⟨absent, nothing⟩ | ⟨b, rest, here, without, taken⟩
  · rcases withBuffer_cases s' name with ⟨_, nothing'⟩ | ⟨b, _, there, _⟩
    · rw [response_of_act ((acts s).trans (nothing _)),
        response_of_act ((acts s').trans (nothing' _)), Recorder.since_self, Recorder.since_self,
        same]
    · cases absent.symm.trans (buffers.trans there)
  · have there : s'.buffers.get? name = some b := buffers.symm.trans here
    obtain ⟨rest', without', taken'⟩ := withBuffer_of_get? there
    exact used b rest rest' here there without without' ((acts s).trans (taken _))
      ((acts s').trans (taken' _))

theorem standing_put {b : Buffer} {rest : Named Buffer} (buffers : s.buffers = rest.put name b) :
    s.standing name = ⟨some b, s.machine name⟩ := by
  rw [standing, buffers, Named.get?_put, if_pos rfl]

/-- Whether a thread can start is told by its buffer alone, if nothing is in the way. -/
theorem response_start {tid : UInt64} (admits : s.Admits pid capacity name (.start tid)) :
    (s.event name name (.start tid)).response =
      if (s.buffers.get? name).isSome then ⟨.nameInUse, [], s.standing name⟩
      else match Buffer.new tid capacity with
        | .error e => ⟨.traceError (.resource e), [], s.standing name⟩
        | .ok b =>
          ⟨.ofBuffer b, [],
            ⟨some { b with attached := true, phase := .active }, s.machine name⟩⟩ := by
  obtain ⟨running, new⟩ := admits.running tid rfl
  split
  · rename_i here
    have refused : s.act name name (.start tid) = (.nameInUse, s) := by rw [act, if_pos here]
    rw [response_of_act refused, Recorder.since_self]
  · rename_i here
    split
    · rename_i e failed
      have started : s.tracer.start tid = (.error (.resource e), s.tracer) := by
        rw [Tracer.start, admits.capacity, failed]
      have acted : s.act name name (.start tid) = (.traceError (.resource e), s) := by
        rw [act, if_neg here, started]
        rfl
      rw [response_of_act acted, Recorder.since_self]
    · rename_i b made
      have started : s.tracer.start tid = (.ok { b with attached := true, phase := .active },
          { s.tracer with roster := s.tracer.roster.enter tid }) := by
        simp only [Tracer.start, admits.capacity, made, running, if_neg new]
        rfl
      have acted : s.act name name (.start tid) = (.ofBuffer b,
          { s with
            tracer := { s.tracer with roster := s.tracer.roster.enter tid }
            buffers := s.buffers.put name { b with attached := true, phase := .active } }) := by
        rw [act, if_neg here, started]
        rfl
      rw [response_of_act acted, Recorder.since_self, standing_put rfl]
      rfl

theorem response_setRegisters (s : Session) (name : String) (values : List (Register × UInt64)) :
    (s.event name name (.setRegisters values)).response =
      ⟨.done, [], s.buffers.get? name, (s.machine name).setAll values⟩ := by
  obtain ⟨_, machine⟩ := turned_setRegisters s name name values []
  have acted : s.act name name (.setRegisters values) = (.done, { s with
      machines := (takeMachine s.machines name).2.put name
        ((takeMachine s.machines name).1.setAll values) }) := rfl
  rw [acted] at machine
  rw [response_of_act acted, Recorder.since_self, standing, machine]

theorem response_buffer (same : s.standing name = s'.standing name) (action : BufferAction) :
    (s.event name name (.buffer action)).response =
      (s'.event name name (.buffer action)).response := by
  refine response_withBuffer (fun s => by rw [act]) same
    fun b rest rest' _ _ _ _ acted acted' => ?_
  rw [response_of_act acted, response_of_act acted', Recorder.since_self, Recorder.since_self,
    standing_put rfl, standing_put rfl]
  exact congrArg (Response.mk _ [] ⟨_, ·⟩) (congrArg Standing.machine same)

theorem response_flush (admits : s.Admits pid capacity name action)
    (admits' : s'.Admits pid capacity name action) (same : s.standing name = s'.standing name)
    (policy : FlushPolicy) :
    (s.event name name (.flush policy)).response =
      (s'.event name name (.flush policy)).response := by
  refine response_withBuffer (fun s => by rw [act]) same
    fun b rest rest' here there _ _ acted acted' => ?_
  have isOpen := admits.isOpen b here
  have isOpen' := admits'.isOpen b there
  have matched := Host.matched_self (s.machine name) b (admits.pid.trans admits'.pid.symm)
  obtain ⟨answer, b', c, d, flush, flush', new, rfl, rfl⟩ := matched.flush isOpen isOpen' policy
  simp only at flush flush'
  simp only [flush] at acted
  simp only [flush'] at acted'
  rw [response_of_act acted, response_of_act acted', Recorder.since_record, Recorder.since_record,
    standing_put rfl, standing_put rfl]
  exact congrArg (Response.mk _ new ⟨_, ·⟩) (congrArg Standing.machine same)

/-- Plans are executed on the machine of the thread and the buffer that was taken out. -/
theorem execute_eq (s : Session) (name : String) (b : Buffer) (rest : Named Buffer)
    (plans : List InstructionPlan) (times : Nat) :
    ({ s with buffers := rest } : Session).execute name name b plans times =
      match Host.executeTimes ⟨s.machine name, b, s.tracer⟩ 0 plans times with
      | (done, answer, h) =>
        (.executed done (match answer with | .ok () => none | .error e => some e) h.machine,
          { s with
            tracer := h.tracer
            buffers := rest.put name h.buffer
            machines := (takeMachine s.machines name).2.put name h.machine }) := by
  rw [Session.machine, ← (takeMachine_eq s.machines name).1]
  rfl

theorem response_execute (admits : s.Admits pid capacity name action)
    (admits' : s'.Admits pid capacity name action) (same : s.standing name = s'.standing name)
    (plans : List InstructionPlan) (times : Nat) :
    (s.event name name (.execute plans times)).response =
      (s'.event name name (.execute plans times)).response := by
  refine response_withBuffer (fun s => by rw [act]) same
    fun b rest rest' here there _ _ acted acted' => ?_
  have matched := Host.matched_self (s.machine name) b (admits.pid.trans admits'.pid.symm)
  obtain ⟨counts, answers, machines, buffers, _, new, first, second⟩ :=
    matched.executeTimes (admits.isOpen b here) (admits'.isOpen b there) plans 0 times
  have executed := acted.trans (execute_eq s name b rest plans times)
  have executed' := acted'.trans (execute_eq s' name b rest' plans times)
  rw [show s'.machine name = s.machine name from (congrArg Standing.machine same).symm]
    at executed'
  rcases run : Host.executeTimes ⟨s.machine name, b, s.tracer⟩ 0 plans times
    with ⟨done, answer, m₁, b₁, t⟩
  rcases run' : Host.executeTimes ⟨s.machine name, b, s'.tracer⟩ 0 plans times
    with ⟨done', answer', m₂, b₂, t'⟩
  rw [run] at counts answers machines buffers first executed
  rw [run'] at counts answers machines buffers second executed'
  simp only at counts answers machines buffers first second
  subst counts answers machines buffers
  rw [response_of_act executed, response_of_act executed', first, second, Recorder.since_record,
    Recorder.since_record, standing_put rfl, standing_put rfl, Session.machine, Session.machine,
    Named.get?_put, Named.get?_put, if_pos rfl, if_pos rfl]

/-- A buffer that goes away leaves the machine behind. -/
theorem standing_gone {rest : Named Buffer} (t : Tracer Recorder)
    (without : s.buffers.Without rest name) (distinct : s.buffers.Distinct) :
    ({ s with tracer := t, buffers := rest } : Session).standing name =
      ⟨none, s.machine name⟩ := by
  rw [standing]
  exact congrArg (Standing.mk · _) (without.get? distinct)

theorem response_drop (admits : s.Admits pid capacity name action)
    (admits' : s'.Admits pid capacity name action) (same : s.standing name = s'.standing name) :
    (s.event name name .drop).response = (s'.event name name .drop).response := by
  refine response_withBuffer (fun s => by rw [act]) same
    fun b rest rest' _ _ without without' acted acted' => ?_
  have silent : ∀ t : Tracer Recorder, t.channel.since (t.discard b).channel = [] := by
    intro t
    rw [(custody_discard .drop t b).2, Recorder.since_self]
  rw [response_of_act acted, response_of_act acted', silent, silent,
    standing_gone _ without admits.distinct, standing_gone _ without' admits'.distinct]
  exact congrArg (Response.mk _ [] ⟨none, ·⟩) (congrArg Standing.machine same)

/-- Giving back a buffer is answered alike, and sends the same. -/
theorem finish_recorded (b : Buffer) {t t' : Tracer Recorder} (pid : t.pid = t'.pid)
    (isOpen : t.channel.Open) (isOpen' : t'.channel.Open) :
    (t.finish b).1 = (t'.finish b).1 ∧ ∃ new,
      (t.finish b).2.channel = t.channel.record new ∧
      (t'.finish b).2.channel = t'.channel.record new := by
  by_cases active : b.phase = .active
  · obtain ⟨answer, b', new, flushed⟩ :=
      ({ b with phase := .draining } : Buffer).flush_recorded t.pid .forced
    rw [Tracer.finish_eq active (flushed t.channel isOpen),
      Tracer.finish_eq active (pid ▸ flushed t'.channel isOpen')]
    exact ⟨rfl, new, rfl, rfl⟩
  · rw [Tracer.finish_inactive active, Tracer.finish_inactive active]
    refine ⟨rfl, [], ?_, ?_⟩
    · rw [(custody_discard .drop t b).2, Recorder.record_nil]
    · rw [(custody_discard .drop t' b).2, Recorder.record_nil]

theorem response_finish (admits : s.Admits pid capacity name action)
    (admits' : s'.Admits pid capacity name action) (same : s.standing name = s'.standing name) :
    (s.event name name .finish).response = (s'.event name name .finish).response := by
  refine response_withBuffer (fun s => by rw [act]) same
    fun b rest rest' here there without without' acted acted' => ?_
  obtain ⟨answers, new, sent, sent'⟩ := finish_recorded b (admits.pid.trans admits'.pid.symm)
    (admits.isOpen b here) (admits'.isOpen b there)
  rcases finish : s.tracer.finish b with ⟨answer, t⟩
  rcases finish' : s'.tracer.finish b with ⟨answer', t'⟩
  rw [finish] at answers sent
  rw [finish'] at answers sent'
  simp only at answers sent sent'
  subst answers
  simp only [finish] at acted
  simp only [finish'] at acted'
  have own : s.machine name = s'.machine name := congrArg Standing.machine same
  -- Whatever the answer is, the buffer is gone.
  rcases answer with (_ | _) | _
  all_goals
    rw [response_of_act acted, response_of_act acted', sent, sent', Recorder.since_record,
      Recorder.since_record, standing_gone t without admits.distinct,
      standing_gone t' without' admits'.distinct, own]

/-- What comes of what a thread does is told by how it stands, if nothing is in the way. -/
theorem response_eq (admits : s.Admits pid capacity name action)
    (admits' : s'.Admits pid capacity name action) (same : s.standing name = s'.standing name)
    (own : action.Own) :
    (s.event name name action).response = (s'.event name name action).response := by
  cases action with
  | start tid =>
    rw [response_start admits, response_start admits', same,
      show s.buffers.get? name = s'.buffers.get? name from congrArg Standing.buffer same,
      show s.machine name = s'.machine name from congrArg Standing.machine same]
  | setRegisters values =>
    rw [response_setRegisters, response_setRegisters,
      show s.buffers.get? name = s'.buffers.get? name from congrArg Standing.buffer same,
      show s.machine name = s'.machine name from congrArg Standing.machine same]
  | buffer action => exact response_buffer same action
  | flush policy => exact response_flush admits admits' same policy
  | execute plans times => exact response_execute admits admits' same plans times
  | finish => exact response_finish admits admits' same
  | drop => exact response_drop admits admits' same
  | _ => exact own.elim

end Session

namespace Buffer

variable {a b : Buffer}

theorem SameLife.store (a : Buffer) (offset : Nat) (bs : List UInt8) :
    a.SameLife (a.store offset bs).2 := by
  unfold Buffer.store
  split
  · exact ⟨rfl, rfl, rfl, rfl⟩
  · exact .refl a

theorem SameLife.setPtr (a : Buffer) (ptr : Nat) : a.SameLife (a.setPtr ptr).2 := by
  unfold Buffer.setPtr
  split
  · exact ⟨rfl, rfl, rfl, rfl⟩
  · exact .refl a

theorem SameLife.push (a : Buffer) (e : Entry) : a.SameLife (a.push e).2 := by
  unfold Buffer.push
  split
  · exact ⟨rfl, rfl, rfl, rfl⟩
  · exact .refl a

theorem SameLife.pushSeries (a : Buffer) (e : Entry) (stride : UInt64) (times : Nat) :
    a.SameLife (a.pushSeries e stride times).2 := by
  induction times generalizing a e with
  | zero => exact .refl a
  | succ times ih =>
    have first := SameLife.push a e
    rw [Buffer.pushSeries]
    rcases pushed : a.push e with ⟨answer, b⟩
    rw [pushed] at first
    cases answer with
    | ok _ => exact first.trans (ih b _)
    | error _ => exact first

end Buffer

namespace Host

/-- Whatever plans do, the buffer is in the same phase afterwards. -/
def Lives (h : Host Recorder) (_ : Except TraceError Unit) (h' : Host Recorder) : Prop :=
  h.buffer.SameLife h'.buffer

theorem chains_lives : Chains Lives := ⟨fun h => .refl h.buffer, Buffer.SameLife.trans⟩

theorem lives_storeAt (h : Host Recorder) (base : Register) (disp : Nat) (bs : List UInt8)
    (scratch : Option (Register × UInt64)) :
    h.buffer.SameLife (h.storeAt base disp bs scratch).2.buffer := by
  obtain ⟨m, b, t⟩ := h
  simp only [storeAt]
  rcases m.offset? base disp with _ | offset
  · exact .refl b
  · have life := Buffer.SameLife.store b offset bs
    rcases stored : b.store offset bs with ⟨_ | _, b'⟩
    · simp only [stored] at life ⊢
      exact life
    · simp only [stored] at life ⊢
      exact life

theorem lives_step (h : Host Recorder) (op : Operation) :
    Lives h (h.step op).1 (h.step op).2 := by
  cases op with
  | storeImmediate16 base scratch disp value =>
    exact lives_storeAt h base disp _ (some (scratch, _))
  | storeImmediate64 base scratch disp value =>
    exact lives_storeAt h base disp _ (some (scratch, _))
  | storeRegister base disp src => exact lives_storeAt h base disp _ none
  | advance reg amount =>
    obtain ⟨m, b, t⟩ := h
    simp only [step, Lives]
    rcases m.offset? reg amount with _ | ptr
    · exact .refl b
    · have life := Buffer.SameLife.setPtr b ptr
      rcases moved : b.setPtr ptr with ⟨_ | _, b'⟩
      · simp only [moved] at life ⊢
        exact life
      · simp only [moved] at life ⊢
        exact life
  | flushCheck =>
    obtain ⟨m, b, t⟩ := h
    rcases flush : b.flush t.channel t.pid .deferrable with ⟨_ | _, b', c⟩
    · simp only [step, Lives, Tracer.flush_eq flush]
      exact Buffer.flush_life flush
    · simp only [step, Lives, Tracer.flush_eq flush]
      exact Buffer.flush_life flush
  | _ => exact .refl h.buffer

theorem lives_executeTimes (h : Host Recorder) (done : Nat) (ps : List InstructionPlan)
    (times : Nat) : h.buffer.SameLife (h.executeTimes done ps times).2.2.buffer :=
  chains_lives.executeTimes (fun h _ _ => chains_lives.exec (fun h op _ => lives_step h op) h)
    h done times

end Host

namespace Session

variable {s : Session} {name : String} {action : Action}

/-- A thread that works keeps its buffer in its phase, and makes none. -/
theorem life_of_works (works : action.Works) {b' : Buffer}
    (there : (s.act name name action).2.buffers.get? name = some b') :
    ∃ b, s.buffers.get? name = some b ∧ b.SameLife b' := by
  have used : ∀ act' : Buffer → Session → Outcome × Session,
      (∀ b rest, ∃ b', b.SameLife b' ∧
        (act' b { s with buffers := rest }).2.buffers = rest.put name b') →
      (s.withBuffer name act').2.buffers.get? name = some b' →
      ∃ b, s.buffers.get? name = some b ∧ b.SameLife b' := by
    intro act' keeps there
    rcases withBuffer_cases s name with ⟨absent, nothing⟩ | ⟨b, rest, here, _, taken⟩
    · rw [nothing] at there
      cases absent.symm.trans there
    · obtain ⟨c, life, buffers⟩ := keeps b rest
      rw [taken, buffers, Named.get?_put, if_pos rfl] at there
      cases there
      exact ⟨b, here, life⟩
  cases action with
  | setRegisters values => exact ⟨b', there, .refl b'⟩
  | buffer action =>
    cases action with
    | push e stride times =>
      exact used _ (fun b rest => ⟨_, .pushSeries b e stride times, rfl⟩) there
    | _ => exact works.elim
  | flush policy =>
    refine used _ (fun b rest => ?_) there
    rcases flush : b.flush s.tracer.channel s.tracer.pid policy with ⟨answer, c, channel⟩
    refine ⟨c, Buffer.flush_life flush, ?_⟩
    simp only [Tracer.flush_eq flush]
  | execute plans times =>
    refine used _ (fun b rest => ?_) there
    have life := Host.lives_executeTimes ⟨s.machine name, b, s.tracer⟩ 0 plans times
    rw [execute_eq]
    rcases run : Host.executeTimes ⟨s.machine name, b, s.tracer⟩ 0 plans times
      with ⟨done, answer, h⟩
    rw [run] at life
    exact ⟨h.buffer, life, rfl⟩
  | _ => exact works.elim

/-- What ends a thread takes its buffer away. -/
theorem gone_of_ending (distinct : s.buffers.Distinct) (ends : action = .finish ∨ action = .drop) :
    (s.act name name action).2.buffers.get? name = none := by
  rcases withBuffer_cases s name with ⟨absent, nothing⟩ | ⟨b, rest, _, without, taken⟩
  · rcases ends with rfl | rfl
    · rw [act, nothing]
      exact absent
    · rw [act, nothing]
      exact absent
  · have gone := without.get? distinct
    rcases ends with rfl | rfl
    · rw [act, taken]
      rcases s.tracer.finish b with ⟨(_ | _) | _, t⟩
      · exact gone
      · exact gone
      · exact gone
    · rw [act, taken]
      exact gone

/-- A buffer in use is one that was handed out just now, or was in use before. -/
theorem active_act (distinct : s.buffers.Distinct) (own : action.Own)
    (active : ∀ b, s.buffers.get? name = some b → b.phase = .active) {b' : Buffer}
    (there : (s.act name name action).2.buffers.get? name = some b') : b'.phase = .active := by
  have works : action.Works → b'.phase = .active := by
    intro works
    obtain ⟨b, here, life⟩ := life_of_works works there
    exact life.phase.trans (active b here)
  cases action with
  | start tid =>
    rcases started_or_idle s name name tid with
      ⟨c, _, _, _, _, _, fresh, started⟩ | ⟨_, _, idle⟩
    · rw [started] at there
      simp only at there
      rw [Named.get?_put, if_pos rfl] at there
      cases there
      exact fresh.active
    · rw [idle] at there
      exact active b' there
  | finish => cases (gone_of_ending distinct (.inl rfl)).symm.trans there
  | drop => cases (gone_of_ending distinct (.inr rfl)).symm.trans there
  | _ => exact works own

end Session

end AccessTrace
