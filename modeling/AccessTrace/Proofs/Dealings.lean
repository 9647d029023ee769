import Mathlib
import AccessTrace.Proofs.Exchanges

/-!
# What is done to a buffer is an exchange

As long as buffers are used as traced threads use them (`Counted`), each action on one is an
exchange with the channel, after which the buffer is there or has gone away with what it had sent
(`dealt_act`); an action under a name without a buffer sends nothing (`sent_of_vacant`).
-/

namespace AccessTrace

/-- Whether only the first bytes of a message were taken. -/
def Outcome.cut (o : Outcome) : Bool := o.failure?.any (·.cut)

/-- When an action delivers: plans do it if a check finds the buffer full enough. -/
def Action.policy : Action → FlushPolicy
  | execute _ _ => .deferrable
  | flush policy => policy
  | _ => .forced

/-- What is counted: deliveries of buffers that were handed out, into which entries are put in whole
slots, while nobody else sends, closes the channel, counts, registers or frees. -/
def Action.Counted : Action → Prop
  | start _ | setRegisters _ | machine | channel | flush _ | finish | drop => True
  | buffer (.setPtr _) | buffer (.addRefs _) | buffer .markRegistered => False
  | buffer _ => True
  | execute plans _ => ∃ ps : List PlannedInstruction, plans = ps.map (·.plan)
  | _ => False

/-- What is done to a buffer is an exchange with the channel. The buffer is there afterwards, or has
gone away with what it had sent. -/
structure Event.Dealt (e : Event) (b b' : Buffer) (whole : List (List UInt8))
    (cut : Option (List UInt8)) : Prop where
  exchange : Buffer.Exchange e.action.policy e.before.tracer.pid b e.before.tracer.channel b'
    e.after.tracer.channel whole cut
  cut : e.outcome.cut = cut.isSome
  left : (e.after.buffers.get? e.name = some b' ∧ e.ended? = none) ∨
    (e.after.buffers.get? e.name = none ∧ e.ended? = some b'.refs)

namespace Session

variable {s : Session} {name machineName : String} {b : Buffer}

theorem dealt_idle {action : Action} {outcome : Outcome} {s' : Session}
    (acted : s.act name machineName action = (outcome, s'))
    (here : s.buffers.get? name = some b) (aligned : b.ptr % Entry.byteSize = 0)
    (buffers : s'.buffers = s.buffers) (tracer : s'.tracer = s.tracer)
    (ended : (s.event name machineName action).ended? = none) (uncut : outcome.cut = false) :
    (s.event name machineName action).Dealt b b [] none := by
  have after : (s.event name machineName action).after = s' := congrArg Prod.snd acted
  have result : (s.event name machineName action).outcome = outcome := congrArg Prod.fst acted
  refine ⟨?_, by rw [result, uncut]; rfl, .inl ⟨?_, ended⟩⟩
  · rw [after, tracer]
    exact .silent (.refl b) aligned
  · rw [after, buffers]
    exact here

/-- Entries are put in whole slots. -/
theorem aligned_apply {action : BufferAction} (counted : (Action.buffer action).Counted)
    (aligned : b.ptr % Entry.byteSize = 0) : (action.apply b).2.ptr % Entry.byteSize = 0 := by
  have kept : ∀ b' : Buffer, b'.ptr = b.ptr → b'.ptr % Entry.byteSize = 0 := by
    intro b' same
    rw [same]
    exact aligned
  have stores : ∀ offset bs, (b.store offset bs).2.ptr = b.ptr := by
    intro offset bs
    unfold Buffer.store
    split <;> rfl
  cases action with
  | push e stride times => exact (Buffer.pushed_pushSeries aligned e stride times).aligned
  | store16 offset value => exact kept _ (stores offset _)
  | store64 offset value => exact kept _ (stores offset _)
  | writeHeader => exact kept _ b.sameButBytes_writeHeader.ptr
  | reset => exact Nat.mod_self _
  | transition target =>
    apply kept
    simp only [BufferAction.apply, Buffer.transition]
    split <;> rfl
  | pending => exact aligned
  | occupied => exact aligned
  | header => exact aligned
  | _ => exact counted.elim

/-- A buffer that was taken out is put back. -/
theorem dealt_put {action : Action} {outcome : Outcome} {s' : Session} {b' : Buffer}
    {rest : Named Buffer} {whole : List (List UInt8)} {cut : Option (List UInt8)}
    (acted : s.act name machineName action = (outcome, s'))
    (buffers : s'.buffers = rest.put name b')
    (ended : (s.event name machineName action).ended? = none)
    (exchange : Buffer.Exchange action.policy s.tracer.pid b s.tracer.channel b' s'.tracer.channel
      whole cut) (result : outcome.cut = cut.isSome) :
    (s.event name machineName action).Dealt b b' whole cut := by
  rw [event, acted] at ended ⊢
  refine ⟨exchange, result, .inl ⟨?_, ended⟩⟩
  simp only [buffers]
  rw [Named.get?_put, if_pos rfl]

theorem dealt_buffer {action : BufferAction} (counted : (Action.buffer action).Counted)
    (here : s.buffers.get? name = some b) (aligned : b.ptr % Entry.byteSize = 0) :
    ∃ b', (s.event name machineName (.buffer action)).Dealt b b' [] none := by
  have same : b.SameAccount (action.apply b).2 := by
    apply Buffer.SameAccount.apply
    · rintro n rfl
      exact counted
    · rintro rfl
      exact counted
  have aligned' := aligned_apply counted aligned
  have silent := BufferAction.failure?_apply b action
  obtain ⟨rest, without, taken⟩ := withBuffer_of_get? here
  rcases applied : action.apply b with ⟨outcome, b'⟩
  rw [applied] at same aligned' silent
  have acted : s.act name machineName (.buffer action) =
      (outcome, { s with buffers := rest.put name b' }) := by
    rw [act, taken]
    simp only [applied]
  refine ⟨b', dealt_put acted rfl rfl (.silent same aligned') ?_⟩
  rw [Outcome.cut, silent]
  rfl

/-- How an outcome tells of a message that was cut. -/
theorem cut_of_exchanged {policy : FlushPolicy} {h h' : Host Recorder} {whole : List (List UInt8)}
    {cut : Option (List UInt8)} {answer : Except TraceError FlushOutcome}
    (exchanged : Host.Exchanged policy h answer h' whole cut) :
    (Outcome.ofFlush .traceError answer).cut = cut.isSome := by
  cases answer with
  | ok outcome =>
    rw [exchanged.succeeded outcome rfl]
    rfl
  | error e => exact exchanged.failed e rfl

theorem dealt_flush (machineName : String) (policy : FlushPolicy)
    (here : s.buffers.get? name = some b) (isOpen : s.tracer.channel.closed = false)
    (aligned : b.ptr % Entry.byteSize = 0) :
    ∃ b' whole cut, (s.event name machineName (.flush policy)).Dealt b b' whole cut ∧
      (¬ (policy = .deferrable && b.mayDefer) = true →
        Buffer.Delivering b.registered whole cut) := by
  obtain ⟨whole, cut, exchanged, sent⟩ :=
    Host.exchanged_flush (s.machine machineName) isOpen aligned policy
  obtain ⟨rest, without, taken⟩ := withBuffer_of_get? here
  rcases flush : s.tracer.flush b policy with ⟨answer, b', t⟩
  rw [flush] at exchanged
  have acted : s.act name machineName (.flush policy) = (.ofFlush .traceError answer,
      { s with tracer := t, buffers := rest.put name b' }) := by
    rw [act, taken]
    simp only [flush]
  exact ⟨b', whole, cut, dealt_put acted rfl rfl exchanged.exchange (cut_of_exchanged exchanged),
    sent⟩

theorem dealt_execute (ps : List PlannedInstruction) (times : Nat)
    (here : s.buffers.get? name = some b) (isOpen : s.tracer.channel.closed = false)
    (aligned : b.ptr % Entry.byteSize = 0) : ∃ b' whole cut,
      (s.event name machineName (.execute (ps.map (·.plan)) times)).Dealt b b' whole cut := by
  obtain ⟨rest, without, taken⟩ := withBuffer_of_get? here
  rcases machines : takeMachine s.machines machineName with ⟨m, machines'⟩
  obtain ⟨whole, cut, exchanged⟩ :=
    Host.exchanges_executeTimes ps ⟨m, b, s.tracer⟩ 0 times isOpen aligned
  rcases run : Host.executeTimes ⟨m, b, s.tracer⟩ 0 (ps.map (·.plan)) times with ⟨done, answer, h'⟩
  rw [run] at exchanged
  have acted := act.eq_def s name machineName (.execute (ps.map (·.plan)) times)
  simp only [taken, execute, machines, run] at acted
  refine ⟨h'.buffer, whole, cut, dealt_put acted rfl rfl exchanged.exchange ?_⟩
  cases answer with
  | ok _ =>
    rw [exchanged.succeeded () rfl]
    rfl
  | error e => exact exchanged.failed e rfl

/-- A buffer that was taken out is gone. -/
theorem dealt_gone {action : Action} {outcome : Outcome} {s' : Session} {b' : Buffer}
    {rest : Named Buffer} {whole : List (List UInt8)} {cut : Option (List UInt8)}
    (acted : s.act name machineName action = (outcome, s')) (distinct : s.buffers.Distinct)
    (without : s.buffers.Without rest name) (buffers : s'.buffers = rest)
    (ended : (s.event name machineName action).ended? = some b'.refs)
    (exchange : Buffer.Exchange action.policy s.tracer.pid b s.tracer.channel b' s'.tracer.channel
      whole cut) (result : outcome.cut = cut.isSome) :
    (s.event name machineName action).Dealt b b' whole cut := by
  rw [event, acted] at ended ⊢
  refine ⟨exchange, result, .inr ⟨?_, ended⟩⟩
  simp only [buffers]
  exact without.get? distinct

/-- Letting go of a buffer sends nothing. -/
theorem dealt_discard {action : Action} {outcome : Outcome} {rest : Named Buffer}
    (acted : s.act name machineName action =
      (outcome, { s with tracer := s.tracer.discard b, buffers := rest }))
    (distinct : s.buffers.Distinct) (without : s.buffers.Without rest name)
    (aligned : b.ptr % Entry.byteSize = 0)
    (ended : (s.event name machineName action).ended? = some b.refs)
    (result : outcome.cut = false) :
    (s.event name machineName action).Dealt b b [] none := by
  refine dealt_gone acted distinct without rfl ended ?_ result
  simp only
  rw [(custody_discard action s.tracer b).2]
  exact .silent (.refl b) aligned

/-- A buffer that is given back is delivered if it is active, and let go of otherwise. -/
theorem dealt_finish (machineName : String) (distinct : s.buffers.Distinct)
    (here : s.buffers.get? name = some b) (isOpen : s.tracer.channel.closed = false)
    (aligned : b.ptr % Entry.byteSize = 0) :
    ∃ b' whole cut, (s.event name machineName .finish).Dealt b b' whole cut ∧
      (b.phase = .active → Buffer.Delivering b.registered whole cut) := by
  obtain ⟨rest, without, taken⟩ := withBuffer_of_get? here
  have acted := act.eq_def s name machineName .finish
  simp only [taken] at acted
  by_cases active : b.phase = .active
  · rcases flush : ({ b with phase := .draining } : Buffer).flush s.tracer.channel s.tracer.pid
      .forced with ⟨answer, b', c'⟩
    obtain ⟨whole, cut, exchange, told, sent⟩ :=
      Buffer.exchange_flush (b := { b with phase := .draining }) isOpen aligned flush
    have begun : Buffer.Exchange .forced s.tracer.pid b s.tracer.channel
        { b with phase := .draining } s.tracer.channel [] none :=
      .silent ⟨rfl, rfl, rfl, rfl, rfl⟩ aligned
    simp only [Tracer.finish_eq active flush] at acted
    refine ⟨b', whole, cut, ?_, fun _ => sent (by simp)⟩
    cases answer with
    | ok outcome =>
      refine dealt_gone acted distinct without rfl ?_ (begun.trans exchange) ?_
      · simp only [Event.ended?, Event.buffer?, event, here, acted]
        rfl
      · rw [show cut = none from told]
        rfl
    | error e =>
      refine dealt_gone acted distinct without rfl ?_ (begun.trans exchange) ?_
      · have refs : b'.refs = b.refs :=
          (Buffer.unsent_of_flush_error (b := { b with phase := .draining }) flush).refs
        simp only [Event.ended?, Event.buffer?, event, here, acted, refs]
        rfl
      · exact told.1.trans told.2.symm
  · simp only [Tracer.finish_inactive active] at acted
    refine ⟨b, [], none, dealt_discard acted distinct without aligned ?_ rfl,
      fun now => absurd now active⟩
    simp only [Event.ended?, Event.buffer?, event, here, acted]

theorem dealt_drop (machineName : String) (distinct : s.buffers.Distinct)
    (here : s.buffers.get? name = some b) (aligned : b.ptr % Entry.byteSize = 0) :
    (s.event name machineName .drop).Dealt b b [] none := by
  obtain ⟨rest, without, taken⟩ := withBuffer_of_get? here
  have acted := act.eq_def s name machineName .drop
  simp only [taken] at acted
  refine dealt_discard acted distinct without aligned ?_ rfl
  simp only [Event.ended?, Event.buffer?, event, here]

/-- What is counted deals with a buffer in an exchange, and delivers what cannot be put off. -/
theorem dealt_act (distinct : s.buffers.Distinct) {action : Action} (counted : action.Counted)
    (here : s.buffers.get? name = some b) (isOpen : s.tracer.channel.closed = false)
    (aligned : b.ptr % Entry.byteSize = 0) :
    ∃ b' whole cut, (s.event name machineName action).Dealt b b' whole cut ∧
      ((s.event name machineName action).delivers = true →
        Buffer.Delivering b.registered whole cut) := by
  have quiet : (s.event name machineName action).delivers = false → ∀ {P : Prop},
      (s.event name machineName action).delivers = true → P := by
    intro idle P delivers
    cases idle.symm.trans delivers
  cases action with
  | start tid =>
    have idle : s.act name machineName (.start tid) = (.nameInUse, s) := by
      rw [act, here]
      rfl
    exact ⟨b, [], none, dealt_idle idle here aligned rfl rfl rfl rfl, quiet rfl⟩
  | channel => exact ⟨b, [], none, dealt_idle rfl here aligned rfl rfl rfl rfl, quiet rfl⟩
  | machine => exact ⟨b, [], none, dealt_idle rfl here aligned rfl rfl rfl rfl, quiet rfl⟩
  | setRegisters values =>
    obtain ⟨machines, acted⟩ := act_setRegisters s name machineName values
    exact ⟨b, [], none, dealt_idle acted here aligned rfl rfl rfl rfl, quiet rfl⟩
  | buffer action =>
    obtain ⟨b', dealt⟩ := dealt_buffer counted here aligned
    exact ⟨b', [], none, dealt, quiet rfl⟩
  | flush policy =>
    obtain ⟨b', whole, cut, dealt, sent⟩ := dealt_flush machineName policy here isOpen aligned
    refine ⟨b', whole, cut, dealt, fun delivers => sent ?_⟩
    rw [Event.delivers_flush (e := s.event name machineName (.flush policy)) rfl here,
      Bool.not_eq_true', ← Bool.not_eq_true] at delivers
    exact delivers
  | execute plans times =>
    obtain ⟨ps, rfl⟩ := counted
    obtain ⟨b', whole, cut, dealt⟩ := dealt_execute ps times here isOpen aligned
    exact ⟨b', whole, cut, dealt, quiet rfl⟩
  | finish =>
    obtain ⟨b', whole, cut, dealt, sent⟩ := dealt_finish machineName distinct here isOpen aligned
    refine ⟨b', whole, cut, dealt, fun delivers => sent ?_⟩
    rw [Event.delivers_finish (e := s.event name machineName .finish) rfl here] at delivers
    exact of_decide_eq_true delivers
  | drop => exact ⟨b, [], none, dealt_drop machineName distinct here aligned, quiet rfl⟩
  | _ => exact counted.elim

/-- Where there is no buffer, nothing is sent. -/
theorem sent_of_vacant (s : Session) {name : String} (machineName : String) {action : Action}
    (counted : action.Counted) (absent : s.buffers.get? name = none) :
    (s.event name machineName action).after.tracer.channel = s.tracer.channel ∧
      (s.event name machineName action).outcome.cut = false := by
  have idle : ∀ act : Buffer → Session → Outcome × Session,
      (s.withBuffer name act).2.tracer.channel = s.tracer.channel ∧
        (s.withBuffer name act).1.cut = false := by
    intro act
    rw [withBuffer_of_vacant absent]
    exact ⟨rfl, rfl⟩
  rw [event]
  cases action with
  | start tid =>
    rcases started_or_idle s name machineName tid with
      ⟨_, _, _, _, _, _, _, started⟩ | ⟨outcome, failure, nothing⟩
    · rw [started]
      exact ⟨rfl, rfl⟩
    · rw [nothing]
      refine ⟨rfl, ?_⟩
      rcases failure with rfl | ⟨e, other, rfl⟩
      · rfl
      · cases e with
        | channel cause => exact absurd rfl (other cause)
        | _ => rfl
  | channel => exact ⟨rfl, rfl⟩
  | machine => exact ⟨rfl, rfl⟩
  | setRegisters values =>
    obtain ⟨machines, acted⟩ := act_setRegisters s name machineName values
    rw [acted]
    exact ⟨rfl, rfl⟩
  | buffer action => exact idle _
  | flush policy => exact idle _
  | execute plans times => exact idle _
  | finish => exact idle _
  | drop => exact idle _
  | _ => exact counted.elim

end Session

/-- What is counted in a run deals with a buffer in an exchange, and delivers what cannot be put
off. -/
theorem Event.Within.dealt {s₀ : Session} {e : Event} (within : e.Within s₀)
    (counted : e.action.Counted) {b : Buffer} (here : e.buffer? = some b)
    (isOpen : e.before.tracer.channel.closed = false) (aligned : b.ptr % Entry.byteSize = 0) :
    ∃ b' whole cut, e.Dealt b b' whole cut ∧
      (e.delivers = true → Buffer.Delivering b.registered whole cut) := by
  rw [← within.acted]
  exact Session.dealt_act within.distinct counted here isOpen aligned

/-- An action under a name that has no buffer sends nothing. -/
theorem Event.sent_of_vacant {e : Event} (acted : e.before.event e.name e.machine e.action = e)
    (counted : e.action.Counted) (absent : e.buffer? = none) :
    e.sent = [] ∧ e.outcome.cut = false := by
  obtain ⟨same, uncut⟩ := e.before.sent_of_vacant e.machine counted absent
  rw [acted] at same uncut
  rw [sent, same]
  exact ⟨List.drop_eq_nil_of_le (Nat.le_of_eq Array.length_toList), uncut⟩

end AccessTrace
