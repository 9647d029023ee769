import Mathlib
import AccessTrace.Proofs.Progress
import AccessTrace.Session.Basic

/-!
# One action of a session

What an action does is done to the buffer and the machine under its names and to the tracer
(`Turn`); every other thread keeps what it has (`Elsewhere`). A turn starts a thread, lets it work,
ends it, or does nothing that matters.
-/

namespace AccessTrace

namespace Named

variable {α : Type} {vs rest : Named α} {name other : String} {v : α}

/-- No name has two values. -/
def Distinct (vs : Named α) : Prop := (vs.map Prod.fst).Nodup

theorem get?_put (vs : Named α) (name other : String) (v : α) :
    (vs.put name v).get? other = if other = name then some v else vs.get? other := by
  rw [get?, put, List.lookup_cons]
  by_cases same : other = name
  · rw [if_pos same, same, beq_self_eq_true]
  · rw [if_neg same, beq_false_of_ne same]
    rfl

theorem get?_eq_none_iff : vs.get? name = none ↔ name ∉ vs.map Prod.fst := by
  rw [get?, List.lookup_eq_none_iff]
  constructor
  · intro absent mem
    obtain ⟨p, found, rfl⟩ := List.mem_map.1 mem
    exact bne_iff_ne.1 (absent p found) rfl
  · intro absent p mem
    rw [bne_iff_ne]
    rintro rfl
    exact absent (List.mem_map_of_mem mem)

theorem take?_split (taken : vs.take? name = some (v, rest)) :
    ∃ front back, vs = front ++ (name, v) :: back ∧ rest = front ++ back ∧
      name ∉ front.map Prod.fst := by
  induction vs generalizing rest with
  | nil => cases taken
  | cons head tail ih =>
    obtain ⟨n, w⟩ := head
    unfold take? at taken
    split at taken
    · rename_i same
      cases taken
      exact ⟨[], tail, by rw [same]; rfl, rfl, by simp⟩
    · rename_i differs
      split at taken
      · cases taken
      · rename_i found rest' deeper
        cases taken
        obtain ⟨front, back, all, left, absent⟩ := ih deeper
        refine ⟨(n, w) :: front, back, by rw [all]; rfl, by rw [left]; rfl, ?_⟩
        rw [List.map_cons, List.mem_cons, not_or]
        exact ⟨Ne.symm differs, absent⟩

theorem take?_of_get? (here : vs.get? name = some v) : ∃ rest, vs.take? name = some (v, rest) := by
  have found := take?_map_fst vs name
  rw [here, Option.map_eq_some_iff] at found
  obtain ⟨⟨w, rest⟩, taken, same⟩ := found
  obtain rfl : w = v := same
  exact ⟨rest, taken⟩

theorem take?_none (absent : vs.get? name = none) : vs.take? name = none := by
  have found := take?_map_fst vs name
  rw [absent, Option.map_eq_none_iff] at found
  exact found

/-- What is left when a value was taken out. -/
structure Without (vs rest : Named α) (name : String) : Prop where
  others : ∀ other ≠ name, rest.get? other = vs.get? other
  distinct : vs.Distinct → rest.Distinct ∧ name ∉ rest.map Prod.fst

theorem without_of_take? (taken : vs.take? name = some (v, rest)) : vs.Without rest name := by
  obtain ⟨front, back, rfl, rfl, absent⟩ := take?_split taken
  constructor
  · intro other differs
    rw [get?, get?, List.lookup_append, List.lookup_append, List.lookup_cons,
      beq_false_of_ne differs]
  · intro distinct
    rw [Distinct, List.map_append, List.map_cons, List.nodup_middle, List.nodup_cons] at distinct
    rw [Distinct, List.map_append]
    exact ⟨distinct.2, distinct.1⟩

theorem without_self (absent : vs.get? name = none) : vs.Without vs name :=
  ⟨fun _ _ => rfl, fun distinct => ⟨distinct, get?_eq_none_iff.1 absent⟩⟩

theorem Without.get? (without : vs.Without rest name) (distinct : vs.Distinct) :
    Named.get? rest name = none := get?_eq_none_iff.2 (without.distinct distinct).2

theorem Without.put (without : vs.Without rest name) (v : α) :
    (∀ other ≠ name, (Named.put rest name v).get? other = vs.get? other) ∧
      (vs.Distinct → (Named.put rest name v).Distinct) := by
  constructor
  · intro other differs
    rw [get?_put, if_neg differs, without.others other differs]
  · intro distinct
    obtain ⟨apart, absent⟩ := without.distinct distinct
    exact List.nodup_cons.2 ⟨absent, apart⟩

end Named

namespace Session

/-- Nothing but the named buffer and machine has changed, the tracer apart. -/
structure Elsewhere (s s' : Session) (name machineName : String) : Prop where
  buffers : ∀ other ≠ name, s'.buffers.get? other = s.buffers.get? other
  distinct : s.buffers.Distinct → s'.buffers.Distinct
  machines : ∀ other ≠ machineName, s'.machine other = s.machine other
  exits : s'.exits = s.exits

theorem Elsewhere.refl (s : Session) (name machineName : String) :
    s.Elsewhere s name machineName := ⟨fun _ _ => rfl, id, fun _ _ => rfl, rfl⟩

theorem takeMachine_eq (machines : Named Machine) (name : String) :
    (takeMachine machines name).1 = (machines.get? name).getD {} ∧
      ∀ other ≠ name, (takeMachine machines name).2.get? other = machines.get? other := by
  rw [takeMachine]
  cases here : machines.get? name with
  | none =>
    rw [Named.take?_none here]
    exact ⟨rfl, fun _ _ => rfl⟩
  | some m =>
    obtain ⟨rest, taken⟩ := Named.take?_of_get? here
    rw [taken]
    exact ⟨rfl, (Named.without_of_take? taken).others⟩

/-- What takes a buffer gets the one under the name, or nothing is done. -/
theorem withBuffer_cases (s : Session) (name : String) :
    (s.buffers.get? name = none ∧ ∀ act : Buffer → Session → Outcome × Session,
      s.withBuffer name act = (.noBuffer, s)) ∨
    ∃ b rest, s.buffers.get? name = some b ∧ s.buffers.Without rest name ∧
      ∀ act : Buffer → Session → Outcome × Session,
        s.withBuffer name act = act b { s with buffers := rest } := by
  obtain ⟨tracer, buffers, machines, exits⟩ := s
  cases here : buffers.get? name with
  | none =>
    refine .inl ⟨rfl, fun act => ?_⟩
    rw [withBuffer, Named.take?_none here]
  | some b =>
    obtain ⟨rest, taken⟩ := Named.take?_of_get? here
    refine .inr ⟨b, rest, rfl, Named.without_of_take? taken, fun act => ?_⟩
    simp only [withBuffer, taken]

theorem withBuffer_of_vacant {s : Session} {name : String} (absent : s.buffers.get? name = none)
    (act : Buffer → Session → Outcome × Session) : s.withBuffer name act = (.noBuffer, s) := by
  rcases withBuffer_cases s name with ⟨_, nothing⟩ | ⟨b, rest, there, _⟩
  · exact nothing act
  · cases absent.symm.trans there

theorem withBuffer_of_get? {s : Session} {name : String} {b : Buffer}
    (here : s.buffers.get? name = some b) :
    ∃ rest, s.buffers.Without rest name ∧ ∀ act : Buffer → Session → Outcome × Session,
      s.withBuffer name act = act b { s with buffers := rest } := by
  rcases withBuffer_cases s name with ⟨absent, _⟩ | ⟨c, rest, there, without, taken⟩
  · cases here.symm.trans absent
  · cases here.symm.trans there
    exact ⟨rest, without, taken⟩

/-- Registers are those of a machine: nothing else is touched. -/
theorem act_setRegisters (s : Session) (name machineName : String)
    (values : List (Register × UInt64)) :
    ∃ machines, s.act name machineName (.setRegisters values) = (.done, { s with machines }) := by
  obtain ⟨tracer, buffers, machines, exits⟩ := s
  rcases taken : takeMachine machines machineName with ⟨m, rest⟩
  simp only [act, taken]
  exact ⟨_, rfl⟩

/-- What a thread's action does to it and to the tracer: `es` is held before it and `es'` after it,
`added` is what has come in and `told` what was sent. -/
inductive Turn (t : Tracer Recorder) : Option Buffer → List Entry → Tracer Recorder →
    Option Buffer → List Entry → List Entry → Log → Prop
  /-- Nothing happens that matters to others. -/
  | idle (b : Option Buffer) (es : List Entry) : Turn t b es t b es [] []
  /-- The thread starts. -/
  | started {b : Buffer} (running : t.roster.exited = false) (new : b.tid ∉ t.roster.live)
    (fresh : Tracer.Fresh b) :
    Turn t none [] { t with roster := t.roster.enter b.tid } (some b) [] [] []
  /-- The thread works on its buffer. -/
  | worked {h h' : Host Recorder} {es es' added : List Entry} {payloads : List (List Entry)}
    (tracer : h.tracer = t) (advance : Host.Advance h h' es es' added payloads) :
    Turn t (some h.buffer) es h'.tracer (some h'.buffer) es' added
      (Log.talk h.buffer.tid h.buffer.registered payloads)
  /-- The thread ends and delivers what it holds. -/
  | finished {b : Buffer} {es : List Entry} {refs : Nat} {messages : Array (List UInt8)}
    {new : List (List UInt8)} (grown : messages.toList = t.channel.messages.toList ++ new)
    (sent : Log.Sent t.pid new (Log.talk b.tid b.registered [es])) :
    Turn t (some b) es
      { t with channel := { t.channel with messages }, roster := t.roster.leave b.tid refs }
      none [] [] (Log.talk b.tid b.registered [es])
  /-- The thread ends without that. -/
  | dropped {b : Buffer} (es : List Entry) :
    Turn t (some b) es { t with roster := t.roster.abandon b.tid b.refs } none [] [] []

/-- An action was a turn of the thread and left all others alone. -/
structure Turned (s s' : Session) (name machineName : String) (es es' added : List Entry)
    (told : Log) : Prop where
  turn : Turn s.tracer (s.buffers.get? name) es s'.tracer (s'.buffers.get? name) es' added told
  elsewhere : s.Elsewhere s' name machineName

/-- A thread is ready to act: it has no buffer, or one that was handed out by the tracer and holds
`es`, and then the channel is open. -/
structure Ready (s : Session) (name : String) (es : List Entry) : Prop where
  distinct : s.buffers.Distinct
  empty : s.buffers.get? name = none → es = []
  active : ∀ b, s.buffers.get? name = some b → b.phase = .active
  attached : ∀ b, s.buffers.get? name = some b → b.attached = true
  holds : ∀ b, s.buffers.get? name = some b → b.Holds es
  isOpen : ∀ b, s.buffers.get? name = some b → s.tracer.channel.Open

variable {s : Session} {name : String} {es : List Entry}

theorem turned_idle (s : Session) (name machineName : String) (es : List Entry) :
    Turned s s name machineName es es [] [] := ⟨.idle _ _, .refl _ _ _⟩

/-- Where a buffer is put under a name, others keep theirs. -/
theorem elsewhere_put {s s' : Session} {name machineName : String} {rest : Named Buffer}
    {b : Buffer} (without : s.buffers.Without rest name) (buffers : s'.buffers = rest.put name b)
    (machines : ∀ other ≠ machineName, s'.machine other = s.machine other)
    (exits : s'.exits = s.exits) : s.Elsewhere s' name machineName := by
  obtain ⟨others, distinct⟩ := without.put b
  refine ⟨fun other differs => ?_, fun d => ?_, machines, exits⟩
  · rw [buffers]
    exact others other differs
  · rw [buffers]
    exact distinct d

/-- Where a buffer goes away, others keep theirs. -/
theorem elsewhere_gone {s s' : Session} {name machineName : String} {rest : Named Buffer}
    (without : s.buffers.Without rest name) (buffers : s'.buffers = rest)
    (machines : s'.machines = s.machines) (exits : s'.exits = s.exits) :
    s.Elsewhere s' name machineName := by
  refine ⟨fun other differs => ?_, fun distinct => ?_, fun other _ => ?_, exits⟩
  · rw [buffers, without.others other differs]
  · rw [buffers]
    exact (without.distinct distinct).1
  · rw [machine, machines, machine]

/-- What is done to a buffer that was taken out is a turn if it is put back. -/
theorem turned_put {s' : Session} {b b' : Buffer} {machineName : String} {rest : Named Buffer}
    {es' added : List Entry} {told : Log} (here : s.buffers.get? name = some b)
    (without : s.buffers.Without rest name) (buffers : s'.buffers = rest.put name b')
    (machines : ∀ other ≠ machineName, s'.machine other = s.machine other)
    (exits : s'.exits = s.exits)
    (turn : Turn s.tracer (some b) es s'.tracer (some b') es' added told) :
    Turned s s' name machineName es es' added told where
  turn := by
    rw [here, buffers, Named.get?_put, if_pos rfl]
    exact turn
  elsewhere := elsewhere_put without buffers machines exits

/-- It is the thread's last turn if it is not put back. -/
theorem turned_gone {s' : Session} {b : Buffer} {machineName : String} {rest : Named Buffer}
    {told : Log} (here : s.buffers.get? name = some b)
    (without : s.buffers.Without rest name) (distinct : s.buffers.Distinct)
    (buffers : s'.buffers = rest) (machines : s'.machines = s.machines)
    (exits : s'.exits = s.exits) (turn : Turn s.tracer (some b) es s'.tracer none [] [] told) :
    Turned s s' name machineName es [] [] told where
  turn := by
    rw [here, buffers, without.get? distinct]
    exact turn
  elsewhere := elsewhere_gone without buffers machines exits

theorem turned_setRegisters (s : Session) (name machineName : String)
    (values : List (Register × UInt64)) (es : List Entry) :
    Turned s (s.act name machineName (.setRegisters values)).2 name machineName es es [] [] ∧
      (s.act name machineName (.setRegisters values)).2.machine machineName =
        (s.machine machineName).setAll values := by
  obtain ⟨tracer, buffers, machines, exits⟩ := s
  obtain ⟨taken, others⟩ := takeMachine_eq machines machineName
  rcases here : takeMachine machines machineName with ⟨m, rest⟩
  rw [here] at taken others
  simp only [act, here]
  refine ⟨⟨.idle _ _, fun _ _ => rfl, id, fun other differs => ?_, rfl⟩, ?_⟩
  · simp only [machine]
    rw [Named.get?_put, if_neg differs, others other differs]
  · simp only [machine]
    rw [Named.get?_put, if_pos rfl, ← taken]
    rfl

/-- Executing plans adds what those that were executed call for. -/
theorem turned_execute (ready : s.Ready name es) (machineName : String)
    (ps : List PlannedInstruction) (times : Nat) :
    ∃ es' added told,
      Turned s (s.act name machineName (.execute (ps.map (·.plan)) times)).2 name machineName
        es es' added told ∧
      ((s.buffers.get? name = none ∧ added = []) ∨ ∃ b done failure m,
        s.buffers.get? name = some b ∧
        (s.act name machineName (.execute (ps.map (·.plan)) times)).1 =
          .executed done failure m ∧
        added = ((List.replicate times ps).flatten.take done).flatMap fun p =>
          p.called (s.machine machineName).get) ∧
      ∀ done m, (s.act name machineName (.execute (ps.map (·.plan)) times)).1 =
          .executed done none m →
        added = ((List.replicate times ps).flatten.flatMap fun p =>
          p.called (s.machine machineName).get) ∧
        ((s.act name machineName (.execute (ps.map (·.plan)) times)).2.machine
          machineName).registers = (s.machine machineName).registers := by
  simp only [act]
  rcases withBuffer_cases s name with ⟨absent, nothing⟩ | ⟨b, rest, here, without, taken⟩
  · rw [nothing]
    refine ⟨es, [], [], turned_idle _ _ _ _, .inl ⟨absent, rfl⟩, fun done m failed => ?_⟩
    cases failed
  · rw [taken]
    obtain ⟨machineTaken, others⟩ := takeMachine_eq s.machines machineName
    rcases machines : takeMachine s.machines machineName with ⟨m, machines'⟩
    rw [machines] at machineTaken others
    obtain rfl : m = s.machine machineName := machineTaken
    obtain ⟨done, answer, h', run, executed, all⟩ := Host.executed_times
      (h := { machine := s.machine machineName, buffer := b, tracer := s.tracer })
      (ready.isOpen b here) (ready.holds b here) ps times
    obtain ⟨es', payloads, advance⟩ := executed.advance
    simp only [execute, machines, run]
    refine ⟨es', _, _, turned_put here without rfl (fun other differs => ?_) rfl
      (.worked rfl advance), .inr ⟨b, done, _, _, here, rfl, rfl⟩, fun done' m' ok => ?_⟩
    · simp only [machine]
      rw [Named.get?_put, if_neg differs, others other differs]
    · have succeeded : answer = .ok () := by
        cases answer with
        | ok _ => rfl
        | error e => cases ok
      rw [all succeeded, List.take_length]
      refine ⟨rfl, ?_⟩
      simp only [machine]
      rw [Named.get?_put, if_pos rfl]
      exact executed.registers succeeded

/-- Starting a thread puts its buffer under the name, or does nothing. -/
theorem started_or_idle (s : Session) (name machineName : String) (tid : UInt64) :
    (∃ b, s.buffers.get? name = none ∧ b.tid = tid ∧ b.capacity = s.tracer.capacity ∧
      s.tracer.roster.exited = false ∧ b.tid ∉ s.tracer.roster.live ∧ Tracer.Fresh b ∧
      s.act name machineName (.start tid) = (.ofBuffer b, { s with
        tracer := { s.tracer with roster := s.tracer.roster.enter b.tid }
        buffers := s.buffers.put name b })) ∨
    ∃ outcome, (outcome = .nameInUse ∨ ∃ e, (∀ cause, e ≠ .channel cause) ∧
      outcome = .traceError e) ∧ s.act name machineName (.start tid) = (outcome, s) := by
  simp only [act]
  cases here : s.buffers.get? name with
  | some b => exact .inr ⟨_, .inl rfl, rfl⟩
  | none =>
    rcases s.tracer.start_eq tid with
      ⟨b, started, same, capacity, running, new, fresh⟩ | ⟨e, other, failed⟩
    · left
      refine ⟨b, rfl, same, capacity, running, new, fresh, ?_⟩
      rw [started]
      rfl
    · right
      rw [failed]
      exact ⟨_, .inr ⟨e, other, rfl⟩, rfl⟩

theorem turned_start (ready : s.Ready name es) (machineName : String) (tid : UInt64) :
    ∃ es', Turned s (s.act name machineName (.start tid)).2 name machineName es es' [] [] := by
  rcases started_or_idle s name machineName tid with
    ⟨b, here, _, _, running, new, fresh, started⟩ | ⟨outcome, _, idle⟩
  · rw [started]
    obtain ⟨others, distinct⟩ := (Named.without_self here).put b
    refine ⟨[], ?_, others, distinct, fun _ _ => rfl, rfl⟩
    rw [here, ready.empty here]
    simp only
    rw [Named.get?_put, if_pos rfl]
    exact .started running new fresh
  · rw [idle]
    exact ⟨es, turned_idle _ _ _ _⟩

/-- Of a series of entries as many are added as there are free slots. -/
theorem turned_push (ready : s.Ready name es) (machineName : String) {e : Entry}
    (event : e.kind.isEvent = true) (stride : UInt64) (times : Nat) :
    ∃ es' added, Turned s (s.act name machineName (.buffer (.push e stride times))).2 name
      machineName es es' added [] ∧ added = match s.buffers.get? name with
        | none => []
        | some b => ((e.series stride times).map Entry.normal).take b.free := by
  simp only [act]
  rcases withBuffer_cases s name with ⟨absent, nothing⟩ | ⟨b, rest, here, without, taken⟩
  · rw [nothing, absent]
    exact ⟨es, [], turned_idle _ _ _ _, rfl⟩
  · rw [taken, here]
    obtain ⟨holds, life, registered⟩ := (ready.holds b here).pushSeries event stride times
    rcases pushed : b.pushSeries e stride times with ⟨answer, b'⟩
    rw [pushed] at holds life registered
    have advance : Host.Advance ⟨s.machine machineName, b, s.tracer⟩
        ⟨s.machine machineName, b', s.tracer⟩ es _ _ [] :=
      .of_buffer rfl life registered holds
    have turn := Turn.worked rfl advance
    rw [Log.talk] at turn
    simp only [BufferAction.apply, pushed]
    exact ⟨_, _, turned_put here without rfl (fun _ _ => rfl) rfl turn, rfl⟩

/-- Looking at a buffer changes nothing. -/
theorem turned_look (s : Session) (name machineName : String) (es : List Entry)
    {action : BufferAction} (looks : ∀ b : Buffer, (action.apply b).2 = b) :
    Turned s (s.act name machineName (.buffer action)).2 name machineName es es [] [] := by
  simp only [act]
  rcases withBuffer_cases s name with ⟨absent, nothing⟩ | ⟨b, rest, here, without, taken⟩
  · rw [nothing]
    exact turned_idle _ _ _ _
  · rw [taken]
    have same := looks b
    rcases applied : action.apply b with ⟨outcome, b'⟩
    rw [applied] at same
    obtain rfl : b' = b := same
    exact turned_put here without rfl (fun _ _ => rfl) rfl (.idle _ _)

/-- A delivery sends all that is held, unless it is put off. -/
theorem turned_flush (ready : s.Ready name es) (machineName : String) (policy : FlushPolicy) :
    ∃ es' told, Turned s (s.act name machineName (.flush policy)).2 name machineName
      es es' [] told ∧ ∀ b, s.buffers.get? name = some b →
        ¬ (policy = .deferrable && b.mayDefer) = true → es' = [] := by
  simp only [act]
  rcases withBuffer_cases s name with ⟨absent, nothing⟩ | ⟨b, rest, here, without, taken⟩
  · rw [nothing]
    refine ⟨es, [], turned_idle _ _ _ _, fun b there => ?_⟩
    cases absent.symm.trans there
  · rw [taken]
    by_cases deferred : (policy = .deferrable && b.mayDefer) = true
    · have nothing : b.flush s.tracer.channel s.tracer.pid policy = _ :=
        Buffer.flush_deferred deferred
      have advance := Host.Advance.refl (h := ⟨s.machine machineName, b, s.tracer⟩)
        (ready.holds b here)
      simp only [Tracer.flush_eq nothing]
      refine ⟨es, _, turned_put here without rfl (fun _ _ => rfl) rfl (.worked rfl advance),
        fun c there now => ?_⟩
      cases here.symm.trans there
      exact absurd deferred now
    · obtain ⟨n, r, b', c, flushed, advance⟩ := Host.advance_flush
        (h := ⟨s.machine machineName, b, s.tracer⟩) (ready.isOpen b here) (ready.holds b here)
        deferred
      simp only [Tracer.flush_eq flushed]
      exact ⟨[], _, turned_put here without rfl (fun _ _ => rfl) rfl (.worked rfl advance),
        fun _ _ _ => rfl⟩

/-- A thread that ends has no buffer afterwards, and has sent what it held if all went well. -/
theorem turned_finish (ready : s.Ready name es) (machineName : String) :
    ∃ told, Turned s (s.act name machineName .finish).2 name machineName es [] [] told ∧
      (s.act name machineName .finish).2.buffers.get? name = none ∧
      ∀ refs, (s.act name machineName .finish).1 = .count refs →
        ∃ b, s.buffers.get? name = some b ∧ told = Log.talk b.tid b.registered [es] := by
  simp only [act]
  rcases withBuffer_cases s name with ⟨absent, nothing⟩ | ⟨b, rest, here, without, taken⟩
  · rw [nothing, ready.empty absent]
    refine ⟨[], turned_idle _ _ _ _, absent, fun refs counted => ?_⟩
    cases counted
  · rw [taken]
    obtain ⟨refs, messages, finish, new, grown, sent⟩ := Host.finished
      (h := ⟨s.machine machineName, b, s.tracer⟩) (ready.isOpen b here) (ready.active b here)
      (ready.holds b here)
    simp only [finish]
    exact ⟨_, turned_gone here without ready.distinct rfl rfl rfl (.finished grown sent),
      without.get? ready.distinct, fun _ _ => ⟨b, here, rfl⟩⟩

theorem turned_drop (ready : s.Ready name es) (machineName : String) :
    Turned s (s.act name machineName .drop).2 name machineName es [] [] [] := by
  simp only [act]
  rcases withBuffer_cases s name with ⟨absent, nothing⟩ | ⟨b, rest, here, without, taken⟩
  · rw [nothing, ready.empty absent]
    exact turned_idle _ _ _ _
  · rw [taken]
    have discarded : s.tracer.discard b =
        { s.tracer with roster := s.tracer.roster.abandon b.tid b.refs } := by
      rw [Tracer.discard, ready.attached b here, ready.active b here]
      rfl
    refine turned_gone here without ready.distinct rfl rfl rfl ?_
    simp only [discarded]
    exact .dropped es

end Session

end AccessTrace
