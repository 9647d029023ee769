import Mathlib
import AccessTrace.Proofs.Accounts

/-!
# What a buffer and an open channel exchange

Over any recorder that is open, what is sent from a buffer is its registration first, unless that
was sent before, and payloads behind it, all taken whole but the last one, which may be cut; a
buffer counts the payloads that were taken whole and nothing else (`Exchange`). Deliveries and plans
are such exchanges (`exchange_flush`, `exchanges_execute`).
-/

namespace AccessTrace

/-- Whether only the first bytes of a message were taken. -/
def ChannelError.cut : ChannelError → Bool
  | partialWrite _ _ => true
  | _ => false

/-- Whether only the first bytes of a message were taken. -/
def TraceError.cut (e : TraceError) : Bool := e.failure?.any (·.cut)

/-- An open recorder takes a message as it is or cuts it. -/
theorem Recorder.send_open {c : Recorder} (isOpen : c.closed = false) (bytes : List UInt8) :
    (c.Takes bytes.length ∧
      c.send bytes = (.ok (), { c with messages := c.messages.push bytes })) ∨
    (¬ c.Takes bytes.length ∧ ∃ n, c.send bytes =
      (.error (.partialWrite n bytes.length),
        { c with messages := c.messages.push (c.accepted bytes) })) := by
  by_cases takes : c.Takes bytes.length
  · exact .inl ⟨takes, send_accepted ⟨isOpen, takes⟩⟩
  · right
    refine ⟨takes, (c.accepted bytes).length, ?_⟩
    have cut : (c.accepted bytes).length ≠ bytes.length :=
      fun whole => takes ((c.accepted_eq_iff bytes).1 whole)
    rw [send, if_neg (by rw [isOpen]; decide)]
    simp only [verdict, if_neg cut]

/-- The slots that a delivery sends at least. -/
def FlushPolicy.least (capacity : Nat) : FlushPolicy → Nat
  | deferrable => capacity / 2
  | forced => 1

namespace Buffer

/-- The messages behind the registration, which comes first unless it was sent before. -/
def behind (registered : Bool) (messages : List (List UInt8)) : List (List UInt8) :=
  if registered then messages else messages.tail

/-- A payload: the thread header, and so many slots in all. -/
structure Payload (tid : UInt64) (least most : Nat) (bytes : List UInt8) : Prop where
  headed : (Entry.thread tid).toBytes <+: bytes
  whole : bytes.length % Entry.byteSize = 0
  least : least * Entry.byteSize ≤ bytes.length
  most : bytes.length ≤ most * Entry.byteSize

/-- From `b` and `c` to `b'` and `c'`, the messages `whole` were taken as they are, and then `cut`
was cut, if anything was. -/
structure Exchange (policy : FlushPolicy) (pid : UInt32) (b : Buffer) (c : Recorder) (b' : Buffer)
    (c' : Recorder) (whole : List (List UInt8)) (cut : Option (List UInt8)) : Prop where
  recorder : c' = { c with messages := c'.messages }
  messages : c'.messages.toList = c.messages.toList ++ (whole ++ (cut.map c.accepted).toList)
  takes : ∀ m ∈ whole, c.Takes m.length
  cuts : ∀ m ∈ cut, ¬ c.Takes m.length
  owner : b.SameOwner b'
  aligned : b'.ptr % Entry.byteSize = 0
  registered : b'.registered = (b.registered || !(whole ++ cut.toList).isEmpty)
  first : b.registered = false → ∀ m ∈ (whole ++ cut.toList).head?, m = registration b.tid pid
  payloads : ∀ m ∈ behind b.registered (whole ++ cut.toList),
    Payload b.tid (policy.least b.capacity) b.capacity m
  refs : Entry.byteSize * b'.refs =
    Entry.byteSize * b.refs + (behind b.registered whole).flatten.length
  /-- A payload that was cut stays in the buffer. -/
  stays : ∀ m ∈ cut, (b.registered || !whole.isEmpty) = true → b'.occupiedBytes = m

theorem behind_append (registered : Bool) (messages more : List (List UInt8)) :
    behind registered (messages ++ more) =
      behind registered messages ++ behind (registered || !messages.isEmpty) more := by
  cases registered with
  | true => rfl
  | false => cases messages <;> rfl

variable {policy : FlushPolicy} {pid : UInt32} {b b' b'' : Buffer} {c c' c'' : Recorder}
  {whole later : List (List UInt8)} {cut : Option (List UInt8)}

/-- Nothing is sent. -/
theorem Exchange.silent (same : b.SameAccount b') (aligned : b'.ptr % Entry.byteSize = 0) :
    Exchange policy pid b c b' c [] none where
  recorder := rfl
  messages := (List.append_nil _).symm
  takes := by simp
  cuts := by simp
  owner := same.owner
  aligned := aligned
  registered := same.registered.trans (Bool.or_false _).symm
  first := by simp
  payloads := by
    intro m mem
    unfold behind at mem
    split at mem <;> cases mem
  refs := by
    rw [same.refs]
    unfold behind
    split <;> rfl
  stays := by simp

/-- One exchange after another, if nothing was cut in the first. -/
theorem Exchange.trans (first : Exchange policy pid b c b' c' whole none)
    (second : Exchange policy pid b' c' b'' c'' later cut) :
    Exchange policy pid b c b'' c'' (whole ++ later) cut := by
  have same : ∀ n, c'.Takes n ↔ c.Takes n := by
    intro n
    rw [first.recorder, Recorder.Takes, Recorder.Takes]
  have accepted : c'.accepted = c.accepted := by
    rw [first.recorder]
    rfl
  have registered := first.registered
  rw [Option.toList_none, List.append_nil] at registered
  refine ⟨?_, ?_, ?_, ?_, first.owner.trans second.owner, second.aligned, ?_, ?_, ?_, ?_, ?_⟩
  · rw [second.recorder, first.recorder]
  · rw [second.messages, first.messages, accepted]
    simp
  · intro m mem
    rcases List.mem_append.1 mem with early | late
    · exact first.takes m early
    · exact (same _).1 (second.takes m late)
  · intro m mem takes
    exact second.cuts m mem ((same _).2 takes)
  · rw [second.registered, registered, List.append_assoc]
    cases whole <;> simp
  · intro unregistered m mem
    rw [List.append_assoc] at mem
    cases whole with
    | nil =>
      rw [unregistered] at registered
      rw [← first.owner.tid]
      exact second.first registered m mem
    | cons head tail =>
      refine first.first unregistered m ?_
      exact mem
  · intro m mem
    rw [List.append_assoc, behind_append, ← registered] at mem
    rcases List.mem_append.1 mem with early | late
    · refine first.payloads m ?_
      rw [Option.toList_none, List.append_nil]
      exact early
    · have payload := second.payloads m late
      rw [first.owner.tid, first.owner.capacity] at payload
      exact payload
  · rw [second.refs, first.refs, behind_append, ← registered, List.flatten_append,
      List.length_append, Nat.add_assoc]
  · intro m mem sent
    refine second.stays m mem ?_
    rw [registered, ← sent]
    cases whole <;> simp

/-- Without a limit nothing is cut. -/
theorem Exchange.uncut (exchange : Exchange policy pid b c b' c' whole cut)
    (unlimited : c.limit = none) : cut = none := by
  refine Option.eq_none_iff_forall_not_mem.2 fun m mem => exchange.cuts m mem ?_
  intro most limited
  rw [unlimited] at limited
  cases limited

theorem length_occupiedBytes (b : Buffer) : b.occupiedBytes.length = b.ptr := by
  have inside := b.ptr_le
  have size := b.size_bytes
  rw [occupiedBytes, Array.length_toList, Array.size_extract]
  omega

/-- What a delivery that is not put off sends is a payload. -/
theorem payload_writeHeader (aligned : b.ptr % Entry.byteSize = 0)
    (now : ¬ (policy = .deferrable && b.mayDefer) = true) :
    Payload b.tid (policy.least b.capacity) b.capacity b.writeHeader.occupiedBytes := by
  have ptr : b.writeHeader.ptr = b.ptr := b.sameButBytes_writeHeader.ptr
  have header := b.header_le_ptr
  refine ⟨?_, ?_, ?_, ?_⟩
  · rw [occupiedBytes_eq, extract_writeHeader]
    exact List.prefix_append _ _
  · rw [length_occupiedBytes, ptr]
    exact aligned
  · rw [length_occupiedBytes, ptr]
    cases policy with
    | forced =>
      rw [FlushPolicy.least, Nat.one_mul]
      exact header
    | deferrable =>
      have full : ¬ b.occupied < b.capacity / 2 :=
        fun less => now (by rw [mayDefer, decide_eq_true less]; rfl)
      rw [FlushPolicy.least]
      simp only [occupied, Entry.byteSize] at *
      omega
  · rw [length_occupiedBytes, ptr]
    exact b.ptr_le

/-- One message, which registers the thread or is a payload. -/
structure Speaks (policy : FlushPolicy) (pid : UInt32) (b : Buffer) (m : List UInt8) (b' : Buffer) :
    Prop where
  owner : b.SameOwner b'
  aligned : b'.ptr % Entry.byteSize = 0
  registered : b'.registered = true
  first : b.registered = false → m = registration b.tid pid
  payload : b.registered = true → Payload b.tid (policy.least b.capacity) b.capacity m

/-- Whether the message is taken or cut, the buffer has registered its thread, and this is the
registration or a payload. -/
theorem Speaks.alone {m : List UInt8} (speaks : Speaks policy pid b m b')
    (one : whole ++ cut.toList = [m]) :
    b'.registered = (b.registered || !(whole ++ cut.toList).isEmpty) ∧
      (b.registered = false → ∀ n ∈ (whole ++ cut.toList).head?, n = registration b.tid pid) ∧
      ∀ n ∈ behind b.registered (whole ++ cut.toList),
        Payload b.tid (policy.least b.capacity) b.capacity n := by
  rw [one]
  refine ⟨?_, ?_, ?_⟩
  · rw [speaks.registered]
    exact (Bool.or_true _).symm
  · intro unregistered n mem
    rw [← Option.some.inj mem]
    exact speaks.first unregistered
  · intro n mem
    cases registered : b.registered with
    | false =>
      rw [registered] at mem
      cases mem
    | true =>
      rw [registered] at mem
      rw [List.mem_singleton.1 mem]
      exact speaks.payload registered

/-- A message is taken as it is; a payload counts. -/
theorem Speaks.taken {m : List UInt8} (speaks : Speaks policy pid b m b') (takes : c.Takes m.length)
    (refs : Entry.byteSize * b'.refs =
      Entry.byteSize * b.refs + if b.registered then m.length else 0) :
    Exchange policy pid b c b' { c with messages := c.messages.push m } [m] none := by
  have one : [m] ++ (none : Option (List UInt8)).toList = [m] := rfl
  obtain ⟨registered, first, payloads⟩ := speaks.alone one
  refine ⟨rfl, Array.toList_push, fun n mem => List.mem_singleton.1 mem ▸ takes, by simp,
    speaks.owner, speaks.aligned, registered, first, payloads, ?_, by simp⟩
  rw [refs]
  cases b.registered with
  | false => rfl
  | true => exact congrArg _ (congrArg List.length (List.append_nil m)).symm

/-- A message is cut; it counts nothing. -/
theorem Speaks.shortened {m : List UInt8} (speaks : Speaks policy pid b m b')
    (cuts : ¬ c.Takes m.length) (refs : b'.refs = b.refs)
    (stays : b.registered = true → b'.occupiedBytes = m) :
    Exchange policy pid b c b' { c with messages := c.messages.push (c.accepted m) } []
      (some m) := by
  have one : [] ++ (some m).toList = [m] := rfl
  obtain ⟨registered, first, payloads⟩ := speaks.alone one
  refine ⟨rfl, Array.toList_push, by simp, fun n mem => Option.some.inj mem ▸ cuts, speaks.owner,
    speaks.aligned, registered, first, payloads, ?_, fun n mem sent => ?_⟩
  · rw [refs]
    unfold behind
    split <;> rfl
  · rw [← Option.some.inj mem]
    exact stays ((Bool.or_false _).symm.trans sent)

/-- Something is sent, and a payload unless a message was cut. -/
structure Delivering (registered : Bool) (whole : List (List UInt8)) (cut : Option (List UInt8)) :
    Prop where
  something : whole ++ cut.toList ≠ []
  payload : cut = none → behind registered whole ≠ []

/-- How a delivery over an open channel ends: it fails exactly if a message was cut. -/
def Told {α : Type} (answer : Except ChannelError α) (cut : Option (List UInt8)) : Prop :=
  match answer with
  | .ok _ => cut = none
  | .error e => e.cut = true ∧ cut.isSome = true

/-- Registering over an open channel is an exchange of one message or none. -/
theorem exchange_register (policy : FlushPolicy) {answer : Except ChannelError Bool}
    (isOpen : c.closed = false)
    (aligned : b.ptr % Entry.byteSize = 0) (register : b.register c pid = (answer, b', c')) :
    ∃ whole cut, Exchange policy pid b c b' c' whole cut ∧ Told answer cut ∧
      (b.registered = false → whole ++ cut.toList ≠ []) ∧ behind b.registered whole = [] ∧
      b'.registered = true ∧ b'.ptr = b.ptr ∧ b'.occupiedBytes = b.occupiedBytes := by
  by_cases registered : b.registered = true
  · rw [register_registered registered] at register
    cases register
    refine ⟨[], none, .silent (.refl b) aligned, rfl, fun unregistered => ?_, ?_, registered, rfl,
      rfl⟩
    · cases registered.symm.trans unregistered
    · rw [registered]
      rfl
  · rw [Bool.not_eq_true] at registered
    have speaks : Speaks policy pid b (registration b.tid pid) b.marked := by
      refine ⟨⟨rfl, rfl, rfl⟩, aligned, rfl, fun _ => rfl, fun now => ?_⟩
      cases registered.symm.trans now
    rcases Recorder.send_open isOpen (registration b.tid pid) with ⟨takes, send⟩ | ⟨cuts, n, send⟩
    · rw [register_through registered send] at register
      cases register
      refine ⟨[registration b.tid pid], none, speaks.taken takes ?_, rfl,
        fun _ => List.cons_ne_nil _ _, ?_, rfl, rfl, rfl⟩
      · rw [registered]
        rfl
      · rw [registered]
        rfl
    · rw [register_refused registered send] at register
      cases register
      refine ⟨[], some (registration b.tid pid), speaks.shortened cuts rfl fun now => ?_,
        ⟨rfl, rfl⟩, fun _ => List.cons_ne_nil _ _, ?_, rfl, rfl, rfl⟩
      · cases registered.symm.trans now
      · rw [registered]
        rfl

/-- Delivering a payload over an open channel is an exchange of that message. -/
theorem exchange_deliver (pid : UInt32) {answer : Except ChannelError Nat}
    (isOpen : c.closed = false)
    (aligned : b.ptr % Entry.byteSize = 0) (registered : b.registered = true)
    (payload : Payload b.tid (policy.least b.capacity) b.capacity b.occupiedBytes)
    (deliver : b.deliver c = (answer, b', c')) :
    ∃ whole cut, Exchange policy pid b c b' c' whole cut ∧ Told answer cut ∧
      whole ++ cut.toList = [b.occupiedBytes] := by
  rcases Recorder.send_open isOpen b.occupiedBytes with ⟨takes, send⟩ | ⟨cuts, n, send⟩
  · rw [deliver_through send] at deliver
    cases deliver
    have speaks : Speaks policy pid b b.occupiedBytes (b.addRefs b.occupied).reset := by
      refine ⟨⟨rfl, rfl, rfl⟩, Nat.mod_self _, registered, fun unregistered => ?_, fun _ => payload⟩
      cases registered.symm.trans unregistered
    refine ⟨[b.occupiedBytes], none, speaks.taken takes ?_, rfl, rfl⟩
    have refs : (b.addRefs b.occupied).reset.refs = b.refs + b.occupied := rfl
    rw [refs, registered, if_pos rfl, length_occupiedBytes]
    simp only [occupied, Entry.byteSize] at *
    omega
  · rw [deliver_refused send] at deliver
    cases deliver
    have speaks : Speaks policy pid b b.occupiedBytes b := by
      refine ⟨.refl b, aligned, registered, fun unregistered => ?_, fun _ => payload⟩
      cases registered.symm.trans unregistered
    exact ⟨[], some b.occupiedBytes, speaks.shortened cuts rfl fun _ => rfl, ⟨rfl, rfl⟩, rfl⟩

/-- A delivery over an open channel is an exchange; one that is not put off sends something, and a
payload if nothing was cut. -/
theorem exchange_flush {answer : Except ChannelError FlushOutcome} (isOpen : c.closed = false)
    (aligned : b.ptr % Entry.byteSize = 0) (flush : b.flush c pid policy = (answer, b', c')) :
    ∃ whole cut, Exchange policy pid b c b' c' whole cut ∧ Told answer cut ∧
      (¬ (policy = .deferrable && b.mayDefer) = true → Delivering b.registered whole cut) := by
  have same := b.sameButBytes_writeHeader
  have aligned' : b.writeHeader.ptr % Entry.byteSize = 0 := by
    rw [same.ptr]
    exact aligned
  have headed : Exchange policy pid b c b.writeHeader c [] none :=
    .silent ⟨same.tid, same.capacity, same.attached, same.registered, same.refs⟩ aligned'
  rcases flush_cases flush with ⟨deferred, rfl, rfl, rfl⟩ |
    ⟨now, answer₁, b₁, c₁, first, ⟨e, rfl, rfl, rfl, rfl⟩ | ⟨r, answer₂, rfl, second, rfl⟩⟩
  · exact ⟨[], none, .silent (.refl _) aligned, rfl, fun now => absurd deferred now⟩
  · obtain ⟨whole, cut, exchange, told, sent, _⟩ :=
      exchange_register policy isOpen aligned' first
    have refused : cut.isSome = true := told.2
    refine ⟨[] ++ whole, cut, headed.trans exchange, told, fun _ => ⟨?_, fun none => ?_⟩⟩
    · intro nothing
      obtain ⟨m, rfl⟩ := Option.isSome_iff_exists.1 refused
      simp at nothing
    · rw [none] at refused
      cases refused
  · obtain ⟨whole, cut, exchange, told, sent, nothing, registered, ptr, bytes⟩ :=
      exchange_register policy isOpen aligned' first
    obtain rfl : cut = none := told
    have isOpen' : c₁.closed = false := by
      rw [exchange.recorder]
      exact isOpen
    have aligned₁ : b₁.ptr % Entry.byteSize = 0 := by
      rw [ptr]
      exact aligned'
    have payload : Payload b₁.tid (policy.least b₁.capacity) b₁.capacity b₁.occupiedBytes := by
      rw [bytes, exchange.owner.tid, exchange.owner.capacity, same.tid, same.capacity]
      exact payload_writeHeader aligned now
    obtain ⟨whole', cut', exchange', told', sent'⟩ :=
      exchange_deliver pid isOpen' aligned₁ registered payload second
    refine ⟨[] ++ whole ++ whole', cut', (headed.trans exchange).trans exchange', ?_,
      fun _ => ⟨?_, fun none => ?_⟩⟩
    · cases answer₂ with
      | ok n => exact told'
      | error e => exact told'
    · rw [List.append_assoc, sent']
      simp
    · rw [none, Option.toList_none, List.append_nil] at sent'
      have now_registered := exchange.registered
      rw [registered, Option.toList_none, List.append_nil, same.registered] at now_registered
      rw [sent', List.nil_append, behind_append, ← now_registered]
      exact List.append_ne_nil_of_right_ne_nil _ (List.cons_ne_nil _ _)

end Buffer

namespace Host

variable {policy : FlushPolicy} {h h' h'' : Host Recorder} {whole : List (List UInt8)}
  {cut : Option (List UInt8)}

/-- What a thread does is an exchange, and fails with a message cut exactly if one was. -/
structure Exchanged {α : Type} (policy : FlushPolicy) (h : Host Recorder)
    (answer : Except TraceError α) (h' : Host Recorder) (whole : List (List UInt8))
    (cut : Option (List UInt8)) : Prop where
  exchange : Buffer.Exchange policy h.tracer.pid h.buffer h.tracer.channel h'.buffer
    h'.tracer.channel whole cut
  pid : h'.tracer.pid = h.tracer.pid
  succeeded : ∀ a, answer = .ok a → cut = none
  failed : ∀ e, answer = .error e → e.cut = cut.isSome

theorem Exchanged.of_buffer {α : Type} {answer : Except TraceError α}
    (tracer : h'.tracer = h.tracer) (same : h.buffer.SameAccount h'.buffer)
    (aligned : h'.buffer.ptr % Entry.byteSize = 0)
    (uncut : ∀ e, answer = .error e → e.cut = false) : Exchanged policy h answer h' [] none where
  exchange := by
    rw [tracer]
    exact .silent same aligned
  pid := by rw [tracer]
  succeeded := fun _ _ => rfl
  failed := uncut

/-- Over an open channel what is done is an exchange. -/
def Exchanges (policy : FlushPolicy) (h : Host Recorder) (answer : Except TraceError Unit)
    (h' : Host Recorder) : Prop :=
  h.tracer.channel.closed = false → h.buffer.ptr % Entry.byteSize = 0 →
    ∃ whole cut, Exchanged policy h answer h' whole cut

theorem chains_exchanges (policy : FlushPolicy) : Chains (Exchanges policy) where
  nil := by
    intro h _ aligned
    refine ⟨[], none, .of_buffer rfl (.refl _) aligned ?_⟩
    rintro e ⟨⟩
  append := by
    intro h h₁ h₂ answer before after isOpen aligned
    obtain ⟨whole, cut, first⟩ := before isOpen aligned
    obtain rfl := first.succeeded () rfl
    have isOpen' : h₁.tracer.channel.closed = false := by
      rw [first.exchange.recorder]
      exact isOpen
    obtain ⟨whole', cut', second⟩ := after isOpen' first.exchange.aligned
    have exchange := second.exchange
    rw [first.pid] at exchange
    exact ⟨_, cut', first.exchange.trans exchange, second.pid.trans first.pid, second.succeeded,
      second.failed⟩

theorem exchanged_flush (machine : Machine) {b : Buffer} {t : Tracer Recorder}
    (isOpen : t.channel.closed = false) (aligned : b.ptr % Entry.byteSize = 0)
    (policy : FlushPolicy) : ∃ whole cut,
      Exchanged policy ⟨machine, b, t⟩ (t.flush b policy).1
        ⟨machine, (t.flush b policy).2.1, (t.flush b policy).2.2⟩ whole cut ∧
      (¬ (policy = .deferrable && b.mayDefer) = true →
        Buffer.Delivering b.registered whole cut) := by
  rcases flush : b.flush t.channel t.pid policy with ⟨answer, b', c'⟩
  obtain ⟨whole, cut, exchange, told, sent⟩ := Buffer.exchange_flush isOpen aligned flush
  rw [Tracer.flush_eq flush]
  refine ⟨whole, cut, ⟨exchange, rfl, ?_, ?_⟩, sent⟩
  · intro a ok
    cases answer with
    | ok _ => exact told
    | error _ => cases ok
  · intro e failed
    cases answer with
    | ok _ => cases failed
    | error _ =>
      cases failed
      exact told.1.trans told.2.symm

/-- The operations of a plan send nothing. -/
theorem exchanges_operations (s : Instrumentation) (i : Instruction) (policy : FlushPolicy)
    (h : Host Recorder) :
    Exchanges policy h (h.exec (s.operations i)).1 (h.exec (s.operations i)).2 := by
  intro _ aligned
  by_cases room : h.buffer.ptr + s.entryCount i * Entry.byteSize ≤ h.buffer.byteCapacity
  · obtain ⟨h', run, _, appended, tracer⟩ := exec_operations s i h room
    rw [run]
    refine ⟨[], none, .of_buffer tracer ⟨appended.tid, appended.capacity, appended.attached,
      appended.registered, appended.refs⟩ ?_ (by rintro e ⟨⟩)⟩
    rw [appended.ptr, Nat.add_mul_mod_self_right]
    exact aligned
  · obtain ⟨h', run, same, _, tracer⟩ := exec_operations_full s i h aligned (Nat.lt_of_not_le room)
    rw [run]
    refine ⟨[], none, .of_buffer tracer ⟨same.tid, same.capacity, same.attached, same.registered,
      same.refs⟩ ?_ ?_⟩
    · rw [same.ptr]
      exact aligned
    · rintro e ⟨⟩
      rfl

theorem exchanges_step_flushCheck (h : Host Recorder) :
    Exchanges .deferrable h (h.step .flushCheck).1 (h.step .flushCheck).2 := by
  intro isOpen aligned
  obtain ⟨machine, buffer, tracer⟩ := h
  obtain ⟨whole, cut, exchanged, _⟩ := exchanged_flush machine isOpen aligned .deferrable
  rcases flush : tracer.flush buffer .deferrable with ⟨answer, buffer', tracer'⟩
  rw [flush] at exchanged
  simp only [step, flush]
  cases answer with
  | ok outcome =>
    refine ⟨whole, cut, exchanged.exchange, exchanged.pid, fun _ _ => ?_, by rintro e ⟨⟩⟩
    exact exchanged.succeeded outcome rfl
  | error e =>
    refine ⟨whole, cut, exchanged.exchange, exchanged.pid, by rintro _ ⟨⟩, ?_⟩
    rintro _ ⟨⟩
    exact exchanged.failed e rfl

theorem exchanges_execute (p : PlannedInstruction) (h : Host Recorder) :
    Exchanges .deferrable h (h.execute p.plan).1 (h.execute p.plan).2 := by
  obtain ⟨s, i, check⟩ := p
  have operations := exchanges_operations s i .deferrable h
  rw [PlannedInstruction.plan, execute_plan]
  rcases run : h.exec (s.operations i) with ⟨answer, h₁⟩
  rw [run] at operations
  cases answer with
  | error e => exact operations
  | ok _ =>
    refine (chains_exchanges .deferrable).append operations ?_
    cases check with
    | false => exact (chains_exchanges .deferrable).nil h₁
    | true => exact exchanges_step_flushCheck h₁

theorem exchanges_executeTimes (ps : List PlannedInstruction) (h : Host Recorder)
    (done times : Nat) : Exchanges .deferrable h (h.executeTimes done (ps.map (·.plan)) times).2.1
      (h.executeTimes done (ps.map (·.plan)) times).2.2 := by
  refine (chains_exchanges .deferrable).executeTimes (fun h plan mem => ?_) h done times
  obtain ⟨p, _, rfl⟩ := List.mem_map.1 mem
  exact exchanges_execute p h

end Host

end AccessTrace
