import Mathlib
import AccessTrace.Proofs.Attempts
import AccessTrace.Proofs.Progress
import AccessTrace.Session.Action

/-!
# What a thread's work leaves alone

What is done to a buffer changes neither whose it is (`SameOwner`) nor what it has sent, unless it
delivers (`SameAccount`). Deliveries and plans change of the tracer only what the channel has
recorded, and nothing but a closed channel refuses them (`Kept`).
-/

namespace AccessTrace

namespace Buffer

/-- What nobody changes but a delivery, or one who counts or registers by hand. -/
structure SameAccount (a b : Buffer) : Prop where
  tid : b.tid = a.tid
  capacity : b.capacity = a.capacity
  attached : b.attached = a.attached
  registered : b.registered = a.registered
  refs : b.refs = a.refs

/-- Whose buffer it is, which nobody changes. -/
structure SameOwner (a b : Buffer) : Prop where
  tid : b.tid = a.tid
  capacity : b.capacity = a.capacity
  attached : b.attached = a.attached

variable {a b c : Buffer}

theorem SameOwner.refl (a : Buffer) : a.SameOwner a := ⟨rfl, rfl, rfl⟩

theorem SameOwner.trans (first : a.SameOwner b) (second : b.SameOwner c) : a.SameOwner c :=
  ⟨second.tid.trans first.tid, second.capacity.trans first.capacity,
    second.attached.trans first.attached⟩

theorem SameLife.owner (same : a.SameLife b) : a.SameOwner b :=
  ⟨same.tid, same.capacity, same.attached⟩

namespace SameAccount

theorem owner (same : a.SameAccount b) : a.SameOwner b := ⟨same.tid, same.capacity, same.attached⟩

theorem refl (a : Buffer) : a.SameAccount a := ⟨rfl, rfl, rfl, rfl, rfl⟩

theorem trans (first : a.SameAccount b) (second : b.SameAccount c) : a.SameAccount c where
  tid := second.tid.trans first.tid
  capacity := second.capacity.trans first.capacity
  attached := second.attached.trans first.attached
  registered := second.registered.trans first.registered
  refs := second.refs.trans first.refs

theorem store (a : Buffer) (offset : Nat) (bs : List UInt8) :
    a.SameAccount (a.store offset bs).2 := by
  unfold Buffer.store
  split
  · exact ⟨rfl, rfl, rfl, rfl, rfl⟩
  · exact refl a

theorem setPtr (a : Buffer) (ptr : Nat) : a.SameAccount (a.setPtr ptr).2 := by
  unfold Buffer.setPtr
  split
  · exact ⟨rfl, rfl, rfl, rfl, rfl⟩
  · exact refl a

theorem push (a : Buffer) (e : Entry) : a.SameAccount (a.push e).2 := by
  unfold Buffer.push
  split
  · exact ⟨rfl, rfl, rfl, rfl, rfl⟩
  · exact refl a

theorem pushSeries (a : Buffer) (e : Entry) (stride : UInt64) (times : Nat) :
    a.SameAccount (a.pushSeries e stride times).2 := by
  induction times generalizing a e with
  | zero => exact refl a
  | succ times ih =>
    have first := push a e
    unfold Buffer.pushSeries
    rcases pushed : a.push e with ⟨answer, b⟩
    rw [pushed] at first
    cases answer with
    | ok _ => exact first.trans (ih b _)
    | error _ => exact first

theorem transition (a : Buffer) (target : Phase) : a.SameAccount (a.transition target).2 := by
  unfold Buffer.transition
  split
  · exact ⟨rfl, rfl, rfl, rfl, rfl⟩
  · exact refl a

/-- Only `addRefs` counts and only `markRegistered` registers. -/
theorem apply (a : Buffer) {action : BufferAction} (counts : ∀ n, action ≠ .addRefs n)
    (registers : action ≠ .markRegistered) : a.SameAccount (action.apply a).2 := by
  cases action with
  | push e stride times => exact pushSeries a e stride times
  | store16 offset value => exact store a offset _
  | store64 offset value => exact store a offset _
  | setPtr ptr => exact setPtr a ptr
  | writeHeader =>
    have same := a.sameButBytes_writeHeader
    exact ⟨same.tid, same.capacity, same.attached, same.registered, same.refs⟩
  | reset => exact ⟨rfl, rfl, rfl, rfl, rfl⟩
  | addRefs n => exact absurd rfl (counts n)
  | markRegistered => exact absurd rfl registers
  | transition target => exact transition a target
  | pending => exact refl a
  | occupied => exact refl a
  | header => exact refl a

end SameAccount

theorem SameOwner.apply (a : Buffer) (action : BufferAction) : a.SameOwner (action.apply a).2 := by
  by_cases counts : ∃ n, action = .addRefs n
  · obtain ⟨n, rfl⟩ := counts
    exact ⟨rfl, rfl, rfl⟩
  · by_cases registers : action = .markRegistered
    · subst registers
      simp only [BufferAction.apply, Buffer.markRegistered]
      split
      · exact refl a
      · exact ⟨rfl, rfl, rfl⟩
    · exact (SameAccount.apply a (fun n same => counts ⟨n, same⟩) registers).owner

end Buffer

namespace Recorder

/-- A message changes nothing of a recorder but what is recorded. -/
theorem send_frame (c : Recorder) (bytes : List UInt8) :
    (c.send bytes).2 = { c with messages := (c.send bytes).2.messages } := by
  unfold send
  split
  · rfl
  · rfl

theorem closed_of_send (c : Recorder) (bytes : List UInt8)
    (refused : (c.send bytes).1 = .error .closed) : c.closed = true := by
  unfold send at refused
  split at refused
  · assumption
  · simp only [verdict] at refused
    split at refused
    · cases refused
    · cases refused

end Recorder

namespace Buffer

variable {b b' : Buffer} {c c' : Recorder} {pid : UInt32}

theorem register_frame {answer : Except ChannelError Bool}
    (register : b.register c pid = (answer, b', c')) :
    c' = { c with messages := c'.messages } ∧ c.Grown c' ∧
      (answer = .error .closed → c.closed = true) := by
  by_cases registered : b.registered = true
  · rw [register_registered registered] at register
    cases register
    exact ⟨rfl, .refl c, by rintro ⟨⟩⟩
  · rw [Bool.not_eq_true] at registered
    have frame := c.send_frame (registration b.tid pid)
    have grown := c.grown_send (registration b.tid pid)
    have refused := c.closed_of_send (registration b.tid pid)
    rcases send : c.send (registration b.tid pid) with ⟨through, c₁⟩
    rw [send] at frame grown refused
    cases through with
    | error e =>
      rw [register_refused registered send] at register
      cases register
      refine ⟨frame, grown, ?_⟩
      rintro ⟨⟩
      exact refused rfl
    | ok _ =>
      rw [register_through registered send] at register
      cases register
      exact ⟨frame, grown, by rintro ⟨⟩⟩

theorem deliver_frame {answer : Except ChannelError Nat}
    (deliver : b.deliver c = (answer, b', c')) :
    c' = { c with messages := c'.messages } ∧ c.Grown c' ∧
      (answer = .error .closed → c.closed = true) := by
  have frame := c.send_frame b.occupiedBytes
  have grown := c.grown_send b.occupiedBytes
  have refused := c.closed_of_send b.occupiedBytes
  rcases send : c.send b.occupiedBytes with ⟨through, c₁⟩
  rw [send] at frame grown refused
  cases through with
  | error e =>
    rw [deliver_refused send] at deliver
    cases deliver
    refine ⟨frame, grown, ?_⟩
    rintro ⟨⟩
    exact refused rfl
  | ok _ =>
    rw [deliver_through send] at deliver
    cases deliver
    exact ⟨frame, grown, by rintro ⟨⟩⟩

/-- A delivery changes nothing of a recorder but what is recorded, and is refused only by one that
is closed. -/
theorem flush_frame {policy : FlushPolicy} {answer : Except ChannelError FlushOutcome}
    (flush : b.flush c pid policy = (answer, b', c')) :
    c' = { c with messages := c'.messages } ∧ c.Grown c' ∧
      (answer = .error .closed → c.closed = true) := by
  rcases flush_cases flush with ⟨_, rfl, _, rfl⟩ |
    ⟨_, _, b₁, c₁, first, ⟨e, rfl, rfl, _, rfl⟩ | ⟨r, delivered, _, second, rfl⟩⟩
  · exact ⟨rfl, .refl c', by rintro ⟨⟩⟩
  · obtain ⟨frame, grown, refused⟩ := register_frame first
    refine ⟨frame, grown, ?_⟩
    rintro ⟨⟩
    exact refused rfl
  · obtain ⟨frame, grown, _⟩ := register_frame first
    obtain ⟨frame', grown', refused⟩ := deliver_frame second
    refine ⟨by rw [frame', frame], grown.trans grown', ?_⟩
    cases delivered with
    | ok n => rintro ⟨⟩
    | error e =>
      rintro ⟨⟩
      have shut := refused rfl
      rw [frame] at shut
      exact shut

end Buffer

namespace Host

/-- What nothing that a thread does to its buffer changes: the tracer is the same but for what the
channel has recorded, and the buffer is that of the same thread. Only a closed channel refuses. -/
structure Kept {α : Type} (h : Host Recorder) (answer : Except TraceError α) (h' : Host Recorder) :
    Prop where
  tracer : h'.tracer = { h.tracer with
    channel := { h.tracer.channel with messages := h'.tracer.channel.messages } }
  grown : h.tracer.channel.Grown h'.tracer.channel
  owner : h.buffer.SameOwner h'.buffer
  refused : answer = .error (.channel .closed) → h.tracer.channel.closed = true

variable {h h' h'' : Host Recorder}

theorem Kept.of_buffer {α : Type} {answer : Except TraceError α} (tracer : h'.tracer = h.tracer)
    (owner : h.buffer.SameOwner h'.buffer) (open' : answer ≠ .error (.channel .closed)) :
    Kept h answer h' :=
  ⟨by rw [tracer], tracer ▸ .refl _, owner, fun refused => absurd refused open'⟩

theorem Kept.trans {α β : Type} {first : Except TraceError α} {second : Except TraceError β}
    (before : Kept h first h') (after : Kept h' second h'') : Kept h second h'' where
  tracer := by rw [after.tracer, before.tracer]
  grown := before.grown.trans after.grown
  owner := before.owner.trans after.owner
  refused := by
    intro closed
    have shut := after.refused closed
    rw [before.tracer] at shut
    exact shut

theorem kept_flush (machine : Machine) (b : Buffer) (t : Tracer Recorder) (policy : FlushPolicy) :
    Kept ⟨machine, b, t⟩ (t.flush b policy).1
      ⟨machine, (t.flush b policy).2.1, (t.flush b policy).2.2⟩ := by
  rcases flush : b.flush t.channel t.pid policy with ⟨answer, b', c'⟩
  obtain ⟨frame, grown, refused⟩ := Buffer.flush_frame flush
  rw [Tracer.flush_eq flush]
  refine ⟨?_, grown, (Buffer.flush_life flush).owner, fun closed => refused ?_⟩
  · rw [frame]
  · cases answer with
    | ok _ => cases closed
    | error e => cases closed; rfl

theorem kept_storeAt (h : Host Recorder) (base : Register) (disp : Nat) (bs : List UInt8)
    (scratch : Option (Register × UInt64)) :
    Kept h (h.storeAt base disp bs scratch).1 (h.storeAt base disp bs scratch).2 := by
  obtain ⟨machine, buffer, tracer⟩ := h
  simp only [storeAt]
  rcases machine.offset? base disp with _ | offset
  · exact .of_buffer rfl (.refl buffer) (by rintro ⟨⟩)
  · have same := (Buffer.SameAccount.store buffer offset bs).owner
    rcases stored : buffer.store offset bs with ⟨answer, buffer'⟩
    rw [stored] at same
    simp only [stored]
    cases answer with
    | ok _ => exact .of_buffer rfl same (by rintro ⟨⟩)
    | error _ => exact .of_buffer rfl same (by rintro ⟨⟩)

theorem kept_step (h : Host Recorder) (op : Operation) : Kept h (h.step op).1 (h.step op).2 := by
  cases op with
  | spill reg slot => exact .of_buffer rfl (.refl _) (by rintro ⟨⟩)
  | restore reg slot => exact .of_buffer rfl (.refl _) (by rintro ⟨⟩)
  | loadPointer dst => exact .of_buffer rfl (.refl _) (by rintro ⟨⟩)
  | storeImmediate16 base scratch disp value => exact kept_storeAt _ _ _ _ _
  | storeImmediate64 base scratch disp value => exact kept_storeAt _ _ _ _ _
  | loadAddress reference dst scratch => exact .of_buffer rfl (.refl _) (by rintro ⟨⟩)
  | storeRegister base disp src => exact kept_storeAt _ _ _ _ _
  | advance reg amount =>
    obtain ⟨machine, buffer, tracer⟩ := h
    simp only [step]
    rcases machine.offset? reg amount with _ | ptr
    · exact .of_buffer rfl (.refl buffer) (by rintro ⟨⟩)
    · have same := (Buffer.SameAccount.setPtr buffer ptr).owner
      rcases moved : buffer.setPtr ptr with ⟨answer, buffer'⟩
      rw [moved] at same
      simp only [moved]
      cases answer with
      | ok _ => exact .of_buffer rfl same (by rintro ⟨⟩)
      | error _ => exact .of_buffer rfl same (by rintro ⟨⟩)
  | flushCheck =>
    obtain ⟨machine, buffer, tracer⟩ := h
    have kept := kept_flush machine buffer tracer .deferrable
    rcases flush : tracer.flush buffer .deferrable with ⟨answer, buffer', tracer'⟩
    rw [flush] at kept
    simp only [step, flush]
    cases answer with
    | ok _ => exact ⟨kept.tracer, kept.grown, kept.owner, by rintro ⟨⟩⟩
    | error e =>
      refine ⟨kept.tracer, kept.grown, kept.owner, fun closed => kept.refused ?_⟩
      cases closed
      rfl

/-- What holds of doing nothing and is kept when something succeeds and something else follows. -/
structure Chains (R : Host Recorder → Except TraceError Unit → Host Recorder → Prop) : Prop where
  nil : ∀ h, R h (.ok ()) h
  append : ∀ {h h₁ h₂ answer}, R h (.ok ()) h₁ → R h₁ answer h₂ → R h answer h₂

namespace Chains

variable {R : Host Recorder → Except TraceError Unit → Host Recorder → Prop}

theorem exec (chains : Chains R) {ops : List Operation}
    (step : ∀ h, ∀ op ∈ ops, R h (h.step op).1 (h.step op).2) (h : Host Recorder) :
    R h (h.exec ops).1 (h.exec ops).2 := by
  induction ops generalizing h with
  | nil => exact chains.nil h
  | cons op ops ih =>
    have first := step h op List.mem_cons_self
    have rest := ih fun h op mem => step h op (List.mem_cons_of_mem _ mem)
    rw [Host.exec]
    rcases here : h.step op with ⟨answer, h₁⟩
    rw [here] at first
    cases answer with
    | ok _ => exact chains.append first (rest h₁)
    | error _ => exact first

theorem executeAll (chains : Chains R) {ps : List InstructionPlan}
    (plan : ∀ h, ∀ p ∈ ps, R h (h.execute p).1 (h.execute p).2) (h : Host Recorder) (done : Nat) :
    R h (h.executeAll done ps).2.1 (h.executeAll done ps).2.2 := by
  induction ps generalizing h done with
  | nil => exact chains.nil h
  | cons p ps ih =>
    have first := plan h p List.mem_cons_self
    have rest := ih fun h p mem => plan h p (List.mem_cons_of_mem _ mem)
    rw [Host.executeAll]
    rcases here : h.execute p with ⟨answer, h₁⟩
    rw [here] at first
    cases answer with
    | ok _ => exact chains.append first (rest h₁ (done + 1))
    | error _ => exact first

theorem executeTimes (chains : Chains R) {ps : List InstructionPlan}
    (plan : ∀ h, ∀ p ∈ ps, R h (h.execute p).1 (h.execute p).2) (h : Host Recorder)
    (done times : Nat) :
    R h (h.executeTimes done ps times).2.1 (h.executeTimes done ps times).2.2 := by
  rw [executeTimes_eq]
  refine chains.executeAll (fun h p mem => plan h p ?_) h done
  obtain ⟨copy, among, inside⟩ := List.mem_flatten.1 mem
  rw [← List.eq_of_mem_replicate among]
  exact inside

end Chains

theorem chains_kept : Chains (Kept (α := Unit)) :=
  ⟨fun _ => .of_buffer rfl (.refl _) (by rintro ⟨⟩), Kept.trans⟩

theorem kept_executeTimes (h : Host Recorder) (done : Nat) (ps : List InstructionPlan)
    (times : Nat) : Kept h (h.executeTimes done ps times).2.1 (h.executeTimes done ps times).2.2 :=
  chains_kept.executeTimes (fun h _ _ => chains_kept.exec (fun h op _ => kept_step h op) h)
    h done times

end Host

end AccessTrace
