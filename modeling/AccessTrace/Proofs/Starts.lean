import Mathlib
import AccessTrace.Proofs.Shutdown

/-!
# Starting a thread

A thread starts if its buffer can be had, no exit was begun and it is not running, and the first of
these that fails is what is reported (`Tracer.refusal?`). A thread that starts is added to the
running ones and gets an empty buffer; one that does not leaves everything as it is (`start_exact`).
Its buffer is discarded, which ends no thread because the tracer had not handed it out.
-/

namespace AccessTrace

namespace Buffer

/-- A buffer of this many slots cannot be had, and why. -/
def shortage? (capacity : Nat) : Option ResourceError :=
  if capacity < 2 then some (.bufferTooSmall capacity)
  else if wordLimit ≤ capacity * Entry.byteSize then some (.buffer (wordLimit - 1))
  else if allocationLimit < capacity * Entry.byteSize then
    some (.buffer (capacity * Entry.byteSize))
  else none

variable {tid : UInt64} {capacity : Nat}

/-- A buffer can be had if it has two slots and its bytes fit one allocation. -/
theorem shortage?_eq_none_iff :
    shortage? capacity = none ↔ 2 ≤ capacity ∧ capacity * Entry.byteSize ≤ allocationLimit := by
  have within : allocationLimit < wordLimit := by decide
  unfold shortage?
  split
  · simp only [reduceCtorEq, false_iff]
    omega
  · split
    · simp only [reduceCtorEq, false_iff]
      omega
    · split
      · simp only [reduceCtorEq, false_iff]
        omega
      · simp only [true_iff]
        omega

theorem new_eq (tid : UInt64) (capacity : Nat) :
    (∃ b, new tid capacity = .ok b ∧ shortage? capacity = none) ∨
      ∃ e, new tid capacity = .error e ∧ shortage? capacity = some e := by
  unfold new shortage?
  split
  · rename_i room
    rw [if_neg (Nat.not_lt.2 room)]
    split
    · exact .inr ⟨_, rfl, rfl⟩
    · split
      · rename_i fits
        exact .inl ⟨_, rfl, if_neg (Nat.not_lt.2 fits)⟩
      · rename_i fits
        exact .inr ⟨_, rfl, if_pos (Nat.lt_of_not_le fits)⟩
  · rename_i room
    exact .inr ⟨_, rfl, if_pos (Nat.lt_of_not_le room)⟩

end Buffer

namespace Tracer

variable {σ : Type} {t t' : Tracer σ} {tid : UInt64} {b : Buffer}

/-- Why a thread may not start: first its buffer, then the end of tracing, then the thread
itself. -/
def refusal? (t : Tracer σ) (tid : UInt64) : Option TraceError :=
  match Buffer.shortage? t.capacity with
  | some e => some (.resource e)
  | none =>
    if t.roster.exited then some .exited
    else if tid ∈ t.roster.live then some (.resource (.threadSlot tid))
    else none

theorem refusal?_eq_none_iff : t.refusal? tid = none ↔
    (2 ≤ t.capacity ∧ t.capacity * Entry.byteSize ≤ allocationLimit) ∧
      t.roster.exited = false ∧ tid ∉ t.roster.live := by
  rw [← Buffer.shortage?_eq_none_iff, refusal?]
  cases Buffer.shortage? t.capacity with
  | some e => simp
  | none =>
    by_cases exited : t.roster.exited = true
    · simp [exited]
    · by_cases live : tid ∈ t.roster.live
      · simp [exited, live]
      · simp [exited, live]

/-- A new buffer that is discarded ends no thread, not even the one whose number it has. -/
theorem discard_new {capacity : Nat} (made : Buffer.new tid capacity = .ok b) : t.discard b = t :=
  discard_detached (Buffer.unused_of_new made).detached

/-- A thread that is refused leaves the tracer as it is; one that is not gets a buffer, and is the
only thing that is added. -/
theorem start_cases (t : Tracer σ) (tid : UInt64) :
    (t.refusal? tid = none ∧ ∃ b, t.start tid =
        (.ok b, { t with roster := { t.roster with live := tid :: t.roster.live } }) ∧
      b.tid = tid ∧ b.capacity = t.capacity ∧ Fresh b) ∨
    ∃ e, t.refusal? tid = some e ∧ t.start tid = (.error e, t) := by
  unfold start refusal?
  rcases Buffer.new_eq tid t.capacity with ⟨b, made, none⟩ | ⟨e, failed, short⟩
  · have new := Buffer.unused_of_new made
    simp only [made, none]
    by_cases exited : t.roster.exited = true
    · simp only [if_pos exited, discard_new made]
      exact .inr ⟨_, rfl, rfl⟩
    · by_cases live : tid ∈ t.roster.live
      · simp only [if_neg exited, if_pos live, discard_new made]
        exact .inr ⟨_, rfl, rfl⟩
      · simp only [if_neg exited, if_neg live]
        exact .inl ⟨trivial, _, rfl, new.tid, new.capacity,
          ⟨rfl, rfl, new.unregistered, new.unsent, new.empty, new.blank⟩⟩
  · simp only [failed, short]
    exact .inr ⟨_, rfl, rfl⟩

end Tracer

/-- An empty buffer has nothing pending. -/
theorem Tracer.Fresh.pending {b : Buffer} (fresh : Tracer.Fresh b) : b.pending = [] := by
  rw [Buffer.pending, fresh.empty, Nat.sub_self]
  rfl

namespace Shutdown

variable {x x' : Shutdown} {limit : Option Nat} {pid : UInt32} {capacity : Nat}
  {events : List Event}

/-- The tracer is the one that was begun with, and tracing is over once an exit was begun. -/
structure Configured (pid : UInt32) (capacity : Nat) (x : Shutdown) : Prop where
  distinct : x.session.buffers.Distinct
  pid : x.session.tracer.pid = pid
  capacity : x.session.tracer.capacity = capacity
  exited : x.session.tracer.roster.exited = true ↔ x.session.exits ≠ #[]

theorem Configured.handled {e : Event} {read : Nat → Option Nat}
    (configured : Configured pid capacity ⟨e.before, read⟩) (handled : e.Handled) :
    Configured pid capacity ⟨e.after, read⟩ := by
  have tracer := handled.tracer
  refine ⟨handled.elsewhere.distinct configured.distinct, ?_, ?_, ?_⟩
  · rw [tracer]
    exact configured.pid
  · rw [tracer]
    exact configured.capacity
  · rw [handled.custody.exited, handled.elsewhere.exits]
    exact configured.exited

theorem Runs.configured (runs : Runs { session := .begun limit pid capacity } events x) :
    Configured pid capacity x := by
  induction runs with
  | nil => exact ⟨List.nodup_nil, rfl, rfl, by simp [Session.begun]⟩
  | act name machineName action _ ih =>
    exact ih.handled (Session.handled_act ih.distinct name machineName action)
  | begin _ ih =>
    exact ⟨ih.distinct, ih.pid, ih.capacity, by simp [Session.beginExit, Tracer.beginExit]⟩
  | wait _ _ _ _ _ ih => exact ⟨ih.distinct, ih.pid, ih.capacity, ih.exited⟩
  | close i total waiting _ _ ih =>
    refine ⟨ih.distinct, ih.pid, ih.capacity, ih.exited.trans ?_⟩
    simp [Shutdown.close, ← Array.size_eq_zero_iff]

/-- What is reported is the first of the obstacles that there is. -/
theorem Configured.first_obstacle (configured : Configured pid capacity x) {tid : UInt64}
    {e : TraceError} (refused : x.session.tracer.refusal? tid = some e) :
    match Buffer.shortage? capacity with
    | some cause => e = .resource cause
    | none =>
      if x.session.exits ≠ #[] then e = .exited
      else tid ∈ x.session.tracer.roster.live ∧ e = .resource (.threadSlot tid) := by
  rw [Tracer.refusal?, configured.capacity] at refused
  cases short : Buffer.shortage? capacity with
  | some cause =>
    simp only [short] at refused
    exact (Option.some.inj refused).symm
  | none =>
    simp only [short, configured.exited] at refused
    by_cases begun : x.session.exits ≠ #[]
    · rw [if_pos begun] at refused
      simp only [if_pos begun]
      exact (Option.some.inj refused).symm
    · rw [if_neg begun] at refused
      simp only [if_neg begun]
      by_cases live : tid ∈ x.session.tracer.roster.live
      · rw [if_pos live] at refused
        exact ⟨live, (Option.some.inj refused).symm⟩
      · rw [if_neg live] at refused
        cases refused

/-- In every state that can be reached, a thread starts exactly if its buffer can be had, no exit
was begun and it is not running. Then it is added to the running threads, and its buffer is active,
empty, not registered and has sent nothing. Otherwise the first obstacle is reported, and everything
is as before: the threads, what they have sent, the channel and all buffers; the new buffer, if it
could be had, goes away without ending a thread. -/
theorem start_exact (runs : Runs { session := .begun limit pid capacity } events x) (tid : UInt64) :
    ((∃ b, (x.session.tracer.start tid).1 = .ok b) ↔
      2 ≤ capacity ∧ capacity * Entry.byteSize ≤ allocationLimit ∧ x.session.exits = #[] ∧
        tid ∉ x.session.tracer.roster.live) ∧
    (∀ b t, x.session.tracer.start tid = (.ok b, t) →
      b.tid = tid ∧ b.capacity = capacity ∧ b.phase = .active ∧ b.attached = true ∧
      b.registered = false ∧ b.refs = 0 ∧ b.ptr = headerBytes ∧ b.pending = [] ∧
      t = { x.session.tracer with roster :=
        { x.session.tracer.roster with live := tid :: x.session.tracer.roster.live } }) ∧
    (∀ e t, x.session.tracer.start tid = (.error e, t) → t = x.session.tracer ∧
      match Buffer.shortage? capacity with
      | some cause => e = .resource cause
      | none =>
        if x.session.exits ≠ #[] then e = .exited
        else tid ∈ x.session.tracer.roster.live ∧ e = .resource (.threadSlot tid)) ∧
    (∀ b, Buffer.new tid capacity = .ok b → x.session.tracer.discard b = x.session.tracer) ∧
    ∀ name machineName, x.session.buffers.get? name = none →
      x.session.act name machineName (.start tid) =
        match x.session.tracer.start tid with
        | (.ok b, t) =>
          (.ofBuffer b, { x.session with tracer := t, buffers := x.session.buffers.put name b })
        | (.error e, _) => (.traceError e, x.session) := by
  have configured := runs.configured
  have begun : x.session.tracer.roster.exited = false ↔ x.session.exits = #[] := by
    rw [← Bool.not_eq_true, configured.exited, not_not]
  have acted : ∀ name machineName, x.session.buffers.get? name = none →
      x.session.act name machineName (.start tid) = Session.keep
        { x.session with tracer := (x.session.tracer.start tid).2 } name .traceError
        (x.session.tracer.start tid).1 := by
    intro name machineName free
    rw [Session.act, if_neg (by simp [free])]
  have allowed : x.session.tracer.refusal? tid = none ↔
      2 ≤ capacity ∧ capacity * Entry.byteSize ≤ allocationLimit ∧ x.session.exits = #[] ∧
        tid ∉ x.session.tracer.roster.live := by
    rw [Tracer.refusal?_eq_none_iff, configured.capacity, begun, and_assoc]
  rcases x.session.tracer.start_cases tid with ⟨admitted, b, start, same, slots, fresh⟩ |
    ⟨e, refused, start⟩
  · refine ⟨?_, ?_, ?_, fun b made => Tracer.discard_new made, fun name machineName free => ?_⟩
    · rw [start]
      exact iff_of_true ⟨b, rfl⟩ (allowed.1 admitted)
    · intro b' t started
      cases start.symm.trans started
      exact ⟨same, slots.trans configured.capacity, fresh.active, fresh.attached,
        fresh.unregistered, fresh.unsent, fresh.empty, fresh.pending, rfl⟩
    · intro e t failed
      cases start.symm.trans failed
    · rw [acted name machineName free]
      simp only [start]
      rfl
  · refine ⟨?_, ?_, ?_, fun b made => Tracer.discard_new made, fun name machineName free => ?_⟩
    · rw [start, ← allowed, refused]
      simp
    · intro b t started
      cases start.symm.trans started
    · intro e' t failed
      cases start.symm.trans failed
      exact ⟨rfl, configured.first_obstacle refused⟩
    · rw [acted name machineName free]
      simp only [start]
      rfl

/-- A thread has sent an entry, and the buffer of another one was dropped. -/
def bereft : Session :=
  ((((Session.begun none 1 4).act "t" "m" (.start 7)).2.act "t" "m" (.flush .forced)).2.act "u" "m"
    (.start 9)).2.act "u" "m" .drop |>.2

/-- The thread that is running may not start again and is left running; a third may start, until an
exit is begun. -/
theorem start_exact_bereft :
    (∃ events x, Runs { session := .begun none 1 4 } events x ∧ x.session = bereft) ∧
    bereft.tracer.roster.live = [7] ∧ bereft.tracer.roster.abandoned = [9] ∧
    bereft.tracer.start 7 = (.error (.resource (.threadSlot 7)), bereft.tracer) ∧
    (∃ b, (bereft.tracer.start 8).1 = .ok b) ∧
    ¬∃ b, (bereft.beginExit.tracer.start 8).1 = .ok b := by
  obtain ⟨events, x, runs, session⟩ : ∃ events x,
      Runs { session := .begun none 1 4 } events x ∧ x.session = bereft := by
    have begun : Runs { session := .begun none 1 4 } [] { session := .begun none 1 4 } := .nil
    refine ⟨_, _, Runs.act "u" "m" .drop (.act "u" "m" (.start 9) (.act "t" "m" (.flush .forced)
      (.act "t" "m" (.start 7) begun))), ?_⟩
    simp only [bereft]
  have live : bereft.tracer.roster.live = [7] := by decide +kernel
  have unbegun : bereft.exits = #[] := by decide +kernel
  refine ⟨⟨events, x, runs, session⟩, live, by decide +kernel, ?_, ?_, ?_⟩
  · obtain ⟨success, -, failure, -⟩ := start_exact runs 7
    rw [session] at success failure
    rcases start : bereft.tracer.start 7 with ⟨e | b, t⟩
    · have short : Buffer.shortage? 4 = none := by decide
      have refused := failure e t start
      simp only [short, unbegun, ne_eq, not_true_eq_false, if_false] at refused
      rw [refused.1, refused.2.2]
    · have absent := (success.1 ⟨b, congrArg Prod.fst start⟩).2.2.2
      exact absurd absent (by simp [live])
  · have success := (start_exact runs 8).1
    rw [session] at success
    exact success.2 ⟨by decide, by decide, unbegun, by simp [live]⟩
  · have success := (start_exact runs.begin 8).1
    simp only [session] at success
    exact fun started => absurd (success.1 started).2.2.1 Array.push_ne_empty

end Shutdown

end AccessTrace
