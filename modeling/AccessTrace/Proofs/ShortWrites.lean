import Mathlib
import AccessTrace.Proofs.Accounting

/-!
# What follows a short write

A recorder with a limit cuts the first message that is too long for it. Up to then it has recorded
complete messages only, and what it took of that one ends them. But nobody takes note: the next
thread to deliver sends on behind it, and a payload that was cut is sent again
(`stream_after_short_write`).
-/

namespace AccessTrace

namespace Buffer

/-- What a thread sends: a registration, or a payload. -/
inductive Speech (pid : UInt32) : List UInt8 → Prop
  | registration (tid : UInt64) : Speech pid (Buffer.registration tid pid)
  | payload {tid : UInt64} {most : Nat} {m : List UInt8} (payload : Payload tid 1 most m) :
    Speech pid m

variable {pid : UInt32} {b b' : Buffer} {m : List UInt8}

theorem Speech.length_pos (speech : Speech pid m) : 0 < m.length := by
  cases speech with
  | registration tid =>
    rw [length_registration]
    decide
  | payload payload =>
    refine Nat.lt_of_lt_of_le ?_ payload.least
    decide

theorem least_pos (policy : FlushPolicy) (b : Buffer) : 1 ≤ policy.least b.capacity := by
  have slots := b.two_le_capacity
  cases policy with
  | forced => exact Nat.le_refl 1
  | deferrable =>
    rw [FlushPolicy.least]
    omega

/-- An exchange consists of a registration, if it is needed, and payloads. -/
theorem Exchange.speech {policy : FlushPolicy} {c c' : Recorder} {whole : List (List UInt8)}
    {cut : Option (List UInt8)} (exchange : Exchange policy pid b c b' c' whole cut) :
    ∀ m ∈ whole ++ cut.toList, Speech pid m := by
  have payload : ∀ m ∈ behind b.registered (whole ++ cut.toList), Speech pid m := by
    intro m mem
    obtain ⟨headed, slots, least, most⟩ := exchange.payloads m mem
    exact .payload ⟨headed, slots, Nat.le_trans (Nat.mul_le_mul_right _ (least_pos policy b)) least,
      most⟩
  intro m mem
  cases registered : b.registered with
  | true =>
    rw [registered] at payload
    exact payload m mem
  | false =>
    have first := exchange.first registered
    rw [registered] at payload
    rcases all : whole ++ cut.toList with _ | ⟨head, tail⟩
    · rw [all] at mem
      cases mem
    · rw [all] at mem first payload
      rcases List.mem_cons.1 mem with rfl | later
      · rw [first m rfl]
        exact .registration b.tid
      · exact payload m later

/-- A header that is there already is written again. -/
theorem occupiedBytes_writeHeader (headed : (Entry.thread b.tid).toBytes <+: b.occupiedBytes) :
    b.writeHeader.occupiedBytes = b.occupiedBytes := by
  obtain ⟨rest, bytes⟩ := headed
  have split := b.occupiedBytes_eq
  have room := b.headerBytes_le_size
  rw [← bytes] at split
  obtain ⟨there, -⟩ := List.append_inj split (by
    rw [Entry.length_toBytes, Array.length_toList, Array.size_extract, Nat.min_eq_left room]
    rfl)
  rw [occupiedBytes_written, header, there, ← b.occupiedBytes_eq]

end Buffer

/-- A payload that was cut is cut again when the buffer is delivered again. -/
theorem Session.sent_again {s : Session} {name : String} {b : Buffer}
    (here : s.buffers.get? name = some b) (isOpen : s.tracer.channel.closed = false)
    (registered : b.registered = true)
    (headed : (Entry.thread b.tid).toBytes <+: b.occupiedBytes)
    (cuts : ¬ s.tracer.channel.Takes b.occupiedBytes.length) (machineName : String) :
    (s.event name machineName (.flush .forced)).sent =
      [s.tracer.channel.accepted b.occupiedBytes] := by
  have bytes := Buffer.occupiedBytes_writeHeader headed
  obtain ⟨rest, _, taken⟩ := withBuffer_of_get? here
  rcases Recorder.send_open isOpen b.occupiedBytes with ⟨takes, _⟩ | ⟨_, n, send⟩
  · exact absurd takes cuts
  have undelivered : b.flush s.tracer.channel s.tracer.pid .forced =
      (.error (.partialWrite n b.occupiedBytes.length), b.writeHeader,
        { s.tracer.channel with
          messages :=
            s.tracer.channel.messages.push (s.tracer.channel.accepted b.occupiedBytes) }) := by
    refine Buffer.flush_undelivered (by simp)
      (Buffer.register_registered (b.sameButBytes_writeHeader.registered.trans registered)) ?_
    apply Buffer.deliver_refused
    rw [bytes]
    exact send
  rw [Event.sent, event, act, taken]
  simp only [Tracer.flush_eq undelivered, Recorder.since, Array.toList_push]
  rw [← Array.length_toList, List.drop_left]

namespace Event

/-- What an action sends over a recorder with this limit: the messages `whole`, and then `cut`, if
anything was cut. -/
structure Spoken (pid : UInt32) (limit : Option Nat) (e : Event) (whole : List (List UInt8))
    (cut : Option (List UInt8)) : Prop where
  sent : e.sent = whole ++ (cut.map e.before.tracer.channel.accepted).toList
  speech : ∀ m ∈ whole ++ cut.toList, Buffer.Speech pid m
  takes : ∀ m ∈ whole, ∀ n, limit = some n → m.length ≤ n
  cuts : ∀ m, cut = some m → ∃ n, limit = some n ∧ n < m.length ∧
    e.before.tracer.channel.accepted m = m.take n
  cut : e.outcome.cut = cut.isSome

variable {pid : UInt32} {limit : Option Nat} {e : Event} {b b' : Buffer}
  {whole : List (List UInt8)} {cut : Option (List UInt8)}

theorem Dealt.spoken (dealt : e.Dealt b b' whole cut) (handled : e.Handled)
    (process : e.before.tracer.pid = pid) (same : e.before.tracer.channel.limit = limit) :
    e.Spoken pid limit whole cut where
  sent := dealt.sent handled
  speech := process ▸ dealt.exchange.speech
  takes := by
    intro m mem n limited
    exact dealt.exchange.takes m mem n (same.trans limited)
  cuts := by
    intro m here
    have cuts := dealt.exchange.cuts m here
    rw [Recorder.Takes, same] at cuts
    cases limit with
    | none => exact absurd (fun n mem => by cases mem) cuts
    | some n =>
      refine ⟨n, rfl, ?_, ?_⟩
      · by_contra short
        exact cuts fun k mem => Option.some.inj mem ▸ Nat.le_of_not_lt short
      · rw [Recorder.accepted, same]
  cut := dealt.cut

/-- What was cut is the registration, or a payload that is still in the buffer: delivering that
again repeats what was recorded of it. -/
theorem Dealt.repeats {m : List UInt8} (dealt : e.Dealt b b' whole (some m))
    (isOpen : e.before.tracer.channel.closed = false)
    (there : e.after.buffers.get? e.name = some b') :
    m = Buffer.registration b'.tid e.before.tracer.pid ∨ ∀ machineName,
      (e.after.event e.name machineName (.flush .forced)).sent =
        [e.before.tracer.channel.accepted m] := by
  have exchange := dealt.exchange
  by_cases sent : (b.registered || !whole.isEmpty) = true
  · right
    have bytes := exchange.stays m rfl sent
    have payload : m ∈ Buffer.behind b.registered (whole ++ [m]) := by
      rw [Buffer.behind_append, sent]
      exact List.mem_append_right _ List.mem_cons_self
    have headed := (exchange.payloads m payload).headed
    rw [← exchange.owner.tid] at headed
    have registered : b'.registered = true := by
      rw [exchange.registered]
      simp
    have isOpen' : e.after.tracer.channel.closed = false := by
      rw [exchange.recorder]
      exact isOpen
    have accepted : e.after.tracer.channel.accepted m = e.before.tracer.channel.accepted m := by
      rw [exchange.recorder]
      rfl
    have cuts : ¬ e.after.tracer.channel.Takes m.length := by
      rw [exchange.recorder]
      exact exchange.cuts m rfl
    rw [← bytes] at headed cuts
    intro machineName
    rw [Session.sent_again there isOpen' registered headed cuts machineName, bytes, accepted]
  · left
    rw [Bool.not_eq_true, Bool.or_eq_false_iff, Bool.not_eq_false', List.isEmpty_iff] at sent
    rw [sent.2] at exchange
    rw [exchange.owner.tid]
    exact exchange.first sent.1 m rfl

/-- What was recorded of a message is empty exactly if the limit is zero. -/
theorem Spoken.nil_iff (spoken : e.Spoken pid limit whole cut) {n : Nat} (limited : limit = some n)
    {m : List UInt8} (mem : m ∈ e.sent) : m = [] ↔ n = 0 := by
  rw [spoken.sent] at mem
  rcases List.mem_append.1 mem with complete | shortened
  · have positive := (spoken.speech m (List.mem_append_left _ complete)).length_pos
    have fits := spoken.takes m complete n limited
    constructor
    · rintro rfl
      cases positive
    · intro zero
      omega
  · cases cut with
    | none => cases shortened
    | some m' =>
      obtain ⟨k, limited', short, accepted⟩ := spoken.cuts m' rfl
      cases limited.symm.trans limited'
      rw [Option.map_some, Option.toList_some, List.mem_singleton, accepted] at shortened
      rw [shortened, List.take_eq_nil_iff]
      constructor
      · rintro (zero | empty)
        · exact zero
        · rw [empty] at short
          cases short
      · exact .inl

end Event

namespace Shutdown

variable {limit : Option Nat} {pid : UInt32} {capacity : Nat} {events : List Event} {x : Shutdown}
  {e : Event}

theorem Runs.spoken (runs : Runs { session := .begun limit pid capacity } events x)
    (counted : ∀ e ∈ events, e.action.Counted) (mem : e ∈ events) :
    ∃ whole cut, e.Spoken pid limit whole cut := by
  have within := (runs.descends List.nodup_nil).2 e mem
  cases here : e.buffer? with
  | none =>
    obtain ⟨sent, uncut⟩ := Event.sent_of_vacant within.acted (counted e mem) here
    exact ⟨[], none, sent, by simp, by simp, by simp, uncut⟩
  | some b =>
    obtain ⟨b', whole, cut, dealt, _⟩ := runs.dealt counted mem here (runs.aligned counted mem here)
    exact ⟨whole, cut, dealt.spoken within.handled within.pid within.limit⟩

/-- What cannot be put off is sent. -/
theorem Runs.sent_of_delivers (runs : Runs { session := .begun limit pid capacity } events x)
    (counted : ∀ e ∈ events, e.action.Counted) (mem : e ∈ events) (delivers : e.delivers = true) :
    e.sent ≠ [] := by
  have within := (runs.descends List.nodup_nil).2 e mem
  cases here : e.buffer? with
  | none =>
    rw [Event.delivers, here] at delivers
    split at delivers <;> simp_all
  | some b =>
    obtain ⟨b', whole, cut, dealt, sends⟩ :=
      runs.dealt counted mem here (runs.aligned counted mem here)
    have something := (sends delivers).something
    rw [dealt.sent within.handled]
    cases whole with
    | nil =>
      cases cut with
      | none => exact absurd rfl something
      | some m => exact List.cons_ne_nil _ _
    | cons m ms => exact List.cons_ne_nil _ _

/-- An action in which nothing is cut sends complete messages. -/
theorem Runs.complete (runs : Runs { session := .begun limit pid capacity } events x)
    (counted : ∀ e ∈ events, e.action.Counted) (mem : e ∈ events) (uncut : e.outcome.cut = false) :
    ∀ m ∈ e.sent, Buffer.Speech pid m := by
  intro m sent
  obtain ⟨whole, cut, spoken⟩ := runs.spoken counted mem
  obtain rfl : cut = none := by
    rw [← Option.isNone_iff_eq_none, ← Option.not_isSome, ← spoken.cut, uncut]
    decide
  rw [spoken.sent, Option.map_none, Option.toList_none, List.append_nil] at sent
  exact spoken.speech m (List.mem_append_left _ sent)

/-- Over a recorder with a limit, nothing is recorded exactly if nothing is ever taken or nothing is
sent. -/
theorem Runs.nothing_iff (runs : Runs { session := .begun limit pid capacity } events x)
    (counted : ∀ e ∈ events, e.action.Counted) {n : Nat} (limited : limit = some n)
    {some : List Event} (among : ∀ e ∈ some, e ∈ events) :
    (some.flatMap Event.sent).flatten = [] ↔ n = 0 ∨ ∀ e ∈ some, e.sent = [] := by
  have empty_iff : ∀ e ∈ some, ∀ m ∈ e.sent, m = [] ↔ n = 0 := by
    intro e mem m sent
    obtain ⟨whole, cut, spoken⟩ := runs.spoken counted (among e mem)
    exact spoken.nil_iff limited sent
  rw [List.flatten_eq_nil_iff]
  constructor
  · intro empty
    by_cases zero : n = 0
    · exact .inl zero
    · refine .inr fun e mem => List.eq_nil_iff_forall_not_mem.2 fun m sent => zero ?_
      exact (empty_iff e mem m sent).1 (empty m (List.mem_flatMap.2 ⟨e, mem, sent⟩))
  · intro quiet m sent
    obtain ⟨e, mem, sent⟩ := List.mem_flatMap.1 sent
    rcases quiet with zero | silent
    · exact (empty_iff e mem m sent).2 zero
    · rw [silent e mem] at sent
      cases sent

/-- The first message that is cut, in the action `e`: `whole` was recorded before, and then the
first `n` bytes of `m`. -/
structure Truncated (pid : UInt32) (x : Shutdown) (front : List Event) (e : Event)
    (rest : List Event) (whole : List (List UInt8)) (m : List UInt8) (n : Nat) : Prop where
  complete : ∀ m' ∈ whole, Buffer.Speech pid m'
  message : Buffer.Speech pid m
  short : n < m.length
  recorded : front.flatMap Event.sent ++ e.sent = whole ++ [m.take n]
  /-- The stream ends there exactly if nothing is ever taken or nothing more is sent, -/
  ends_iff : x.session.tracer.channel.stream = whole.flatten ++ m.take n ↔
    n = 0 ∨ ∀ e' ∈ rest, e'.sent = []
  /-- and all that has to be delivered is sent. -/
  goes_on : ∀ e' ∈ rest, e'.delivers = true → e'.sent ≠ []
  /-- A payload that was cut is recorded again when its buffer is delivered again. -/
  repeats : ∀ b', e.after.buffers.get? e.name = some b' → m = Buffer.registration b'.tid pid ∨
    ∀ machineName, (e.after.event e.name machineName (.flush .forced)).sent = [m.take n]

/-- As long as nothing was cut, only complete messages were recorded. The first one that is cut ends
the stream only if nothing is sent from then on, which nothing sees to. -/
theorem stream_after_short_write
    (runs : Runs { session := .begun limit pid capacity } events x)
    (counted : ∀ e ∈ events, e.action.Counted) :
    ((∀ e ∈ events, e.outcome.cut = false) →
      ∀ m ∈ x.session.tracer.channel.messages.toList, Buffer.Speech pid m) ∧
    ∀ front e rest, events = front ++ e :: rest → (∀ e' ∈ front, e'.outcome.cut = false) →
      e.outcome.cut = true →
      ∃ whole m n, limit = some n ∧ Truncated pid x front e rest whole m n := by
  have messages : x.session.tracer.channel.messages.toList = events.flatMap Event.sent :=
    (runs.descends List.nodup_nil).1.messages
  refine ⟨fun uncut m mem => ?_, ?_⟩
  · rw [messages] at mem
    obtain ⟨e, mem', sent⟩ := List.mem_flatMap.1 mem
    exact runs.complete counted mem' (uncut e mem') m sent
  · rintro front e rest rfl uncut cut
    have here : e ∈ front ++ e :: rest := List.mem_append_right _ List.mem_cons_self
    have late : ∀ e' ∈ rest, e' ∈ front ++ e :: rest := fun e' mem =>
      List.mem_append_right _ (List.mem_cons_of_mem _ mem)
    have within := (runs.descends List.nodup_nil).2 e here
    obtain ⟨b, used⟩ : ∃ b, e.buffer? = some b := by
      rw [← Option.ne_none_iff_exists']
      intro absent
      rw [(Event.sent_of_vacant within.acted (counted e here) absent).2] at cut
      cases cut
    obtain ⟨b', own, cut', dealt, _⟩ :=
      runs.dealt counted here used (runs.aligned counted here used)
    have spoken := dealt.spoken within.handled within.pid within.limit
    rw [spoken.cut] at cut
    obtain ⟨m, rfl⟩ := Option.isSome_iff_exists.1 cut
    obtain ⟨n, limited, short, accepted⟩ := spoken.cuts m rfl
    have recorded : front.flatMap Event.sent ++ e.sent =
        (front.flatMap Event.sent ++ own) ++ [m.take n] := by
      rw [spoken.sent, Option.map_some, Option.toList_some, accepted, List.append_assoc]
    have stream : x.session.tracer.channel.stream =
        ((front.flatMap Event.sent ++ own).flatten ++ m.take n) ++
          (rest.flatMap Event.sent).flatten := by
      rw [Recorder.stream, messages, List.flatMap_append, List.flatMap_cons, ← List.append_assoc,
        recorded, List.flatten_append, List.flatten_append, List.flatten_singleton]
    refine ⟨_, m, n, limited, ?_, spoken.speech m (List.mem_append_right _ List.mem_cons_self),
      short, recorded, ?_, fun e' mem => runs.sent_of_delivers counted (late e' mem),
      fun b'' there => ?_⟩
    · intro m' mem
      rcases List.mem_append.1 mem with before | now
      · obtain ⟨e', mem', sent⟩ := List.mem_flatMap.1 before
        exact runs.complete counted (List.mem_append_left _ mem') (uncut e' mem') m' sent
      · exact spoken.speech m' (List.mem_append_left _ now)
    · rw [stream, List.append_right_eq_self]
      exact runs.nothing_iff counted limited late
    · rcases dealt.left with ⟨there', _⟩ | ⟨gone, _⟩
      · cases there'.symm.trans there
        have again := dealt.repeats (runs.isOpen counted here used) there
        rw [accepted, within.pid] at again
        exact again
      · cases gone.symm.trans there

/-- Two threads, of which one has two entries at hand, over a recorder that takes 32 bytes of each
message. -/
def holding : Session :=
  ((((Session.begun (some 32) 1 4).act "t" "m" (.start 7)).2.act "u" "m" (.start 8)).2.act "t" "m"
    (.buffer (.push (.read 8 16) 8 2))).2

/-- A delivery of these, in which the payload is cut. -/
def shortened : Event := holding.event "t" "m" (.flush .forced)

/-- The other thread delivers. -/
def unaware : Event := shortened.after.event "u" "m" (.flush .forced)

/-- The first one delivers again. -/
def resumed : Event := unaware.after.event "t" "m" (.flush .forced)

theorem stream_after_short_write_resumed : ∃ events x front e rest whole m n,
    Runs { session := .begun (some 32) 1 4 } events x ∧ Truncated 1 x front e rest whole m n ∧
      events = front ++ e :: rest ∧ e.outcome.cut = true ∧
      x.session.tracer.channel.stream ≠ whole.flatten ++ m.take n := by
  have start : Runs { session := .begun (some 32) 1 4 } [] _ := .nil
  have held := Runs.act "t" "m" (.buffer (.push (.read 8 16) 8 2))
    (.act "u" "m" (.start 8) (.act "t" "m" (.start 7) start))
  have runs := Runs.act "t" "m" (.flush .forced)
    (.act "u" "m" (.flush .forced) (.act "t" "m" (.flush .forced) held))
  have cut : shortened.outcome.cut = true := by decide +kernel
  obtain ⟨whole, m, n, limited, truncated⟩ :=
    (stream_after_short_write runs (by simp [Session.event, Action.Counted])).2
      [_, _, _] shortened [unaware, resumed] rfl (by decide +kernel) cut
  refine ⟨_, _, _, _, _, whole, m, n, runs, truncated, rfl, cut, fun ends => ?_⟩
  rcases truncated.ends_iff.1 ends with zero | silent
  · rw [zero] at limited
    cases limited
  · have delivers : unaware.delivers = true := by decide +kernel
    exact truncated.goes_on unaware List.mem_cons_self delivers (silent unaware List.mem_cons_self)

/-- After the short write of one thread the other is delivered as if nothing had happened, and when
the first one delivers again its first entry is in the stream twice. -/
theorem stream_goes_on : shortened.outcome.cut = true ∧ unaware.sent ≠ [] ∧ resumed.sent ≠ [] ∧
    shortened.after.tracer.channel.stream.length < unaware.after.tracer.channel.stream.length ∧
    records resumed.after.tracer.channel.stream = [.ok (.thread 7), .ok (.process 1),
      .ok (.thread 7), .ok (.read 8 16), .ok (.thread 8), .ok (.process 1), .ok (.thread 8),
      .ok (.thread 7), .ok (.read 8 16)] := by
  refine ⟨?_, ?_, ?_, ?_, ?_⟩ <;> decide +kernel

end Shutdown

end AccessTrace
