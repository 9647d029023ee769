import Mathlib
import AccessTrace.Proofs.Accounting
import AccessTrace.Proofs.Faithful
import AccessTrace.Proofs.Fillings
import AccessTrace.Proofs.Impostors

/-!
# Messages on the wire

A run in which entries are put into buffers by pushing them and by executing plans, whether these
are executed to the last or stop at the end of the buffer (`Action.Filling`). Every message that is
sent in it is one of a buffer that was handed out (`Runs.noted`), and says a part of what was put
into that, in records whose padding is zero and whose kinds there are. Where no plan fetches and no
opcode is pushed, it is byte for byte the records of the entries that it says
(`messages_well_formed`).
-/

namespace AccessTrace

/-- Records of kinds that there are, with nothing in their padding. -/
structure WellFormed (bytes : List UInt8) : Prop where
  whole : bytes.length % Entry.byteSize = 0
  kind : ∀ record ∈ groups Entry.byteSize (bytes.length / Entry.byteSize) bytes,
    Entry.wordAt record Entry.kindOffset 2 ≤ 4
  padding : ∀ record ∈ groups Entry.byteSize (bytes.length / Entry.byteSize) bytes,
    (record.drop 6).take 2 = [0, 0]

/-- Two bytes of a record. -/
theorem Entry.pair_eq {record : List UInt8} {offset : Nat} (inside : offset + 1 < record.length) :
    (record.drop offset).take 2 = [record[offset], record[offset + 1]] := by
  rw [List.drop_eq_getElem_cons (Nat.lt_of_succ_lt inside), List.drop_eq_getElem_cons inside]
  rfl

/-- What a tidy record has in its first two bytes and in its padding. -/
theorem Entry.Tidy.record {opcodes : Bool} {record : List UInt8} (tidy : Tidy opcodes 0 record)
    (length : record.length = byteSize) :
    wordAt record kindOffset 2 ≤ 4 ∧ (record.drop 6).take 2 = [0, 0] := by
  have admits : ∀ k (inside : k < record.length), Admits opcodes k record[k] := by
    intro k inside
    have here := tidy k _ (List.getElem?_eq_getElem inside)
    rw [Nat.zero_add, Nat.mod_eq_of_lt (length ▸ inside)] at here
    exact here
  have long : 7 < record.length := by
    rw [length]
    decide
  have low := (admits 0 (by omega)).kind rfl
  have high := (admits 1 (by omega)).zero (.inl rfl)
  constructor
  · rw [wordAt, kindOffset, pair_eq (by omega)]
    simp only [ofLittleEndian, Nat.zero_add, high]
    exact low
  · rw [pair_eq (by omega), (admits 6 (by omega)).zero (.inr (.inl rfl)),
      (admits 7 long).zero (.inr (.inr rfl))]

theorem Uttered.wellFormed {opcodes : Bool} {pid : UInt32} {tid : UInt64} {log : List Entry}
    {bytes : List UInt8} (uttered : Uttered opcodes pid tid log bytes) : WellFormed bytes := by
  obtain ⟨m, own, carries, tidy⟩ := uttered
  have each : ∀ record ∈ groups Entry.byteSize (bytes.length / Entry.byteSize) bytes,
      Entry.wordAt record Entry.kindOffset 2 ≤ 4 ∧ (record.drop 6).take 2 = [0, 0] := by
    intro record mem
    rw [groups_eq] at mem
    obtain ⟨k, inside, rfl⟩ := List.mem_map.1 mem
    have room := List.mem_range.1 inside
    refine ((tidy.drop (Nat.mul_mod_left _ _)).take _).record (List.length_take_of_le ?_)
    rw [List.length_drop]
    simp only [Entry.byteSize] at *
    omega
  exact ⟨carries.whole, fun record mem => (each record mem).1,
    fun record mem => (each record mem).2⟩

/-- Without opcodes the bytes are the records of the entries that they say. -/
theorem Uttered.eq_toBytes {pid : UInt32} {tid : UInt64} {log : List Entry} {bytes : List UInt8}
    (uttered : Uttered false pid tid log bytes) (plain : ∀ e ∈ log, e.opcode = 0) :
    ∃ m : Message, m.Of tid log ∧ bytes = (m.entries pid).flatMap Entry.toBytes := by
  obtain ⟨m, own, carries, tidy⟩ := uttered
  refine ⟨m, own, ?_⟩
  have normal : (m.entries pid).map Entry.normal = m.entries pid := by
    rw [List.map_congr_left (g := id), List.map_id]
    intro e mem
    refine Entry.normal_eq fun _ => ?_
    cases m with
    | registration t =>
      rcases List.mem_cons.1 mem with rfl | last
      · rfl
      · rw [List.mem_singleton.1 last]
        rfl
    | payload t es =>
      rcases List.mem_cons.1 mem with rfl | event
      · rfl
      · exact plain e (own.2.subset event)
  rw [normal] at carries
  exact carries.eq_toBytes tidy

/-- What an action appends to a buffer by itself. -/
def BufferAction.puts (b : Buffer) : BufferAction → List Entry
  | push e stride times => (e.series stride times).take b.free
  | _ => []

/-- What may be done to a buffer into which entries are put whole. -/
def BufferAction.Filling (opcodes : Bool) : BufferAction → Prop
  | push e _ _ => opcodes = false → e.opcode = 0
  | store16 _ _ | store64 _ _ | setPtr _ => False
  | _ => True

/-- What is done where buffers are handed out by the tracer, filled by pushing entries and by
executing plans, and delivered. Without `opcodes` no plan fetches and no opcode is pushed. -/
def Action.Filling (opcodes : Bool) : Action → Prop
  | buffer action => action.Filling opcodes
  | execute plans _ => ∃ ps : List PlannedInstruction, plans = ps.map (·.plan) ∧
    ∀ p ∈ ps, p.scheme.fetches = true → opcodes = true
  | allocate _ _ | send _ => False
  | _ => True

theorem Action.Filling.unmade {opcodes : Bool} {action : Action} (filling : action.Filling opcodes)
    (tid : UInt64) (capacity : Nat) : action ≠ .allocate tid capacity := by
  rintro rfl
  exact filling

theorem Action.Filling.unsent {opcodes : Bool} {action : Action} (filling : action.Filling opcodes)
    (bytes : List UInt8) : action ≠ .send bytes := by
  rintro rfl
  exact filling

/-- The process in whose name an action delivers. -/
def Event.process (e : Event) : UInt32 :=
  match e.action with
  | .flushAs pid _ => pid
  | _ => e.before.tracer.pid

/-- The entries that an action puts into the buffer: of a series as many as there are free slots,
and what the plans call for that have put in their entries. -/
def Event.Puts (e : Event) (added : List Entry) : Prop :=
  match e.action, e.buffer?, e.outcome with
  | .buffer action, some b, _ => added = action.puts b
  | .execute plans times, some _, .executed done failure _ => ∃ ps : List PlannedInstruction,
    plans = ps.map (·.plan) ∧ added = ((List.replicate times ps).flatten.take
      (filledBy done failure)).flatMap fun p => p.called (e.before.machine e.machine).get
  | _, _, _ => added = []

variable {opcodes : Bool} {log : List Entry}

namespace Buffer

variable {b : Buffer}

/-- Where no opcode is to be pushed, none is. -/
theorem opcode_of_mem_puts {action : BufferAction} (filling : action.Filling opcodes)
    (none : opcodes = false) {e : Entry} (mem : e ∈ action.puts b) : e.opcode = 0 := by
  cases action with
  | push first stride times =>
    obtain ⟨addr, rfl⟩ := Entry.eq_of_mem_series (List.mem_of_mem_take mem)
    exact filling none
  | _ => cases mem

/-- What is done to a buffer appends to its log what is pushed. -/
theorem HoldsLast.apply (held : b.HoldsLast opcodes log) {action : BufferAction}
    (filling : action.Filling opcodes) :
    (action.apply b).2.HoldsLast opcodes (log ++ action.puts b) := by
  obtain ⟨aligned, bytes⟩ := held.tidy
  have nothing : ∀ b' : Buffer, b'.Tidy opcodes → b'.pending = b.pending →
      b'.HoldsLast opcodes (log ++ []) := by
    intro b' tidy pending
    rw [List.append_nil]
    exact held.of_pending tidy pending
  cases action with
  | push e stride times =>
    refine held.extend (held.tidy.pushSeries filling stride times) ?_
    rw [BufferAction.puts, List.map_take]
    exact (pushed_pushSeries aligned e stride times).pending
  | writeHeader => exact nothing _ held.tidy.writeHeader (Unsent.writeHeader b).pending
  | reset => exact holdsLast_nil held.tidy.reset rfl _
  | addRefs count => exact nothing _ ⟨aligned, bytes⟩ rfl
  | markRegistered =>
    simp only [BufferAction.apply, Buffer.markRegistered]
    split
    · exact nothing _ held.tidy rfl
    · exact nothing _ ⟨aligned, bytes⟩ rfl
  | transition target =>
    simp only [BufferAction.apply, Buffer.transition]
    split
    · exact nothing _ ⟨aligned, bytes⟩ rfl
    · exact nothing _ held.tidy rfl
  | pending => exact nothing _ held.tidy rfl
  | occupied => exact nothing _ held.tidy rfl
  | header => exact nothing _ held.tidy rfl
  | _ => exact filling.elim

end Buffer

/-- What an action with a buffer, whose log was `log`, puts into it, and that what is sent and what
is held says that. -/
structure Event.Filled (opcodes : Bool) (log : List Entry) (e : Event) (b : Buffer)
    (added : List Entry) : Prop where
  puts : e.Puts added
  plain : opcodes = false → ∀ e ∈ added, e.opcode = 0
  held : ∀ b', e.after.buffers.get? e.name = some b' → b'.HoldsLast opcodes (log ++ added)
  took : e.before.tracer.channel.Took e.after.tracer.channel
    (Uttered opcodes e.process b.tid (log ++ added))

namespace Session

variable {s : Session} {name machineName : String} {b : Buffer} {action : Action}

/-- A buffer that was taken out is put back. -/
theorem filled_put {outcome : Outcome} {s' : Session} {b' : Buffer} {rest : Named Buffer}
    {added : List Entry} (acted : s.act name machineName action = (outcome, s'))
    (buffers : s'.buffers = rest.put name b') (puts : (s.event name machineName action).Puts added)
    (plain : opcodes = false → ∀ e ∈ added, e.opcode = 0)
    (held : b'.HoldsLast opcodes (log ++ added))
    (took : s.tracer.channel.Took s'.tracer.channel
      (Uttered opcodes (s.event name machineName action).process b.tid (log ++ added))) :
    (s.event name machineName action).Filled opcodes log b added := by
  have after : (s.event name machineName action).after = s' := congrArg Prod.snd acted
  refine ⟨puts, plain, fun c there => ?_, ?_⟩
  · rw [after, buffers, show (s.event name machineName action).name = name from rfl,
      Named.get?_put, if_pos rfl] at there
    cases there
    exact held
  · rw [after]
    exact took

/-- A buffer that was taken out is gone. -/
theorem filled_gone {outcome : Outcome} {s' : Session} {rest : Named Buffer}
    (acted : s.act name machineName action = (outcome, s')) (distinct : s.buffers.Distinct)
    (without : s.buffers.Without rest name) (buffers : s'.buffers = rest)
    (puts : (s.event name machineName action).Puts [])
    (took : s.tracer.channel.Took s'.tracer.channel
      (Uttered opcodes (s.event name machineName action).process b.tid log)) :
    (s.event name machineName action).Filled opcodes log b [] := by
  have after : (s.event name machineName action).after = s' := congrArg Prod.snd acted
  refine ⟨puts, by simp, fun c there => ?_, ?_⟩
  · rw [after, buffers, show (s.event name machineName action).name = name from rfl,
      without.get? distinct] at there
    cases there
  · rw [after, List.append_nil]
    exact took

/-- Neither the buffer nor what was sent has changed. -/
theorem filled_idle {outcome : Outcome} {s' : Session}
    (acted : s.act name machineName action = (outcome, s')) (here : s.buffers.get? name = some b)
    (held : b.HoldsLast opcodes log) (buffers : s'.buffers = s.buffers)
    (limit : s'.tracer.channel.limit = s.tracer.channel.limit)
    (messages : s'.tracer.channel.messages = s.tracer.channel.messages)
    (puts : (s.event name machineName action).Puts []) :
    (s.event name machineName action).Filled opcodes log b [] := by
  have after : (s.event name machineName action).after = s' := congrArg Prod.snd acted
  refine ⟨puts, by simp, fun c there => ?_, ?_⟩
  · rw [after, buffers, show (s.event name machineName action).name = name from rfl, here] at there
    cases there
    rw [List.append_nil]
    exact held
  · rw [after]
    exact .none limit messages

theorem filled_buffer (machineName : String) {action : BufferAction}
    (filling : action.Filling opcodes) (here : s.buffers.get? name = some b)
    (held : b.HoldsLast opcodes log) :
    (s.event name machineName (.buffer action)).Filled opcodes log b (action.puts b) := by
  have held' := held.apply filling
  obtain ⟨rest, without, taken⟩ := withBuffer_of_get? here
  rcases applied : action.apply b with ⟨outcome, b'⟩
  rw [applied] at held'
  have acted : s.act name machineName (.buffer action) =
      (outcome, { s with buffers := rest.put name b' }) := by
    rw [act, taken]
    simp only [applied]
  refine filled_put acted rfl ?_ (fun none _ => Buffer.opcode_of_mem_puts filling none) held'
    (.none rfl rfl)
  simp only [Event.Puts, event, Event.buffer?, here]

theorem filled_flush (machineName : String) (policy : FlushPolicy)
    (here : s.buffers.get? name = some b) (held : b.HoldsLast opcodes log) :
    (s.event name machineName (.flush policy)).Filled opcodes log b [] := by
  obtain ⟨rest, without, taken⟩ := withBuffer_of_get? here
  rcases flush : b.flush s.tracer.channel s.tracer.pid policy with ⟨answer, b', c'⟩
  obtain ⟨held', took⟩ := held.flush flush
  have acted := act.eq_def s name machineName (.flush policy)
  simp only [taken, Tracer.flush_eq flush] at acted
  rw [← List.append_nil log] at held' took
  exact filled_put acted rfl rfl (by simp) held' took

theorem filled_flushAs (machineName : String) (pid : UInt32) (policy : FlushPolicy)
    (here : s.buffers.get? name = some b) (held : b.HoldsLast opcodes log) :
    (s.event name machineName (.flushAs pid policy)).Filled opcodes log b [] := by
  obtain ⟨rest, without, taken⟩ := withBuffer_of_get? here
  rcases flush : b.flush s.tracer.channel pid policy with ⟨answer, b', c'⟩
  have told := Tracer.flush_eq (t := { s.tracer with pid }) flush
  obtain ⟨held', took⟩ := held.flush flush
  have acted := act.eq_def s name machineName (.flushAs pid policy)
  simp only [taken, told] at acted
  rw [← List.append_nil log] at held' took
  exact filled_put acted rfl rfl (by simp) held' took

theorem filled_execute (machineName : String) (ps : List PlannedInstruction)
    (plain : ∀ p ∈ ps, p.scheme.fetches = true → opcodes = true) (times : Nat)
    (here : s.buffers.get? name = some b) (held : b.HoldsLast opcodes log) :
    ∃ added, (s.event name machineName (.execute (ps.map (·.plan)) times)).Filled opcodes log b
      added := by
  obtain ⟨rest, without, taken⟩ := withBuffer_of_get? here
  have same := (takeMachine_eq s.machines machineName).1
  rcases machines : takeMachine s.machines machineName with ⟨m, machines'⟩
  rw [machines] at same
  obtain rfl : m = s.machine machineName := same
  obtain ⟨done, answer, h', run, adds⟩ :=
    Host.adds_times (h := ⟨s.machine machineName, b, s.tracer⟩) held ps plain times
  have acted := act.eq_def s name machineName (.execute (ps.map (·.plan)) times)
  simp only [taken, execute, machines, run] at acted
  refine ⟨_, filled_put acted rfl ?_ adds.plain adds.held adds.took⟩
  simp only [Event.Puts, event, Event.buffer?, here, acted]
  refine ⟨ps, rfl, ?_⟩
  cases answer with
  | ok _ => rfl
  | error _ => rfl

/-- Letting go of a buffer sends nothing. -/
theorem filled_discard {outcome : Outcome} {rest : Named Buffer}
    (acted : s.act name machineName action =
      (outcome, { s with tracer := s.tracer.discard b, buffers := rest }))
    (distinct : s.buffers.Distinct) (without : s.buffers.Without rest name)
    (puts : (s.event name machineName action).Puts []) :
    (s.event name machineName action).Filled opcodes log b [] := by
  refine filled_gone acted distinct without rfl puts ?_
  simp only
  rw [(custody_discard action s.tracer b).2]
  exact .none rfl rfl

theorem filled_finish (machineName : String) (distinct : s.buffers.Distinct)
    (here : s.buffers.get? name = some b) (held : b.HoldsLast opcodes log) :
    (s.event name machineName .finish).Filled opcodes log b [] := by
  by_cases active : b.phase = .active
  · obtain ⟨rest, outcome, refs, without, acted, _⟩ := act_finish here active machineName
    have took := (s.tracer.channel.took_sendAll (b.due s.tracer.pid)).mono
      fun m mem => held.uttered mem
    exact filled_gone acted distinct without rfl rfl took
  · obtain ⟨rest, without, taken⟩ := withBuffer_of_get? here
    have acted := act.eq_def s name machineName .finish
    simp only [taken, Tracer.finish_inactive active] at acted
    exact filled_discard acted distinct without rfl

theorem filled_free (machineName : String) (distinct : s.buffers.Distinct)
    (here : s.buffers.get? name = some b) :
    (s.event name machineName .free).Filled opcodes log b [] := by
  obtain ⟨rest, without, taken⟩ := withBuffer_of_get? here
  have acted := act.eq_def s name machineName .free
  rcases free_eq s.tracer b with ⟨_, freed⟩ | ⟨e, freed⟩
  · simp only [taken, freed] at acted
    exact filled_gone acted distinct without rfl rfl (.none rfl rfl)
  · simp only [taken, freed] at acted
    exact filled_discard acted distinct without rfl

/-- Whatever is done with a buffer that is filled, what it sends and what it holds is what was put
into it. -/
theorem filled_act (distinct : s.buffers.Distinct) (filling : action.Filling opcodes)
    (here : s.buffers.get? name = some b) (held : b.HoldsLast opcodes log) (machineName : String) :
    ∃ added, (s.event name machineName action).Filled opcodes log b added := by
  cases action with
  | start tid =>
    have idle : s.act name machineName (.start tid) = (.nameInUse, s) := by
      rw [act, here]
      rfl
    exact ⟨[], filled_idle idle here held rfl rfl rfl rfl⟩
  | close => exact ⟨[], filled_idle rfl here held rfl rfl rfl rfl⟩
  | channel => exact ⟨[], filled_idle rfl here held rfl rfl rfl rfl⟩
  | machine => exact ⟨[], filled_idle rfl here held rfl rfl rfl rfl⟩
  | setRegisters values =>
    obtain ⟨machines, acted⟩ := act_setRegisters s name machineName values
    exact ⟨[], filled_idle acted here held rfl rfl rfl rfl⟩
  | buffer action => exact ⟨_, filled_buffer machineName filling here held⟩
  | flush policy => exact ⟨_, filled_flush machineName policy here held⟩
  | flushAs pid policy => exact ⟨_, filled_flushAs machineName pid policy here held⟩
  | execute plans times =>
    obtain ⟨ps, rfl, plain⟩ := filling
    exact filled_execute machineName ps plain times here held
  | finish => exact ⟨_, filled_finish machineName distinct here held⟩
  | free => exact ⟨_, filled_free machineName distinct here⟩
  | drop =>
    obtain ⟨rest, without, taken⟩ := withBuffer_of_get? here
    have acted := act.eq_def s name machineName .drop
    simp only [taken] at acted
    exact ⟨_, filled_discard acted distinct without rfl⟩
  | _ => exact filling.elim

/-- Where there is no buffer, nothing is sent from one. -/
theorem messages_of_vacant (s : Session) {name : String} (machineName : String) {action : Action}
    (unsent : ∀ bytes, action ≠ .send bytes) (absent : s.buffers.get? name = none) :
    (s.event name machineName action).after.tracer.channel.messages =
      s.tracer.channel.messages := by
  have idle : ∀ act : Buffer → Session → Outcome × Session,
      (s.withBuffer name act).2.tracer.channel.messages = s.tracer.channel.messages := by
    intro act
    rw [withBuffer_of_vacant absent]
  rw [event]
  cases action with
  | start tid =>
    rcases started_or_idle s name machineName tid with
      ⟨_, _, _, _, _, _, _, started⟩ | ⟨outcome, _, nothing⟩
    · rw [started]
    · rw [nothing]
  | allocate tid capacity =>
    simp only [act, absent, Option.isSome_none, Bool.false_eq_true, if_false]
    cases Buffer.new tid capacity <;> rfl
  | send bytes => exact absurd rfl (unsent bytes)
  | close => rfl
  | channel => rfl
  | machine => rfl
  | setRegisters values =>
    obtain ⟨machines, acted⟩ := act_setRegisters s name machineName values
    rw [acted]
  | _ => exact idle _

end Session

namespace Account

/-- The buffer of the account holds the last entries of its log, and all that it sent says what is
in the log. -/
def Logs (opcodes : Bool) (a : Account) (o : Option Buffer) : Prop :=
  (∀ e ∈ a.events, e.action.Filling opcodes) → ∃ added : List (List Entry),
    List.Forall₂ Event.Puts a.events added ∧
    (opcodes = false → ∀ e ∈ added.flatten, e.opcode = 0) ∧
    (∀ b, o = some b → b.HoldsLast opcodes added.flatten) ∧
    ∀ e ∈ a.events, ∀ m ∈ e.sent, ∃ full, m = e.before.tracer.channel.accepted full ∧
      Uttered opcodes e.process a.tid added.flatten full

theorem logs_fresh (opcodes : Bool) (name : String) {b : Buffer} (fresh : Tracer.Fresh b) :
    Logs opcodes { name, tid := b.tid } (some b) := by
  intro _
  refine ⟨[], .nil, by simp, fun c same => ?_, by simp⟩
  cases same
  exact Buffer.holdsLast_nil (Buffer.tidy_fresh opcodes fresh) fresh.empty _

/-- What is done with the buffer goes into the account. -/
theorem Logs.note {s₀ : Session} {a : Account} {e : Event} {b : Buffer}
    (logs : a.Logs opcodes (some b)) (within : e.Within s₀) (tid : b.tid = a.tid)
    (here : e.buffer? = some b) : (a.note e).Logs opcodes (e.after.buffers.get? e.name) := by
  intro filling
  obtain ⟨added, puts, plain, held, sent⟩ :=
    logs fun e mem => filling e (List.mem_append_left _ mem)
  have last := filling e (List.mem_append_right _ List.mem_cons_self)
  obtain ⟨now, filled⟩ := Session.filled_act within.distinct last here (held b rfl) e.machine
  rw [within.acted] at filled
  have log : (added ++ [now]).flatten = added.flatten ++ now := by
    rw [List.flatten_append, List.flatten_singleton]
  refine ⟨added ++ [now], List.rel_append puts (.cons filled.puts .nil), ?_, ?_, ?_⟩
  · intro none x mem
    rw [log] at mem
    exact (List.mem_append.1 mem).elim (plain none x) (filled.plain none x)
  · rw [log]
    exact filled.held
  · rw [log]
    intro e' mem m among
    rcases List.mem_append.1 mem with early | late
    · obtain ⟨full, same, uttered⟩ := sent e' early m among
      exact ⟨full, same, uttered.append now⟩
    · rw [List.mem_singleton.1 late] at among ⊢
      obtain ⟨_, messages, grown, all⟩ := filled.took
      rw [within.handled.grown.messages_eq] at grown
      have own : e.sent = messages.map e.before.tracer.channel.accepted :=
        List.append_cancel_left grown
      rw [own] at among
      obtain ⟨full, spoken, rfl⟩ := List.mem_map.1 among
      exact ⟨full, rfl, tid ▸ all full spoken⟩

end Account

/-- The actions of an account stay in it. -/
theorem exists_mem_book {as : List Account} {a : Account} (mem : a ∈ as) (e : Event) :
    ∃ c ∈ book as e, a.events ⊆ c.events := by
  rw [book]
  cases e.started? with
  | some tid => exact ⟨a, List.mem_append_left _ mem, List.Subset.refl _⟩
  | none =>
    refine ⟨a.record e, List.mem_map_of_mem mem, ?_⟩
    rw [Account.record]
    split
    · exact List.subset_append_left _ _
    · exact List.Subset.refl _

namespace Shutdown

variable {limit : Option Nat} {pid : UInt32} {capacity : Nat} {events : List Event} {x : Shutdown}

/-- Where nobody makes a buffer of his own, each action on a buffer is noted in an account. -/
theorem Runs.noted (runs : Runs { session := .begun limit pid capacity } events x)
    (unmade : ∀ e ∈ events, ∀ tid capacity, e.action ≠ .allocate tid capacity) {e : Event}
    (mem : e ∈ events) {b : Buffer} (here : e.buffer? = some b) :
    ∃ a ∈ accounts events, e ∈ a.events := by
  induction runs with
  | nil => cases mem
  | @act events x name machineName action runs ih =>
    have earlier : ∀ e ∈ events, ∀ tid capacity, e.action ≠ .allocate tid capacity :=
      fun e mem => unmade e (List.mem_append_left _ mem)
    rw [accounts_snoc]
    rcases List.mem_append.1 mem with old | new
    · obtain ⟨a, known, noted⟩ := ih earlier old
      obtain ⟨c, known', kept⟩ := exists_mem_book known (x.session.event name machineName action)
      exact ⟨c, known', kept noted⟩
    · rw [List.mem_singleton.1 new] at here ⊢
      have attached := (runs.handed_out earlier).1 name b here
      obtain ⟨accounted, _⟩ := runs.accounts_stand (P := fun _ _ => True) rfl
        (fun _ _ _ _ _ _ => trivial) fun _ _ _ _ _ _ _ _ _ _ => trivial
      have handled := Session.handled_act accounted.distinct name machineName action
      have booked := Accounted.booked accounted handled
      generalize accounts events = as at booked ⊢
      generalize book as _ = as' at booked ⊢
      cases booked with
      | idle started vacant => cases attached.symm.trans (vacant b here)
      | opened started => cases here.symm.trans (handled.custody.opened started).1
      | @noted front back a =>
        exact ⟨a.note _, List.mem_append_right _ List.mem_cons_self,
          List.mem_append_right _ List.mem_cons_self⟩
  | begin _ ih => exact ih unmade mem
  | wait _ _ _ _ _ ih => exact ih unmade mem
  | close _ _ _ _ _ ih => exact ih unmade mem

/-- All that is sent in a run in which buffers are filled is sent from one of them. -/
theorem Runs.sent_noted (runs : Runs { session := .begun limit pid capacity } events x)
    (filling : ∀ e ∈ events, e.action.Filling true) {m : List UInt8}
    (mem : m ∈ x.session.tracer.channel.messages) :
    ∃ a ∈ accounts events, ∃ e ∈ a.events, m ∈ e.sent := by
  obtain ⟨descends, within⟩ := runs.descends List.nodup_nil
  have recorded : m ∈ events.flatMap Event.sent := by
    have messages := descends.messages
    rw [← Array.mem_toList_iff, messages] at mem
    exact mem
  obtain ⟨e, among, sent⟩ := List.mem_flatMap.1 recorded
  cases here : e.buffer? with
  | none =>
    have same := e.before.messages_of_vacant e.machine (filling e among).unsent here
    rw [(within e among).acted] at same
    rw [Event.sent, Recorder.since, same, ← Array.length_toList, List.drop_length] at sent
    cases sent
  | some b =>
    obtain ⟨a, known, noted⟩ := runs.noted (fun e mem => (filling e mem).unmade) among here
    exact ⟨a, known, e, noted, sent⟩

theorem Runs.logs (runs : Runs { session := .begun limit pid capacity } events x) (opcodes : Bool)
    {a : Account} (mem : a ∈ accounts events) : a.Logs opcodes (a.buffer? x.session) := by
  have within := (runs.descends List.nodup_nil).2
  exact (runs.accounts_stand (P := fun a o => a.Logs opcodes o) rfl
    (fun e _ b _ _ fresh => Account.logs_fresh opcodes e.name fresh)
    fun e mem a b _ _ here _ tid logs => logs.note (within e mem) tid here).2 a mem

/-- Where buffers are handed out by the tracer and filled by pushing entries and by executing plans,
every message is one of theirs, and as far as the recorder took it a part of records whose padding
is zero and whose kinds there are, whatever the slots held before. If no plan for the buffer fetches
and no opcode is pushed, it is byte for byte what the entries that it says are encoded to: the
registration of its thread, or the thread header and entries that were put into the buffer one after
the other. -/
theorem messages_well_formed (runs : Runs { session := .begun limit pid capacity } events x)
    (filling : ∀ e ∈ events, e.action.Filling true) :
    ∀ m ∈ x.session.tracer.channel.messages, ∃ a ∈ accounts events, ∃ e ∈ a.events, m ∈ e.sent ∧
      (∃ full, m = x.session.tracer.channel.accepted full ∧ WellFormed full) ∧
      ((∀ e ∈ a.events, e.action.Filling false) → ∃ (added : List (List Entry))
        (message : Message), List.Forall₂ Event.Puts a.events added ∧
        message.Of a.tid added.flatten ∧ m = x.session.tracer.channel.accepted
          ((message.entries e.process).flatMap Entry.toBytes)) := by
  intro m mem
  obtain ⟨a, known, e, noted, sent⟩ := runs.sent_noted filling mem
  obtain ⟨descends, within⟩ := runs.descends List.nodup_nil
  have among := (sublist_of_accounts events a known).subset
  have limit' : e.before.tracer.channel.accepted = x.session.tracer.channel.accepted :=
    Recorder.accepted_congr ((within e (among noted)).limit.trans descends.limit.symm)
  refine ⟨a, known, e, noted, sent, ?_, fun plain => ?_⟩
  · obtain ⟨added, _, _, _, all⟩ := runs.logs true known fun e mem => filling e (among mem)
    obtain ⟨full, same, uttered⟩ := all e noted m sent
    exact ⟨full, limit' ▸ same, uttered.wellFormed⟩
  · obtain ⟨added, puts, none, _, all⟩ := runs.logs false known plain
    obtain ⟨full, same, uttered⟩ := all e noted m sent
    obtain ⟨message, own, rfl⟩ := uttered.eq_toBytes (none rfl)
    exact ⟨added, message, puts, own, limit' ▸ same⟩

/-- Without a limit messages are taken whole. -/
theorem Runs.accepts_all (runs : Runs { session := .begun none pid capacity } events x) :
    x.session.tracer.channel.accepted = id := by
  rw [Recorder.accepted_congr (runs.descends List.nodup_nil).1.limit]
  rfl

/-- A load with an entry of its own, or without one, that checks for no delivery. -/
def uncheckedLoad (fetches : Bool) : PlannedInstruction where
  scheme := { architecture := .x86, fetches }
  instruction := aliasedLoad
  check := false

/-- A buffer of three entries is filled with entries that have this opcode and sent. Plans then lay
down the next entries in the same slots, until one of them stops at the end of the buffer, and these
are sent as well. -/
def refillings (fetches : Bool) (opcode : UInt16) : List (String × Action) :=
  [("t", .start 9), ("t", .buffer (.push { kind := .write, size := 8, opcode, addr := 64 } 8 3)),
    ("t", .flush .forced), ("t", .execute ([uncheckedLoad fetches].map (·.plan)) 4), ("t", .finish)]

theorem filling_refillings {fetches : Bool} {opcode : UInt16}
    (plain : opcodes = false → fetches = false ∧ opcode = 0) :
    ∀ e ∈ [] ++ (Session.begun none 3 4).eventsAll (refillings fetches opcode),
      e.action.Filling opcodes := by
  intro e mem
  have action : e.action ∈ (refillings fetches opcode).map Prod.snd := by
    rw [← Session.actions_eventsAll (.begun none 3 4)]
    exact List.mem_map_of_mem mem
  simp only [refillings, List.map_cons, List.map_nil, List.mem_cons, List.not_mem_nil, or_false]
    at action
  rcases action with h | h | h | h | h <;> rw [h]
  · trivial
  · exact fun none => (plain none).2
  · trivial
  · refine ⟨[uncheckedLoad fetches], rfl, fun p mem fetch => ?_⟩
    rw [List.mem_singleton.1 mem] at fetch
    cases opcodes with
    | true => rfl
    | false => cases (plain rfl).1.symm.trans fetch
  · trivial

/-- What the threads of a session do can be done before the program closes the tracer. -/
theorem exists_runs_actAll (s₀ : Session) (distinct : s₀.buffers.Distinct)
    (steps : List (String × Action)) : ∃ x,
    Runs { session := s₀ } ([] ++ s₀.eventsAll steps) x ∧ x.session = s₀.actAll steps := by
  obtain ⟨read, runs⟩ := runs_of_session (Session.Runs.nil.actAll steps) distinct
  exact ⟨⟨_, read⟩, runs, rfl⟩

/-- With fetches and opcodes the messages are well-formed, and without they are what their entries
are encoded to. -/
theorem messages_well_formed_refilled :
    (∃ events x, Runs { session := .begun none 3 4 } events x ∧
      x.session.tracer.channel.messages.toList.map List.length = [32, 64, 48] ∧
      ∀ m ∈ x.session.tracer.channel.messages, WellFormed m) ∧
    ∃ events x, Runs { session := .begun none 3 4 } events x ∧
      x.session.tracer.channel.messages.toList.map List.length = [32, 64, 64] ∧
      ∀ m ∈ x.session.tracer.channel.messages, ∃ es : List Entry, m = es.flatMap Entry.toBytes := by
  constructor
  · obtain ⟨x, runs, session⟩ :=
      exists_runs_actAll (.begun none 3 4) List.nodup_nil (refillings true 7)
    have whole := runs.accepts_all
    refine ⟨_, x, runs, by rw [session]; decide +kernel, fun m mem => ?_⟩
    obtain ⟨_, _, _, _, _, ⟨full, same, wellFormed⟩, _⟩ :=
      messages_well_formed runs (filling_refillings nofun) m mem
    rw [whole, id_eq] at same
    rw [same]
    exact wellFormed
  · obtain ⟨x, runs, session⟩ :=
      exists_runs_actAll (.begun none 3 4) List.nodup_nil (refillings false 0)
    have whole := runs.accepts_all
    refine ⟨_, x, runs, by rw [session]; decide +kernel, fun m mem => ?_⟩
    obtain ⟨a, known, e, _, _, _, canonical⟩ :=
      messages_well_formed runs (filling_refillings nofun) m mem
    have among := (sublist_of_accounts _ a known).subset
    obtain ⟨_, message, _, _, same⟩ :=
      canonical fun e mem => filling_refillings (fun _ => ⟨rfl, rfl⟩) e (among mem)
    rw [whole, id_eq] at same
    exact ⟨_, same⟩

end Shutdown

end AccessTrace
