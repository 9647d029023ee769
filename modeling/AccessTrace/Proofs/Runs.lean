import Mathlib
import AccessTrace.Proofs.Turns

/-!
# Runs of a session

A run is any order in which threads act and exits are begun and settled. Along a run of orderly
actions the stream is that of an orderly log (`Sound`): every buffer in use is that of a live
thread, no two of them are of one thread, and a thread that counts as registered has its
registration in the log. `registered` are the threads that the run registered, once for each time.
-/

namespace AccessTrace

/-- An action of a run. -/
structure Event where
  name : String
  machine : String
  action : Action
  outcome : Outcome
  before : Session
  after : Session

namespace Event

/-- The thread that was started. -/
def started? (e : Event) : Option UInt64 :=
  match e.action, e.outcome with
  | .start tid, .made _ _ _ => some tid
  | _, _ => none

/-- The buffer under the name, before the action. -/
def buffer? (e : Event) : Option Buffer := e.before.buffers.get? e.name

/-- Whether a buffer is delivered and that cannot be put off. -/
def delivers (e : Event) : Bool :=
  match e.action, e.buffer? with
  | .flush policy, some b => !(policy = .deferrable && b.mayDefer)
  | .finish, some b => b.phase = .active
  | _, _ => false

theorem delivers_flush {e : Event} {policy : FlushPolicy} {b : Buffer}
    (flush : e.action = .flush policy) (here : e.buffer? = some b) :
    e.delivers = !(decide (policy = .deferrable) && b.mayDefer) := by
  rw [delivers, flush, here]

theorem delivers_finish {e : Event} {b : Buffer} (finish : e.action = .finish)
    (here : e.buffer? = some b) : e.delivers = decide (b.phase = .active) := by
  rw [delivers, finish, here]

/-- The entries that an action puts into the buffer: of a series as many as there are free slots,
and what the plans that were executed call for. -/
def Buffers (e : Event) (added : List Entry) : Prop :=
  match e.action, e.buffer?, e.outcome with
  | .buffer (.push entry stride times), some b, _ =>
    added = ((entry.series stride times).map Entry.normal).take b.free
  | .execute plans times, some _, .executed done _ _ => ∃ ps : List PlannedInstruction,
    plans = ps.map (·.plan) ∧ added = ((List.replicate times ps).flatten.take done).flatMap
      fun p => p.called (e.before.machine e.machine).get
  | _, _, _ => added = []

/-- The thread that was registered: that of the buffer, if it had not registered and something was
sent. -/
def registered? (e : Event) : Option UInt64 :=
  match e.buffer? with
  | none => none
  | some b =>
    if b.registered = false ∧ e.before.tracer.channel.messages.size <
      e.after.tracer.channel.messages.size then some b.tid else none

end Event

/-- What a traced program does: it starts and ends threads, appends events, executes plans and
delivers; looking and computing are free. -/
def Action.Orderly : Action → Prop
  | .start _ | .setRegisters _ | .machine | .channel | .flush _ | .finish | .drop => True
  | .buffer (.push e _ _) => e.kind.isEvent = true
  | .buffer .pending | .buffer .occupied | .buffer .header => True
  | .execute plans _ => ∃ ps : List PlannedInstruction, plans = ps.map (·.plan)
  | _ => False

namespace Session

/-- An action and what comes of it. -/
def event (s : Session) (name machineName : String) (action : Action) : Event where
  name := name
  machine := machineName
  action := action
  outcome := (s.act name machineName action).1
  before := s
  after := (s.act name machineName action).2

/-- The runs from `s₀`, each with its actions. -/
inductive Runs (s₀ : Session) : List Event → Session → Prop
  | nil : Runs s₀ [] s₀
  | act {events : List Event} {s : Session} (name machineName : String) (action : Action) :
    Runs s₀ events s → Runs s₀ (events ++ [s.event name machineName action])
      (s.act name machineName action).2
  | beginExit {events : List Event} {s : Session} : Runs s₀ events s → Runs s₀ events s.beginExit
  | settle {events : List Event} {s : Session} : Runs s₀ events s → Runs s₀ events s.settle

/-- A session that has just begun, over a recorder that takes everything. -/
def fresh (pid : UInt32) (capacity : Nat) : Session where
  tracer := { pid, capacity, channel := {} }

/-- A buffer in use: that of a live thread. -/
structure Seated (t : Tracer Recorder) (log : Log) (b : Buffer) : Prop where
  active : b.phase = .active
  attached : b.attached = true
  live : b.tid ∈ t.roster.live
  known : b.registered = true → b.tid ∈ log.registrations
  holds : ∃ es, b.Holds es

/-- The stream is that of an orderly log, and every buffer is in use. -/
structure Sound (pid : UInt32) (log : Log) (s : Session) : Prop where
  process : s.tracer.pid = pid
  unlimited : s.tracer.channel.limit = none
  sent : Log.Sent pid s.tracer.channel.messages.toList log
  orderly : log.Orderly
  distinct : s.buffers.Distinct
  seated : ∀ name b, s.buffers.get? name = some b → Seated s.tracer log b
  apart : ∀ name other b c, s.buffers.get? name = some b → s.buffers.get? other = some c →
    b.tid = c.tid → name = other
  closed : s.tracer.channel.closed = true →
    s.tracer.roster.exited = true ∧ s.tracer.roster.live = []
  ending : s.exits.contains none = true → s.tracer.roster.exited = true

variable {t t' : Tracer Recorder} {before after : Option Buffer} {es es' added : List Entry}
  {told : Log}

/-- What every turn does to the channel: it sends what is told. -/
theorem Turn.sends (turn : Turn t before es t' after es' added told) :
    t'.pid = t.pid ∧ t'.channel.limit = t.channel.limit ∧ t'.channel.closed = t.channel.closed ∧
      ∃ new, t'.channel.messages.toList = t.channel.messages.toList ++ new ∧
        Log.Sent t.pid new told := by
  have nothing : ∃ new, t.channel.messages.toList = t.channel.messages.toList ++ new ∧
      Log.Sent t.pid new [] := ⟨[], by rw [List.append_nil], .nil⟩
  cases turn with
  | idle => exact ⟨rfl, rfl, rfl, nothing⟩
  | started => exact ⟨rfl, rfl, rfl, nothing⟩
  | worked tracer advance =>
    subst tracer
    have same := advance.tracer
    refine ⟨advance.pid, ?_, ?_, advance.sent⟩
    · rw [same]
    · rw [same]
  | finished grown sent => exact ⟨rfl, rfl, rfl, _, grown, sent⟩
  | dropped => exact ⟨rfl, rfl, rfl, nothing⟩

/-- A turn ends no thread but its own, and starts none once tracing is over. -/
theorem Turn.keeps (turn : Turn t before es t' after es' added told) :
    t'.roster.exited = t.roster.exited ∧
      (∀ tid ∈ t.roster.live, (∀ b, before = some b → b.tid ≠ tid) → tid ∈ t'.roster.live) ∧
      (t.roster.exited = true → t.roster.live = [] → t'.roster.live = []) := by
  have left : ∀ (b : Buffer) (refs : Nat),
      (∀ tid ∈ t.roster.live, (∀ c, some b = some c → c.tid ≠ tid) →
        tid ∈ (t.roster.leave b.tid refs).live) ∧
      (t.roster.exited = true → t.roster.live = [] → (t.roster.leave b.tid refs).live = []) := by
    intro b refs
    constructor
    · intro tid live other
      exact Roster.mem_live_leave.2 ⟨live, (other b rfl).symm⟩
    · intro _ empty
      rw [Roster.leave, empty]
      rfl
  cases turn with
  | idle => exact ⟨rfl, fun tid live _ => live, fun _ empty => empty⟩
  | started running =>
    refine ⟨rfl, fun tid live _ => List.mem_cons_of_mem _ live, fun exited _ => ?_⟩
    rw [running] at exited
    cases exited
  | worked tracer advance =>
    subst tracer
    rw [advance.tracer]
    exact ⟨rfl, fun tid live _ => live, fun _ empty => empty⟩
  | finished grown sent => exact ⟨rfl, left _ _⟩
  | @dropped b es => exact ⟨rfl, left b b.refs⟩

/-- A thread that has not registered does so when it sends anything. -/
theorem registrations_of_sent {pid : UInt32} {tid : UInt64} {registered : Bool}
    {payloads : List (List Entry)} {messages messages' : Array (List UInt8)}
    {new : List (List UInt8)} (grown : messages'.toList = messages.toList ++ new)
    (sent : Log.Sent pid new (Log.talk tid registered payloads)) :
    (Log.talk tid registered payloads).registrations =
      (if registered = false ∧ messages.size < messages'.size then some tid else none).toList := by
  have count := congrArg List.length grown
  rw [List.length_append, Array.length_toList, Array.length_toList, sent.length_eq, Log.talk_eq]
    at count
  rw [Log.registrations_talk]
  cases registered with
  | true => rfl
  | false =>
    cases payloads with
    | nil =>
      have idle : ¬ (false = false ∧ messages.size < messages'.size) := by
        rw [List.map_nil, List.append_nil] at count
        change messages'.size = messages.size + 0 at count
        omega
      rw [if_neg idle]
      rfl
    | cons es rest =>
      have grows : false = false ∧ messages.size < messages'.size := by
        rw [List.map_cons, List.length_append, List.length_cons] at count
        exact ⟨rfl, by omega⟩
      rw [if_pos grows]
      rfl

/-- A turn registers the thread of its buffer if that has not registered and something is sent. -/
theorem Turn.registrations (turn : Turn t before es t' after es' added told) :
    told.registrations = (match before with
      | none => none
      | some b =>
        if b.registered = false ∧ t.channel.messages.size < t'.channel.messages.size
        then some b.tid else none).toList := by
  cases turn with
  | idle =>
    cases before with
    | none => rfl
    | some b =>
      simp only [Nat.lt_irrefl, and_false, if_false]
      rfl
  | started => rfl
  | worked tracer advance =>
    subst tracer
    obtain ⟨new, grown, sent⟩ := advance.sent
    exact registrations_of_sent grown sent
  | finished grown sent => exact registrations_of_sent grown sent
  | dropped =>
    simp only [Nat.lt_irrefl, and_false, if_false]
    rfl

/-- A turn registers at most its own thread, and that only if it has not registered. -/
theorem Turn.registers_own (turn : Turn t before es t' after es' added told) :
    told.registrations = [] ∨
      ∃ b, before = some b ∧ b.registered = false ∧ told.registrations = [b.tid] := by
  rw [turn.registrations]
  cases before with
  | none => exact .inl rfl
  | some b =>
    simp only
    split
    · rename_i new
      exact .inr ⟨b, rfl, new.1, rfl⟩
    · exact .inl rfl

/-- A thread that has not registered after its turn had not before, and did not in it. -/
theorem Turn.unregistered {b' : Buffer} (turn : Turn t before es t' (some b') es' added told)
    (unregistered : b'.registered = false) : told.registrations = [] ∧
      ∀ b, before = some b → b.registered = false ∧ b'.tid = b.tid := by
  cases turn with
  | idle =>
    refine ⟨rfl, fun b same => ?_⟩
    cases same
    exact ⟨unregistered, rfl⟩
  | started =>
    refine ⟨rfl, fun b same => ?_⟩
    cases same
  | worked tracer advance =>
    rw [advance.registered, Bool.or_eq_false_iff] at unregistered
    constructor
    · rw [Log.registrations_talk, unregistered.1, Bool.false_or]
      exact if_pos (by simpa using unregistered.2)
    · intro b same
      cases same
      exact ⟨unregistered.1, advance.life.tid⟩

/-- A turn says nothing of other threads. -/
theorem Turn.silent (turn : Turn t before es t' after es' added told) (tid : UInt64)
    (other : ∀ b, before = some b → b.tid ≠ tid) :
    told.events tid = [] ∧ tid ∉ told.registrations := by
  constructor
  · cases turn with
    | idle => rfl
    | started => rfl
    | worked => rw [Log.events_talk, if_neg (other _ rfl).symm]
    | finished => rw [Log.events_talk, if_neg (other _ rfl).symm]
    | dropped => rfl
  · intro mem
    rcases turn.registers_own with nothing | ⟨b, here, _, own⟩
    · rw [nothing] at mem
      cases mem
    · rw [own, List.mem_singleton] at mem
      exact other b here mem.symm

/-- A turn loses nothing as long as the thread keeps its buffer. -/
theorem Turn.conserved {b b' : Buffer} (turn : Turn t (some b) es t' (some b') es' added told)
    (holds : b.Holds es) :
    b'.tid = b.tid ∧ b'.Holds es' ∧ told.events b.tid ++ es' = es ++ added := by
  cases turn with
  | idle => exact ⟨rfl, holds, (List.append_nil es).symm⟩
  | worked tracer advance =>
    refine ⟨advance.life.tid, advance.holds, ?_⟩
    rw [Log.events_talk, if_pos rfl]
    exact advance.conserved.symm

/-- A buffer in use stays in use while another thread has its turn. -/
theorem Seated.other {log : Log} {b : Buffer} (seated : Seated t log b)
    (turn : Turn t before es t' after es' added told)
    (other : ∀ c, before = some c → c.tid ≠ b.tid) : Seated t' (log ++ told) b where
  active := seated.active
  attached := seated.attached
  live := turn.keeps.2.1 _ seated.live other
  known := by
    intro registered
    rw [Log.registrations_append]
    exact List.mem_append_left _ (seated.known registered)
  holds := seated.holds

/-- The buffer of a turn is in use after it, and still that of the same thread. -/
theorem Turn.seated {log : Log} {b' : Buffer} (turn : Turn t before es t' (some b') es' added told)
    (seated : ∀ b, before = some b → Seated t log b) :
    Seated t' (log ++ told) b' ∧ (∀ b, before = some b → b'.tid = b.tid) ∧
      (before = none → b'.tid ∉ t.roster.live) := by
  cases turn with
  | idle =>
    rw [List.append_nil]
    refine ⟨seated b' rfl, ?_, ?_⟩
    · intro b same
      cases same
      rfl
    · intro absent
      cases absent
  | started running new fresh =>
    refine ⟨⟨fresh.active, fresh.attached, List.mem_cons_self, ?_, [],
      Buffer.holds_nil fresh.empty⟩, ?_, fun _ => new⟩
    · intro registered
      rw [fresh.unregistered] at registered
      cases registered
    · intro b same
      cases same
  | @worked h h' _ _ _ payloads tracer advance =>
    subst tracer
    have old := seated h.buffer rfl
    refine ⟨⟨?_, ?_, ?_, ?_, _, advance.holds⟩, ?_, ?_⟩
    · rw [advance.life.phase, old.active]
    · rw [advance.life.attached, old.attached]
    · rw [advance.life.tid, advance.tracer]
      exact old.live
    · intro registered
      rw [advance.registered] at registered
      rw [advance.life.tid]
      exact Log.mem_registrations_talk old.known registered
    · intro b same
      cases same
      exact advance.life.tid
    · intro absent
      cases absent

variable {pid : UInt32} {log : Log} {s s' : Session} {name machineName : String}

/-- What is sent in a turn keeps the log orderly. -/
theorem Turn.orderly (turn : Turn t before es t' after es' added told) (orderly : log.Orderly)
    (seated : ∀ b, before = some b → Seated t log b) (holds : ∀ b, before = some b → b.Holds es) :
    (log ++ told).Orderly := by
  cases turn with
  | idle => rw [List.append_nil]; exact orderly
  | started => rw [List.append_nil]; exact orderly
  | @worked h h' _ _ _ payloads tracer advance =>
    subst tracer
    exact orderly.talk (seated h.buffer rfl).known advance.events
  | @finished b es refs messages new grown sent =>
    apply orderly.talk (seated b rfl).known
    intro sent mem e mem'
    rw [List.mem_singleton.1 mem] at mem'
    exact (holds b rfl).events e mem'
  | dropped => rw [List.append_nil]; exact orderly

/-- Buffers of other threads are those of before, and their threads differ from that of the turn. -/
theorem Sound.others (sound : Sound pid log s) (elsewhere : s.Elsewhere s' name machineName)
    {other : String} {b : Buffer} (differs : other ≠ name)
    (here : s'.buffers.get? other = some b) : s.buffers.get? other = some b ∧
      ∀ c, s.buffers.get? name = some c → c.tid ≠ b.tid := by
  rw [elsewhere.buffers other differs] at here
  refine ⟨here, fun c there same => differs ?_⟩
  exact sound.apart other name b c here there same.symm

/-- The buffer of the turn has the thread that it had or a new one, and so not that of another. -/
theorem Sound.apart_turned (sound : Sound pid log s)
    (turned : Turned s s' name machineName es es' added told) {other : String} {b' c : Buffer}
    (here : s'.buffers.get? name = some b') (differs : other ≠ name)
    (there : s'.buffers.get? other = some c) : b'.tid ≠ c.tid := by
  intro same
  obtain ⟨turn, elsewhere⟩ := turned
  obtain ⟨old, distinct⟩ := sound.others elsewhere differs there
  rw [here] at turn
  obtain ⟨_, kept, fresh⟩ := turn.seated (sound.seated name)
  cases before : s.buffers.get? name with
  | none =>
    have unused := fresh before
    rw [same] at unused
    exact unused (sound.seated other c old).live
  | some b =>
    rw [kept b before] at same
    exact distinct b before same

/-- A turn keeps a session sound. -/
theorem Sound.turned (sound : Sound pid log s)
    (turned : Turned s s' name machineName es es' added told)
    (holds : ∀ b, s.buffers.get? name = some b → b.Holds es) : Sound pid (log ++ told) s' := by
  have turn := turned.turn
  have elsewhere := turned.elsewhere
  obtain ⟨process, limit, closed, new, grown, sent⟩ := turn.sends
  obtain ⟨exited, live, ended⟩ := turn.keeps
  refine ⟨process.trans sound.process, limit.trans sound.unlimited, ?_,
    turn.orderly sound.orderly (sound.seated name) holds, elsewhere.distinct sound.distinct,
    ?_, ?_, ?_, ?_⟩
  · rw [grown]
    rw [sound.process] at sent
    exact sound.sent.append sent
  · intro other b here
    by_cases same : other = name
    · subst same
      rw [here] at turn
      exact (turn.seated (sound.seated other)).1
    · obtain ⟨old, distinct⟩ := sound.others elsewhere same here
      exact (sound.seated other b old).other turn distinct
  · intro first second b c here there same
    by_cases isFirst : first = name
    · by_cases isSecond : second = name
      · rw [isFirst, isSecond]
      · subst isFirst
        exact absurd same (sound.apart_turned turned here isSecond there)
    · by_cases isSecond : second = name
      · subst isSecond
        exact absurd same.symm (sound.apart_turned turned there isFirst here)
      · exact sound.apart first second b c (sound.others elsewhere isFirst here).1
          (sound.others elsewhere isSecond there).1 same
  · intro isClosed
    rw [closed] at isClosed
    obtain ⟨already, empty⟩ := sound.closed isClosed
    exact ⟨exited.trans already, ended already empty⟩
  · intro waiting
    rw [elsewhere.exits] at waiting
    exact exited.trans (sound.ending waiting)

/-- A buffer stays in use as long as its thread is live. -/
theorem Seated.congr {b : Buffer} (seated : Seated t log b)
    (live : t'.roster.live = t.roster.live) : Seated t' log b :=
  ⟨seated.active, seated.attached, live ▸ seated.live, seated.known, seated.holds⟩

theorem Sound.beginExit (sound : Sound pid log s) : Sound pid log s.beginExit where
  process := sound.process
  unlimited := sound.unlimited
  sent := sound.sent
  orderly := sound.orderly
  distinct := sound.distinct
  seated := fun name b here => (sound.seated name b here).congr rfl
  apart := sound.apart
  closed := fun isClosed => ⟨rfl, (sound.closed isClosed).2⟩
  ending := fun _ => rfl

/-- An exit that is over when tracing is leaves a session sound. -/
theorem Sound.close (sound : Sound pid log s) (exited : s.tracer.roster.exited = true)
    (idle : s.tracer.roster.live = []) (exits : Array (Option Nat)) :
    Sound pid log { s with tracer := s.tracer.close, exits } where
  process := sound.process
  unlimited := sound.unlimited
  sent := sound.sent
  orderly := sound.orderly
  distinct := sound.distinct
  seated := fun name b here => (sound.seated name b here).congr rfl
  apart := sound.apart
  closed := fun _ => ⟨exited, idle⟩
  ending := fun _ => exited

theorem Sound.settle (sound : Sound pid log s) : Sound pid log s.settle := by
  unfold Session.settle
  split
  · rename_i settled
    rw [Bool.and_eq_true] at settled
    obtain ⟨idle, waiting⟩ := settled
    exact sound.close (sound.ending waiting) (List.isEmpty_iff.1 idle) _
  · exact sound

/-- An exit that is over leaves the threads alone. -/
theorem settle_threads (s : Session) :
    s.settle.buffers = s.buffers ∧ s.settle.machines = s.machines := by
  unfold Session.settle
  split
  · exact ⟨rfl, rfl⟩
  · exact ⟨rfl, rfl⟩

theorem sound_fresh (pid : UInt32) (capacity : Nat) : Sound pid [] (fresh pid capacity) where
  process := rfl
  unlimited := rfl
  sent := .nil
  orderly := .nil
  distinct := List.nodup_nil
  seated := by intro name b here; cases here
  apart := by intro name other b c here; cases here
  closed := by intro isClosed; cases isClosed
  ending := by intro waiting; simp [fresh] at waiting

/-- As long as a thread runs, the channel is open. -/
theorem Sound.isOpen (sound : Sound pid log s) {b : Buffer}
    (here : s.buffers.get? name = some b) : s.tracer.channel.Open := by
  refine ⟨sound.unlimited, ?_⟩
  by_contra isClosed
  rw [Bool.not_eq_false] at isClosed
  have live := (sound.seated name b here).live
  rw [(sound.closed isClosed).2] at live
  cases live

theorem Sound.ready (sound : Sound pid log s) (name : String)
    (empty : s.buffers.get? name = none → es = [])
    (holds : ∀ b, s.buffers.get? name = some b → b.Holds es) : s.Ready name es where
  distinct := sound.distinct
  empty := empty
  active := fun b here => (sound.seated name b here).active
  attached := fun b here => (sound.seated name b here).attached
  holds := holds
  isOpen := fun _ here => sound.isOpen here

/-- What a thread holds. -/
theorem Sound.held (sound : Sound pid log s) (name : String) :
    ∃ es, (s.buffers.get? name = none → es = []) ∧
      ∀ b, s.buffers.get? name = some b → b.Holds es := by
  cases here : s.buffers.get? name with
  | none =>
    refine ⟨[], fun _ => rfl, fun b there => ?_⟩
    cases there
  | some b =>
    obtain ⟨es, holds⟩ := (sound.seated name b here).holds
    refine ⟨es, fun absent => ?_, fun c there => ?_⟩
    · cases absent
    · cases there
      exact holds

theorem turned_of_orderly (ready : s.Ready name es) (machineName : String) {action : Action}
    (orderly : action.Orderly) : ∃ es' added told,
      Turned s (s.act name machineName action).2 name machineName es es' added told ∧
      (s.event name machineName action).Buffers added ∧
      ((s.event name machineName action).delivers = true → es' = []) := by
  have quiet : (s.event name machineName action).delivers = false →
      ∀ {es' : List Entry}, (s.event name machineName action).delivers = true → es' = [] := by
    intro idle _ delivers
    cases idle.symm.trans delivers
  cases action with
  | start tid =>
    obtain ⟨es', turned⟩ := turned_start ready machineName tid
    exact ⟨_, _, _, turned, rfl, quiet rfl⟩
  | setRegisters values =>
    exact ⟨_, _, _, (turned_setRegisters s name machineName values es).1, rfl, quiet rfl⟩
  | machine => exact ⟨_, _, _, turned_idle s name machineName es, rfl, quiet rfl⟩
  | channel => exact ⟨_, _, _, turned_idle s name machineName es, rfl, quiet rfl⟩
  | flush policy =>
    obtain ⟨es', told, turned, sent⟩ := turned_flush ready machineName policy
    refine ⟨_, _, _, turned, rfl, fun delivers => ?_⟩
    cases here : s.buffers.get? name with
    | none =>
      rw [Event.delivers, show (s.event name machineName (.flush policy)).buffer? = none from here]
        at delivers
      cases delivers
    | some b =>
      rw [Event.delivers_flush (e := s.event name machineName (.flush policy)) rfl here,
        Bool.not_eq_true', ← Bool.not_eq_true] at delivers
      exact sent b here delivers
  | finish =>
    obtain ⟨told, turned, _⟩ := turned_finish ready machineName
    exact ⟨_, _, _, turned, rfl, fun _ => rfl⟩
  | drop => exact ⟨_, _, _, turned_drop ready machineName, rfl, quiet rfl⟩
  | execute plans times =>
    obtain ⟨ps, rfl⟩ := orderly
    obtain ⟨es', added, told, turned, adds, _⟩ := turned_execute ready machineName ps times
    refine ⟨_, _, _, turned, ?_, quiet rfl⟩
    rcases adds with ⟨absent, rfl⟩ | ⟨b, done, failure, m, here, outcome, rfl⟩
    · rw [Event.Buffers, show (s.event name machineName _).buffer? = none from absent]
      rfl
    · rw [Event.Buffers, show (s.event name machineName _).buffer? = some b from here,
        show (s.event name machineName _).outcome = _ from outcome]
      exact ⟨ps, rfl, rfl⟩
  | buffer action =>
    cases action with
    | push e stride times =>
      obtain ⟨es', added, turned, adds⟩ := turned_push ready machineName orderly stride times
      refine ⟨_, _, _, turned, ?_, quiet rfl⟩
      cases here : s.buffers.get? name with
      | none =>
        rw [here] at adds
        rw [Event.Buffers, show (s.event name machineName _).buffer? = none from here]
        exact adds
      | some b =>
        rw [here] at adds
        rw [Event.Buffers, show (s.event name machineName _).buffer? = some b from here]
        exact adds
    | pending =>
      exact ⟨_, _, _, turned_look s name machineName es fun _ => rfl, rfl, quiet rfl⟩
    | occupied =>
      exact ⟨_, _, _, turned_look s name machineName es fun _ => rfl, rfl, quiet rfl⟩
    | header => exact ⟨_, _, _, turned_look s name machineName es fun _ => rfl, rfl, quiet rfl⟩
    | _ => exact orderly.elim
  | _ => exact orderly.elim

/-- A thread that has a buffer after an action and had none before was started by it. -/
theorem started?_of_new {action : Action} (orderly : action.Orderly) {b : Buffer}
    (absent : s.buffers.get? name = none)
    (here : (s.act name machineName action).2.buffers.get? name = some b) :
    (s.event name machineName action).started? = some b.tid := by
  have idle : ∀ act : Buffer → Session → Outcome × Session,
      (s.withBuffer name act).2.buffers.get? name = none := by
    intro act
    rw [withBuffer_of_vacant absent]
    exact absent
  cases action with
  | start tid =>
    rcases started_or_idle s name machineName tid with
      ⟨c, _, same, _, _, _, _, started⟩ | ⟨outcome, _, nothing⟩
    · rw [started] at here
      simp only at here
      rw [Named.get?_put, if_pos rfl] at here
      cases here
      simp only [event, Event.started?, started, same]
      rfl
    · rw [nothing, absent] at here
      cases here
  | setRegisters values =>
    obtain ⟨machines, acted⟩ := act_setRegisters s name machineName values
    rw [acted] at here
    cases absent.symm.trans here
  | machine => cases absent.symm.trans here
  | channel => cases absent.symm.trans here
  | flush policy => rw [act, idle] at here; cases here
  | finish => rw [act, idle] at here; cases here
  | drop => rw [act, idle] at here; cases here
  | execute plans times => rw [act, idle] at here; cases here
  | buffer action => rw [act, idle] at here; cases here
  | _ => exact orderly.elim

/-- The stream of a run of orderly actions is that of an orderly log, in which those threads
register that the run registered. -/
theorem Runs.sound {capacity : Nat} {events : List Event}
    (runs : Runs (fresh pid capacity) events s) (orderly : ∀ e ∈ events, e.action.Orderly) :
    ∃ log, Sound pid log s ∧ log.registrations = events.filterMap Event.registered? := by
  induction runs with
  | nil => exact ⟨[], sound_fresh pid capacity, rfl⟩
  | @act events s name machineName action _ ih =>
    obtain ⟨log, sound, registrations⟩ := ih fun e mem => orderly e (List.mem_append_left _ mem)
    obtain ⟨es, empty, holds⟩ := sound.held name
    obtain ⟨es', added, told, turned, _⟩ := turned_of_orderly (sound.ready name empty holds)
      machineName (orderly _ (List.mem_append_right _ List.mem_cons_self))
    refine ⟨log ++ told, sound.turned turned holds, ?_⟩
    rw [Log.registrations_append, registrations, List.filterMap_append, turned.turn.registrations]
    congr 1
  | beginExit _ ih =>
    obtain ⟨log, sound, registrations⟩ := ih orderly
    exact ⟨log, sound.beginExit, registrations⟩
  | settle _ ih =>
    obtain ⟨log, sound, registrations⟩ := ih orderly
    exact ⟨log, sound.settle, registrations⟩

end Session

end AccessTrace
