import Mathlib
import AccessTrace.Proofs.Accounting
import AccessTrace.Proofs.Faithful

/-!
# What a buffer sends

Over a recorder that takes everything, a buffer into which only events are put sends its
registration and payloads, or nothing. The payloads say what was put into it, in order, up to what
it still holds (`messages_of_account`).
-/

namespace AccessTrace

/-- These payloads of a thread say these entries. -/
def Conveys (tid : UInt64) (payloads : List (List UInt8)) (contents : List (List Entry)) : Prop :=
  List.Forall₂ (fun m es => Carries m (Entry.thread tid :: es)) payloads contents

/-- A payload is no registration. -/
theorem Conveys.unregistering {tid : UInt64} {payloads : List (List UInt8)}
    {contents : List (List Entry)} (conveys : Conveys tid payloads contents) (pid : UInt32)
    (events : ∀ es ∈ contents, ∀ e ∈ es, e.kind.isEvent = true) :
    Buffer.registration tid pid ∉ payloads := by
  induction conveys with
  | nil => exact List.not_mem_nil
  | @cons m es _ _ here _ ih =>
    intro mem
    rcases List.mem_cons.1 mem with rfl | later
    · have same := here.reads.symm.trans (carries_registration tid pid).reads
      have process : Entry.process pid ∈ es := by
        rw [List.map_cons, List.map_cons, List.cons.injEq] at same
        have mem : (Except.ok (Entry.process pid) : Except StreamError Entry) ∈ es.map .ok := by
          rw [same.2]
          exact List.mem_cons_self
        obtain ⟨e, mem, ok⟩ := List.mem_map.1 mem
        cases ok
        exact mem
      cases events es List.mem_cons_self _ process
    · exact ih (fun es mem => events es (List.mem_cons_of_mem _ mem)) later

/-- The messages of a thread are its registration, if that was due and there is a payload, and
payloads. -/
theorem Log.Sent.talk {pid : UInt32} {tid : UInt64} {registered : Bool}
    {messages : List (List UInt8)} {contents : List (List Entry)}
    (sent : Log.Sent pid messages (Log.talk tid registered contents))
    (first : registered = false → ∀ m ∈ messages.head?, m = Buffer.registration tid pid) :
    Conveys tid (Buffer.behind registered messages) contents ∧
      messages = (if registered || (Buffer.behind registered messages).isEmpty then []
        else [Buffer.registration tid pid]) ++ Buffer.behind registered messages := by
  have payloads : ∀ {messages contents}, Log.Sent pid messages (Log.talk tid true contents) →
      Conveys tid messages contents := by
    intro messages contents sent
    rw [Log.talk_registered] at sent
    exact (List.forall₂_map_right_iff
      (R := fun bytes (message : Message) => Carries bytes (message.entries pid))).1 sent
  cases registered with
  | true => exact ⟨payloads sent, rfl⟩
  | false =>
    cases contents with
    | nil =>
      cases sent
      exact ⟨.nil, rfl⟩
    | cons es rest =>
      rw [Log.talk] at sent
      obtain - | @⟨registration, _, behind, _, _, later⟩ := sent
      have conveys : Conveys tid behind (es :: rest) := payloads later
      refine ⟨conveys, ?_⟩
      rw [first rfl registration rfl]
      cases conveys
      rfl

namespace Session

variable {t t' : Tracer Recorder} {b : Buffer} {after : Option Buffer}
  {es es' added : List Entry} {told : Log}

/-- A turn with a buffer delivers payloads from it. What is not delivered is still held, unless the
buffer has gone away. -/
theorem Turn.tells (turn : Turn t (some b) es t' after es' added told) (holds : b.Holds es) :
    ∃ contents, told = Log.talk b.tid b.registered contents ∧
      (∀ sent ∈ contents, ∀ e ∈ sent, e.kind.isEvent = true) ∧
      ((∃ b', after = some b' ∧ b'.Holds es' ∧ b.SameLife b' ∧
          es ++ added = contents.flatten ++ es') ∨
        after = none ∧ added = [] ∧ (contents = [es] ∨ contents = [])) := by
  have silent : [] = Log.talk b.tid b.registered [] := by cases b.registered <;> rfl
  cases turn with
  | idle =>
    exact ⟨[], silent, by simp, .inl ⟨b, rfl, holds, .refl b, List.append_nil _⟩⟩
  | worked tracer advance =>
    exact ⟨_, rfl, advance.events, .inl ⟨_, rfl, advance.holds, advance.life, advance.conserved⟩⟩
  | finished grown sent =>
    refine ⟨[es], rfl, fun sent mem => ?_, .inr ⟨rfl, rfl, .inl rfl⟩⟩
    rw [List.mem_singleton.1 mem]
    exact holds.events
  | dropped => exact ⟨[], silent, by simp, .inr ⟨rfl, rfl, .inr rfl⟩⟩

end Session

theorem Action.Orderly.counted {action : Action} (orderly : action.Orderly) : action.Counted := by
  cases action with
  | buffer action => cases action <;> trivial
  | execute plans times => exact orderly
  | _ => trivial

/-- What an action does with a buffer that holds `es`: the payloads say `contents`, `added` is put
in, and `rest` is left. -/
structure Event.Told (pid : UInt32) (e : Event) (b : Buffer) (es : List Entry)
    (contents : List (List Entry)) (added rest : List Entry) : Prop where
  sent : e.sent = (if b.registered || e.payloads.isEmpty then []
    else [Buffer.registration b.tid pid]) ++ e.payloads
  conveys : Conveys b.tid e.payloads contents
  events : ∀ es ∈ contents, ∀ e ∈ es, e.kind.isEvent = true
  sizes : ∀ m ∈ e.payloads, e.action.policy.least b.capacity * Entry.byteSize ≤ m.length ∧
    m.length ≤ b.capacity * Entry.byteSize
  buffers : e.Buffers added
  conserved : es ++ added = contents.flatten ++ rest
  delivers : e.delivers = true → e.payloads ≠ [] ∧ rest = []
  left : (∃ b', e.after.buffers.get? e.name = some b' ∧ b'.Holds rest ∧ b.SameLife b' ∧
      b'.registered = (b.registered || !e.payloads.isEmpty)) ∨
    e.after.buffers.get? e.name = none ∧
      (e.action = .finish ∧ rest = [] ∨ e.action = .drop ∧ rest = es)

/-- A buffer that is dropped delivers nothing. -/
theorem Event.Within.payloads_of_drop {s₀ : Session} {e : Event} (within : e.Within s₀)
    (drop : e.action = .drop) {b : Buffer} (here : e.buffer? = some b)
    (aligned : b.ptr % Entry.byteSize = 0) : e.payloads = [] := by
  have dropped := Session.dealt_drop e.machine within.distinct here aligned
  rw [← drop, within.acted] at dropped
  rw [dropped.payloads_eq within.handled here]
  unfold Buffer.behind
  split <;> rfl

/-- Whatever is done with a buffer over a recorder that takes everything, the payloads and what is
left are what it held and what was put in. -/
theorem Event.Within.told {s₀ : Session} {e : Event} (within : e.Within s₀)
    (unlimited : s₀.tracer.channel.limit = none) (orderly : e.action.Orderly) {b : Buffer}
    (here : e.buffer? = some b) (isOpen : e.before.tracer.channel.closed = false)
    (active : b.phase = .active) (attached : b.attached = true) {es : List Entry}
    (holds : b.Holds es) :
    ∃ contents added rest, e.Told s₀.tracer.pid b es contents added rest := by
  obtain ⟨b', whole, cut, dealt, sends⟩ := within.dealt orderly.counted here isOpen holds.aligned
  have exchange := dealt.exchange
  obtain rfl := exchange.uncut (within.limit.trans unlimited)
  have sent : e.sent = whole := (dealt.sent within.handled).trans (List.append_nil _)
  have payloads : e.payloads = Buffer.behind b.registered e.sent := by
    rw [dealt.payloads_eq within.handled here, sent]
  -- What the thread is told to have sent is what was recorded.
  have ready : e.before.Ready e.name es := by
    have own : ∀ c, e.before.buffers.get? e.name = some c → c = b := fun c there => by
      cases here.symm.trans there
      rfl
    refine ⟨within.distinct, fun absent => ?_, fun c there => own c there ▸ active,
      fun c there => own c there ▸ attached, fun c there => own c there ▸ holds,
      fun _ _ => ⟨within.limit.trans unlimited, isOpen⟩⟩
    cases here.symm.trans absent
  obtain ⟨es', added, told, turned, buffers, delivered⟩ :=
    Session.turned_of_orderly ready e.machine orderly
  have acted := within.acted
  have after : (e.before.act e.name e.machine e.action).2 = e.after := congrArg Event.after acted
  rw [acted] at buffers delivered
  have turn := turned.turn
  rw [after, show e.before.buffers.get? e.name = some b from here] at turn
  obtain ⟨contents, rfl, events, left⟩ := turn.tells holds
  obtain ⟨_, _, _, new, messages, speaks⟩ := turn.sends
  rw [within.handled.grown.messages_eq] at messages
  obtain rfl : e.sent = new := List.append_cancel_left messages
  have first := exchange.first
  rw [Option.toList_none, List.append_nil, ← sent] at first
  obtain ⟨conveys, shape⟩ := speaks.talk first
  rw [← payloads] at conveys shape
  rw [within.pid] at shape
  have sizes : ∀ m ∈ e.payloads, e.action.policy.least b.capacity * Entry.byteSize ≤ m.length ∧
      m.length ≤ b.capacity * Entry.byteSize := by
    intro m mem
    rw [payloads, sent] at mem
    have payload := exchange.payloads m (by rw [Option.toList_none, List.append_nil]; exact mem)
    exact ⟨payload.least, payload.most⟩
  have something : e.delivers = true → e.payloads ≠ [] := by
    intro delivers
    rw [payloads, sent]
    exact (sends delivers).payload rfl
  rcases left with ⟨c, there, holds', life, conserved⟩ | ⟨gone, rfl, all⟩
  · rcases dealt.left with ⟨there', _⟩ | ⟨gone, _⟩
    · cases there.symm.trans there'
      refine ⟨contents, added, es', shape, conveys, events, sizes, buffers, conserved,
        fun delivers => ⟨something delivers, delivered delivers⟩,
        .inl ⟨b', there, holds', life, ?_⟩⟩
      have registered := exchange.registered
      rw [Option.toList_none, List.append_nil, ← sent, shape] at registered
      rw [registered]
      cases b.registered <;> cases e.payloads <;> rfl
    · cases there.symm.trans gone
  · -- The buffer is gone: what it held was delivered, or is left.
    have ended : e.ended? ≠ none := by
      rcases dealt.left with ⟨there, _⟩ | ⟨_, ended⟩
      · cases there.symm.trans gone
      · rw [ended]
        exact Option.some_ne_none _
    rcases Event.ended_by orderly.counted ended with finish | drop
    · have delivers : e.delivers = true := by
        rw [Event.delivers_finish finish here, active]
        rfl
      obtain rfl : contents = [es] := by
        rcases all with all | rfl
        · exact all
        · exact absurd (List.forall₂_nil_right_iff.1 conveys) (something delivers)
      refine ⟨[es], [], [], shape, conveys, events, sizes, buffers, ?_,
        fun _ => ⟨something delivers, rfl⟩, .inr ⟨gone, .inl ⟨finish, rfl⟩⟩⟩
      rw [List.flatten_singleton]
    · have nothing := within.payloads_of_drop drop here holds.aligned
      obtain rfl : contents = [] := by
        rw [nothing] at conveys
        exact List.forall₂_nil_left_iff.1 conveys
      refine ⟨[], [], es, shape, conveys, events, sizes, buffers, List.append_nil es,
        fun delivers => ?_, .inr ⟨gone, .inr ⟨drop, rfl⟩⟩⟩
      exact absurd nothing (something delivers)

namespace Account

/-- What a buffer has sent, `contents`, what each action has put into it, `added`, and what of that
was not sent, `rest`. -/
structure Tells (pid : UInt32) (capacity : Nat) (a : Account) (contents added : List (List Entry))
    (rest : List Entry) : Prop where
  /-- Nothing was sent, or the registration and then payloads. -/
  sent : a.sent = (if a.payloads.isEmpty then [] else [Buffer.registration a.tid pid]) ++ a.payloads
  once : Buffer.registration a.tid pid ∉ a.payloads
  conveys : Conveys a.tid a.payloads contents
  events : ∀ es ∈ contents, ∀ e ∈ es, e.kind.isEvent = true
  sizes : ∀ e ∈ a.events, ∀ m ∈ e.payloads,
    e.action.policy.least capacity * Entry.byteSize ≤ m.length ∧
      m.length ≤ capacity * Entry.byteSize
  /-- A delivery that is not put off, such as the last one, sends a payload and empties the
  buffer. -/
  delivers : ∀ e ∈ a.events, e.delivers = true → e.payloads ≠ [] ∧
    ∀ b, e.after.buffers.get? e.name = some b → b.Holds []
  finish : ∀ e ∈ a.events, e.action = .finish → e.delivers = true
  buffers : List.Forall₂ Event.Buffers a.events added
  conserved : added.flatten = contents.flatten ++ rest

/-- What is not sent is still in the buffer, or was when it was dropped. -/
def Leaves (a : Account) (rest : List Entry) : Option Buffer → Prop
  | some b => b.Holds rest
  | none => (∃ e ∈ a.events, e.action = .finish) ∧ rest = [] ∨
    ∃ e ∈ a.events, e.action = .drop ∧ ∃ b, e.buffer? = some b ∧ b.Holds rest

/-- A buffer that is in use. -/
structure Active (capacity : Nat) (a : Account) (b : Buffer) : Prop where
  phase : b.phase = .active
  capacity : b.capacity = capacity
  registered : b.registered = !a.payloads.isEmpty

/-- What is known of the account of a buffer into which only events are put while the recorder takes
everything. -/
def Speaks (pid : UInt32) (capacity : Nat) (a : Account) (o : Option Buffer) : Prop :=
  (∀ e ∈ a.events, e.action.Orderly) → (∀ e ∈ a.events, e.before.tracer.channel.closed = false) →
    ∃ contents added rest, a.Tells pid capacity contents added rest ∧ a.Leaves rest o ∧
      ∀ b, o = some b → a.Active capacity b

variable {pid : UInt32} {capacity : Nat} {a : Account} {e : Event} {b : Buffer}
  {contents added contents' : List (List Entry)} {es added' rest : List Entry}

theorem speaks_fresh (pid : UInt32) (name : String) (fresh : Tracer.Fresh b)
    (slots : b.capacity = capacity) :
    Speaks pid capacity { name := name, tid := b.tid } (some b) := by
  intro _ _
  refine ⟨[], [], [], ⟨rfl, List.not_mem_nil, .nil, by simp, by simp, by simp, by simp, .nil, rfl⟩,
    Buffer.holds_nil fresh.empty, fun c same => ?_⟩
  cases same
  exact ⟨fresh.active, slots, fresh.unregistered⟩

/-- What is done with the buffer goes into the account. -/
theorem Tells.note (tells : a.Tells pid capacity contents added es) (active : a.Active capacity b)
    (tid : b.tid = a.tid) (here : e.buffer? = some b)
    (told : e.Told pid b es contents' added' rest) :
    (a.note e).Tells pid capacity (contents ++ contents') (added ++ [added']) rest := by
  have conveys : Conveys a.tid (a.note e).payloads (contents ++ contents') := by
    rw [payloads_note]
    exact List.rel_append tells.conveys (tid ▸ told.conveys)
  have events : ∀ es ∈ contents ++ contents', ∀ e ∈ es, e.kind.isEvent = true := by
    intro es mem
    rcases List.mem_append.1 mem with early | late
    · exact tells.events es early
    · exact told.events es late
  refine ⟨?_, conveys.unregistering pid events, conveys, events, ?_, ?_, ?_,
    List.rel_append tells.buffers (.cons told.buffers .nil), ?_⟩
  · rw [sent_note, payloads_note, tells.sent, told.sent, active.registered, tid]
    show _ = (if _ then [] else [Buffer.registration a.tid pid]) ++ _
    cases a.payloads <;> cases e.payloads <;> simp
  · intro e' mem
    rcases List.mem_append.1 mem with early | late
    · exact tells.sizes e' early
    · rw [List.mem_singleton.1 late, ← active.capacity]
      exact told.sizes
  · intro e' mem
    rcases List.mem_append.1 mem with early | late
    · exact tells.delivers e' early
    · rw [List.mem_singleton.1 late]
      intro delivers
      obtain ⟨something, rfl⟩ := told.delivers delivers
      refine ⟨something, fun c there => ?_⟩
      rcases told.left with ⟨b', there', holds, _⟩ | ⟨gone, _⟩
      · cases there'.symm.trans there
        exact holds
      · cases gone.symm.trans there
  · intro e' mem finish
    rcases List.mem_append.1 mem with early | late
    · exact tells.finish e' early finish
    · rw [List.mem_singleton.1 late] at finish ⊢
      rw [Event.delivers_finish finish here, active.phase]
      rfl
  · rw [List.flatten_append, List.flatten_singleton, tells.conserved, List.append_assoc,
      told.conserved, List.flatten_append, List.append_assoc]

/-- The account goes on with what is left of the buffer. -/
theorem Speaks.note {s₀ : Session} (within : e.Within s₀)
    (unlimited : s₀.tracer.channel.limit = none)
    (speaks : a.Speaks s₀.tracer.pid capacity (some b)) (tid : b.tid = a.tid)
    (here : e.buffer? = some b) (attached : b.attached = true) :
    (a.note e).Speaks s₀.tracer.pid capacity (e.after.buffers.get? e.name) := by
  intro orderly isOpen
  have last : e ∈ (a.note e).events := List.mem_append_right _ List.mem_cons_self
  obtain ⟨contents, added, es, tells, holds, active⟩ := speaks
    (fun e mem => orderly e (List.mem_append_left _ mem))
    (fun e mem => isOpen e (List.mem_append_left _ mem))
  have now := active b rfl
  obtain ⟨contents', added', rest, told⟩ := within.told unlimited (orderly e last) here
    (isOpen e last) now.phase attached holds
  refine ⟨_, _, rest, tells.note now tid here told, ?_⟩
  rcases told.left with ⟨b', there, holds', life, registered⟩ | ⟨gone, why⟩
  · rw [there]
    refine ⟨holds', fun c same => ?_⟩
    cases same
    refine ⟨life.phase.trans now.phase, life.capacity.trans now.capacity, ?_⟩
    rw [registered, now.registered, payloads_note]
    cases a.payloads <;> simp
  · rw [gone]
    refine ⟨?_, fun c same => by cases same⟩
    rcases why with ⟨finish, rfl⟩ | ⟨drop, rfl⟩
    · exact .inl ⟨⟨e, last, finish⟩, rfl⟩
    · exact .inr ⟨e, last, drop, b, here, holds⟩

end Account

namespace Shutdown

variable {pid : UInt32} {capacity : Nat} {events : List Event} {x : Shutdown} {a : Account}

/-- Over a recorder that takes everything, a buffer into which only events are put sends nothing, or
its registration and payloads. The payloads are not too short for what they were sent for, and say
what was put into the buffer, in order, up to what it still holds. -/
theorem messages_of_account (runs : Runs { session := .begun none pid capacity } events x)
    (mem : a ∈ accounts events) (orderly : ∀ e ∈ a.events, e.action.Orderly)
    (isOpen : ∀ e ∈ a.events, e.before.tracer.channel.closed = false) :
    ∃ contents added rest, a.Tells pid capacity contents added rest ∧
      a.Leaves rest (a.buffer? x.session) := by
  have within := (runs.descends List.nodup_nil).2
  obtain ⟨_, speaks⟩ := runs.accounts_stand (P := fun a o => a.Speaks pid capacity o) rfl
    (fun e mem b started here fresh => Account.speaks_fresh pid e.name fresh
      ((within e mem).opened started here))
    (fun e mem a b _ _ here attached tid speaks =>
      speaks.note (within e mem) rfl tid here attached)
  obtain ⟨contents, added, rest, tells, leaves, _⟩ := speaks a mem orderly isOpen
  exact ⟨contents, added, rest, tells, leaves⟩

/-- A load with all its entries, behind which a check may deliver. -/
def checkedLoad : PlannedInstruction where
  scheme := { architecture := .x86, fetches := true }
  instruction := aliasedLoad
  check := true

/-- A thread puts off a delivery, is delivered by the checks of two plans and gives back its buffer
with nothing in it; another one takes turns with it and drops its own. -/
def deliveries : List (String × Action) :=
  [("t", .start 9), ("u", .start 4), ("t", .buffer (.push (.read 8 0) 8 1)),
    ("t", .flush .deferrable), ("u", .flush .forced), ("u", .buffer (.push (.write 8 0) 8 9)),
    ("t", .execute ([checkedLoad].map (·.plan)) 2), ("t", .finish), ("u", .drop)]

theorem messages_of_account_turns : ∃ events x,
    Runs { session := .begun none 3 7 } events x ∧
      (accounts events).map (fun a => (a.tid, a.payloads.map List.length)) =
        [(9, [64, 48, 16]), (4, [16])] ∧
      ∀ a ∈ accounts events, ∃ contents added rest, a.Tells 3 7 contents added rest ∧
        a.Leaves rest (a.buffer? x.session) := by
  have acted : Session.Runs (.begun none 3 7) _ _ := Session.Runs.nil.actAll deliveries
  obtain ⟨read, runs⟩ := runs_of_session acted List.nodup_nil
  have orderly : ∀ e ∈ [] ++ (Session.begun none 3 7).eventsAll deliveries, e.action.Orderly := by
    intro e mem
    have action : e.action ∈ deliveries.map Prod.snd := by
      rw [← Session.actions_eventsAll (.begun none 3 7)]
      exact List.mem_map_of_mem mem
    simp only [deliveries, List.map_cons, List.map_nil, List.mem_cons, List.not_mem_nil, or_false]
      at action
    rcases action with h | h | h | h | h | h | h | h | h <;> rw [h]
    all_goals first | trivial | exact ⟨[checkedLoad], rfl⟩
  have isOpen : ∀ e ∈ [] ++ (Session.begun none 3 7).eventsAll deliveries,
      e.before.tracer.channel.closed = false := by decide +kernel
  refine ⟨_, _, runs, by decide +kernel, fun a mem => ?_⟩
  have among := (sublist_of_accounts _ a mem).subset
  exact messages_of_account runs mem (fun e own => orderly e (among own))
    fun e own => isOpen e (among own)

end Shutdown

end AccessTrace
