import Mathlib
import AccessTrace.Proofs.Grammar

/-!
# Interleavings

A stream is cut into messages in front of every thread header (`messagesOf`). Every message starts
with the header of its own thread and says nothing of any other (`Settled.hear`, `Settled.heard`),
so that what a history knows of a thread is what the messages of this thread say one after the other
(`AllHear`). The messages of different threads can therefore be put in any order
(`history_reordered`).
-/

namespace AccessTrace

/-! ### Messages -/

section Cutting

variable {α : Type} (header? : α → Option UInt64)

/-- The thread that a message comes from. -/
def sender (message : List α) : Option UInt64 := message.head?.bind header?

/-- Records cut in front of every header. -/
def messagesOf (records : List α) : List (List α) :=
  records.splitBy fun _ next => (header? next).isNone

/-- A message starts with a header and has no other. -/
structure Headed (message : List α) : Prop where
  opens : (sender header? message).isSome = true
  rest : ∀ record ∈ message.tail, header? record = none

/-- The same messages in another order, in which those of each thread keep theirs. -/
structure Reordered (messages order : List (List α)) : Prop where
  perm : order.Perm messages
  kept : ∀ tid, order.filter (sender header? · = some tid) =
    messages.filter (sender header? · = some tid)

variable {header?} {records message : List α}

theorem rest_of_isChain (chain : message.IsChain fun _ next => (header? next).isNone = true) :
    ∀ record ∈ message.tail, header? record = none := by
  induction message with
  | nil =>
    intro record mem
    cases mem
  | cons first rest ih =>
    cases rest with
    | nil =>
      intro record mem
      cases mem
    | cons second rest =>
      obtain ⟨none, chain⟩ := List.isChain_cons_cons.1 chain
      intro record mem
      rcases List.mem_cons.1 mem with rfl | later
      · exact Option.isNone_iff_eq_none.1 none
      · exact ih chain record later

/-- Records that start with a header are cut into messages. -/
theorem headed_of_mem (starts : records ≠ [] → (sender header? records).isSome = true) :
    ∀ message ∈ messagesOf header? records, Headed header? message := by
  -- All messages but the first stand behind a cut.
  have opened : ∀ message ∈ messagesOf header? records,
      (sender header? message).isSome = true := by
    apply (List.isChain_getLast_head_splitBy _ records).induction
    · rintro _ message ⟨-, some, cut⟩ -
      rw [sender, List.head?_eq_some_head some, Option.bind_some]
      rw [← Option.not_isNone, cut]
      rfl
    · intro cuts
      have some : records ≠ [] := List.splitBy_ne_nil.1 cuts
      have first := List.head_head_splitBy (fun _ next => (header? next).isNone) some
      have starts := starts some
      rw [sender, List.head?_eq_some_head some, Option.bind_some, ← first] at starts
      rw [sender, List.head?_eq_some_head, Option.bind_some]
      exact starts
  intro message mem
  exact ⟨opened message mem, rest_of_isChain (List.isChain_of_mem_splitBy mem)⟩

/-- A message is its header and records without. -/
theorem Headed.cases (headed : Headed header? message) :
    ∃ tid first rest, message = first :: rest ∧ header? first = some tid ∧
      sender header? message = some tid ∧ ∀ record ∈ rest, header? record = none := by
  obtain ⟨tid, opens⟩ := Option.isSome_iff_exists.1 headed.opens
  cases message with
  | nil => cases opens
  | cons first rest => exact ⟨tid, first, rest, rfl, opens, opens, headed.rest⟩

end Cutting

/-- The thread that an entry is a header of. -/
def Entry.header? (e : Entry) : Option UInt64 := if e.kind = .thread then some e.addr else none

theorem Entry.header?_eq_some_iff {e : Entry} {tid : UInt64} :
    e.header? = some tid ↔ e.kind = .thread ∧ e.addr = tid := by
  simp [header?]

theorem Entry.header?_eq_none_iff {e : Entry} : e.header? = none ↔ e.kind ≠ .thread := by
  simp [header?]

/-! ### What the messages of a thread say -/

namespace Threads

/-- Of threads in order nothing matters but what is known of each. -/
theorem Ascending.ext {ts us : Threads} (ascending : ts.Ascending) (ascending' : us.Ascending)
    (same : ∀ t, get? ts t = get? us t) : ts = us := by
  -- The first threads are the same, since neither is known behind the other.
  have absent : ∀ {t u : UInt64} {y : ThreadHistory} {us : Threads},
      Ascending ((u, y) :: us) → t < u → get? ((u, y) :: us) t = none := by
    intro t u y us ascending before
    apply get?_eq_none
    intro p mem
    rcases List.mem_cons.1 mem with rfl | later
    · exact (UInt64.ne_of_lt before).symm
    · exact (UInt64.ne_of_lt (UInt64.lt_trans before
        ((List.pairwise_cons.1 ascending).1 p later))).symm
  induction ts generalizing us with
  | nil =>
    cases us with
    | nil => rfl
    | cons head us =>
      obtain ⟨u, y⟩ := head
      have first := same u
      rw [get?_cons, if_pos rfl] at first
      cases first
  | cons head ts ih =>
    obtain ⟨t, x⟩ := head
    have here := same t
    rw [get?_cons, if_pos rfl] at here
    cases us with
    | nil => cases here
    | cons head us =>
      obtain ⟨u, y⟩ := head
      have there := same u
      rw [get?_cons u u, if_pos rfl] at there
      obtain rfl : t = u := by
        rcases Nat.lt_trichotomy t.toNat u.toNat with before | same | behind
        · rw [absent ascending' (UInt64.lt_iff_toNat_lt.2 before)] at here
          cases here
        · exact UInt64.toNat_inj.1 same
        · rw [absent ascending (UInt64.lt_iff_toNat_lt.2 behind)] at there
          cases there
      rw [get?_cons, if_pos rfl, Option.some.injEq] at here
      subst here
      have all := List.pairwise_cons.1 ascending
      have all' := List.pairwise_cons.1 ascending'
      congr 1
      refine ih all.2 all'.2 fun s => ?_
      by_cases first : s = t
      · rw [first, get?_eq_none fun p mem => (UInt64.ne_of_lt (all.1 p mem)).symm,
          get?_eq_none fun p mem => (UInt64.ne_of_lt (all'.1 p mem)).symm]
      · have later := same s
        rw [get?_cons, get?_cons, if_neg first, if_neg first] at later
        exact later

theorem mem_of_get? {ts : Threads} {tid : UInt64} {x : ThreadHistory}
    (here : get? ts tid = some x) : (tid, x) ∈ ts := by
  induction ts with
  | nil => cases here
  | cons head rest ih =>
    obtain ⟨u, y⟩ := head
    rw [get?_cons] at here
    split at here
    · rename_i same
      rw [same, Option.some.inj here]
      exact List.mem_cons_self
    · exact List.mem_cons_of_mem _ (ih here)

end Threads

namespace History

/-- What is known of a thread after one more of its messages. -/
inductive Hears : Option ThreadHistory → List Entry → ThreadHistory → Prop
  | registration {header process : Entry} {es : List Entry} : process.kind = .process →
    (∀ e ∈ es, e.kind.isEvent = true) →
    Hears none (header :: process :: es)
      { pid := some process.addr.toUInt32, events := es.toArray }
  | payload {x : ThreadHistory} {header : Entry} {es : List Entry} :
    (∀ e ∈ es, e.kind.isEvent = true) →
    Hears (some x) (header :: es)
      { x with messages := x.messages + 1, events := x.events ++ es.toArray }

/-- What is known of a thread after more of its messages. -/
inductive HearsAll : Option ThreadHistory → List (List Entry) → Option ThreadHistory → Prop
  | nil {known : Option ThreadHistory} : HearsAll known [] known
  | cons {known known' : Option ThreadHistory} {x : ThreadHistory} {message : List Entry}
    {messages : List (List Entry)} : Hears known message x → HearsAll (some x) messages known' →
    HearsAll known (message :: messages) known'

theorem HearsAll.eq_of_nil {known known' : Option ThreadHistory}
    (hears : HearsAll known [] known') : known' = known := by
  cases hears
  rfl

/-- Where a history stands between messages: every thread that is known has registered. -/
structure Settled (h : History) (last : Option UInt64)
    (view : UInt64 → Option ThreadHistory) : Prop extends Stands h last view where
  known : Registered last view
  registered : ∀ t x, view t = some x → ∃ pid, x.pid = some pid

variable {h h' : History} {current : Option UInt64} {tid : UInt64} {pid : UInt32}
  {view view' : UInt64 → Option ThreadHistory} {x : ThreadHistory} {e : Entry} {es : List Entry}
  {message : List Entry} {messages : List (List Entry)}

theorem settled_start : Settled {} none fun _ => none where
  ascending := List.Pairwise.nil
  current := rfl
  threads := fun _ => rfl
  known := fun t mem => by cases mem
  registered := fun t x here => by cases here

theorem Settled.learned (settled : Settled h current view) {h' : History}
    (stands : Stands h' (some tid) (History.learned view tid x)) (registered : x.pid = some pid) :
    Settled h' (some tid) (History.learned view tid x) where
  toStands := stands
  known := registered_learned view tid registered
  registered := by
    intro t y here
    rw [History.learned] at here
    split at here
    · exact ⟨pid, Option.some.inj here ▸ registered⟩
    · exact settled.registered t y here

/-- Of a header nothing counts but the thread. -/
theorem push_header (header : e.header? = some tid) : h.push e = h.push (Entry.thread tid) := by
  obtain ⟨kind, size, opcode, addr⟩ := e
  obtain ⟨rfl, rfl⟩ := Entry.header?_eq_some_iff.1 header
  rfl

/-- Of a process nothing counts but its number. -/
theorem push_process (process : e.kind = .process) :
    h.push e = h.push (Entry.process e.addr.toUInt32) := by
  obtain ⟨kind, size, opcode, addr⟩ := e
  obtain rfl : kind = .process := process
  simp only [push, fault?, apply, Entry.process, UInt32.toUInt32_toUInt64]
  rfl

theorem readAll_of_fault {error : StreamError} (fault : h.fault? e = some error) :
    h.readAll (e :: es) = .error error := by
  rw [readAll, push, fault]

theorem entriesSeen_push (h : History) (e : Entry) :
    (h.push e).2.entriesSeen = h.entriesSeen + 1 := by
  have modified : ∀ f, (h.modifyCurrent f).entriesSeen = h.entriesSeen := by
    intro f
    rw [modifyCurrent]
    split <;> rfl
  have applied : (h.apply e).entriesSeen = h.entriesSeen := by
    rw [apply]
    split
    · rfl
    all_goals exact modified _
  rw [push]
  split
  · exact congrArg (· + 1) applied
  · rfl

theorem entriesSeen_readAll (read : h.readAll es = .ok h') :
    h'.entriesSeen = h.entriesSeen + es.length := by
  induction es generalizing h with
  | nil =>
    cases read
    rfl
  | cons e es ih =>
    have seen := entriesSeen_push h e
    rw [readAll] at read
    split at read
    · rename_i next pushed
      rw [pushed] at seen
      rw [ih read, seen, List.length_cons]
      omega
    · cases read

/-- Behind a registration a message has nothing but events. -/
theorem Stands.events_of_readAll (stands : Stands h (some tid) view) (here : view tid = some x)
    (registered : x.pid = some pid) (plain : ∀ e ∈ es, e.header? = none)
    (read : h.readAll es = .ok h') : ∀ e ∈ es, e.kind.isEvent = true := by
  induction es generalizing h view x with
  | nil =>
    intro e mem
    cases mem
  | cons e es ih =>
    have other : e.kind ≠ .thread :=
      Entry.header?_eq_none_iff.1 (plain e List.mem_cons_self)
    have single : e.kind ≠ .process := by
      intro process
      have pid? : h.pid? tid = some pid := by
        rw [History.pid?, stands.threads, here, Option.bind_eq_bind, Option.bind_some, registered]
      have fault := Grammar.fault?_registered (e := e) stands.current pid?
      rw [if_pos process] at fault
      rw [readAll_of_fault fault] at read
      cases read
    have event : e.kind.isEvent = true := by
      cases kind : e.kind
      all_goals first | rfl | exact absurd kind other | exact absurd kind single
    obtain ⟨h₁, pushed, stands₁⟩ := stands.push_event here registered event
    rw [readAll, pushed] at read
    intro e' mem
    rcases List.mem_cons.1 mem with rfl | later
    · exact event
    · exact ih stands₁ (learned_same _ _ _) registered
        (fun e mem => plain e (List.mem_cons_of_mem _ mem)) read e' later

/-- A message that says something of its thread is read, and says nothing of any other. -/
theorem Settled.hear (settled : Settled h current view)
    (opens : sender Entry.header? message = some tid) (hears : Hears (view tid) message x) :
    ∃ h', h.readAll message = .ok h' ∧ Settled h' (some tid) (History.learned view tid x) := by
  cases known : view tid with
  | none =>
    rw [known] at hears
    cases hears with
    | @registration header process es names events =>
      obtain ⟨h₁, read, stands₁⟩ :=
        settled.toStands.registration settled.known known process.addr.toUInt32
      obtain ⟨h₂, read₂, stands₂⟩ :=
        stands₁.readAll_events (learned_same _ _ _) rfl events
      simp only [learned_learned, Array.empty_append] at stands₂
      refine ⟨h₂, ?_, settled.learned stands₂ rfl⟩
      have same : h.readAll (header :: process :: es) =
          h.readAll ((Message.registration tid).entries process.addr.toUInt32 ++ es) := by
        rw [readAll, push_header opens]
        simp only [Message.entries, List.cons_append, List.nil_append, readAll,
          push_process names]
      rw [same, readAll_append, read]
      exact read₂
  | some y =>
    obtain ⟨pid, registered⟩ := settled.registered tid y known
    rw [known] at hears
    cases hears with
    | @payload _ header es events =>
      obtain ⟨h', read, stands'⟩ :=
        settled.toStands.payload settled.known known registered events
      refine ⟨h', ?_, settled.learned stands' registered⟩
      rw [readAll, push_header opens]
      exact read

/-- A message that is read says something of its thread, unless it is a lone first header. -/
theorem Settled.heard (settled : Settled h current view) (headed : Headed Entry.header? message)
    (opens : sender Entry.header? message = some tid) (read : h.readAll message = .ok h') :
    (∃ x, Hears (view tid) message x) ∨ Stands h' (some tid) (History.learned view tid {}) := by
  obtain ⟨t, header, body, rfl, names, opens', plain⟩ := headed.cases
  obtain rfl : t = tid := Option.some.inj (opens'.symm.trans opens)
  obtain ⟨h₁, pushed, stands₁⟩ := settled.toStands.push_thread settled.known t
  rw [readAll, push_header names, pushed] at read
  replace read : h₁.readAll body = .ok h' := read
  cases known : view t with
  | none =>
    rw [known] at stands₁
    cases body with
    | nil =>
      cases read
      exact .inr stands₁
    | cons process es =>
      left
      have process? : process.kind = .process := by
        by_contra other
        have none : h₁.pid? t = none := by
          rw [History.pid?, stands₁.threads, learned_same]
          rfl
        have fault := Grammar.fault?_unregistered (e := process) stands₁.current none
        rw [if_neg other] at fault
        rw [readAll_of_fault fault] at read
        cases read
      obtain ⟨h₂, pushed₂, stands₂⟩ :=
        stands₁.push_process (learned_same _ _ _) rfl process.addr.toUInt32
      rw [readAll, push_process process?, pushed₂] at read
      exact ⟨_, .registration process? (stands₂.events_of_readAll (learned_same _ _ _) rfl
        (fun e mem => plain e (List.mem_cons_of_mem _ mem)) read)⟩
  | some y =>
    obtain ⟨pid, registered⟩ := settled.registered t y known
    rw [known] at stands₁
    exact .inl ⟨_, .payload (stands₁.events_of_readAll (learned_same _ _ _)
      (show (Threads.entered (some y)).pid = some pid from registered) plain read)⟩

/-- Behind a lone first header no message is read, and where the stream ends the thread has not
registered. -/
theorem Stands.unregistered (stands : Stands h (some tid) view) (here : view tid = some {})
    (headed : ∀ m ∈ messages, Headed Entry.header? m) (read : h.readAll messages.flatten = .ok h') :
    h'.thread? tid = some {} := by
  cases messages with
  | nil =>
    cases read
    rw [stands.threads, here]
  | cons message messages =>
    obtain ⟨t, header, body, rfl, names, -, -⟩ := (headed _ List.mem_cons_self).cases
    have none : h.pid? tid = none := by
      rw [History.pid?, stands.threads, here]
      rfl
    have fault := Grammar.fault?_unregistered (e := header) stands.current none
    have other : header.kind ≠ .process := by
      rw [(Entry.header?_eq_some_iff.1 names).1]
      decide
    rw [if_neg other] at fault
    rw [List.flatten_cons, List.cons_append, readAll_of_fault fault] at read
    cases read

/-- What is known of each thread in the end is what its own messages say, one after the other. -/
def AllHear (view : UInt64 → Option ThreadHistory) (messages : List (List Entry))
    (view' : UInt64 → Option ThreadHistory) : Prop :=
  ∀ tid, HearsAll (view tid) (messages.filter (sender Entry.header? · = some tid)) (view' tid)

/-- A message is heard by the thread that it comes from and by no other. -/
theorem allHear_cons_iff (opens : sender Entry.header? message = some tid) :
    AllHear view (message :: messages) view' ↔
      ∃ x, Hears (view tid) message x ∧ AllHear (learned view tid x) messages view' := by
  have own : (message :: messages).filter (sender Entry.header? · = some tid) =
      message :: messages.filter (sender Entry.header? · = some tid) := by
    rw [List.filter_cons, opens, if_pos (decide_eq_true rfl)]
  have other : ∀ t ≠ tid, (message :: messages).filter (sender Entry.header? · = some t) =
      messages.filter (sender Entry.header? · = some t) := by
    intro t differs
    rw [List.filter_cons, opens, if_neg (by simpa using Ne.symm differs)]
  constructor
  · intro all
    have first := all tid
    rw [own] at first
    cases first with
    | @cons _ _ x _ _ hears rest =>
      refine ⟨x, hears, fun t => ?_⟩
      rw [learned]
      by_cases same : t = tid
      · rw [if_pos same, same]
        exact rest
      · rw [if_neg same, ← other t same]
        exact all t
  · rintro ⟨x, hears, rest⟩ t
    have later := rest t
    rw [learned] at later
    by_cases same : t = tid
    · rw [if_pos same] at later
      rw [same] at later ⊢
      rw [own]
      exact .cons hears later
    · rw [if_neg same] at later
      rw [other t same]
      exact later

/-- What is known of the threads in the end is what their own messages say. -/
theorem Settled.heardAll (settled : Settled h current view)
    (headed : ∀ m ∈ messages, Headed Entry.header? m) (read : h.readAll messages.flatten = .ok h')
    (registered : ∀ t x, h'.thread? t = some x → x.pid ≠ none) :
    h'.threads.Ascending ∧ AllHear view messages h'.thread? := by
  induction messages generalizing h current view with
  | nil =>
    cases read
    refine ⟨settled.ascending, fun tid => ?_⟩
    rw [settled.threads]
    exact .nil
  | cons message messages ih =>
    obtain ⟨first, others⟩ := List.forall_mem_cons.1 headed
    obtain ⟨t, opens⟩ := Option.isSome_iff_exists.1 first.opens
    rw [List.flatten_cons, readAll_append] at read
    split at read
    · rename_i h₁ read₁
      rcases settled.heard first opens read₁ with ⟨x, hears⟩ | lone
      · obtain ⟨h₂, read₂, settled₂⟩ := settled.hear opens hears
        obtain rfl : h₁ = h₂ := Except.ok.inj (read₁.symm.trans read₂)
        obtain ⟨ascending, rest⟩ := ih settled₂ others read
        exact ⟨ascending, (allHear_cons_iff opens).2 ⟨x, hears, rest⟩⟩
      · exact absurd rfl (registered t {} (lone.unregistered (learned_same _ _ _) others read))
    · cases read

/-- Messages that say something of their threads are read in any order. -/
theorem Settled.hearAll (settled : Settled h current view)
    (headed : ∀ m ∈ messages, Headed Entry.header? m) (hears : AllHear view messages view') :
    ∃ h', h.readAll messages.flatten = .ok h' ∧ h'.threads.Ascending ∧
      ∀ tid, h'.thread? tid = view' tid := by
  induction messages generalizing h current view with
  | nil =>
    refine ⟨h, rfl, settled.ascending, fun tid => ?_⟩
    rw [settled.threads, (hears tid).eq_of_nil]
  | cons message messages ih =>
    obtain ⟨first, others⟩ := List.forall_mem_cons.1 headed
    obtain ⟨t, opens⟩ := Option.isSome_iff_exists.1 first.opens
    obtain ⟨x, hearsOne, rest⟩ := (allHear_cons_iff opens).1 hears
    obtain ⟨h₁, read₁, settled₁⟩ := settled.hear opens hearsOne
    obtain ⟨h', read, ends⟩ := ih settled₁ others rest
    refine ⟨h', ?_, ends⟩
    rw [List.flatten_cons, readAll_append, read₁]
    exact read

/-- The threads of a history are those of every order of its messages that keeps those of each
thread in order. -/
theorem readAll_reordered {order : List (List Entry)}
    (headed : ∀ m ∈ messages, Headed Entry.header? m)
    (read : readAll {} messages.flatten = .ok h)
    (registered : ∀ t x, h.thread? t = some x → x.pid ≠ none)
    (reordered : Reordered Entry.header? messages order) :
    ∃ h', readAll {} order.flatten = .ok h' ∧ h'.threads = h.threads ∧
      h'.entriesSeen = h.entriesSeen := by
  obtain ⟨ascending, hears⟩ := settled_start.heardAll headed read registered
  have headed' : ∀ m ∈ order, Headed Entry.header? m :=
    fun m mem => headed m (reordered.perm.mem_iff.1 mem)
  obtain ⟨h', read', ascending', threads⟩ := settled_start.hearAll headed' fun tid => by
    rw [reordered.kept]
    exact hears tid
  have count : order.flatten.length = messages.flatten.length :=
    reordered.perm.flatten.length_eq
  refine ⟨h', read', ascending'.ext ascending threads, ?_⟩
  rw [entriesSeen_readAll read', entriesSeen_readAll read, count]

end History

/-! ### Streams -/

/-- The records of a stream. -/
def slices (bytes : List UInt8) : List (List UInt8) :=
  groups Entry.byteSize (bytes.length / Entry.byteSize) bytes

/-- What a record says, if anything. -/
def said? (record : List UInt8) : Option Entry := (Entry.ofBytes record).toOption

/-- The thread that a record is a header of. -/
def headerOf? (record : List UInt8) : Option UInt64 := (said? record).bind Entry.header?

variable {bytes : List UInt8} {rs : List (List UInt8)} {message : List (List UInt8)}

theorem said?_of_reads {record : List UInt8} {e : Entry} (reads : Entry.ofBytes record = .ok e) :
    said? record = some e := by
  rw [said?, reads]
  rfl

/-- Whole records that each say something. -/
def Sound (rs : List (List UInt8)) : Prop :=
  ∀ record ∈ rs, record.length = Entry.byteSize ∧ ∃ e, Entry.ofBytes record = .ok e

theorem Sound.carries (sound : Sound rs) : Carries rs.flatten (rs.filterMap said?) := by
  induction rs with
  | nil => exact .nil
  | cons record rs ih =>
    obtain ⟨⟨length, e, reads⟩, others⟩ := List.forall_mem_cons.1 sound
    rw [List.flatten_cons, List.filterMap_cons_some (said?_of_reads reads)]
    exact (Carries.of_record length reads).append (ih others)

theorem Sound.sender (sound : Sound message) :
    sender Entry.header? (message.filterMap said?) = sender headerOf? message := by
  cases message with
  | nil => rfl
  | cons record rs =>
    obtain ⟨-, e, reads⟩ := sound record List.mem_cons_self
    have said := said?_of_reads reads
    rw [List.filterMap_cons_some said]
    simp only [AccessTrace.sender, List.head?_cons, Option.bind_some, headerOf?, said]

theorem Sound.headed (sound : Sound message) (headed : Headed headerOf? message) :
    Headed Entry.header? (message.filterMap said?) where
  opens := by
    rw [sound.sender]
    exact headed.opens
  rest := by
    obtain ⟨tid, record, rs, rfl, -, -, plain⟩ := headed.cases
    obtain ⟨-, e, reads⟩ := sound record List.mem_cons_self
    rw [List.filterMap_cons_some (said?_of_reads reads), List.tail_cons]
    intro e' mem
    obtain ⟨record', later, said'⟩ := List.mem_filterMap.1 mem
    have none := plain record' later
    rw [headerOf?, said'] at none
    exact none

theorem length_of_mem_groups {width n : Nat} (room : n * width ≤ bytes.length) :
    ∀ record ∈ groups width n bytes, record.length = width := by
  induction n generalizing bytes with
  | zero =>
    intro record mem
    cases mem
  | succ n ih =>
    rw [Nat.succ_mul] at room
    intro record mem
    rcases List.mem_cons.1 mem with rfl | later
    · rw [List.length_take]
      omega
    · exact ih (by rw [List.length_drop]; omega) record later

namespace History

variable {h h' : History}

theorem readAll_of_accept {records : List (Except StreamError Entry)}
    (accepted : records.foldlM accept h = .ok h') :
    ∃ es, records = es.map .ok ∧ h.readAll es = .ok h' := by
  induction records generalizing h with
  | nil =>
    cases accepted
    exact ⟨[], rfl, rfl⟩
  | cons record records ih =>
    rw [List.foldlM_cons] at accepted
    cases record with
    | error error => cases accepted
    | ok e =>
      rw [accept] at accepted
      rcases pushed : h.push e with ⟨answer, next⟩
      rw [pushed] at accepted
      cases answer with
      | error error => cases accepted
      | ok _ =>
        obtain ⟨es, rfl, read⟩ := ih accepted
        refine ⟨e :: es, rfl, ?_⟩
        rw [readAll, pushed]
        exact read

/-- A stream that is accepted carries entries, and its history is theirs. -/
theorem carries_of_accepted (accepted : ofBytes bytes = .ok h) :
    ∃ es, Carries bytes es ∧ readAll {} es = .ok h := by
  rw [ofBytes_eq_scanned] at accepted
  split at accepted
  · cases accepted
  · rename_i h' read
    split at accepted
    · rename_i whole
      cases accepted
      rw [scanned, ← records_eq] at read
      obtain ⟨es, reads, all⟩ := readAll_of_accept read
      exact ⟨es, ⟨whole, reads⟩, all⟩
    · cases accepted

/-- The first entry that is read is a header. -/
theorem header_of_readAll {e : Entry} {es : List Entry} (read : readAll {} (e :: es) = .ok h) :
    e.header?.isSome = true := by
  by_contra none
  have other : e.kind ≠ .thread :=
    Entry.header?_eq_none_iff.1 (Option.not_isSome_iff_eq_none.1 none)
  have fault : ({} : History).fault? e = some (.orphan 0) := if_neg other
  rw [readAll_of_fault fault] at read
  cases read

end History

theorem Carries.sound {es : List Entry} (carries : Carries bytes es) :
    Sound (slices bytes) ∧ (slices bytes).filterMap said? = es := by
  have reads : (slices bytes).map Entry.ofBytes = es.map .ok := carries.reads
  constructor
  · intro record mem
    have said := List.mem_map_of_mem (f := Entry.ofBytes) mem
    rw [reads] at said
    obtain ⟨e, -, same⟩ := List.mem_map.1 said
    exact ⟨length_of_mem_groups (Nat.div_mul_le_self _ _) record mem, e, same.symm⟩
  · have said : (slices bytes).filterMap said? =
        ((slices bytes).map Entry.ofBytes).filterMap Except.toOption := by
      rw [List.filterMap_map]
      rfl
    rw [said, reads, List.filterMap_map]
    exact List.filterMap_some

/-- Reordered messages say reordered messages. -/
theorem Reordered.said {messages order : List (List (List UInt8))}
    (reordered : Reordered headerOf? messages order) (sounds : ∀ m ∈ messages, Sound m) :
    Reordered Entry.header? (messages.map (List.filterMap said?))
      (order.map (List.filterMap said?)) where
  perm := reordered.perm.map _
  kept := by
    intro tid
    have filtered : ∀ {ms : List (List (List UInt8))}, (∀ m ∈ ms, Sound m) →
        (ms.map (List.filterMap said?)).filter (sender Entry.header? · = some tid) =
          (ms.filter (sender headerOf? · = some tid)).map (List.filterMap said?) := by
      intro ms all
      rw [List.filter_map]
      congr 1
      apply List.filter_congr
      intro m mem
      rw [Function.comp_apply, (all m mem).sender]
    have sounds' : ∀ m ∈ order, Sound m := fun m mem => sounds m (reordered.perm.mem_iff.1 mem)
    rw [filtered sounds', filtered sounds, reordered.kept]

/-- The messages of a stream that is accepted, in any order that keeps those of each thread in
order, are a stream that is accepted, provided that all threads have registered. Its threads are the
same, and so is the number of its entries. -/
theorem history_reordered {h : History} {order : List (List (List UInt8))}
    (accepted : History.ofBytes bytes = .ok h) (registered : ∀ p ∈ h.threads, p.2.pid ≠ none)
    (reordered : Reordered headerOf? (messagesOf headerOf? (slices bytes)) order) :
    ∃ h', History.ofBytes order.flatten.flatten = .ok h' ∧ h'.threads = h.threads ∧
      h'.entriesSeen = h.entriesSeen := by
  obtain ⟨es, carries, read⟩ := History.carries_of_accepted accepted
  obtain ⟨sound, said⟩ := carries.sound
  have starts : slices bytes ≠ [] → (sender headerOf? (slices bytes)).isSome = true := by
    intro some
    rw [← sound.sender, said]
    cases es with
    | nil =>
      have none := carries.eq_nil
      subst none
      exact absurd rfl some
    | cons e es => exact History.header_of_readAll read
  have cut : (messagesOf headerOf? (slices bytes)).flatten = slices bytes :=
    List.flatten_splitBy _ _
  have sounds : ∀ m ∈ messagesOf headerOf? (slices bytes), Sound m := by
    intro m mem record inside
    apply sound
    rw [← cut]
    exact List.mem_flatten.2 ⟨m, mem, inside⟩
  have headed : ∀ m ∈ (messagesOf headerOf? (slices bytes)).map (List.filterMap said?),
      Headed Entry.header? m := by
    intro m mem
    obtain ⟨raw, here, rfl⟩ := List.mem_map.1 mem
    exact (sounds raw here).headed (headed_of_mem starts raw here)
  rw [← said, ← cut, List.filterMap_flatten] at read
  obtain ⟨h', read', same⟩ := History.readAll_reordered headed read
    (fun t x here => registered (t, x) (Threads.mem_of_get? here)) (reordered.said sounds)
  have carries' : Carries order.flatten.flatten (order.flatten.filterMap said?) := by
    apply Sound.carries
    intro record mem
    obtain ⟨m, here, inside⟩ := List.mem_flatten.1 mem
    exact sounds m (reordered.perm.mem_iff.1 here) record inside
  refine ⟨h', ?_, same⟩
  rw [History.ofBytes_eq carries', List.filterMap_flatten]
  exact read'

/-- The messages of two threads that take turns, with both messages of the first one in front. -/
def inTurn : List (List (List UInt8)) :=
  [[.thread 1, .process 9, .read 8 0x10], [.thread 1, .write 4 0x20],
    [.thread 2, .process 9, .fetch 0x0f0b 2 0x400000]].map (List.map Entry.toBytes)

theorem history_reordered_inTurn :
    ∃ h, History.ofBytes Grammar.turns = .ok h ∧
      ∃ h', History.ofBytes inTurn.flatten.flatten = .ok h' ∧ h'.threads = h.threads ∧
        h'.entriesSeen = h.entriesSeen := by
  have accepted : History.ofBytes Grammar.turns = .ok
      { threads := [(1, { pid := some 9, messages := 1, events := #[.read 8 0x10, .write 4 0x20] }),
          (2, { pid := some 9, messages := 0, events := #[.fetch 0x0f0b 2 0x400000] })],
        current := some 1, entriesSeen := 8 } := by
    rw [History.ofBytes_eq_scanned]
    decide +kernel
  have perm : inTurn.Perm (messagesOf headerOf? (slices Grammar.turns)) := by decide +kernel
  have senders : ∀ m ∈ inTurn, sender headerOf? m = some 1 ∨ sender headerOf? m = some 2 := by
    decide +kernel
  refine ⟨_, accepted, history_reordered accepted (by decide) ⟨perm, fun tid => ?_⟩⟩
  by_cases first : tid = 1
  · subst first
    decide +kernel
  · by_cases second : tid = 2
    · subst second
      decide +kernel
    · have silent : ∀ m ∈ inTurn, ¬decide (sender headerOf? m = some tid) = true := by
        intro m mem
        rcases senders m mem with one | two
        · rw [one, decide_eq_true_eq, Option.some.injEq]
          exact Ne.symm first
        · rw [two, decide_eq_true_eq, Option.some.injEq]
          exact Ne.symm second
      rw [List.filter_eq_nil_iff.2 silent, List.filter_eq_nil_iff.2 fun m mem =>
        silent m (perm.mem_iff.2 mem)]

end AccessTrace
