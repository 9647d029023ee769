import Mathlib
import AccessTrace.Proofs.Dealings

/-!
# The accounts balance

Over any recorder, whatever it cuts, the roster is what the accounts of the buffers tell: the live
threads are those of the open accounts, and the total is what the closed ones have sent. What a
buffer counts as sent are the payloads that were taken whole, and if nothing is cut the stream is
nothing but these and the registrations (`accounts_balance`).
-/

namespace AccessTrace

namespace Event

/-- Whether no buffer goes away that was freed by hand, which would end no thread. -/
def unfreed (e : Event) : Bool :=
  match e.action with
  | .finish | .drop => e.buffer?.all (·.phase ≠ .freed)
  | _ => true

/-- The messages that were taken as they are. -/
def whole (e : Event) : List (List UInt8) := if e.outcome.cut then e.sent.dropLast else e.sent

/-- The payloads that were taken as they are: the registration is not counted. -/
def payloads (e : Event) : List (List UInt8) :=
  match e.buffer? with
  | some b => Buffer.behind b.registered e.whole
  | none => []

variable {e : Event}

/-- Of what is counted, these take away a buffer. -/
theorem ended_by (counted : e.action.Counted) (ended : e.ended? ≠ none) :
    e.action = .finish ∨ e.action = .drop := by
  unfold ended? at ended
  split at ended
  · exact .inl ‹_›
  · exact .inl ‹_›
  · rename_i free _
    rw [free] at counted
    exact counted.elim
  · exact .inr ‹_›
  · exact absurd rfl ended

theorem phase_of_unfreed (counted : e.action.Counted) (unfreed : e.unfreed = true)
    (ended : e.ended? ≠ none) {b : Buffer} (here : e.buffer? = some b) : b.phase ≠ .freed := by
  rw [Event.unfreed, here] at unfreed
  rcases ended_by counted ended with finish | drop
  · rw [finish] at unfreed
    exact of_decide_eq_true unfreed
  · rw [drop] at unfreed
    exact of_decide_eq_true unfreed

theorem fair_of_counted (counted : e.action.Counted)
    (attached : ∀ b, e.buffer? = some b → b.attached = true) : e.fair = true := by
  unfold fair
  split
  · rename_i close
    rw [close] at counted
    exact counted.elim
  · cases here : e.buffer? with
    | none => rfl
    | some b => exact attached b here
  · rfl

/-- Where all buffers are handed out, none that is not is used. -/
theorem vacant_of_attached (attached : ∀ b, e.buffer? = some b → b.attached = true)
    (unused : ∀ b, e.buffer? = some b → b.attached = false) : e.buffer? = none := by
  refine Option.eq_none_iff_forall_ne_some.2 fun b here => ?_
  cases (attached b here).symm.trans (unused b here)

namespace Dealt

variable {b b' : Buffer} {whole : List (List UInt8)} {cut : Option (List UInt8)}

/-- What was recorded: the whole messages, and what was taken of the one that was cut. -/
theorem sent (dealt : e.Dealt b b' whole cut) (handled : e.Handled) :
    e.sent = whole ++ (cut.map e.before.tracer.channel.accepted).toList := by
  have messages := handled.grown.messages_eq
  rw [dealt.exchange.messages] at messages
  exact (List.append_cancel_left messages).symm

theorem whole_eq (dealt : e.Dealt b b' whole cut) (handled : e.Handled) : e.whole = whole := by
  rw [Event.whole, dealt.cut, dealt.sent handled]
  cases cut with
  | none => exact List.append_nil _
  | some m => exact List.dropLast_concat

theorem payloads_eq (dealt : e.Dealt b b' whole cut) (handled : e.Handled)
    (here : e.buffer? = some b) : e.payloads = Buffer.behind b.registered whole := by
  rw [payloads, here]
  simp only [dealt.whole_eq handled]

/-- A buffer counts as registered once it has sent anything. -/
theorem registered_eq (dealt : e.Dealt b b' whole cut) (here : e.buffer? = some b) :
    b'.registered = (b.registered || e.registered?.isSome) := by
  have sends : e.before.tracer.channel.messages.size < e.after.tracer.channel.messages.size ↔
      (!(whole ++ cut.toList).isEmpty) = true := by
    rw [← Array.length_toList, ← Array.length_toList, dealt.exchange.messages]
    cases whole <;> cases cut <;> simp
  rw [dealt.exchange.registered, registered?, here]
  cases known : b.registered with
  | true => rfl
  | false =>
    by_cases sending : (!(whole ++ cut.toList).isEmpty) = true
    · simp only [if_pos (show b.registered = false ∧ _ from ⟨known, sends.2 sending⟩), sending]
      rfl
    · have idle : ¬ (b.registered = false ∧
          e.before.tracer.channel.messages.size < e.after.tracer.channel.messages.size) :=
        fun both => sending (sends.1 both.2)
      simp only [if_neg idle]
      rw [Bool.eq_false_iff.2 sending]
      rfl

end Dealt

end Event

namespace Account

/-- The messages that were recorded from this buffer. -/
def sent (a : Account) : List (List UInt8) := a.events.flatMap Event.sent

/-- The payloads of this buffer that were taken as they are. -/
def payloads (a : Account) : List (List UInt8) := a.events.flatMap Event.payloads

/-- Whether the buffer has registered its thread. -/
def registered (a : Account) : Bool := a.events.any (·.registered?.isSome)

/-- The entries that the buffer counts as sent, or counted when it went away. -/
def refs (s : Session) (a : Account) : Nat :=
  match a.final with
  | some n => n
  | none => (a.buffer? s).elim 0 (·.refs)

theorem payloads_note (a : Account) (e : Event) :
    (a.note e).payloads = a.payloads ++ e.payloads := by
  rw [payloads, note, List.flatMap_append, List.flatMap_singleton]
  rfl

theorem sent_note (a : Account) (e : Event) : (a.note e).sent = a.sent ++ e.sent := by
  rw [sent, note, List.flatMap_append, List.flatMap_singleton]
  rfl

/-- The counter of a buffer is that of its account. -/
structure Counts (limit : Option Nat) (a : Account) (refs : Nat) (registered : Bool) : Prop where
  refs : Entry.byteSize * refs = a.payloads.flatten.length
  sent : limit = none → a.sent.flatten.length =
    a.payloads.flatten.length + if registered then 2 * Entry.byteSize else 0
  registered : a.registered = registered

/-- What is known of the account of a buffer, in use or gone. -/
def Stands (limit : Option Nat) (a : Account) : Option Buffer → Prop
  | some b => b.ptr % Entry.byteSize = 0 ∧ a.Counts limit b.refs b.registered
  | none => ∃ n registered, a.final = some n ∧ a.Counts limit n registered

variable {limit : Option Nat} {a : Account} {e : Event} {b b' : Buffer}
  {whole : List (List UInt8)} {cut : Option (List UInt8)}

/-- A buffer that is new has sent nothing. -/
theorem stands_fresh (limit : Option Nat) (name : String) (fresh : Tracer.Fresh b) :
    Stands limit { name, tid := b.tid } (some b) := by
  refine ⟨?_, ?_, fun _ => ?_, ?_⟩
  · rw [fresh.empty]
    exact Nat.mod_self _
  · rw [fresh.unsent]
    rfl
  · rw [fresh.unregistered]
    rfl
  · rw [fresh.unregistered]
    rfl

/-- An exchange is counted in the account. -/
theorem Counts.dealt (counts : a.Counts limit b.refs b.registered)
    (dealt : e.Dealt b b' whole cut) (handled : e.Handled) (here : e.buffer? = some b)
    (same : e.before.tracer.channel.limit = limit) :
    (a.note e).Counts limit b'.refs b'.registered := by
  have payloads : (a.note e).payloads = a.payloads ++ Buffer.behind b.registered whole := by
    rw [payloads_note, dealt.payloads_eq handled here]
  have sent : (a.note e).sent =
      a.sent ++ (whole ++ (cut.map e.before.tracer.channel.accepted).toList) := by
    rw [sent_note, dealt.sent handled]
  refine ⟨?_, fun unlimited => ?_, ?_⟩
  · rw [payloads, List.flatten_append, List.length_append, dealt.exchange.refs, counts.refs]
  · -- Without a limit nothing is cut, and what is sent is the registration and the payloads.
    obtain rfl := dealt.exchange.uncut (same.trans unlimited)
    have before := counts.sent unlimited
    have registered := dealt.exchange.registered
    have first := dealt.exchange.first
    rw [Option.toList_none, List.append_nil] at registered first
    rw [sent, payloads, registered]
    simp only [List.flatten_append, List.length_append, before, Option.map_none, Option.toList_none,
      List.flatten_nil, List.length_nil, Nat.add_zero]
    cases known : b.registered with
    | true =>
      simp only [Buffer.behind, Bool.true_or, if_true]
      omega
    | false =>
      cases whole with
      | nil => rfl
      | cons head tail =>
        have length : head.length = 2 * Entry.byteSize := by
          rw [first known head rfl, Buffer.length_registration]
        simp only [Buffer.behind, List.flatten_cons, List.length_append, length, List.isEmpty_cons,
          Bool.not_false, Bool.or_true, if_true, List.tail_cons, Bool.false_eq_true, if_false]
        omega
  · rw [dealt.registered_eq here, ← counts.registered, Account.registered, note,
      List.any_append, List.any_cons, List.any_nil, Bool.or_false]
    rfl

end Account

/-- What is recorded from buffers without a limit. -/
theorem sum_sent {limit : Option Nat} {s : Session} {as : List Account} (unlimited : limit = none)
    (counts : ∀ a ∈ as, a.Counts limit (a.refs s) a.registered) :
    (as.map (·.sent.flatten.length)).sum = Entry.byteSize * (as.map (·.refs s)).sum +
      2 * Entry.byteSize * as.countP (·.registered) := by
  induction as with
  | nil => rfl
  | cons a as ih =>
    have own := counts a List.mem_cons_self
    have rest := ih fun c mem => counts c (List.mem_cons_of_mem _ mem)
    have sent := own.sent unlimited
    rw [← own.refs] at sent
    rw [List.map_cons, List.map_cons, List.sum_cons, List.sum_cons, List.countP_cons, rest, sent,
      Nat.mul_add, Nat.mul_add]
    split
    · omega
    · omega

/-- The roster is what the accounts tell. -/
structure Ledger (r : Roster) (as : List Account) : Prop where
  live : ∀ tid, tid ∈ r.live ↔ ∃ a ∈ as, a.final = none ∧ a.tid = tid
  total : r.total = (as.map fun a => a.final.getD 0).sum
  apart : as.Pairwise fun a c => a.final = none → c.final = none → a.tid ≠ c.tid

section

variable {e : Event} {as as' : List Account} {r : Roster}

/-- A thread starts: its account is open. -/
theorem Ledger.enter (ledger : Ledger r as) {tid : UInt64} (new : tid ∉ r.live) (name : String) :
    Ledger (r.enter tid) (as ++ [{ name := name, tid := tid }]) where
  live := by
    intro other
    rw [Roster.enter, List.mem_cons, ledger.live]
    constructor
    · rintro (rfl | ⟨a, mem, open', same⟩)
      · exact ⟨_, List.mem_append_right _ List.mem_cons_self, rfl, rfl⟩
      · exact ⟨a, List.mem_append_left _ mem, open', same⟩
    · rintro ⟨a, mem, open', same⟩
      rcases List.mem_append.1 mem with old | last
      · exact .inr ⟨a, old, open', same⟩
      · rw [List.mem_singleton.1 last] at same
        exact .inl same.symm
  total := by
    rw [List.map_append, List.sum_append, ← ledger.total]
    rfl
  apart := by
    refine Apart.snoc ledger.apart fun a mem open' same => ?_
    exact new ((ledger.live tid).2 ⟨a, mem, open', same⟩)

/-- An account goes on as it is. -/
theorem Ledger.note {front back : List Account} {a : Account}
    (ledger : Ledger r (front ++ a :: back)) (unended : a.final = none) (ended : e.ended? = none) :
    Ledger r (front ++ a.note e :: back) := by
  have tid : (a.note e).tid = a.tid := rfl
  have final : (a.note e).final = a.final := ended.trans unended.symm
  have apart : Apart Account.tid (front ++ a :: back) := ledger.apart
  refine ⟨fun other => ?_, ?_, apart.note unended tid⟩
  · rw [ledger.live]
    simp only [List.mem_append, List.mem_cons, or_and_right, exists_or, exists_eq_left, final, tid]
  · rw [ledger.total]
    simp only [List.map_append, List.map_cons, final]

/-- A thread ends: its account is closed with what its buffer had sent. -/
theorem Ledger.leave {front back : List Account} {a : Account} {r' : Roster} {n : Nat}
    (ledger : Ledger r (front ++ a :: back)) (unended : a.final = none) (ended : e.ended? = some n)
    (total : r'.total = r.total + n) (live : r'.live = r.live.filter (· ≠ a.tid)) :
    Ledger r' (front ++ a.note e :: back) := by
  have final : (a.note e).final = some n := ended
  have apart : Apart Account.tid (front ++ a :: back) := ledger.apart
  have others := apart.others unended
  refine ⟨fun tid => ?_, ?_, apart.note unended rfl⟩
  · rw [live, List.mem_filter, ledger.live]
    simp only [List.mem_append, List.mem_cons, or_and_right, exists_or, exists_eq_left, final,
      unended, true_and, reduceCtorEq, false_and, false_or, ne_eq, decide_not, Bool.not_eq_true',
      decide_eq_false_iff_not]
    constructor
    · rintro (⟨inFront, _⟩ | ⟨same, other⟩ | ⟨inBack, _⟩)
      · exact .inl inFront
      · exact absurd same.symm other
      · exact .inr inBack
    · rintro (⟨c, mem, open', same⟩ | ⟨c, mem, open', same⟩)
      · refine .inl ⟨⟨c, mem, open', same⟩, fun equal => ?_⟩
        exact others c (.inl mem) open' (same.trans equal)
      · refine .inr (.inr ⟨⟨c, mem, open', same⟩, fun equal => ?_⟩)
        exact others c (.inr mem) open' (same.trans equal)
  · rw [total, ledger.total]
    simp only [List.map_append, List.map_cons, List.sum_append, List.sum_cons, final, unended,
      Option.getD_none, Option.getD_some]
    omega

/-- What an action does to the roster is booked. -/
theorem Ledger.booked (ledger : Ledger e.before.tracer.roster as) (booked : Booked e as as')
    (handled : e.Handled) (counted : e.action.Counted) (unfreed : e.unfreed = true)
    (attached : ∀ b, e.buffer? = some b → b.attached = true) :
    Ledger e.after.tracer.roster as' := by
  have custody := handled.custody
  cases booked with
  | idle started vacant =>
    rw [custody.vacant_roster (Event.vacant_of_attached attached vacant) started]
    exact ledger
  | opened started here fresh =>
    obtain ⟨_, new, enters, _⟩ := custody.opened started
    rw [enters]
    exact ledger.enter new e.name
  | @noted front back a b started name unended here attached tid =>
    have kept : e.action ≠ .free := by
      intro free
      rw [free] at counted
      exact counted
    rcases custody.leaves here attached
        (fun ended => Event.phase_of_unfreed counted unfreed ended here) kept with
      ⟨ended, same⟩ | ⟨n, ended, total, live⟩
    · rw [same]
      exact ledger.note unended ended
    · rw [tid] at live
      exact ledger.leave unended ended total live

end

/-- What an action sends is sent from the buffer in whose account it is noted. -/
theorem Booked.sent {e : Event} {as as' : List Account} (booked : Booked e as as')
    (handled : e.Handled) (attached : ∀ b, e.buffer? = some b → b.attached = true)
    (vacant : e.buffer? = none → e.sent = []) :
    (as'.map (·.sent.flatten.length)).sum =
      (as.map (·.sent.flatten.length)).sum + e.sent.flatten.length := by
  cases booked with
  | idle started unused =>
    rw [vacant (Event.vacant_of_attached attached unused)]
    rfl
  | opened started =>
    rw [vacant (handled.custody.opened started).1, List.map_append, List.sum_append]
    rfl
  | noted =>
    simp only [List.map_append, List.map_cons, List.sum_append, List.sum_cons,
      Account.sent_note, List.flatten_append, List.length_append]
    omega

/-- An account is opened for each thread that starts. -/
theorem tids_accounts (events : List Event) :
    (accounts events).map (·.tid) = events.filterMap Event.started? := by
  induction events using List.reverseRecOn with
  | nil => rfl
  | append_singleton events e ih =>
    have recorded : ∀ as : List Account, (as.map (·.record e)).map (·.tid) = as.map (·.tid) := by
      intro as
      rw [List.map_map]
      refine List.map_congr_left fun a _ => ?_
      rw [Function.comp_apply, Account.record]
      split <;> rfl
    rw [accounts_snoc, book, List.filterMap_append, ← ih]
    cases started : e.started? with
    | none =>
      simp only [recorded, List.filterMap_cons_none started, List.filterMap_nil, List.append_nil]
    | some tid =>
      simp only [List.map_append, List.filterMap_cons_some started, List.filterMap_nil,
        List.map_cons, List.map_nil]

namespace Shutdown

variable {limit : Option Nat} {pid : UInt32} {capacity : Nat} {events : List Event} {x : Shutdown}

/-- Where nobody makes a buffer of his own, all are handed out. -/
theorem Runs.handed_out (runs : Runs { session := .begun limit pid capacity } events x)
    (unmade : ∀ e ∈ events, ∀ tid capacity, e.action ≠ .allocate tid capacity) :
    (∀ name b, x.session.buffers.get? name = some b → b.attached = true) ∧
      ∀ e ∈ events, ∀ b, e.buffer? = some b → b.attached = true := by
  induction runs with
  | nil =>
    refine ⟨fun name b here => ?_, fun e mem => absurd mem List.not_mem_nil⟩
    cases here
  | @act events x name machineName action runs ih =>
    obtain ⟨held, earlier⟩ := ih fun e mem => unmade e (List.mem_append_left _ mem)
    have distinct := (runs.descends List.nodup_nil).1.distinct
    have handled := Session.handled_act distinct name machineName action
    have last := unmade _ (List.mem_append_right _ List.mem_cons_self)
    refine ⟨fun other b here => ?_, fun e mem => ?_⟩
    · by_cases same : other = name
      · subst same
        exact handled.custody.handed_out (held other) last here
      · exact held other b ((handled.elsewhere.buffers other same).symm.trans here)
    · rcases List.mem_append.1 mem with old | new
      · exact earlier e old
      · rw [List.mem_singleton.1 new]
        exact held name
  | begin _ ih => exact ih unmade
  | wait _ _ _ _ _ ih => exact ih unmade
  | close _ _ _ _ _ ih => exact ih unmade

theorem Runs.attached (runs : Runs { session := .begun limit pid capacity } events x)
    (counted : ∀ e ∈ events, e.action.Counted) :
    (∀ name b, x.session.buffers.get? name = some b → b.attached = true) ∧
      ∀ e ∈ events, ∀ b, e.buffer? = some b → b.attached = true := by
  refine runs.handed_out fun e mem tid capacity allocate => ?_
  have counted := counted e mem
  rw [allocate] at counted
  exact counted

/-- Where only what is counted is done, the channel is open as long as there is a buffer. -/
theorem Runs.isOpen (runs : Runs { session := .begun limit pid capacity } events x)
    (counted : ∀ e ∈ events, e.action.Counted) {e : Event} (mem : e ∈ events) {b : Buffer}
    (here : e.buffer? = some b) : e.before.tracer.channel.closed = false := by
  obtain ⟨_, attached⟩ := runs.attached counted
  have fair : ∀ e ∈ events, e.fair = true := fun e mem =>
    Event.fair_of_counted (counted e mem) (attached e mem)
  obtain ⟨_, isOpen⟩ := runs.handled (guarded_begun limit pid capacity) fair e mem
  exact isOpen b here (attached e mem b here)

/-- Each action on a buffer that was handed out is an exchange then, and delivers what cannot be put
off. -/
theorem Runs.dealt (runs : Runs { session := .begun limit pid capacity } events x)
    (counted : ∀ e ∈ events, e.action.Counted) {e : Event} (mem : e ∈ events) {b : Buffer}
    (here : e.buffer? = some b) (aligned : b.ptr % Entry.byteSize = 0) :
    ∃ b' whole cut, e.Dealt b b' whole cut ∧
      (e.delivers = true → Buffer.Delivering b.registered whole cut) := by
  have within := (runs.descends List.nodup_nil).2 e mem
  exact within.dealt (counted e mem) here (runs.isOpen counted mem here) aligned

/-- Every buffer counts what its account holds. -/
theorem Runs.stands (runs : Runs { session := .begun limit pid capacity } events x)
    (counted : ∀ e ∈ events, e.action.Counted) : Accounted x.session (accounts events) ∧
      ∀ a ∈ accounts events, a.Stands limit (a.buffer? x.session) := by
  refine runs.accounts_stand rfl (fun e mem b _ _ fresh => Account.stands_fresh limit e.name fresh)
    fun e mem a b name unended here attached tid stands => ?_
  obtain ⟨aligned, counts⟩ := stands
  have within := (runs.descends List.nodup_nil).2 e mem
  obtain ⟨b', whole, cut, dealt, _⟩ := runs.dealt counted mem here aligned
  have counts' := counts.dealt dealt within.handled here within.limit
  rcases dealt.left with ⟨there, _⟩ | ⟨gone, ended⟩
  · rw [there]
    exact ⟨dealt.exchange.aligned, counts'⟩
  · rw [gone]
    exact ⟨_, _, ended, counts'⟩

/-- What a buffer counts as sent is what was taken of its payloads, also after it is gone. -/
theorem Runs.counts (runs : Runs { session := .begun limit pid capacity } events x)
    (counted : ∀ e ∈ events, e.action.Counted) :
    ∀ a ∈ accounts events, a.Counts limit (a.refs x.session) a.registered := by
  obtain ⟨accounted, stands⟩ := runs.stands counted
  intro a mem
  have stand := stands a mem
  rcases final : a.final with _ | n
  · obtain ⟨b, here, _⟩ := accounted.held a mem final
    have buffer : a.buffer? x.session = some b := by
      rw [Account.buffer?, if_pos final, here]
    rw [buffer] at stand
    have refs : a.refs x.session = b.refs := by
      rw [Account.refs, final, buffer]
      rfl
    rw [refs, stand.2.registered]
    exact stand.2
  · have buffer : a.buffer? x.session = none := by
      rw [Account.buffer?, final]
      rfl
    rw [buffer] at stand
    obtain ⟨m, registered, same, counts⟩ := stand
    have refs : a.refs x.session = m := by
      rw [Account.refs, same]
    rw [refs, counts.registered]
    exact counts

/-- In the buffers there are whole slots only. -/
theorem Runs.aligned (runs : Runs { session := .begun limit pid capacity } events x)
    (counted : ∀ e ∈ events, e.action.Counted) {e : Event} (mem : e ∈ events) {b : Buffer}
    (here : e.buffer? = some b) : b.ptr % Entry.byteSize = 0 := by
  induction runs with
  | nil => cases mem
  | @act events x name machineName action runs ih =>
    have earlier : ∀ e ∈ events, e.action.Counted := fun e mem =>
      counted e (List.mem_append_left _ mem)
    rcases List.mem_append.1 mem with old | new
    · exact ih earlier old
    · rw [List.mem_singleton.1 new] at here
      obtain ⟨accounted, stands⟩ := runs.stands earlier
      obtain ⟨a, known, unended, same⟩ :=
        accounted.known name b here ((runs.attached earlier).1 name b here)
      have stand := stands a known
      rw [Account.buffer?, if_pos unended, same,
        show x.session.buffers.get? name = some b from here] at stand
      exact stand.1
  | begin _ ih => exact ih counted mem
  | wait _ _ _ _ _ ih => exact ih counted mem
  | close _ _ _ _ _ ih => exact ih counted mem

/-- The roster is what the accounts tell, and what was recorded is what is in them. -/
theorem Runs.ledger (runs : Runs { session := .begun limit pid capacity } events x)
    (counted : ∀ e ∈ events, e.action.Counted) (unfreed : ∀ e ∈ events, e.unfreed = true) :
    Ledger x.session.tracer.roster (accounts events) ∧
      ((accounts events).map (·.sent.flatten.length)).sum =
        (events.flatMap Event.sent).flatten.length := by
  induction runs with
  | nil => exact ⟨⟨fun tid => by simp [Session.begun, accounts], rfl, .nil⟩, rfl⟩
  | @act events x name machineName action runs ih =>
    have earlier : ∀ e ∈ events, e.action.Counted := fun e mem =>
      counted e (List.mem_append_left _ mem)
    have new := List.mem_append_right events
      (List.mem_singleton_self (x.session.event name machineName action))
    obtain ⟨ledger, sent⟩ := ih earlier fun e mem => unfreed e (List.mem_append_left _ mem)
    have accounted := (runs.stands earlier).1
    have handled := Session.handled_act accounted.distinct name machineName action
    have held : ∀ b, x.session.buffers.get? name = some b → b.attached = true :=
      (runs.attached earlier).1 name
    have vacant : x.session.buffers.get? name = none →
        (x.session.event name machineName action).sent = [] :=
      fun absent => (Event.sent_of_vacant rfl (counted _ new) absent).1
    have booked := Accounted.booked accounted handled
    rw [accounts_snoc]
    refine ⟨ledger.booked booked handled (counted _ new) (unfreed _ new) held, ?_⟩
    rw [booked.sent handled held vacant, sent, List.flatMap_append, List.flatMap_singleton,
      List.flatten_append, List.length_append]
  | begin _ ih =>
    obtain ⟨ledger, sent⟩ := ih counted unfreed
    exact ⟨⟨ledger.live, ledger.total, ledger.apart⟩, sent⟩
  | wait _ _ _ _ _ ih => exact ih counted unfreed
  | close _ _ _ _ _ ih => exact ih counted unfreed

/-- All that was recorded is in the accounts. -/
theorem Runs.recorded (runs : Runs { session := .begun limit pid capacity } events x)
    (counted : ∀ e ∈ events, e.action.Counted) (unfreed : ∀ e ∈ events, e.unfreed = true) :
    x.session.tracer.channel.stream.length =
      ((accounts events).map (·.sent.flatten.length)).sum := by
  rw [Recorder.stream, (runs.descends List.nodup_nil).1.messages, (runs.ledger counted unfreed).2]
  rfl

/-- What the accounts say of a session that has come out of these actions. -/
structure Balanced (limit : Option Nat) (events : List Event) (x : Shutdown) : Prop where
  /-- Each thread that was started has an account. -/
  opened : (accounts events).map (·.tid) = events.filterMap Event.started?
  /-- The open accounts are those of the buffers in use. -/
  held : ∀ a ∈ accounts events, a.final = none → ∃ b, x.session.buffers.get? a.name = some b ∧
    b.tid = a.tid ∧ b.registered = a.registered
  known : ∀ name b, x.session.buffers.get? name = some b → ∃ a ∈ accounts events,
    a.final = none ∧ a.name = name ∧ a.tid = b.tid
  /-- Their threads are the live ones. -/
  live : ∀ tid, tid ∈ x.session.tracer.roster.live ↔
    ∃ a ∈ accounts events, a.final = none ∧ a.tid = tid
  /-- The total is what the buffers that went away had sent, each taken once. -/
  total : x.session.tracer.roster.total = ((accounts events).map fun a => a.final.getD 0).sum
  /-- Each buffer counts the payloads that were taken whole. -/
  counted : ∀ a ∈ accounts events,
    Entry.byteSize * a.refs x.session = a.payloads.flatten.length
  /-- An exit that is over returned what all buffers have sent. -/
  exits : ∀ i n : Nat, x.session.exits[i]? = some (some n) →
    (∀ a ∈ accounts events, a.final ≠ none) ∧
      n = ((accounts events).map (·.refs x.session)).sum
  /-- Without a limit the stream is nothing but payloads and registrations. -/
  stream : limit = none → x.session.tracer.channel.stream.length =
    Entry.byteSize * ((accounts events).map (·.refs x.session)).sum +
      2 * Entry.byteSize * (accounts events).countP (·.registered)

/-- Whatever threads do in whatever order, and whatever the recorder cuts: what the roster tells of
live threads and of the total, what the buffers count as sent, and what was recorded agree. -/
theorem accounts_balance (runs : Runs { session := .begun limit pid capacity } events x)
    (counted : ∀ e ∈ events, e.action.Counted) (unfreed : ∀ e ∈ events, e.unfreed = true) :
    Balanced limit events x := by
  obtain ⟨accounted, stands⟩ := runs.stands counted
  obtain ⟨ledger, _⟩ := runs.ledger counted unfreed
  obtain ⟨attached, attached'⟩ := runs.attached counted
  have guarded := runs.guarded (guarded_begun limit pid capacity) fun e mem =>
    Event.fair_of_counted (counted e mem) (attached' e mem)
  have counts := runs.counts counted
  refine ⟨tids_accounts events, fun a mem unended => ?_, fun name b here => ?_, ledger.live,
    ledger.total, fun a mem => (counts a mem).refs, fun i n returned => ?_, fun unlimited => ?_⟩
  · obtain ⟨b, here, _, tid⟩ := accounted.held a mem unended
    have stand := stands a mem
    rw [Account.buffer?, if_pos unended, here] at stand
    exact ⟨b, here, tid, stand.2.registered.symm⟩
  · obtain ⟨a, mem, unended, same⟩ := accounted.known name b here (attached name b here)
    obtain ⟨c, there, _, tid⟩ := accounted.held a mem unended
    rw [same] at there
    cases here.symm.trans there
    exact ⟨a, mem, unended, same, tid.symm⟩
  · -- No thread is live any more, so that every account is closed.
    have read := guarded.returned i n returned
    have ended : ∀ a ∈ accounts events, a.final ≠ none := by
      intro a mem unended
      have live := (ledger.live a.tid).2 ⟨a, mem, unended, rfl⟩
      rw [guarded.idle i n read] at live
      cases live
    refine ⟨ended, ?_⟩
    rw [← guarded.total i n read, ledger.total]
    refine congrArg List.sum (List.map_congr_left fun a mem => ?_)
    rcases final : a.final with _ | m
    · exact absurd final (ended a mem)
    · rw [Account.refs, final]
      rfl
  · rw [runs.recorded counted unfreed]
    exact sum_sent unlimited counts

/-- One thread delivers once and then has its messages cut, also when it gives back its buffer;
another gives back a buffer that it has moved on by hand, and the third drops its own. -/
theorem accounts_balance_cut : ∃ events x,
    Runs { session := .begun (some 40) 1 4 } events x ∧ Balanced (some 40) events x ∧
      x.session.exits = #[some 2] ∧
      (accounts events).map (fun a => (a.tid, a.final, a.payloads.flatten.length)) =
        [(1, some 2, 32), (2, some 0, 0), (3, some 0, 0)] := by
  have begun : Runs { session := .begun (some 40) 1 4 } [] _ := .nil
  have started := Runs.act "c" "m" (.start 3)
    (.act "b" "m" (.start 2) (.act "a" "m" (.start 1) begun))
  have delivered := Runs.act "a" "m" (.flush .forced)
    (.act "a" "m" (.buffer (.push (.read 8 0) 8 1)) started)
  have cut := Runs.act "a" "m" .finish
    (.act "a" "m" (.flush .forced) (.act "a" "m" (.buffer (.push (.read 8 0) 8 3)) delivered))
  have exiting := Runs.begin cut
  have ended := Runs.act "c" "m" .drop
    (.act "b" "m" .finish (.act "b" "m" (.buffer (.transition .draining)) exiting))
  have runs := Runs.close 0 2 (by decide +kernel) (by decide +kernel)
    (.wait 0 (by decide +kernel) (by decide +kernel) (by decide +kernel) ended)
  have balanced := accounts_balance runs (by simp [Session.event, Action.Counted])
    (by decide +kernel)
  exact ⟨_, _, runs, balanced, by decide +kernel, by decide +kernel⟩

end Shutdown

end AccessTrace
