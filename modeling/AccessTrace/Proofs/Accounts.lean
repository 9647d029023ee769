import Mathlib
import AccessTrace.Proofs.Registration
import AccessTrace.Proofs.Shutdown

/-!
# An account for each buffer

Every buffer that was handed out has an account: the actions on it, from the one that follows its
start to the one that takes it away (`accounts`). The accounts that are open are those of the
buffers in use (`Accounted`), and what holds of a new buffer and is kept by all that is done to one
is known from each account (`accounts_stand`).
-/

namespace AccessTrace

/-- The messages that were recorded in an action. -/
def Event.sent (e : Event) : List (List UInt8) :=
  e.before.tracer.channel.since e.after.tracer.channel

/-- What has become of a session that began as `s₀`, in a run of these actions. -/
structure Session.Descends (s₀ s : Session) (events : List Event) : Prop where
  distinct : s.buffers.Distinct
  pid : s.tracer.pid = s₀.tracer.pid
  capacity : s.tracer.capacity = s₀.tracer.capacity
  limit : s.tracer.channel.limit = s₀.tracer.channel.limit
  messages : s.tracer.channel.messages.toList =
    s₀.tracer.channel.messages.toList ++ events.flatMap Event.sent

/-- An action of a run from `s₀`. -/
structure Event.Within (s₀ : Session) (e : Event) : Prop where
  acted : e.before.event e.name e.machine e.action = e
  distinct : e.before.buffers.Distinct
  handled : e.Handled
  pid : e.before.tracer.pid = s₀.tracer.pid
  capacity : e.before.tracer.capacity = s₀.tracer.capacity
  limit : e.before.tracer.channel.limit = s₀.tracer.channel.limit

/-- A buffer that was handed out: the actions on it, and how many entries it had sent when it went
away, if it did. -/
structure Account where
  name : String
  tid : UInt64
  events : List Event := []
  final : Option Nat := none

namespace Account

/-- Notes an action that takes away a buffer, or leaves it. -/
def note (a : Account) (e : Event) : Account :=
  { a with events := a.events ++ [e], final := e.ended? }

/-- The buffer, as long as it is in use. -/
def buffer? (s : Session) (a : Account) : Option Buffer :=
  if a.final = none then s.buffers.get? a.name else none

/-- Notes an action if it is one on this buffer. -/
def record (e : Event) (a : Account) : Account :=
  if a.final = none ∧ a.name = e.name then a.note e else a

end Account

/-- Notes an action in the accounts; a start opens one. -/
def book (as : List Account) (e : Event) : List Account :=
  match e.started? with
  | some tid => as ++ [{ name := e.name, tid }]
  | none => as.map (·.record e)

/-- The accounts after these actions, in the order of their starts. -/
def accounts (events : List Event) : List Account := events.foldl book []

theorem accounts_snoc (events : List Event) (e : Event) :
    accounts (events ++ [e]) = book (accounts events) e := by
  rw [accounts, List.foldl_append]
  rfl

/-- An account has the actions on its buffer, in order. -/
theorem sublist_of_accounts (events : List Event) :
    ∀ a ∈ accounts events, a.events.Sublist events := by
  induction events using List.reverseRecOn with
  | nil => exact fun a mem => absurd mem List.not_mem_nil
  | append_singleton events e ih =>
    have kept : ∀ a ∈ accounts events, a.events.Sublist (events ++ [e]) := fun a mem =>
      (ih a mem).trans (List.sublist_append_left events [e])
    intro a mem
    rw [accounts_snoc, book] at mem
    cases started : e.started? with
    | some tid =>
      simp only [started] at mem
      rcases List.mem_append.1 mem with old | new
      · exact kept a old
      · rw [List.mem_singleton.1 new]
        exact List.nil_sublist _
    | none =>
      simp only [started] at mem
      obtain ⟨c, old, rfl⟩ := List.mem_map.1 mem
      rw [Account.record]
      split
      · exact (ih c old).append (List.Sublist.refl [e])
      · exact kept c old

/-- What an action does to the accounts. -/
inductive Booked (e : Event) : List Account → List Account → Prop
  /-- No buffer that was handed out is used. -/
  | idle {as : List Account} (started : e.started? = none)
    (vacant : ∀ b, e.buffer? = some b → b.attached = false) : Booked e as as
  /-- A thread gets its buffer. -/
  | opened {as : List Account} {b : Buffer} (started : e.started? = some b.tid)
    (here : e.after.buffers.get? e.name = some b) (fresh : Tracer.Fresh b) :
    Booked e as (as ++ [{ name := e.name, tid := b.tid }])
  /-- A buffer is used or goes away. -/
  | noted {front back : List Account} {a : Account} {b : Buffer} (started : e.started? = none)
    (name : a.name = e.name) (unended : a.final = none) (here : e.buffer? = some b)
    (attached : b.attached = true) (tid : b.tid = a.tid) :
    Booked e (front ++ a :: back) (front ++ a.note e :: back)

/-- The open accounts are those of the buffers in use that were handed out. -/
structure Accounted (s : Session) (as : List Account) : Prop where
  distinct : s.buffers.Distinct
  held : ∀ a ∈ as, a.final = none → ∃ b, s.buffers.get? a.name = some b ∧ b.attached = true ∧
    b.tid = a.tid
  known : ∀ name b, s.buffers.get? name = some b → b.attached = true →
    ∃ a ∈ as, a.final = none ∧ a.name = name
  apart : as.Pairwise fun a c => a.final = none → c.final = none → a.name ≠ c.name

/-- The open accounts differ in this. -/
def Apart {α : Type} (key : Account → α) (as : List Account) : Prop :=
  as.Pairwise fun a c => a.final = none → c.final = none → key a ≠ key c

variable {e : Event} {s s₀ : Session} {events : List Event} {as : List Account}

section

variable {α : Type} {key : Account → α} {front back : List Account} {a : Account}

theorem Apart.snoc (apart : Apart key as) (new : ∀ c ∈ as, c.final = none → key c ≠ key a) :
    Apart key (as ++ [a]) := by
  refine List.pairwise_append.2 ⟨apart, List.pairwise_singleton _ _, ?_⟩
  intro c mem d last unended _
  rw [List.mem_singleton.1 last]
  exact new c mem unended

/-- All other open accounts differ from one that is open. -/
theorem Apart.others (apart : Apart key (front ++ a :: back)) (unended : a.final = none) :
    ∀ c, c ∈ front ∨ c ∈ back → c.final = none → key c ≠ key a := by
  obtain ⟨_, later, before⟩ := List.pairwise_append.1 apart
  intro c mem open'
  rcases mem with inFront | inBack
  · exact before c inFront a List.mem_cons_self open' unended
  · exact (List.rel_of_pairwise_cons later inBack unended open').symm

/-- The open accounts still differ when something is noted in one of them. -/
theorem Apart.note (apart : Apart key (front ++ a :: back)) (unended : a.final = none)
    (same : key (a.note e) = key a) : Apart key (front ++ a.note e :: back) := by
  have others := apart.others unended
  obtain ⟨early, later, before⟩ := List.pairwise_append.1 apart
  obtain ⟨_, late⟩ := List.pairwise_cons.1 later
  refine List.pairwise_append.2 ⟨early, List.pairwise_cons.2 ⟨fun c mem _ open' => ?_, late⟩,
    fun c mem d mem' open' open'' => ?_⟩
  · rw [same]
    exact (others c (.inr mem) open').symm
  · rcases List.mem_cons.1 mem' with rfl | inBack
    · rw [same]
      exact others c (.inl mem) open'
    · exact before c mem d (List.mem_cons_of_mem _ inBack) open' open''

end

/-- An action under a name that has no open account is not noted. -/
theorem map_record_of_closed (closed : ∀ a ∈ as, a.final = none → a.name ≠ e.name) :
    as.map (·.record e) = as := by
  rw [List.map_congr_left (g := id), List.map_id]
  intro a mem
  rw [Account.record, if_neg]
  · rfl
  · exact fun own => closed a mem own.1 own.2

/-- An action under the name of a buffer in use is noted in its account alone. -/
theorem map_record_of_open {front back : List Account} {a : Account} (unended : a.final = none)
    (name : a.name = e.name) (apart : Apart Account.name (front ++ a :: back)) :
    (front ++ a :: back).map (·.record e) = front ++ a.note e :: back := by
  have others := apart.others unended
  rw [name] at others
  have own : a.record e = a.note e := by rw [Account.record, if_pos ⟨unended, name⟩]
  rw [List.map_append, List.map_cons, own, map_record_of_closed fun c mem => others c (.inl mem),
    map_record_of_closed fun c mem => others c (.inr mem)]

theorem Accounted.booked (accounted : Accounted e.before as) (handled : e.Handled) :
    Booked e as (book as e) := by
  cases started : e.started? with
  | some tid =>
    obtain ⟨_, _, _, b, here, rfl, fresh⟩ := handled.custody.opened started
    rw [book, started]
    exact .opened started here fresh
  | none =>
    rw [book, started]
    by_cases used : ∃ b, e.buffer? = some b ∧ b.attached = true
    · obtain ⟨b, here, attached⟩ := used
      obtain ⟨a, mem, unended, name⟩ := accounted.known e.name b here attached
      obtain ⟨c, there, _, tid⟩ := accounted.held a mem unended
      rw [name] at there
      cases here.symm.trans there
      obtain ⟨front, back, rfl⟩ := List.append_of_mem mem
      simp only
      rw [map_record_of_open unended name accounted.apart]
      exact .noted started name unended here attached tid
    · have vacant : ∀ b, e.buffer? = some b → b.attached = false := by
        intro b here
        rw [← Bool.not_eq_true]
        exact fun attached => used ⟨b, here, attached⟩
      simp only
      rw [map_record_of_closed]
      · exact .idle started vacant
      · intro a mem unended name
        obtain ⟨b, here, attached, _⟩ := accounted.held a mem unended
        rw [name] at here
        exact used ⟨b, here, attached⟩

/-- The accounts stay those of the buffers in use. -/
theorem Accounted.step {as' : List Account} (accounted : Accounted e.before as)
    (handled : e.Handled) (booked : Booked e as as') : Accounted e.after as' := by
  have elsewhere := handled.elsewhere
  have custody := handled.custody
  cases booked with
  | idle started vacant =>
    refine ⟨elsewhere.distinct accounted.distinct, fun a mem unended => ?_,
      fun name b here attached => ?_, accounted.apart⟩
    · obtain ⟨b, here, attached, tid⟩ := accounted.held a mem unended
      have differs : a.name ≠ e.name := by
        intro name
        rw [name] at here
        cases attached.symm.trans (vacant b here)
      exact ⟨b, (elsewhere.buffers _ differs).trans here, attached, tid⟩
    · by_cases name' : name = e.name
      · rw [name'] at here
        cases attached.symm.trans (custody.unstarted started vacant b here)
      · exact accounted.known name b ((elsewhere.buffers _ name').symm.trans here) attached
  | @opened _ b started here fresh =>
    have absent := (custody.opened started).1
    have differs : ∀ a ∈ as, a.final = none → a.name ≠ e.name := by
      intro a mem unended name
      obtain ⟨c, there, _⟩ := accounted.held a mem unended
      rw [name] at there
      cases there.symm.trans absent
    refine ⟨elsewhere.distinct accounted.distinct, fun a mem unended => ?_,
      fun name c there attached => ?_, ?_⟩
    · rcases List.mem_append.1 mem with old | new
      · obtain ⟨c, there, attached, tid⟩ := accounted.held a old unended
        exact ⟨c, (elsewhere.buffers _ (differs a old unended)).trans there, attached, tid⟩
      · rw [List.mem_singleton.1 new]
        exact ⟨b, here, fresh.attached, rfl⟩
    · by_cases name' : name = e.name
      · exact ⟨_, List.mem_append_right _ List.mem_cons_self, rfl, name'.symm⟩
      · obtain ⟨a, mem, known⟩ :=
          accounted.known name c ((elsewhere.buffers _ name').symm.trans there) attached
        exact ⟨a, List.mem_append_left _ mem, known⟩
    · exact Apart.snoc accounted.apart differs
  | @noted front back a b started name unended here attached tid =>
    have apart : Apart Account.name (front ++ a :: back) := accounted.apart
    have differs := apart.others unended
    rw [name] at differs
    have others : ∀ c, c ∈ front ∨ c ∈ back → c ∈ front ++ a :: back := by
      intro c mem
      rcases mem with mem | mem
      · exact List.mem_append_left _ mem
      · exact List.mem_append_right _ (List.mem_cons_of_mem _ mem)
    refine ⟨elsewhere.distinct accounted.distinct, ?_, ?_, apart.note unended rfl⟩
    · -- The buffer of the account is still there if the account is still open.
      have own : (a.note e).final = none → ∃ b, e.after.buffers.get? (a.note e).name = some b ∧
          b.attached = true ∧ b.tid = (a.note e).tid := by
        intro open'
        rcases (custody.used here).2 with ⟨b', there, same, _⟩ | ⟨_, n, ended⟩
        · refine ⟨b', ?_, same.attached.trans attached, same.tid.trans tid⟩
          rw [Account.note, name]
          exact there
        · cases ended.symm.trans open'
      have other : ∀ c, c ∈ front ∨ c ∈ back → c.final = none → ∃ b,
          e.after.buffers.get? c.name = some b ∧ b.attached = true ∧ b.tid = c.tid := by
        intro c mem open'
        rw [elsewhere.buffers _ (differs c mem open')]
        exact accounted.held c (others c mem) open'
      intro c mem open'
      rcases List.mem_append.1 mem with inFront | inRest
      · exact other c (.inl inFront) open'
      · rcases List.mem_cons.1 inRest with rfl | inBack
        · exact own open'
        · exact other c (.inr inBack) open'
    · intro other c there attached'
      by_cases same : other = e.name
      · rcases (custody.used here).2 with ⟨_, _, _, unended'⟩ | ⟨gone, _⟩
        · exact ⟨a.note e, List.mem_append_right _ List.mem_cons_self, unended',
            name.trans same.symm⟩
        · rw [same] at there
          cases there.symm.trans gone
      · rw [elsewhere.buffers _ same] at there
        obtain ⟨d, mem, open', name'⟩ := accounted.known other c there attached'
        refine ⟨d, ?_, open', name'⟩
        rcases List.mem_append.1 mem with inFront | inRest
        · exact List.mem_append_left _ inFront
        · rcases List.mem_cons.1 inRest with rfl | inBack
          · exact absurd (name'.symm.trans name) same
          · exact List.mem_append_right _ (List.mem_cons_of_mem _ inBack)

namespace Session

theorem Descends.handled (descends : s₀.Descends e.before events) (handled : e.Handled) :
    s₀.Descends e.after (events ++ [e]) where
  distinct := handled.elsewhere.distinct descends.distinct
  pid := by rw [handled.tracer, descends.pid]
  capacity := by rw [handled.tracer, descends.capacity]
  limit := by rw [handled.tracer, descends.limit]
  messages := by
    rw [handled.grown.messages_eq, descends.messages, List.flatMap_append, List.flatMap_singleton,
      List.append_assoc]
    rfl

theorem Descends.congr {s' : Session} (descends : s₀.Descends s events)
    (buffers : s'.buffers = s.buffers) (pid : s'.tracer.pid = s.tracer.pid)
    (capacity : s'.tracer.capacity = s.tracer.capacity)
    (limit : s'.tracer.channel.limit = s.tracer.channel.limit)
    (messages : s'.tracer.channel.messages = s.tracer.channel.messages) :
    s₀.Descends s' events where
  distinct := buffers ▸ descends.distinct
  pid := pid.trans descends.pid
  capacity := capacity.trans descends.capacity
  limit := limit.trans descends.limit
  messages := messages ▸ descends.messages

end Session

theorem Shutdown.Runs.descends {x₀ x : Shutdown} (runs : Runs x₀ events x)
    (distinct : x₀.session.buffers.Distinct) :
    x₀.session.Descends x.session events ∧ ∀ e ∈ events, e.Within x₀.session := by
  induction runs with
  | nil =>
    refine ⟨⟨distinct, rfl, rfl, rfl, ?_⟩, fun e mem => absurd mem List.not_mem_nil⟩
    rw [List.flatMap_nil, List.append_nil]
  | act name machineName action _ ih =>
    obtain ⟨descends, within⟩ := ih
    have handled := Session.handled_act descends.distinct name machineName action
    refine ⟨Session.Descends.handled descends handled, fun e mem => ?_⟩
    rcases List.mem_append.1 mem with old | new
    · exact within e old
    · rw [List.mem_singleton.1 new]
      exact ⟨rfl, descends.distinct, handled, descends.pid, descends.capacity, descends.limit⟩
  | begin _ ih => exact ⟨ih.1.congr rfl rfl rfl rfl rfl, ih.2⟩
  | wait _ _ _ _ _ ih => exact ih
  | close _ _ _ _ _ ih => exact ⟨ih.1.congr rfl rfl rfl rfl rfl, ih.2⟩

theorem Event.action_of_started {tid : UInt64} (started : e.started? = some tid) :
    e.action = .start tid := by
  unfold Event.started? at started
  split at started
  · cases started
    assumption
  · cases started

/-- The buffer of a thread that was started has the capacity that the session gives to each. -/
theorem Event.Within.opened {b : Buffer} (within : e.Within s₀) (started : e.started? = some b.tid)
    (here : e.after.buffers.get? e.name = some b) : b.capacity = s₀.tracer.capacity := by
  have acted := within.acted
  rw [Event.action_of_started started] at acted
  rcases Session.started_or_idle e.before e.name e.machine b.tid with
    ⟨c, _, _, capacity, _, _, _, start⟩ | ⟨outcome, failure, idle⟩
  · rw [← acted, Session.event, start] at here
    simp only at here
    rw [Named.get?_put, if_pos rfl] at here
    cases here
    exact capacity.trans within.capacity
  · rw [← acted, Session.event, idle] at started
    rcases failure with rfl | ⟨_, _, rfl⟩
    · cases started
    · cases started

theorem Account.buffer?_note {a : Account} {b : Buffer} (handled : e.Handled)
    (name : a.name = e.name) (here : e.buffer? = some b) :
    (a.note e).buffer? e.after = e.after.buffers.get? e.name := by
  rw [Account.buffer?, Account.note, name]
  rcases (handled.custody.used here).2 with ⟨b', _, _, unended⟩ | ⟨gone, n, ended⟩
  · rw [if_pos unended]
  · rw [gone, ended]
    rfl

/-- An action leaves the buffers of all accounts alone but that in which it is noted. -/
theorem Account.buffer?_other {a : Account} (handled : e.Handled)
    (other : a.final = none → a.name ≠ e.name) : a.buffer? e.after = a.buffer? e.before := by
  unfold Account.buffer?
  split
  · rename_i open'
    exact handled.elsewhere.buffers _ (other open')
  · rfl

/-- What holds of a new buffer and is kept by what is noted holds of each account after an
action. -/
theorem Booked.stand {as' : List Account} {P : Account → Option Buffer → Prop}
    (booked : Booked e as as') (accounted : Accounted e.before as) (handled : e.Handled)
    (opens : ∀ b, e.started? = some b.tid → e.after.buffers.get? e.name = some b →
      Tracer.Fresh b → P { name := e.name, tid := b.tid } (some b))
    (notes : ∀ a b, a.name = e.name → a.final = none → e.buffer? = some b → b.attached = true →
      b.tid = a.tid → P a (some b) → P (a.note e) (e.after.buffers.get? e.name))
    (stand : ∀ a ∈ as, P a (a.buffer? e.before)) : ∀ a ∈ as', P a (a.buffer? e.after) := by
  cases booked with
  | idle started vacant =>
    intro a mem
    rw [Account.buffer?_other handled]
    · exact stand a mem
    · intro open' name
      obtain ⟨b, here, attached, _⟩ := accounted.held a mem open'
      rw [name] at here
      cases attached.symm.trans (vacant b here)
  | @opened _ b started here fresh =>
    intro a mem
    rcases List.mem_append.1 mem with old | new
    · rw [Account.buffer?_other handled]
      · exact stand a old
      · intro open' name
        obtain ⟨c, there, _⟩ := accounted.held a old open'
        rw [name] at there
        cases there.symm.trans (handled.custody.opened started).1
    · rw [List.mem_singleton.1 new, Account.buffer?, if_pos rfl, here]
      exact opens b started here fresh
  | @noted front back a b started name unended here attached tid =>
    have apart : Apart Account.name (front ++ a :: back) := accounted.apart
    have differs := apart.others unended
    rw [name] at differs
    intro c mem
    have own : P (a.note e) ((a.note e).buffer? e.after) := by
      rw [Account.buffer?_note handled name here]
      refine notes a b name unended here attached tid ?_
      have standing := stand a (List.mem_append_right _ List.mem_cons_self)
      rw [Account.buffer?, if_pos unended, name] at standing
      rw [← here]
      exact standing
    rcases List.mem_append.1 mem with inFront | inRest
    · rw [Account.buffer?_other handled (differs c (.inl inFront))]
      exact stand c (List.mem_append_left _ inFront)
    · rcases List.mem_cons.1 inRest with rfl | inBack
      · exact own
      · rw [Account.buffer?_other handled (differs c (.inr inBack))]
        exact stand c (List.mem_append_right _ (List.mem_cons_of_mem _ inBack))

/-- The accounts depend on the buffers alone. -/
theorem Accounted.congr {s' : Session} (accounted : Accounted s as)
    (buffers : s'.buffers = s.buffers) : Accounted s' as where
  distinct := buffers ▸ accounted.distinct
  held := buffers ▸ accounted.held
  known := buffers ▸ accounted.known
  apart := accounted.apart

/-- The accounts after a run, with what holds of a new buffer and is kept by what is noted. -/
theorem Shutdown.Runs.accounts_stand {P : Account → Option Buffer → Prop} {x₀ x : Shutdown}
    (runs : Runs x₀ events x) (empty : x₀.session.buffers = [])
    (opens : ∀ e ∈ events, ∀ b, e.started? = some b.tid → e.after.buffers.get? e.name = some b →
      Tracer.Fresh b → P { name := e.name, tid := b.tid } (some b))
    (notes : ∀ e ∈ events, ∀ a b, a.name = e.name → a.final = none → e.buffer? = some b →
      b.attached = true → b.tid = a.tid → P a (some b) →
      P (a.note e) (e.after.buffers.get? e.name)) :
    Accounted x.session (accounts events) ∧ ∀ a ∈ accounts events, P a (a.buffer? x.session) := by
  induction runs with
  | nil =>
    refine ⟨⟨?_, fun a mem => absurd mem List.not_mem_nil, ?_, .nil⟩,
      fun a mem => absurd mem List.not_mem_nil⟩
    · rw [empty]
      exact List.nodup_nil
    · intro name b here
      rw [empty] at here
      cases here
  | @act events x name machineName action runs ih =>
    obtain ⟨accounted, stand⟩ := ih (fun e mem => opens e (List.mem_append_left _ mem))
      (fun e mem => notes e (List.mem_append_left _ mem))
    have handled := Session.handled_act accounted.distinct name machineName action
    have booked := Accounted.booked accounted handled
    have new : x.session.event name machineName action ∈
        events ++ [x.session.event name machineName action] :=
      List.mem_append_right _ List.mem_cons_self
    rw [accounts_snoc]
    exact ⟨Accounted.step accounted handled booked,
      booked.stand accounted handled (opens _ new) (notes _ new) stand⟩
  | begin _ ih =>
    obtain ⟨accounted, stand⟩ := ih opens notes
    exact ⟨accounted.congr rfl, stand⟩
  | wait _ _ _ _ _ ih => exact ih opens notes
  | close _ _ _ _ _ ih =>
    obtain ⟨accounted, stand⟩ := ih opens notes
    exact ⟨accounted.congr rfl, stand⟩

end AccessTrace
