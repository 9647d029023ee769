import Mathlib
import AccessTrace.Proofs.Isolation

/-!
# Threads without a buffer

A thread is ended by its buffer, when this is given back or let go of. A buffer that was freed by
hand ends nothing any more: if it goes away, its thread stays live for good (`Doomed`), and every
exit waits for it. All other ways in which a buffer goes away end its thread
(`Event.left_of_handled`), so that every live thread has a buffer exactly if no buffer went away
freed by hand (`live_threads_housed`).
-/

namespace AccessTrace

namespace Event

/-- Whether a buffer that was handed out goes away freed by hand. -/
def strands (e : Event) : Bool :=
  match e.action, e.buffer? with
  | .free, some b => b.attached && (b.phase = .draining || b.phase = .freed)
  | .finish, some b | .drop, some b => b.attached && b.phase = .freed
  | _, _ => false

end Event

namespace Buffer

variable {b : Buffer}

/-- Nothing follows the last phase. -/
theorem freed_apply (freed : b.phase = .freed) (action : BufferAction) :
    (action.apply b).2.phase = .freed := by
  cases action with
  | push e stride times => exact (SameLife.pushSeries b e stride times).phase.trans freed
  | store16 offset value => exact (SameLife.store b offset _).phase.trans freed
  | store64 offset value => exact (SameLife.store b offset _).phase.trans freed
  | setPtr ptr => exact (SameLife.setPtr b ptr).phase.trans freed
  | writeHeader => exact b.sameButBytes_writeHeader.life.phase.trans freed
  | markRegistered =>
    simp only [BufferAction.apply, Buffer.markRegistered]
    split <;> exact freed
  | transition target =>
    have last : b.phase.next? ≠ some target := by
      rw [freed]
      rintro ⟨⟩
    simp only [BufferAction.apply, Buffer.transition, if_neg last]
    exact freed
  | _ => exact freed

end Buffer

/-- Freeing a buffer that is draining, or was freed before, tells the tracer nothing. -/
theorem Tracer.free_by_hand (t : Tracer Recorder) {b : Buffer}
    (done : b.phase = .draining ∨ b.phase = .freed) : ∃ answer, t.free b = (answer, t) := by
  rcases done with draining | freed
  · have next : b.phase.next? = some .freed := by
      rw [draining]
      rfl
    refine ⟨.ok b.refs, ?_⟩
    simp [Tracer.free, Buffer.transition, next, Tracer.discard, Except.map]
  · have last : b.phase.next? ≠ some .freed := by
      rw [freed]
      decide
    have kept : t.discard b = t := if_neg (by simp [freed])
    refine ⟨.error (.transition b.tid b.phase .freed), ?_⟩
    rw [Tracer.free, Buffer.transition, if_neg last]
    simp only [kept]
    rfl

namespace Session

variable {s : Session} {name machineName : String} {b b' : Buffer}

/-- A freed buffer stays freed as long as it is there. -/
theorem freed_act (distinct : s.buffers.Distinct) (here : s.buffers.get? name = some b)
    (freed : b.phase = .freed) {action : Action}
    (there : (s.event name machineName action).after.buffers.get? name = some b') :
    b'.phase = .freed := by
  obtain ⟨rest, without, taken⟩ := withBuffer_of_get? here
  have idle : s.buffers.get? name = some b' → b'.phase = .freed := by
    intro same
    cases here.symm.trans same
    exact freed
  have put : ∀ {c : Buffer}, b.SameLife c ∨ c.phase = .freed →
      (rest.put name c).get? name = some b' → b'.phase = .freed := by
    intro c kept same
    rw [Named.get?_put, if_pos rfl] at same
    cases same
    rcases kept with life | freed
    · exact life.phase.trans freed
    · exact freed
  have gone : rest.get? name = some b' → b'.phase = .freed := by
    intro same
    cases (without.get? distinct).symm.trans same
  rw [event] at there
  have acted := act.eq_def s name machineName action
  cases action with
  | start tid =>
    simp only [here, Option.isSome_some, if_true] at acted
    rw [acted] at there
    exact idle there
  | allocate tid capacity =>
    simp only [here, Option.isSome_some, if_true] at acted
    rw [acted] at there
    exact idle there
  | setRegisters values =>
    obtain ⟨machines, set⟩ := act_setRegisters s name machineName values
    rw [set] at there
    exact idle there
  | buffer action =>
    have kept := Buffer.freed_apply freed action
    simp only [taken] at acted
    rw [acted] at there
    exact put (.inr kept) there
  | flush policy =>
    rcases flush : b.flush s.tracer.channel s.tracer.pid policy with ⟨answer, c, channel⟩
    simp only [taken, Tracer.flush_eq flush] at acted
    rw [acted] at there
    exact put (.inl (Buffer.flush_life flush)) there
  | flushAs pid policy =>
    rcases flush : b.flush s.tracer.channel pid policy with ⟨answer, c, channel⟩
    simp only [taken, Tracer.flush_eq (t := { s.tracer with pid }) flush] at acted
    rw [acted] at there
    exact put (.inl (Buffer.flush_life flush)) there
  | execute plans times =>
    rcases machine : takeMachine s.machines machineName with ⟨m, machines'⟩
    have life := Host.lives_executeTimes ⟨m, b, s.tracer⟩ 0 plans times
    rcases run : Host.executeTimes ⟨m, b, s.tracer⟩ 0 plans times with ⟨done, answer, h⟩
    rw [run] at life
    simp only [taken, execute, machine, run] at acted
    rw [acted] at there
    exact put (.inl life) there
  | finish =>
    rcases finish : s.tracer.finish b with ⟨(_ | _) | _, t⟩
    all_goals
      simp only [taken, finish] at acted
      rw [acted] at there
      exact gone there
  | free =>
    rcases free : s.tracer.free b with ⟨_ | _, t⟩
    all_goals
      simp only [taken, free] at acted
      rw [acted] at there
      exact gone there
  | drop =>
    simp only [taken] at acted
    rw [acted] at there
    exact gone there
  | _ => exact idle there

/-- A thread has a buffer: one that was handed out to it is in use. -/
def Houses (s : Session) (tid : UInt64) : Prop :=
  ∃ name b, s.buffers.get? name = some b ∧ b.attached = true ∧ b.tid = tid

/-- Where a buffer goes away freed by hand, the roster stays as it is. -/
theorem roster_of_strands (distinct : s.buffers.Distinct) {action : Action}
    (strands : (s.event name machineName action).strands = true) :
    (s.event name machineName action).after.tracer.roster = s.tracer.roster ∧
      ∃ b, s.buffers.get? name = some b ∧ b.attached = true ∧
        (s.event name machineName action).after.buffers.get? name = none := by
  cases here : s.buffers.get? name with
  | none =>
    have silent : (s.event name machineName action).strands = false := by
      cases action <;> simp only [Event.strands, Event.buffer?, event, here]
    rw [silent] at strands
    cases strands
  | some b =>
    obtain ⟨rest, without, taken⟩ := withBuffer_of_get? here
    have acted := act.eq_def s name machineName action
    have kept : b.phase = .freed → s.tracer.discard b = s.tracer :=
      fun freed => if_neg (by simp [freed])
    cases action with
    | finish =>
      simp only [Event.strands, Event.buffer?, event, here, Bool.and_eq_true, decide_eq_true_eq]
        at strands
      have inactive : b.phase ≠ .active := by
        rw [strands.2]
        decide
      simp only [taken, Tracer.finish_inactive inactive, kept strands.2] at acted
      rw [event, acted]
      exact ⟨rfl, b, rfl, strands.1, without.get? distinct⟩
    | free =>
      simp only [Event.strands, Event.buffer?, event, here, Bool.and_eq_true, Bool.or_eq_true,
        decide_eq_true_eq] at strands
      obtain ⟨answer, free⟩ := Tracer.free_by_hand s.tracer strands.2
      cases answer
      all_goals
        simp only [taken, free] at acted
        rw [event, acted]
        exact ⟨rfl, b, rfl, strands.1, without.get? distinct⟩
    | drop =>
      simp only [Event.strands, Event.buffer?, event, here, Bool.and_eq_true, decide_eq_true_eq]
        at strands
      simp only [taken, kept strands.2] at acted
      rw [event, acted]
      exact ⟨rfl, b, rfl, strands.1, without.get? distinct⟩
    | _ => cases strands

end Session

namespace Custody

variable {action : Action} {r r' : Roster} {started : Option UInt64} {ended : Option Nat}
  {before after : Option Buffer} {b : Buffer} {tid : UInt64}

/-- A buffer that was handed out and not freed by hand ends its thread when it goes away. -/
theorem left (custody : Custody action r (some b) r' none started ended)
    (attached : b.attached = true) (unfreed : b.phase ≠ .freed)
    (undrained : action = .free → b.phase ≠ .draining) : ∃ n, ended = some n ∧
      r'.total = r.total + n ∧ r'.live = r.live.filter (· ≠ b.tid) := by
  cases custody with
  | returned finish active refs => exact ⟨refs, rfl, rfl, rfl⟩
  | abandoned => exact ⟨_, rfl, rfl, rfl⟩
  | released nobody =>
    rcases nobody with detached | freed | ⟨free, draining⟩
    · cases attached.symm.trans detached
    · exact absurd freed unfreed
    · exact absurd draining (undrained free)

/-- A thread that is live had been so before or has just got its buffer. -/
theorem live_or_handed (custody : Custody action r before r' after started ended)
    (live : tid ∈ r'.live) :
    tid ∈ r.live ∨ ∃ b', after = some b' ∧ b'.attached = true ∧ b'.tid = tid := by
  cases custody with
  | @handed b running new fresh =>
    rcases List.mem_cons.1 live with rfl | old
    · exact .inr ⟨b, rfl, fresh.attached, rfl⟩
    · exact .inl old
  | returned finish active refs => exact .inl (Roster.mem_live_leave.1 live).1
  | abandoned attached unfreed => exact .inl (List.mem_of_mem_filter live)
  | _ => exact .inl live

/-- A freed buffer does not end its thread. -/
theorem live_of_freed (custody : Custody action r before r' after started ended)
    (live : tid ∈ r.live)
    (freed : ∀ b, before = some b → b.attached = true → b.tid = tid → b.phase = .freed)
    (fair : action = .finish → ∀ b, before = some b → b.attached = true) : tid ∈ r'.live := by
  cases custody with
  | handed => exact List.mem_cons_of_mem _ live
  | @returned b finish active refs =>
    refine Roster.mem_live_leave.2 ⟨live, fun same => ?_⟩
    cases active.symm.trans (freed b rfl (fair finish b rfl) same.symm)
  | @abandoned b attached unfreed =>
    have left : tid ∈ (r.leave b.tid b.refs).live :=
      Roster.mem_live_leave.2 ⟨live, fun same => unfreed (freed b rfl attached same.symm)⟩
    exact left
  | _ => exact live

end Custody

namespace Event

variable {e : Event} {b : Buffer}

theorem phase_of_unstranded (unstranded : e.strands = false) (here : e.buffer? = some b)
    (attached : b.attached = true) (ended : e.ended? ≠ none) :
    b.phase ≠ .freed ∧ (e.action = .free → b.phase ≠ .draining) := by
  cases action : e.action with
  | free =>
    simp only [strands, action, here, attached, Bool.true_and, Bool.or_eq_false_iff,
      decide_eq_false_iff_not] at unstranded
    exact ⟨unstranded.2, fun _ => unstranded.1⟩
  | finish | drop =>
    simp only [strands, action, here, attached, Bool.true_and, decide_eq_false_iff_not]
      at unstranded
    exact ⟨unstranded, by rintro ⟨⟩⟩
  | _ =>
    simp only [ended?, action] at ended
    exact absurd rfl ended

/-- A buffer that was handed out ends its thread when it goes away, unless it was freed by hand. -/
theorem left_of_handled (handled : e.Handled) (unstranded : e.strands = false)
    (here : e.buffer? = some b) (attached : b.attached = true)
    (gone : e.after.buffers.get? e.name = none) : ∃ n, e.ended? = some n ∧
      e.after.tracer.roster.total = e.before.tracer.roster.total + n ∧
      e.after.tracer.roster.live = e.before.tracer.roster.live.filter (· ≠ b.tid) := by
  have custody := handled.custody
  have ended : e.ended? ≠ none := by
    rcases (custody.used here).2 with ⟨c, there, -, -⟩ | ⟨-, n, ended⟩
    · cases gone.symm.trans there
    · rw [ended]
      exact Option.some_ne_none n
  obtain ⟨unfreed, undrained⟩ := phase_of_unstranded unstranded here attached ended
  rw [here, gone] at custody
  exact custody.left attached unfreed undrained

/-- Every live thread still has a buffer, unless one was freed by hand. -/
theorem houses_of_handled (handled : e.Handled) (unstranded : e.strands = false)
    (housed : ∀ tid ∈ e.before.tracer.roster.live, e.before.Houses tid) :
    ∀ tid ∈ e.after.tracer.roster.live, e.after.Houses tid := by
  have custody := handled.custody
  intro tid live
  rcases custody.live_or_handed live with old | ⟨b, here, attached, same⟩
  · obtain ⟨name, b, here, attached, same⟩ := housed tid old
    by_cases own : name = e.name
    · subst own
      rcases (custody.used here).2 with ⟨c, there, kept, -⟩ | ⟨gone, -⟩
      · exact ⟨_, c, there, kept.attached.trans attached, kept.tid.trans same⟩
      · obtain ⟨n, -, -, left⟩ := left_of_handled handled unstranded here attached gone
        rw [left, same] at live
        simp at live
    · exact ⟨name, b, (handled.elsewhere.buffers _ own).trans here, attached, same⟩
  · exact ⟨_, b, here, attached, same⟩

end Event

namespace Shutdown

variable {x x' : Shutdown} {name machineName : String} {action : Action} {tid : UInt64}
  {events more : List Event} {limit : Option Nat} {pid : UInt32} {capacity : Nat}

/-- A thread that is live without a buffer stays so. -/
theorem Guarded.unhoused_act (guarded : Guarded x) (live : tid ∈ x.session.tracer.roster.live)
    (unhoused : ¬x.session.Houses tid)
    (fair : (x.session.event name machineName action).fair = true) :
    tid ∈ (x.session.act name machineName action).2.tracer.roster.live ∧
      ¬(x.session.act name machineName action).2.Houses tid := by
  have handled := Session.handled_act guarded.distinct name machineName action
  have custody := handled.custody
  constructor
  · refine custody.live_of_freed live (fun b here attached same => ?_)
      fun finish b => Event.attached_of_fair fair finish
    exact absurd ⟨name, b, here, attached, same⟩ unhoused
  · rintro ⟨other, c, there, attached, same⟩
    by_cases own : other = name
    · subst own
      rcases (custody.attached (guarded.live other) there attached).2 with
        new | ⟨b, here, attached', same'⟩
      · exact new (same ▸ live)
      · exact unhoused ⟨other, b, here, attached', same'.symm.trans same⟩
    · exact unhoused ⟨other, c, (handled.elsewhere.buffers _ own).symm.trans there, attached, same⟩

/-- A thread that can no longer end: all that is left of its buffers is freed. -/
structure Doomed (x : Shutdown) (tid : UInt64) : Prop where
  live : tid ∈ x.session.tracer.roster.live
  freed : ∀ name b, x.session.buffers.get? name = some b → b.attached = true → b.tid = tid →
    b.phase = .freed

theorem Doomed.act (doomed : Doomed x tid) (guarded : Guarded x)
    (fair : (x.session.event name machineName action).fair = true) :
    Doomed { x with session := (x.session.act name machineName action).2 } tid := by
  have handled := Session.handled_act guarded.distinct name machineName action
  have custody := handled.custody
  constructor
  · exact custody.live_of_freed doomed.live (doomed.freed name)
      fun finish b => Event.attached_of_fair fair finish
  · intro other c there attached same
    by_cases own : other = name
    · subst own
      rcases (custody.attached (guarded.live other) there attached).2 with
        new | ⟨b, here, attached', same'⟩
      · exact absurd (same ▸ doomed.live) new
      · exact Session.freed_act guarded.distinct here
          (doomed.freed other b here attached' (same'.symm.trans same)) there
    · exact doomed.freed other c ((handled.elsewhere.buffers _ own).symm.trans there) attached same

theorem Runs.doomed (runs : Runs x more x') (guarded : Guarded x)
    (fair : ∀ e ∈ more, e.fair = true) (doomed : Doomed x tid) : Doomed x' tid := by
  induction runs with
  | nil => exact doomed
  | act name machineName action runs ih =>
    have earlier := fun e mem => fair e (List.mem_append_left _ mem)
    exact (ih earlier).act (runs.guarded guarded earlier)
      (fair _ (List.mem_append_right _ List.mem_cons_self))
  | begin _ ih => exact ⟨(ih fair).live, (ih fair).freed⟩
  | wait _ _ _ _ _ ih => exact ⟨(ih fair).live, (ih fair).freed⟩
  | close _ _ _ _ _ ih => exact ⟨(ih fair).live, (ih fair).freed⟩

/-- As long as no buffer goes away freed by hand, every live thread has one. -/
theorem Runs.housed (runs : Runs x events x') (distinct : x.session.buffers.Distinct)
    (unstranded : ∀ e ∈ events, e.strands = false)
    (housed : ∀ tid ∈ x.session.tracer.roster.live, x.session.Houses tid) :
    ∀ tid ∈ x'.session.tracer.roster.live, x'.session.Houses tid := by
  induction runs with
  | nil => exact housed
  | act name machineName action runs ih =>
    have before := ih fun e mem => unstranded e (List.mem_append_left _ mem)
    have handled :=
      Session.handled_act (runs.descends distinct).1.distinct name machineName action
    exact Event.houses_of_handled handled
      (unstranded _ (List.mem_append_right _ List.mem_cons_self)) before
  | begin _ ih => exact ih unstranded
  | wait _ _ _ _ _ ih => exact ih unstranded
  | close _ _ _ _ _ ih => exact ih unstranded

/-- Where a buffer goes away freed by hand, its thread is live without a buffer. -/
theorem Guarded.unhoused_of_strands (guarded : Guarded x)
    (strands : (x.session.event name machineName action).strands = true) :
    ∃ tid ∈ (x.session.act name machineName action).2.tracer.roster.live,
      ¬(x.session.act name machineName action).2.Houses tid := by
  obtain ⟨roster, b, here, attached, gone⟩ := Session.roster_of_strands guarded.distinct strands
  have elsewhere := (Session.handled_act guarded.distinct name machineName action).elsewhere
  refine ⟨b.tid, ?_, ?_⟩
  · have live := guarded.live name b here attached
    rw [← roster] at live
    exact live
  · rintro ⟨other, c, there, attached', same⟩
    by_cases own : other = name
    · subst own
      cases gone.symm.trans there
    · have before := (elsewhere.buffers _ own).symm.trans there
      exact own (guarded.apart _ _ c b before here attached' attached same)

theorem Runs.unhoused (runs : Runs x events x') (guarded : Guarded x)
    (fair : ∀ e ∈ events, e.fair = true) (stranded : ∃ e ∈ events, e.strands = true) :
    ∃ tid ∈ x'.session.tracer.roster.live, ¬x'.session.Houses tid := by
  induction runs with
  | nil =>
    obtain ⟨e, mem, -⟩ := stranded
    cases mem
  | act name machineName action runs ih =>
    have earlier := fun e mem => fair e (List.mem_append_left _ mem)
    have before := runs.guarded guarded earlier
    obtain ⟨e, mem, strands⟩ := stranded
    rcases List.mem_append.1 mem with old | new
    · obtain ⟨tid, live, unhoused⟩ := ih earlier ⟨e, old, strands⟩
      exact ⟨tid, before.unhoused_act live unhoused
        (fair _ (List.mem_append_right _ List.mem_cons_self))⟩
    · rw [List.mem_singleton.1 new] at strands
      exact before.unhoused_of_strands strands
  | begin _ ih => exact ih fair stranded
  | wait _ _ _ _ _ ih => exact ih fair stranded
  | close _ _ _ _ _ ih => exact ih fair stranded

/-- A thread with a buffer that is not freed ends when this is let go of. -/
theorem Guarded.ends (guarded : Guarded x) {b : Buffer}
    (here : x.session.buffers.get? name = some b) (attached : b.attached = true)
    (unfreed : b.phase ≠ .freed) :
    ∃ more x', Runs x more x' ∧ (∀ e ∈ more, e.fair = true) ∧
      b.tid ∉ x'.session.tracer.roster.live := by
  have handled := Session.handled_act guarded.distinct name name .drop
  have unstranded : (x.session.event name name .drop).strands = false := by
    simp only [Event.strands, Session.event, Event.buffer?, here, attached, Bool.true_and,
      decide_eq_false_iff_not]
    exact unfreed
  refine ⟨_, _, .act name name .drop .nil, fun e mem => ?_, ?_⟩
  · rw [List.nil_append, List.mem_singleton] at mem
    rw [mem]
    rfl
  · have ended : (x.session.event name name .drop).ended? = some b.refs := by
      simp only [Event.ended?, Session.event, Event.buffer?, here]
    rcases (handled.custody.used here).2 with ⟨-, -, -, kept⟩ | ⟨gone, -⟩
    · cases ended.symm.trans kept
    · obtain ⟨-, -, -, left⟩ := Event.left_of_handled handled unstranded here attached gone
      change b.tid ∉ (x.session.event name name .drop).after.tracer.roster.live
      rw [left]
      simp

/-- Every live thread has a buffer exactly if no buffer that was handed out has gone away freed by
hand. One that goes away otherwise ends its thread and what it has sent is counted; one that was
freed by hand does neither. A live thread can still end exactly if it has a buffer that is not
freed. -/
theorem live_threads_housed (runs : Runs { session := .begun limit pid capacity } events x)
    (fair : ∀ e ∈ events, e.fair = true) :
    ((∀ tid ∈ x.session.tracer.roster.live, x.session.Houses tid) ↔
      ∀ e ∈ events, e.strands = false) ∧
    (∀ e ∈ events, ∀ b, e.buffer? = some b → b.attached = true →
      e.after.buffers.get? e.name = none → ∃ n, e.ended? = some n ∧
        if e.strands then e.after.tracer.roster = e.before.tracer.roster
        else e.after.tracer.roster.total = e.before.tracer.roster.total + n ∧
          e.after.tracer.roster.live = e.before.tracer.roster.live.filter (· ≠ b.tid)) ∧
    ∀ tid ∈ x.session.tracer.roster.live,
      ((∃ more x', Runs x more x' ∧ (∀ e ∈ more, e.fair = true) ∧
          tid ∉ x'.session.tracer.roster.live) ↔
        ∃ name b, x.session.buffers.get? name = some b ∧ b.attached = true ∧ b.tid = tid ∧
          b.phase ≠ .freed) := by
  have start := guarded_begun limit pid capacity
  have guarded := runs.guarded start fair
  refine ⟨⟨fun housed => ?_, fun unstranded => ?_⟩, fun e mem b here attached gone => ?_,
    fun tid live => ⟨?_, ?_⟩⟩
  · by_contra stranded
    have some : ∃ e ∈ events, e.strands = true := by simpa using stranded
    obtain ⟨tid, live, unhoused⟩ := runs.unhoused start fair some
    exact unhoused (housed tid live)
  · refine runs.housed start.distinct unstranded fun tid live => ?_
    cases live
  · have within := (runs.descends start.distinct).2 e mem
    by_cases strands : e.strands = true
    · have same : (e.before.event e.name e.machine e.action).strands = true := by
        rw [within.acted]
        exact strands
      have roster := (Session.roster_of_strands within.distinct same).1
      rw [within.acted] at roster
      rcases (within.handled.custody.used here).2 with ⟨c, there, -, -⟩ | ⟨-, n, ended⟩
      · cases gone.symm.trans there
      · exact ⟨n, ended, by rw [if_pos strands]; exact roster⟩
    · obtain ⟨n, ended, left⟩ := Event.left_of_handled within.handled
        (Bool.not_eq_true _ ▸ strands) here attached gone
      exact ⟨n, ended, by rw [if_neg strands]; exact left⟩
  · rintro ⟨more, x', later, fair', ended⟩
    by_contra none
    have doomed : Doomed x tid := by
      refine ⟨live, fun name b here attached same => ?_⟩
      by_contra unfreed
      exact none ⟨name, b, here, attached, same, unfreed⟩
    exact ended (later.doomed guarded fair' doomed).live
  · rintro ⟨name, b, here, attached, rfl, unfreed⟩
    exact guarded.ends here attached unfreed

/-- A thread that has sent an entry and whose buffer is draining. -/
def drained : Session :=
  ((((Session.begun none 1 4).act "t" "m" (.start 7)).2.act "t" "m" (.flush .forced)).2.act "t" "m"
    (.buffer (.transition .draining))).2

/-- What becomes of it when the buffer is freed by hand. -/
def freedByHand : Event := drained.event "t" "m" .free

theorem live_threads_housed_freedByHand : ∃ events x,
    Runs { session := .begun none 1 4 } events x ∧ freedByHand ∈ events ∧
      ¬x.session.Houses 7 ∧ ∀ more x', Runs x more x' → (∀ e ∈ more, e.fair = true) →
        7 ∈ x'.session.tracer.roster.live := by
  obtain ⟨before, x, held, session, fair⟩ : ∃ events x,
      Runs { session := .begun none 1 4 } events x ∧ x.session = drained ∧
        ∀ e ∈ events, e.fair = true := by
    have begun : Runs { session := .begun none 1 4 } [] { session := .begun none 1 4 } := .nil
    refine ⟨_, _, Runs.act "t" "m" (.buffer (.transition .draining))
      (.act "t" "m" (.flush .forced) (.act "t" "m" (.start 7) begun)), ?_, by decide +kernel⟩
    simp only [drained]
  obtain ⟨x', runs, session'⟩ : ∃ x', Runs { session := .begun none 1 4 }
      (before ++ [freedByHand]) x' ∧ x'.session = freedByHand.after := by
    have runs := Runs.act "t" "m" .free held
    rw [session] at runs
    exact ⟨_, runs, rfl⟩
  have last : freedByHand ∈ before ++ [freedByHand] :=
    List.mem_append_right _ List.mem_cons_self
  obtain ⟨housed, -, ends⟩ := live_threads_housed runs fun e mem => by
    rcases List.mem_append.1 mem with old | new
    · exact fair e old
    · rw [List.mem_singleton.1 new]
      rfl
  have live : x'.session.tracer.roster.live = [7] := by
    rw [session']
    decide +kernel
  have empty : x'.session.buffers = [] := by
    have names : freedByHand.after.buffers.map Prod.fst = [] := by decide +kernel
    rw [session', List.map_eq_nil_iff.1 names]
  have strands : freedByHand.strands = true := by decide +kernel
  refine ⟨_, x', runs, last, fun houses => ?_, fun more x'' later fair' => ?_⟩
  · have unstranded := housed.1 fun tid mem => by
      rw [live, List.mem_singleton] at mem
      rw [mem]
      exact houses
    cases strands.symm.trans (unstranded _ last)
  · by_contra ended
    obtain ⟨name, b, here, -⟩ := (ends 7 (by rw [live]; exact List.mem_cons_self)).1
      ⟨more, x'', later, fair', ended⟩
    rw [empty] at here
    cases here

/-- A thread whose buffer is freed by hand stays live with no buffer left, the entry that it has
sent is not counted, and an exit waits. -/
theorem freedByHand_strands :
    freedByHand.before.tracer.roster.live = [7] ∧ freedByHand.ended? = some 1 ∧
      freedByHand.after.buffers.map Prod.fst = [] ∧
      freedByHand.after.tracer.roster.live = [7] ∧ freedByHand.after.tracer.roster.total = 0 ∧
      freedByHand.after.beginExit.settle.exits = #[none] := by
  decide +kernel

end Shutdown

end AccessTrace
