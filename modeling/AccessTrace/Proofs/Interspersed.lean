import Mathlib
import AccessTrace.Proofs.Pauses
import AccessTrace.Proofs.Faithful
import AccessTrace.Proofs.Shares

/-!
# Histories of interspersed messages

Between two messages of a thread there may be any of others. At every moment, also when threads are
between their messages, the stream is accepted, and the history of a thread that has ended, and for
which all went well, is what its instructions called for (`Runs.histories`). For what was recorded
of each thread is the beginning of what it would have sent without a pause (`exists_shares`).
-/

namespace AccessTrace

namespace Session

/-- What is told in a turn is told by the thread of its buffer. -/
theorem Turn.of_told {t t' : Tracer Recorder} {before after : Option Buffer}
    {es es' added : List Entry} {told : Log}
    (turn : Turn t before es t' after es' added told) (tid : UInt64) :
    told.of tid = if before.any (·.tid = tid) then told else [] := by
  have talk : ∀ (b : Buffer) (payloads : List (List Entry)),
      (Log.talk b.tid b.registered payloads).of tid =
        if (some b).any (·.tid = tid) then Log.talk b.tid b.registered payloads else [] := by
    intro b payloads
    by_cases own : b.tid = tid
    · rw [if_pos (by simpa using own)]
      exact Log.of_own fun m mem => (Log.tid_of_mem_talk mem).trans own
    · rw [if_neg (by simpa using own)]
      exact Log.of_other fun m mem => Log.tid_of_mem_talk mem ▸ own
  cases turn with
  | idle => exact (ite_self _).symm
  | started => rfl
  | worked => exact talk _ _
  | finished => exact talk _ _
  | dropped => exact (ite_self _).symm

/-- What was recorded in a turn is what is told. -/
theorem Turned.sent {s s' : Session} {name machineName : String} {es es' added : List Entry}
    {told : Log} (turned : Turned s s' name machineName es es' added told) :
    Log.Sent s.tracer.pid (s.tracer.channel.since s'.tracer.channel) told := by
  obtain ⟨-, -, -, new, grown, sent⟩ := turned.turn.sends
  rw [Recorder.since, grown, ← Array.length_toList, List.drop_left]
  exact sent

end Session

namespace Shutdown

open Session

variable {pid : UInt32} {capacity : Nat} {threads : List TracedThread} {events : List Event}
  {x : Shutdown} {scheme : Instrumentation}

/-- In a run of traced threads in which exits go step by step each thread is at its stage, and what
the log has of it is what its actions sent. -/
theorem Runs.staged (runs : Runs { session := .begun none pid capacity } events x)
    (fair : ∀ e ∈ events, e.fair = true) (names : (threads.map (·.name)).Nodup)
    (tids : (threads.map (·.tid)).Nodup)
    (planned : ∀ th ∈ threads, ∀ d ∈ th.deeds, d.Planned scheme)
    (follows : Follows threads events) :
    ∃ log, Staged pid scheme.fetches threads events log x.session ∧
      ∀ tid, Log.Sent pid (toldBy events tid) (log.of tid) := by
  induction runs with
  | nil => exact ⟨[], staged_fresh pid capacity _ threads, fun _ => .nil⟩
  | @act events x name machineName action _ ih =>
    obtain ⟨log, staged, sent⟩ := ih (fun e mem => fair e (List.mem_append_left _ mem))
      follows.earlier
    obtain ⟨ownMachine, th, mem, ownName⟩ :=
      follows.own _ (List.mem_append_right _ List.mem_cons_self)
    obtain rfl : machineName = name := ownMachine
    obtain rfl : th.name = machineName := ownName
    have next := follows.order th mem
    rw [TracedThread.part_own rfl, List.map_append] at next
    obtain ⟨_, _, _, told, turned, staged'⟩ := staged.act names tids mem (planned th mem) next
    refine ⟨_, staged', fun tid => ?_⟩
    have mine : told.of tid = if (x.session.event th.name th.name action).isOf tid then told
      else [] := turned.turn.of_told tid
    rw [Log.of_append, mine]
    by_cases own : (x.session.event th.name th.name action).isOf tid = true
    · have last := turned.sent
      rw [staged.sound.process] at last
      rw [toldBy_own own, if_pos own]
      exact (sent tid).append last
    · rw [toldBy_other (.inl (Bool.eq_false_iff.2 own)), if_neg own, List.append_nil]
      exact sent tid
  | begin _ ih =>
    obtain ⟨log, staged, sent⟩ := ih fair follows
    exact ⟨log, staged.quiet staged.sound.beginExit rfl rfl, sent⟩
  | wait i waiting unread idle _ ih => exact ih fair follows
  | @close events x i total waiting read runs ih =>
    obtain ⟨log, staged, sent⟩ := ih fair follows
    have guarded := runs.guarded (guarded_begun none pid capacity) fair
    have sound := staged.sound.close (guarded.exited read) (guarded.idle i total read)
      (x.session.exits.setIfInBounds i (some total))
    exact ⟨log, staged.quiet sound rfl rfl, sent⟩

end Shutdown

theorem Sending.grown_run {α : Type} (p : Sending α) (c : Recorder) : c.Grown (p.run c).2 := by
  induction p generalizing c with
  | stop result => exact .refl c
  | send message next ih => exact (Recorder.grown_send c message).trans (ih _ _)

/-- What was recorded of an errand that is under way is the beginning of what it would send without
a pause. -/
theorem Suspended.prefix_sent {s : Session} {name : String} {u : Underway} {b : Buffer}
    (suspended : Suspended s name u b) (isOpen : s.tracer.channel.closed = false) :
    u.sent <+: (s.event name name u.errand.action).sent := by
  have grown := u.rest.grown_run (s.tracer.channel.record u.sent)
  rcases run : u.rest.run (s.tracer.channel.record u.sent) with ⟨⟨outcome, fate⟩, c⟩
  rw [run] at grown
  have acted := Session.act_eq_run suspended.here suspended.ready
    ((suspended.run _ isOpen rfl).trans run)
  rw [Session.conclude_withChannel] at acted
  obtain ⟨new, messages, -⟩ := grown.messages
  have whole : c.messages.toList = s.tracer.channel.messages.toList ++ (u.sent ++ new) :=
    messages.trans (List.append_assoc _ _ _)
  show _ <+: s.tracer.channel.since (s.act name name u.errand.action).2.tracer.channel
  rw [acted]
  show _ <+: s.tracer.channel.since c
  rw [Recorder.since, whole, ← Array.length_toList, List.drop_left]
  exact List.prefix_append _ _

/-- Executing and ending went well, as for events (`Event.succeeded`). -/
def Answered.succeeded (a : Answered) : Bool :=
  match a.action, a.outcome with
  | .execute _ _, .executed _ none _ => true
  | .execute _ _, _ => false
  | .finish, .count _ => true
  | .finish, _ => false
  | _, _ => true

namespace Split

/-- These threads have done what they were to do, in its order, up to what they are about to do. -/
structure Follows (threads : List TracedThread) (answers : List Answered) (y : Split) : Prop where
  own : ∀ a ∈ answers, ∃ th ∈ threads, th.name = a.name
  busy : ∀ name u, y.underway name = some u → ∃ th ∈ threads, th.name = name
  order : ∀ th ∈ threads, (answersOf th.name answers).map (·.action) ++
    ((y.underway th.name).map (·.errand.action)).toList <+: th.actions

variable {pid : UInt32} {capacity : Nat} {threads : List TracedThread} {answers : List Answered}
  {y : Split} {events : List Event} {x : Shutdown} {scheme : Instrumentation} {name : String}
  {u : Underway}

/-- What is over follows the threads. -/
theorem Follows.past (follows : Follows threads answers y)
    (mirrored : Mirrored answers y events x) : Session.Follows threads events where
  own := by
    intro e mem
    obtain ⟨th, among, name⟩ := follows.own e.answered
      (mirrored.answers ▸ List.mem_map_of_mem mem)
    exact ⟨(mirrored.threaded e mem).2, th, among, name⟩
  order := by
    intro th mem
    have order := follows.order th mem
    rw [← mirrored.answers, answersOf_map, List.map_map] at order
    exact (List.prefix_append _ _).trans order

/-- It still does when an action that is under way is added. -/
theorem Follows.next (follows : Follows threads answers y) (mirrored : Mirrored answers y events x)
    (busy : y.underway name = some u) :
    Session.Follows threads (events ++ [x.session.event name name u.errand.action]) where
  own := by
    intro e mem
    rcases List.mem_append.1 mem with old | new
    · exact (follows.past mirrored).own e old
    · rw [List.mem_singleton.1 new]
      exact ⟨rfl, follows.busy name u busy⟩
  order := by
    intro th mem
    by_cases own : th.name = name
    · subst own
      have order := follows.order th mem
      rw [busy, ← mirrored.answers, answersOf_map, List.map_map] at order
      rw [TracedThread.part_own rfl, List.map_append]
      exact order
    · rw [TracedThread.part_other (Ne.symm own)]
      exact (follows.past mirrored).order th mem

section
variable {log : Log} (coarse : Shutdown.Runs { session := .begun none pid capacity } events x)
  (mirrored : Mirrored answers y events x) (names : (threads.map (·.name)).Nodup)
  (tids : (threads.map (·.tid)).Nodup) (planned : ∀ th ∈ threads, ∀ d ∈ th.deeds, d.Planned scheme)
  (follows : Follows threads answers y)
include coarse mirrored names tids planned follows

/-- What was recorded of a thread whose errand is under way says the beginning of what an orderly
log has of it. -/
theorem share_of_underway (busy : y.underway name = some u) :
    ∃ share : Log, Log.Sent pid (y.said u.tid) share ∧ share.Orderly ∧
      share.registrations.Nodup ∧ ∀ m ∈ share, m.tid = u.tid := by
  obtain ⟨guarded, attached, fair⟩ := guarded_of_mirrored coarse mirrored
  obtain ⟨b, suspended⟩ := mirrored.underway name u busy
  have isOpen := guarded.isOpen suspended.here (attached name b suspended.here)
  have fair' : ∀ e ∈ events ++ [x.session.event name name u.errand.action], e.fair = true := by
    intro e mem
    rcases List.mem_append.1 mem with old | new
    · exact (fair e old).1
    · rw [List.mem_singleton.1 new]
      exact Event.fair_of_threaded u.errand.threaded (attached name)
  obtain ⟨log, staged, sent⟩ := (coarse.act name name u.errand.action).staged fair' names tids
    planned (follows.next mirrored busy)
  have own : (x.session.event name name u.errand.action).isOf u.tid = true := by
    show (x.session.buffers.get? name).any _ = true
    rw [suspended.here, Option.any_some, suspended.tid]
    exact decide_eq_true rfl
  have front : y.said u.tid <+:
      toldBy (events ++ [x.session.event name name u.errand.action]) u.tid := by
    rw [mirrored.tells.own name u busy, toldBy_own own, List.prefix_append_right_inj]
    exact suspended.prefix_sent isOpen
  have orderly := Log.orderly_iff.1 staged.sound.orderly u.tid
  have once := Log.nodup_registrations_iff.1 staged.once u.tid
  rw [← List.take_append_drop (y.said u.tid).length (log.of u.tid)] at orderly
  refine ⟨(log.of u.tid).take (y.said u.tid).length, ?_, orderly.front,
    once.sublist ((List.take_sublist _ _).filterMap _), fun m mem => ?_⟩
  · have said := List.forall₂_take (y.said u.tid).length (sent u.tid)
    rw [← List.prefix_iff_eq_take.1 front] at said
    exact said
  · exact of_decide_eq_true (List.mem_filter.1 (List.mem_of_mem_take mem)).2

/-- What was recorded of any thread is orderly, and complete unless an errand of it is under way. -/
theorem exists_shares : ∃ log, Session.Staged pid scheme.fetches threads events log x.session ∧
    ∃ merged : Log, Log.Sent pid (y.log.map Prod.snd) merged ∧ merged.Orderly ∧
      merged.registrations.Nodup ∧ ∀ tid, (∀ name u, y.underway name = some u → u.tid ≠ tid) →
        merged.of tid = log.of tid := by
  obtain ⟨-, -, fair⟩ := guarded_of_mirrored coarse mirrored
  obtain ⟨log, staged, sent⟩ :=
    coarse.staged (fun e mem => (fair e mem).1) names tids planned (follows.past mirrored)
  have each : ∀ tid, ∃ share : Log, Log.Sent pid (y.said tid) share ∧ share.Orderly ∧
      share.registrations.Nodup ∧ (∀ m ∈ share, m.tid = tid) ∧
        ((∀ name u, y.underway name = some u → u.tid ≠ tid) → share = log.of tid) := by
    intro tid
    by_cases busy : ∃ name u, y.underway name = some u ∧ u.tid = tid
    · obtain ⟨name, u, busy, rfl⟩ := busy
      obtain ⟨share, said, orderly, once, own⟩ :=
        share_of_underway coarse mirrored names tids planned follows busy
      exact ⟨share, said, orderly, once, own, fun idle => absurd rfl (idle name u busy)⟩
    · have idle : ∀ name u, y.underway name = some u → u.tid ≠ tid :=
        fun name u here same => busy ⟨name, u, here, same⟩
      refine ⟨log.of tid, ?_, Log.orderly_iff.1 staged.sound.orderly tid,
        Log.nodup_registrations_iff.1 staged.once tid,
        fun m mem => of_decide_eq_true (List.mem_filter.1 mem).2, fun _ => rfl⟩
      rw [mirrored.tells.others tid idle]
      exact sent tid
  choose share said orderly once own same using each
  obtain ⟨merged, speaks, shares⟩ := exists_merged Message.tid own said
  have shares : ∀ tid, Log.of tid merged = share tid := shares
  refine ⟨log, staged, merged, speaks, Log.orderly_iff.2 fun tid => ?_,
    Log.nodup_registrations_iff.2 fun tid => ?_, fun tid idle => ?_⟩
  · rw [shares]
    exact orderly tid
  · rw [shares]
    exact once tid
  · rw [shares]
    exact same tid idle

end

/-- At every moment of a run of traced threads, whatever comes between the messages of one, the
stream is accepted, and the history of a thread that has ended, and for which all went well, has its
process and exactly the entries that its instructions called for, in order. -/
theorem Runs.histories (runs : Runs (begun none pid capacity) answers y)
    (names : (threads.map (·.name)).Nodup) (tids : (threads.map (·.tid)).Nodup)
    (planned : ∀ th ∈ threads, ∀ d ∈ th.deeds, d.Planned scheme)
    (follows : Follows threads answers y) :
    ∃ history, History.ofBytes y.session.tracer.channel.stream = .ok history ∧
      ∀ th ∈ threads, (answersOf th.name answers).map (·.action) = th.actions →
        (∀ a ∈ answersOf th.name answers, a.succeeded = true) →
        ∃ h, history.thread? th.tid = some h ∧ h.pid = some pid ∧
          h.events.toList = Deed.calledAll scheme.fetches {} th.deeds := by
  obtain ⟨events, x, coarse, mirrored⟩ := runs.mirrored
  obtain ⟨log, staged, merged, sent, orderly, once, complete⟩ :=
    exists_shares coarse mirrored names tids planned follows
  obtain ⟨history, current, read, stands, -⟩ := (orderly.read pid).accepted once
  have carries := sent.carries
  rw [← mirrored.log] at carries
  refine ⟨history, (History.ofBytes_eq carries).trans read, fun th mem all well => ?_⟩
  have idle : ∀ name u, y.underway name = some u → u.tid ≠ th.tid := by
    intro name u busy same
    obtain ⟨other, mem', rfl⟩ := follows.busy name u busy
    obtain ⟨b, suspended⟩ := mirrored.underway other.name u busy
    have own := ((staged.stages other mem').buffer suspended.here).1
    rw [suspended.tid, same] at own
    obtain rfl := List.inj_on_of_nodup_map tids mem mem' own
    -- A thread that has done everything is not about to do more.
    have order := (follows.order th mem).length_le
    rw [all, busy, List.length_append] at order
    simp at order
  rw [← mirrored.answers, answersOf_map] at all well
  rw [List.map_map] at all
  obtain ⟨registered, called⟩ := (staged.stages th mem).complete all fun e among =>
    well _ (List.mem_map_of_mem among)
  rw [← Log.mem_registrations_of, ← complete th.tid idle, Log.mem_registrations_of] at registered
  rw [← Log.events_of, ← complete th.tid idle, Log.events_of] at called
  refine ⟨_, (stands.threads th.tid).trans (if_pos registered), rfl, ?_⟩
  rw [List.toList_toArray]
  exact called

end Split

end AccessTrace
