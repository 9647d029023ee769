import Mathlib
import AccessTrace.Proofs.Custody

/-!
# How actions are handled

Whatever an action does to the buffer under its name, all other buffers stay as they are, and
nothing but a `close` closes the channel (`handled_act`).
-/

namespace AccessTrace

namespace Session

theorem custody_same (action : Action) (r : Roster) (b : Option Buffer) :
    Custody action r b r b none none := by
  cases b with
  | none => exact .vacant
  | some b => exact .kept (.refl b)

variable {s : Session} {name machineName : String}

/-- Nothing happens. -/
theorem handled_idle {action : Action} {outcome : Outcome}
    (idle : s.act name machineName action = (outcome, s))
    (started : (s.event name machineName action).started? = none)
    (ended : (s.event name machineName action).ended? = none) (accepted : outcome.refused = false) :
    (s.event name machineName action).Handled := by
  have after : (s.event name machineName action).after = s := congrArg Prod.snd idle
  have result : (s.event name machineName action).outcome = outcome := congrArg Prod.fst idle
  refine ⟨?_, ?_, ?_, ?_, ?_, ?_⟩
  · rw [started, ended, after]
    exact custody_same _ _ _
  · rw [after]
    exact .refl _ _ _
  · rw [after]
    rfl
  · rw [after]
    exact .refl _
  · rw [after]
    exact fun _ => rfl
  · rw [result, accepted]
    intro refused
    cases refused

/-- A buffer that was taken out is put back. -/
theorem handled_put {action : Action} {outcome : Outcome} {s' : Session} {b b' : Buffer}
    {rest : Named Buffer} (acted : s.act name machineName action = (outcome, s'))
    (here : s.buffers.get? name = some b) (without : s.buffers.Without rest name)
    (buffers : s'.buffers = rest.put name b') (owner : b.SameOwner b')
    (machines : ∀ other ≠ machineName, s'.machine other = s.machine other)
    (exits : s'.exits = s.exits)
    (tracer : s'.tracer = { s.tracer with
      channel := { s.tracer.channel with messages := s'.tracer.channel.messages } })
    (grown : s.tracer.channel.Grown s'.tracer.channel)
    (started : (s.event name machineName action).started? = none)
    (ended : (s.event name machineName action).ended? = none)
    (refused : outcome.refused = true → s.tracer.channel.closed = true) :
    (s.event name machineName action).Handled := by
  have after : (s.event name machineName action).after = s' := congrArg Prod.snd acted
  have result : (s.event name machineName action).outcome = outcome := congrArg Prod.fst acted
  refine ⟨?_, ?_, ?_, ?_, ?_, ?_⟩
  · rw [started, ended, after, tracer, buffers]
    change Custody _ _ (s.buffers.get? name) _ ((rest.put name b').get? name) _ _
    rw [here, Named.get?_put, if_pos rfl]
    exact .kept owner
  · rw [after]
    exact elsewhere_put without buffers machines exits
  · rw [after, tracer]
    rfl
  · rw [after]
    exact grown
  · rw [after, tracer]
    exact fun _ => rfl
  · rw [result]
    exact refused

/-- A buffer that was taken out is gone. -/
theorem handled_gone {action : Action} {outcome : Outcome} {s' : Session} {b : Buffer} {n : Nat}
    {rest : Named Buffer} (acted : s.act name machineName action = (outcome, s'))
    (here : s.buffers.get? name = some b) (without : s.buffers.Without rest name)
    (distinct : s.buffers.Distinct) (buffers : s'.buffers = rest)
    (machines : s'.machines = s.machines) (exits : s'.exits = s.exits)
    (tracer : s'.tracer = { s.tracer with
      roster := s'.tracer.roster
      channel := { s.tracer.channel with messages := s'.tracer.channel.messages } })
    (grown : s.tracer.channel.Grown s'.tracer.channel)
    (started : (s.event name machineName action).started? = none)
    (ended : (s.event name machineName action).ended? = some n)
    (custody : Custody action s.tracer.roster (some b) s'.tracer.roster none none (some n))
    (refused : outcome.refused = true → s.tracer.channel.closed = true) :
    (s.event name machineName action).Handled := by
  have after : (s.event name machineName action).after = s' := congrArg Prod.snd acted
  have result : (s.event name machineName action).outcome = outcome := congrArg Prod.fst acted
  refine ⟨?_, ?_, ?_, ?_, ?_, ?_⟩
  · rw [started, ended, after, buffers]
    change Custody _ _ (s.buffers.get? name) _ (rest.get? name) _ _
    rw [here, without.get? distinct]
    exact custody
  · rw [after]
    exact elsewhere_gone without buffers machines exits
  · rw [after, tracer]
    rfl
  · rw [after]
    exact grown
  · rw [after, tracer]
    exact fun _ => rfl
  · rw [result]
    exact refused

/-- Letting go of a buffer ends its thread unless it was freed, or belongs to none. -/
theorem custody_discard (action : Action) (t : Tracer Recorder) (b : Buffer) :
    Custody action t.roster (some b) (t.discard b).roster none none (some b.refs) ∧
      t.discard b = { t with roster := (t.discard b).roster } := by
  unfold Tracer.discard
  split
  · rename_i ends
    rw [Bool.and_eq_true, decide_eq_true_iff] at ends
    exact ⟨.abandoned ends.1 ends.2, rfl⟩
  · rename_i nobody
    rw [Bool.and_eq_true, decide_eq_true_iff, not_and_or, not_not, Bool.not_eq_true] at nobody
    refine ⟨.released ?_, rfl⟩
    rcases nobody with detached | freed
    · exact .inl detached
    · exact .inr (.inl freed)

/-- Freeing a draining buffer ends nothing; any other is let go of. -/
theorem free_eq (t : Tracer Recorder) (b : Buffer) :
    (b.phase = .draining ∧ t.free b = (.ok b.refs, t)) ∨
      ∃ e, t.free b = (.error e, t.discard b) := by
  unfold Tracer.free Buffer.transition
  by_cases draining : b.phase = .draining
  · left
    refine ⟨draining, ?_⟩
    rw [if_pos (by rw [draining]; rfl)]
    simp [Except.map, Tracer.discard]
  · right
    rw [if_neg]
    · exact ⟨_, rfl⟩
    · cases phase : b.phase <;> simp_all [Phase.next?]

/-- Giving back an active buffer ends its thread; any other is let go of. -/
theorem finish_cases (t : Tracer Recorder) (b : Buffer) :
    (b.phase = .active ∧ ∃ messages answer refs,
      t.finish b = (answer, { t with
        roster := t.roster.leave b.tid refs, channel := { t.channel with messages } }) ∧
      t.channel.Grown { t.channel with messages } ∧
      (answer = .ok refs ∨ ∃ e, answer = .error (.trace e) ∧ refs = b.refs ∧
        (e = .channel .closed → t.channel.closed = true))) ∨
    ∃ e, t.finish b = (.error (.misuse e), t.discard b) := by
  by_cases active : b.phase = .active
  · left
    refine ⟨active, ?_⟩
    rcases flush : ({ b with phase := .draining } : Buffer).flush t.channel t.pid .forced
      with ⟨answer, b', c'⟩
    obtain ⟨frame, grown, refused⟩ := Buffer.flush_frame flush
    have tid : b'.tid = b.tid := (Buffer.flush_life flush).tid
    rw [Tracer.finish_eq active flush, tid]
    refine ⟨c'.messages, _, b'.refs, by rw [← frame], frame ▸ grown, ?_⟩
    cases answer with
    | ok outcome => exact .inl rfl
    | error e =>
      have refs : b'.refs = b.refs :=
        (Buffer.unsent_of_flush_error (b := { b with phase := .draining }) flush).refs
      refine .inr ⟨.channel e, rfl, refs, ?_⟩
      rintro ⟨⟩
      exact refused rfl
  · exact .inr ⟨_, Tracer.finish_inactive active⟩

theorem handled_start (s : Session) (name machineName : String) (tid : UInt64) :
    (s.event name machineName (.start tid)).Handled := by
  rcases started_or_idle s name machineName tid with
    ⟨b, here, same, _, running, new, fresh, started⟩ | ⟨outcome, failure, idle⟩
  · obtain ⟨others, distinct⟩ := (Named.without_self here).put b
    have opened : (s.event name machineName (.start tid)).started? = some b.tid := by
      rw [event, started, same]
      rfl
    refine ⟨?_, ?_, ?_, ?_, ?_, ?_⟩
    · rw [opened]
      rw [event, started]
      simp only [Event.buffer?, here]
      rw [Named.get?_put, if_pos rfl]
      exact .handed running new fresh
    · rw [event, started]
      exact ⟨others, distinct, fun _ _ => rfl, rfl⟩
    · rw [event, started]
    · rw [event, started]
      exact .refl _
    · rw [event, started]
      exact fun _ => rfl
    · rw [event, started]
      rintro ⟨⟩
  · rcases failure with rfl | ⟨e, other, rfl⟩
    · exact handled_idle idle (by rw [event, idle]; rfl) rfl rfl
    · refine handled_idle idle (by rw [event, idle]; rfl) rfl ?_
      rw [Outcome.refused, decide_eq_false_iff_not]
      exact fun failed => other _ (TraceError.closed_of_failure? failed)

theorem handled_allocate (s : Session) (name machineName : String) (tid : UInt64) (capacity : Nat) :
    (s.event name machineName (.allocate tid capacity)).Handled := by
  cases here : s.buffers.get? name with
  | some b =>
    have idle : s.act name machineName (.allocate tid capacity) = (.nameInUse, s) := by
      rw [act, here]
      rfl
    exact handled_idle idle rfl rfl rfl
  | none =>
    cases made : Buffer.new tid capacity with
    | error e =>
      have idle : s.act name machineName (.allocate tid capacity) = (.resourceError e, s) := by
        rw [act, here, made]
        rfl
      exact handled_idle idle rfl rfl rfl
    | ok b =>
      have kept : s.act name machineName (.allocate tid capacity) =
          (.ofBuffer b, { s with buffers := s.buffers.put name b }) := by
        rw [act, here, made]
        rfl
      have detached : b.attached = false := by
        unfold Buffer.new at made
        split at made
        · split at made
          · cases made
          · split at made
            · cases made
              rfl
            · cases made
        · cases made
      obtain ⟨others, distinct⟩ := (Named.without_self here).put b
      refine ⟨?_, ?_, ?_, ?_, ?_, ?_⟩
      · rw [event, kept]
        simp only [Event.buffer?, here]
        rw [Named.get?_put, if_pos rfl]
        exact .made ⟨_, _, rfl⟩ detached
      · rw [event, kept]
        exact ⟨others, distinct, fun _ _ => rfl, rfl⟩
      · rw [event, kept]
      · rw [event, kept]
        exact .refl _
      · rw [event, kept]
        exact fun _ => rfl
      · rw [event, kept]
        rintro ⟨⟩

/-- Only the channel is used. -/
theorem handled_channel {action : Action} {outcome : Outcome} {c : Recorder}
    (acted : s.act name machineName action = (outcome, { s with
      tracer := { s.tracer with channel := c } }))
    (frame : c = { s.tracer.channel with messages := c.messages, closed := c.closed })
    (grown : s.tracer.channel.Grown c)
    (closed : action ≠ .close → c.closed = s.tracer.channel.closed)
    (started : (s.event name machineName action).started? = none)
    (ended : (s.event name machineName action).ended? = none)
    (refused : outcome.refused = true → s.tracer.channel.closed = true) :
    (s.event name machineName action).Handled := by
  refine ⟨?_, ?_, ?_, ?_, ?_, ?_⟩
  · rw [started, ended, event, acted]
    exact custody_same _ _ _
  · rw [event, acted]
    exact ⟨fun _ _ => rfl, id, fun _ _ => rfl, rfl⟩
  · rw [event, acted]
    simp only
    rw [← frame]
  · rw [event, acted]
    exact grown
  · rw [event, acted]
    exact closed
  · rw [event, acted]
    exact refused

theorem handled_send (s : Session) (name machineName : String) (bytes : List UInt8) :
    (s.event name machineName (.send bytes)).Handled := by
  have frame := s.tracer.channel.send_frame bytes
  have grown := s.tracer.channel.grown_send bytes
  have closed := s.tracer.channel.closed_of_send bytes
  rcases send : s.tracer.channel.send bytes with ⟨answer, c⟩
  rw [send] at frame grown closed
  have acted : s.act name machineName (.send bytes) =
      (.ofUnit .channelError answer, { s with tracer := { s.tracer with channel := c } }) := by
    rw [act, send]
  refine handled_channel acted ?_ grown ?_ rfl rfl ?_
  · simp only at frame
    rw [frame]
  · intro _
    simp only at frame
    rw [frame]
  · intro refused
    apply closed
    cases answer with
    | ok _ => cases refused
    | error e => rw [Option.some.inj (of_decide_eq_true refused)]

theorem handled_setRegisters (s : Session) (name machineName : String)
    (values : List (Register × UInt64)) :
    (s.event name machineName (.setRegisters values)).Handled := by
  have elsewhere := (turned_setRegisters s name machineName values []).1.elsewhere
  obtain ⟨machines, acted⟩ := act_setRegisters s name machineName values
  rw [acted] at elsewhere
  rw [event, acted]
  exact ⟨custody_same _ _ _, elsewhere, rfl, .refl _, fun _ => rfl, by rintro ⟨⟩⟩

/-- What is done to a buffer under a name is handled, if it is handled for a buffer that there
is. -/
theorem handled_withBuffer {action : Action} {act' : Buffer → Session → Outcome × Session}
    (acts : s.act name machineName action = s.withBuffer name act')
    (started : (s.event name machineName action).started? = none)
    (vacant : s.buffers.get? name = none → (s.event name machineName action).ended? = none)
    (handled : ∀ b rest, s.buffers.get? name = some b → s.buffers.Without rest name →
      s.act name machineName action = act' b { s with buffers := rest } →
      (s.event name machineName action).Handled) :
    (s.event name machineName action).Handled := by
  rcases withBuffer_cases s name with ⟨absent, nothing⟩ | ⟨b, rest, here, without, taken⟩
  · exact handled_idle (acts.trans (nothing _)) started (vacant absent) rfl
  · exact handled b rest here without (acts.trans (taken _))

theorem handled_buffer (s : Session) (name machineName : String) (action : BufferAction) :
    (s.event name machineName (.buffer action)).Handled := by
  refine handled_withBuffer (by rw [act]) rfl (fun _ => rfl) fun b rest here without acted => ?_
  have owner := Buffer.SameOwner.apply b action
  have silent := BufferAction.failure?_apply b action
  rcases applied : action.apply b with ⟨outcome, b'⟩
  rw [applied] at owner silent
  simp only [applied] at acted
  refine handled_put acted here without rfl owner (fun _ _ => rfl) rfl rfl (.refl _) rfl rfl
    fun refused => ?_
  cases silent.symm.trans (of_decide_eq_true refused)

theorem handled_flush (s : Session) (name machineName : String) (policy : FlushPolicy) :
    (s.event name machineName (.flush policy)).Handled := by
  refine handled_withBuffer (by rw [act]) rfl (fun _ => rfl) fun b rest here without acted => ?_
  have kept := Host.kept_flush (s.machine machineName) b s.tracer policy
  rcases flush : s.tracer.flush b policy with ⟨answer, b', t⟩
  rw [flush] at kept
  simp only [flush] at acted
  exact handled_put acted here without rfl kept.owner (fun _ _ => rfl) rfl kept.tracer kept.grown
    rfl rfl fun refused => kept.refused (Outcome.closed_of_ofFlush refused)

theorem handled_flushAs (s : Session) (name machineName : String) (pid : UInt32)
    (policy : FlushPolicy) : (s.event name machineName (.flushAs pid policy)).Handled := by
  refine handled_withBuffer (by rw [act]) rfl (fun _ => rfl) fun b rest here without acted => ?_
  have kept := Host.kept_flush (s.machine machineName) b { s.tracer with pid } policy
  rcases flush : ({ s.tracer with pid } : Tracer Recorder).flush b policy with ⟨answer, b', t⟩
  rw [flush] at kept
  simp only [flush] at acted
  refine handled_put acted here without rfl kept.owner (fun _ _ => rfl) rfl ?_ kept.grown rfl rfl
    fun refused => kept.refused (Outcome.closed_of_ofFlush refused)
  have tracer : t = _ := kept.tracer
  simp only
  rw [tracer]

theorem handled_execute (s : Session) (name machineName : String) (plans : List InstructionPlan)
    (times : Nat) : (s.event name machineName (.execute plans times)).Handled := by
  refine handled_withBuffer (by rw [act]) rfl (fun _ => rfl) fun b rest here without acted => ?_
  obtain ⟨_, others⟩ := takeMachine_eq s.machines machineName
  rcases machines : takeMachine s.machines machineName with ⟨m, machines'⟩
  rw [machines] at others
  have kept := Host.kept_executeTimes ⟨m, b, s.tracer⟩ 0 plans times
  rcases run : Host.executeTimes ⟨m, b, s.tracer⟩ 0 plans times with ⟨done, answer, h'⟩
  rw [run] at kept
  simp only [execute, machines, run] at acted
  refine handled_put acted here without rfl kept.owner (fun other differs => ?_) rfl kept.tracer
    kept.grown rfl rfl fun refused => kept.refused ?_
  · simp only [machine]
    rw [Named.get?_put, if_neg differs, others other differs]
  · cases answer with
    | ok _ => cases refused
    | error e => rw [TraceError.closed_of_failure? (of_decide_eq_true refused)]

theorem handled_finish (distinct : s.buffers.Distinct) (name machineName : String) :
    (s.event name machineName .finish).Handled := by
  refine handled_withBuffer (by rw [act]) rfl (fun absent => ?_)
    fun b rest here without acted => ?_
  · simp only [Event.ended?, Event.buffer?, event, absent]
  · rcases finish_cases s.tracer b with
      ⟨active, messages, answer, refs, finish, grown, ended | ⟨e, ended, same, closed⟩⟩ |
      ⟨e, finish⟩
    · rw [ended] at finish
      simp only [finish] at acted
      refine handled_gone acted here without distinct rfl rfl rfl rfl grown rfl ?_
        (.returned rfl active refs) (by rintro ⟨⟩)
      simp only [Event.ended?, Event.buffer?, event, here, acted]
    · rw [ended] at finish
      simp only [finish] at acted
      refine handled_gone acted here without distinct rfl rfl rfl rfl grown rfl ?_
        (.returned rfl active refs) fun refused =>
          closed (TraceError.closed_of_failure? (of_decide_eq_true refused))
      simp only [Event.ended?, Event.buffer?, event, here, acted, same]
    · obtain ⟨custody, frame⟩ := custody_discard .finish s.tracer b
      simp only [finish] at acted
      refine handled_gone acted here without distinct rfl rfl rfl ?_ ?_ rfl ?_ custody
        (by rintro ⟨⟩)
      · simp only
        rw [frame]
      · simp only
        rw [frame]
        exact .refl _
      · simp only [Event.ended?, Event.buffer?, event, here, acted]

theorem handled_free (distinct : s.buffers.Distinct) (name machineName : String) :
    (s.event name machineName .free).Handled := by
  refine handled_withBuffer (by rw [act]) rfl (fun absent => ?_)
    fun b rest here without acted => ?_
  · simp only [Event.ended?, Event.buffer?, event, absent]
  · have ended : (s.event name machineName .free).ended? = some b.refs := by
      simp only [Event.ended?, Event.buffer?, event, here]
    rcases free_eq s.tracer b with ⟨draining, free⟩ | ⟨e, free⟩
    · simp only [free] at acted
      exact handled_gone acted here without distinct rfl rfl rfl rfl (.refl _) rfl ended
        (.released (.inr (.inr ⟨rfl, draining⟩))) (by rintro ⟨⟩)
    · obtain ⟨custody, frame⟩ := custody_discard .free s.tracer b
      simp only [free] at acted
      refine handled_gone acted here without distinct rfl rfl rfl ?_ ?_ rfl ended custody
        (by rintro ⟨⟩)
      · simp only
        rw [frame]
      · simp only
        rw [frame]
        exact .refl _

theorem handled_drop (distinct : s.buffers.Distinct) (name machineName : String) :
    (s.event name machineName .drop).Handled := by
  refine handled_withBuffer (by rw [act]) rfl (fun absent => ?_)
    fun b rest here without acted => ?_
  · simp only [Event.ended?, Event.buffer?, event, absent]
  · obtain ⟨custody, frame⟩ := custody_discard .drop s.tracer b
    refine handled_gone acted here without distinct rfl rfl rfl ?_ ?_ rfl ?_ custody
      (by rintro ⟨⟩)
    · simp only
      rw [frame]
    · simp only
      rw [frame]
      exact .refl _
    · simp only [Event.ended?, Event.buffer?, event, here]

/-- What an action does is handled: to its own buffer, to the roster, and to nothing else. -/
theorem handled_act (distinct : s.buffers.Distinct) (name machineName : String) (action : Action) :
    (s.event name machineName action).Handled := by
  cases action with
  | start tid => exact handled_start s name machineName tid
  | allocate tid capacity => exact handled_allocate s name machineName tid capacity
  | send bytes => exact handled_send s name machineName bytes
  | close =>
    exact handled_channel rfl rfl (Recorder.grown_close _) (absurd rfl) rfl rfl (by rintro ⟨⟩)
  | channel => exact handled_idle rfl rfl rfl rfl
  | setRegisters values => exact handled_setRegisters s name machineName values
  | machine => exact handled_idle rfl rfl rfl rfl
  | buffer action => exact handled_buffer s name machineName action
  | flush policy => exact handled_flush s name machineName policy
  | flushAs pid policy => exact handled_flushAs s name machineName pid policy
  | execute plans times => exact handled_execute s name machineName plans times
  | finish => exact handled_finish distinct name machineName
  | free => exact handled_free distinct name machineName
  | drop => exact handled_drop distinct name machineName

end Session

end AccessTrace
