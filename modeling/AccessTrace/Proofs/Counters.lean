import Mathlib
import AccessTrace.Proofs.Accounting
import AccessTrace.Proofs.Attempts

/-!
# Counts stay machine words

What the buffers count as sent was recorded, each entry with its bytes. So the counts of all
buffers, those of the threads that ended included, are at most a sixteenth of what the recorder
holds (`Runs.total_add_refs_le`). As long as it holds less than `16 * 2 ^ 64` bytes every sum is a
machine word, and no delivery can tell how sums that are none are treated (`Runs.flushChecked`).
-/

namespace AccessTrace

/-- The payloads that were taken are among what was sent. -/
theorem Event.payloads_sublist (e : Event) : e.payloads.Sublist e.sent := by
  have whole : e.whole.Sublist e.sent := by
    unfold Event.whole
    split
    · exact List.dropLast_sublist _
    · exact .refl _
  unfold payloads
  split
  · unfold Buffer.behind
    split
    · exact whole
    · exact (List.tail_sublist _).trans whole
  · exact List.nil_sublist _

theorem Account.payloads_le (a : Account) :
    a.payloads.flatten.length ≤ a.sent.flatten.length := by
  unfold payloads sent
  induction a.events with
  | nil => exact Nat.le_refl _
  | cons e events ih =>
    rw [List.flatMap_cons, List.flatMap_cons, List.flatten_append, List.flatten_append,
      List.length_append, List.length_append]
    exact Nat.add_le_add e.payloads_sublist.flatten.length_le ih

/-- What was counted when a buffer went away is what its account counts. -/
theorem Account.final_le_refs (s : Session) (a : Account) : a.final.getD 0 ≤ a.refs s := by
  unfold refs
  split
  next final => exact (congrArg (Option.getD · 0) final).le
  next final =>
    rw [final]
    exact Nat.zero_le _

section
variable {s : Session} {as : List Account}

/-- What the buffers count was recorded from them, with or without a limit. -/
theorem sum_refs_le {limit : Option Nat}
    (counts : ∀ a ∈ as, a.Counts limit (a.refs s) a.registered) :
    Entry.byteSize * (as.map (·.refs s)).sum ≤ (as.map (·.sent.flatten.length)).sum := by
  induction as with
  | nil => exact Nat.le_refl _
  | cons a as ih =>
    have own := (counts a List.mem_cons_self).refs
    have rest := ih fun c mem => counts c (List.mem_cons_of_mem _ mem)
    rw [List.map_cons, List.map_cons, List.sum_cons, List.sum_cons, Nat.mul_add, own]
    exact Nat.add_le_add a.payloads_le rest

/-- The threads that ended and one that has not are counted once each. -/
theorem sum_final_add_refs_le {a : Account} (mem : a ∈ as) (unended : a.final = none) :
    (as.map fun a => a.final.getD 0).sum + a.refs s ≤ (as.map (·.refs s)).sum := by
  have le : ∀ as : List Account,
      (as.map fun a => a.final.getD 0).sum ≤ (as.map (·.refs s)).sum :=
    fun as => List.sum_le_sum fun a _ => a.final_le_refs s
  obtain ⟨front, back, rfl⟩ := List.append_of_mem mem
  have before := le front
  have behind := le back
  simp only [List.map_append, List.map_cons, List.sum_append, List.sum_cons, unended,
    Option.getD_none]
  omega

end

namespace Shutdown

variable {limit : Option Nat} {pid : UInt32} {capacity : Nat} {events : List Event} {x : Shutdown}
  {name : String} {b : Buffer}

/-- What all buffers count, those that are gone included, was recorded. -/
theorem Runs.refs_le (runs : Runs { session := .begun limit pid capacity } events x)
    (counted : ∀ e ∈ events, e.action.Counted) (unfreed : ∀ e ∈ events, e.unfreed = true) :
    Entry.byteSize * ((accounts events).map (·.refs x.session)).sum ≤
      x.session.tracer.channel.stream.length := by
  rw [runs.recorded counted unfreed]
  exact sum_refs_le (runs.counts counted)

/-- So was the total of the threads that ended. -/
theorem Runs.total_le (runs : Runs { session := .begun limit pid capacity } events x)
    (counted : ∀ e ∈ events, e.action.Counted) (unfreed : ∀ e ∈ events, e.unfreed = true) :
    Entry.byteSize * x.session.tracer.roster.total ≤
      x.session.tracer.channel.stream.length := by
  refine Nat.le_trans (Nat.mul_le_mul_left _ ?_) (runs.refs_le counted unfreed)
  rw [(runs.ledger counted unfreed).1.total]
  exact List.sum_le_sum fun a _ => a.final_le_refs x.session

/-- The total that there would be if the thread of a buffer in use ended now was recorded too. -/
theorem Runs.total_add_refs_le (runs : Runs { session := .begun limit pid capacity } events x)
    (counted : ∀ e ∈ events, e.action.Counted) (unfreed : ∀ e ∈ events, e.unfreed = true)
    (here : x.session.buffers.get? name = some b) :
    Entry.byteSize * (x.session.tracer.roster.total + b.refs) ≤
      x.session.tracer.channel.stream.length := by
  obtain ⟨a, mem, unended, same⟩ :=
    (runs.stands counted).1.known name b here ((runs.attached counted).1 name b here)
  have refs : a.refs x.session = b.refs := by
    rw [Account.refs, unended, Account.buffer?, if_pos unended, same, here]
    rfl
  refine Nat.le_trans (Nat.mul_le_mul_left _ ?_) (runs.refs_le counted unfreed)
  rw [(runs.ledger counted unfreed).1.total, ← refs]
  exact sum_final_add_refs_le mem unended

/-- As long as less than `16 * 2 ^ 64` bytes were recorded each count is a machine word, and the
count of no thread takes the total out of the machine words. -/
theorem Runs.counts_fit (runs : Runs { session := .begun limit pid capacity } events x)
    (counted : ∀ e ∈ events, e.action.Counted) (unfreed : ∀ e ∈ events, e.unfreed = true)
    (room : x.session.tracer.channel.stream.length < Entry.byteSize * wordLimit) :
    x.session.tracer.roster.total < wordLimit ∧
      ∀ name b, x.session.buffers.get? name = some b →
        x.session.tracer.roster.total + b.refs < wordLimit :=
  ⟨Nat.lt_of_mul_lt_mul_left (Nat.lt_of_le_of_lt (runs.total_le counted unfreed) room),
    fun _ _ here => Nat.lt_of_mul_lt_mul_left
      (Nat.lt_of_le_of_lt (runs.total_add_refs_le counted unfreed here) room)⟩

/-- Where there is room for what is in the buffer, its delivery does the same whether sums are
checked or wrap, and it is the delivery by which the session goes on. -/
theorem Runs.flushChecked (runs : Runs { session := .begun limit pid capacity } events x)
    (counted : ∀ e ∈ events, e.action.Counted) (unfreed : ∀ e ∈ events, e.unfreed = true)
    (here : x.session.buffers.get? name = some b)
    (room : x.session.tracer.channel.stream.length + Entry.byteSize * b.occupied <
      Entry.byteSize * wordLimit) (arithmetic : Arithmetic) (policy : FlushPolicy) :
    b.flushChecked arithmetic x.session.tracer.channel x.session.tracer.pid policy =
      (.ok (b.flush x.session.tracer.channel x.session.tracer.pid policy).1,
        (b.flush x.session.tracer.channel x.session.tracer.pid policy).2) := by
  have recorded := runs.total_add_refs_le counted unfreed here
  rw [Nat.mul_add] at recorded
  refine Buffer.flushChecked_of_lt (Nat.lt_of_mul_lt_mul_left (a := Entry.byteSize) ?_)
  rw [Nat.mul_add]
  omega

end Shutdown

end AccessTrace
