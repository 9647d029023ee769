import Mathlib
import AccessTrace.Proofs.Progress

/-!
# What a log has of each thread

Whether a log is orderly, whether a thread registers twice and what there is to know of it depends
on the messages of each thread alone (`orderly_iff`, `nodup_registrations_iff`, `registrations_of`,
`events_of`). So when the messages of threads are sent in any order that keeps those of each thread
in theirs, there is a log of what is sent (`exists_merged`).
-/

namespace AccessTrace

/-- The thread that a message comes from. -/
def Message.tid : Message → UInt64
  | registration tid => tid
  | payload tid _ => tid

namespace Log

/-- The messages of a thread. -/
def of (tid : UInt64) (log : Log) : Log := log.filter (·.tid = tid)

variable {log : Log} {m : Message} {tid : UInt64}

theorem of_append (tid : UInt64) (log more : Log) :
    of tid (log ++ more) = log.of tid ++ more.of tid := List.filter_append _ _

theorem of_own (own : ∀ m ∈ log, m.tid = tid) : log.of tid = log :=
  List.filter_eq_self.2 fun m mem => decide_eq_true (own m mem)

theorem of_other (other : ∀ m ∈ log, m.tid ≠ tid) : log.of tid = [] :=
  List.filter_eq_nil_iff.2 fun m mem same => other m mem (of_decide_eq_true same)

/-- What a thread sends is its own. -/
theorem tid_of_mem_talk {registered : Bool} {payloads : List (List Entry)}
    (mem : m ∈ talk tid registered payloads) : m.tid = tid := by
  rw [talk_eq, List.mem_append] at mem
  rcases mem with registration | payload
  · split at registration
    · cases registration
    · rw [List.mem_singleton.1 registration]
      rfl
  · obtain ⟨es, -, rfl⟩ := List.mem_map.1 payload
    rfl

/-- The registrations of a thread are among its own messages. -/
theorem registrations_of (tid : UInt64) (log : Log) :
    (log.of tid).registrations = log.registrations.filter (· = tid) := by
  rw [registrations, registrations, of, List.filterMap_filter, List.filter_filterMap]
  refine List.filterMap_congr fun m _ => ?_
  cases m with
  | registration t => rfl
  | payload t events => exact ite_self none

theorem mem_registrations_of : tid ∈ (log.of tid).registrations ↔ tid ∈ log.registrations := by
  rw [registrations_of, List.mem_filter, decide_eq_true_eq, and_iff_left rfl]

/-- No thread registers twice exactly if none does so in its own messages. -/
theorem nodup_registrations_iff :
    log.registrations.Nodup ↔ ∀ tid, (log.of tid).registrations.Nodup := by
  constructor
  · intro once tid
    rw [registrations_of]
    exact once.filter _
  · intro each
    rw [List.nodup_iff_count_le_one]
    intro tid
    have once := List.nodup_iff_count_le_one.1 (each tid) tid
    rw [registrations_of, List.count_filter (by simp)] at once
    exact once

/-- The events of a thread are in its own messages. -/
theorem events_of (tid : UInt64) (log : Log) : (log.of tid).events tid = log.events tid := by
  induction log with
  | nil => rfl
  | cons m log ih =>
    show _ = m.eventsOf tid ++ events tid log
    rw [← ih]
    by_cases own : m.tid = tid
    · rw [of, List.filter_cons_of_pos (by simpa using own)]
      rfl
    · have silent : m.eventsOf tid = [] := by
        cases m with
        | registration t => rfl
        | payload t events => exact if_neg own
      rw [of, List.filter_cons_of_neg (by simpa using own), silent]
      rfl

/-- A message that may come behind these. -/
def Allows (log : Log) : Message → Prop
  | .registration _ => True
  | .payload tid events => tid ∈ log.registrations ∧ ∀ e ∈ events, e.kind.isEvent = true

theorem orderly_snoc_iff : Orderly (log ++ [m]) ↔ log.Orderly ∧ log.Allows m := by
  constructor
  · intro orderly
    generalize whole : log ++ [m] = all at orderly
    cases orderly with
    | nil => exact absurd whole (by simp)
    | registration tid orderly =>
      obtain ⟨rfl, last⟩ := List.append_inj' whole rfl
      obtain rfl := List.head_eq_of_cons_eq last
      exact ⟨orderly, trivial⟩
    | payload orderly registered events =>
      obtain ⟨rfl, last⟩ := List.append_inj' whole rfl
      obtain rfl := List.head_eq_of_cons_eq last
      exact ⟨orderly, registered, events⟩
  · rintro ⟨orderly, allows⟩
    cases m with
    | registration tid => exact orderly.registration tid
    | payload tid events => exact orderly.payload allows.1 allows.2

/-- Whether a message may come behind others depends on those of its thread. -/
theorem allows_of : (log.of m.tid).Allows m ↔ log.Allows m := by
  cases m with
  | registration tid => exact Iff.rfl
  | payload tid events => exact and_congr_left fun _ => mem_registrations_of

theorem Orderly.front {more : Log} (orderly : Orderly (log ++ more)) : log.Orderly := by
  induction more using List.reverseRecOn with
  | nil =>
    rw [List.append_nil] at orderly
    exact orderly
  | append_singleton more m ih =>
    rw [← List.append_assoc] at orderly
    exact ih (orderly_snoc_iff.1 orderly).1

/-- A log is orderly exactly if what it has of each thread is. -/
theorem orderly_iff : log.Orderly ↔ ∀ tid, (log.of tid).Orderly := by
  induction log using List.reverseRecOn with
  | nil => exact ⟨fun _ _ => .nil, fun _ => .nil⟩
  | append_singleton log m ih =>
    have own : of m.tid (log ++ [m]) = of m.tid log ++ [m] := by
      have last : of m.tid [m] = [m] := of_own (by simp)
      rw [of_append, last]
    have other : ∀ tid ≠ m.tid, of tid (log ++ [m]) = of tid log := by
      intro tid differs
      have last : of tid [m] = [] := of_other (by simpa using differs.symm)
      rw [of_append, last, List.append_nil]
    rw [orderly_snoc_iff, ih, ← allows_of]
    constructor
    · rintro ⟨each, allows⟩ tid
      by_cases same : tid = m.tid
      · rw [same, own, orderly_snoc_iff]
        exact ⟨each m.tid, allows⟩
      · rw [other tid same]
        exact each tid
    · intro each
      have last := each m.tid
      rw [own, orderly_snoc_iff] at last
      refine ⟨fun tid => ?_, last.2⟩
      by_cases same : tid = m.tid
      · rw [same]
        exact last.1
      · rw [← other tid same]
        exact each tid

end Log

/-- What each sender says can be put in the order in which the senders were heard. -/
theorem exists_merged {κ α β : Type} [DecidableEq κ] {R : α → β → Prop} (sender : β → κ)
    {heard : List (κ × α)} {parts : κ → List β} (own : ∀ k, ∀ q ∈ parts k, sender q = k)
    (told : ∀ k, List.Forall₂ R ((heard.filter (·.1 = k)).map Prod.snd) (parts k)) :
    ∃ merged, List.Forall₂ R (heard.map Prod.snd) merged ∧
      ∀ k, merged.filter (sender · = k) = parts k := by
  induction heard generalizing parts with
  | nil =>
    refine ⟨[], .nil, fun k => ?_⟩
    rw [List.forall₂_nil_left_iff.1 (told k)]
    rfl
  | cons first heard ih =>
    obtain ⟨k, a⟩ := first
    have mine := told k
    rw [List.filter_cons_of_pos (by simp), List.map_cons] at mine
    generalize part : parts k = qs at mine
    obtain - | @⟨_, q, _, rest, here, later⟩ := mine
    have sender_q : sender q = k := own k q (part ▸ List.mem_cons_self)
    obtain ⟨merged, speaks, shares⟩ := @ih (Function.update parts k rest)
      (fun k' q' mem => by
        rw [Function.update_apply] at mem
        split at mem
        · rename_i same
          subst same
          exact own k' q' (part ▸ List.mem_cons_of_mem _ mem)
        · exact own k' q' mem)
      (fun k' => by
        rw [Function.update_apply]
        split
        · rename_i same
          rw [same]
          exact later
        · rename_i differs
          have others := told k'
          rw [List.filter_cons_of_neg (by simpa using Ne.symm differs)] at others
          exact others)
    refine ⟨q :: merged, .cons here speaks, fun k' => ?_⟩
    by_cases same : k' = k
    · rw [same, List.filter_cons_of_pos (by simpa using sender_q), shares, Function.update_self,
        part]
    · rw [List.filter_cons_of_neg (by simpa [sender_q] using Ne.symm same), shares,
        Function.update_of_ne same]

end AccessTrace
