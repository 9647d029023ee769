import Mathlib
import AccessTrace.Commands
import AccessTrace.Proofs.Coherence

/-!
# What a summary accounts for

Every entry that a history does not ignore is noted with one thread: as the header that opened it,
as its process, as one of its messages or as an event (`ThreadHistory.records`). One more entry
makes one more record or is ignored (`Pushed.noted`), so that the records of all threads and the
entries that were ignored add up to all that were read. A summary is made of streams of which
nothing was ignored; there the records are the entries (`summary_accounts`).
-/

namespace AccessTrace

/-! ### The records of a thread -/

/-- The records of a stream that went into what is known of a thread: its first header, its process
if that is known, the headers of its messages and its events. -/
def ThreadHistory.records (t : ThreadHistory) : Nat :=
  1 + t.pid.isSome.toNat + t.messages + t.events.size

/-- The records that the report on a thread accounts for. -/
def ThreadSummary.records (t : ThreadSummary) : Nat :=
  1 + t.pid.isSome.toNat + t.messages + t.reads + t.writes + t.fetches

/-- Events are reads, writes and fetches. -/
theorem countP_kinds {es : List Entry} (events : ∀ e ∈ es, e.kind.isEvent = true) :
    es.countP (·.kind = .read) + es.countP (·.kind = .write) + es.countP (·.kind = .fetch) =
      es.length := by
  induction es with
  | nil => rfl
  | cons e es ih =>
    obtain ⟨event, rest⟩ := List.forall_mem_cons.1 events
    have all := ih rest
    simp only [List.countP_cons, List.length_cons]
    cases kind : e.kind <;> simp_all [Entry.Kind.isEvent] <;> omega

theorem ThreadHistory.count_events {t : ThreadHistory}
    (events : ∀ e ∈ t.events, e.kind.isEvent = true) :
    t.count .read + t.count .write + t.count .fetch = t.events.size := by
  rw [← Array.length_toList]
  exact countP_kinds fun e mem => events e (Array.mem_toList_iff.1 mem)

/-- The report on a thread accounts for all of its records, with its events or without. -/
theorem ThreadHistory.records_summary {t : ThreadHistory}
    (events : ∀ e ∈ t.events, e.kind.isEvent = true) (withEvents : Bool) :
    (t.summary withEvents).records = t.records := by
  have all := count_events events
  simp only [ThreadSummary.records, summary, records]
  omega

namespace Threads

theorem get?_of_mem {ts : Threads} (ascending : ts.Ascending) {tid : UInt64} {t : ThreadHistory}
    (mem : (tid, t) ∈ ts) : ts.get? tid = some t := by
  induction ts with
  | nil => cases mem
  | cons head rest ih =>
    obtain ⟨u, x⟩ := head
    obtain ⟨first, later⟩ := List.pairwise_cons.1 ascending
    rw [get?_cons]
    rcases List.mem_cons.1 mem with here | behind
    · cases here
      exact if_pos rfl
    · have after : u < tid := first _ behind
      rw [if_neg (UInt64.ne_of_lt after).symm]
      exact ih later behind

/-- No thread stands there twice. -/
theorem Ascending.length_le_one {ts : Threads} (ascending : ts.Ascending) {current : Option UInt64}
    (same : ∀ p ∈ ts, current = some p.1) : ts.length ≤ 1 := by
  rcases ts with _ | ⟨p, _ | ⟨q, rest⟩⟩
  · exact Nat.zero_le 1
  · exact Nat.le_refl 1
  · have first := same p (by simp)
    rw [same q (by simp), Option.some.injEq] at first
    have before : p.1 < q.1 := (List.pairwise_cons.1 ascending).1 q (by simp)
    exact absurd first (UInt64.ne_of_lt before).symm

/-- The records of all threads. -/
def records (ts : Threads) : Nat := (ts.map fun p => p.2.records).sum

theorem records_cons (tid : UInt64) (t : ThreadHistory) (ts : Threads) :
    records ((tid, t) :: ts) = t.records + ts.records := rfl

/-- A header is a record of its thread, be it the first one or not. -/
theorem records_enter (tid : UInt64) (ts : Threads) : (enter tid ts).records = ts.records + 1 := by
  induction ts with
  | nil => rfl
  | cons head rest ih =>
    obtain ⟨u, x⟩ := head
    unfold enter
    split
    · simp only [records_cons, ThreadHistory.records]
      omega
    · split
      · rw [records_cons, Nat.add_comm]
        rfl
      · rw [records_cons, records_cons, ih]
        omega

/-- One more record of a thread that is known. -/
theorem records_modify {ts : Threads} {tid : UInt64} {t : ThreadHistory}
    {f : ThreadHistory → ThreadHistory} (here : ts.get? tid = some t)
    (more : (f t).records = t.records + 1) : (modify tid f ts).records = ts.records + 1 := by
  induction ts with
  | nil => cases here
  | cons head rest ih =>
    obtain ⟨u, x⟩ := head
    rw [get?_cons] at here
    unfold modify
    split
    · rename_i own
      rw [if_pos own.symm, Option.some.injEq] at here
      rw [records_cons, records_cons, here, more]
      omega
    · rename_i other
      rw [if_neg (Ne.symm other)] at here
      rw [records_cons, records_cons, ih here]
      omega

end Threads

namespace History

variable {h h' : History} {e : Entry} {es : List Entry} {answer : Except StreamError Unit}

/-- An entry makes one record of one thread, or none if it is ignored. -/
theorem Pushed.noted (pushed : Pushed h e answer h') (coherent : Coherent h) :
    h'.threads.records = h.threads.records + answer.toBool.toNat := by
  cases pushed with
  | ignored _ => rfl
  | header _ _ => exact Threads.records_enter _ _
  | process _ current unregistered =>
    obtain ⟨t, here⟩ := coherent.current _ current
    rw [pid?_of_thread? here] at unregistered
    refine Threads.records_modify here ?_
    simp only [ThreadHistory.records, unregistered, Option.isSome_none, Option.isSome_some,
      Bool.toNat_true, Bool.toNat_false]
    omega
  | event _ current _ =>
    obtain ⟨t, here⟩ := coherent.current _ current
    refine Threads.records_modify here ?_
    simp only [ThreadHistory.records, Array.size_push]
    omega

/-- The records of all threads are the entries that were not ignored. -/
theorem noted_pushAll (coherent : Coherent h) (es : List Entry) :
    (h.pushAll es).2.threads.records =
      h.threads.records + (h.pushAll es).1.countP Except.toBool := by
  induction es generalizing h with
  | nil => rfl
  | cons e es ih =>
    have first := (pushed h e).noted coherent
    rw [pushAll, ih (coherent.next (pushed h e)), first, List.countP_cons]
    cases (h.push e).1 with
    | ok _ =>
      simp only [Except.toBool, Bool.toNat_true, if_true]
      omega
    | error _ => rfl

/-- Entries that are read to the last are told one by one, and none is ignored. -/
theorem pushAll_of_readAll (read : h.readAll es = .ok h') :
    h.pushAll es = (es.map fun _ => .ok (), h') := by
  induction es generalizing h with
  | nil =>
    cases read
    rfl
  | cons e es ih =>
    rw [readAll] at read
    split at read
    · rename_i next told
      simp only [pushAll, told, ih read, List.map_cons]
    · cases read

/-- An accepted stream is as long as its entries are, each of them is a record of some thread, and
the history is coherent. -/
theorem noted_of_accepted {bytes : List UInt8} (accepted : ofBytes bytes = .ok h) :
    bytes.length = Entry.byteSize * h.entriesSeen ∧ h.threads.records = h.entriesSeen ∧
      Coherent h := by
  obtain ⟨es, carries, read⟩ := carries_of_accepted accepted
  have told := pushAll_of_readAll read
  have seen := entriesSeen_readAll read
  have noted := noted_pushAll coherent_empty es
  have coherent := coherent_pushAll es
  have count := congrArg List.length carries.reads
  have whole := carries.whole
  rw [told] at noted coherent
  rw [records, List.length_map, length_groups, List.length_map] at count
  refine ⟨?_, ?_, coherent⟩
  · simp only [Entry.byteSize] at *
    omega
  · have all : (es.map fun _ => (.ok () : Except StreamError Unit)).countP Except.toBool =
        es.length := by
      rw [List.countP_map]
      exact List.countP_eq_length.2 fun _ _ => rfl
    rw [noted, seen, all]
    rfl

/-- Of the threads only the current one can have no process. -/
theorem Coherent.countP_unregistered (coherent : Coherent h) :
    h.threads.countP (·.2.pid.isNone) ≤ 1 := by
  have ascending : Threads.Ascending (h.threads.filter (·.2.pid.isNone)) :=
    coherent.ascending.filter _
  have current : ∀ p ∈ h.threads.filter (·.2.pid.isNone), h.current = some p.1 := by
    rintro ⟨tid, t⟩ mem
    obtain ⟨known, unregistered⟩ := List.mem_filter.1 mem
    by_contra other
    obtain ⟨pid, registered⟩ :=
      coherent.registered tid t (Threads.get?_of_mem coherent.ascending known) other
    simp [registered] at unregistered
  rw [List.countP_eq_length_filter]
  exact ascending.length_le_one current

end History

/-- The consumer accepts a stream, from a file or through a pipe, and this is its report. -/
def Reports (bytes : List UInt8) (withEvents : Bool) (s : Summary) : Prop :=
  summarizeFile (.ok bytes) withEvents = .ok s ∨
    ∃ name pipes, summarizePipe name pipes bytes withEvents = .ok s

variable {bytes : List UInt8} {withEvents : Bool} {s : Summary}

theorem orComplain_eq_ok_iff {ε α : Type} {deed : String} {texts : ε → List String}
    {result : Except ε α} {value : α} :
    orComplain deed texts result = .ok value ↔ result = .ok value := by
  cases result <;> simp [orComplain, Except.mapError]

theorem bind_eq_ok_iff {ε α β : Type} {first : Except ε α} {next : α → Except ε β} {value : β} :
    (first >>= next) = .ok value ↔ ∃ a, first = .ok a ∧ next a = .ok value := by
  cases first <;> simp [bind, Except.bind]

/-- A report is that on the history of its stream. -/
theorem reports_iff :
    Reports bytes withEvents s ↔
      ∃ h, History.ofBytes bytes = .ok h ∧ s = h.summary withEvents := by
  constructor
  · rintro (file | ⟨name, pipes, pipe⟩)
    · simp only [summarizeFile, bind_eq_ok_iff, orComplain_eq_ok_iff] at file
      obtain ⟨_, ⟨⟩, h, accepted, ⟨⟩⟩ := file
      exact ⟨h, accepted, rfl⟩
    · simp only [summarizePipe, bind_eq_ok_iff, orComplain_eq_ok_iff] at pipe
      obtain ⟨_, _, h, accepted, ⟨⟩⟩ := pipe
      exact ⟨h, accepted, rfl⟩
  · rintro ⟨h, accepted, rfl⟩
    left
    simp only [summarizeFile, bind_eq_ok_iff, orComplain_eq_ok_iff]
    exact ⟨bytes, rfl, h, accepted, rfl⟩

/-- What a report accounts for: the stream is as long as its entries, and each entry is one of the
records of the threads, which stand in order. The reads, writes and fetches of a thread are its
events, all of them and nothing else, whether they are part of the report or not. One thread at most
has no process. -/
theorem summary_accounts (reports : Reports bytes withEvents s) :
    bytes.length = 16 * s.entries ∧
      s.threads.Pairwise (fun p q => p.1 < q.1) ∧
      s.entries = (s.threads.map fun p => p.2.records).sum ∧
      s.threads.countP (·.2.pid.isNone) ≤ 1 ∧
      ∃ h, History.ofBytes bytes = .ok h ∧
        (∀ tid, tid ∈ s.threads.map Prod.fst ↔ ∃ x, h.thread? tid = some x) ∧
        ∀ tid t, (tid, t) ∈ s.threads → ∃ x, h.thread? tid = some x ∧
          t.reads + t.writes + t.fetches = x.events.size ∧
          (∀ e ∈ x.events, e.kind ≠ .thread ∧ e.kind ≠ .process) ∧
          t.events = if withEvents then some x.events.toList else none := by
  obtain ⟨h, accepted, rfl⟩ := reports_iff.1 reports
  obtain ⟨length, noted, coherent⟩ := History.noted_of_accepted accepted
  have threads : (h.summary withEvents).threads =
      h.threads.map fun p => (p.1, p.2.summary withEvents) := rfl
  have events : ∀ p ∈ h.threads, ∀ e ∈ p.2.events, e.kind.isEvent = true := fun p mem =>
    coherent.events p.1 p.2 (Threads.get?_of_mem coherent.ascending mem)
  rw [threads]
  refine ⟨length, List.pairwise_map.2 coherent.ascending, ?_, ?_, h, accepted, fun tid => ?_,
    fun tid t mem => ?_⟩
  · rw [List.map_map]
    refine noted.symm.trans (congrArg List.sum (List.map_congr_left fun p mem => ?_))
    exact (ThreadHistory.records_summary (events p mem) withEvents).symm
  · rw [List.countP_map]
    exact coherent.countP_unregistered
  · simp only [List.map_map, List.mem_map, Function.comp_apply, Prod.exists]
    constructor
    · rintro ⟨u, x, mem, rfl⟩
      exact ⟨x, Threads.get?_of_mem coherent.ascending mem⟩
    · rintro ⟨x, here⟩
      exact ⟨tid, x, Threads.mem_of_get? here, rfl⟩
  · obtain ⟨⟨u, x⟩, known, same⟩ := List.mem_map.1 mem
    cases same
    have all := events _ known
    refine ⟨x, Threads.get?_of_mem coherent.ascending known, ThreadHistory.count_events all,
      fun e inside => ?_, rfl⟩
    rcases Entry.Kind.isEvent_iff.1 (all e inside) with kind | kind | kind <;> simp [kind]

/-- A thread with all sorts of events, and one of which there is only the first header. -/
def halfRegistered : List UInt8 :=
  Grammar.recordsOf [.thread 2, .process 9, .thread 2, .fetch 0x0f0b 2 0x400000, .read 8 0x10,
    .write 4 0x20, .thread 1]

theorem summary_accounts_halfRegistered :
    ∃ s, Reports halfRegistered true s ∧ halfRegistered.length = 16 * s.entries ∧
      s.entries = (s.threads.map fun p => p.2.records).sum ∧
      s.threads.map (fun p => p.2.records) = [1, 6] := by
  have accepted : History.ofBytes halfRegistered = .ok
      { threads := [(1, {}), (2, { pid := some 9, messages := 1, events :=
          #[.fetch 0x0f0b 2 0x400000, .read 8 0x10, .write 4 0x20] })],
        current := some 1, entriesSeen := 7 } := by
    rw [History.ofBytes_eq_scanned]
    decide +kernel
  have reports : Reports halfRegistered true _ := reports_iff.2 ⟨_, accepted, rfl⟩
  obtain ⟨length, -, entries, -⟩ := summary_accounts reports
  exact ⟨_, reports, length, entries, by decide⟩

end AccessTrace
