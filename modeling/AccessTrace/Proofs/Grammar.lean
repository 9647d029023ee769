import Mathlib
import AccessTrace.Proofs.Codec
import AccessTrace.Proofs.Replay
import AccessTrace.Proofs.Scanning

/-!
# The grammar of streams

The records of a stream are events (type codes 0 to 2), thread headers (3) and processes (4). A
stream is grammatical when it starts with a thread header and has a process behind the first header
of every thread and nowhere else. The grammar speaks of the bytes of a stream alone; what a history
knows after the first records (`ReadTo`) is kept by every record that does not offend against it
(`ReadTo.next`), and the first that does is the one that is rejected (`ReadTo.fault`).
-/

namespace AccessTrace.Grammar

variable (bytes : List UInt8)

/-- The number of whole records. -/
def recordCount : Nat := bytes.length / Entry.byteSize

/-- The type code of a record. -/
def codeAt (i : Nat) : Nat := Entry.wordAt bytes (i * Entry.byteSize + Entry.kindOffset) 2

/-- The address or identifier of a record. -/
def addrAt (i : Nat) : UInt64 :=
  UInt64.ofNat (Entry.wordAt bytes (i * Entry.byteSize + Entry.addrOffset) 8)

/-- A record is a header of thread `tid`. -/
def HeaderAt (i : Nat) (tid : UInt64) : Prop := codeAt bytes i = 3 ∧ addrAt bytes i = tid

instance (i : Nat) (tid : UInt64) : Decidable (HeaderAt bytes i tid) :=
  inferInstanceAs (Decidable (_ ∧ _))

/-- A record is the first header of thread `tid`. -/
structure OpensAt (i : Nat) (tid : UInt64) : Prop where
  header : HeaderAt bytes i tid
  first : ∀ j < i, ¬HeaderAt bytes j tid

/-- The thread of the last header before a record. -/
def headerBefore : Nat → Option UInt64
  | 0 => none
  | i + 1 => if codeAt bytes i = 3 then some (addrAt bytes i) else headerBefore i

/-- A record is an event whose last header names thread `tid`. -/
def EventAt (i : Nat) (tid : UInt64) : Prop :=
  codeAt bytes i < 3 ∧ headerBefore bytes i = some tid

instance (i : Nat) (tid : UInt64) : Decidable (EventAt bytes i tid) :=
  inferInstanceAs (Decidable (_ ∧ _))

/-- A stream that keeps to the grammar. -/
structure Grammatical : Prop where
  whole : bytes.length % Entry.byteSize = 0
  known : ∀ i < recordCount bytes, codeAt bytes i ≤ 4
  starts : 0 < recordCount bytes → codeAt bytes 0 = 3
  registers : ∀ i < recordCount bytes, 1 ≤ i →
    (codeAt bytes i = 4 ↔ ∃ tid, OpensAt bytes (i - 1) tid)

/-- A record that breaks the grammar. -/
def Offends (i : Nat) : Prop :=
  4 < codeAt bytes i ∨ i = 0 ∧ codeAt bytes i ≠ 3 ∨
    1 ≤ i ∧ ¬(codeAt bytes i = 4 ↔ ∃ tid, OpensAt bytes (i - 1) tid)

/-- What a record that breaks the grammar is rejected for. -/
inductive Rejected (i : Nat) : StreamError → Prop
  | unknownKind {code : UInt16} : 4 < codeAt bytes i → code.toNat = codeAt bytes i →
    Rejected i (.unknownKind code)
  | orphan : codeAt bytes i ≤ 4 → i = 0 → Rejected i (.orphan 0)
  | unregistered {tid : UInt64} : codeAt bytes i ≤ 4 → 1 ≤ i → OpensAt bytes (i - 1) tid →
    Rejected i (.unregistered tid)
  | reregistered {tid : UInt64} : codeAt bytes i ≤ 4 → 1 ≤ i →
    (∀ t, ¬OpensAt bytes (i - 1) t) → headerBefore bytes i = some tid →
    Rejected i (.reregistered tid)

/-- What the first `i` records say of thread `tid`. -/
structure Known (i : Nat) (tid : UInt64) (t : ThreadHistory) : Prop where
  messages : t.messages + 1 = (List.range i).countP fun j => HeaderAt bytes j tid
  events : t.events.toList.map .ok =
    ((List.range i).filter fun j => EventAt bytes j tid).map (recordAt bytes)
  pid : ∀ j < i, OpensAt bytes j tid →
    t.pid = if j + 1 < i then some (addrAt bytes (j + 1)).toUInt32 else none

/-- What is known after the first `i` records. -/
structure ReadTo (i : Nat) (h : History) : Prop where
  ascending : h.threads.Ascending
  seen : h.entriesSeen = i
  current : h.current = headerBefore bytes i
  absent : ∀ tid, h.thread? tid = none ↔ ∀ j < i, ¬HeaderAt bytes j tid
  known : ∀ tid t, h.thread? tid = some t → Known bytes i tid t

variable {bytes} {i j : Nat} {tid : UInt64} {h : History} {e : Entry} {t t' : ThreadHistory}

theorem OpensAt.unique (opens : OpensAt bytes i tid) (again : OpensAt bytes j tid) : i = j := by
  rcases Nat.lt_trichotomy i j with before | same | behind
  · exact absurd opens.header (again.first i before)
  · exact same
  · exact absurd again.header (opens.first j behind)

theorem exists_opensAt (header : ∃ j < i, HeaderAt bytes j tid) :
    ∃ j < i, OpensAt bytes j tid := by
  have some : ∃ j, HeaderAt bytes j tid := header.imp fun j here => here.2
  obtain ⟨j, inside, here⟩ := header
  refine ⟨Nat.find some, ?_, Nat.find_spec some, fun k before => Nat.find_min some before⟩
  exact Nat.lt_of_le_of_lt (Nat.find_min' some here) inside

theorem HeaderAt.before (header : HeaderAt bytes i tid) :
    headerBefore bytes (i + 1) = some tid := by
  rw [headerBefore, if_pos header.1, header.2]

theorem OpensAt.before (opens : OpensAt bytes j tid) (next : j + 1 = i) :
    headerBefore bytes i = some tid := by
  subst next
  exact opens.header.before

theorem headerAt_of_before (before : headerBefore bytes i = some tid) :
    ∃ j < i, HeaderAt bytes j tid := by
  induction i with
  | zero => cases before
  | succ i ih =>
    rw [headerBefore] at before
    split at before
    · rename_i header
      exact ⟨i, Nat.lt_succ_self i, header, Option.some.inj before⟩
    · obtain ⟨j, inside, header⟩ := ih before
      exact ⟨j, Nat.lt_succ_of_lt inside, header⟩

theorem not_headerAt (other : codeAt bytes i ≠ 3) : ¬HeaderAt bytes i tid :=
  fun header => other header.1

theorem not_eventAt (large : 3 ≤ codeAt bytes i) : ¬EventAt bytes i tid :=
  fun event => Nat.not_lt.2 large event.1

theorem before_of_starts (starts : codeAt bytes 0 = 3) (positive : 1 ≤ i) :
    ∃ tid, headerBefore bytes i = some tid := by
  induction i, positive using Nat.le_induction with
  | base => exact ⟨addrAt bytes 0, if_pos starts⟩
  | succ i _ ih =>
    rw [headerBefore]
    split
    · exact ⟨_, rfl⟩
    · exact ih

theorem codeAt_eq (bytes : List UInt8) (i : Nat) :
    codeAt bytes i = Entry.wordAt (bytes.drop (i * Entry.byteSize)) Entry.kindOffset 2 :=
  (Entry.wordAt_drop ..).symm

/-- A record that is read has the type code and the address of what it says. -/
theorem code_of_reads (reads : recordAt bytes i = .ok e) : codeAt bytes i = e.kind.code.toNat := by
  rw [codeAt_eq]
  exact (Entry.ofBytes_eq_ok_iff.1 reads).1

theorem addr_of_reads (reads : recordAt bytes i = .ok e) : addrAt bytes i = e.addr := by
  obtain ⟨-, -, addr, -⟩ := Entry.ofBytes_eq_ok_iff.1 reads
  rw [addrAt, ← Entry.wordAt_drop, addr, UInt64.ofNat_toNat]

theorem recordAt_rejected {error : StreamError} :
    recordAt bytes i = .error error ↔
      4 < codeAt bytes i ∧ error = .unknownKind (UInt16.ofNat (codeAt bytes i)) := by
  rw [codeAt_eq]
  exact Entry.ofBytes_unknown_iff

theorem code_eq_iff (reads : recordAt bytes i = .ok e) (kind : Entry.Kind) :
    codeAt bytes i = kind.code.toNat ↔ e.kind = kind := by
  rw [code_of_reads reads, UInt16.toNat_inj]
  exact ⟨Entry.Kind.code_injective, congrArg Entry.Kind.code⟩

/-- One more record, as far as it concerns a thread of which a header was read before. -/
theorem Known.next (known : Known bytes i tid t) (earlier : ∃ j < i, HeaderAt bytes j tid)
    (messages : t'.messages = t.messages + if HeaderAt bytes i tid then 1 else 0)
    (events : t'.events.toList.map .ok =
      t.events.toList.map .ok ++ if EventAt bytes i tid then [recordAt bytes i] else [])
    (registers : ∀ j, j + 1 = i → OpensAt bytes j tid →
      t'.pid = some (addrAt bytes i).toUInt32)
    (keeps : (∀ j, j + 1 = i → ¬OpensAt bytes j tid) → t'.pid = t.pid) :
    Known bytes (i + 1) tid t' where
  messages := by
    have before := known.messages
    rw [List.range_succ, List.countP_append, List.countP_singleton, ← before, messages]
    simp only [decide_eq_true_eq]
    omega
  events := by
    rw [events, known.events, List.range_succ, List.filter_append, List.map_append]
    congr 1
    by_cases event : EventAt bytes i tid
    · simp [event]
    · simp [event]
  pid := by
    intro j inside opens
    have before : j < i := by
      by_contra last
      obtain ⟨k, earlier, header⟩ := earlier
      exact opens.first k (by omega) header
    rw [if_pos (by omega)]
    by_cases next : j + 1 = i
    · rw [registers j next opens, next]
    · have kept := keeps fun k last again => next (by rw [opens.unique again, last])
      rw [kept, known.pid j before opens, if_pos (by omega)]

/-- One more record that says nothing of a thread. -/
theorem Known.untouched (known : Known bytes i tid t) (earlier : ∃ j < i, HeaderAt bytes j tid)
    (plain : ¬HeaderAt bytes i tid) (quiet : ¬EventAt bytes i tid)
    (calm : ∀ j, j + 1 = i → ¬OpensAt bytes j tid) : Known bytes (i + 1) tid t := by
  refine known.next earlier ?_ ?_ (fun j last opens => absurd opens (calm j last)) fun _ => rfl
  · rw [if_neg plain]
    rfl
  · rw [if_neg quiet, List.append_nil]

/-- The first header of a thread. -/
theorem Known.opened (new : ∀ j < i, ¬HeaderAt bytes j tid) (header : HeaderAt bytes i tid) :
    Known bytes (i + 1) tid {} where
  messages := by
    have none : (List.range i).countP (fun j => decide (HeaderAt bytes j tid)) = 0 := by
      rw [List.countP_eq_zero]
      intro j inside
      simpa using new j (List.mem_range.1 inside)
    rw [List.range_succ, List.countP_append, none, List.countP_singleton]
    simp [header]
  events := by
    have none : (List.range (i + 1)).filter (fun j => decide (EventAt bytes j tid)) = [] := by
      rw [List.filter_eq_nil_iff]
      intro j inside
      rw [decide_eq_true_eq]
      rintro ⟨-, before⟩
      obtain ⟨k, earlier, header⟩ := headerAt_of_before before
      have := List.mem_range.1 inside
      exact new k (by omega) header
    rw [none]
    rfl
  pid := by
    intro j inside opens
    have last : j = i := opens.unique ⟨header, new⟩
    rw [last, if_neg (Nat.lt_irrefl _)]

theorem readTo_zero : ReadTo bytes 0 {} where
  ascending := List.Pairwise.nil
  seen := rfl
  current := rfl
  absent := fun tid => ⟨fun _ j inside => absurd inside (Nat.not_lt_zero j), fun _ => rfl⟩
  known := by
    intro tid t here
    cases here

namespace ReadTo

theorem earlier (readTo : ReadTo bytes i h) (here : h.thread? tid = some t) :
    ∃ j < i, HeaderAt bytes j tid := by
  by_contra none
  have absent := (readTo.absent tid).2 fun j inside header => none ⟨j, inside, header⟩
  rw [absent] at here
  cases here

/-- A thread has no process exactly if its first header was the last record. -/
theorem pid_eq_none_iff (readTo : ReadTo bytes i h) (current : headerBefore bytes i = some tid) :
    h.pid? tid = none ↔ ∃ j, j + 1 = i ∧ OpensAt bytes j tid := by
  obtain ⟨j, inside, opens⟩ := exists_opensAt (headerAt_of_before current)
  cases here : h.thread? tid with
  | none => exact absurd opens.header ((readTo.absent tid).1 here j inside)
  | some t =>
    have pid := (readTo.known tid t here).pid j inside opens
    rw [History.pid?, here, Option.bind_eq_bind, Option.bind_some, pid]
    constructor
    · intro none
      split at none
      · cases none
      · exact ⟨j, by omega, opens⟩
    · rintro ⟨k, last, again⟩
      rw [if_neg (by rw [opens.unique again]; omega)]

end ReadTo

theorem fault?_unregistered (current : h.current = some tid) (none : h.pid? tid = none) :
    h.fault? e = if e.kind = .process then .none else some (.unregistered tid) := by
  rw [History.fault?, current]
  simp only [none]
  cases e.kind <;> rfl

theorem fault?_registered {pid : UInt32} (current : h.current = some tid)
    (here : h.pid? tid = some pid) :
    h.fault? e = if e.kind = .process then some (.reregistered tid) else none := by
  rw [History.fault?, current]
  simp only [here]
  cases e.kind <;> rfl

/-- A record that says an entry is found fault with exactly if it breaks the grammar. -/
theorem ReadTo.fault (readTo : ReadTo bytes i h) (starts : 1 ≤ i → codeAt bytes 0 = 3)
    (reads : recordAt bytes i = .ok e) :
    (¬Offends bytes i → h.fault? e = none) ∧
      (Offends bytes i → ∃ error, h.fault? e = some error ∧ Rejected bytes i error) := by
  have known : codeAt bytes i ≤ 4 := by
    by_contra large
    have rejected := recordAt_rejected.2 ⟨Nat.lt_of_not_le large, rfl⟩
    rw [reads] at rejected
    cases rejected
  have thread := code_eq_iff reads .thread
  have process := code_eq_iff reads .process
  rcases Nat.eq_zero_or_pos i with rfl | positive
  · -- The first record has no header before it.
    have current : h.current = none := readTo.current
    have seen : h.entriesSeen = 0 := readTo.seen
    rw [History.fault?, current]
    simp only [seen]
    constructor
    · intro sound
      have header : codeAt bytes 0 = 3 := by
        by_contra other
        exact sound (.inr (.inl ⟨rfl, other⟩))
      rw [if_pos (thread.1 header)]
    · intro offends
      have other : codeAt bytes 0 ≠ 3 := by
        rcases offends with large | ⟨-, other⟩ | ⟨positive, -⟩
        · omega
        · exact other
        · omega
      exact ⟨.orphan 0, if_neg fun header => other (thread.2 header), .orphan known rfl⟩
  · obtain ⟨tid, before⟩ := before_of_starts (starts positive) positive
    have current : h.current = some tid := readTo.current.trans before
    have unregistered := readTo.pid_eq_none_iff before
    have last : i - 1 + 1 = i := by omega
    have opened : (∃ t, OpensAt bytes (i - 1) t) ↔ h.pid? tid = none := by
      rw [unregistered]
      constructor
      · rintro ⟨t, opens⟩
        have same := opens.before last
        rw [before, Option.some.injEq] at same
        exact ⟨i - 1, last, same ▸ opens⟩
      · rintro ⟨j, next, opens⟩
        exact ⟨tid, by rw [show i - 1 = j by omega]; exact opens⟩
    have offends_iff : Offends bytes i ↔ ¬(e.kind = .process ↔ h.pid? tid = none) := by
      rw [← process, ← opened]
      constructor
      · rintro (large | ⟨zero, -⟩ | ⟨-, broken⟩)
        · omega
        · omega
        · exact broken
      · exact fun broken => .inr (.inr ⟨positive, broken⟩)
    rw [offends_iff]
    cases here : h.pid? tid with
    | none =>
      rw [fault?_unregistered current here]
      obtain ⟨t, opens⟩ := opened.2 here
      have same := opens.before last
      rw [before, Option.some.injEq] at same
      simp only [iff_true, not_not]
      refine ⟨fun right => if_pos right, fun wrong => ⟨.unregistered tid, if_neg wrong, ?_⟩⟩
      exact .unregistered known positive (same ▸ opens)
    | some pid =>
      rw [fault?_registered current here]
      simp only [reduceCtorEq, iff_false, not_not]
      refine ⟨fun right => if_neg right, fun wrong => ⟨.reregistered tid, if_pos wrong, ?_⟩⟩
      refine .reregistered known positive (fun t opens => ?_) before
      rw [opened.1 ⟨t, opens⟩] at here
      cases here

/-- Behind the first header of a thread stands its process, where nothing offends. -/
theorem not_opensAt_of_sound (sound : ¬Offends bytes i) (other : codeAt bytes i ≠ 4) (j : Nat)
    (last : j + 1 = i) : ¬OpensAt bytes j tid := by
  intro opens
  apply sound
  refine .inr (.inr ⟨by omega, fun broken => other (broken.2 ⟨tid, ?_⟩)⟩)
  rw [show i - 1 = j by omega]
  exact opens

/-- A record that is no header and changes what is known of the current thread alone. -/
theorem ReadTo.modified (readTo : ReadTo bytes i h) (current : headerBefore bytes i = some tid)
    (other : codeAt bytes i ≠ 3) (f : ThreadHistory → ThreadHistory)
    (changed : ∀ t, h.thread? tid = some t → Known bytes (i + 1) tid (f t))
    (same : ∀ u t, u ≠ tid → h.thread? u = some t → Known bytes (i + 1) u t) :
    ReadTo bytes (i + 1) (h.modifyCurrent f).tick := by
  have modified : h.modifyCurrent f = { h with threads := h.threads.modify tid f } := by
    rw [History.modifyCurrent, readTo.current, current]
  have thread? : ∀ u, (h.modifyCurrent f).tick.thread? u =
      if u = tid then (h.thread? u).map f else h.thread? u := by
    intro u
    rw [modified]
    exact Threads.get?_modify
  refine ⟨?_, ?_, ?_, fun u => ?_, fun u t' here => ?_⟩
  · rw [modified]
    exact Threads.ascending_modify readTo.ascending tid f
  · rw [modified]
    exact congrArg (· + 1) readTo.seen
  · rw [modified, headerBefore, if_neg other]
    exact readTo.current
  · rw [thread?]
    have none : (if u = tid then (h.thread? u).map f else h.thread? u) = none ↔
        h.thread? u = none := by
      split
      · exact Option.map_eq_none_iff
      · exact Iff.rfl
    rw [none, readTo.absent]
    constructor
    · intro absent j inside header
      rcases Nat.lt_succ_iff_lt_or_eq.1 inside with before | rfl
      · exact absent j before header
      · exact other header.1
    · exact fun absent j inside => absent j (by omega)
  · rw [thread?] at here
    by_cases own : u = tid
    · rw [if_pos own, own, Option.map_eq_some_iff] at here
      obtain ⟨t, here, rfl⟩ := here
      exact own ▸ changed t here
    · rw [if_neg own] at here
      exact same u t' own here

theorem ReadTo.next_thread (readTo : ReadTo bytes i h) (sound : ¬Offends bytes i)
    (header : codeAt bytes i = 3) :
    ReadTo bytes (i + 1)
      { threads := h.threads.enter (addrAt bytes i)
        current := some (addrAt bytes i)
        entriesSeen := h.entriesSeen + 1 } := by
  have thread? : ∀ u, Threads.get? (h.threads.enter (addrAt bytes i)) u =
      if u = addrAt bytes i then some (Threads.entered (h.thread? (addrAt bytes i)))
      else h.thread? u := Threads.get?_enter readTo.ascending _
  have calm : ∀ {u} j, j + 1 = i → ¬OpensAt bytes j u :=
    not_opensAt_of_sound sound (by omega)
  have quiet : ∀ u, ¬EventAt bytes i u := fun u => not_eventAt header.ge
  refine ⟨Threads.ascending_enter readTo.ascending _, congrArg (· + 1) readTo.seen, ?_,
    fun u => ?_, fun u t' here => ?_⟩
  · rw [headerBefore, if_pos header]
  · rw [History.thread?, thread?]
    by_cases own : u = addrAt bytes i
    · rw [if_pos own]
      constructor
      · intro none
        cases none
      · intro absent
        exact absurd ⟨header, own.symm⟩ (absent i (Nat.lt_succ_self i))
    · rw [if_neg own, readTo.absent]
      constructor
      · intro absent j inside opens
        rcases Nat.lt_succ_iff_lt_or_eq.1 inside with before | rfl
        · exact absent j before opens
        · exact own opens.2.symm
      · exact fun absent j inside => absent j (by omega)
  · rw [History.thread?, thread?] at here
    by_cases own : u = addrAt bytes i
    · rw [if_pos own, Option.some.injEq] at here
      subst own here
      have here : HeaderAt bytes i (addrAt bytes i) := ⟨header, rfl⟩
      cases before : h.thread? (addrAt bytes i) with
      | none => exact .opened ((readTo.absent _).1 before) here
      | some t =>
        refine (readTo.known _ t before).next (readTo.earlier before) ?_ ?_ ?_ fun _ => rfl
        · rw [if_pos here]
          rfl
        · rw [if_neg (quiet _), List.append_nil]
          rfl
        · exact fun j last opens => absurd opens (calm j last)
    · rw [if_neg own] at here
      exact (readTo.known u t' here).untouched (readTo.earlier here)
        (fun header => own header.2.symm) (quiet u) calm

theorem ReadTo.next_process (readTo : ReadTo bytes i h) (sound : ¬Offends bytes i)
    (process : codeAt bytes i = 4) :
    ReadTo bytes (i + 1)
      (h.modifyCurrent fun t => { t with pid := some (addrAt bytes i).toUInt32 }).tick := by
  obtain ⟨tid, j, last, opens⟩ : ∃ tid j, j + 1 = i ∧ OpensAt bytes j tid := by
    have positive : 1 ≤ i := by
      by_contra zero
      exact sound (.inr (.inl ⟨by omega, by omega⟩))
    have registers : codeAt bytes i = 4 ↔ ∃ tid, OpensAt bytes (i - 1) tid := by
      by_contra broken
      exact sound (.inr (.inr ⟨positive, broken⟩))
    obtain ⟨tid, opens⟩ := registers.1 process
    exact ⟨tid, i - 1, by omega, opens⟩
  have before := opens.before last
  have plain : ∀ u, ¬HeaderAt bytes i u := fun u => not_headerAt (by omega)
  have quiet : ∀ u, ¬EventAt bytes i u := fun u => not_eventAt (by omega)
  refine readTo.modified before (by omega) _ (fun t here => ?_) fun u t other here => ?_
  · refine (readTo.known _ t here).next (readTo.earlier here) ?_ ?_ (fun _ _ _ => rfl) ?_
    · rw [if_neg (plain tid)]
      rfl
    · rw [if_neg (quiet tid), List.append_nil]
    · exact fun none => absurd opens (none j last)
  · -- The process belongs to the thread that was opened, and to no other.
    refine (readTo.known _ t here).untouched (readTo.earlier here) (plain u) (quiet u) ?_
    intro k next again
    have same := again.before next
    rw [before, Option.some.injEq] at same
    exact other same.symm

theorem ReadTo.next_event (readTo : ReadTo bytes i h) (sound : ¬Offends bytes i)
    (starts : 1 ≤ i → codeAt bytes 0 = 3) (event : codeAt bytes i < 3)
    (reads : recordAt bytes i = .ok e) :
    ReadTo bytes (i + 1) (h.modifyCurrent fun t => { t with events := t.events.push e }).tick := by
  have positive : 1 ≤ i := by
    by_contra zero
    have first : i = 0 := by omega
    exact sound (.inr (.inl ⟨first, by omega⟩))
  obtain ⟨tid, before⟩ := before_of_starts (starts positive) positive
  have plain : ∀ u, ¬HeaderAt bytes i u := fun u => not_headerAt (by omega)
  have calm : ∀ {u} j, j + 1 = i → ¬OpensAt bytes j u :=
    not_opensAt_of_sound sound (by omega)
  refine readTo.modified before (by omega) _ (fun t here => ?_) fun u t other here => ?_
  · refine (readTo.known _ t here).next (readTo.earlier here) ?_ ?_ ?_ fun _ => rfl
    · rw [if_neg (plain tid)]
      rfl
    · rw [if_pos ⟨event, before⟩, Array.toList_push, List.map_append, reads]
      rfl
    · exact fun j last opens => absurd opens (calm j last)
  · refine (readTo.known _ t here).untouched (readTo.earlier here) (plain u) ?_ calm
    rintro ⟨-, again⟩
    rw [before, Option.some.injEq] at again
    exact other again.symm

/-- A record that keeps to the grammar is read, and the history knows what it says. -/
theorem ReadTo.next (readTo : ReadTo bytes i h) (starts : 1 ≤ i → codeAt bytes 0 = 3)
    (sound : ¬Offends bytes i) :
    ∃ h', h.accept (recordAt bytes i) = .ok h' ∧ ReadTo bytes (i + 1) h' := by
  cases reads : recordAt bytes i with
  | error error => exact absurd (.inl (recordAt_rejected.1 reads).1) sound
  | ok e =>
    have right := (readTo.fault starts reads).1 sound
    refine ⟨(h.apply e).tick, by rw [History.accept, History.push, right], ?_⟩
    have code := code_of_reads reads
    have addr := addr_of_reads reads
    cases kind : e.kind with
    | thread =>
      rw [History.apply, kind, ← addr]
      exact readTo.next_thread sound (by rw [code, kind]; rfl)
    | process =>
      rw [History.apply, kind, ← addr]
      exact readTo.next_process sound (by rw [code, kind]; rfl)
    | read =>
      rw [History.apply, kind]
      exact readTo.next_event sound starts (by rw [code, kind]; decide) reads
    | write =>
      rw [History.apply, kind]
      exact readTo.next_event sound starts (by rw [code, kind]; decide) reads
    | fetch =>
      rw [History.apply, kind]
      exact readTo.next_event sound starts (by rw [code, kind]; decide) reads

/-- A record that breaks the grammar is rejected for what it breaks. -/
theorem ReadTo.rejects (readTo : ReadTo bytes i h) (starts : 1 ≤ i → codeAt bytes 0 = 3)
    (offends : Offends bytes i) :
    ∃ error, h.accept (recordAt bytes i) = .error error ∧ Rejected bytes i error := by
  cases reads : recordAt bytes i with
  | error error =>
    obtain ⟨large, rfl⟩ := recordAt_rejected.1 reads
    refine ⟨_, rfl, .unknownKind large (UInt16.toNat_ofNat_of_lt' ?_)⟩
    rw [codeAt_eq]
    exact Entry.wordAt_lt _ _ 2
  | ok e =>
    obtain ⟨error, wrong, rejected⟩ := (readTo.fault starts reads).2 offends
    exact ⟨error, by rw [History.accept, History.push, wrong], rejected⟩

theorem starts_of_sound (sound : ∀ j < i, ¬Offends bytes j) (positive : 1 ≤ i) :
    codeAt bytes 0 = 3 := by
  by_contra other
  exact sound 0 positive (.inr (.inl ⟨rfl, other⟩))

/-- Records that keep to the grammar are all read. -/
theorem readTo_of_sound (sound : ∀ j < i, ¬Offends bytes j) :
    ∃ h, History.scanned bytes i = .ok h ∧ ReadTo bytes i h := by
  induction i with
  | zero => exact ⟨{}, rfl, readTo_zero⟩
  | succ i ih =>
    obtain ⟨h, scanned, readTo⟩ := ih fun j inside => sound j (by omega)
    have starts := starts_of_sound fun j (inside : j < i) => sound j (by omega)
    obtain ⟨h', accepts, readTo'⟩ := readTo.next starts (sound i (Nat.lt_succ_self i))
    refine ⟨h', ?_, readTo'⟩
    rw [History.scanned_succ, scanned]
    exact accepts

theorem grammatical_iff :
    Grammatical bytes ↔
      bytes.length % Entry.byteSize = 0 ∧ ∀ i < recordCount bytes, ¬Offends bytes i := by
  constructor
  · rintro ⟨whole, known, starts, registers⟩
    refine ⟨whole, fun i inside => ?_⟩
    rintro (large | ⟨rfl, other⟩ | ⟨positive, broken⟩)
    · have := known i inside
      omega
    · exact other (starts inside)
    · exact broken (registers i inside positive)
  · rintro ⟨whole, sound⟩
    refine ⟨whole, fun i inside => ?_, fun some => ?_, fun i inside positive => ?_⟩
    · by_contra large
      exact sound i inside (.inl (Nat.lt_of_not_le large))
    · by_contra other
      exact sound 0 some (.inr (.inl ⟨rfl, other⟩))
    · by_contra broken
      exact sound i inside (.inr (.inr ⟨positive, broken⟩))

/-- A stream without offence is accepted where it ends with a record. -/
theorem ofBytes_of_sound (sound : ∀ i < recordCount bytes, ¬Offends bytes i)
    (whole : bytes.length % Entry.byteSize = 0) :
    ∃ h, History.ofBytes bytes = .ok h ∧ ReadTo bytes (recordCount bytes) h := by
  obtain ⟨h, scanned, readTo⟩ := readTo_of_sound sound
  refine ⟨h, ?_, readTo⟩
  rw [History.ofBytes_eq_scanned, ← recordCount, scanned]
  exact if_pos whole

theorem ofBytes_of_cut (sound : ∀ i < recordCount bytes, ¬Offends bytes i)
    (cut : bytes.length % Entry.byteSize ≠ 0) :
    History.ofBytes bytes = .error (.truncated .unexpectedEnd) := by
  obtain ⟨h, scanned, -⟩ := readTo_of_sound sound
  rw [History.ofBytes_eq_scanned, ← recordCount, scanned]
  exact if_neg cut

/-- A stream with an offence is rejected for the first one. -/
theorem ofBytes_of_offends (broken : ¬∀ i < recordCount bytes, ¬Offends bytes i) :
    ∃ error, History.ofBytes bytes = .error error ∧ ∃ i < recordCount bytes,
      (∀ j < i, ¬Offends bytes j) ∧ Offends bytes i ∧ Rejected bytes i error := by
  classical
  have some : ∃ i, i < recordCount bytes ∧ Offends bytes i := by
    by_contra none
    exact broken fun i inside offends => none ⟨i, inside, offends⟩
  obtain ⟨inside, offends⟩ := Nat.find_spec some
  have first : ∀ j < Nat.find some, ¬Offends bytes j := fun j before offends =>
    Nat.find_min some before ⟨Nat.lt_trans before inside, offends⟩
  obtain ⟨h, scanned, readTo⟩ := readTo_of_sound first
  obtain ⟨error, rejects, rejected⟩ := readTo.rejects (starts_of_sound first) offends
  refine ⟨error, ?_, Nat.find some, inside, first, offends, rejected⟩
  have last : History.scanned bytes (recordCount bytes) = .error error := by
    apply History.scanned_rejected (Nat.succ_le_of_lt inside)
    rw [History.scanned_succ, scanned]
    exact rejects
  rw [History.ofBytes_eq_scanned, ← recordCount, last]

/-- A stream is accepted exactly if it is grammatical; the history then knows of every thread what
the records of the stream say, and has counted them all. The other streams are rejected for the
first record that breaks the grammar, or for their end where no record does. -/
theorem accepts_grammar (bytes : List UInt8) :
    ((∃ h, History.ofBytes bytes = .ok h) ↔ Grammatical bytes) ∧
    (∀ h, History.ofBytes bytes = .ok h →
      h.threads.Ascending ∧ h.entriesSeen = recordCount bytes ∧
      (∀ tid, (∃ t, h.thread? tid = some t) ↔
        ∃ i < recordCount bytes, HeaderAt bytes i tid) ∧
      ∀ tid t, h.thread? tid = some t → Known bytes (recordCount bytes) tid t) ∧
    ∀ error, History.ofBytes bytes = .error error →
      (∃ i < recordCount bytes, (∀ j < i, ¬Offends bytes j) ∧ Offends bytes i ∧
        Rejected bytes i error) ∨
      (∀ i < recordCount bytes, ¬Offends bytes i) ∧ bytes.length % Entry.byteSize ≠ 0 ∧
        error = .truncated .unexpectedEnd := by
  by_cases sound : ∀ i < recordCount bytes, ¬Offends bytes i
  · by_cases whole : bytes.length % Entry.byteSize = 0
    · obtain ⟨h, accepted, readTo⟩ := ofBytes_of_sound sound whole
      rw [accepted]
      refine ⟨⟨fun _ => grammatical_iff.2 ⟨whole, sound⟩, fun _ => ⟨h, rfl⟩⟩, ?_, ?_⟩
      · rintro _ ⟨rfl⟩
        refine ⟨readTo.ascending, readTo.seen, fun tid => ⟨?_, ?_⟩, readTo.known⟩
        · rintro ⟨t, here⟩
          exact readTo.earlier here
        · rintro ⟨i, inside, header⟩
          refine Option.ne_none_iff_exists'.1 fun none => ?_
          exact (readTo.absent tid).1 none i inside header
      · intro error rejected
        cases rejected
    · rw [ofBytes_of_cut sound whole]
      refine ⟨⟨?_, fun grammatical => absurd grammatical.whole whole⟩, ?_, ?_⟩
      · rintro ⟨h, accepted⟩
        cases accepted
      · intro h accepted
        cases accepted
      · rintro _ ⟨rfl⟩
        exact .inr ⟨sound, whole, rfl⟩
  · obtain ⟨error, rejected, offence⟩ := ofBytes_of_offends sound
    rw [rejected]
    refine ⟨⟨?_, fun grammatical => absurd (grammatical_iff.1 grammatical).2 sound⟩, ?_, ?_⟩
    · rintro ⟨h, accepted⟩
      cases accepted
    · intro h accepted
      cases accepted
    · rintro _ ⟨rfl⟩
      exact .inl offence

/-- The records of some entries. -/
def recordsOf (es : List Entry) : List UInt8 := es.flatMap Entry.toBytes

/-- Two threads that take turns. -/
def turns : List UInt8 := recordsOf [.thread 1, .process 9, .read 8 0x10, .thread 2, .process 9,
  .fetch 0x0f0b 2 0x400000, .thread 1, .write 4 0x20]

/-- A thread that registers twice. -/
def twice : List UInt8 := recordsOf [.thread 1, .process 9, .thread 1, .process 9]

theorem accepts_grammar_turns :
    Grammatical turns ∧
      Known turns (recordCount turns) 1
        { pid := some 9, messages := 1, events := #[.read 8 0x10, .write 4 0x20] } ∧
      ∃ i < recordCount twice, (∀ j < i, ¬Offends twice j) ∧
        Rejected twice i (.reregistered 1) := by
  have accepted : History.ofBytes turns = .ok
      { threads := [(1, { pid := some 9, messages := 1, events := #[.read 8 0x10, .write 4 0x20] }),
          (2, { pid := some 9, messages := 0, events := #[.fetch 0x0f0b 2 0x400000] })],
        current := some 1, entriesSeen := 8 } := by
    rw [History.ofBytes_eq_scanned]
    decide +kernel
  have rejected : History.ofBytes twice = .error (.reregistered 1) := by
    rw [History.ofBytes_eq_scanned]
    decide +kernel
  refine ⟨(accepts_grammar turns).1.1 ⟨_, accepted⟩,
    ((accepts_grammar turns).2.1 _ accepted).2.2.2 1 _ rfl, ?_⟩
  rcases (accepts_grammar twice).2.2 _ rejected with ⟨i, inside, first, -, reason⟩ | ⟨-, -, cut⟩
  · exact ⟨i, inside, first, reason⟩
  · cases cut

end AccessTrace.Grammar
