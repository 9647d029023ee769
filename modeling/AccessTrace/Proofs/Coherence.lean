import Mathlib
import AccessTrace.Proofs.Interleavings

/-!
# What holds of every history

A history can be told any entries, and goes on behind those that it finds fault with. What an entry
comes to is `Pushed`: it is ignored, or it is noted in one of three ways. The thread of the last
header is always one that is known, and every other one has registered (`Coherent`). This is kept by
each entry (`Coherent.next`) and therefore holds of every history (`coherent_pushAll`), so that no
lookup of the current thread ever fails (`pushChecked_eq`).
-/

namespace AccessTrace

/-- An event is a read, a write or a fetch. -/
theorem Entry.Kind.isEvent_iff {kind : Entry.Kind} :
    kind.isEvent = true ↔ kind = .read ∨ kind = .write ∨ kind = .fetch := by
  cases kind <;> simp [isEvent]

namespace History

variable {h h' : History} {e : Entry} {tid : UInt64} {pid : UInt32} {t : ThreadHistory}
  {answer : Except StreamError Unit} {es more : List Entry}

/-! ### One entry -/

/-- What reading an entry comes to. -/
inductive Pushed (h : History) (e : Entry) : Except StreamError Unit → History → Prop
  | ignored {error : StreamError} : h.fault? e = some error → Pushed h e (.error error) h.tick
  | header : e.kind = .thread → (∀ t ∈ h.current, ∃ pid, h.pid? t = some pid) →
      Pushed h e (.ok ())
        { threads := h.threads.enter e.addr, current := some e.addr
          entriesSeen := h.entriesSeen + 1 }
  | process {tid : UInt64} : e.kind = .process → h.current = some tid → h.pid? tid = none →
      Pushed h e (.ok ())
        { threads := h.threads.modify tid fun t => { t with pid := some e.addr.toUInt32 }
          current := some tid, entriesSeen := h.entriesSeen + 1 }
  | event {tid : UInt64} {pid : UInt32} : e.kind.isEvent = true → h.current = some tid →
      h.pid? tid = some pid →
      Pushed h e (.ok ())
        { threads := h.threads.modify tid fun t => { t with events := t.events.push e }
          current := some tid, entriesSeen := h.entriesSeen + 1 }

theorem push_of_sound (sound : h.fault? e = none) : h.push e = (.ok (), (h.apply e).tick) := by
  rw [push, sound]

theorem pushed (h : History) (e : Entry) : Pushed h e (h.push e).1 (h.push e).2 := by
  cases fault : h.fault? e with
  | some error =>
    rw [push, fault]
    exact .ignored fault
  | none =>
    rw [push_of_sound fault]
    cases current : h.current with
    | none =>
      -- Without a header before it, an entry has to be one.
      have header : e.kind = .thread := by
        by_contra other
        simp [fault?, current, other] at fault
      have applied : (h.apply e).tick =
          { threads := h.threads.enter e.addr, current := some e.addr
            entriesSeen := h.entriesSeen + 1 } := by simp [apply, header, tick]
      rw [applied]
      exact .header header (by simp [current])
    | some tid =>
      have modified : ∀ f, (h.modifyCurrent f).tick =
          { threads := h.threads.modify tid f, current := some tid
            entriesSeen := h.entriesSeen + 1 } := by simp [modifyCurrent, current, tick]
      cases known : h.pid? tid with
      | none =>
        rw [Grammar.fault?_unregistered current known] at fault
        have process : e.kind = .process := by
          by_contra other
          simp [other] at fault
        rw [apply, process]
        simp only [modified]
        exact .process process current known
      | some pid =>
        rw [Grammar.fault?_registered current known] at fault
        have others : ∀ t ∈ h.current, ∃ pid, h.pid? t = some pid := by
          simp [current, known]
        cases kind : e.kind with
        | thread =>
          rw [apply, kind]
          exact .header kind others
        | process => simp [kind] at fault
        | read | write | fetch =>
          rw [apply, kind]
          simp only [modified]
          exact .event (by rw [kind]; rfl) current known

/-- An entry that is found fault with is counted, and that is all. -/
theorem Pushed.ignored_of_error {error : StreamError} (pushed : Pushed h e (.error error) h') :
    h' = h.tick := by
  cases pushed with
  | ignored _ => rfl

/-! ### What each entry keeps -/

/-- What holds of a history, whatever it was told. -/
structure Coherent (h : History) : Prop where
  ascending : h.threads.Ascending
  /-- The thread of the last header is known. -/
  current : ∀ tid ∈ h.current, ∃ t, h.thread? tid = some t
  /-- All other threads have registered. -/
  registered : ∀ tid t, h.thread? tid = some t → h.current ≠ some tid → ∃ pid, t.pid = some pid
  /-- What is kept of a thread is its events. -/
  events : ∀ tid t, h.thread? tid = some t → ∀ e ∈ t.events, e.kind.isEvent = true

theorem coherent_empty : Coherent {} where
  ascending := List.Pairwise.nil
  current := by simp
  registered := by simp [thread?, Threads.get?]
  events := by simp [thread?, Threads.get?]

theorem pid?_of_thread? (here : h.thread? tid = some t) : h.pid? tid = t.pid := by
  simp [pid?, here]

theorem thread?_entered (ascending : h.threads.Ascending) (tid : UInt64)
    (current : Option UInt64) (seen : Nat) (u : UInt64) :
    thread? { threads := h.threads.enter tid, current, entriesSeen := seen } u =
      if u = tid then some (Threads.entered (h.thread? tid)) else h.thread? u :=
  Threads.get?_enter ascending tid u

theorem thread?_modified (h : History) (tid : UInt64) (f : ThreadHistory → ThreadHistory)
    (current : Option UInt64) (seen : Nat) (u : UInt64) :
    thread? { threads := h.threads.modify tid f, current, entriesSeen := seen } u =
      if u = tid then (h.thread? u).map f else h.thread? u := Threads.get?_modify

/-- Behind a header that is in order all threads but the new current one have registered. -/
theorem Coherent.entered (coherent : Coherent h)
    (registered : ∀ t ∈ h.current, ∃ pid, h.pid? t = some pid) (tid : UInt64) (seen : Nat) :
    Coherent { threads := h.threads.enter tid, current := some tid, entriesSeen := seen } := by
  have found := thread?_entered coherent.ascending tid (some tid) seen
  refine ⟨Threads.ascending_enter coherent.ascending tid, ?_, fun u x here other => ?_,
    fun u x here => ?_⟩
  · simp [found]
  · have differs : u ≠ tid := by
      rintro rfl
      exact other rfl
    rw [found, if_neg differs] at here
    by_cases before : h.current = some u
    · rw [← pid?_of_thread? here]
      exact registered u before
    · exact coherent.registered u x here before
  · rw [found] at here
    split at here
    · cases here
      cases before : h.thread? tid with
      | none => simp [Threads.entered]
      | some x => exact coherent.events tid x before
    · exact coherent.events u x here

/-- More is known of the current thread, by events if it is not by its process. -/
theorem Coherent.modified (coherent : Coherent h) (current : h.current = some tid)
    {f : ThreadHistory → ThreadHistory}
    (events : ∀ t, ∀ e ∈ (f t).events, e ∈ t.events ∨ e.kind.isEvent = true) (seen : Nat) :
    Coherent { threads := h.threads.modify tid f, current := some tid, entriesSeen := seen } := by
  refine ⟨Threads.ascending_modify coherent.ascending tid f, ?_, fun u x here other => ?_,
    fun u x here e mem => ?_⟩
  · obtain ⟨t, here⟩ := coherent.current tid current
    simp [thread?_modified, here]
  · have differs : u ≠ tid := by
      rintro rfl
      exact other rfl
    rw [thread?_modified, if_neg differs] at here
    exact coherent.registered u x here (by rw [current]; simpa using differs.symm)
  · rw [thread?_modified] at here
    split at here
    · obtain ⟨t, before, rfl⟩ := Option.map_eq_some_iff.1 here
      rcases events t e mem with old | new
      · exact coherent.events u t before e old
      · exact new
    · exact coherent.events u x here e mem

/-- Every entry keeps a history coherent, whether it is ignored or not. -/
theorem Coherent.next (coherent : Coherent h) (pushed : Pushed h e answer h') : Coherent h' := by
  cases pushed with
  | ignored _ => exact ⟨coherent.ascending, coherent.current, coherent.registered, coherent.events⟩
  | header _ registered => exact coherent.entered registered _ _
  | process _ current _ =>
    refine coherent.modified current (fun t e' mem => ?_) _
    exact .inl mem
  | event event current _ =>
    refine coherent.modified current (fun t e' mem => ?_) _
    rcases Array.mem_push.1 mem with old | rfl
    · exact .inl old
    · exact .inr event

/-- The process of a thread stays what it is. -/
theorem Coherent.pid?_next (coherent : Coherent h) (pushed : Pushed h e answer h')
    (known : h.pid? tid = some pid) : h'.pid? tid = some pid := by
  obtain ⟨t, here, same⟩ : ∃ t, h.thread? tid = some t ∧ t.pid = some pid := by
    simpa [pid?, Option.bind_eq_some_iff] using known
  cases pushed with
  | ignored _ => exact known
  | header _ _ =>
    simp only [pid?, thread?_entered coherent.ascending]
    split
    · rename_i own
      simp [← own, here, Threads.entered, same]
    · exact known
  | @process u _ _ unregistered =>
    -- The thread that registers had no process.
    have differs : tid ≠ u := by
      rintro rfl
      rw [unregistered] at known
      cases known
    simpa [pid?, thread?_modified, differs] using known
  | event _ _ _ =>
    simp only [pid?, thread?_modified]
    split <;> simp [here, same]

/-! ### Any entries -/

theorem pushAll_append (h : History) (es more : List Entry) :
    h.pushAll (es ++ more) =
      ((h.pushAll es).1 ++ ((h.pushAll es).2.pushAll more).1,
        ((h.pushAll es).2.pushAll more).2) := by
  induction es generalizing h with
  | nil => rfl
  | cons e es ih => simp [pushAll, ih]

theorem length_pushAll (h : History) (es : List Entry) : (h.pushAll es).1.length = es.length := by
  induction es generalizing h with
  | nil => rfl
  | cons e es ih => simp [pushAll, ih]

theorem entriesSeen_pushAll (h : History) (es : List Entry) :
    (h.pushAll es).2.entriesSeen = h.entriesSeen + es.length := by
  induction es generalizing h with
  | nil => rfl
  | cons e es ih =>
    simp only [pushAll, ih, entriesSeen_push, List.length_cons]
    omega

theorem Coherent.pushAll (coherent : Coherent h) (es : List Entry) :
    Coherent (h.pushAll es).2 := by
  induction es generalizing h with
  | nil => exact coherent
  | cons e es ih => exact ih (coherent.next (pushed h e))

/-- Whatever a history is told, it is coherent. -/
theorem coherent_pushAll (es : List Entry) : Coherent (History.pushAll {} es).2 :=
  coherent_empty.pushAll es

theorem Coherent.pid?_pushAll (coherent : Coherent h) (es : List Entry)
    (known : h.pid? tid = some pid) : (h.pushAll es).2.pid? tid = some pid := by
  induction es generalizing h with
  | nil => exact known
  | cons e es ih =>
    exact ih (coherent.next (pushed h e)) (coherent.pid?_next (pushed h e) known)

/-! ### Looking the current thread up -/

/-- Changes what is known of the current thread unless there is something wrong with that. The
thread is looked up, and there is no result if it is not found. -/
def modifyChecked (h : History) (wrong? : UInt64 → ThreadHistory → Option StreamError)
    (f : ThreadHistory → ThreadHistory) : Option (Except StreamError Unit × History) :=
  match h.current with
  | none => some (.error (.orphan h.entriesSeen), h.tick)
  | some tid =>
    match h.thread? tid with
    | none => none
    | some t =>
      match wrong? tid t with
      | some error => some (.error error, h.tick)
      | none => some (.ok (), { h with threads := h.threads.modify tid f }.tick)

/-- Notes an entry of a thread that was found to be in order so far. -/
def noteChecked (h : History) (e : Entry) : Option (Except StreamError Unit × History) :=
  match e.kind with
  | .thread =>
    some (.ok (), { h with threads := h.threads.enter e.addr, current := some e.addr }.tick)
  | .process =>
    h.modifyChecked (fun tid t => if t.pid.isSome then some (.reregistered tid) else none)
      fun t => { t with pid := some e.addr.toUInt32 }
  | .read | .write | .fetch =>
    h.modifyChecked (fun _ _ => none) fun t => { t with events := t.events.push e }

/-- Reads an entry, and first of all looks up whether the current thread has registered, if there is
one. There is no result if a thread that is looked up is not found. -/
def pushChecked (h : History) (e : Entry) : Option (Except StreamError Unit × History) :=
  match h.current with
  | none => h.noteChecked e
  | some tid =>
    match h.thread? tid with
    | none => none
    | some t =>
      if t.pid.isNone && e.kind ≠ .process then some (.error (.unregistered tid), h.tick)
      else h.noteChecked e

/-- A thread that is looked up is always found. -/
theorem pushChecked_eq (coherent : Coherent h) (e : Entry) :
    h.pushChecked e = some (h.push e) := by
  cases current : h.current with
  | none =>
    cases kind : e.kind <;>
      simp [pushChecked, noteChecked, modifyChecked, push, fault?, apply, current, kind]
  | some tid =>
    obtain ⟨t, here⟩ := coherent.current tid current
    cases registered : t.pid <;> cases kind : e.kind <;>
      simp [pushChecked, noteChecked, modifyChecked, push, fault?, apply, modifyCurrent, pid?,
        current, here, registered, kind]

/-- What holds of a history after any entries, those that it found fault with included: the thread
of the last header is known and all others have registered, what is kept of a thread is events, and
all entries were counted. A process that is known stays the same whatever comes. One more entry is
read without a lookup that fails, and changes nothing but the count if it is found fault with. -/
theorem coherent_throughout (es : List Entry) :
    ∃ answers h, History.pushAll {} es = (answers, h) ∧
      answers.length = es.length ∧ h.entriesSeen = es.length ∧ h.threads.Ascending ∧
      (∀ tid ∈ h.current, ∃ t, h.thread? tid = some t) ∧
      (∀ tid t, h.thread? tid = some t → h.current ≠ some tid → ∃ pid, t.pid = some pid) ∧
      (∀ tid t, h.thread? tid = some t →
        ∀ e ∈ t.events, e.kind = .read ∨ e.kind = .write ∨ e.kind = .fetch) ∧
      (∀ tid pid, h.pid? tid = some pid → ∀ more, (h.pushAll more).2.pid? tid = some pid) ∧
      ∀ e, ∃ answer h', h.push e = (answer, h') ∧ h.pushChecked e = some (answer, h') ∧
        History.pushAll {} (es ++ [e]) = (answers ++ [answer], h') ∧
        ∀ error, answer = .error error → h'.threads = h.threads ∧ h'.current = h.current := by
  have coherent := coherent_pushAll es
  have count := length_pushAll {} es
  have seen := entriesSeen_pushAll {} es
  have append := pushAll_append {} es
  rcases read : History.pushAll {} es with ⟨answers, h⟩
  rw [read] at coherent count seen append
  refine ⟨answers, h, rfl, count, by rw [seen, Nat.zero_add], coherent.ascending,
    coherent.current, coherent.registered, fun tid t here e mem => ?_,
    fun tid pid known more => coherent.pid?_pushAll more known, fun e => ?_⟩
  · exact Entry.Kind.isEvent_iff.1 (coherent.events tid t here e mem)
  · have done := pushed h e
    have checked := pushChecked_eq coherent e
    rcases one : h.push e with ⟨answer, h'⟩
    rw [one] at done checked
    refine ⟨answer, h', rfl, checked, by simp [append, pushAll, one], ?_⟩
    rintro error rfl
    obtain rfl : h' = h.tick := done.ignored_of_error
    exact ⟨rfl, rfl⟩

end History

end AccessTrace
