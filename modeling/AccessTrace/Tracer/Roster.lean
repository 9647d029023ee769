/-!
# The roster of threads

Which threads are running, which ended without a last delivery, and how many entries the ended
ones have sent. Once tracing is over no thread may start, and the channel may be closed when the
last one has ended.
-/

namespace AccessTrace

/-- The threads of a process and what the ended ones have sent. -/
structure Roster where
  /-- The entries sent by all threads that have ended, counted as those of a buffer are. -/
  total : Nat := 0
  /-- The running threads. -/
  live : List UInt64 := []
  /-- The threads whose buffer went away without a last delivery. -/
  abandoned : List UInt64 := []
  /-- Whether tracing is over. -/
  exited : Bool := false
  deriving DecidableEq

namespace Roster

/-- Adds a running thread. -/
def enter (r : Roster) (tid : UInt64) : Roster := { r with live := tid :: r.live }

/-- Ends a thread that has sent `refs` entries. -/
def leave (r : Roster) (tid : UInt64) (refs : Nat) : Roster :=
  { r with total := r.total + refs, live := r.live.filter (· ≠ tid) }

/-- Ends a thread whose buffer went away, having sent `refs` entries. -/
def abandon (r : Roster) (tid : UInt64) (refs : Nat) : Roster :=
  let r := r.leave tid refs
  { r with abandoned := if tid ∈ r.abandoned then r.abandoned else tid :: r.abandoned }

/-- The running threads in ascending order. -/
def liveAscending (r : Roster) : List UInt64 := r.live.mergeSort

@[simp] theorem mem_live_leave {r : Roster} {tid t : UInt64} {refs : Nat} :
    t ∈ (r.leave tid refs).live ↔ t ∈ r.live ∧ t ≠ tid := by
  simp [leave]

end Roster

end AccessTrace
