import AccessTrace.Host.Execution

/-!
# Actions

What the threads of a process, or whoever drives them, can do, and what that comes to.
-/

namespace AccessTrace

/-- What can be done to a buffer alone. -/
inductive BufferAction where
  /-- Appends an entry, the same moved on by `stride`, and so on, until one does not fit. -/
  | push (e : Entry) (stride : UInt64) (times : Nat)
  /-- Stores a word of two bytes. -/
  | store16 (offset : Nat) (value : UInt16)
  /-- Stores a word of eight bytes. -/
  | store64 (offset : Nat) (value : UInt64)
  /-- Moves the pointer. -/
  | setPtr (ptr : Nat)
  /-- Writes the thread header into its slot. -/
  | writeHeader
  /-- Empties the buffer. -/
  | reset
  /-- Counts entries as sent. -/
  | addRefs (count : Nat)
  /-- Marks the thread as registered. -/
  | markRegistered
  /-- Moves to a phase. -/
  | transition (target : Phase)
  /-- Looks at what is pending. -/
  | pending
  /-- Looks at the occupied bytes. -/
  | occupied
  /-- Looks at the thread header. -/
  | header

/-- What can be done in a session under the name of a thread. -/
inductive Action where
  /-- Starts a thread and keeps its buffer. -/
  | start (tid : UInt64)
  /-- Makes a buffer that the tracer knows nothing of. -/
  | allocate (tid : UInt64) (capacity : Nat)
  /-- Sends a message past all buffers. -/
  | send (bytes : List UInt8)
  /-- Closes the channel. -/
  | close
  /-- Looks at the channel. -/
  | channel
  /-- Puts values into registers. -/
  | setRegisters (values : List (Register × UInt64))
  /-- Looks at the machine. -/
  | machine
  /-- Does something to the buffer alone. -/
  | buffer (action : BufferAction)
  /-- Delivers the buffer. -/
  | flush (policy : FlushPolicy)
  /-- Delivers the buffer in the name of another process. -/
  | flushAs (pid : UInt32) (policy : FlushPolicy)
  /-- Executes plans, over and over. -/
  | execute (plans : List InstructionPlan) (times : Nat)
  /-- Gives the buffer back to the tracer. -/
  | finish
  /-- Frees the buffer by hand. -/
  | free
  /-- Lets go of the buffer. -/
  | drop

/-- What an action comes to. -/
inductive Outcome where
  | done
  /-- There is a new buffer. -/
  | made (tid : UInt64) (capacity bytes : Nat)
  | count (n : Nat)
  | entries (es : List (Except StreamError Entry))
  | entry (e : Entry)
  | bytes (bs : List UInt8)
  | flushed (outcome : FlushOutcome)
  /-- What the channel took in all, and the process. -/
  | channel (stream : List UInt8) (messages : Nat) (pid : UInt32)
  | machine (m : Machine)
  /-- So many plans were executed; the machine afterwards. -/
  | executed (plans : Nat) (failure : Option TraceError) (m : Machine)
  | resourceError (e : ResourceError)
  | channelError (e : ChannelError)
  | traceError (e : TraceError)
  | misuse (e : Misuse)
  /-- The name has a buffer already. -/
  | nameInUse
  /-- The name has no buffer. -/
  | noBuffer
  /-- The exit would wait for these threads. -/
  | wouldBlock (live : List UInt64)

namespace Outcome

/-- The outcome of something without a result. -/
def ofUnit {ε : Type} (failure : ε → Outcome) : Except ε Unit → Outcome
  | .ok () => done
  | .error e => failure e

/-- The outcome of a delivery. -/
def ofFlush {ε : Type} (failure : ε → Outcome) : Except ε FlushOutcome → Outcome
  | .ok outcome => flushed outcome
  | .error e => failure e

/-- The outcome of having made a buffer. -/
def ofBuffer (b : Buffer) : Outcome := made b.tid b.capacity b.byteCapacity

end Outcome

/-- Does something to a buffer. -/
def BufferAction.apply (b : Buffer) : BufferAction → Outcome × Buffer
  | push e stride times =>
    match b.pushSeries e stride times with
    | (answer, b) => (.ofUnit .resourceError answer, b)
  | store16 offset value =>
    match b.store16 offset value with
    | (answer, b) => (.ofUnit .resourceError answer, b)
  | store64 offset value =>
    match b.store64 offset value with
    | (answer, b) => (.ofUnit .resourceError answer, b)
  | setPtr ptr =>
    match b.setPtr ptr with
    | (answer, b) => (.ofUnit .resourceError answer, b)
  | writeHeader => (.done, b.writeHeader)
  | reset => (.done, b.reset)
  | addRefs count => (.done, b.addRefs count)
  | markRegistered =>
    match b.markRegistered with
    | (answer, b) => (.ofUnit .misuse answer, b)
  | transition target =>
    match b.transition target with
    | (answer, b) => (.ofUnit .misuse answer, b)
  | pending => (.entries b.pending, b)
  | occupied => (.bytes b.occupiedBytes, b)
  | header => (.entry b.header, b)

end AccessTrace
