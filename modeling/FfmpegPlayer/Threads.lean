import FfmpegPlayer.Media
import Mathlib.Logic.Function.Basic
import Mathlib.Tactic.Simps.Basic

namespace FfmpegPlayer.Threads

open SendReceive Media

inductive Thread
  | reader
  | consumer (i : Side)
  | main
deriving DecidableEq, Repr

/-- Where the read thread stands; the packet it holds is an argument. -/
inductive ReaderPc
  | loopTest
  | lockAudio
  | lockVideo
  | fullTest
  | fullUnlockAudio
  | fullUnlockVideo
  | sleep
  | unlockAudio
  | unlockVideo
  | alloc
  | read (a : Nat)
  | freeEof (a : Nat)
  | route (p : AVPacket)
  | lock (i : Side) (p : AVPacket)
  | push (i : Side) (p : AVPacket)
  | notify (i : Side)
  | unlock (i : Side)
  | freeOther (p : AVPacket)
  | setQuit
  | notifyAll (i : Side)
  | done
deriving DecidableEq, Repr

structure Picture where
  frame : AVFrame
  sliceHeight : Int
  audioClock : ℚ
deriving DecidableEq

/-- The body of the receive loop of one stream, with its local variables. -/
inductive FramePc : Side → Type
  | convert (f : AVFrame) : FramePc .audio
  | size (f : AVFrame) (outSamples : Int) : FramePc .audio
  | queueAudio (f : AVFrame) (dataSize : Nat) : FramePc .audio
  | count (f : AVFrame) (dataSize : Nat) : FramePc .audio
  | pts (f : AVFrame) : FramePc .video
  | clockQueued (f : AVFrame) (videoPts : ℚ) : FramePc .video
  | clockWritten (f : AVFrame) (videoPts : ℚ) (queuedBytes : Nat) : FramePc .video
  | quitTest (f : AVFrame) (videoPts audioClock : ℚ) : FramePc .video
  | compare (f : AVFrame) (videoPts audioClock : ℚ) : FramePc .video
  | delay (f : AVFrame) (videoPts : ℚ) : FramePc .video
  | scale (f : AVFrame) (audioClock : ℚ) : FramePc .video
  | update (x : Picture) : FramePc .video
  | clear (x : Picture) : FramePc .video
  | copy (x : Picture) : FramePc .video
  | present (x : Picture) : FramePc .video
deriving DecidableEq

/-- Where a consumer thread stands. `block` is the point of the wait between
a false predicate and the release of the mutex, `waiting` a place in the
waiter set of the condition variable, `relock` a waiter that was woken. -/
inductive ConsumerPc (i : Side)
  | loopTest
  | lock
  | waitTest
  | block
  | waiting
  | relock
  | breakTest
  | breakUnlock
  | pop
  | unlock (p : AVPacket)
  | ctxTest (p : AVPacket)
  | send (p : AVPacket)
  | receive (p : AVPacket)
  | frame (p : AVPacket) (k : FramePc i)
  | free (p : AVPacket)
  | done
deriving DecidableEq

inductive Cleanup
  | freeAudioDecCtx
  | freeAudioFrame
  | freePkt
  | freeBuffer
  | freeFrame
  | freeFrameYuv
  | freeSwsCtx
  | freeDecCtx
  | closeInput
  | destroyTexture
  | destroyRenderer
  | destroyWindow
  | sdlQuit
  | freeAudioBuf
  | freeSwrCtx
deriving DecidableEq, Repr

def cleanupCalls : List Cleanup :=
  [.freeAudioDecCtx, .freeAudioFrame, .freePkt, .freeBuffer, .freeFrame, .freeFrameYuv, .freeSwsCtx,
    .freeDecCtx, .closeInput, .destroyTexture, .destroyRenderer, .destroyWindow, .sdlQuit,
    .freeAudioBuf, .freeSwrCtx]

inductive MainPc
  | loopTest
  | poll
  | setQuit
  | notifyAll (i : Side)
  | delay
  | joinReader
  | join (i : Side)
  | cleanup (calls : List Cleanup)
  | returned
deriving DecidableEq, Repr

structure Chunk where
  frame : AVFrame
  size : Nat
  accepted : Bool
deriving DecidableEq, Repr

/-- The counters at the moment get_audio_clock reads the queued size: the
bytes counted, accepted but not yet counted, and played. -/
structure SizeRead where
  written : Int
  uncounted : Nat
  played : Nat
deriving DecidableEq, Repr

/-- One get_audio_clock call: the bytes played when it starts, the numerator
it computes, and the bytes played when it ends. -/
structure ClockCall where
  start : Nat
  value : Int
  finish : Nat
deriving DecidableEq, Repr

variable (P : Player)

/-- Everything the bodies of the two receive loops read and write. The device
is the pair of counters `queued` and `played`; `uncounted`, `sizeRead` and the
lists are histories that no thread reads. -/
structure Output where
  swr : P.swr.State
  audioWrittenBytes : Int
  queued : Nat
  played : Nat
  uncounted : Nat
  sizeRead : SizeRead
  converts : List (AVFrame × Int)
  chunks : List Chunk
  clocks : List ClockCall
  rendered : List Picture

/-- What has happened to the packets so far. `missed i` tells whether the last
notify_all on a condition variable found its consumer at `block`. -/
structure Log where
  allocated : Nat
  reads : List AVPacket
  freed : List Nat
  calls : Side → List (Call AVPacket AVFrame)
  missed : Side → Bool

structure State where
  quit : Bool
  mutex : Side → Option Thread
  queue : Side → List AVPacket
  reader : ReaderPc
  consumer : (i : Side) → ConsumerPc i
  main : MainPc
  /-- what av_read_frame will return before its first negative result -/
  input : List Payload
  dec : (i : Side) → (P.codec i).State
  out : Output P
  log : Log

def Output.start : Output P where
  swr := P.swr.init
  audioWrittenBytes := 0
  queued := 0
  played := 0
  uncounted := 0
  sizeRead := ⟨0, 0, 0⟩
  converts := []
  chunks := []
  clocks := []
  rendered := []

/-- The threads have just been started on a file. Packet 0 is the one main
allocated itself. -/
def start (file : List Payload) : State P where
  quit := false
  mutex := fun _ => none
  queue := fun _ => []
  reader := .loopTest
  consumer := fun _ => .loopTest
  main := .loopTest
  input := file
  dec := fun i => (P.codec i).init
  out := Output.start P
  log := ⟨1, [], [], fun _ => [], fun _ => false⟩

variable {P}

@[simps] def State.goto (s : State P) (i : Side) (pc : ConsumerPc i) : State P :=
  { s with consumer := Function.update s.consumer i pc }

@[simps] def State.setMutex (s : State P) (i : Side) (o : Option Thread) : State P :=
  { s with mutex := Function.update s.mutex i o }

@[simps] def State.setQueue (s : State P) (i : Side) (q : List AVPacket) : State P :=
  { s with queue := Function.update s.queue i q }

@[simps] def State.called (s : State P) (i : Side) (c : Call AVPacket AVFrame)
    (d : (P.codec i).State) : State P :=
  { s with
    dec := Function.update s.dec i d
    log.calls := Function.update s.log.calls i (s.log.calls i ++ [c]) }

@[simps] def State.freed (s : State P) (a : Nat) : State P :=
  { s with log.freed := s.log.freed ++ [a] }

def ConsumerPc.woken {i : Side} : ConsumerPc i → ConsumerPc i
  | .waiting => .relock
  | pc => pc

/-- notify_one: each condition variable has a single waiter. -/
@[simps] def State.notifyOne (s : State P) (i : Side) : State P :=
  { s with consumer := Function.update s.consumer i (s.consumer i).woken }

@[simps] def State.notifyAll (s : State P) (i : Side) : State P :=
  { s with
    consumer := Function.update s.consumer i (s.consumer i).woken
    log.missed := Function.update s.log.missed i (s.consumer i = .block) }

theorem update_woken {β : Type} (f : (i : Side) → ConsumerPc i → β)
    (hf : ∀ i pc, f i (ConsumerPc.woken pc) = f i pc) (c : (i : Side) → ConsumerPc i) (j i : Side) :
    f i (Function.update c j (c j).woken i) = f i (c i) := by
  by_cases h : i = j
  · subst h; rw [Function.update_self, hf]
  · rw [Function.update_of_ne h]

theorem update_woken_or (c : (i : Side) → ConsumerPc i) (j i : Side) :
    Function.update c j (c j).woken i = c i ∨ Function.update c j (c j).woken i = (c i).woken := by
  by_cases h : i = j
  · subst h; exact Or.inr (Function.update_self _ _ _)
  · exact Or.inl (Function.update_of_ne h _ _)

def ConsumerPc.body {i : Side} : ConsumerPc i → Option (FramePc i)
  | .frame _ k => some k
  | _ => none

theorem body_of_woken {i : Side} {pc pc' : ConsumerPc i} (h : pc' = pc ∨ pc' = pc.woken) :
    pc'.body = pc.body := by
  rcases h with rfl | rfl
  · rfl
  · cases pc <;> rfl

structure LeavesPackets (s s' : State P) : Prop where
  mutex : ∀ i, s'.mutex i = s.mutex i
  queue : ∀ i, s'.queue i = s.queue i
  reader : s'.reader = s.reader
  input : s'.input = s.input
  dec : ∀ i, s'.dec i = s.dec i
  out : s'.out = s.out
  allocated : s'.log.allocated = s.log.allocated
  reads : s'.log.reads = s.log.reads
  calls : ∀ i, s'.log.calls i = s.log.calls i
  consumer : ∀ i, s'.consumer i = s.consumer i ∨ s'.consumer i = (s.consumer i).woken
  quit : s'.quit = s.quit ∨ (s.main = .setQuit ∧ s'.quit = true)

end FfmpegPlayer.Threads
