import FfmpegPlayer.Threads

namespace FfmpegPlayer.ConsumerThreads

open SendReceive Media Threads

variable {P : Player}

/-- One step of a receive loop's body: what it does to the output side and
where it goes, `none` being the next avcodec_receive_frame. The outcome of
SDL_QueueAudio is chosen outside the thread. -/
def frameStep (quit : Bool) (sliceHeight : Int) (o : Output P) :
    {i : Side} → FramePc i → Option (Output P × Option (FramePc i))
  | _, .convert f =>
      let r := P.swr.convert o.swr P.capacity f
      some ({ o with swr := r.2, converts := o.converts ++ [(f, r.1)] }, some (.size f r.1))
  | _, .size f outSamples =>
      let dataSize := outSamples * P.channels * 2
      some (o, if 0 < dataSize then some (.queueAudio f dataSize.toNat) else none)
  | _, .queueAudio _ _ => none
  | _, .count _ dataSize =>
      some ({ o with audioWrittenBytes := o.audioWrittenBytes + dataSize, uncounted := 0 }, none)
  | _, .pts f => some (o, some (.clockQueued f (P.videoPts f)))
  -- get_audio_clock, called before the sync loop and at the end of each turn of it
  | _, .clockQueued f v =>
      some ({ o with sizeRead := ⟨o.audioWrittenBytes, o.uncounted, o.played⟩ },
        some (.clockWritten f v (P.queuedAudioSize o.queued)))
  | _, .clockWritten f v q =>
      let call : ClockCall := ⟨o.sizeRead.played, o.audioWrittenBytes - q, o.played⟩
      -- the counter is loaded only under `bytes_per_sec > 0`
      some ({ o with clocks := if 0 < P.bytesPerSec then o.clocks ++ [call] else o.clocks },
        some (.quitTest f v (P.getAudioClock o.audioWrittenBytes q)))
  | _, .quitTest f v c => some (o, some (if quit then .scale f c else .compare f v c))
  | _, .compare f v c => some (o, some (if P.ahead v c then .delay f v else .scale f c))
  | _, .delay f v => some (o, some (.clockQueued f v))
  | _, .scale f c => some (o, some (.update ⟨f, sliceHeight, c⟩))
  | _, .update x => some (o, some (.clear x))
  | _, .clear x => some (o, some (.copy x))
  | _, .copy x => some (o, some (.present x))
  | _, .present x => some ({ o with rendered := o.rendered ++ [x] }, none)

/-- SDL_QueueAudio takes the whole chunk or none of it. -/
def sdlQueueAudio (accepted : Bool) (o : Output P) (f : AVFrame) (dataSize : Nat) : Output P :=
  { o with
    queued := if accepted then o.queued + dataSize else o.queued
    uncounted := if accepted then dataSize else 0
    chunks := o.chunks ++ [⟨f, dataSize, accepted⟩] }

def afterFrame {i : Side} (p : AVPacket) : Option (FramePc i) → ConsumerPc i
  | some k => .frame p k
  | none => .receive p

/-- The packet loop the two consumers share: `ctx` is the test made on the
decoder context, `onFrame` the start of the receive loop's body. -/
def consumerThread (i : Side) (ctx : Bool) (onFrame : AVFrame → FramePc i) (s : State P) :
    Option (State P) :=
  match s.consumer i with
  | .loopTest => some (s.goto i (if s.quit then .done else .lock))
  | .lock | .relock =>
      if s.mutex i = none then some ((s.setMutex i (some (.consumer i))).goto i .waitTest) else none
  | .waitTest => some (s.goto i (if s.queue i ≠ [] ∨ s.quit then .breakTest else .block))
  | .block => some ((s.setMutex i none).goto i .waiting)
  | .waiting => none
  | .breakTest => some (s.goto i (if s.quit ∧ s.queue i = [] then .breakUnlock else .pop))
  | .breakUnlock => some ((s.setMutex i none).goto i .done)
  | .pop =>
      match s.queue i with
      | [] => none
      | p :: q => some ((s.setQueue i q).goto i (.unlock p))
  | .unlock p => some ((s.setMutex i none).goto i (.ctxTest p))
  | .ctxTest p => some (s.goto i (if ctx then .send p else .loopTest))
  | .send p =>
      let r := (P.codec i).send (s.dec i) (some p.payload)
      some ((s.called i (.send p r.1) r.2).goto i (if r.1 = 0 then .receive p else .free p))
  | .receive p =>
      let r := (P.codec i).receive (s.dec i)
      some ((s.called i (.receive r.1 r.2.1) r.2.2).goto i
        (if r.1 = 0 then .frame p (onFrame r.2.1) else .free p))
  | .frame p k =>
      (frameStep s.quit (P.decHeight (s.dec .video)) s.out k).map
        (fun r => { s.goto i (afterFrame p r.2) with out := r.1 })
  | .free p => some ((s.freed p.addr).goto i .loopTest)
  | .done => none

def audioThreadFunc (s : State P) : Option (State P) :=
  consumerThread .audio P.audioDecCtx .convert s

def videoThreadFunc (s : State P) : Option (State P) :=
  consumerThread .video true .pts s

def queueAudioStep (accepted : Bool) (s : State P) : Option (State P) :=
  match s.consumer .audio with
  | .frame p (.queueAudio f n) =>
      some { s.goto .audio (.frame p (.count f n)) with out := sdlQueueAudio accepted s.out f n }
  | _ => none

inductive ConsumerMove {i : Side} (onFrame : AVFrame → FramePc i) (s : State P) : State P → Prop
  | enter (before : s.consumer i = .loopTest) (hquit : s.quit = false) :
      ConsumerMove onFrame s (s.goto i .lock)
  | leave (before : s.consumer i = .loopTest) (hquit : s.quit = true) :
      ConsumerMove onFrame s (s.goto i .done)
  | lock (before : s.consumer i = .lock ∨ s.consumer i = .relock) (free : s.mutex i = none) :
      ConsumerMove onFrame s ((s.setMutex i (some (.consumer i))).goto i .waitTest)
  | ready (before : s.consumer i = .waitTest) (hready : s.queue i ≠ [] ∨ s.quit = true) :
      ConsumerMove onFrame s (s.goto i .breakTest)
  | unready (before : s.consumer i = .waitTest) (hempty : s.queue i = []) (hquit : s.quit = false) :
      ConsumerMove onFrame s (s.goto i .block)
  | block (before : s.consumer i = .block) :
      ConsumerMove onFrame s ((s.setMutex i none).goto i .waiting)
  | goOn (before : s.consumer i = .breakTest) (hmore : ¬ (s.quit = true ∧ s.queue i = [])) :
      ConsumerMove onFrame s (s.goto i .pop)
  | stop (before : s.consumer i = .breakTest) (hquit : s.quit = true) (hempty : s.queue i = []) :
      ConsumerMove onFrame s (s.goto i .breakUnlock)
  | breakUnlock (before : s.consumer i = .breakUnlock) :
      ConsumerMove onFrame s ((s.setMutex i none).goto i .done)
  | pop (p : AVPacket) (q : List AVPacket) (before : s.consumer i = .pop) (hqueue : s.queue i = p :: q) :
      ConsumerMove onFrame s ((s.setQueue i q).goto i (.unlock p))
  | unlock (p : AVPacket) (before : s.consumer i = .unlock p) :
      ConsumerMove onFrame s ((s.setMutex i none).goto i (.ctxTest p))
  | ctx (p : AVPacket) (before : s.consumer i = .ctxTest p) :
      ConsumerMove onFrame s (s.goto i (.send p))
  | accept (p : AVPacket) (d : (P.codec i).State) (before : s.consumer i = .send p)
      (hsend : (P.codec i).send (s.dec i) (some p.payload) = (0, d)) :
      ConsumerMove onFrame s ((s.called i (.send p 0) d).goto i (.receive p))
  | reject (p : AVPacket) (r : Int) (d : (P.codec i).State) (before : s.consumer i = .send p)
      (hsend : (P.codec i).send (s.dec i) (some p.payload) = (r, d)) (hr : r ≠ 0) :
      ConsumerMove onFrame s ((s.called i (.send p r) d).goto i (.free p))
  | receive (p : AVPacket) (f : AVFrame) (d : (P.codec i).State) (before : s.consumer i = .receive p)
      (hreceive : (P.codec i).receive (s.dec i) = (0, f, d)) :
      ConsumerMove onFrame s ((s.called i (.receive 0 f) d).goto i (.frame p (onFrame f)))
  | drained (p : AVPacket) (r : Int) (f : AVFrame) (d : (P.codec i).State)
      (before : s.consumer i = .receive p) (hreceive : (P.codec i).receive (s.dec i) = (r, f, d))
      (hr : r ≠ 0) :
      ConsumerMove onFrame s ((s.called i (.receive r f) d).goto i (.free p))
  | body (p : AVPacket) (k : FramePc i) (o : Output P) (next : Option (FramePc i))
      (before : s.consumer i = .frame p k)
      (hstep : frameStep s.quit (P.decHeight (s.dec .video)) s.out k = some (o, next)) :
      ConsumerMove onFrame s { s.goto i (afterFrame p next) with out := o }
  | free (p : AVPacket) (before : s.consumer i = .free p) :
      ConsumerMove onFrame s ((s.freed p.addr).goto i .loopTest)

theorem consumerThread_move {i : Side} {onFrame : AVFrame → FramePc i} {s s' : State P}
    (h : consumerThread i true onFrame s = some s') : ConsumerMove onFrame s s' := by
  unfold consumerThread at h
  cases hpc : s.consumer i with
  | loopTest =>
      simp only [hpc, Option.some.injEq] at h
      subst h
      split
      next hq => exact .leave hpc hq
      next hq => exact .enter hpc (by simpa using hq)
  | lock | relock =>
      simp only [hpc, Option.ite_none_right_eq_some, Option.some.injEq] at h
      obtain ⟨hfree, rfl⟩ := h
      exact .lock (by simp [hpc]) hfree
  | waitTest =>
      simp only [hpc, Option.some.injEq] at h
      subst h
      split
      next hr => exact .ready hpc hr
      next hr =>
        rw [not_or, not_not, Bool.not_eq_true] at hr
        exact .unready hpc hr.1 hr.2
  | breakTest =>
      simp only [hpc, Option.some.injEq] at h
      subst h
      split
      next hb => exact .stop hpc hb.1 hb.2
      next hb => exact .goOn hpc hb
  | pop =>
      cases hq : s.queue i with
      | nil => simp [hpc, hq] at h
      | cons p q =>
          simp only [hpc, hq, Option.some.injEq] at h
          subst h
          exact .pop p q hpc hq
  | send p =>
      rcases hs : (P.codec i).send (s.dec i) (some p.payload) with ⟨r, d⟩
      simp only [hpc, hs, Option.some.injEq] at h
      subst h
      split
      next hr => subst hr; exact .accept p d hpc hs
      next hr => exact .reject p r d hpc hs hr
  | receive p =>
      rcases hs : (P.codec i).receive (s.dec i) with ⟨r, f, d⟩
      simp only [hpc, hs, Option.some.injEq] at h
      subst h
      split
      next hr => subst hr; exact .receive p f d hpc hs
      next hr => exact .drained p r f d hpc hs hr
  | frame p k =>
      simp only [hpc, Option.map_eq_some_iff] at h
      obtain ⟨⟨o, next⟩, hs, rfl⟩ := h
      exact .body p k o next hpc hs
  | block => simp only [hpc, Option.some.injEq] at h; exact h ▸ .block hpc
  | breakUnlock => simp only [hpc, Option.some.injEq] at h; exact h ▸ .breakUnlock hpc
  | unlock p => simp only [hpc, Option.some.injEq] at h; exact h ▸ .unlock p hpc
  | ctxTest p => simp only [hpc, if_true, Option.some.injEq] at h; exact h ▸ .ctx p hpc
  | free p => simp only [hpc, Option.some.injEq] at h; exact h ▸ .free p hpc
  | waiting | done => simp [hpc] at h

inductive FrameMove (quit : Bool) (sliceHeight : Int) (o : Output P) :
    {i : Side} → FramePc i → Output P → Option (FramePc i) → Prop
  | convert (f : AVFrame) :
      FrameMove quit sliceHeight o (.convert f)
        { o with
          swr := (P.swr.convert o.swr P.capacity f).2
          converts := o.converts ++ [(f, (P.swr.convert o.swr P.capacity f).1)] }
        (some (.size f (P.swr.convert o.swr P.capacity f).1))
  | queue (f : AVFrame) (n : Int) (hsize : 0 < n * P.channels * 2) :
      FrameMove quit sliceHeight o (.size f n) o (some (.queueAudio f (n * P.channels * 2).toNat))
  | skip (f : AVFrame) (n : Int) (hsize : ¬ 0 < n * P.channels * 2) :
      FrameMove quit sliceHeight o (.size f n) o none
  | count (f : AVFrame) (n : Nat) :
      FrameMove quit sliceHeight o (.count f n)
        { o with audioWrittenBytes := o.audioWrittenBytes + n, uncounted := 0 } none
  | pts (f : AVFrame) :
      FrameMove quit sliceHeight o (.pts f) o (some (.clockQueued f (P.videoPts f)))
  | clockQueued (f : AVFrame) (v : ℚ) :
      FrameMove quit sliceHeight o (.clockQueued f v)
        { o with sizeRead := ⟨o.audioWrittenBytes, o.uncounted, o.played⟩ }
        (some (.clockWritten f v (P.queuedAudioSize o.queued)))
  | clockWritten (f : AVFrame) (v : ℚ) (q : Nat) :
      FrameMove quit sliceHeight o (.clockWritten f v q)
        { o with clocks := if 0 < P.bytesPerSec
            then o.clocks ++ [⟨o.sizeRead.played, o.audioWrittenBytes - q, o.played⟩] else o.clocks }
        (some (.quitTest f v (P.getAudioClock o.audioWrittenBytes q)))
  | quit (f : AVFrame) (v c : ℚ) (hquit : quit = true) :
      FrameMove quit sliceHeight o (.quitTest f v c) o (some (.scale f c))
  | goOn (f : AVFrame) (v c : ℚ) (hquit : quit = false) :
      FrameMove quit sliceHeight o (.quitTest f v c) o (some (.compare f v c))
  | wait (f : AVFrame) (v c : ℚ) (hahead : P.ahead v c) :
      FrameMove quit sliceHeight o (.compare f v c) o (some (.delay f v))
  | due (f : AVFrame) (v c : ℚ) (hahead : ¬ P.ahead v c) :
      FrameMove quit sliceHeight o (.compare f v c) o (some (.scale f c))
  | delay (f : AVFrame) (v : ℚ) :
      FrameMove quit sliceHeight o (.delay f v) o (some (.clockQueued f v))
  | scale (f : AVFrame) (c : ℚ) :
      FrameMove quit sliceHeight o (.scale f c) o (some (.update ⟨f, sliceHeight, c⟩))
  | update (x : Picture) : FrameMove quit sliceHeight o (.update x) o (some (.clear x))
  | clear (x : Picture) : FrameMove quit sliceHeight o (.clear x) o (some (.copy x))
  | copy (x : Picture) : FrameMove quit sliceHeight o (.copy x) o (some (.present x))
  | present (x : Picture) :
      FrameMove quit sliceHeight o (.present x) { o with rendered := o.rendered ++ [x] } none

theorem frameStep_move {i : Side} {quit : Bool} {sliceHeight : Int} {o o' : Output P} {k : FramePc i}
    {next : Option (FramePc i)} (hs : frameStep quit sliceHeight o k = some (o', next)) :
    FrameMove quit sliceHeight o k o' next := by
  cases k with
  | queueAudio f n => simp [frameStep] at hs
  | size f n =>
      simp only [frameStep, Option.some.injEq, Prod.mk.injEq] at hs
      obtain ⟨rfl, rfl⟩ := hs
      split
      next hn => exact .queue f n hn
      next hn => exact .skip f n hn
  | quitTest f v c =>
      simp only [frameStep, Option.some.injEq, Prod.mk.injEq] at hs
      obtain ⟨rfl, rfl⟩ := hs
      split
      next hq => exact .quit f v c hq
      next hq => exact .goOn f v c (by simpa using hq)
  | compare f v c =>
      simp only [frameStep, Option.some.injEq, Prod.mk.injEq] at hs
      obtain ⟨rfl, rfl⟩ := hs
      split
      next ha => exact .wait f v c ha
      next ha => exact .due f v c ha
  | convert | count | pts | clockQueued | clockWritten | delay | scale | update | clear | copy | present =>
      simp only [frameStep, Option.some.injEq, Prod.mk.injEq] at hs
      obtain ⟨rfl, rfl⟩ := hs
      constructor

structure ConsumerStep (j : Side) (s s' : State P) : Prop where
  quit : s'.quit = s.quit
  reader : s'.reader = s.reader
  main : s'.main = s.main
  input : s'.input = s.input
  allocated : s'.log.allocated = s.log.allocated
  reads : s'.log.reads = s.log.reads
  missed : ∀ i, s'.log.missed i = s.log.missed i
  mutex : ∀ i, i ≠ j → s'.mutex i = s.mutex i
  queue : ∀ i, i ≠ j → s'.queue i = s.queue i
  queue_self : s'.queue j = s.queue j ∨ (s.consumer j = .pop ∧ ∃ p, s.queue j = p :: s'.queue j)
  consumer : ∀ i, i ≠ j → s'.consumer i = s.consumer i
  dec : ∀ i, i ≠ j → s'.dec i = s.dec i
  calls : ∀ i, i ≠ j → s'.log.calls i = s.log.calls i

theorem consumerThread_step {j : Side} {onFrame : AVFrame → FramePc j} {s s' : State P}
    (h : consumerThread j true onFrame s = some s') : ConsumerStep j s s' := by
  cases consumerThread_move h with
  | pop p q hpc hq => constructor <;> simp +contextual [hpc, hq]
  | _ => constructor <;> simp +contextual

structure OutsideBody {i : Side} (onFrame : AVFrame → FramePc i) (s s' : State P) : Prop where
  out : s'.out = s.out
  before : (s.consumer i).body = none
  enter : (s'.consumer i).body = none ∨ ((P.codec i).receive (s.dec i)).1 = 0 ∧
    (s'.consumer i).body = some (onFrame ((P.codec i).receive (s.dec i)).2.1)

structure InBody (i : Side) (s s' : State P) (p : AVPacket) (k : FramePc i)
    (o : Output P) (next : Option (FramePc i)) : Prop where
  before : s.consumer i = .frame p k
  step : frameStep s.quit (P.decHeight (s.dec .video)) s.out k = some (o, next)
  eq : s' = { s.goto i (afterFrame p next) with out := o }

theorem InBody.body_before {i : Side} {s s' : State P} {p : AVPacket} {k : FramePc i}
    {o : Output P} {next : Option (FramePc i)} (h : InBody i s s' p k o next) :
    (s.consumer i).body = some k := by
  rw [h.before]
  rfl

theorem InBody.body_after {i : Side} {s s' : State P} {p : AVPacket} {k : FramePc i}
    {o : Output P} {next : Option (FramePc i)} (h : InBody i s s' p k o next) :
    (s'.consumer i).body = next := by
  rw [h.eq]
  cases next <;> simp [afterFrame, ConsumerPc.body]

theorem InBody.out {i : Side} {s s' : State P} {p : AVPacket} {k : FramePc i}
    {o : Output P} {next : Option (FramePc i)} (h : InBody i s s' p k o next) : s'.out = o := by
  rw [h.eq]

theorem consumerThread_body {i : Side} {onFrame : AVFrame → FramePc i} {s s' : State P}
    (h : consumerThread i true onFrame s = some s') :
    OutsideBody onFrame s s' ∨ ∃ p k o next, InBody i s s' p k o next := by
  cases consumerThread_move h with
  | body p k o next hpc hs => exact Or.inr ⟨p, k, o, next, hpc, hs, rfl⟩
  | receive p f d hpc hr =>
      refine Or.inl ⟨rfl, by rw [hpc]; rfl, Or.inr ?_⟩
      simp [hr, ConsumerPc.body]
  | lock hpc hfree =>
      refine Or.inl ⟨rfl, ?_, Or.inl (by simp [ConsumerPc.body])⟩
      rcases hpc with hpc | hpc <;> simp [hpc, ConsumerPc.body]
  | enter hpc | leave hpc | ready hpc | unready hpc | block hpc | goOn hpc | stop hpc | breakUnlock hpc
  | pop p q hpc | unlock p hpc | ctx p hpc | accept p d hpc | reject p r d hpc | drained p r f d hpc
  | free p hpc =>
      exact Or.inl ⟨rfl, by rw [hpc]; rfl, Or.inl (by simp [ConsumerPc.body])⟩

theorem queueAudioStep_eq {accepted : Bool} {s s' : State P} (h : queueAudioStep accepted s = some s') :
    ∃ p f n, s.consumer .audio = .frame p (.queueAudio f n) ∧
      s' = { s.goto .audio (.frame p (.count f n)) with out := sdlQueueAudio accepted s.out f n } := by
  unfold queueAudioStep at h
  split at h
  next p f n hpc => exact ⟨p, f, n, hpc, (Option.some.inj h).symm⟩
  next => simp at h

theorem queueAudioStep_step {accepted : Bool} {s s' : State P}
    (h : queueAudioStep accepted s = some s') : ConsumerStep .audio s s' := by
  obtain ⟨p, f, n, -, rfl⟩ := queueAudioStep_eq h
  constructor <;> simp +contextual

end FfmpegPlayer.ConsumerThreads
