import FfmpegPlayer.Interleaving

namespace FfmpegPlayer.AudioClock

open SendReceive Media Threads ReadThread ConsumerThreads MainThread Interleaving

variable {P : Player}

def flying : Option (FramePc .audio) → Nat
  | some (.count _ n) => n
  | _ => 0

structure Counters (s : State P) : Prop where
  balance : s.out.audioWrittenBytes + s.out.uncounted = s.out.queued + s.out.played
  flight : s.out.uncounted = flying (s.consumer .audio).body
  size : ∀ f v q, (s.consumer .video).body = some (.clockWritten f v q) →
    (q : Int) + s.out.sizeRead.played = s.out.sizeRead.written + s.out.sizeRead.uncounted
  played : s.out.sizeRead.played ≤ s.out.played

def clock (o : Output P) : ℚ := P.getAudioClock o.audioWrittenBytes (P.queuedAudioSize o.queued)

theorem Counters.clock_eq {s : State P} (hc : Counters s) (hdouble : P.Exact) (hexact : ∀ n, P.queuedAudioSize n = n)
    (hcount : flying (s.consumer .audio).body = 0) (hpos : 0 < P.bytesPerSec) :
    clock s.out = s.out.played / P.bytesPerSec := by
  have hbal := hc.balance
  have hflight := hc.flight
  rw [hcount] at hflight
  have hdiff : s.out.audioWrittenBytes - s.out.queued = s.out.played := by omega
  rw [clock, hdouble.getAudioClock_eq hpos, hexact, hdiff]
  simp

theorem counters_of_same {s s' : State P} (hc : Counters s) (ho : s'.out = s.out)
    (hw : ∀ i, s'.consumer i = s.consumer i ∨ s'.consumer i = (s.consumer i).woken) : Counters s' := by
  constructor
  · rw [ho]; exact hc.balance
  · rw [ho, body_of_woken (hw .audio)]; exact hc.flight
  · rw [ho, body_of_woken (hw .video)]; exact hc.size
  · rw [ho]; exact hc.played

inductive ClockStep (s s' : State P) : Act → Prop
  | other {a} (clocks : s'.out.clocks = s.out.clocks) (size : s'.out.sizeRead = s.out.sizeRead)
      (body : ∀ f v q, (s'.consumer .video).body = some (.clockWritten f v q) →
        (s.consumer .video).body = some (.clockWritten f v q))
      (idle : a = .consumer .video → ∀ f v q,
        (s.consumer .video).body = some (.clockWritten f v q) → ¬ 0 < P.bytesPerSec) : ClockStep s s' a
  | queued (f v) (before : (s.consumer .video).body = some (.clockQueued f v))
      (clocks : s'.out.clocks = s.out.clocks) (size : s'.out.sizeRead.played = s.out.played) :
      ClockStep s s' (.consumer .video)
  | written (f v q) (before : (s.consumer .video).body = some (.clockWritten f v q))
      (pos : 0 < P.bytesPerSec) (after : ∀ f v q, (s'.consumer .video).body ≠ some (.clockWritten f v q))
      (clocks : s'.out.clocks = s.out.clocks ++
        [⟨s.out.sizeRead.played, s.out.audioWrittenBytes - q, s.out.played⟩]) :
      ClockStep s s' (.consumer .video)

theorem clockStep_consumer {i : Side} {s s' : State P}
    (h : consumerThread i true (onFrame i) s = some s') : ClockStep s s' (.consumer i) := by
  have hs := consumerThread_step h
  cases i with
  | audio =>
      have hb : ∀ f v q, (s'.consumer .video).body = some (.clockWritten f v q) →
          (s.consumer .video).body = some (.clockWritten f v q) := by
        rw [hs.consumer .video (by simp)]
        exact fun _ _ _ hb => hb
      rcases consumerThread_body h with hout | ⟨p, k, o, next, hin⟩
      · exact .other (by rw [hout.out]) (by rw [hout.out]) hb (by simp)
      · have ho := hin.out
        cases frameStep_move hin.step with
        | convert | queue | skip | count => exact .other (by rw [ho]) (by rw [ho]) hb (by simp)
  | video =>
      rcases consumerThread_body h with hout | ⟨p, k, o, next, hin⟩
      · refine .other (by rw [hout.out]) (by rw [hout.out]) (fun f v q hb => ?_)
          (fun _ f v q hb => ?_)
        · rcases hout.enter with he | ⟨-, he⟩
          · rw [he] at hb; simp at hb
          · rw [he] at hb; simp [onFrame] at hb
        · rw [hout.before] at hb; simp at hb
      · have ho := hin.out
        have hnext := hin.body_after
        cases frameStep_move hin.step with
        | clockQueued f v => exact .queued f v hin.body_before (by rw [ho]) (by rw [ho])
        | clockWritten f v q =>
            by_cases hb : 0 < P.bytesPerSec
            · exact .written f v q hin.body_before hb (by simp [hnext]) (by rw [ho]; exact if_pos hb)
            · exact .other (by rw [ho]; exact if_neg hb) (by rw [ho]) (by simp [hnext]) (fun _ _ _ _ _ => hb)
        | pts | quit | goOn | wait | due | delay | scale | update | clear | copy | present =>
            exact .other (by rw [ho]) (by rw [ho]) (by simp [hnext]) (by simp [hin.body_before])

theorem clockStep {a : Act} {s s' : State P} (h : step s a = some s') : ClockStep s s' a := by
  cases a with
  | consumer i => exact clockStep_consumer (step_consumer h)
  | queueAudio accepted =>
      obtain ⟨p, f, n, -, rfl⟩ := queueAudioStep_eq h
      exact .other rfl rfl (fun f v q hb => hb) (by simp)
  | drain n =>
      obtain ⟨-, rfl⟩ := drain_eq h
      exact .other rfl rfl (fun f v q hb => hb) (by simp)
  | reader | main | poll e | spurious i =>
      have ho := step_out_of_ne h (by simp) (by simp) (by simp)
      refine .other (by rw [ho]) (by rw [ho]) (fun f v q hb => ?_) (by simp)
      rwa [body_of_woken (step_consumer_of_ne h (by simp) (by simp))] at hb

theorem counters_audio {s s' : State P}
    (h : consumerThread .audio true (onFrame .audio) s = some s') (hc : Counters s) : Counters s' := by
  have hs := consumerThread_step h
  rcases consumerThread_body h with hout | ⟨p, k, o, next, hin⟩
  · refine ⟨?_, ?_, ?_, ?_⟩ <;> rw [hout.out]
    · exact hc.balance
    · rw [hc.flight, hout.before]
      rcases hout.enter with he | ⟨-, he⟩
      · rw [he]
      · rw [he]; rfl
    · rw [hs.consumer .video (by simp)]; exact hc.size
    · exact hc.played
  · have hvideo : s'.consumer .video = s.consumer .video := hs.consumer .video (by simp)
    have hbal := hc.balance
    have hflight := hc.flight
    rw [hin.body_before] at hflight
    cases frameStep_move hin.step with
    | convert | queue | skip =>
        constructor <;> rw [hin.out]
        · exact hbal
        · rw [hin.body_after]; exact hflight
        · rw [hvideo]; exact hc.size
        · exact hc.played
    | count f n =>
        have hn : s.out.uncounted = n := hflight
        constructor <;> rw [hin.out]
        · simp only
          omega
        · rw [hin.body_after]; rfl
        · rw [hvideo]; exact hc.size
        · exact hc.played

theorem counters_video (hexact : ∀ n, P.queuedAudioSize n = n) {s s' : State P}
    (h : consumerThread .video true (onFrame .video) s = some s') (hc : Counters s) : Counters s' := by
  have hs := consumerThread_step h
  rcases consumerThread_body h with hout | ⟨p, k, o, next, hin⟩
  · refine ⟨?_, ?_, ?_, ?_⟩ <;> rw [hout.out]
    · exact hc.balance
    · rw [hs.consumer .audio (by simp)]; exact hc.flight
    · intro f v q hb
      rcases hout.enter with he | ⟨-, he⟩
      · rw [he] at hb; simp at hb
      · rw [he] at hb; simp [onFrame] at hb
    · exact hc.played
  · have haudio : s'.consumer .audio = s.consumer .audio := hs.consumer .audio (by simp)
    cases frameStep_move hin.step with
    | clockQueued f v =>
        constructor <;> rw [hin.out]
        · exact hc.balance
        · rw [haudio]; exact hc.flight
        · intro g u q hb
          rw [hin.body_after, hexact] at hb
          simp only [Option.some.injEq, FramePc.clockWritten.injEq] at hb
          obtain ⟨-, -, rfl⟩ := hb
          exact hc.balance.symm
    | pts | clockWritten | quit | goOn | wait | due | delay | scale | update | clear | copy | present =>
        constructor <;> rw [hin.out]
        · exact hc.balance
        · rw [haudio]; exact hc.flight
        · simp [hin.body_after]
        · exact hc.played

theorem counters_step (hexact : ∀ n, P.queuedAudioSize n = n) {a : Act} {s s' : State P}
    (h : step s a = some s') (ha : a ≠ .queueAudio false) (hc : Counters s) : Counters s' := by
  cases a with
  | consumer i =>
      cases i with
      | audio => exact counters_audio (step_consumer h) hc
      | video => exact counters_video hexact (step_consumer h) hc
  | queueAudio accepted =>
      obtain ⟨p, f, n, hpc, rfl⟩ := queueAudioStep_eq h
      cases accepted with
      | false => exact absurd rfl ha
      | true =>
          have hbal := hc.balance
          have hflight := hc.flight
          rw [hpc] at hflight
          refine ⟨?_, ?_, ?_, ?_⟩
          · simp only [ConsumerPc.body, flying] at hflight
            simp only [sdlQueueAudio, if_true]
            omega
          · simp [sdlQueueAudio, ConsumerPc.body, flying]
          · exact hc.size
          · exact hc.played
  | drain n =>
      obtain ⟨hn, rfl⟩ := drain_eq h
      have hbal := hc.balance
      have hplayed := hc.played
      refine ⟨?_, hc.flight, hc.size, ?_⟩
      · simp only
        omega
      · exact hplayed.trans (Nat.le_add_right _ _)
  | reader | main | poll e | spurious i =>
      exact counters_of_same hc (step_out_of_ne h (by simp) (by simp) (by simp))
        (fun j => step_consumer_of_ne h (by simp) (by simp))

theorem counters_start (file : List Payload) : Counters (start P file) :=
  ⟨rfl, rfl, by simp [start, ConsumerPc.body], le_rfl⟩

theorem counters {file : List Payload} {acts : List Act} {s : State P} (h : Runs file acts s)
    (hexact : ∀ n, P.queuedAudioSize n = n) (hqueue : ∀ a ∈ acts, a ≠ .queueAudio false) :
    Counters s := by
  have hG := Transition.along_of_forall step (A := fun a => a ≠ .queueAudio false)
    (start P file) hqueue
  exact Transition.invariant_along (fun _ _ _ hc ha h => counters_step hexact h ha hc) hG
    (counters_start file) h

structure Ordered (s : State P) : Prop where
  calls : s.out.clocks.Pairwise (fun c d => c.finish ≤ d.start)
  played : ∀ c ∈ s.out.clocks, c.finish ≤ s.out.played
  sizeRead : ∀ f v q, (s.consumer .video).body = some (.clockWritten f v q) →
    ∀ c ∈ s.out.clocks, c.finish ≤ s.out.sizeRead.played

/-- get_audio_clock reads the two counters as if at one moment: by the load of
the counter the audio thread has counted what the device already had when its
queue was read, and has since counted no more than the device has played. -/
def ReadsConsistently (s : State P) : Act → Prop
  | .consumer .video => ∀ f v q, (s.consumer .video).body = some (.clockWritten f v q) →
      0 < P.bytesPerSec →
      (s.out.sizeRead.uncounted : Int) ≤ s.out.audioWrittenBytes - s.out.sizeRead.written ∧
      s.out.audioWrittenBytes - s.out.sizeRead.written ≤
        s.out.sizeRead.uncounted + (s.out.played - s.out.sizeRead.played : Int)
  | _ => True

def Within (c : ClockCall) : Prop := c.start ≤ c.value ∧ c.value ≤ c.finish

def Misread (s : State P) : Prop := ∃ c ∈ s.out.clocks, ¬ Within c

theorem misread_step {a : Act} {s s' : State P} (h : step s a = some s') (hm : Misread s) :
    Misread s' := by
  obtain ⟨c, hc, hw⟩ := hm
  refine ⟨c, ?_, hw⟩
  cases clockStep h with
  | other clocks => rwa [clocks]
  | queued f v before clocks => rwa [clocks]
  | written f v q before pos after clocks => rw [clocks]; exact List.mem_append_left _ hc

/-- By the record of the queue reading, what a call computes is off the bytes
played then by what has been counted since beyond the chunk in flight. -/
theorem within_iff {s : State P} (hc : Counters s) {f : AVFrame} {v : ℚ} {q : Nat}
    (hb : (s.consumer .video).body = some (.clockWritten f v q)) :
    Within ⟨s.out.sizeRead.played, s.out.audioWrittenBytes - q, s.out.played⟩ ↔
      (s.out.sizeRead.uncounted : Int) ≤ s.out.audioWrittenBytes - s.out.sizeRead.written ∧
      s.out.audioWrittenBytes - s.out.sizeRead.written ≤
        s.out.sizeRead.uncounted + (s.out.played - s.out.sizeRead.played : Int) := by
  have hs := hc.size f v q hb
  simp only [Within]
  omega

theorem misread_iff {a : Act} {s s' : State P} (h : step s a = some s') (hc : Counters s)
    (hm : ¬ Misread s) : Misread s' ↔ ¬ ReadsConsistently s a := by
  cases clockStep h with
  | other clocks size body idle =>
      have hg : ReadsConsistently s a := by
        unfold ReadsConsistently
        split
        next => exact fun f v q hb hp => absurd hp (idle rfl f v q hb)
        next => trivial
      rw [Misread, clocks]
      exact ⟨fun hb => absurd hb hm, fun hn => absurd hg hn⟩
  | queued f v before clocks size =>
      have hg : ReadsConsistently s (.consumer .video) := by
        intro f v q hb
        rw [before] at hb
        simp at hb
      rw [Misread, clocks]
      exact ⟨fun hb => absurd hb hm, fun hn => absurd hg hn⟩
  | written f v q before pos after clocks =>
      have hg : ReadsConsistently s (.consumer .video) ↔
          Within ⟨s.out.sizeRead.played, s.out.audioWrittenBytes - q, s.out.played⟩ := by
        rw [within_iff hc before]
        exact ⟨fun hr => hr f v q before pos, fun hw _ _ _ _ _ => hw⟩
      rw [hg]
      constructor
      · rintro ⟨c, hmem, hw⟩
        rw [clocks, List.mem_append, List.mem_singleton] at hmem
        rcases hmem with hmem | rfl
        · exact absurd ⟨c, hmem, hw⟩ hm
        · exact hw
      · exact fun hw => ⟨_, by rw [clocks]; exact List.mem_append_right _ (by simp), hw⟩

inductive DeviceStep (s s' : State P) : Act → Prop
  | other {a} (chunks : s'.out.chunks = s.out.chunks) (queued : s'.out.queued = s.out.queued)
      (played : s'.out.played = s.out.played) (idle : ∀ b, a ≠ .queueAudio b) : DeviceStep s s' a
  | queue (f : AVFrame) (n : Nat) (b : Bool)
      (before : (s.consumer .audio).body = some (.queueAudio f n))
      (chunks : s'.out.chunks = s.out.chunks ++ [⟨f, n, b⟩])
      (queued : s'.out.queued = if b then s.out.queued + n else s.out.queued)
      (played : s'.out.played = s.out.played) : DeviceStep s s' (.queueAudio b)
  | drain (n : Nat) (hn : n ≤ s.out.queued) (chunks : s'.out.chunks = s.out.chunks)
      (queued : s'.out.queued = s.out.queued - n) (played : s'.out.played = s.out.played + n) :
      DeviceStep s s' (.drain n)

theorem frameStep_device {i : Side} {quit : Bool} {height : Int} {o o' : Output P} {k : FramePc i}
    {next : Option (FramePc i)} (hs : frameStep quit height o k = some (o', next)) :
    o'.chunks = o.chunks ∧ o'.queued = o.queued ∧ o'.played = o.played := by
  cases frameStep_move hs <;> exact ⟨rfl, rfl, rfl⟩

theorem deviceStep {a : Act} {s s' : State P} (h : step s a = some s') : DeviceStep s s' a := by
  cases a with
  | consumer i =>
      rcases consumerThread_body (step_consumer h) with hout | ⟨p, k, o, next, hin⟩
      · exact .other (by rw [hout.out]) (by rw [hout.out]) (by rw [hout.out]) (by simp)
      · obtain ⟨hc, hq, hp⟩ := frameStep_device hin.step
        exact .other (by rw [hin.out, hc]) (by rw [hin.out, hq]) (by rw [hin.out, hp]) (by simp)
  | queueAudio b =>
      obtain ⟨p, f, n, hpc, rfl⟩ := queueAudioStep_eq h
      exact .queue f n b (by rw [hpc]; rfl) rfl rfl rfl
  | drain n =>
      obtain ⟨hn, rfl⟩ := drain_eq h
      exact .drain n hn rfl rfl rfl
  | reader | main | poll e | spurious i =>
      have ho := step_out_of_ne h (by simp) (by simp) (by simp)
      exact .other (by rw [ho]) (by rw [ho]) (by rw [ho]) (by simp)

theorem played_le {a : Act} {s s' : State P} (h : step s a = some s') :
    s.out.played ≤ s'.out.played := by
  cases deviceStep h with
  | other chunks queued played => exact played.ge
  | queue f n b before chunks queued played => exact played.ge
  | drain n hn chunks queued played => exact played ▸ Nat.le_add_right _ _

theorem ordered_step {a : Act} {s s' : State P} (h : step s a = some s') (ho : Ordered s) :
    Ordered s' := by
  have hle := played_le h
  cases clockStep h with
  | other clocks size body idle =>
      refine ⟨?_, ?_, ?_⟩ <;> rw [clocks]
      · exact ho.calls
      · exact fun c hc => (ho.played c hc).trans hle
      · rw [size]; exact fun f v q hb => ho.sizeRead f v q (body f v q hb)
  | queued f v before clocks size =>
      refine ⟨?_, ?_, ?_⟩ <;> rw [clocks]
      · exact ho.calls
      · exact fun c hc => (ho.played c hc).trans hle
      · rw [size]; exact fun f v q hb => ho.played
  | written f v q before pos after clocks =>
      refine ⟨?_, ?_, fun f v q hb => absurd hb (after f v q)⟩ <;> rw [clocks]
      · rw [List.pairwise_append]
        refine ⟨ho.calls, List.pairwise_singleton _ _, fun c hc d hd => ?_⟩
        rw [List.mem_singleton.mp hd]
        exact ho.sizeRead f v q before c hc
      · intro c hc
        rw [List.mem_append, List.mem_singleton] at hc
        rcases hc with hc | rfl
        · exact (ho.played c hc).trans hle
        · exact hle

/-- The clock is linearizable: each value is a number of bytes played during
the call; so it is never negative nor ahead of the device, and never decreases. -/
structure Linearizable (s : State P) : Prop where
  within : ∀ c ∈ s.out.clocks, Within c
  nonneg : ∀ c ∈ s.out.clocks, 0 ≤ c.value
  played : ∀ c ∈ s.out.clocks, c.value ≤ s.out.played
  mono : s.out.clocks.Pairwise (fun c d => c.value ≤ d.value)

theorem linearizable_of_ordered {s : State P} (ho : Ordered s) (hm : ¬ Misread s) : Linearizable s := by
  have hw : ∀ c ∈ s.out.clocks, Within c := fun c hc => by
    by_contra hw
    exact hm ⟨c, hc, hw⟩
  refine ⟨hw, fun c hc => ?_, fun c hc => ?_, ?_⟩
  · have := (hw c hc).1
    omega
  · have := (hw c hc).2
    have := ho.played c hc
    omega
  · refine ho.calls.imp_of_mem (fun {c d} hc hd hcd => ?_)
    have := (hw c hc).2
    have := (hw d hd).1
    omega

theorem ordered {file : List Payload} {acts : List Act} {s : State P} (h : Runs file acts s) : Ordered s :=
  Transition.invariant (fun _ _ _ ho h => ordered_step h ho)
    ⟨List.Pairwise.nil, by simp [start, Output.start], by simp [start, Output.start]⟩ h

theorem reads_iff {file : List Payload} {acts : List Act} {s : State P} (h : Runs file acts s)
    (hexact : ∀ n, P.queuedAudioSize n = n) (hqueue : ∀ a ∈ acts, a ≠ .queueAudio false) :
    Transition.Along step ReadsConsistently (start P file) acts ↔ ¬ Misread s :=
  Transition.along_iff_of_recorded (I := Counters)
    (fun _ _ _ hc ha h => counters_step hexact h ha hc)
    (fun _ _ _ _ _ h hm => misread_step h hm)
    (fun _ _ _ hc _ h hm => misread_iff h hc hm)
    (Transition.along_of_forall step (A := fun a => a ≠ .queueAudio false) _ hqueue)
    (counters_start file) (by simp [Misread, start, Output.start]) h

theorem linearizable_of_reads {file : List Payload} {acts : List Act} {s : State P} (h : Runs file acts s)
    (hexact : ∀ n, P.queuedAudioSize n = n) (hqueue : ∀ a ∈ acts, a ≠ .queueAudio false)
    (hreads : Transition.Along step ReadsConsistently (start P file) acts) : Linearizable s :=
  linearizable_of_ordered (ordered h) ((reads_iff h hexact hqueue).mp hreads)

/-- With every SDL_QueueAudio taken and an exact queue size, the clock is
linearizable if and only if no call loads the counter while a chunk the device
already had is uncounted, or after more was counted than has been played since. -/
theorem audio_clock_linearizable_iff {file : List Payload} {acts : List Act} {s : State P}
    (h : Runs file acts s) (hexact : ∀ n, P.queuedAudioSize n = n)
    (hqueue : ∀ a ∈ acts, a ≠ .queueAudio false) :
    Linearizable s ↔ Transition.Along step ReadsConsistently (start P file) acts := by
  constructor
  · intro hl
    refine (reads_iff h hexact hqueue).mpr ?_
    rintro ⟨c, hc, hw⟩
    exact hw (hl.within c hc)
  · exact linearizable_of_reads h hexact hqueue

def countedInTime : List Act :=
  List.replicate 26 .reader ++ List.replicate 11 (.consumer .audio) ++ [.queueAudio true, .consumer .audio, .drain 1] ++
    List.replicate 11 (.consumer .video) ++ [.drain 1, .consumer .video]

theorem audio_clock_linearizable_sample : ∃ s : State stereo, Runs [⟨1, []⟩, ⟨0, []⟩] countedInTime s ∧
    s.out.clocks = [⟨1, 1, 2⟩] ∧ Linearizable s ∧
    Transition.Along step ReadsConsistently (start stereo [⟨1, []⟩, ⟨0, []⟩]) countedInTime := by
  obtain ⟨s, hs, hp⟩ := Transition.exists_of_run_any step (start stereo [⟨1, []⟩, ⟨0, []⟩]) countedInTime
    (fun s : State stereo => decide (s.out.clocks = [⟨1, 1, 2⟩] ∧ s.out.played = 2)) (by decide)
  obtain ⟨hc, hplayed⟩ := of_decide_eq_true hp
  have hl : Linearizable s := by constructor <;> simp [hc, hplayed, Within]
  exact ⟨s, hs, hc, hl, (audio_clock_linearizable_iff hs (fun _ => rfl) (by decide)).mp hl⟩

/-- The audio thread has queued its first chunk and not counted it when the
video thread reads the queued size and loads the counter. -/
def countedLate : List Act :=
  List.replicate 26 .reader ++ List.replicate 11 (.consumer .audio) ++ [.queueAudio true] ++
    List.replicate 12 (.consumer .video)

theorem countedLate_runs : ∃ s : State stereo, Runs [⟨1, []⟩, ⟨0, []⟩] countedLate s ∧
    s.out.clocks = [⟨0, -4, 0⟩] := by
  obtain ⟨s, hs, hp⟩ := Transition.exists_of_run_any step (start stereo [⟨1, []⟩, ⟨0, []⟩]) countedLate
    (fun s : State stereo => decide (s.out.clocks = [⟨0, -4, 0⟩])) (by decide)
  exact ⟨s, hs, of_decide_eq_true hp⟩

theorem not_audio_clock_linearizable :
    ¬ ∀ (P : Player) (file : List Payload) (acts : List Act) (s : State P), Runs file acts s →
      (∀ n, P.queuedAudioSize n = n) → (∀ a ∈ acts, a ≠ .queueAudio false) → Linearizable s := by
  intro hall
  obtain ⟨s, hs, hc⟩ := countedLate_runs
  have h := (hall stereo _ _ s hs (fun _ => rfl) (by decide)).nonneg ⟨0, -4, 0⟩ (by rw [hc]; simp)
  simp at h

end FfmpegPlayer.AudioClock
