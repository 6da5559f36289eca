import FfmpegPlayer.Decoding
import FfmpegPlayer.AudioClock
import FfmpegPlayer.BlockStream

namespace FfmpegPlayer.Playback

open SendReceive Media Threads ReadThread ConsumerThreads MainThread Interleaving
open BlockStream AudioClock Decoding

variable (P : Player)

/-- Frames put through swr_convert one after the other: each with the number
of samples its call returns. -/
def resample (fs : List AVFrame) : List (AVFrame × Int) × P.swr.State :=
  fs.foldl (fun r f =>
    let c := P.swr.convert r.2 P.capacity f
    (r.1 ++ [(f, c.1)], c.2)) ([], P.swr.init)

def dataSize (outSamples : Int) : Int := outSamples * P.channels * 2

def blocks (converts : List (AVFrame × Int)) : List (AVFrame × Nat) :=
  converts.filterMap (fun c =>
    if 0 < dataSize P c.2 then some (c.1, (dataSize P c.2).toNat) else none)

def soundBytes (fs : List AVFrame) : Nat := total (blocks P (resample P fs).1)

@[simp] theorem blocks_append (cs ds : List (AVFrame × Int)) :
    blocks P (cs ++ ds) = blocks P cs ++ blocks P ds := by
  simp [blocks]

theorem blocks_singleton (f : AVFrame) (n : Int) :
    blocks P [(f, n)] = if 0 < dataSize P n then [(f, (dataSize P n).toNat)] else [] := by
  unfold blocks
  split <;> simp [*]

variable {P}

theorem resample_append_frame (fs : List AVFrame) (f : AVFrame) :
    resample P (fs ++ [f]) =
      ((resample P fs).1 ++ [(f, (P.swr.convert (resample P fs).2 P.capacity f).1)],
        (P.swr.convert (resample P fs).2 P.capacity f).2) := by
  rw [resample, List.foldl_append]
  rfl

theorem resample_initial_segment (fs gs : List AVFrame) : (resample P fs).1 <+: (resample P (fs ++ gs)).1 := by
  induction gs using List.reverseRecOn with
  | nil => simp
  | append_singleton gs g ih =>
      rw [← List.append_assoc, resample_append_frame]
      exact ih.trans (List.prefix_append _ _)

theorem resample_snoc {cs : List (AVFrame × Int)} {w : P.swr.State}
    (h : resample P (cs.map Prod.fst) = (cs, w)) (f : AVFrame) :
    resample P ((cs ++ [(f, (P.swr.convert w P.capacity f).1)]).map Prod.fst) =
      (cs ++ [(f, (P.swr.convert w P.capacity f).1)], (P.swr.convert w P.capacity f).2) := by
  rw [List.map_append, List.map_singleton, resample_append_frame, h]

def toConvert : Option (FramePc .audio) → List AVFrame
  | some (.convert f) => [f]
  | _ => []

def toQueue (P : Player) : Option (FramePc .audio) → List (AVFrame × Nat)
  | some (.size f n) => blocks P [(f, n)]
  | some (.queueAudio f n) => [(f, n)]
  | _ => []

def queuedBlocks (cs : List Chunk) : List (AVFrame × Nat) := cs.map (fun c => (c.frame, c.size))

/-- How the frames the audio decoder has returned become counted bytes: every
one is converted, every positive size is queued, every block queued is counted. -/
structure AudioPath (fs : List AVFrame) (o : Output P) (b : Option (FramePc .audio)) : Prop where
  decoded : fs = o.converts.map Prod.fst ++ toConvert b
  resampled : resample P (o.converts.map Prod.fst) = (o.converts, o.swr)
  cut : blocks P o.converts = queuedBlocks o.chunks ++ toQueue P b
  counted : (total (queuedBlocks o.chunks) : Int) = o.audioWrittenBytes + flying b

theorem audioPath_start : AudioPath [] (Output.start P) none :=
  ⟨rfl, rfl, rfl, rfl⟩

theorem AudioPath.enter {fs : List AVFrame} {o : Output P} (h : AudioPath fs o none) (f : AVFrame) :
    AudioPath (fs ++ [f]) o (some (.convert f)) := by
  refine ⟨?_, h.resampled, h.cut, h.counted⟩
  have hd := h.decoded
  simp only [toConvert, List.append_nil] at hd ⊢
  rw [hd]

theorem AudioPath.frameStep {fs : List AVFrame} {quit : Bool} {height : Int} {o o' : Output P}
    {k : FramePc .audio} {next : Option (FramePc .audio)}
    (hs : ConsumerThreads.frameStep quit height o k = some (o', next)) (h : AudioPath fs o (some k)) :
    AudioPath fs o' next := by
  obtain ⟨hdec, hres, hcut, hcnt⟩ := h
  cases frameStep_move hs with
  | convert f =>
      refine ⟨?_, resample_snoc hres f, ?_, hcnt⟩
      · simpa [toConvert] using hdec
      · simpa [toQueue] using hcut
  | queue f n hn =>
      have hn' : 0 < dataSize P n := hn
      rw [toQueue, blocks_singleton, if_pos hn'] at hcut
      exact ⟨hdec, hres, hcut, hcnt⟩
  | skip f n hn =>
      have hn' : ¬ 0 < dataSize P n := hn
      rw [toQueue, blocks_singleton, if_neg hn'] at hcut
      exact ⟨hdec, hres, hcut, hcnt⟩
  | count f n =>
      refine ⟨hdec, hres, hcut, ?_⟩
      simpa [flying] using hcnt

theorem AudioPath.queued {fs : List AVFrame} {o : Output P} {f : AVFrame} {n : Nat}
    (h : AudioPath fs o (some (.queueAudio f n))) (accepted : Bool) :
    AudioPath fs (sdlQueueAudio accepted o f n) (some (.count f n)) := by
  obtain ⟨hdec, hres, hcut, hcnt⟩ := h
  refine ⟨hdec, hres, ?_, ?_⟩
  · simpa [sdlQueueAudio, queuedBlocks, toQueue] using hcut
  · simpa [sdlQueueAudio, queuedBlocks, flying] using hcnt

theorem AudioPath.video {fs : List AVFrame} {b : Option (FramePc .audio)} {quit : Bool} {height : Int}
    {o o' : Output P} {k : FramePc .video} {next : Option (FramePc .video)}
    (hs : ConsumerThreads.frameStep quit height o k = some (o', next)) (h : AudioPath fs o b) :
    AudioPath fs o' b := by
  cases frameStep_move hs <;> exact ⟨h.decoded, h.resampled, h.cut, h.counted⟩

/-- What is queued is what swr_convert makes of the frames received, in order. -/
theorem AudioPath.queued_initial_segment {fs : List AVFrame} {o : Output P} {b : Option (FramePc .audio)}
    (h : AudioPath fs o b) : queuedBlocks o.chunks <+: blocks P (resample P fs).1 := by
  have hconverts := resample_initial_segment (P := P) (o.converts.map Prod.fst) (toConvert b)
  rw [h.resampled, ← h.decoded] at hconverts
  have hqueued : queuedBlocks o.chunks <+: blocks P o.converts := ⟨_, h.cut.symm⟩
  exact hqueued.trans (hconverts.filterMap _)

theorem AudioPath.soundBytes_eq {fs : List AVFrame} {o : Output P} (h : AudioPath fs o none) :
    (soundBytes P fs : Int) = o.audioWrittenBytes := by
  have hdec := h.decoded
  have hcut := h.cut
  have hcnt := h.counted
  simp only [toConvert, toQueue, flying, List.append_nil, Nat.cast_zero, add_zero] at hdec hcut hcnt
  rw [soundBytes, hdec, h.resampled, hcut, hcnt]

def onScreen : FramePc .video → AVFrame
  | .pts f | .clockQueued f _ | .clockWritten f _ _ | .quitTest f _ _ | .compare f _ _ | .delay f _
  | .scale f _ => f
  | .update x | .clear x | .copy x | .present x => x.frame

def syncing : FramePc .video → Option (AVFrame × ℚ)
  | .clockQueued f v | .clockWritten f v _ | .quitTest f v _ | .compare f v _ | .delay f v => some (f, v)
  | _ => none

structure VideoPath (fs : List AVFrame) (o : Output P) (b : Option (FramePc .video)) : Prop where
  shown : fs = o.rendered.map Picture.frame ++ (b.map onScreen).toList
  timed : ∀ f v, b.bind syncing = some (f, v) → v = P.videoPts f

theorem videoPath_start : VideoPath [] (Output.start P) none :=
  ⟨rfl, by simp⟩

theorem VideoPath.enter {fs : List AVFrame} {o : Output P} (h : VideoPath fs o none) (f : AVFrame) :
    VideoPath (fs ++ [f]) o (some (.pts f)) := by
  refine ⟨?_, by simp [syncing]⟩
  have hs := h.shown
  simp only [Option.map_none, Option.toList_none, List.append_nil] at hs
  rw [hs]
  rfl

theorem VideoPath.frameStep {fs : List AVFrame} {quit : Bool} {height : Int} {o o' : Output P}
    {k : FramePc .video} {next : Option (FramePc .video)}
    (hs : ConsumerThreads.frameStep quit height o k = some (o', next)) (h : VideoPath fs o (some k)) :
    VideoPath fs o' next := by
  obtain ⟨hshown, htimed⟩ := h
  cases frameStep_move hs with
  | pts f =>
      refine ⟨hshown, fun g v he => ?_⟩
      simp only [Option.bind_some, syncing, Option.some.injEq, Prod.mk.injEq] at he
      rw [← he.1, ← he.2]
  | clockQueued | clockWritten | goOn | wait | delay => exact ⟨hshown, htimed⟩
  | quit | due | scale | update | clear | copy => exact ⟨hshown, by simp [syncing]⟩
  | present x => exact ⟨by simpa [onScreen] using hshown, by simp⟩

theorem rendered_audio {quit : Bool} {height : Int} {o o' : Output P} {k : FramePc .audio}
    {next : Option (FramePc .audio)} (hs : frameStep quit height o k = some (o', next)) :
    o'.rendered = o.rendered := by
  cases frameStep_move hs <;> rfl

inductive VideoStep (s s' : State P) : Act → Prop
  | other {a} (rendered : s'.out.rendered = s.out.rendered)
      (body : (s'.consumer .video).body = (s.consumer .video).body)
      (dec : (s.consumer .video).body = none ∨ s'.dec .video = s.dec .video)
      (received : received s .video a = [])
      (idle : a = .consumer .video → (s.consumer .video).body = none) : VideoStep s s' a
  | enter (f : AVFrame) (rendered : s'.out.rendered = s.out.rendered)
      (before : (s.consumer .video).body = none) (after : (s'.consumer .video).body = some (.pts f))
      (received : received s .video (.consumer .video) = [(f, s'.dec .video)]) :
      VideoStep s s' (.consumer .video)
  | body (p : AVPacket) (k : FramePc .video) (o : Output P) (next : Option (FramePc .video))
      (hin : InBody .video s s' p k o next) : VideoStep s s' (.consumer .video)

theorem videoStep_consumer {s s' : State P}
    (h : consumerThread .video true (onFrame .video) s = some s') : VideoStep s s' (.consumer .video) := by
  cases consumerThread_move h with
  | body p k o next hpc hs => exact .body p k o next ⟨hpc, hs, rfl⟩
  | receive p f d hpc hr =>
      exact .enter f rfl (by simp [hpc, ConsumerPc.body]) (by simp [ConsumerPc.body, onFrame])
        (by simp [received, hpc, hr])
  | drained p r f d hpc hreceive hr =>
      exact .other rfl (by simp [hpc, ConsumerPc.body]) (Or.inl (by simp [hpc, ConsumerPc.body]))
        (by simp [received, hpc, hreceive, hr]) (by simp [hpc, ConsumerPc.body])
  | lock hpc =>
      rcases hpc with hpc | hpc <;>
        exact .other rfl (by simp [hpc, ConsumerPc.body]) (Or.inl (by simp [hpc, ConsumerPc.body]))
          (by simp [received, hpc]) (by simp [hpc, ConsumerPc.body])
  | enter hpc | leave hpc | ready hpc | unready hpc | block hpc | goOn hpc | stop hpc | breakUnlock hpc
  | pop p q hpc | unlock p hpc | ctx p hpc | accept p d hpc | reject p r d hpc | free p hpc =>
      exact .other rfl (by simp [hpc, ConsumerPc.body]) (Or.inl (by simp [hpc, ConsumerPc.body]))
        (by simp [received, hpc]) (by simp [hpc, ConsumerPc.body])

theorem videoStep {a : Act} {s s' : State P} (h : step s a = some s') : VideoStep s s' a := by
  cases a with
  | consumer i =>
      replace h := step_consumer h
      cases i with
      | audio =>
          have hl := consumerThread_step h
          refine .other ?_ (by rw [hl.consumer .video (by simp)]) (Or.inr (hl.dec .video (by simp)))
            (received_of_ne (by simp)) (by simp)
          rcases consumerThread_body h with hout | ⟨p, k, o, next, hin⟩
          · rw [hout.out]
          · rw [hin.out]
            exact rendered_audio hin.step
      | video => exact videoStep_consumer h
  | queueAudio accepted =>
      obtain ⟨p, f, n, -, rfl⟩ := queueAudioStep_eq h
      exact .other rfl rfl (Or.inr rfl) (received_of_ne (by simp)) (by simp)
  | drain n =>
      obtain ⟨-, rfl⟩ := drain_eq h
      exact .other rfl rfl (Or.inr rfl) (received_of_ne (by simp)) (by simp)
  | reader | main | poll e | spurious i =>
      have hdec : s'.dec .video = s.dec .video := by
        cases decoderStep h .video with
        | quiet calls dec => exact dec
      exact .other (by rw [step_out_of_ne h (by simp) (by simp) (by simp)])
        (body_of_woken (step_consumer_of_ne h (by simp) (by simp))) (Or.inr hdec)
        (received_of_ne (by simp)) (by simp)

theorem videoPath_step {a : Act} {s s' : State P} (h : step s a = some s')
    (hv : VideoPath (frames (s.log.calls .video)) s.out (s.consumer .video).body) :
    VideoPath (frames (s'.log.calls .video)) s'.out (s'.consumer .video).body := by
  have hf := frames_received h .video
  cases videoStep h with
  | other rendered body dec hnone idle =>
      rw [hnone, List.map_nil, List.append_nil] at hf
      rw [hf, body]
      exact ⟨by rw [rendered]; exact hv.shown, hv.timed⟩
  | enter f rendered before after hone =>
      rw [before] at hv
      have henter := hv.enter f
      rw [hf, hone, after]
      exact ⟨by rw [rendered]; exact henter.shown, henter.timed⟩
  | body p k o next hin =>
      have hnone : received s .video (.consumer .video) = [] := by simp [received, hin.before]
      rw [hnone, List.map_nil, List.append_nil] at hf
      rw [hin.body_before] at hv
      rw [hf, hin.out, hin.body_after]
      exact hv.frameStep hin.step

theorem audioPath_consumer {s s' : State P} (h : step s (.consumer .audio) = some s')
    (ha : AudioPath (frames (s.log.calls .audio)) s.out (s.consumer .audio).body) :
    AudioPath (frames (s'.log.calls .audio)) s'.out (s'.consumer .audio).body := by
  have hf := frames_step h .audio
  rcases consumerThread_body (step_consumer h) with hout | ⟨p, k, o, next, hin⟩
  · rw [hout.before] at ha
    rw [hout.out]
    rcases hf with ⟨hf, hb⟩ | ⟨-, f, hf, hb⟩
    · rw [hf, hb hout.before]
      exact ha
    · rw [hf, hb]
      exact ha.enter f
  · rw [hin.body_before] at ha hf
    rcases hf with ⟨hf, -⟩ | ⟨hb, -⟩
    · rw [hf, hin.out, hin.body_after]
      exact ha.frameStep hin.step
    · cases hb

theorem audioPath_step {a : Act} {s s' : State P} (h : step s a = some s')
    (ha : AudioPath (frames (s.log.calls .audio)) s.out (s.consumer .audio).body) :
    AudioPath (frames (s'.log.calls .audio)) s'.out (s'.consumer .audio).body := by
  have hf : a ≠ .consumer .audio → frames (s'.log.calls .audio) = frames (s.log.calls .audio) := by
    intro hne
    rw [frames_received h .audio, received_of_ne hne, List.map_nil, List.append_nil]
  cases a with
  | consumer i =>
      cases i with
      | audio => exact audioPath_consumer h ha
      | video =>
          have hl := consumerThread_step (step_consumer h)
          rw [hf (by simp), hl.consumer .audio (by simp)]
          rcases consumerThread_body (step_consumer h) with hout | ⟨p, k, o, next, hin⟩
          · rw [hout.out]
            exact ha
          · rw [hin.out]
            exact ha.video hin.step
  | queueAudio accepted =>
      obtain ⟨p, f, n, hpc, rfl⟩ := queueAudioStep_eq h
      rw [hpc] at ha
      simpa [ConsumerPc.body] using ha.queued accepted
  | drain n =>
      obtain ⟨-, rfl⟩ := drain_eq h
      exact ⟨ha.decoded, ha.resampled, ha.cut, ha.counted⟩
  | reader | main | poll e | spurious i =>
      rw [hf (by simp), step_out_of_ne h (by simp) (by simp) (by simp),
        body_of_woken (step_consumer_of_ne h (by simp) (by simp))]
      exact ha

structure Paths (s : State P) : Prop where
  audio : AudioPath (frames (s.log.calls .audio)) s.out (s.consumer .audio).body
  video : VideoPath (frames (s.log.calls .video)) s.out (s.consumer .video).body

theorem paths_step {a : Act} {s s' : State P} (h : step s a = some s') (hp : Paths s) : Paths s' :=
  ⟨audioPath_step h hp.audio, videoPath_step h hp.video⟩

theorem paths {file : List Payload} {acts : List Act} {s : State P} (h : Runs file acts s) : Paths s :=
  Transition.invariant (fun _ _ _ hp h => paths_step h hp)
    (show Paths (start P file) from ⟨audioPath_start, videoPath_start⟩) h

end FfmpegPlayer.Playback
