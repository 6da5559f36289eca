import FfmpegPlayer.Accounting
import FfmpegPlayer.Stall

namespace FfmpegPlayer.DeviceQueue

open SendReceive Media Threads ReadThread ConsumerThreads MainThread Interleaving
open BlockStream AudioClock Decoding Playback Accounting Stall

variable {P : Player}

theorem queued_add_played_le {file : List Payload} {acts : List Act} {s : State P} (h : Runs file acts s) :
    s.out.queued + s.out.played ≤ soundBytes P (frames (s.log.calls .audio)) := by
  obtain ⟨rest, hrest⟩ := (paths h).audio.queued_initial_segment
  calc s.out.queued + s.out.played
      = taken s.out.chunks := (taken_eq h).symm
    _ ≤ total (queuedBlocks s.out.chunks) := by rw [total_queuedBlocks]; exact Nat.le_add_right _ _
    _ ≤ soundBytes P (frames (s.log.calls .audio)) := by
        rw [soundBytes, ← hrest, total_append]
        exact Nat.le_add_right _ _

theorem queued_add_played_eq {file : List Payload} {acts : List Act} {s : State P} (h : Runs file acts s)
    (hqueue : ∀ a ∈ acts, a ≠ .queueAudio false) (hb : (s.consumer .audio).body = none) :
    s.out.queued + s.out.played = soundBytes P (frames (s.log.calls .audio)) := by
  have hp := (paths h).audio
  rw [hb] at hp
  have hsound := hp.soundBytes_eq
  rw [written_eq h hb, (refused_eq_zero_iff h).mpr hqueue] at hsound
  omega

/-- The device has all the sound decoded so far that it has not played, and
the numerator of the clock is too large by the multiple of 2^32 in it. -/
structure Unthrottled (s : State P) : Prop where
  le : s.out.queued + s.out.played ≤ soundBytes P (frames (s.log.calls .audio))
  eq : (s.consumer .audio).body = none →
    s.out.queued + s.out.played = soundBytes P (frames (s.log.calls .audio))
  numerator : s.out.audioWrittenBytes - P.queuedAudioSize s.out.queued =
    s.out.audioWrittenBytes - s.out.queued + 2 ^ 32 * (s.out.queued / 2 ^ 32 : Nat)
  exact : soundBytes P (frames (s.log.calls .audio)) < s.out.played + 2 ^ 32 →
    s.out.queued < 2 ^ 32 ∧ P.queuedAudioSize s.out.queued = s.out.queued

theorem unthrottled {file : List Payload} {acts : List Act} {s : State P} (h : Runs file acts s)
    (hqueue : ∀ a ∈ acts, a ≠ .queueAudio false) (hsize : ∀ n, P.queuedAudioSize n = n % 2 ^ 32) :
    Unthrottled s := by
  have hle := queued_add_played_le h
  refine ⟨hle, queued_add_played_eq h hqueue, ?_, fun hlt => ?_⟩
  · rw [hsize]
    omega
  · have hq : s.out.queued < 2 ^ 32 := by omega
    exact ⟨hq, by rw [hsize, Nat.mod_eq_of_lt hq]⟩

theorem consumer_takes {s : State P} {i : Side} {p : AVPacket} {q : List AVPacket} (hq : s.quit = false)
    (hm : s.mutex i = none) (hqueue : s.queue i = p :: q) (hc : s.consumer i = .loopTest) :
    Transition.run step s (List.replicate 7 (.consumer i)) =
      some ((s.setQueue i q).goto i (.send p)) := by
  have henter : step s (.consumer i) = some (s.goto i .lock) := by
    simp [step_consumer_eq, consumerThread, hc, hq]
  have hlock : step (s.goto i .lock) (.consumer i) =
      some ((s.setMutex i (some (.consumer i))).goto i .waitTest) := by
    simp [step_consumer_eq, consumerThread, hm, State.goto, State.setMutex]
  have hready : step ((s.setMutex i (some (.consumer i))).goto i .waitTest) (.consumer i) =
      some ((s.setMutex i (some (.consumer i))).goto i .breakTest) := by
    simp [step_consumer_eq, consumerThread, hqueue, State.goto]
  have hgoOn : step ((s.setMutex i (some (.consumer i))).goto i .breakTest) (.consumer i) =
      some ((s.setMutex i (some (.consumer i))).goto i .pop) := by
    simp [step_consumer_eq, consumerThread, hq, State.goto]
  have hpop : step ((s.setMutex i (some (.consumer i))).goto i .pop) (.consumer i) =
      some (((s.setQueue i q).setMutex i (some (.consumer i))).goto i (.unlock p)) := by
    simp [step_consumer_eq, consumerThread, hqueue, State.goto, State.setMutex, State.setQueue]
  have hunlock : step (((s.setQueue i q).setMutex i (some (.consumer i))).goto i (.unlock p)) (.consumer i) =
      some ((s.setQueue i q).goto i (.ctxTest p)) := by
    have hfree : Function.update s.mutex i none = s.mutex := by rw [← hm, Function.update_eq_self]
    simp [step_consumer_eq, consumerThread, hfree, State.goto, State.setMutex, State.setQueue]
  have hctx : step ((s.setQueue i q).goto i (.ctxTest p)) (.consumer i) =
      some ((s.setQueue i q).goto i (.send p)) := by
    simp [step_consumer_eq, consumerThread, State.goto]
  simp only [List.replicate, Transition.run, henter, hlock, hready, hgoOn, hpop, hunlock, hctx,
    Option.bind_some]

theorem consumer_receives {s : State P} {i : Side} {p : AVPacket} {f : AVFrame} {d₁ d₂ : (P.codec i).State}
    (hc : s.consumer i = .send p) (hsend : (P.codec i).send (s.dec i) (some p.payload) = (0, d₁))
    (hreceive : (P.codec i).receive d₁ = (0, f, d₂)) :
    Transition.run step s (List.replicate 2 (.consumer i)) =
      some (((s.called i (.send p 0) d₁).called i (.receive 0 f) d₂).goto i (.frame p (onFrame i f))) := by
  have haccept : step s (.consumer i) = some ((s.called i (.send p 0) d₁).goto i (.receive p)) := by
    simp [step_consumer_eq, consumerThread, hc, hsend]
  have hframe : step ((s.called i (.send p 0) d₁).goto i (.receive p)) (.consumer i) =
      some (((s.called i (.send p 0) d₁).called i (.receive 0 f) d₂).goto i (.frame p (onFrame i f))) := by
    simp [step_consumer_eq, consumerThread, hreceive, State.goto, State.called]
  simp only [List.replicate, Transition.run, haccept, hframe, Option.bind_some]

theorem consumer_returns {s : State P} {i : Side} {p : AVPacket} {r : Int} {f : AVFrame}
    {d : (P.codec i).State} (hc : s.consumer i = .receive p)
    (hreceive : (P.codec i).receive (s.dec i) = (r, f, d)) (hr : r ≠ 0) :
    Transition.run step s (List.replicate 2 (.consumer i)) =
      some (((s.called i (.receive r f) d).freed p.addr).goto i .loopTest) := by
  have hdrained : step s (.consumer i) = some ((s.called i (.receive r f) d).goto i (.free p)) := by
    simp [step_consumer_eq, consumerThread, hc, hreceive, hr]
  have hfree : step ((s.called i (.receive r f) d).goto i (.free p)) (.consumer i) =
      some (((s.called i (.receive r f) d).freed p.addr).goto i .loopTest) := by
    simp [step_consumer_eq, consumerThread, State.goto, State.freed]
  simp only [List.replicate, Transition.run, hdrained, hfree, Option.bind_some]

theorem consumer_body (s : State P) {i : Side} (p : AVPacket) {k : FramePc i} {o o' : Output P}
    {next : Option (FramePc i)}
    (hs : frameStep s.quit (P.decHeight (s.dec .video)) o k = some (o', next)) :
    step { s.goto i (.frame p k) with out := o } (.consumer i) =
      some { s.goto i (afterFrame p next) with out := o' } := by
  simp [step_consumer_eq, consumerThread, State.goto, hs]

/-- The body of the audio thread's receive loop when the device takes the chunk. -/
theorem audio_queues (s : State P) (p : AVPacket) {o : Output P} {f : AVFrame} {n : Int} {w : P.swr.State}
    (hconvert : P.swr.convert o.swr P.capacity f = (n, w)) (hn : 0 < n * P.channels * 2) :
    ∃ o', Transition.run step { s.goto .audio (.frame p (.convert f)) with out := o }
        [.consumer .audio, .consumer .audio, .queueAudio true, .consumer .audio] =
        some { s.goto .audio (.receive p) with out := o' } ∧
      o'.queued = o.queued + (n * P.channels * 2).toNat := by
  obtain ⟨k, hk⟩ : ∃ k, k = (n * P.channels * 2).toNat := ⟨_, rfl⟩
  obtain ⟨o₁, ho₁⟩ : ∃ o₁ : Output P, o₁ = { o with swr := w, converts := o.converts ++ [(f, n)] } :=
    ⟨_, rfl⟩
  have hconv : frameStep s.quit (P.decHeight (s.dec .video)) o (.convert f) = some (o₁, some (.size f n)) := by
    rw [frameStep, hconvert, ho₁]
  have hsize : frameStep s.quit (P.decHeight (s.dec .video)) o₁ (.size f n) =
      some (o₁, some (.queueAudio f k)) := by
    rw [frameStep, if_pos hn, hk]
  have hqueue : step { s.goto .audio (.frame p (.queueAudio f k)) with out := o₁ } (.queueAudio true) =
      some { s.goto .audio (.frame p (.count f k)) with out := sdlQueueAudio true o₁ f k } := by
    simp [step, queueAudioStep, State.goto]
  obtain ⟨o₂, hcount, ho₂⟩ : ∃ o₂, frameStep s.quit (P.decHeight (s.dec .video)) (sdlQueueAudio true o₁ f k)
      (.count f k) = some (o₂, none) ∧ o₂.queued = o.queued + k :=
    ⟨_, rfl, by simp [sdlQueueAudio, ho₁]⟩
  refine ⟨o₂, ?_, hk ▸ ho₂⟩
  rw [Transition.run, consumer_body s p hconv, Option.bind_some, afterFrame,
    Transition.run, consumer_body s p hsize, Option.bind_some, afterFrame,
    Transition.run, hqueue, Option.bind_some,
    Transition.run, consumer_body s p hcount, Option.bind_some, afterFrame, Transition.run]

structure Between (input : List Payload) (d : (P.codec .audio).State) (queued : Nat) (s : State P) : Prop where
  quit : s.quit = false
  reader : s.reader = .loopTest
  mutex : ∀ j, s.mutex j = none
  queue : ∀ j, s.queue j = []
  input : s.input = input
  consumer : s.consumer .audio = .loopTest
  dec : s.dec .audio = d
  queued : s.out.queued = queued

def audioTurn : List Act :=
  List.replicate 13 Act.reader ++ (List.replicate 7 (Act.consumer .audio) ++
    (List.replicate 2 (Act.consumer .audio) ++
      ([Act.consumer .audio, .consumer .audio, .queueAudio true, .consumer .audio] ++
        List.replicate 2 (Act.consumer .audio))))

theorem between_turn {x : Payload} {xs : List Payload} {c d e : (P.codec .audio).State} {queued : Nat}
    {s : State P} {f g : AVFrame} {n : Int} {w : P.swr.State} (h : Between (x :: xs) c queued s)
    (hx : P.route x = some .audio) (hsend : (P.codec .audio).send c (some x) = (0, d))
    (hframe : (P.codec .audio).receive d = (0, f, e))
    (hagain : (P.codec .audio).receive e = (eagain, g, e))
    (hconvert : P.swr.convert s.out.swr P.capacity f = (n, w)) (hn : 0 < n * P.channels * 2) :
    ∃ t, Transition.run step s audioTurn = some t ∧
      Between xs e (queued + (n * P.channels * 2).toNat) t := by
  obtain ⟨hq, hr, hm, hqueue, hin, hc, hd, hdev⟩ := h
  obtain ⟨p, hp⟩ : ∃ p : AVPacket, p = ⟨s.log.allocated, x⟩ := ⟨_, rfl⟩
  obtain ⟨s₁, hs₁⟩ : ∃ s₁ : State P, s₁ = { s with
      queue := Function.update s.queue .audio (s.queue .audio ++ [p])
      input := xs
      log.allocated := s.log.allocated + 1
      log.reads := s.log.reads ++ [p] } := ⟨_, rfl⟩
  have hpush := reader_pushes hr hq hm (by simp [hqueue, maxQueueSize]) hin hx (by rw [hc]; rfl)
  rw [← hp, ← hs₁] at hpush
  have htake := consumer_takes (s := s₁) (i := .audio) (p := p) (q := []) (by rw [hs₁]; exact hq)
    (by rw [hs₁]; exact hm .audio) (by simp [hs₁, hqueue]) (by rw [hs₁]; exact hc)
  obtain ⟨s₂, hs₂⟩ : ∃ s₂, s₂ = (s₁.setQueue .audio []).goto .audio (.send p) := ⟨_, rfl⟩
  rw [← hs₂] at htake
  have hreceive := consumer_receives (s := s₂) (i := .audio) (p := p) (by simp [hs₂])
    (by simpa [hs₂, hs₁, hd, hp] using hsend) hframe
  obtain ⟨s₃, hs₃⟩ : ∃ s₃, s₃ = (s₂.called .audio (.send p 0) d).called .audio (.receive 0 f) e := ⟨_, rfl⟩
  rw [← hs₃] at hreceive
  have hout : s₃.out = s.out := by simp [hs₃, hs₂, hs₁]
  obtain ⟨o, hbody, ho⟩ := audio_queues s₃ p (hout ▸ hconvert) hn
  obtain ⟨s₄, hs₄⟩ : ∃ s₄, s₄ = { s₃.goto .audio (.receive p) with out := o } := ⟨_, rfl⟩
  rw [← hs₄] at hbody
  have hreturn := consumer_returns (s := s₄) (i := .audio) (p := p) (by simp [hs₄])
    (by simpa [hs₄, hs₃] using hagain) (by decide)
  refine ⟨_, Transition.run_trans hpush (Transition.run_trans htake (Transition.run_trans hreceive
    (Transition.run_trans hbody hreturn))), ?_⟩
  constructor
  · simp [hs₄, hs₃, hs₂, hs₁, hq]
  · simp [hs₄, hs₃, hs₂, hs₁, hr]
  · simp [hs₄, hs₃, hs₂, hs₁, hm]
  · intro j
    cases j <;> simp [hs₄, hs₃, hs₂, hs₁, hqueue]
  · simp [hs₄, hs₃, hs₂, hs₁]
  · simp
  · simp
  · simp [hs₄, ho, hout, hdev]

def fullChunks : Player :=
  { samplePlayer 0 (fun _ x => ⟨x.data.length, 48000, 2, 2, 0, 44100, 2⟩) with
    queuedAudioSize := fun n => n % 2 ^ 32 }

theorem device_fills (n : Nat) {queued : Nat} {s : State fullChunks}
    (h : Between (List.replicate n ⟨1, []⟩) ([], false) queued s) :
    ∃ acts t, Transition.run step s acts = some t ∧ (∀ a ∈ acts, a ≠ .queueAudio false) ∧
      t.out.queued = queued + n * 192000 := by
  induction n generalizing queued s with
  | zero => exact ⟨[], s, rfl, by simp, by rw [h.queued]; omega⟩
  | succ n ih =>
      obtain ⟨u, hu, hbetween⟩ := between_turn h rfl rfl rfl rfl rfl (by decide)
      obtain ⟨acts, t, ht, hok, hqueued⟩ := ih hbetween
      have hturn : ∀ a ∈ audioTurn, a ≠ .queueAudio false := by decide
      refine ⟨audioTurn ++ acts, t, Transition.run_trans hu ht,
        List.forall_mem_append.mpr ⟨hturn, hok⟩, hqueued.trans ?_⟩
      show queued + 192000 + n * 192000 = queued + (n + 1) * 192000
      omega

theorem between_start (file : List Payload) :
    Between file (P.codec .audio).init 0 (start P file) :=
  ⟨rfl, rfl, fun _ => rfl, fun _ => rfl, rfl, rfl, rfl, rfl⟩

theorem unthrottled_sample : ∃ s : State fullChunks, Runs [⟨1, []⟩] audioTurn s ∧ Unthrottled s := by
  obtain ⟨s, hs, -⟩ := between_turn (between_start (P := fullChunks) [⟨1, []⟩]) rfl rfl rfl rfl rfl (by decide)
  exact ⟨s, hs, unthrottled hs (by decide) (fun _ => rfl)⟩

/-- Some six hours of sound queued ahead of a device that has played nothing. -/
theorem not_queued_below : ¬ ∀ (P : Player) (file : List Payload) (acts : List Act) (s : State P),
    Runs file acts s → (∀ a ∈ acts, a ≠ .queueAudio false) → (∀ n, P.queuedAudioSize n = n % 2 ^ 32) →
    s.out.queued < 2 ^ 32 := by
  intro hall
  obtain ⟨acts, s, hs, hok, hqueued⟩ := device_fills 22370 (between_start (P := fullChunks) _)
  have h := hall fullChunks _ acts s hs hok (fun _ => rfl)
  omega

end FfmpegPlayer.DeviceQueue
