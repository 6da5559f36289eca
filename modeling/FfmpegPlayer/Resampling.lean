import FfmpegPlayer.Timeline

namespace FfmpegPlayer.Resampling

open SendReceive Media Threads ReadThread ConsumerThreads MainThread Interleaving
open BlockStream AudioClock Decoding Playback Timeline

/-- swr_convert at equal rates: it returns what it has as far as there is room,
and keeps the rest for the next call. -/
structure Buffering (w : SwrContext) where
  backlog : w.State → Nat
  init : backlog w.init = 0
  output : ∀ st (room : Nat) f, (w.convert st room f).1 = (min room (backlog st + f.nbSamples) : Nat)
  keep : ∀ st (room : Nat) f,
    backlog (w.convert st room f).2 = backlog st + f.nbSamples - min room (backlog st + f.nbSamples)

variable {P : Player}

structure AllQueued (B : Buffering P.swr) (s : State P) : Prop where
  backlog : B.backlog s.out.swr = 0
  queued : queuedBlocks s.out.chunks =
    (frameBytes P (frames (s.log.calls .audio))).filter (fun b => 0 < b.2)

/-- One swr_convert call of the audio thread. -/
theorem Buffering.convert (B : Buffering P.swr) (w : P.swr.State) (f : AVFrame) :
    (P.swr.convert w P.capacity f).1 =
        (min (192000 / P.channels / 2) (B.backlog w + f.nbSamples) : Nat) ∧
      B.backlog (P.swr.convert w P.capacity f).2 =
        B.backlog w + f.nbSamples - min (192000 / P.channels / 2) (B.backlog w + f.nbSamples) :=
  ⟨B.output w _ f, B.keep w _ f⟩

theorem resample_of_fits (B : Buffering P.swr) {fs : List AVFrame}
    (h : ∀ f ∈ fs, f.nbSamples ≤ 192000 / P.channels / 2) :
    (resample P fs).1 = fs.map (fun f => (f, (f.nbSamples : Int))) ∧
      B.backlog (resample P fs).2 = 0 := by
  induction fs using List.reverseRecOn with
  | nil => exact ⟨rfl, B.init⟩
  | append_singleton fs f ih =>
      obtain ⟨hout, hzero⟩ := ih (fun g hg => h g (by simp [hg]))
      have hf : f.nbSamples ≤ 192000 / P.channels / 2 := h f (by simp)
      have hc := B.convert (resample P fs).2 f
      rw [hzero, Nat.zero_add, Nat.min_eq_right hf, Nat.sub_self] at hc
      rw [resample_append_frame, hc.1, hout, List.map_append]
      exact ⟨rfl, hc.2⟩

theorem audioPath_outside {file : List Payload} {acts : List Act} {s : State P} (h : Runs file acts s)
    (hb : (s.consumer .audio).body = none) :
    resample P (frames (s.log.calls .audio)) = (s.out.converts, s.out.swr) ∧
      blocks P s.out.converts = queuedBlocks s.out.chunks := by
  have hp := (paths h).audio
  rw [hb] at hp
  have hdec := hp.decoded
  have hcut := hp.cut
  simp only [toConvert, toQueue, List.append_nil] at hdec hcut
  rw [hdec]
  exact ⟨hp.resampled, hcut⟩

theorem allQueued_of_fits (B : Buffering P.swr) {file : List Payload} {acts : List Act} {s : State P}
    (h : Runs file acts s) (hb : (s.consumer .audio).body = none)
    (hf : ∀ f ∈ frames (s.log.calls .audio), f.nbSamples ≤ 192000 / P.channels / 2) : AllQueued B s := by
  obtain ⟨hres, hcut⟩ := audioPath_outside h hb
  obtain ⟨hout, hzero⟩ := resample_of_fits B hf
  rw [hres] at hout hzero
  refine ⟨hzero, ?_⟩
  rw [← hcut, ← blocks_whole, ← hout]

theorem resample_le (B : Buffering P.swr) (fs : List AVFrame) :
    ∀ c ∈ (resample P fs).1, c.2 ≤ (192000 / P.channels / 2 : Nat) := by
  induction fs using List.reverseRecOn with
  | nil => simp [resample]
  | append_singleton fs f ih =>
      intro c hc
      rw [resample_append_frame] at hc
      rcases List.mem_append.mp hc with hc | hc
      · exact ih c hc
      · rw [List.mem_singleton.mp hc, (B.convert _ f).1]
        exact Int.ofNat_le.mpr (Nat.min_le_left _ _)

/-- However much the resampler holds, what it writes at once fits into audio_buf. -/
theorem converts_fit (B : Buffering P.swr) {file : List Payload} {acts : List Act} {s : State P}
    (h : Runs file acts s) {c : AVFrame × Int} (hc : c ∈ s.out.converts) :
    c.2 * P.channels * 2 ≤ 192000 := by
  have hle := resample_le B (s.out.converts.map Prod.fst) c (by rw [(paths h).audio.resampled]; exact hc)
  have hroom : 192000 / P.channels / 2 * P.channels * 2 ≤ 192000 := by
    rw [Nat.mul_assoc, Nat.div_div_eq_div_mul]
    exact Nat.div_mul_le_self _ _
  calc c.2 * P.channels * 2
      ≤ (192000 / P.channels / 2 : Nat) * P.channels * 2 := by gcongr
    _ ≤ 192000 := by exact_mod_cast hroom

structure LargeEnough (B : Buffering P.swr) (file : List Payload) (acts : List Act) (s : State P) : Prop where
  queued : ∀ pre post, ∀ t : State P, acts = pre ++ post → Runs file pre t →
    (t.consumer .audio).body = none → AllQueued B t
  fits : ∀ c ∈ s.out.converts, c.2 * P.channels * 2 ≤ 192000

theorem fits_of_allQueued (B : Buffering P.swr) {file : List Payload} {acts : List Act} {s : State P}
    (h : Runs file acts s) (hb : (s.consumer .audio).body = none) (hall : LargeEnough B file acts s) :
    ∀ f ∈ frames (s.log.calls .audio), f.nbSamples ≤ 192000 / P.channels / 2 := by
  intro f hf
  obtain ⟨fs, gs, hsplit⟩ := List.append_of_mem hf
  have hlen : fs.length < (frames (s.log.calls .audio)).length := by rw [hsplit]; simp
  -- the states before and after the iteration for f
  obtain ⟨pre, post, t, hacts, ht, htb, htf⟩ := between_frames h hlen.le (Or.inr hlen)
  obtain ⟨pre', post', u, hacts', hu, hub, huf⟩ := between_frames h (Nat.succ_le_of_lt hlen) (Or.inl hb)
  rw [hsplit, List.take_left] at htf
  rw [hsplit, List.take_append, List.take_of_length_le (Nat.le_succ _)] at huf
  simp only [Nat.succ_sub (Nat.le_refl _), Nat.sub_self, List.take_succ_cons, List.take_zero] at huf
  have hzero := (hall.queued pre post t hacts ht htb).backlog
  have hzero' := (hall.queued pre' post' u hacts' hu hub).backlog
  have hres := (audioPath_outside ht htb).1
  have hres' := (audioPath_outside hu hub).1
  rw [htf] at hres
  rw [huf] at hres'
  have hswr : u.out.swr = (P.swr.convert t.out.swr P.capacity f).2 := by
    rw [resample_append_frame, hres] at hres'
    exact (congrArg Prod.snd hres').symm
  have hkeep := (B.convert t.out.swr f).2
  rw [← hswr, hzero, hzero'] at hkeep
  omega

/-- The buffer is large enough for frames with no more samples than there is
room for; and if it was for a run that ends between two frames, the run had
only such frames. -/
theorem largeEnough_of_fits (B : Buffering P.swr) {file : List Payload} {acts : List Act} {s : State P}
    (h : Runs file acts s) :
    ((∀ f ∈ frames (s.log.calls .audio), f.nbSamples ≤ 192000 / P.channels / 2) →
      LargeEnough B file acts s) ∧
    ((s.consumer .audio).body = none → LargeEnough B file acts s →
      ∀ f ∈ frames (s.log.calls .audio), f.nbSamples ≤ 192000 / P.channels / 2) := by
  constructor
  · intro hfits
    refine ⟨fun pre post t hacts ht htb => ?_, fun c hc => converts_fit B h hc⟩
    subst hacts
    exact allQueued_of_fits B ht htb (fun f hf => hfits f (mem_frames_of_run ht h .audio hf))
  · exact fits_of_allQueued B h

def bufferingSwr : SwrContext where
  State := Nat
  init := 0
  convert held room f :=
    let given := held + f.nbSamples
    let returned := min room.toNat given
    (returned, given - returned)

def bufferingSwr_buffering : Buffering bufferingSwr where
  backlog := id
  init := rfl
  output _ _ _ := rfl
  keep _ _ _ := rfl

/-- A stereo player of frames of one size; audio_buf has room for 48000 samples. -/
def buffered (nbSamples : Nat) : Player :=
  { samplePlayer 0 (fun _ x => ⟨x.data.length, nbSamples, 2, 2, 0, 44100, 2⟩) with swr := bufferingSwr }

def oneFrame : List Act :=
  List.replicate 13 Act.reader ++ List.replicate 11 (Act.consumer .audio) ++
    [.queueAudio true, .consumer .audio]

theorem largeEnough_of_fits_sample : ∃ s : State (buffered 1024), Runs [⟨1, []⟩] oneFrame s ∧
    s.out.converts ≠ [] ∧ LargeEnough bufferingSwr_buffering [⟨1, []⟩] oneFrame s := by
  obtain ⟨s, hs, hp⟩ := Transition.exists_of_run_any step (start (buffered 1024) [⟨1, []⟩]) oneFrame
    (fun s : State (buffered 1024) => decide (s.out.converts ≠ [] ∧
      frames (s.log.calls .audio) = [⟨0, 1024, 2, 2, 0, 44100, 2⟩])) (by decide)
  obtain ⟨hne, hf⟩ := of_decide_eq_true hp
  refine ⟨s, hs, hne, (largeEnough_of_fits bufferingSwr_buffering hs).1 ?_⟩
  rw [hf, List.forall_mem_singleton]
  decide

theorem longFrame_runs : ∃ s : State (buffered 65535), Runs [⟨1, []⟩] oneFrame s ∧
    (s.consumer .audio).body = none ∧ bufferingSwr_buffering.backlog s.out.swr = 17535 := by
  obtain ⟨s, hs, hp⟩ := Transition.exists_of_run_any step (start (buffered 65535) [⟨1, []⟩]) oneFrame
    (fun s : State (buffered 65535) => decide ((s.consumer .audio).body = none ∧
      bufferingSwr_buffering.backlog s.out.swr = 17535)) (by decide)
  exact ⟨s, hs, of_decide_eq_true hp⟩

theorem not_largeEnough :
    ¬ ∀ (P : Player) (B : Buffering P.swr) (file : List Payload) (acts : List Act) (s : State P),
      Runs file acts s → LargeEnough B file acts s := by
  intro hall
  obtain ⟨s, hs, hb, hheld⟩ := longFrame_runs
  have hlarge := hall (buffered 65535) bufferingSwr_buffering _ _ s hs
  have h := (hlarge.queued _ [] s (List.append_nil _).symm hs hb).backlog
  rw [hheld] at h
  cases h

end FfmpegPlayer.Resampling
