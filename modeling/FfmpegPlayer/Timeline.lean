import FfmpegPlayer.Playback
import Mathlib.Data.List.Induction
import Mathlib.Tactic.FieldSimp
import Mathlib.Tactic.Linarith
import Mathlib.Tactic.NormNum
import Mathlib.Tactic.Ring

namespace FfmpegPlayer.Timeline

open SendReceive Media Threads ReadThread ConsumerThreads MainThread Interleaving
open BlockStream AudioClock Decoding Playback

variable {P : Player}

def samples (fs : List AVFrame) : Nat := (fs.map AVFrame.nbSamples).sum

/-- Where on the container timeline the sample at some byte of an audio frame
belongs, with `timeBase` the time base of the audio stream. -/
def containerTime (P : Player) (timeBase : ℚ) (f : AVFrame) (offset : Nat) : ℚ :=
  f.pts * timeBase + offset / (P.channels * 2 * f.sampleRate : Int)

def HoldsNothing (o : Output P) : Prop := ∀ c ∈ o.converts, c.2 = c.1.nbSamples

instance (o : Output P) : Decidable (HoldsNothing o) := inferInstanceAs (Decidable (∀ c ∈ _, _ = _))

def frameBytes (P : Player) (fs : List AVFrame) : List (AVFrame × Nat) :=
  fs.map (fun f => (f, f.nbSamples * P.channels * 2))

theorem total_frameBytes (fs : List AVFrame) :
    total (frameBytes P fs) = samples fs * P.channels * 2 := by
  induction fs with
  | nil => simp [frameBytes, samples]
  | cons f fs ih =>
      simp only [frameBytes, samples, List.map_cons, total_cons, List.sum_cons] at ih ⊢
      rw [ih]
      ring

theorem blocks_whole (fs : List AVFrame) :
    blocks P (fs.map (fun f => (f, (f.nbSamples : Int)))) = (frameBytes P fs).filter (fun b => 0 < b.2) := by
  induction fs with
  | nil => rfl
  | cons f fs ih =>
      have hsize : dataSize P f.nbSamples = ((f.nbSamples * P.channels * 2 : Nat) : Int) := by
        simp [dataSize]
      rw [List.map_cons, ← List.singleton_append, blocks_append, ih, blocks_singleton, hsize]
      simp only [frameBytes, List.map_cons, List.filter_cons]
      by_cases hn : 0 < f.nbSamples * P.channels * 2
      · rw [if_pos (by exact_mod_cast hn), if_pos (by simpa using hn)]
        rfl
      · rw [if_neg (by exact_mod_cast hn), if_neg (by simpa using hn)]
        rfl

theorem blocks_of_holdsNothing {o : Output P} (h : HoldsNothing o) :
    blocks P o.converts = (frameBytes P (o.converts.map Prod.fst)).filter (fun b => 0 < b.2) := by
  have hwhole : (o.converts.map Prod.fst).map (fun f => (f, (f.nbSamples : Int))) = o.converts := by
    rw [List.map_map]
    conv_rhs => rw [← List.map_id o.converts]
    exact List.map_congr_left fun c hc => Prod.ext rfl (h c hc).symm
  rw [← blocks_whole, hwhole]

theorem flying_eq_zero {b : Option (FramePc .audio)} (h : ∀ f n, b ≠ some (.count f n)) :
    flying b = 0 := by
  unfold flying
  split
  next f n => exact absurd rfl (h f n)
  next => rfl

/-- The next byte the device will play belongs to a frame the audio decoder has
returned, after the bytes of all the frames before it. -/
theorem next_byte {file : List Payload} {acts : List Act} {s : State P} (h : Runs file acts s)
    (hc : Counters s) (hswr : HoldsNothing s.out)
    (hcount : ∀ f n, (s.consumer .audio).body ≠ some (.count f n)) (hleft : 0 < s.out.queued) :
    ∃ pre f post, frames (s.log.calls .audio) = pre ++ f :: post ∧
      samples pre * P.channels * 2 ≤ s.out.played ∧
      locate (queuedBlocks s.out.chunks) s.out.played =
        some (f, s.out.played - samples pre * P.channels * 2) := by
  have hp := (paths h).audio
  have hblocks : (frameBytes P (s.out.converts.map Prod.fst)).filter (fun b => 0 < b.2) =
      queuedBlocks s.out.chunks ++ toQueue P (s.consumer .audio).body := by
    rw [← blocks_of_holdsNothing hswr, hp.cut]
  have hlt : s.out.played < total (queuedBlocks s.out.chunks) := by
    have hcnt := hp.counted
    have hbal := hc.balance
    have hflight := hc.flight
    rw [flying_eq_zero hcount] at hcnt hflight
    omega
  have hlt' : s.out.played < total (frameBytes P (s.out.converts.map Prod.fst)) := by
    rw [← total_filter, hblocks, total_append]
    omega
  obtain ⟨pre', b, post', hsplit, hle, hloc⟩ := locate_of_lt _ hlt'
  rw [← locate_filter, hblocks, locate_append _ _ hlt] at hloc
  obtain ⟨pre, rest, hgs, rfl, hrest⟩ := List.map_eq_append_iff.mp hsplit
  obtain ⟨f, post, rfl, rfl, -⟩ := List.map_eq_cons_iff.mp hrest
  have htotal : total (frameBytes P pre) = samples pre * P.channels * 2 := total_frameBytes pre
  rw [frameBytes] at htotal
  refine ⟨pre, f, post ++ toConvert (s.consumer .audio).body, ?_, ?_, ?_⟩
  · rw [hp.decoded, hgs]
    simp
  · rwa [htotal] at hle
  · rwa [htotal] at hloc

/-- The clock is the time of the next sample on the container timeline, and the
sync loop goes by it, if and only if the frame of that sample starts exactly
where the frames decoded before it, put end to end from zero, stop. -/
theorem clock_on_timeline_iff (hdouble : P.Exact) {file : List Payload} {acts : List Act} {s : State P}
    (h : Runs file acts s) (hexact : ∀ n, P.queuedAudioSize n = n)
    (hqueue : ∀ a ∈ acts, a ≠ .queueAudio false) (hswr : HoldsNothing s.out)
    (hrate : ∀ f ∈ frames (s.log.calls .audio),
      0 < f.sampleRate ∧ P.bytesPerSec = P.channels * 2 * f.sampleRate)
    (hcount : ∀ f n, (s.consumer .audio).body ≠ some (.count f n)) (hleft : 0 < s.out.queued)
    (timeBase : ℚ) :
    ∃ pre f post offset, frames (s.log.calls .audio) = pre ++ f :: post ∧
      locate (queuedBlocks s.out.chunks) s.out.played = some (f, offset) ∧
      ((clock s.out = containerTime P timeBase f offset ∧
          ∀ v, P.ahead v (clock s.out) ↔ containerTime P timeBase f offset + 1 / 50 < v) ↔
        f.pts * timeBase = samples pre / f.sampleRate) := by
  have hc := counters h hexact hqueue
  obtain ⟨pre, f, post, hframes, hle, hloc⟩ := next_byte h hc hswr hcount hleft
  refine ⟨pre, f, post, _, hframes, hloc, ?_⟩
  obtain ⟨hpos, hbytes⟩ := hrate f (by rw [hframes]; simp)
  have hch : (0 : ℚ) < P.channels := by exact_mod_cast P.channels_pos
  have hsr : (0 : ℚ) < f.sampleRate := by exact_mod_cast hpos
  have hbps : 0 < P.bytesPerSec := by
    rw [hbytes]
    have := P.channels_pos
    positivity
  have hclock := hc.clock_eq hdouble hexact (flying_eq_zero hcount) hbps
  have htime : containerTime P timeBase f (s.out.played - samples pre * P.channels * 2) =
      f.pts * timeBase + (clock s.out - samples pre / f.sampleRate) := by
    rw [containerTime, hclock, hbytes, Nat.cast_sub hle]
    push_cast
    field_simp
  constructor
  · rintro ⟨heq, -⟩
    linarith
  · intro hstart
    have heq : clock s.out = containerTime P timeBase f (s.out.played - samples pre * P.channels * 2) := by
      linarith
    exact ⟨heq, fun v => by rw [hdouble.ahead_iff, heq]⟩

def onTime : List Act :=
  List.replicate 26 .reader ++ List.replicate 11 (.consumer .audio) ++
    [.queueAudio true, .consumer .audio] ++ List.replicate 13 (.consumer .audio) ++
    [.queueAudio true, .consumer .audio, .drain 4]

theorem onTime_runs : ∃ s : State stereo.exact, Runs [⟨1, []⟩, ⟨1, [0]⟩] onTime s ∧
    frames (s.log.calls .audio) = [⟨0, 1, 2, 2, 0, 44100, 2⟩, ⟨1, 1, 2, 2, 0, 44100, 2⟩] ∧
    (s.consumer .audio).body = none ∧ s.out.queued = 4 ∧ HoldsNothing s.out ∧
    locate (queuedBlocks s.out.chunks) s.out.played = some (⟨1, 1, 2, 2, 0, 44100, 2⟩, 0) := by
  obtain ⟨s, hs, hp⟩ := Transition.exists_of_run_any step (start stereo.exact [⟨1, []⟩, ⟨1, [0]⟩]) onTime
    (fun s : State stereo.exact => decide (
      frames (s.log.calls .audio) = [⟨0, 1, 2, 2, 0, 44100, 2⟩, ⟨1, 1, 2, 2, 0, 44100, 2⟩] ∧
      (s.consumer .audio).body = none ∧ s.out.queued = 4 ∧ HoldsNothing s.out ∧
      locate (queuedBlocks s.out.chunks) s.out.played = some (⟨1, 1, 2, 2, 0, 44100, 2⟩, 0))) (by decide)
  exact ⟨s, hs, of_decide_eq_true hp⟩

theorem clock_on_timeline_sample : ∃ s : State stereo.exact, Runs [⟨1, []⟩, ⟨1, [0]⟩] onTime s ∧
    ∃ f offset, locate (queuedBlocks s.out.chunks) s.out.played = some (f, offset) ∧
      clock s.out = containerTime stereo.exact (1 / 44100) f offset ∧
      ∀ v, stereo.exact.ahead v (clock s.out) ↔
        containerTime stereo.exact (1 / 44100) f offset + 1 / 50 < v := by
  obtain ⟨s, hs, hf, hb, hq, hswr, hloc⟩ := onTime_runs
  obtain ⟨pre, f, post, offset, hsplit, hplay, hiff⟩ :=
    clock_on_timeline_iff stereo.exact_exact hs (fun _ => rfl) (by decide) hswr
      (by rw [hf]; simp only [List.mem_cons, List.not_mem_nil, or_false, forall_eq_or_imp, forall_eq]; decide)
      (by rw [hb]; simp) (by omega) (1 / 44100)
  have hnext : f = ⟨1, 1, 2, 2, 0, 44100, 2⟩ := by
    rw [hloc, Option.some.injEq, Prod.mk.injEq] at hplay
    exact hplay.1.symm
  have hpre : pre = [⟨0, 1, 2, 2, 0, 44100, 2⟩] := by
    subst hnext
    rw [hf] at hsplit
    match pre, hsplit with
    | [], hsplit => simp at hsplit
    | [g], hsplit => rw [List.singleton_append, List.cons.injEq] at hsplit; rw [hsplit.1]
    | g :: g' :: pre, hsplit => simp at hsplit
  refine ⟨s, hs, f, offset, hplay, hiff.mpr ?_⟩
  rw [hpre, hnext]
  norm_num [samples]

def lateStart : List Act :=
  List.replicate 13 .reader ++ List.replicate 11 (.consumer .audio) ++
    [.queueAudio true, .consumer .audio]

theorem lateStart_runs : ∃ s : State stereo.exact, Runs [⟨1, [0]⟩] lateStart s ∧
    frames (s.log.calls .audio) = [⟨1, 1, 2, 2, 0, 44100, 2⟩] ∧
    (s.consumer .audio).body = none ∧ s.out.queued = 4 ∧ s.out.audioWrittenBytes = 4 ∧ HoldsNothing s.out ∧
    s.out.played = 0 ∧ s.out.chunks = [⟨⟨1, 1, 2, 2, 0, 44100, 2⟩, 4, true⟩] := by
  obtain ⟨s, hs, hp⟩ := Transition.exists_of_run_any step (start stereo.exact [⟨1, [0]⟩]) lateStart
    (fun s : State stereo.exact => decide (frames (s.log.calls .audio) = [⟨1, 1, 2, 2, 0, 44100, 2⟩] ∧
      (s.consumer .audio).body = none ∧ s.out.queued = 4 ∧ s.out.audioWrittenBytes = 4 ∧
      HoldsNothing s.out ∧ s.out.played = 0 ∧
      s.out.chunks = [⟨⟨1, 1, 2, 2, 0, 44100, 2⟩, 4, true⟩])) (by decide)
  exact ⟨s, hs, of_decide_eq_true hp⟩

theorem not_clock_on_timeline :
    ¬ ∀ (P : Player) (file : List Payload) (acts : List Act) (s : State P) (timeBase : ℚ),
      P.Exact → Runs file acts s → (∀ n, P.queuedAudioSize n = n) → (∀ a ∈ acts, a ≠ .queueAudio false) →
      HoldsNothing s.out →
      (∀ f ∈ frames (s.log.calls .audio),
        0 < f.sampleRate ∧ P.bytesPerSec = P.channels * 2 * f.sampleRate) →
      (∀ f n, (s.consumer .audio).body ≠ some (.count f n)) → 0 < s.out.queued →
      ∀ f offset, locate (queuedBlocks s.out.chunks) s.out.played = some (f, offset) →
        clock s.out = containerTime P timeBase f offset := by
  intro hall
  obtain ⟨s, hs, hf, hb, hq, hw, hswr, hplayed, hch⟩ := lateStart_runs
  have h := hall stereo.exact _ _ s 1 stereo.exact_exact hs (fun _ => rfl) (by decide) hswr
    (by rw [hf]; simp only [List.mem_singleton, forall_eq]; decide) (by rw [hb]; simp) (by omega)
    ⟨1, 1, 2, 2, 0, 44100, 2⟩ 0 (by rw [hch, hplayed]; rfl)
  rw [clock, hw, hq] at h
  norm_num [containerTime, Player.getAudioClock, Player.exact, stereo, samplePlayer] at h

end FfmpegPlayer.Timeline
