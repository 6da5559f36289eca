import FfmpegPlayer.Binary64
import FfmpegPlayer.SendReceive

namespace FfmpegPlayer.Media

open SendReceive

/-- The two streams being played: each has a queue, a mutex, a condition
variable, a decoder and a thread of its own. -/
inductive Side
  | audio
  | video
deriving DecidableEq, Repr

/-- What av_read_frame stores in a packet. Everything the decoders look at
besides the stream index is in `data`. -/
structure Payload where
  streamIndex : Int
  data : List UInt8
deriving DecidableEq, Repr

structure AVPacket where
  addr : Nat
  payload : Payload
deriving DecidableEq, Repr

structure AVFrame where
  pts : Int
  nbSamples : Nat
  width : Int
  height : Int
  format : Int
  sampleRate : Int
  channels : Int
deriving DecidableEq, Repr

def avNoptsValue : Int := -2 ^ 63

/-- swr_convert as a state machine: the room for output samples and the input
frame give the number of samples written or a negative error code. -/
structure SwrContext where
  State : Type
  init : State
  convert : State → Int → AVFrame → Int × State

/-- What a successful setup hands to the threads, and the library calls they
make through it. -/
structure Player where
  audioStreamIndex : Int
  videoStreamIndex : Int
  index_ne : audioStreamIndex ≠ videoStreamIndex
  /-- whether audio_dec_ctx is a context -/
  audioDecCtx : Bool
  audioDecCtx_open : audioDecCtx = true
  /-- obtained_spec.channels and obtained_spec.freq -/
  channels : Nat
  channels_pos : 0 < channels
  freq : Int
  /-- video_stream->time_base -/
  timeBase : ℚ
  /-- the rounding of the type double, or the identity where a statement is
  about exact arithmetic -/
  round : ℚ → ℚ
  round_mono : Monotone round
  round_zero : round 0 = 0
  codec : Side → Codec Payload AVFrame
  /-- dec_ctx->height -/
  decHeight : (codec .video).State → Int
  swr : SwrContext
  /-- what SDL_GetQueuedAudioSize reports for so many queued bytes -/
  queuedAudioSize : Nat → Nat

variable (P : Player)

def Player.streamIndex : Side → Int
  | .audio => P.audioStreamIndex
  | .video => P.videoStreamIndex

def Player.route (x : Payload) : Option Side :=
  if x.streamIndex = P.audioStreamIndex then some .audio
  else if x.streamIndex = P.videoStreamIndex then some .video
  else none

def Player.Selects (i : Side) (x : Payload) : Prop := x.streamIndex = P.streamIndex i

instance (i : Side) (x : Payload) : Decidable (P.Selects i x) :=
  inferInstanceAs (Decidable (_ = _))

theorem Player.route_eq_some {x : Payload} {i : Side} : P.route x = some i ↔ P.Selects i x := by
  have hne := P.index_ne
  unfold Player.route Player.Selects
  cases i with
  | audio => simp only [Player.streamIndex]; split <;> simp_all
  | video =>
      simp only [Player.streamIndex]
      split
      next ha => simp [ha, hne]
      next ha => split <;> simp_all

def Player.select (i : Side) (xs : List Payload) : List Payload := xs.filter (P.Selects i)

def Player.capacity : Int := ↑(192000 / P.channels / 2)

/-- The int that the size_t product is stored in. -/
def Player.bytesPerSec : Int := Int.bmod (P.channels * 2 * P.freq) (2 ^ 32)

/-- double(audio_written_bytes - audio_queued_bytes) / bytes_per_sec -/
def Player.getAudioClock (audioWrittenBytes : Int) (audioQueuedBytes : Nat) : ℚ :=
  if 0 < P.bytesPerSec then
    P.round (P.round (audioWrittenBytes - audioQueuedBytes : Int) / P.round P.bytesPerSec)
  else 0

/-- frame->pts * av_q2d(video_stream->time_base) -/
def Player.videoPts (f : AVFrame) : ℚ :=
  if f.pts ≠ avNoptsValue then P.round (P.round f.pts * P.round P.timeBase) else 0

def Player.ahead (videoPts audioClock : ℚ) : Prop :=
  P.round (audioClock + P.round (1 / 50)) < videoPts

instance (v c : ℚ) : Decidable (P.ahead v c) := inferInstanceAs (Decidable (_ < _))

def Player.exact : Player := { P with round := id, round_mono := monotone_id, round_zero := rfl }

def Player.Exact : Prop := ∀ x, P.round x = x

theorem Player.exact_exact : P.exact.Exact := fun _ => rfl

variable {P} in
/-- More bytes counted never set the clock back. -/
theorem Player.getAudioClock_mono {w w' : Int} (h : w ≤ w') (q : Nat) :
    P.getAudioClock w q ≤ P.getAudioClock w' q := by
  rw [Player.getAudioClock, Player.getAudioClock]
  split
  next hpos =>
    have hbps : 0 ≤ P.round P.bytesPerSec := by
      rw [← P.round_zero]
      exact P.round_mono (by exact_mod_cast hpos.le)
    have hbytes : ((w - q : Int) : ℚ) ≤ ((w' - q : Int) : ℚ) := by exact_mod_cast Int.sub_le_sub_right h _
    exact P.round_mono (div_le_div_of_nonneg_right (P.round_mono hbytes) hbps)
  next => exact le_rfl

variable {P} in
theorem Player.ahead_anti {v c c' : ℚ} (h : c ≤ c') (ha : P.ahead v c') : P.ahead v c :=
  (P.round_mono (add_le_add_left h _)).trans_lt ha

variable {P} in
theorem Player.Exact.getAudioClock_eq (h : P.Exact) (hpos : 0 < P.bytesPerSec) (w : Int) (q : Nat) :
    P.getAudioClock w q = (w - q : Int) / P.bytesPerSec := by
  rw [Player.getAudioClock, if_pos hpos, h, h, h]

variable {P} in
theorem Player.Exact.videoPts_eq (h : P.Exact) {f : AVFrame} (hpts : f.pts ≠ avNoptsValue) :
    P.videoPts f = f.pts * P.timeBase := by
  rw [Player.videoPts, if_pos hpts, h, h, h]

variable {P} in
theorem Player.Exact.ahead_iff (h : P.Exact) {v c : ℚ} : P.ahead v c ↔ c + 1 / 50 < v := by
  rw [Player.ahead, h, h]

def maxQueueSize : Nat := 200

def exactSwr : SwrContext where
  State := Unit
  init := ()
  convert _ _ f := (f.nbSamples, ())

def samplePlayer (delay : Nat) (decode : Side → Payload → AVFrame) : Player where
  audioStreamIndex := 1
  videoStreamIndex := 0
  index_ne := by decide
  audioDecCtx := true
  audioDecCtx_open := rfl
  channels := 2
  channels_pos := by decide
  freq := 44100
  timeBase := 1
  round := Binary64.round
  round_mono := Binary64.round_mono
  round_zero := Binary64.round_zero
  codec := fun i => delaying delay (decode i) ⟨avNoptsValue, 0, 0, 0, 0, 0, 0⟩
  decHeight := fun _ => 2
  swr := exactSwr
  queuedAudioSize := id

/-- Frames of one stereo sample; a video packet of n bytes has pts n. -/
def stereo : Player := samplePlayer 0 (fun _ x => ⟨x.data.length, 1, 2, 2, 0, 44100, 2⟩)

end FfmpegPlayer.Media
