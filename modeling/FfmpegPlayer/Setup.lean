import FfmpegPlayer.Acquisition
import FfmpegPlayer.Media

namespace FfmpegPlayer.Setup

open SendReceive Media Acquisition

structure AudioSpec where
  channels : Nat
  freq : Int
deriving DecidableEq, Repr

/-- What the calls of main return, in the order of the calls. A Bool tells
whether a pointer is one: a decoder, a context, a window and so on. -/
structure Results where
  argc : Nat
  avformatOpenInput : Int
  avformatFindStreamInfo : Int
  videoStreamIndex : Int
  dec : Bool
  decCtx : Bool
  avcodecParametersToContext : Int
  avcodecOpen2 : Int
  sdlInit : Int
  window : Bool
  renderer : Bool
  texture : Bool
  swsCtx : Bool
  frame : Bool
  frameYuv : Bool
  buffer : Bool
  avImageFillArrays : Int
  audioStreamIndex : Int
  audioDecCtx : Bool
  /-- a decoder that was not found shows here: there is nothing to open -/
  audioAvcodecOpen2 : Int
  dev : Nat
  /-- what obtained_spec holds after a successful SDL_OpenAudioDevice -/
  obtainedSpec : AudioSpec
  swrCtx : Bool
  swrInit : Int
  audioFrame : Bool
  audioBuf : Bool
deriving DecidableEq, Repr

inductive Resource
  | fmtCtx
  | decCtx
  | sdl
  | window
  | renderer
  | texture
deriving DecidableEq, Repr

inductive Ending
  | returned (code : Int)
  | nullDereference
  | uninitialisedRead
deriving DecidableEq, Repr

structure Env where
  videoStreamIndex : Int
  audioStreamIndex : Int
  /-- dec_ctx is a context that avcodec_open2 has opened -/
  decCtxOpen : Bool
  swsCtx : Bool
  frame : Bool
  frameYuv : Bool
  /-- frame_yuv->data points into a buffer -/
  planes : Bool
  /-- whether audio_dec_ctx is a context, and whether it is open -/
  audioDecCtx : Bool
  audioDecCtxOpen : Bool
  dev : Nat
  obtainedSpec : AudioSpec
  /-- swr_ctx is a context that swr_init has initialised -/
  swrCtxInit : Bool
  audioFrame : Bool
  audioBuf : Bool
deriving DecidableEq, Repr

abbrev SetupM := Prog Resource Ending

/-- The first half of the setup, up to the texture: every call is checked. -/
def openVideo (r : Results) : SetupM Unit := do
  giveUpIf (r.argc < 2) (.returned (-1)) []
  giveUpIf (r.avformatOpenInput < 0) (.returned (-1)) []
  acquire .fmtCtx
  giveUpIf (r.avformatFindStreamInfo < 0) (.returned (-1)) [.fmtCtx]
  giveUpIf (r.videoStreamIndex < 0) (.returned (-1)) [.fmtCtx]
  giveUpIf (r.dec = false) (.returned (-1)) [.fmtCtx]
  giveUpIf (r.decCtx = false) (.returned (-1)) [.fmtCtx]
  acquire .decCtx
  giveUpIf (r.avcodecParametersToContext < 0) (.returned (-1)) [.decCtx, .fmtCtx]
  giveUpIf (r.avcodecOpen2 < 0) (.returned (-1)) [.decCtx, .fmtCtx]
  giveUpIf (r.sdlInit ≠ 0) (.returned (-1)) [.decCtx, .fmtCtx]
  acquire .sdl
  giveUpIf (r.window = false) (.returned (-1)) [.sdl, .decCtx, .fmtCtx]
  acquire .window
  giveUpIf (r.renderer = false) (.returned (-1)) [.window, .sdl, .decCtx, .fmtCtx]
  acquire .renderer
  giveUpIf (r.texture = false) (.returned (-1)) [.renderer, .window, .sdl, .decCtx, .fmtCtx]
  acquire .texture

/-- The second half, from the scaler to the audio buffer: no result is
checked. `require` stands where a pointer is followed or obtained_spec is read. -/
def prepareAudio (r : Results) : SetupM Env := do
  -- av_image_fill_arrays(frame_yuv->data, ...)
  require r.frameYuv .nullDereference
  -- avcodec_parameters_to_context(audio_dec_ctx, ...), when there is an audio stream
  require (decide (r.audioStreamIndex < 0) || r.audioDecCtx) .nullDereference
  -- audio_dec_ctx->sample_rate; without an audio stream audio_dec_ctx is still null
  let audioDecCtx := decide (0 ≤ r.audioStreamIndex) && r.audioDecCtx
  require audioDecCtx .nullDereference
  -- obtained_spec.channels, which a failed SDL_OpenAudioDevice has not written
  require (decide (r.dev ≠ 0)) .uninitialisedRead
  -- swr_init(swr_ctx)
  require r.swrCtx .nullDereference
  return {
    videoStreamIndex := r.videoStreamIndex
    audioStreamIndex := r.audioStreamIndex
    decCtxOpen := r.decCtx && decide (0 ≤ r.avcodecOpen2)
    swsCtx := r.swsCtx
    frame := r.frame
    frameYuv := r.frameYuv
    planes := r.buffer && decide (0 ≤ r.avImageFillArrays)
    audioDecCtx := audioDecCtx
    audioDecCtxOpen := decide (0 ≤ r.audioAvcodecOpen2)
    dev := r.dev
    obtainedSpec := r.obtainedSpec
    swrCtxInit := decide (0 ≤ r.swrInit)
    audioFrame := r.audioFrame
    audioBuf := r.audioBuf }

def setup (r : Results) : SetupM Env := do
  openVideo r
  prepareAudio r

structure Env.Valid (e : Env) : Prop where
  decCtx : e.decCtxOpen = true
  swsCtx : e.swsCtx = true
  frame : e.frame = true
  frameYuv : e.frameYuv = true
  planes : e.planes = true
  audioDecCtx : 0 ≤ e.audioStreamIndex → e.audioDecCtx = true ∧ e.audioDecCtxOpen = true
  swrCtx : 0 ≤ e.audioStreamIndex → e.swrCtxInit = true
  audioFrame : 0 ≤ e.audioStreamIndex → e.audioFrame = true
  audioBuf : 0 ≤ e.audioStreamIndex → e.audioBuf = true
  channels : 0 < e.obtainedSpec.channels

/-- Main has returned -1 with everything released that it had acquired, or is
about to start the threads on a valid environment. -/
def Clean : Except Ending Env × List (Use Resource) → Prop
  | (.ok e, _) => e.Valid
  | (.error (.returned code), us) => code = -1 ∧ held us = some []
  | (.error _, _) => False

structure Opened (r : Results) : Prop where
  argc : 2 ≤ r.argc
  openInput : 0 ≤ r.avformatOpenInput
  findStreamInfo : 0 ≤ r.avformatFindStreamInfo
  videoStream : 0 ≤ r.videoStreamIndex
  dec : r.dec = true
  decCtx : r.decCtx = true
  parameters : 0 ≤ r.avcodecParametersToContext
  open2 : 0 ≤ r.avcodecOpen2
  sdlInit : r.sdlInit = 0
  window : r.window = true
  renderer : r.renderer = true
  texture : r.texture = true

structure Supplied (r : Results) : Prop where
  swsCtx : r.swsCtx = true
  frame : r.frame = true
  frameYuv : r.frameYuv = true
  buffer : r.buffer = true
  fillArrays : 0 ≤ r.avImageFillArrays
  audioStream : 0 ≤ r.audioStreamIndex
  audioDecCtx : r.audioDecCtx = true
  audioOpen : 0 ≤ r.audioAvcodecOpen2
  dev : r.dev ≠ 0
  channels : 0 < r.obtainedSpec.channels
  swrCtx : r.swrCtx = true
  swrInit : 0 ≤ r.swrInit
  audioFrame : r.audioFrame = true
  audioBuf : r.audioBuf = true

def acquired : List Resource := [.texture, .renderer, .window, .sdl, .decCtx, .fmtCtx]

theorem openVideo_ensures (r : Results) :
    Ensures [] (openVideo r) (fun _ rs => Opened r ∧ rs = acquired)
      (fun e rs => ¬ Opened r ∧ e = .returned (-1) ∧ rs = []) := by
  unfold openVideo
  refine .giveUpIf_bind (fun h => ⟨fun o => ?_, rfl, rfl⟩) (fun h1 => ?_)
  · have := o.argc; omega
  refine .giveUpIf_bind (fun h => ⟨fun o => ?_, rfl, rfl⟩) (fun h2 => ?_)
  · have := o.openInput; omega
  refine .acquire_bind (by decide) (.giveUpIf_bind (fun h => ⟨fun o => ?_, rfl, rfl⟩) (fun h3 => ?_))
  · have := o.findStreamInfo; omega
  refine .giveUpIf_bind (fun h => ⟨fun o => ?_, rfl, rfl⟩) (fun h4 => ?_)
  · have := o.videoStream; omega
  refine .giveUpIf_bind (fun h => ⟨fun o => ?_, rfl, rfl⟩) (fun h5 => ?_)
  · simp [o.dec] at h
  refine .giveUpIf_bind (fun h => ⟨fun o => ?_, rfl, rfl⟩) (fun h6 => ?_)
  · simp [o.decCtx] at h
  refine .acquire_bind (by decide) (.giveUpIf_bind (fun h => ⟨fun o => ?_, rfl, rfl⟩) (fun h7 => ?_))
  · have := o.parameters; omega
  refine .giveUpIf_bind (fun h => ⟨fun o => ?_, rfl, rfl⟩) (fun h8 => ?_)
  · have := o.open2; omega
  refine .giveUpIf_bind (fun h => ⟨fun o => h o.sdlInit, rfl, rfl⟩) (fun h9 => ?_)
  refine .acquire_bind (by decide) (.giveUpIf_bind (fun h => ⟨fun o => ?_, rfl, rfl⟩) (fun h10 => ?_))
  · simp [o.window] at h
  refine .acquire_bind (by decide) (.giveUpIf_bind (fun h => ⟨fun o => ?_, rfl, rfl⟩) (fun h11 => ?_))
  · simp [o.renderer] at h
  refine .acquire_bind (by decide) (.giveUpIf_bind (fun h => ⟨fun o => ?_, rfl, rfl⟩) (fun h12 => ?_))
  · simp [o.texture] at h
  refine .acquire (by decide) ⟨?_, rfl⟩
  simp only [Bool.not_eq_false, Decidable.not_not] at h5 h6 h9 h10 h11 h12
  exact ⟨by omega, by omega, by omega, by omega, h5, h6, by omega, by omega, h9, h10, h11, h12⟩

/-- The second half either starts the threads, or stops in the middle of main
with everything still held. -/
theorem prepareAudio_ensures {r : Results} (ho : Opened r) (rs : List Resource) :
    Ensures rs (prepareAudio r) (fun e _ => (e.Valid ↔ Supplied r) ∧ 0 ≤ e.audioStreamIndex)
      (fun e _ => ¬ Supplied r ∧ (e = .nullDereference ∨ e = .uninitialisedRead)) := by
  unfold prepareAudio
  refine .require_bind (fun h => ⟨fun o => ?_, Or.inl rfl⟩) (fun h1 => ?_)
  · simp [o.frameYuv] at h
  refine .require_bind (fun h => ⟨fun o => ?_, Or.inl rfl⟩) (fun h2 => ?_)
  · simp [o.audioDecCtx] at h
  refine .require_bind (fun h => ⟨fun o => ?_, Or.inl rfl⟩) (fun h3 => ?_)
  · simp [o.audioStream, o.audioDecCtx] at h
  refine .require_bind (fun h => ⟨fun o => ?_, Or.inr rfl⟩) (fun h4 => ?_)
  · simp [o.dev] at h
  refine .require_bind (fun h => ⟨fun o => ?_, Or.inl rfl⟩) (fun h5 => .pure ?_)
  · simp [o.swrCtx] at h
  simp only [Bool.and_eq_true, decide_eq_true_eq] at h3 h4
  refine ⟨?_, h3.1⟩
  constructor
  · rintro ⟨-, hsws, hframe, -, hplanes, hctx, hswr, haf, hab, hch⟩
    simp only [Bool.and_eq_true, decide_eq_true_eq] at hsws hframe hplanes hctx hswr haf hab hch
    exact ⟨hsws, hframe, h1, hplanes.1, hplanes.2, h3.1, h3.2, (hctx h3.1).2, h4, hch, h5, hswr h3.1,
      haf h3.1, hab h3.1⟩
  · intro o
    constructor <;> simp [ho.decCtx, ho.open2, o.swsCtx, o.frame, o.frameYuv, o.buffer, o.fillArrays,
      o.audioStream, o.audioDecCtx, o.audioOpen, o.swrInit, o.audioFrame, o.audioBuf, o.channels]

theorem setup_ensures (r : Results) :
    Ensures [] (setup r) (fun e _ => Opened r ∧ (e.Valid ↔ Supplied r) ∧ 0 ≤ e.audioStreamIndex)
      (fun e rs => (¬ Opened r ∧ e = .returned (-1) ∧ rs = []) ∨
        (Opened r ∧ ¬ Supplied r ∧ (e = .nullDereference ∨ e = .uninitialisedRead))) := by
  refine .bind (R := fun _ _ => Opened r) ?_ (fun _ rs ho => ?_)
  · exact (openVideo_ensures r).mono (fun _ _ h => h.1) (fun _ _ h => Or.inl h)
  · exact (prepareAudio_ensures ho rs).mono (fun _ _ h => ⟨ho, h⟩) (fun _ _ h => Or.inr ⟨ho, h⟩)

/-- Setup fails cleanly or establishes what the threads rely on if and only if,
whenever all the checked calls succeed, the unchecked ones do as well and the
file has an audio stream. -/
theorem setup_clean_iff (r : Results) : Clean ((setup r).run []) ↔ (Opened r → Supplied r) := by
  obtain ⟨rs, hheld, hres⟩ := setup_ensures r [] rfl
  rcases hrun : (setup r).run [] with ⟨e | e, us⟩
  · rw [hrun] at hheld hres
    rcases hres with ⟨hno, rfl, rfl⟩ | ⟨ho, hns, rfl | rfl⟩
    · exact ⟨fun _ ho => absurd ho hno, fun _ => ⟨rfl, hheld⟩⟩
    · exact ⟨fun hc => hc.elim, fun hs => absurd (hs ho) hns⟩
    · exact ⟨fun hc => hc.elim, fun hs => absurd (hs ho) hns⟩
  · rw [hrun] at hres
    exact ⟨fun hv _ => hres.2.1.mp hv, fun hs => hres.2.1.mpr (hs hres.1)⟩

/-- The player that the threads make of a valid environment, with libraries
that behave in a given way. -/
def Env.player (e : Env) (hv : e.Valid) (ha : 0 ≤ e.audioStreamIndex)
    (hne : e.audioStreamIndex ≠ e.videoStreamIndex) (timeBase : ℚ)
    (codec : Side → Codec Payload AVFrame) (decHeight : (codec .video).State → Int) (swr : SwrContext)
    (queuedAudioSize : Nat → Nat) : Player where
  audioStreamIndex := e.audioStreamIndex
  videoStreamIndex := e.videoStreamIndex
  index_ne := hne
  audioDecCtx := e.audioDecCtx
  audioDecCtx_open := (hv.audioDecCtx ha).1
  channels := e.obtainedSpec.channels
  channels_pos := hv.channels
  freq := e.obtainedSpec.freq
  timeBase := timeBase
  round := Binary64.round
  round_mono := Binary64.round_mono
  round_zero := Binary64.round_zero
  codec := codec
  decHeight := decHeight
  swr := swr
  queuedAudioSize := queuedAudioSize

def videoOnly : Results where
  argc := 2
  avformatOpenInput := 0
  avformatFindStreamInfo := 0
  videoStreamIndex := 0
  dec := true
  decCtx := true
  avcodecParametersToContext := 0
  avcodecOpen2 := 0
  sdlInit := 0
  window := true
  renderer := true
  texture := true
  swsCtx := true
  frame := true
  frameYuv := true
  buffer := true
  avImageFillArrays := 6
  audioStreamIndex := -1381258232
  audioDecCtx := true
  audioAvcodecOpen2 := 0
  dev := 2
  obtainedSpec := ⟨2, 44100⟩
  swrCtx := true
  swrInit := 0
  audioFrame := true
  audioBuf := true

theorem not_setup_clean : ¬ ∀ r : Results, Clean ((setup r).run []) := by
  intro hall
  exact hall videoOnly

end FfmpegPlayer.Setup
