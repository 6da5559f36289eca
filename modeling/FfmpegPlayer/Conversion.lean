import FfmpegPlayer.Playback

namespace FfmpegPlayer.Conversion

open SendReceive Media Threads ReadThread ConsumerThreads MainThread Interleaving
open Decoding Playback

structure CodecContexts (P : Player) where
  width : (P.codec .video).State → Int
  pixFmt : (P.codec .video).State → Int
  channels : (P.codec .audio).State → Int
  sampleFmt : (P.codec .audio).State → Int
  sampleRate : (P.codec .audio).State → Int

structure SwsContext where
  width : Int
  height : Int
  format : Int
deriving DecidableEq

structure SwrInput where
  channels : Int
  format : Int
  sampleRate : Int
deriving DecidableEq

variable {P : Player}

def swsCtx (C : CodecContexts P) : SwsContext :=
  ⟨C.width (P.codec .video).init, P.decHeight (P.codec .video).init, C.pixFmt (P.codec .video).init⟩

def swrCtx (C : CodecContexts P) : SwrInput :=
  ⟨C.channels (P.codec .audio).init, C.sampleFmt (P.codec .audio).init, C.sampleRate (P.codec .audio).init⟩

def SwsContext.Takes (w : SwsContext) (f : AVFrame) : Prop :=
  f.width = w.width ∧ f.height = w.height ∧ f.format = w.format

def SwrInput.Takes (w : SwrInput) (f : AVFrame) : Prop :=
  f.channels = w.channels ∧ f.format = w.format ∧ f.sampleRate = w.sampleRate

def scaled : FramePc .video → Option Picture
  | .update x | .clear x | .copy x | .present x => some x
  | _ => none

def scaleCalls (s : State P) : List Picture :=
  s.out.rendered ++ ((s.consumer .video).body.bind scaled).toList

def sliceOf (height : Int) (k : FramePc .video) : AVFrame × Int :=
  (onScreen k, ((scaled k).map Picture.sliceHeight).getD height)

def slices (s : State P) : List (AVFrame × Int) :=
  s.out.rendered.map (fun x => (x.frame, x.sliceHeight)) ++
    ((s.consumer .video).body.map (sliceOf (P.decHeight (s.dec .video)))).toList

theorem slices_frameStep {quit : Bool} {height : Int} {o o' : Output P} {k : FramePc .video}
    {next : Option (FramePc .video)} (hs : frameStep quit height o k = some (o', next)) :
    o'.rendered.map (fun x => (x.frame, x.sliceHeight)) ++ (next.map (sliceOf height)).toList =
      o.rendered.map (fun x => (x.frame, x.sliceHeight)) ++ [sliceOf height k] := by
  cases frameStep_move hs with
  | present x => simp [sliceOf, scaled, onScreen]
  | pts | clockQueued | clockWritten | quit | goOn | wait | due | delay | scale | update | clear | copy => rfl

theorem slices_step {a : Act} {s s' : State P} (h : step s a = some s') :
    slices s' = slices s ++ (received s .video a).map (fun r => (r.1, P.decHeight r.2)) := by
  cases videoStep h with
  | other rendered body dec hnone idle =>
      rw [hnone, List.map_nil, List.append_nil, slices, slices, rendered, body]
      rcases dec with hb | hd
      · rw [hb]
        rfl
      · rw [hd]
  | enter f rendered before after hone =>
      rw [hone, slices, slices, rendered, before, after]
      simp [sliceOf, onScreen, scaled]
  | body p k o next hin =>
      have hnone : received s .video (.consumer .video) = [] := by simp [received, hin.before]
      have hdec : s'.dec .video = s.dec .video := by rw [hin.eq]; rfl
      rw [hnone, List.map_nil, List.append_nil, slices, slices, hin.out, hin.body_after, hin.body_before, hdec]
      exact slices_frameStep hin.step

def WholeFrame (C : CodecContexts P) (f : AVFrame) (sliceHeight : Int) : Prop :=
  (swsCtx C).Takes f ∧ sliceHeight = f.height

/-- The frames this step receives have the parameters the contexts had when the
converters were created, and leave dec_ctx with the height of the frame. -/
def ReturnsInitial (C : CodecContexts P) (s : State P) (a : Act) : Prop :=
  (∀ r ∈ received s .audio a, (swrCtx C).Takes r.1) ∧
  (∀ r ∈ received s .video a, WholeFrame C r.1 (P.decHeight r.2))

def ReceivedFits (C : CodecContexts P) (s : State P) : Prop :=
  (∀ f ∈ frames (s.log.calls .audio), (swrCtx C).Takes f) ∧ (∀ x ∈ slices s, WholeFrame C x.1 x.2)

theorem receivedFits_iff {C : CodecContexts P} {file : List Payload} {acts : List Act} {s : State P}
    (h : Runs file acts s) :
    Transition.Along step (ReturnsInitial C) (start P file) acts ↔ ReceivedFits C s := by
  refine Transition.along_iff_of_added (I := fun _ => True) (J := ReceivedFits C)
    (fun _ _ _ _ _ => trivial) (fun s a s' _ h => ?_) trivial ?_ h
  · rw [ReceivedFits, frames_received h .audio, slices_step h]
    simp only [List.forall_mem_append, List.forall_mem_map]
    exact and_and_and_comm
  · simp [ReceivedFits, slices, start, Output.start, ConsumerPc.body, frames]

/-- The converters are only given frames they were configured for, and what is
shown and queued are the conversions of the frames received, in order. -/
structure Converted (C : CodecContexts P) (s : State P) : Prop where
  scale : ∀ x ∈ scaleCalls s, WholeFrame C x.frame x.sliceHeight
  convert : ∀ c ∈ s.out.converts, (swrCtx C).Takes c.1
  shown : s.out.rendered.map Picture.frame <+: frames (s.log.calls .video)
  queued : queuedBlocks s.out.chunks <+: blocks P (resample P (frames (s.log.calls .audio))).1

theorem mem_slices {s : State P} {x : Picture} (h : x ∈ scaleCalls s) : (x.frame, x.sliceHeight) ∈ slices s := by
  rcases List.mem_append.mp h with h | h
  · exact List.mem_append_left _ (List.mem_map_of_mem h)
  · refine List.mem_append_right _ ?_
    cases hb : (s.consumer .video).body with
    | none => simp [hb] at h
    | some k =>
        rw [hb] at h
        cases k <;> simp_all [scaled, sliceOf, onScreen]

/-- In a run that receives only frames with the initial parameters the
converters are given no others; and if they have been given no others where no
frame is in flight, the run has received no others. -/
theorem converted_of_initial {C : CodecContexts P} {file : List Payload} {acts : List Act} {s : State P}
    (h : Runs file acts s) :
    (Transition.Along step (ReturnsInitial C) (start P file) acts → Converted C s) ∧
    ((∀ i, (s.consumer i).body = none) → Converted C s →
      Transition.Along step (ReturnsInitial C) (start P file) acts) := by
  have hp := paths h
  rw [receivedFits_iff h]
  constructor
  · rintro ⟨ha, hv⟩
    refine ⟨fun x hx => hv _ (mem_slices hx), fun c hc => ha _ ?_, ?_, hp.audio.queued_initial_segment⟩
    · rw [hp.audio.decoded]
      exact List.mem_append_left _ (List.mem_map_of_mem hc)
    · rw [hp.video.shown]
      exact List.prefix_append _ _
  · intro hb hc
    constructor
    · rw [hp.audio.decoded, hb]
      simpa [toConvert] using hc.convert
    · have hs := hc.scale
      rw [scaleCalls, hb] at hs
      rw [slices, hb]
      simpa using hs

def reconfiguring (decode : Payload → AVFrame) (initial : AVFrame) : Codec Payload AVFrame where
  State := AVFrame × Option AVFrame
  init := (initial, none)
  send
    | (g, some f), _ => (eagain, (g, some f))
    | (g, none), none => (0, (g, none))
    | (g, none), some p => (0, (g, some (decode p)))
  receive
    | (g, none) => (eagain, g, (g, none))
    | (_, some f) => (0, f, (f, none))

def resized : Player :=
  { stereo with
    codec := fun _ => reconfiguring (fun x => ⟨0, 1, 2, x.data.length, 0, 44100, 2⟩) ⟨0, 1, 2, 2, 0, 44100, 2⟩
    decHeight := fun d => d.1.height }

def resizedContexts : CodecContexts resized where
  width d := d.1.width
  pixFmt d := d.1.format
  channels d := d.1.channels
  sampleFmt d := d.1.format
  sampleRate d := d.1.sampleRate

def onePicture : List Act := List.replicate 13 Act.reader ++ List.replicate 21 (Act.consumer .video)

theorem converted_of_initial_sample : ∃ s : State resized, Runs [⟨0, [0, 0]⟩] onePicture s ∧
    scaleCalls s ≠ [] ∧ Converted resizedContexts s := by
  obtain ⟨s, hs, hp⟩ := Transition.exists_of_run_any step (start resized [⟨0, [0, 0]⟩]) onePicture
    (fun s : State resized => decide (scaleCalls s ≠ [] ∧ frames (s.log.calls .audio) = [] ∧
      slices s = [(⟨0, 1, 2, 2, 0, 44100, 2⟩, 2)])) (by decide +kernel)
  obtain ⟨hcalls, haudio, hvideo⟩ := of_decide_eq_true hp
  refine ⟨s, hs, hcalls, (converted_of_initial hs).1 ((receivedFits_iff hs).mpr ⟨?_, ?_⟩)⟩
  · rw [haudio]
    simp
  · rw [hvideo, List.forall_mem_singleton]
    exact ⟨⟨rfl, rfl, rfl⟩, rfl⟩

def twoPictures : List Act :=
  List.replicate 26 Act.reader ++ List.replicate 42 (Act.consumer .video)

theorem twoPictures_runs : ∃ s : State resized, Runs [⟨0, [0, 0]⟩, ⟨0, [0]⟩] twoPictures s ∧
    s.out.rendered.map Picture.frame = [⟨0, 1, 2, 2, 0, 44100, 2⟩, ⟨0, 1, 2, 1, 0, 44100, 2⟩] := by
  obtain ⟨s, hs, hp⟩ := Transition.exists_of_run_any step (start resized [⟨0, [0, 0]⟩, ⟨0, [0]⟩]) twoPictures
    (fun s : State resized => decide (s.out.rendered.map Picture.frame =
      [⟨0, 1, 2, 2, 0, 44100, 2⟩, ⟨0, 1, 2, 1, 0, 44100, 2⟩])) (by decide +kernel)
  exact ⟨s, hs, of_decide_eq_true hp⟩

theorem not_converted : ¬ ∀ (P : Player) (C : CodecContexts P) (file : List Payload) (acts : List Act)
    (s : State P), Runs file acts s → Converted C s := by
  intro hall
  obtain ⟨s, hs, hr⟩ := twoPictures_runs
  have hscale := (hall resized resizedContexts _ _ s hs).scale
  obtain ⟨x, hx, hframe⟩ := List.mem_map.mp
    (show (⟨0, 1, 2, 1, 0, 44100, 2⟩ : AVFrame) ∈ s.out.rendered.map Picture.frame by rw [hr]; simp)
  have h := (hscale x (List.mem_append_left _ hx)).1.2.1
  rw [hframe] at h
  exact absurd h (by decide)

end FfmpegPlayer.Conversion
