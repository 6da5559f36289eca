import FfmpegPlayer.SequentialLoop
import FfmpegPlayer.Leaving
import FfmpegPlayer.Conversion

namespace FfmpegPlayer.Reference

open SendReceive Media Threads ReadThread ConsumerThreads MainThread Interleaving
open PacketFlow Packets Leaving BlockStream Decoding Playback Conversion SequentialLoop

variable {P : Player}

def todo (i : Side) (s : State P) : List Payload :=
  (popped (s.consumer i) ++ s.queue i ++ incoming P i s.reader).map AVPacket.payload ++ P.select i s.input

def loop (i : Side) (s : State P) : Loop (P.codec i) :=
  ⟨phase (s.consumer i), todo i s, frames (s.log.calls i), s.dec i⟩

theorem sent_todo {file : List Payload} {acts : List Act} {s : State P} (h : Runs file acts s) (i : Side) :
    (sent (s.log.calls i)).map AVPacket.payload ++ todo i s = P.select i file := by
  rw [todo, ← List.append_assoc, sent_or_held h i, ← (numbered h).read]
  simp only [Player.select, List.filter_append]

theorem runs_snoc {file : List Payload} {acts : List Act} {s s' : State P} {a : Act}
    (h : Runs file acts s) (hs : step s a = some s') : Runs file (acts ++ [a]) s' :=
  Transition.run_trans h (by simp [Transition.run, hs])

theorem todo_step {file : List Payload} {acts : List Act} {s s' : State P} {a : Act}
    (h : Runs file acts s) (hs : step s a = some s') (i : Side) :
    (sent (s'.log.calls i) = sent (s.log.calls i) → todo i s' = todo i s) ∧
    (∀ p, sent (s'.log.calls i) = sent (s.log.calls i) ++ [p] → todo i s = p.payload :: todo i s') := by
  have hbefore := sent_todo h i
  have hafter := sent_todo (runs_snoc h hs) i
  constructor
  · intro hsent
    rw [hsent, ← hbefore] at hafter
    exact List.append_cancel_left hafter
  · intro p hsent
    rw [hsent, ← hbefore, List.map_append, List.append_assoc] at hafter
    exact (List.append_cancel_left hafter).symm

/-- Every step of the player is at most one step of the decoding loop of each stream. -/
theorem loop_step {file : List Payload} {acts : List Act} {s s' : State P} {a : Act}
    (h : Runs file acts s) (hs : step s a = some s') (i : Side) :
    loop i s' = loop i s ∨ (loop i s).next = some (loop i s') := by
  obtain ⟨hkeep, htake⟩ := todo_step h hs i
  cases decoderStep hs i with
  | quiet calls dec phase body idle =>
      refine Or.inl ?_
      rw [loop, loop, phase, hkeep (by rw [calls]), calls, dec]
  | send p before after calls dec =>
      refine Or.inr ?_
      have hphase : phase (s'.consumer i) =
          if ((P.codec i).send (s.dec i) (some p.payload)).1 = 0 then .reading else .idle := by
        rw [after]
        split <;> rfl
      rw [loop, before, htake p (by rw [calls, sent_send])]
      rw [loop, hphase, calls, frames_send, dec]
      exact Loop.next_send _ _ _ _
  | receive p before after calls dec =>
      refine Or.inr ?_
      have htodo := hkeep (by rw [calls, sent_receive])
      rw [loop, before, loop, htodo, calls, frames_receive, dec, after]
      by_cases hr : ((P.codec i).receive (s.dec i)).1 = 0
      · simp only [hr, if_true]
        exact Loop.next_frame _ _ hr
      · simp only [hr, if_false, List.append_nil]
        exact Loop.next_stop _ _ hr

theorem loop_start (i : Side) (file : List Payload) :
    loop i (start P file) = Loop.start (P.codec i) (P.select i file) := rfl

theorem loop_reached {file : List Payload} {acts : List Act} {s : State P} (h : Runs file acts s) (i : Side) :
    StateTransition.Reaches Loop.next (Loop.start (P.codec i) (P.select i file)) (loop i s) := by
  rw [← loop_start]
  refine Transition.reaches_of_simulation (I := fun s => ∃ acts, Runs file acts s)
    (fun s a s' hs h => ?_) (fun s a s' hs h => ?_) ⟨[], rfl⟩ h
  · obtain ⟨acts, hs⟩ := hs
    exact ⟨_, runs_snoc hs h⟩
  · obtain ⟨acts, hs⟩ := hs
    exact loop_step hs h i

/-- Whatever the interleaving, the decoding of each stream follows the loop
that decodes the packets of that stream on its own, and a step of the player is
one step of it or none. -/
theorem stream_refines {file : List Payload} {acts : List Act} {s : State P} (h : Runs file acts s) (i : Side) :
    StateTransition.Reaches Loop.next (Loop.start (P.codec i) (P.select i file)) (loop i s) ∧
    ∀ a s', step s a = some s' → loop i s' = loop i s ∨ (loop i s).next = some (loop i s') :=
  ⟨loop_reached h i, fun _ _ hs => loop_step h hs i⟩

/-- The decoding of the video stream, each frame with the height that dec_ctx
has while the frame is on its way to the screen. -/
def videoLoop (s : State P) : Loop (measured (P.codec .video) P.decHeight) :=
  ⟨phase (s.consumer .video), todo .video s, slices s, s.dec .video⟩

theorem received_eq_nil {a : Act} {s s' : State P} (h : step s a = some s') {i : Side}
    (hf : frames (s'.log.calls i) = frames (s.log.calls i)) : received s i a = [] := by
  have hr := frames_received h i
  rw [hf] at hr
  exact List.map_eq_nil_iff.mp (List.self_eq_append_right.mp hr)

theorem videoLoop_step {file : List Payload} {acts : List Act} {s s' : State P} {a : Act}
    (h : Runs file acts s) (hs : step s a = some s') :
    videoLoop s' = videoLoop s ∨ (videoLoop s).next = some (videoLoop s') := by
  obtain ⟨hkeep, htake⟩ := todo_step h hs .video
  have hslices := slices_step hs
  cases decoderStep hs .video with
  | quiet calls dec phase body idle =>
      refine Or.inl ?_
      rw [received_eq_nil hs (by rw [calls]), List.map_nil, List.append_nil] at hslices
      rw [videoLoop, videoLoop, phase, hkeep (by rw [calls]), hslices, dec]
  | send p before after calls dec =>
      refine Or.inr ?_
      have hphase : phase (s'.consumer .video) =
          if ((P.codec .video).send (s.dec .video) (some p.payload)).1 = 0 then .reading else .idle := by
        rw [after]
        split <;> rfl
      rw [received_eq_nil hs (by rw [calls, frames_send]), List.map_nil, List.append_nil] at hslices
      rw [videoLoop, before, htake p (by rw [calls, sent_send])]
      rw [videoLoop, hphase, hslices, dec]
      exact Loop.next_send (c := measured (P.codec .video) P.decHeight) _ _ _ _
  | receive p before after calls dec =>
      refine Or.inr ?_
      have htodo := hkeep (by rw [calls, sent_receive])
      rw [videoLoop, before, videoLoop, htodo, hslices, dec, after, received, before]
      by_cases hr : ((P.codec .video).receive (s.dec .video)).1 = 0
      · simp only [hr, if_true, and_self, List.map_cons, List.map_nil]
        exact Loop.next_frame (c := measured (P.codec .video) P.decHeight) _ _ hr
      · simp only [hr, if_false, and_false, List.map_nil, List.append_nil]
        exact Loop.next_stop (c := measured (P.codec .video) P.decHeight) _ _ hr

theorem video_refines {file : List Payload} {acts : List Act} {s : State P} (h : Runs file acts s) :
    StateTransition.Reaches Loop.next
      (Loop.start (measured (P.codec .video) P.decHeight) (P.select .video file)) (videoLoop s) := by
  have hstart : videoLoop (start P file) =
      Loop.start (measured (P.codec .video) P.decHeight) (P.select .video file) := rfl
  rw [← hstart]
  refine Transition.reaches_of_simulation (I := fun s => ∃ acts, Runs file acts s)
    (fun s a s' hs h => ?_) (fun s a s' hs h => ?_) ⟨[], rfl⟩ h
  · obtain ⟨acts, hs⟩ := hs
    exact ⟨_, runs_snoc hs h⟩
  · obtain ⟨acts, hs⟩ := hs
    exact videoLoop_step hs h

def pictures (s : State P) : List (AVFrame × Int) := s.out.rendered.map (fun x => (x.frame, x.sliceHeight))

def sound (s : State P) : List (AVFrame × Nat) := queuedBlocks s.out.chunks

theorem pictures_slices (s : State P) : pictures s <+: slices s := List.prefix_append _ _

theorem blocks_comparable {fs gs : List AVFrame} (h : Comparable fs gs) :
    Comparable (blocks P (resample P fs).1) (blocks P (resample P gs).1) := by
  rcases h with ⟨rest, rfl⟩ | ⟨rest, rfl⟩
  · exact Or.inl ((resample_initial_segment fs rest).filterMap _)
  · exact Or.inr ((resample_initial_segment gs rest).filterMap _)

/-- Two runs on one file differ in how far they have got, never in what is
decoded, shown and queued. -/
theorem runs_agree {file : List Payload} {acts₁ acts₂ : List Act} {s₁ s₂ : State P}
    (h₁ : Runs file acts₁ s₁) (h₂ : Runs file acts₂ s₂) :
    (∀ i, Comparable (frames (s₁.log.calls i)) (frames (s₂.log.calls i))) ∧
    Comparable (pictures s₁) (pictures s₂) ∧ Comparable (sound s₁) (sound s₂) := by
  have hframes := fun i => frames_comparable (loop_reached h₁ i) (loop_reached h₂ i)
  refine ⟨hframes, ?_, ?_⟩
  · exact (frames_comparable (video_refines h₁) (video_refines h₂)).of_initial_segments
      (pictures_slices s₁) (pictures_slices s₂)
  · exact (blocks_comparable (hframes .audio)).of_initial_segments
      (paths h₁).audio.queued_initial_segment (paths h₂).audio.queued_initial_segment

def audioFirst : List Act :=
  List.replicate 13 Act.reader ++ List.replicate 11 (Act.consumer .audio) ++ [.queueAudio true]

def wholeFile : List Act :=
  List.replicate 26 Act.reader ++ List.replicate 25 (Act.consumer .video) ++
    List.replicate 11 (Act.consumer .audio) ++ [.queueAudio true] ++ List.replicate 7 (Act.consumer .audio) ++
    List.replicate 12 Act.reader ++ List.replicate 4 (Act.consumer .audio) ++
    List.replicate 4 (Act.consumer .video) ++ List.replicate 20 Act.main

def oneOfEach : List Payload := [⟨1, []⟩, ⟨0, []⟩]

theorem audioFirst_runs : ∃ s : State stereo, Runs oneOfEach audioFirst s ∧
    sound s = [(⟨0, 1, 2, 2, 0, 44100, 2⟩, 4)] ∧ pictures s = [] := by
  obtain ⟨s, hs, hp⟩ := Transition.exists_of_run_any step (start stereo oneOfEach) audioFirst
    (fun s : State stereo => decide (sound s = [(⟨0, 1, 2, 2, 0, 44100, 2⟩, 4)] ∧ pictures s = [])) (by decide)
  exact ⟨s, hs, of_decide_eq_true hp⟩

theorem wholeFile_runs : ∃ s : State stereo, Runs oneOfEach wholeFile s ∧
    (s.main = .returned ∧ s.input = [] ∧ s.queue .audio = [] ∧ s.queue .video = []) ∧
    sound s = [(⟨0, 1, 2, 2, 0, 44100, 2⟩, 4)] ∧ pictures s = [(⟨0, 1, 2, 2, 0, 44100, 2⟩, 2)] := by
  obtain ⟨s, hs, hp⟩ := Transition.exists_of_run_any step (start stereo oneOfEach) wholeFile
    (fun s : State stereo => decide (
      (s.main = .returned ∧ s.input = [] ∧ s.queue .audio = [] ∧ s.queue .video = []) ∧
      sound s = [(⟨0, 1, 2, 2, 0, 44100, 2⟩, 4)] ∧ pictures s = [(⟨0, 1, 2, 2, 0, 44100, 2⟩, 2)]))
    (by decide +kernel)
  exact ⟨s, hs, of_decide_eq_true hp⟩

theorem stream_refines_sample : ∃ s : State stereo, Runs oneOfEach audioFirst s ∧
    sound s ≠ [] ∧ StateTransition.Reaches Loop.next
      (Loop.start (stereo.codec .audio) (stereo.select .audio oneOfEach)) (loop .audio s) ∧
    ∀ a s', step s a = some s' →
      loop .audio s' = loop .audio s ∨ (loop .audio s).next = some (loop .audio s') := by
  obtain ⟨s, hs, hsound, -⟩ := audioFirst_runs
  exact ⟨s, hs, by simp [hsound], stream_refines hs .audio⟩

theorem runs_agree_sample : ∃ s₁ s₂ : State stereo, Runs oneOfEach audioFirst s₁ ∧
    Runs oneOfEach wholeFile s₂ ∧ pictures s₁ ≠ pictures s₂ ∧
    (∀ i, Comparable (frames (s₁.log.calls i)) (frames (s₂.log.calls i))) ∧
    Comparable (pictures s₁) (pictures s₂) ∧ Comparable (sound s₁) (sound s₂) := by
  obtain ⟨s₁, h₁, -, hp₁⟩ := audioFirst_runs
  obtain ⟨s₂, h₂, -, -, hp₂⟩ := wholeFile_runs
  exact ⟨s₁, s₂, h₁, h₂, by simp [hp₁, hp₂], runs_agree h₁ h₂⟩

structure Complete (s : State P) : Prop where
  joined : joined s.main = true
  input : s.input = []
  queue : ∀ i, s.queue i = []

theorem Complete.halted {file : List Payload} {acts : List Act} {s : State P} (h : Runs file acts s)
    (hc : Complete s) (i : Side) : phase (s.consumer i) = .idle ∧ todo i s = [] := by
  obtain ⟨hr, hd⟩ := done_of_joined h hc.joined
  rw [todo, hd, hr, hc.queue, hc.input]
  exact ⟨rfl, rfl⟩

/-- A complete run has produced all that any run on the file ever produces. -/
theorem complete_run_maximal {file : List Payload} {acts₁ acts₂ : List Act} {s₁ s₂ : State P}
    (h₁ : Runs file acts₁ s₁) (hc : Complete s₁) (h₂ : Runs file acts₂ s₂) :
    (∀ i, frames (s₂.log.calls i) <+: frames (s₁.log.calls i)) ∧
    pictures s₂ <+: pictures s₁ ∧ sound s₂ <+: sound s₁ := by
  have hd := (done_of_joined h₁ hc.joined).2
  have hframes : ∀ i, frames (s₂.log.calls i) <+: frames (s₁.log.calls i) := by
    intro i
    obtain ⟨hi, ht⟩ := hc.halted h₁ i
    exact frames_of_halted (loop_reached h₁ i) (Loop.next_eq_none hi ht) (loop_reached h₂ i)
  refine ⟨hframes, ?_, ?_⟩
  · obtain ⟨hi, ht⟩ := hc.halted h₁ .video
    have hslices := frames_of_halted (video_refines h₁) (Loop.next_eq_none hi ht) (video_refines h₂)
    have hall : pictures s₁ = slices s₁ := by
      rw [slices, hd]
      exact (List.append_nil _).symm
    rw [hall]
    exact (pictures_slices s₂).trans hslices
  · have hp := (paths h₁).audio
    rw [hd] at hp
    have hdec := hp.decoded
    have hcut := hp.cut
    simp only [ConsumerPc.body, toConvert, toQueue, List.append_nil] at hdec hcut
    have hall : sound s₁ = blocks P (resample P (frames (s₁.log.calls .audio))).1 := by
      rw [sound, ← hcut, hdec, hp.resampled]
    obtain ⟨rest, hrest⟩ := hframes .audio
    rw [hall, ← hrest]
    exact (paths h₂).audio.queued_initial_segment.trans ((resample_initial_segment _ rest).filterMap _)

theorem complete_run_maximal_sample : ∃ s₁ s₂ : State stereo, Runs oneOfEach wholeFile s₁ ∧ Complete s₁ ∧
    Runs oneOfEach audioFirst s₂ ∧
    (∀ i, frames (s₂.log.calls i) <+: frames (s₁.log.calls i)) ∧
    pictures s₂ <+: pictures s₁ ∧ sound s₂ <+: sound s₁ := by
  obtain ⟨s₁, h₁, ⟨hm, hin, ha, hv⟩, -⟩ := wholeFile_runs
  obtain ⟨s₂, h₂, -⟩ := audioFirst_runs
  have hc : Complete s₁ := ⟨by rw [hm]; rfl, hin, fun i => by cases i; exacts [ha, hv]⟩
  exact ⟨s₁, s₂, h₁, hc, h₂, complete_run_maximal h₁ hc h₂⟩

end FfmpegPlayer.Reference
