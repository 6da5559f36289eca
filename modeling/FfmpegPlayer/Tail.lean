import FfmpegPlayer.Leaving
import FfmpegPlayer.Timeline

namespace FfmpegPlayer.Tail

open SendReceive Media Threads ReadThread ConsumerThreads MainThread Interleaving
open BlockStream Fifo PacketFlow Packets Leaving AudioClock Decoding Playback Timeline

variable {P : Player}

def AllAccepted (file : List Payload) (i : Side) (s : State P) : Prop :=
  (accepted (s.log.calls i)).map AVPacket.payload = P.select i file

instance (file : List Payload) (i : Side) (s : State P) : Decidable (AllAccepted file i s) :=
  inferInstanceAs (Decidable (_ = _))

theorem sent_of_allAccepted {file : List Payload} {acts : List Act} {s : State P} (h : Runs file acts s)
    {i : Side} (ha : AllAccepted file i s) :
    (sent (s.log.calls i)).map AVPacket.payload = P.select i file := by
  obtain ⟨rest, hrest⟩ : ∃ rest, P.select i file =
      (sent (s.log.calls i)).map AVPacket.payload ++ rest := by
    have hfile : P.select i file =
        P.select i (s.log.reads.map AVPacket.payload) ++ P.select i s.input := by
      rw [← (numbered h).read, Player.select, List.filter_append]
      rfl
    exact ⟨_, by rw [hfile, ← sent_or_held h i, List.append_assoc]⟩
  have hlen := length_accepted_le (s.log.calls i)
  have hall := congrArg List.length ha
  rw [hrest, List.length_map, List.length_append, List.length_map] at hall
  have hnil : rest = [] := List.length_eq_zero_iff.mp (by omega)
  rw [hrest, hnil, List.append_nil]

theorem cleanup_nodup {file : List Payload} {acts : List Act} {s : State P} (h : Runs file acts s) :
    ∀ calls, s.main = .cleanup calls → calls.Nodup := by
  refine Transition.invariant (I := fun s : State P => ∀ calls, s.main = .cleanup calls → calls.Nodup)
    (fun s a s' hs h => ?_) (by simp [start]) h
  by_cases ha : a = .main
  · subst ha
    cases mainThread_move h with
    | joinVideo hpc => intro calls hc; cases hc; decide
    | freePkt cs hpc | cleanup c cs hpc =>
        intro calls hc
        cases hc
        exact (hs _ hpc).of_cons
    | _ => intro calls hc; cases hc
  · by_cases hp : ∃ e, a = .poll e
    · obtain ⟨e, rfl⟩ := hp
      obtain ⟨-, rfl⟩ := pollEvent_eq h
      intro calls hc
      cases e <;> cases hc
    · rw [step_main_of_ne h ha (fun e he => hp ⟨e, he⟩)]
      exact hs

theorem closed_step {a : Act} {s s' : State P} (h : step s a = some s') (hc : deviceOpen s.main = false) :
    deviceOpen s'.main = false ∧ s'.out.played = s.out.played := by
  constructor
  · by_cases ha : a = .main
    · subst ha
      cases mainThread_move h with
      | freePkt cs hpc | cleanup c cs hpc =>
          simp only [hpc, deviceOpen, List.mem_cons, decide_eq_false_iff_not, not_or] at hc ⊢
          exact hc.2
      | finish => rfl
      | goOn hpc | leave hpc | setQuit hpc | notifyAudio hpc | notifyVideo hpc | delay hpc | joinReader hpc
      | joinAudio hpc | joinVideo hpc => simp [hpc, deviceOpen] at hc
    · by_cases hp : ∃ e, a = .poll e
      · obtain ⟨e, rfl⟩ := hp
        obtain ⟨hpc, -⟩ := pollEvent_eq h
        simp [hpc, deviceOpen] at hc
      · rwa [step_main_of_ne h ha (fun e he => hp ⟨e, he⟩)]
  · cases deviceStep h with
    | other chunks queued played => exact played
    | queue f n b before chunks queued played => exact played
    | drain n =>
        have hopen := deviceOpen_of_drain h
        rw [hc] at hopen
        cases hopen

/-- What has reached the outputs when a consumer has finished: all that its
decoder returns when each packet is followed by reads until one fails, and
nothing of what a flush of the decoder would still return. What is then in the
device's queue is not played after SDL_Quit. -/
theorem tail_played_until_flush {file : List Payload} {acts : List Act} {s : State P}
    {calls : List Cleanup} (h : Runs file acts s) (ha : ∀ i, AllAccepted file i s)
    (hmain : s.main = .cleanup (.sdlQuit :: calls)) :
    (∃ fs, Decodes (P.codec .audio) .idle (P.select .audio file) fs (s.dec .audio) ∧
      queuedBlocks s.out.chunks = blocks P (resample P fs).1) ∧
    Decodes (P.codec .video) .idle (P.select .video file)
      (s.out.rendered.map Picture.frame) (s.dec .video) ∧
    ∀ closed more t, step s .main = some closed → Transition.run step closed more = some t →
      t.out.played = closed.out.played := by
  obtain ⟨-, hd⟩ := done_of_joined h (by rw [hmain]; rfl)
  have hpaths := paths h
  have hdec (i : Side) :
      Decodes (P.codec i) .idle (P.select i file) (frames (s.log.calls i)) (s.dec i) := by
    have hl := inLoop h i
    rw [InLoop, hd i, sent_of_allAccepted h (ha i)] at hl
    exact hl
  have hpa := hpaths.audio
  have hpv := hpaths.video
  rw [hd] at hpa hpv
  refine ⟨?_, ?_, fun closed more t hclose hmore => ?_⟩
  · refine ⟨_, hdec .audio, ?_⟩
    have hdecoded := hpa.decoded
    have hcut := hpa.cut
    simp only [ConsumerPc.body, toConvert, toQueue, List.append_nil] at hdecoded hcut
    rw [hdecoded, hpa.resampled, hcut]
  · have hshown := hpv.shown
    simp only [ConsumerPc.body, Option.map_none, Option.toList_none, List.append_nil] at hshown
    rw [← hshown]
    exact hdec .video
  · have hcalls := (cleanup_nodup h _ hmain).notMem
    have hclosed : deviceOpen closed.main = false := by
      cases mainThread_move hclose <;> simp_all [deviceOpen]
    exact (Transition.invariant
      (I := fun u : State P => deviceOpen u.main = false ∧ u.out.played = closed.out.played)
      (fun u a u' hu hs => (closed_step hs hu.1).imp_right (·.trans hu.2)) ⟨hclosed, rfl⟩ hmore).2

/-- Whatever a flush would still have returned belongs after the frames rendered. -/
theorem produces_rendered {file : List Payload} {s : State P} {hs : List AVFrame}
    (hd : Decodes (P.codec .video) .idle (P.select .video file)
      (s.out.rendered.map Picture.frame) (s.dec .video))
    (hflush : ((P.codec .video).send (s.dec .video) none).1 = 0)
    (hdrain : Drains (P.codec .video) ((P.codec .video).send (s.dec .video) none).2 hs) :
    Produces (P.codec .video) (P.select .video file) (s.out.rendered.map Picture.frame ++ hs) :=
  ⟨_, hs, _, hd, hflush, hdrain, rfl⟩

def lagging : Player := samplePlayer 1 (fun _ x => ⟨x.data.length, 1, 2, 2, 0, 44100, 2⟩)

def laggingFile : List Payload := [⟨1, []⟩, ⟨0, []⟩, ⟨1, [0]⟩]

def toSdlQuit : List Act :=
  List.replicate 39 .reader ++ List.replicate 21 (.consumer .audio) ++ [.queueAudio true] ++
    List.replicate 7 (.consumer .audio) ++ List.replicate 14 (.consumer .video) ++
    List.replicate 12 .reader ++ List.replicate 4 (.consumer .audio) ++
    List.replicate 4 (.consumer .video) ++ List.replicate 16 .main

theorem toSdlQuit_runs : ∃ s : State lagging, Runs laggingFile toSdlQuit s ∧
    (∀ i, AllAccepted laggingFile i s) ∧
    s.main = .cleanup [.sdlQuit, .freeAudioBuf, .freeSwrCtx] ∧ s.out.rendered = [] ∧
    queuedBlocks s.out.chunks = [(⟨0, 1, 2, 2, 0, 44100, 2⟩, 4)] ∧ s.out.queued = 4 ∧
    HoldsNothing s.out := by
  obtain ⟨s, hs, hp⟩ := Transition.exists_of_run_any step (start lagging laggingFile) toSdlQuit
    (fun s : State lagging => decide (
      (AllAccepted laggingFile .audio s ∧ AllAccepted laggingFile .video s) ∧
      s.main = .cleanup [.sdlQuit, .freeAudioBuf, .freeSwrCtx] ∧ s.out.rendered = [] ∧
      queuedBlocks s.out.chunks = [(⟨0, 1, 2, 2, 0, 44100, 2⟩, 4)] ∧ s.out.queued = 4 ∧
      HoldsNothing s.out)) (by decide)
  obtain ⟨⟨ha, hv⟩, hrest⟩ := of_decide_eq_true hp
  refine ⟨s, hs, fun i => ?_, hrest⟩
  cases i with
  | audio => exact ha
  | video => exact hv

theorem tail_played_until_flush_sample : ∃ s : State lagging, Runs laggingFile toSdlQuit s ∧
    (∃ fs, Decodes (lagging.codec .audio) .idle (lagging.select .audio laggingFile) fs (s.dec .audio) ∧
      queuedBlocks s.out.chunks = blocks lagging (resample lagging fs).1) ∧
    Decodes (lagging.codec .video) .idle (lagging.select .video laggingFile)
      (s.out.rendered.map Picture.frame) (s.dec .video) ∧
    ∀ closed more t, step s .main = some closed → Transition.run step closed more = some t →
      t.out.played = closed.out.played := by
  obtain ⟨s, hs, ha, hm, -⟩ := toSdlQuit_runs
  exact ⟨s, hs, tail_played_until_flush hs ha hm⟩

/-- The one picture is never rendered, the second audio frame is never queued,
and the first is still in the device's queue. -/
theorem not_tail_played : ∃ (P : Player) (file : List Payload) (acts : List Act) (s : State P)
    (calls : List Cleanup) (fsA fsV : List AVFrame),
    (∀ i, Nonempty (Contract (P.codec i))) ∧ Runs file acts s ∧ HoldsNothing s.out ∧
    (∀ a ∈ acts, a ≠ .poll .quit) ∧ (∀ i, AllAccepted file i s) ∧
    s.main = .cleanup (.sdlQuit :: calls) ∧
    Produces (P.codec .audio) (P.select .audio file) fsA ∧
    Produces (P.codec .video) (P.select .video file) fsV ∧
    s.out.rendered.map Picture.frame ≠ fsV ∧
    total (queuedBlocks s.out.chunks) ≠ samples fsA * P.channels * 2 ∧
    s.out.queued ≠ 0 := by
  obtain ⟨s, hs, ha, hm, hren, hch, hq, hswr⟩ := toSdlQuit_runs
  refine ⟨lagging, laggingFile, toSdlQuit, s, _, [⟨0, 1, 2, 2, 0, 44100, 2⟩, ⟨1, 1, 2, 2, 0, 44100, 2⟩],
    [⟨0, 1, 2, 2, 0, 44100, 2⟩], fun i => ⟨delayingContract _ _ _⟩, hs, hswr, by decide, ha, hm,
    ?_, ?_, ?_, ?_, ?_⟩
  · have h1 := (Decodes.init (c := lagging.codec .audio)).accept ⟨1, []⟩ rfl
    have h2 := ((h1.stop (by decide)).accept ⟨1, [0]⟩ rfl).frame rfl
    exact ⟨_, _, _, h2.stop (by decide), rfl, .frame rfl (.done rfl), rfl⟩
  · have h1 := (Decodes.init (c := lagging.codec .video)).accept ⟨0, []⟩ rfl
    exact ⟨_, _, _, h1.stop (by decide), rfl, .frame rfl (.done rfl), rfl⟩
  · rw [hren]
    simp
  · rw [hch]
    decide
  · rw [hq]
    decide

end FfmpegPlayer.Tail
