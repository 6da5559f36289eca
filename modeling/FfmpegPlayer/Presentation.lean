import FfmpegPlayer.Playback
import Mathlib.Tactic.Linarith
import Mathlib.Tactic.NormNum

namespace FfmpegPlayer.Presentation

open SendReceive Media Threads ReadThread ConsumerThreads MainThread Interleaving
open AudioClock Decoding Playback

variable {P : Player}

def Timely (P : Player) (f : AVFrame) (audioClock : ℚ) : Prop :=
  f.pts ≠ avNoptsValue → ¬ P.ahead (P.videoPts f) audioClock

theorem timely_iff (hexact : P.Exact) {f : AVFrame} {c : ℚ} :
    Timely P f c ↔ (f.pts ≠ avNoptsValue → f.pts * P.timeBase - 1 / 50 ≤ c) := by
  refine forall_congr' fun hpts => ?_
  rw [hexact.ahead_iff, hexact.videoPts_eq hpts, not_lt, sub_le_iff_le_add]

def released : FramePc .video → Option (AVFrame × ℚ)
  | .scale f c => some (f, c)
  | .update x | .clear x | .copy x | .present x => some (x.frame, x.audioClock)
  | _ => none

def releases (s : State P) : List (AVFrame × ℚ) :=
  s.out.rendered.map (fun x => (x.frame, x.audioClock)) ++
    ((s.consumer .video).body.bind released).toList

def WaitsOut (s : State P) (a : Act) : Prop :=
  a = .consumer .video → ∀ f v c, (s.consumer .video).body = some (.quitTest f v c) →
    s.quit = true → f.pts ≠ avNoptsValue → ¬ P.ahead v c

def releasing (P : Player) (quit : Bool) : FramePc .video → List (AVFrame × ℚ)
  | .quitTest f _ c => if quit then [(f, c)] else []
  | .compare f v c => if P.ahead v c then [] else [(f, c)]
  | _ => []

theorem releases_frameStep {quit : Bool} {height : Int} {o o' : Output P} {k : FramePc .video}
    {next : Option (FramePc .video)} (hs : frameStep quit height o k = some (o', next)) :
    o'.rendered.map (fun x => (x.frame, x.audioClock)) ++ (next.bind released).toList =
      o.rendered.map (fun x => (x.frame, x.audioClock)) ++ (released k).toList ++ releasing P quit k := by
  cases frameStep_move hs with
  | quit f v c h | goOn f v c h | wait f v c h | due f v c h => simp [released, releasing, h]
  | pts | clockQueued | clockWritten | delay | scale | update | clear | copy | present =>
      simp [released, releasing]

theorem timely_releasing_iff {s : State P} {k : FramePc .video} (hb : (s.consumer .video).body = some k)
    (htimed : ∀ f v, syncing k = some (f, v) → v = P.videoPts f) :
    (∀ r ∈ releasing P s.quit k, Timely P r.1 r.2) ↔ WaitsOut s (.consumer .video) := by
  cases k with
  | quitTest f v c =>
      have hv := htimed f v rfl
      constructor
      · intro h _ g w d hg hq hpts
        rw [hb] at hg
        simp only [Option.some.injEq, FramePc.quitTest.injEq] at hg
        obtain ⟨rfl, rfl, rfl⟩ := hg
        rw [hv]
        exact h (f, c) (by simp [releasing, hq]) hpts
      · intro h r hr
        cases hq : s.quit with
        | false => simp [releasing, hq] at hr
        | true =>
            obtain rfl : r = (f, c) := by simpa [releasing, hq] using hr
            intro hpts
            exact hv ▸ h rfl f v c hb hq hpts
  | compare f v c =>
      have hv := htimed f v rfl
      refine iff_of_true (fun r hr => ?_) (fun _ g w d hg => ?_)
      · simp only [releasing] at hr
        split at hr
        · simp at hr
        next hle =>
          rw [List.mem_singleton.mp hr]
          exact fun _ => hv ▸ hle
      · simp [hb] at hg
  | pts f | clockQueued f v | clockWritten f v q | delay f v | scale f c | update x | clear x | copy x
  | present x => exact iff_of_true (by simp [releasing]) (fun _ g w d hg => by simp [hb] at hg)

def InTime (s : State P) : Prop := ∀ r ∈ releases s, Timely P r.1 r.2

theorem inTime_step {a : Act} {s s' : State P} (h : step s a = some s')
    (hp : VideoPath (frames (s.log.calls .video)) s.out (s.consumer .video).body) :
    InTime s' ↔ InTime s ∧ WaitsOut s a := by
  cases videoStep h with
  | other rendered body dec hnone idle =>
      have hG : WaitsOut s a := by
        intro ha f v c hb
        simp [idle ha] at hb
      rw [InTime, InTime, releases, releases, rendered, body]
      exact (and_iff_left hG).symm
  | enter f rendered before after hone =>
      have hG : WaitsOut s (.consumer .video) := by
        intro _ f v c hb
        simp [before] at hb
      rw [InTime, InTime, releases, releases, rendered, before, after]
      exact (and_iff_left hG).symm
  | body p k o next hin =>
      have htimed : ∀ f v, syncing k = some (f, v) → v = P.videoPts f := by
        intro f v hsync
        exact hp.timed f v (by rw [hin.body_before]; exact hsync)
      rw [InTime, InTime, releases, releases, hin.out, hin.body_after, hin.body_before,
        releases_frameStep hin.step, List.forall_mem_append, timely_releasing_iff hin.body_before htimed]
      rfl

theorem inTime_iff {file : List Payload} {acts : List Act} {s : State P} (h : Runs file acts s) :
    Transition.Along step WaitsOut (start P file) acts ↔ InTime s :=
  Transition.along_iff_of_added (I := Paths) (fun _ _ _ hp h => paths_step h hp)
    (fun _ _ _ hp h => inTime_step h hp.video) ⟨audioPath_start, videoPath_start⟩
    (by simp [InTime, releases, start, Output.start, ConsumerPc.body]) h

/-- The frames rendered, and then the one in flight, are those received, in
order and each once; and the clock value last read before one is presented is
at most 20 ms behind its time. -/
structure Presented (s : State P) : Prop where
  shown : frames (s.log.calls .video) =
    s.out.rendered.map Picture.frame ++ ((s.consumer .video).body.map onScreen).toList
  timely : ∀ x ∈ s.out.rendered, x.frame.pts ≠ avNoptsValue →
    x.frame.pts * P.timeBase - 1 / 50 ≤ x.audioClock

/-- No frame is presented early if quit cuts no wait short; and if none in a
run is presented early and none is in flight, quit has cut no wait short. -/
theorem presented_of_waitsOut (hexact : P.Exact) {file : List Payload} {acts : List Act} {s : State P}
    (h : Runs file acts s) :
    (Transition.Along step WaitsOut (start P file) acts → Presented s) ∧
    ((s.consumer .video).body = none → Presented s →
      Transition.Along step WaitsOut (start P file) acts) := by
  rw [inTime_iff h]
  constructor
  · intro ht
    refine ⟨(paths h).video.shown, fun x hx => (timely_iff hexact).mp (ht (x.frame, x.audioClock) ?_)⟩
    exact List.mem_append_left _ (List.mem_map_of_mem hx)
  · intro hb hp
    rw [InTime, releases, hb]
    simp only [Option.bind_none, Option.toList_none, List.append_nil, List.forall_mem_map]
    exact fun x hx => (timely_iff hexact).mpr (hp.timely x hx)

def oneFrame : List Act := List.replicate 13 Act.reader ++ List.replicate 19 (Act.consumer .video)

theorem presented_of_waitsOut_sample : ∃ s : State stereo.exact, Runs [⟨0, []⟩] oneFrame s ∧
    s.out.rendered ≠ [] ∧ Presented s := by
  obtain ⟨s, hs, hp⟩ := Transition.exists_of_run_any step (start stereo.exact [⟨0, []⟩]) oneFrame
    (fun s : State stereo.exact =>
      decide (s.out.rendered ≠ [] ∧ releases s = [(⟨0, 1, 2, 2, 0, 44100, 2⟩, 0)]))
    (by decide +kernel)
  obtain ⟨hr, hrel⟩ := of_decide_eq_true hp
  refine ⟨s, hs, hr, (presented_of_waitsOut (stereo.exact_exact) hs).1 ((inTime_iff hs).mpr ?_)⟩
  rw [InTime, hrel]
  simp only [List.mem_singleton, forall_eq, timely_iff (stereo.exact_exact)]
  norm_num [Player.exact, avNoptsValue, stereo, samplePlayer]

/-- A picture due at one second waits for a clock that stands still; the reader
then meets the end of the file. -/
def eofWhileWaiting : List Act :=
  List.replicate 13 Act.reader ++ List.replicate 17 (Act.consumer .video) ++ List.replicate 10 Act.reader ++
    List.replicate 6 (Act.consumer .video)

theorem eofWhileWaiting_runs : ∃ s : State stereo.exact, Runs [⟨0, [0]⟩] eofWhileWaiting s ∧
    s.out.rendered = [⟨⟨1, 1, 2, 2, 0, 44100, 2⟩, 2, 0⟩] := by
  obtain ⟨s, hs, hp⟩ := Transition.exists_of_run_any step (start stereo.exact [⟨0, [0]⟩]) eofWhileWaiting
    (fun s : State stereo.exact => decide (s.out.rendered = [⟨⟨1, 1, 2, 2, 0, 44100, 2⟩, 2, 0⟩]))
    (by decide +kernel)
  exact ⟨s, hs, of_decide_eq_true hp⟩

theorem not_presented : ¬ ∀ (P : Player) (file : List Payload) (acts : List Act) (s : State P),
    P.Exact → Runs file acts s → (∀ a ∈ acts, a ≠ .poll .quit) → Presented s := by
  intro hall
  obtain ⟨s, hs, hr⟩ := eofWhileWaiting_runs
  have h := (hall stereo.exact _ _ s (stereo.exact_exact) hs (by decide)).timely
    ⟨⟨1, 1, 2, 2, 0, 44100, 2⟩, 2, 0⟩ (by rw [hr]; simp)
  norm_num [Player.exact, avNoptsValue, stereo, samplePlayer] at h

end FfmpegPlayer.Presentation
