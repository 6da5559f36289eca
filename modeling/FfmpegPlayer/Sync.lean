import FfmpegPlayer.Presentation

namespace FfmpegPlayer.Sync

open SendReceive Media Threads ReadThread ConsumerThreads MainThread Interleaving
open AudioClock Playback Presentation

variable {P : Player}

def clockHeld : FramePc .video → Option ℚ
  | .quitTest _ _ c | .compare _ _ c | .scale _ c => some c
  | .update x | .clear x | .copy x | .present x => some x.audioClock
  | _ => none

def seconds (P : Player) (call : ClockCall) : ℚ := P.round (P.round call.value / P.round P.bytesPerSec)

structure Clocked (o : Output P) (b : Option (FramePc .video)) : Prop where
  held : ∀ c, b.bind clockHeld = some c → ∃ call, o.clocks.getLast? = some call ∧ c = seconds P call
  waits : ∀ f v, b = some (.delay f v) → ∃ call, o.clocks.getLast? = some call ∧
    P.ahead v (seconds P call)
  shown : ∀ x ∈ o.rendered, ∃ call ∈ o.clocks, x.audioClock = seconds P call

theorem Clocked.frameStep (hpos : 0 < P.bytesPerSec) {quit : Bool} {height : Int} {o o' : Output P}
    {k : FramePc .video} {next : Option (FramePc .video)}
    (hs : ConsumerThreads.frameStep quit height o k = some (o', next)) (h : Clocked o (some k)) :
    Clocked o' next := by
  cases frameStep_move hs with
  | pts | clockQueued | delay => exact ⟨by simp [clockHeld], by simp, h.shown⟩
  | clockWritten f v q =>
      rw [if_pos hpos]
      refine ⟨fun c hc => ⟨_, List.getLast?_concat, ?_⟩, by simp, fun x hx => ?_⟩
      · simp only [Option.bind_some, clockHeld, Option.some.injEq] at hc
        rw [← hc, Player.getAudioClock, if_pos hpos, seconds]
      · obtain ⟨call, hcall, he⟩ := h.shown x hx
        exact ⟨call, List.mem_append_left _ hcall, he⟩
  | quit | goOn | due => exact ⟨h.held, by simp, h.shown⟩
  | wait f v c hahead =>
      obtain ⟨call, hcall, he⟩ := h.held c rfl
      refine ⟨by simp [clockHeld], fun g w hd => ?_, h.shown⟩
      simp only [Option.some.injEq, FramePc.delay.injEq] at hd
      obtain ⟨-, rfl⟩ := hd
      exact ⟨call, hcall, he ▸ hahead⟩
  | scale | update | clear | copy => exact ⟨h.held, by simp, h.shown⟩
  | present x =>
      obtain ⟨call, hcall, he⟩ := h.held x.audioClock rfl
      refine ⟨by simp, by simp, fun y hy => ?_⟩
      rcases List.mem_append.mp hy with hy | hy
      · exact h.shown y hy
      · rw [List.mem_singleton.mp hy]
        exact ⟨call, List.mem_of_getLast? hcall, he⟩

/-- A clock is read only where the video thread is in the sync loop. -/
theorem clocks_of_idle {a : Act} {s s' : State P} (h : step s a = some s')
    (hidle : a = .consumer .video → (s.consumer .video).body = none) : s'.out.clocks = s.out.clocks := by
  cases clockStep h with
  | other clocks => exact clocks
  | queued f v before clocks => exact clocks
  | written f v q before =>
      rw [hidle rfl] at before
      cases before

theorem clocked_step (hpos : 0 < P.bytesPerSec) {a : Act} {s s' : State P} (h : step s a = some s')
    (hc : Clocked s.out (s.consumer .video).body) : Clocked s'.out (s'.consumer .video).body := by
  cases videoStep h with
  | other rendered body dec hnone idle =>
      have hclocks := clocks_of_idle h idle
      rw [body]
      exact ⟨by rw [hclocks]; exact hc.held, by rw [hclocks]; exact hc.waits,
        by rw [hclocks, rendered]; exact hc.shown⟩
  | enter f rendered before after hone =>
      have hclocks := clocks_of_idle h (fun _ => before)
      rw [after]
      exact ⟨by simp [clockHeld], by simp, by rw [hclocks, rendered]; exact hc.shown⟩
  | body p k o next hin =>
      rw [hin.body_before] at hc
      rw [hin.out, hin.body_after]
      exact hc.frameStep hpos hin.step

theorem clocked (hpos : 0 < P.bytesPerSec) {file : List Payload} {acts : List Act} {s : State P}
    (h : Runs file acts s) : Clocked s.out (s.consumer .video).body :=
  Transition.invariant (I := fun s : State P => Clocked s.out (s.consumer .video).body)
    (fun _ _ _ hc h => clocked_step hpos h hc)
    ⟨by simp [start, ConsumerPc.body], by simp [start, ConsumerPc.body], by simp [start, Output.start]⟩ h

theorem Clocked.release {s : State P} (hc : Clocked s.out (s.consumer .video).body) :
    ∀ r ∈ releases s, ∃ call ∈ s.out.clocks, r.2 = seconds P call := by
  intro r hr
  rcases List.mem_append.mp hr with hr | hr
  · obtain ⟨x, hx, rfl⟩ := List.mem_map.mp hr
    exact hc.shown x hx
  · obtain ⟨k, hb, hk⟩ := Option.bind_eq_some_iff.mp (Option.mem_toList.mp hr)
    have hheld : clockHeld k = some r.2 := by
      cases k <;> simp only [released, reduceCtorEq, Option.some.injEq] at hk <;> rw [← hk] <;> rfl
    obtain ⟨call, hcall, he⟩ := hc.held r.2 (by rw [hb]; exact hheld)
    exact ⟨call, List.mem_of_getLast? hcall, he⟩

/-- Picture and sound are together: no frame has left the sync loop more than
20 ms before the sound that belongs to it was played, and none is kept waiting
whose sound had been played, but for those 20 ms, when the clock was last asked. -/
structure InSync (s : State P) : Prop where
  shown : ∀ r ∈ releases s, r.1.pts ≠ avNoptsValue →
    (r.1.pts * P.timeBase - 1 / 50) * P.bytesPerSec ≤ s.out.played
  waits : ∀ f v, (s.consumer .video).body = some (.delay f v) →
    ∃ call, s.out.clocks.getLast? = some call ∧ call.start < (P.videoPts f - 1 / 50) * P.bytesPerSec

/-- In exact arithmetic the two threads keep picture and sound together in every
run in which the clock is read consistently and no wait is cut short by quit. -/
theorem in_sync (hdouble : P.Exact) {file : List Payload} {acts : List Act} {s : State P}
    (h : Runs file acts s)
    (hexact : ∀ n, P.queuedAudioSize n = n) (hqueue : ∀ a ∈ acts, a ≠ .queueAudio false)
    (hpos : 0 < P.bytesPerSec)
    (hreads : Transition.Along step ReadsConsistently (start P file) acts)
    (hwaits : Transition.Along step WaitsOut (start P file) acts) : InSync s := by
  have hl := linearizable_of_reads h hexact hqueue hreads
  have hc := clocked hpos h
  have hbps : (0 : ℚ) < P.bytesPerSec := by exact_mod_cast hpos
  have hseconds : ∀ call, seconds P call = call.value / P.bytesPerSec := fun call => by
    rw [seconds, hdouble, hdouble, hdouble]
  constructor
  · intro r hr hpts
    obtain ⟨call, hcall, he⟩ := hc.release r hr
    have htimely := (timely_iff hdouble).mp ((inTime_iff h).mp hwaits r hr) hpts
    rw [he, hseconds, le_div_iff₀ hbps] at htimely
    have hplayed : (call.value : ℚ) ≤ s.out.played := by exact_mod_cast hl.played call hcall
    exact htimely.trans hplayed
  · intro f v hb
    obtain ⟨call, hlast, hahead⟩ := hc.waits f v hb
    have hcall := List.mem_of_getLast? hlast
    have hv := (paths h).video.timed f v (by rw [hb]; rfl)
    have hstart : (call.start : ℚ) ≤ call.value := by exact_mod_cast (hl.within call hcall).1
    rw [hdouble.ahead_iff, hseconds, ← lt_sub_iff_add_lt, div_lt_iff₀ hbps, hv] at hahead
    exact ⟨call, hlast, hstart.trans_lt hahead⟩

def slow : Player := { stereo.exact with freq := 1 }

def dueLater : List Act :=
  List.replicate 26 Act.reader ++ List.replicate 14 (Act.consumer .video) ++
    List.replicate 11 (Act.consumer .audio) ++ [.queueAudio true, .consumer .audio, .drain 4] ++
    List.replicate 10 (Act.consumer .video)

theorem dueLater_runs : ∃ s : State slow, Runs [⟨1, []⟩, ⟨0, [0]⟩] dueLater s ∧
    s.out.clocks = [⟨0, 0, 0⟩, ⟨4, 4, 4⟩] ∧ releases s = [(⟨1, 1, 2, 2, 0, 44100, 2⟩, 1)] := by
  obtain ⟨s, hs, hp⟩ := Transition.exists_of_run_any step (start slow [⟨1, []⟩, ⟨0, [0]⟩]) dueLater
    (fun s : State slow => decide (s.out.clocks = [⟨0, 0, 0⟩, ⟨4, 4, 4⟩] ∧
      releases s = [(⟨1, 1, 2, 2, 0, 44100, 2⟩, 1)])) (by decide +kernel)
  exact ⟨s, hs, of_decide_eq_true hp⟩

theorem in_sync_sample : ∃ s : State slow, Runs [⟨1, []⟩, ⟨0, [0]⟩] dueLater s ∧ releases s ≠ [] ∧
    InSync s := by
  obtain ⟨s, hs, hclocks, hreleases⟩ := dueLater_runs
  have hdouble : slow.Exact := fun _ => rfl
  have hexact : ∀ n, slow.queuedAudioSize n = n := fun _ => rfl
  have hqueue : ∀ a ∈ dueLater, a ≠ .queueAudio false := by decide
  refine ⟨s, hs, by simp [hreleases], in_sync hdouble hs hexact hqueue (by decide)
    ((reads_iff hs hexact hqueue).mpr ?_) ((inTime_iff hs).mpr ?_)⟩
  · simp [Misread, hclocks, Within]
  · rw [InTime, hreleases]
    simp only [List.mem_singleton, forall_eq, timely_iff hdouble]
    norm_num [Player.exact, avNoptsValue, slow, stereo, samplePlayer]

end FfmpegPlayer.Sync
