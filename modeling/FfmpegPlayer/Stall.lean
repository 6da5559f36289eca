import FfmpegPlayer.Leaving
import FfmpegPlayer.Playback
import Mathlib.Tactic.NormNum

namespace FfmpegPlayer.Stall

open SendReceive Media Threads ReadThread ConsumerThreads MainThread Interleaving
open Fifo PacketFlow Packets Leaving AudioClock Decoding Playback

variable {P : Player}

def checking : ReaderPc → Bool
  | .loopTest | .lockAudio | .lockVideo | .fullTest | .fullUnlockAudio | .fullUnlockVideo | .sleep => true
  | _ => false

/-- The sync loop holds its frame: the clock, and whatever the loop has already
read of it, are more than 20 ms behind. -/
def holds (o : Output P) : FramePc .video → Prop
  | .clockQueued _ v | .delay _ v => P.ahead v (clock o)
  | .clockWritten _ v q => P.ahead v (clock o) ∧ P.ahead v (P.getAudioClock o.audioWrittenBytes q)
  | .quitTest _ v c | .compare _ v c => P.ahead v (clock o) ∧ P.ahead v c
  | _ => False

/-- The reader waits for room, the audio thread for a packet, the device for
bytes and the video thread for the clock. -/
structure Stuck (s : State P) : Prop where
  running : s.quit = false
  reader : checking s.reader = true
  full : ∃ i, maxQueueSize ≤ (s.queue i).length
  audio : s.consumer .audio = .waiting
  empty : s.queue .audio = []
  drained : s.out.queued = 0
  video : ∃ p k, s.consumer .video = .frame p k ∧ holds s.out k

def SameShow (o o' : Output P) : Prop :=
  o'.queued = o.queued ∧ clock o' = clock o ∧ o'.rendered = o.rendered

theorem holds_frameStep {height : Int} {o o' : Output P} {k : FramePc .video}
    {next : Option (FramePc .video)} (hs : frameStep false height o k = some (o', next))
    (hk : holds o k) : (∃ k', next = some k' ∧ holds o' k') ∧ SameShow o o' := by
  cases frameStep_move hs with
  | clockQueued => exact ⟨⟨_, rfl, hk, hk⟩, rfl, rfl, rfl⟩
  | clockWritten | goOn | delay => exact ⟨⟨_, rfl, hk⟩, rfl, rfl, rfl⟩
  | wait => exact ⟨⟨_, rfl, hk.1⟩, rfl, rfl, rfl⟩
  | quit f v c hquit => cases hquit
  | due f v c hle => exact absurd hk.2 hle
  | pts | scale | update | clear | copy | present => exact absurd hk id

theorem stuck_readThreadFunc {s s' : State P} (h : readThreadFunc s = some s') (hs : Stuck s) :
    Stuck s' ∧ s'.queue = s.queue := by
  obtain ⟨hq, hr, hfull, ha, he, hd, hv⟩ := hs
  cases readThreadFunc_move h with
  | leave hpc hquit => rw [hq] at hquit; cases hquit
  | room hpc hroom =>
      obtain ⟨i, hi⟩ := hfull
      exact absurd (hroom i) (Nat.not_lt.mpr hi)
  | enter | full | lockAudio | lockVideo | fullUnlockAudio | fullUnlockVideo | sleep =>
      exact ⟨⟨hq, rfl, hfull, ha, he, hd, hv⟩, rfl⟩
  | unlockAudio hpc | unlockVideo hpc | alloc hpc | eof a hpc | read a x xs hpc | freeEof a hpc
  | select j p hpc | other p hpc | lock j p hpc | push j p hpc | notify j hpc | unlock j hpc
  | freeOther p hpc | setQuit hpc | notifyAudio hpc | notifyVideo hpc => simp [hpc, checking] at hr

theorem stuck_consumer {i : Side} {s s' : State P}
    (h : consumerThread i true (onFrame i) s = some s') (hs : Stuck s) :
    Stuck s' ∧ s'.queue = s.queue ∧ SameShow s.out s'.out := by
  obtain ⟨hq, hr, hfull, ha, he, hd, p, k, hv, hk⟩ := hs
  cases i with
  | audio => simp [consumerThread, ha] at h
  | video =>
      simp only [consumerThread, hv, hq, Option.map_eq_some_iff] at h
      obtain ⟨⟨o, next⟩, hstep, rfl⟩ := h
      obtain ⟨⟨k', rfl, hk'⟩, hshow⟩ := holds_frameStep hstep hk
      exact ⟨⟨hq, hr, hfull, ha, he, hshow.1.trans hd, p, k', by simp [afterFrame], hk'⟩, rfl, hshow⟩

theorem stuck_mainThread {s s' : State P} (h : mainThread s = some s') (hm : mainQuiet s.main = true)
    (hs : Stuck s) : Stuck s' ∧ s'.queue = s.queue := by
  obtain ⟨hq, hr, hfull, ha, he, hd, hv⟩ := hs
  cases mainThread_move h with
  | setQuit hpc | notifyAudio hpc | notifyVideo hpc => simp [hpc, mainQuiet] at hm
  | _ => exact ⟨⟨hq, hr, hfull, ha, he, hd, hv⟩, rfl⟩

theorem stuck_step {a : Act} {s s' : State P} (h : step s a = some s') (ha : ∀ i, a ≠ .spurious i)
    (hm : mainQuiet s.main = true) (hs : Stuck s) :
    Stuck s' ∧ s'.queue = s.queue ∧ SameShow s.out s'.out := by
  cases a with
  | reader =>
      obtain ⟨hs', hq⟩ := stuck_readThreadFunc h hs
      rw [step_out_of_ne h (by simp) (by simp) (by simp)]
      exact ⟨hs', hq, rfl, rfl, rfl⟩
  | consumer i => exact stuck_consumer (step_consumer h) hs
  | main =>
      obtain ⟨hs', hq⟩ := stuck_mainThread h hm hs
      rw [step_out_of_ne h (by simp) (by simp) (by simp)]
      exact ⟨hs', hq, rfl, rfl, rfl⟩
  | poll e =>
      obtain ⟨-, rfl⟩ := pollEvent_eq h
      exact ⟨⟨hs.running, hs.reader, hs.full, hs.audio, hs.empty, hs.drained, hs.video⟩,
        rfl, rfl, rfl, rfl⟩
  | spurious i => exact absurd rfl (ha i)
  | drain n =>
      obtain ⟨hn, rfl⟩ := drain_eq h
      rw [hs.drained, Nat.le_zero] at hn
      subst hn
      exact ⟨⟨hs.running, hs.reader, hs.full, hs.audio, hs.empty, hs.drained, hs.video⟩,
          rfl, rfl, rfl, rfl⟩
  | queueAudio accepted =>
      obtain ⟨p, f, n, hpc, -⟩ := queueAudioStep_eq h
      rw [hs.audio] at hpc
      cases hpc

/-- A stall lasts: until the user asks to quit, the queues, the clock and the
picture stay as they are. -/
theorem stuck_for_good {more : List Act} {s t : State P} (hs : Stuck s) (hm : mainQuiet s.main = true)
    (hmore : ∀ a ∈ more, (∀ i, a ≠ .spurious i) ∧ a ≠ .poll .quit)
    (h : Transition.run step s more = some t) :
    Stuck t ∧ t.queue = s.queue ∧ SameShow s.out t.out := by
  have hG := Transition.along_of_forall step
    (A := fun a => (∀ i, a ≠ .spurious i) ∧ a ≠ .poll .quit) s hmore
  refine (Transition.invariant_along
    (I := fun u => mainQuiet u.main = true ∧ Stuck u ∧ u.queue = s.queue ∧ SameShow s.out u.out)
    (fun u a u' hu ha h => ?_) hG ⟨hm, hs, rfl, rfl, rfl, rfl⟩ h).2
  obtain ⟨hmu, hsu, hqu, hou, hcu, hru⟩ := hu
  obtain ⟨hs', hq', ho', hc', hr'⟩ := stuck_step h ha.1 hmu hsu
  exact ⟨mainQuiet_step h ha.2 hmu, hs', hq'.trans hqu, ho'.trans hou, hc'.trans hcu, hr'.trans hru⟩

/-- The files that keep the player going. Whenever MAX_QUEUE_SIZE packets of
the video stream have been read behind the one being decoded, its frames are no
more than 20 ms ahead of all the audio read by then. -/
def Paced (P : Player) (file : List Payload) : Prop :=
  ∀ pre suf vs vq fsA dA fsV f dV, file = pre ++ suf → P.select .video pre = vs ++ vq →
    maxQueueSize ≤ vq.length →
    Decodes (P.codec .audio) .idle (P.select .audio pre) fsA dA →
    Decodes (P.codec .video) .reading vs (fsV ++ [f]) dV →
    ¬ P.ahead (P.videoPts f) (P.getAudioClock (soundBytes P fsA) (P.queuedAudioSize 0))

theorem incoming_of_checking (i : Side) {pc : ReaderPc} (h : checking pc = true) :
    incoming P i pc = [] := by
  cases pc <;> first | rfl | simp [checking] at h

theorem lane_of_checking {file : List Payload} {acts : List Act} {s : State P} (h : Runs file acts s) (i : Side)
    (hr : checking s.reader = true) (hpop : popped (s.consumer i) = []) :
    (sent (s.log.calls i)).map AVPacket.payload ++ (s.queue i).map AVPacket.payload =
      P.select i (s.log.reads.map AVPacket.payload) := by
  have hl := sent_or_held h i
  rwa [incoming_of_checking i hr, hpop, List.nil_append, List.append_nil] at hl

theorem holds_syncing {o : Output P} {k : FramePc .video} (h : holds o k) :
    ∃ f v, syncing k = some (f, v) ∧ onScreen k = f ∧ P.ahead v (clock o) := by
  cases k with
  | clockQueued f v | delay f v => exact ⟨f, v, rfl, rfl, h⟩
  | clockWritten f v q | quitTest f v c | compare f v c => exact ⟨f, v, rfl, rfl, h.1⟩
  | pts f | scale f c | update x | clear x | copy x | present x => exact absurd h id

theorem Stuck.not_paced {file : List Payload} {acts : List Act} {s : State P} (hs : Stuck s)
    (h : Runs file acts s) : ¬ Paced P file := by
  intro hp
  obtain ⟨p, k, hpc, hk⟩ := hs.video
  obtain ⟨f, v, hsync, hscreen, hahead⟩ := holds_syncing hk
  have hpaths := paths h
  -- the queue that is full is the video queue
  have hfull : maxQueueSize ≤ (s.queue .video).length := by
    obtain ⟨i, hi⟩ := hs.full
    cases i with
    | audio => simp [hs.empty, maxQueueSize] at hi
    | video => exact hi
  have hlane (i : Side) := lane_of_checking h i hs.reader (by
    cases i with
    | audio => rw [hs.audio]; rfl
    | video => rw [hpc]; rfl)
  have haudio := hlane .audio
  rw [hs.empty, List.map_nil, List.append_nil] at haudio
  have hdecA := inLoop h .audio
  have hdecV := inLoop h .video
  have hpa := hpaths.audio
  have hpv := hpaths.video
  rw [hs.audio] at hpa
  rw [hpc] at hpv
  rw [InLoop, hs.audio, haudio] at hdecA
  have hshown : frames (s.log.calls .video) = s.out.rendered.map Picture.frame ++ [f] := by
    rw [← hscreen]
    exact hpv.shown
  rw [InLoop, hpc, hshown] at hdecV
  have hv : v = P.videoPts f := hpv.timed f v hsync
  have hnot := hp _ _ _ _ _ _ _ _ _ (numbered h).read.symm (hlane .video).symm
    (by rwa [List.length_map]) hdecA hdecV
  rw [← hv, hpa.soundBytes_eq] at hnot
  rw [clock, hs.drained] at hahead
  exact hnot hahead

/-- On such a file no interleaving reaches a stall. -/
theorem not_stuck_of_paced {file : List Payload} {acts : List Act} {s : State P}
    (hp : Paced P file) (h : Runs file acts s) : ¬ Stuck s :=
  fun hs => hs.not_paced h hp

theorem reader_pushes {s : State P} {x : Payload} {xs : List Payload} {i : Side}
    (hr : s.reader = .loopTest) (hq : s.quit = false) (hm : ∀ j, s.mutex j = none)
    (hroom : ∀ j, (s.queue j).length < maxQueueSize) (hin : s.input = x :: xs)
    (hx : P.route x = some i) (hw : (s.consumer i).woken = s.consumer i) :
    Transition.run step s (List.replicate 13 .reader) = some { s with
      queue := Function.update s.queue i (s.queue i ++ [⟨s.log.allocated, x⟩])
      input := xs
      log.allocated := s.log.allocated + 1
      log.reads := s.log.reads ++ [⟨s.log.allocated, x⟩] } := by
  have hA := Nat.not_le.mpr (hroom .audio)
  have hV := Nat.not_le.mpr (hroom .video)
  obtain ⟨quit, mutex, queue, reader, consumer, main, input, dec, out, log⟩ := s
  simp only at hr hq hm hroom hin hw hA hV
  obtain rfl : mutex = fun _ => none := funext hm
  subst hr hq hin
  have hboth : Function.update (Function.update (Function.update (Function.update
      (fun _ => none) Side.audio (some Thread.reader)) .video (some .reader)) .audio none) .video none =
        fun _ => none := by
    funext j
    cases j <;> rfl
  have hcheck : Transition.run step
      ⟨false, fun _ => none, queue, .loopTest, consumer, main, x :: xs, dec, out, log⟩
      (List.replicate 6 .reader) =
      some ⟨false, fun _ => none, queue, .alloc, consumer, main, x :: xs, dec, out, log⟩ := by
    simp [List.replicate, Transition.run, step, readThreadFunc, State.setMutex, hA, hV, hboth]
  have hread : Transition.run step
      ⟨false, fun _ => none, queue, .alloc, consumer, main, x :: xs, dec, out, log⟩
      (List.replicate 3 .reader) =
      some ⟨false, fun _ => none, queue, .lock i ⟨log.allocated, x⟩, consumer, main, xs, dec, out,
        { log with allocated := log.allocated + 1, reads := log.reads ++ [⟨log.allocated, x⟩] }⟩ := by
    simp [List.replicate, Transition.run, step, readThreadFunc, hx]
  have hturn : List.replicate 13 Act.reader =
      List.replicate 6 .reader ++ (List.replicate 3 .reader ++ List.replicate 4 .reader) := rfl
  rw [hturn]
  refine Transition.run_trans hcheck (Transition.run_trans hread ?_)
  simp [List.replicate, Transition.run, step, readThreadFunc, State.setMutex, State.setQueue,
    State.notifyOne, hw]

theorem reader_fills {x : Payload} {i : Side} (hx : P.route x = some i) (n : Nat) {s : State P}
    (hr : s.reader = .loopTest) (hq : s.quit = false) (hm : ∀ j, s.mutex j = none)
    (hroom : ∀ j, j ≠ i → (s.queue j).length < maxQueueSize)
    (hn : (s.queue i).length + n ≤ maxQueueSize) (hin : s.input = List.replicate n x)
    (hw : (s.consumer i).woken = s.consumer i) :
    ∃ acts t, Transition.run step s acts = some t ∧ t.reader = .loopTest ∧ t.quit = false ∧
      (t.queue i).length = (s.queue i).length + n ∧ (∀ j, j ≠ i → t.queue j = s.queue j) ∧
      t.consumer = s.consumer ∧ t.out = s.out := by
  induction n generalizing s with
  | zero => exact ⟨[], s, rfl, hr, hq, rfl, fun _ _ => rfl, rfl, rfl⟩
  | succ n ih =>
      have hroom' : ∀ j, (s.queue j).length < maxQueueSize := by
        intro j
        by_cases hj : j = i
        · subst hj; omega
        · exact hroom j hj
      have hpush := reader_pushes hr hq hm hroom' hin hx hw
      obtain ⟨acts, t, ht, htr, htq, htl, hto, htc, htout⟩ := ih (s := { s with
          queue := Function.update s.queue i (s.queue i ++ [⟨s.log.allocated, x⟩])
          input := List.replicate n x
          log.allocated := s.log.allocated + 1
          log.reads := s.log.reads ++ [⟨s.log.allocated, x⟩] }) hr hq hm
        (fun j hj => by simpa [hj] using hroom j hj) (by simp; omega) rfl hw
      refine ⟨_, t, Transition.run_trans hpush ht, htr, htq, ?_, fun j hj => ?_, htc, htout⟩
      · rw [htl]
        simp
        omega
      · rw [hto j hj]
        simp [hj]

def silentFile : List Payload := ⟨0, [0]⟩ :: List.replicate 200 ⟨0, []⟩

theorem silentFile_holds : ∃ s : State stereo,
    Runs silentFile (List.replicate 13 .reader ++ List.replicate 4 (.consumer .audio) ++
      List.replicate 10 (.consumer .video)) s ∧
    s.reader = .loopTest ∧ s.quit = false ∧ (∀ j, s.mutex j = none) ∧ (∀ j, s.queue j = []) ∧
    s.input = List.replicate 200 ⟨0, []⟩ ∧ s.consumer .audio = .waiting ∧ s.out.queued = 0 ∧
    ∃ p k, s.consumer .video = .frame p k ∧ holds s.out k := by
  refine ⟨_, rfl, rfl, rfl, fun j => ?_, fun j => ?_, rfl, rfl, rfl, _, _, rfl, ?_⟩
  · cases j <;> rfl
  · cases j <;> rfl
  · show stereo.ahead (stereo.videoPts ⟨1, 1, 2, 2, 0, 44100, 2⟩) (stereo.getAudioClock 0 0)
    decide +kernel

theorem silentFile_runs : ∃ acts, ∃ s : State stereo, Runs silentFile acts s ∧ Stuck s := by
  obtain ⟨s, hs, hr, hq, hm, hqueue, hin, haudio, hqueued, p, k, hpc, hk⟩ := silentFile_holds
  obtain ⟨acts, t, ht, htr, htq, htl, hto, htc, htout⟩ := reader_fills (x := ⟨0, []⟩) (i := .video)
    rfl 200 hr hq hm (fun j _ => by simp [hqueue j, maxQueueSize])
    (by simp [hqueue .video, maxQueueSize]) hin (by rw [hpc]; rfl)
  refine ⟨_, t, Transition.run_trans hs ht, ⟨htq, by rw [htr]; rfl, ⟨.video, ?_⟩, ?_, ?_, ?_, ?_⟩⟩
  · rw [htl, hqueue]; decide
  · rw [htc, haudio]
  · rw [hto .audio (by simp), hqueue]
  · rw [htout, hqueued]
  · rw [htc, htout]; exact ⟨p, k, hpc, hk⟩

theorem not_never_stuck : ¬ ∀ (P : Player) (file : List Payload) (acts : List Act) (s : State P),
    Runs file acts s → ¬ Stuck s := by
  intro hall
  obtain ⟨acts, s, hs, hstuck⟩ := silentFile_runs
  exact hall stereo silentFile acts s hs hstuck

def steady : Player :=
  samplePlayer 0 (fun i x => ⟨x.data.length, if i = .audio then 44100 else 1, 2, 2, 0, 44100, 2⟩)

def steadyFile : List Payload := ⟨1, []⟩ :: silentFile

theorem steadyFile_audio {pre suf : List Payload} (h : steadyFile = pre ++ suf) (hne : pre ≠ []) :
    steady.select .audio pre = [⟨1, []⟩] := by
  have hall : steady.select .audio silentFile = [] := by decide +kernel
  obtain ⟨x, pre, rfl⟩ := List.exists_cons_of_ne_nil hne
  obtain ⟨rfl, hrest⟩ := List.cons_eq_cons.mp h
  have hpre : steady.select .audio pre = [] := by
    rw [Player.select, List.filter_eq_nil_iff] at hall ⊢
    exact fun y hy => hall y (hrest ▸ List.mem_append_left _ hy)
  rw [Player.select, List.filter_cons_of_pos (by decide)]
  exact congrArg _ hpre

theorem steadyFile_video {x : Payload} (h : x ∈ steady.select .video steadyFile) :
    x.data.length = 0 ∨ x.data.length = 1 := by
  have hall : ∀ x ∈ steady.select .video steadyFile, x.data.length = 0 ∨ x.data.length = 1 := by
    decide +kernel
  exact hall x h

theorem paced_steadyFile : Paced steady steadyFile := by
  intro pre suf vs vq fsA dA fsV f dV hfile hsel hlen hA hV
  have hne : pre ≠ [] := by
    rintro rfl
    have hnil := List.append_eq_nil_iff.mp hsel.symm
    simp [hnil.2, maxQueueSize] at hlen
  have hsound : fsA = [⟨0, 44100, 2, 2, 0, 44100, 2⟩] := by
    obtain ⟨hfs, -, hidle⟩ := hA.of_prompt
    rw [hidle rfl, List.append_nil, steadyFile_audio hfile hne] at hfs
    exact hfs
  obtain ⟨hfs, -⟩ := hV.of_prompt
  have hmem : f ∈ vs.map (fun x => (⟨x.data.length, 1, 2, 2, 0, 44100, 2⟩ : AVFrame)) := by
    have hf : f ∈ (fsV ++ [f]) ++ dV.1 := by simp
    rwa [hfs] at hf
  obtain ⟨x, hx, rfl⟩ := List.mem_map.mp hmem
  have hxfile : x ∈ steady.select .video steadyFile := by
    rw [hfile, Player.select, List.filter_append]
    refine List.mem_append_left _ ?_
    change x ∈ steady.select .video pre
    rw [hsel]
    exact List.mem_append_left _ hx
  rw [hsound]
  rcases steadyFile_video hxfile with hn | hn <;> rw [hn] <;> decide +kernel

theorem steadyFile_holds : ∃ s : State steady,
    Runs steadyFile (List.replicate 26 .reader ++ List.replicate 10 (.consumer .video)) s ∧
    s.reader = .loopTest ∧ s.quit = false ∧ (∀ j, s.mutex j = none) ∧
    s.queue .video = [] ∧ (s.queue .audio).length = 1 ∧ s.input = List.replicate 200 ⟨0, []⟩ ∧
    ∃ p k, s.consumer .video = .frame p k ∧ holds s.out k := by
  refine ⟨_, rfl, rfl, rfl, fun j => ?_, rfl, rfl, rfl, _, _, rfl, ?_⟩
  · cases j <;> rfl
  · show steady.ahead (steady.videoPts ⟨1, 1, 2, 2, 0, 44100, 2⟩) (steady.getAudioClock 0 0)
    decide +kernel

/-- The picture waits and 200 packets are queued behind it, but the sound that
releases it has been read. -/
theorem not_stuck_of_paced_sample : ∃ acts, ∃ s : State steady, Runs steadyFile acts s ∧
    s.reader = .loopTest ∧ (s.queue .video).length = maxQueueSize ∧
    (∃ p k, s.consumer .video = .frame p k ∧ holds s.out k) ∧ ¬ Stuck s := by
  obtain ⟨s, hs, hr, hq, hm, hqv, hqa, hin, hhold⟩ := steadyFile_holds
  obtain ⟨acts, t, ht, htr, htq, htl, hto, htc, htout⟩ := reader_fills (x := ⟨0, []⟩) (i := .video)
    rfl 200 hr hq hm (fun j hj => by cases j <;> simp_all [maxQueueSize])
    (by simp [hqv, maxQueueSize]) hin (by obtain ⟨p, k, hpc, -⟩ := hhold; rw [hpc]; rfl)
  have hrun := Transition.run_trans hs ht
  exact ⟨_, t, hrun, htr, by rw [htl, hqv]; rfl, by rw [htc, htout]; exact hhold,
    not_stuck_of_paced paced_steadyFile hrun⟩

end FfmpegPlayer.Stall
