import FfmpegPlayer.Packets

namespace FfmpegPlayer.Leaving

open SendReceive Media Threads ReadThread ConsumerThreads MainThread Interleaving
open Fifo Ownership PacketFlow
  Packets

variable {P : Player}

def left {i : Side} : ConsumerPc i → Bool
  | .breakUnlock | .done => true
  | _ => false

@[simp] theorem left_woken {i : Side} (pc : ConsumerPc i) : left pc.woken = left pc := by
  cases pc <;> rfl

def LeavesAt (i : Side) (s : State P) : Prop :=
  s.quit = true ∧ (s.consumer i = .loopTest ∨ (s.consumer i = .breakTest ∧ s.queue i = []))

theorem left_consumerThread {i : Side} {onFrame : AVFrame → FramePc i} {s s' : State P}
    (h : consumerThread i true onFrame s = some s') :
    left (s'.consumer i) = true ↔ left (s.consumer i) = true ∨ LeavesAt i s := by
  cases consumerThread_move h with
  | leave hpc hquit => simp [LeavesAt, hpc, hquit, left]
  | stop hpc hquit hempty => simp [LeavesAt, hpc, hquit, hempty, left]
  | enter hpc hquit => simp [LeavesAt, hpc, hquit, left]
  | goOn hpc hmore => simpa [LeavesAt, hpc, left] using hmore
  | lock hpc => rcases hpc with hpc | hpc <;> simp [LeavesAt, hpc, left]
  | body p k o next hpc => cases next <;> simp [LeavesAt, hpc, left, afterFrame]
  | ready hpc | unready hpc | block hpc | breakUnlock hpc | pop p q hpc | unlock p hpc | ctx p hpc
  | accept p d hpc | reject p r d hpc | receive p f d hpc | drained p r f d hpc | free p hpc =>
      simp [LeavesAt, hpc, left]

theorem left_step {a : Act} {s s' : State P} (h : step s a = some s') (i : Side) :
    left (s'.consumer i) = true ↔
      left (s.consumer i) = true ∨ (a = .consumer i ∧ LeavesAt i s) := by
  by_cases ha : a = .consumer i
  · subst ha
    replace h := step_consumer h
    simpa using left_consumerThread h
  · simp only [ha, false_and, or_false]
    by_cases hq : ∃ b, a = .queueAudio b
    · obtain ⟨b, rfl⟩ := hq
      by_cases hi : i = .audio
      · obtain ⟨p, f, n, hpc, rfl⟩ := queueAudioStep_eq h
        subst hi
        simp [hpc, left]
      · rw [(queueAudioStep_step h).consumer i hi]
    · rcases step_consumer_of_ne h ha (fun b hb => hq ⟨b, hb⟩) with he | he
      · rw [he]
      · rw [he, left_woken]

def LeavesEmpty (s : State P) (a : Act) : Prop :=
  ∀ i, a = .consumer i → s.consumer i = .loopTest → s.quit = true → s.queue i = []

def PushesToLive (s : State P) (a : Act) : Prop :=
  a = .reader → ∀ i p, s.reader = .push i p → left (s.consumer i) = false

def Stranded (s : State P) : Prop := ∃ i, left (s.consumer i) = true ∧ s.queue i ≠ []

theorem stranded_step {a : Act} {s s' : State P} (h : step s a = some s') (hs : Stranded s) :
    Stranded s' := by
  obtain ⟨i, hl, hq⟩ := hs
  refine ⟨i, (left_step h i).mpr (Or.inl hl), ?_⟩
  rcases step_queue h i with he | ⟨-, p, -, he⟩ | ⟨-, hpc, -⟩
  · rwa [he]
  · simp [he]
  · simp [hpc, left] at hl

theorem stranded_iff {a : Act} {s s' : State P} (h : step s a = some s') (hs : ¬ Stranded s) :
    Stranded s' ↔ ¬ (LeavesEmpty s a ∧ PushesToLive s a) := by
  have hs' : ∀ i, left (s.consumer i) = true → s.queue i = [] := by
    intro i hl
    by_contra hq
    exact hs ⟨i, hl, hq⟩
  constructor
  · rintro ⟨i, hl, hq⟩ ⟨hle, hpl⟩
    apply hq
    rcases (left_step h i).mp hl with hl' | ⟨ha, hquit, hpc⟩
    · rcases step_queue h i with he | ⟨ha, p, hr, -⟩ | ⟨-, hpc, -⟩
      · rw [he, hs' i hl']
      · simp [hpl ha i p hr] at hl'
      · simp [hpc, left] at hl'
    · have hqi : s.queue i = [] := by
        rcases hpc with hpc | ⟨-, hqi⟩
        · exact hle i ha hpc hquit
        · exact hqi
      rcases step_queue h i with he | ⟨hr, -⟩ | ⟨-, -, p, hp⟩
      · rw [he, hqi]
      · rw [ha] at hr; simp at hr
      · rw [hqi] at hp; simp at hp
  · intro hg
    by_cases hle : LeavesEmpty s a
    · have hpl : ¬ PushesToLive s a := fun hp => hg ⟨hle, hp⟩
      simp only [PushesToLive, not_forall, Bool.not_eq_false] at hpl
      obtain ⟨ha, i, p, hr, hl⟩ := hpl
      refine ⟨i, (left_step h i).mpr (Or.inl hl), ?_⟩
      subst ha
      have hp : readThreadFunc s = some s' := h
      simp only [readThreadFunc, hr, Option.some.injEq] at hp
      rw [← hp]
      simp
    · simp only [LeavesEmpty, not_forall] at hle
      obtain ⟨i, ha, hpc, hquit, hq⟩ := hle
      refine ⟨i, (left_step h i).mpr (Or.inr ⟨ha, hquit, Or.inl hpc⟩), ?_⟩
      rcases step_queue h i with he | ⟨hr, -⟩ | ⟨-, hpop, -⟩
      · rwa [he]
      · rw [ha] at hr; simp at hr
      · rw [hpc] at hpop; simp at hpop

def JoinsDone (s : State P) : Prop :=
  match s.main with
  | .join .audio => s.reader = .done
  | .join .video => s.reader = .done ∧ s.consumer .audio = .done
  | .cleanup _ | .returned => s.reader = .done ∧ ∀ i, s.consumer i = .done
  | _ => True

theorem joinsDone_of_main_eq {a : Act} {s s' : State P} (h : step s a = some s')
    (hm : s'.main = s.main) (hj : JoinsDone s) : JoinsDone s' := by
  have hr := reader_done_step h
  have hc := fun i => consumer_done_step h (i := i)
  unfold JoinsDone at hj ⊢
  rw [hm]
  split at hj
  next => exact hr hj
  next => exact ⟨hr hj.1, hc _ hj.2⟩
  next => exact ⟨hr hj.1, fun i => hc i (hj.2 i)⟩
  next => exact ⟨hr hj.1, fun i => hc i (hj.2 i)⟩
  next => trivial

theorem joinsDone_mainThread {s s' : State P} (h : mainThread s = some s') (hj : JoinsDone s) :
    JoinsDone s' := by
  cases mainThread_move h with
  | joinReader hpc hdone => exact hdone
  | joinAudio hpc hdone =>
      simp only [JoinsDone, hpc] at hj
      exact ⟨hj, hdone⟩
  | joinVideo hpc hdone =>
      simp only [JoinsDone, hpc] at hj
      refine ⟨hj.1, fun i => ?_⟩
      cases i with
      | audio => exact hj.2
      | video => exact hdone
  | freePkt calls hpc | cleanup c calls hpc | finish hpc =>
      simp only [JoinsDone, hpc] at hj
      exact hj
  | goOn | leave | setQuit | notifyAudio | notifyVideo | delay => trivial

theorem joinsDone_step {a : Act} {s s' : State P} (h : step s a = some s') (hj : JoinsDone s) :
    JoinsDone s' := by
  by_cases hm : a = .main
  · subst hm; exact joinsDone_mainThread h hj
  · by_cases hp : ∃ e, a = .poll e
    · obtain ⟨e, rfl⟩ := hp
      obtain ⟨-, rfl⟩ := pollEvent_eq h
      cases e <;> trivial
    · exact joinsDone_of_main_eq h (step_main_of_ne h hm (fun e he => hp ⟨e, he⟩)) hj

theorem joinsDone {file : List Payload} {acts : List Act} {s : State P} (h : Runs file acts s) :
    JoinsDone s :=
  Transition.invariant (I := JoinsDone) (fun _ _ _ hs h => joinsDone_step h hs)
    (show JoinsDone (start P file) from trivial) h

def joined : MainPc → Bool
  | .cleanup _ | .returned => true
  | _ => false

theorem done_of_joined {file : List Payload} {acts : List Act} {s : State P} (h : Runs file acts s)
    (hj : joined s.main = true) : s.reader = .done ∧ ∀ i, s.consumer i = .done := by
  have hd := joinsDone h
  unfold JoinsDone at hd
  cases hm : s.main <;> simp_all [joined]

theorem stranded_iff_of_done {s : State P} (hd : ∀ i, s.consumer i = .done) :
    ¬ Stranded s ↔ ∀ i, s.queue i = [] := by
  simp only [Stranded, hd, left, true_and, not_exists, not_not]

def atEnd : ReaderPc → Bool
  | .freeEof _ | .setQuit | .notifyAll _ | .done => true
  | _ => false

def pastQuit : ReaderPc → Bool
  | .notifyAll _ | .done => true
  | _ => false

/-- Without a user request only the reader stops the player, at the end of the file. -/
structure StopsAtEof (s : State P) : Prop where
  quit : s.quit = true → pastQuit s.reader = true
  input : atEnd s.reader = true → s.input = []

theorem stopsAtEof_readThreadFunc {s s' : State P} (h : readThreadFunc s = some s')
    (hs : StopsAtEof s) : StopsAtEof s' := by
  have hrun : pastQuit s.reader = false → s.quit = false := fun hp => by simpa [hp] using hs.quit
  cases readThreadFunc_move h with
  | leave hpc hq => simp [hrun (by rw [hpc]; rfl)] at hq
  | eof a hpc hin => exact ⟨by simp [hrun (by rw [hpc]; rfl)], fun _ => hin⟩
  | freeEof a hpc => exact ⟨by simp [hrun (by rw [hpc]; rfl)], fun _ => hs.input (by rw [hpc]; rfl)⟩
  | setQuit hpc | notifyAudio hpc | notifyVideo hpc =>
      exact ⟨fun _ => rfl, fun _ => hs.input (by rw [hpc]; rfl)⟩
  | enter hpc | lockAudio hpc | lockVideo hpc | full j hpc | room hpc | fullUnlockAudio hpc
  | fullUnlockVideo hpc | sleep hpc | unlockAudio hpc | unlockVideo hpc | alloc hpc | read a x xs hpc
  | select j p hpc | other p hpc | lock j p hpc | push j p hpc | notify j hpc | unlock j hpc
  | freeOther p hpc =>
      exact ⟨by simp [hrun (by rw [hpc]; rfl)], by simp [atEnd]⟩

def mainQuiet : MainPc → Bool
  | .setQuit | .notifyAll _ => false
  | _ => true

theorem mainQuiet_step {a : Act} {s s' : State P} (h : step s a = some s') (ha : a ≠ .poll .quit)
    (hm : mainQuiet s.main = true) : mainQuiet s'.main = true := by
  by_cases hmain : a = .main
  · subst hmain
    cases mainThread_move h with
    | setQuit hpc | notifyAudio hpc | notifyVideo hpc => simp [hpc, mainQuiet] at hm
    | _ => rfl
  · by_cases hpoll : ∃ e, a = .poll e
    · obtain ⟨e, rfl⟩ := hpoll
      obtain ⟨-, rfl⟩ := pollEvent_eq h
      cases e with
      | none | other => rfl
      | quit => exact absurd rfl ha
    · rw [step_main_of_ne h hmain (fun e he => hpoll ⟨e, he⟩)]
      exact hm

theorem stopsAtEof_step {a : Act} {s s' : State P} (h : step s a = some s')
    (hm : mainQuiet s.main = true) (hs : StopsAtEof s) : StopsAtEof s' := by
  by_cases ha : a = .reader
  · subst ha; exact stopsAtEof_readThreadFunc h hs
  · have hl := step_leavesReader h ha
    constructor
    · intro hq
      rw [hl.reader]
      rcases step_quit h with he | ⟨-, ⟨hr, -⟩ | hmain⟩
      · exact hs.quit (he.symm.trans hq)
      · exact absurd hr ha
      · simp [hmain, mainQuiet] at hm
    · rw [hl.reader, hl.input]
      exact hs.input

def LeftQuit (s : State P) : Prop := ∀ i, left (s.consumer i) = true → s.quit = true

theorem leftQuit_step {a : Act} {s s' : State P} (h : step s a = some s') (hs : LeftQuit s) :
    LeftQuit s' := by
  intro i hl
  have hq : s.quit = true := by
    rcases (left_step h i).mp hl with hl' | ⟨-, hq, -⟩
    · exact hs i hl'
    · exact hq
  rcases step_quit h with he | ⟨he, -⟩
  · rw [he, hq]
  · exact he

theorem leftQuit {file : List Payload} {acts : List Act} {s : State P} (h : Runs file acts s) : LeftQuit s :=
  Transition.invariant (fun _ _ _ hs h => leftQuit_step h hs)
    (show LeftQuit (start P file) from fun i hl => by simp [start, left] at hl) h

structure Unasked (s : State P) : Prop where
  main : mainQuiet s.main = true
  eof : StopsAtEof s
  left : LeftQuit s

theorem unasked_step {a : Act} {s s' : State P} (h : step s a = some s') (ha : a ≠ .poll .quit)
    (hs : Unasked s) : Unasked s' :=
  ⟨mainQuiet_step h ha hs.main, stopsAtEof_step h hs.main hs.eof, leftQuit_step h hs.left⟩

theorem unasked_start (file : List Payload) : Unasked (start P file) := by
  refine ⟨rfl, ⟨?_, ?_⟩, fun i => ?_⟩ <;> simp [start, atEnd, left]

theorem Unasked.pushesToLive {s : State P} (hs : Unasked s) (a : Act) : PushesToLive s a := by
  intro ha i p hr
  by_contra hl
  have hp := hs.eof.quit (hs.left i (by simpa using hl))
  simp [hr, pastQuit] at hp

/-- With no user request, and once main has joined the three threads, both
decoders have been given exactly their packets of the file if and only if no
consumer has left at the head of its loop while a packet was waiting. -/
theorem all_packets_sent_iff {file : List Payload} {acts : List Act} {s : State P}
    (h : Runs file acts s) (huser : ∀ a ∈ acts, a ≠ .poll .quit) (hj : joined s.main = true) :
    (∀ i, (sent (s.log.calls i)).map AVPacket.payload = P.select i file) ↔
      Transition.Along step LeavesEmpty (start P file) acts := by
  have hH := Transition.along_of_forall step (A := fun a => a ≠ .poll .quit)
    (start P file) huser
  have hU : Unasked s := Transition.invariant_along
    (fun _ _ _ hs ha h => unasked_step h ha hs) hH (unasked_start file) h
  obtain ⟨hr, hd⟩ := done_of_joined h hj
  have hin : s.input = [] := hU.eof.input (by simp [hr, atEnd])
  have hrec : Transition.Along step LeavesEmpty (start P file) acts ↔ ¬ Stranded s :=
    Transition.along_iff_of_recorded (I := Unasked)
      (fun _ _ _ hs ha h => unasked_step h ha hs)
      (fun _ _ _ _ _ h hb => stranded_step h hb)
      (fun s a s' hs _ h hb => by
        rw [stranded_iff h hb]
        simp only [hs.pushesToLive a, and_true])
      hH (unasked_start file) (by simp [Stranded, start]) h
  rw [hrec, stranded_iff_of_done hd]
  refine forall_congr' fun i => ?_
  have hread := (numbered h).read
  rw [hin, List.append_nil] at hread
  have hl := sent_or_held h i
  rw [hread, hd, hr] at hl
  simp only [popped, incoming, List.nil_append, List.append_nil] at hl
  rw [← hl]
  simp

def bothPlayed : List Act :=
  List.replicate 26 .reader ++ List.replicate 11 (.consumer .audio) ++ [.queueAudio true] ++
    List.replicate 3 (.consumer .audio) ++ List.replicate 21 (.consumer .video) ++ List.replicate 12 .reader ++
    [.consumer .audio, .consumer .video] ++ List.replicate 20 .main

theorem bothPlayed_runs : ∃ s : State stereo, Runs [⟨1, []⟩, ⟨0, []⟩] bothPlayed s ∧ s.main = .returned ∧
    (∀ i, (sent (s.log.calls i)).map AVPacket.payload = stereo.select i [⟨1, []⟩, ⟨0, []⟩]) ∧
    ∀ a < s.log.allocated, s.log.freed.count a = 1 := by
  obtain ⟨s, hs, hp⟩ := Transition.exists_of_run_any step (start stereo [⟨1, []⟩, ⟨0, []⟩]) bothPlayed
    (fun s : State stereo => decide (s.main = .returned ∧
      (sent (s.log.calls .audio)).map AVPacket.payload = stereo.select .audio [⟨1, []⟩, ⟨0, []⟩] ∧
      (sent (s.log.calls .video)).map AVPacket.payload = stereo.select .video [⟨1, []⟩, ⟨0, []⟩] ∧
      ∀ a < s.log.allocated, s.log.freed.count a = 1)) (by decide +kernel)
  obtain ⟨hm, ha, hv, hf⟩ := of_decide_eq_true hp
  refine ⟨s, hs, hm, fun i => ?_, hf⟩
  cases i with
  | audio => exact ha
  | video => exact hv

theorem all_packets_sent_sample : ∃ s : State stereo, Runs [⟨1, []⟩, ⟨0, []⟩] bothPlayed s ∧
    (∀ i, (sent (s.log.calls i)).map AVPacket.payload = stereo.select i [⟨1, []⟩, ⟨0, []⟩]) ∧
    Transition.Along step LeavesEmpty (start stereo [⟨1, []⟩, ⟨0, []⟩]) bothPlayed := by
  obtain ⟨s, hs, hm, hsent, -⟩ := bothPlayed_runs
  exact ⟨s, hs, hsent, (all_packets_sent_iff hs (by decide) (by rw [hm]; rfl)).mp hsent⟩

/-- One audio packet, read and pushed before the audio thread has moved; the
reader then ends the file, and the consumers leave at the head of their loops. -/
def earlyLeave : List Act :=
  List.replicate 25 .reader ++ [.consumer .audio, .consumer .video] ++ List.replicate 4 .main

theorem earlyLeave_runs : ∃ s : State stereo, Runs [⟨1, []⟩] earlyLeave s ∧
    joined s.main = true ∧ sent (s.log.calls .audio) = [] := by
  obtain ⟨s, hs, hp⟩ := Transition.exists_of_run_any step (start stereo [⟨1, []⟩]) earlyLeave
    (fun s : State stereo => joined s.main && (sent (s.log.calls .audio)).isEmpty) (by decide)
  simp only [Bool.and_eq_true, List.isEmpty_iff] at hp
  exact ⟨s, hs, hp.1, hp.2⟩

theorem not_all_packets_sent : ¬ ∀ (P : Player) (file : List Payload) (acts : List Act) (s : State P),
    Runs file acts s → (∀ a ∈ acts, a ≠ .poll .quit) → joined s.main = true →
    ∀ i, (sent (s.log.calls i)).map AVPacket.payload = P.select i file := by
  intro hall
  obtain ⟨s, hs, hj, hsent⟩ := earlyLeave_runs
  have h := hall stereo _ _ s hs (by decide) hj .audio
  rw [hsent] at h
  exact absurd h (by decide)

/-- When main returns, every packet that was ever allocated has been freed
exactly once if and only if no consumer has left at the head of its loop while
a packet was waiting and the reader has pushed none to a consumer that had left. -/
theorem all_packets_freed_iff {file : List Payload} {acts : List Act} {s : State P}
    (h : Runs file acts s) (hret : s.main = .returned) :
    (∀ a < s.log.allocated, s.log.freed.count a = 1) ↔
      Transition.Along step (fun s a => LeavesEmpty s a ∧ PushesToLive s a) (start P file) acts := by
  obtain ⟨hr, hd⟩ := done_of_joined h (by rw [hret]; rfl)
  have hrec : Transition.Along step (fun s a => LeavesEmpty s a ∧ PushesToLive s a) (start P file) acts ↔
      ¬ Stranded s :=
    Transition.along_iff_of_recorded (I := fun _ => True) (H := fun _ _ => True)
      (fun _ _ _ _ _ _ => trivial)
      (fun _ _ _ _ _ h hb => stranded_step h hb)
      (fun _ _ _ _ _ h hb => stranded_iff h hb)
      (Transition.along_true _ _) trivial (by simp [Stranded, start]) h
  rw [hrec, stranded_iff_of_done hd]
  have hall := (ledger_balanced h).all_freed_iff
  simp only [ledger, Multiset.coe_count] at hall
  rw [hall]
  simp only [hret, mainHeld, owners, hr, readerHeld, laneHeld, hd, consumerHeld, queueHeld, zero_add,
    add_zero, Multiset.coe_add, Multiset.coe_eq_zero, List.append_eq_nil_iff, List.map_eq_nil_iff]
  exact ⟨fun hq i => by cases i; exacts [hq.1, hq.2], fun hq => ⟨hq .audio, hq .video⟩⟩

theorem all_packets_freed_sample : ∃ s : State stereo, Runs [⟨1, []⟩, ⟨0, []⟩] bothPlayed s ∧
    (∀ a < s.log.allocated, s.log.freed.count a = 1) ∧
    Transition.Along step (fun s a => LeavesEmpty s a ∧ PushesToLive s a)
      (start stereo [⟨1, []⟩, ⟨0, []⟩]) bothPlayed := by
  obtain ⟨s, hs, hm, -, hf⟩ := bothPlayed_runs
  exact ⟨s, hs, hf, (all_packets_freed_iff hs hm).mp hf⟩

def earlyReturn : List Act := earlyLeave ++ List.replicate 16 .main

theorem earlyReturn_runs : ∃ s : State stereo, Runs [⟨1, []⟩] earlyReturn s ∧
    s.main = .returned ∧ 1 < s.log.allocated ∧ s.log.freed.count 1 = 0 := by
  obtain ⟨s, hs, hp⟩ := Transition.exists_of_run_any step (start stereo [⟨1, []⟩]) earlyReturn
    (fun s : State stereo => decide (s.main = .returned ∧ 1 < s.log.allocated ∧
      s.log.freed.count 1 = 0)) (by decide)
  exact ⟨s, hs, of_decide_eq_true hp⟩

theorem not_all_packets_freed : ¬ ∀ (P : Player) (file : List Payload) (acts : List Act) (s : State P),
    Runs file acts s → s.main = .returned → ∀ a < s.log.allocated, s.log.freed.count a = 1 := by
  intro hall
  obtain ⟨s, hs, hm, hlt, hc⟩ := earlyReturn_runs
  have h := hall stereo _ _ s hs hm 1 hlt
  omega

end FfmpegPlayer.Leaving
