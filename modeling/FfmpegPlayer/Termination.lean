import FfmpegPlayer.Deadlock
import FfmpegPlayer.Reference

namespace FfmpegPlayer.Termination

open SendReceive Media Threads ReadThread ConsumerThreads MainThread Interleaving
open PacketFlow Decoding Leaving Shutdown Deadlock Reference

variable {P : Player}

/-- How many steps the reader still takes at most once quit is set. -/
def readerRank : ReaderPc → Nat
  | .lockAudio => 16
  | .lockVideo => 15
  | .fullTest => 14
  | .unlockAudio => 13
  | .unlockVideo => 12
  | .alloc => 11
  | .read _ => 10
  | .route _ => 9
  | .lock _ _ => 8
  | .push _ _ => 7
  | .fullUnlockAudio => 7
  | .notify _ => 6
  | .fullUnlockVideo => 6
  | .unlock _ => 5
  | .freeOther _ => 5
  | .sleep => 5
  | .loopTest => 4
  | .freeEof _ => 4
  | .setQuit => 3
  | .notifyAll .audio => 2
  | .notifyAll .video => 1
  | .done => 0

def mainRank : MainPc → Nat
  | .poll => 25
  | .setQuit => 24
  | .notifyAll .audio => 23
  | .notifyAll .video => 22
  | .delay => 21
  | .loopTest => 20
  | .joinReader => 19
  | .join .audio => 18
  | .join .video => 17
  | .cleanup calls => 1 + calls.length
  | .returned => 0

/-- The same for one turn of a receive loop's body: with quit set the sync loop is left at its test. -/
def bodyRank : {i : Side} → FramePc i → Nat
  | _, .convert _ => 4
  | _, .size _ _ => 3
  | _, .queueAudio _ _ => 2
  | _, .count _ _ => 1
  | _, .compare _ _ _ => 10
  | _, .delay _ _ => 9
  | _, .pts _ => 9
  | _, .clockQueued _ _ => 8
  | _, .clockWritten _ _ _ => 7
  | _, .quitTest _ _ _ => 6
  | _, .scale _ _ => 5
  | _, .update _ => 4
  | _, .clear _ => 3
  | _, .copy _ => 2
  | _, .present _ => 1

/-- `left` bounds the frames of the decoder as it is, `following` those of the
decoder once it has been sent the next packet. -/
def pcRank {i : Side} (left following : Nat) : ConsumerPc i → Nat
  | .block => 12 + 12 * following
  | .waiting => 11 + 12 * following
  | .lock | .relock => 10 + 12 * following
  | .waitTest => 9 + 12 * following
  | .breakTest => 8 + 12 * following
  | .pop => 7 + 12 * following
  | .unlock _ => 6 + 12 * following
  | .ctxTest _ => 5 + 12 * following
  | .send _ => 4 + 12 * following
  | .receive _ => 3 + 12 * left
  | .frame _ k => 3 + 12 * left + bodyRank k
  | .free _ => 2
  | .loopTest | .breakUnlock => 1
  | .done => 0

theorem pcRank_woken {i : Side} (left following : Nat) (pc : ConsumerPc i) :
    pcRank left following pc.woken ≤ pcRank left following pc := by
  cases pc <;> simp [ConsumerPc.woken, pcRank]

variable (D : (i : Side) → RunsDry (P.codec i))

def following (i : Side) (s : State P) : Nat :=
  match todo i s with
  | [] => 0
  | x :: _ => (D i).left ((P.codec i).send (s.dec i) (some x)).2

def consumerRank (i : Side) (s : State P) : Nat :=
  pcRank ((D i).left (s.dec i)) (following D i s) (s.consumer i)

def rank (s : State P) : Nat :=
  readerRank s.reader + consumerRank D .audio s + consumerRank D .video s + mainRank s.main

theorem readerRank_step {s s' : State P} (h : readThreadFunc s = some s') (hq : s.quit = true) :
    readerRank s'.reader < readerRank s.reader := by
  cases readThreadFunc_move h with
  | enter hpc hquit => rw [hq] at hquit; cases hquit
  | leave hpc | lockAudio hpc | lockVideo hpc | full j hpc | room hpc | fullUnlockAudio hpc
  | fullUnlockVideo hpc | sleep hpc | unlockAudio hpc | unlockVideo hpc | alloc hpc | eof a hpc
  | read a x xs hpc | freeEof a hpc | select j p hpc | other p hpc | lock j p hpc | push j p hpc
  | notify j hpc | unlock j hpc | freeOther p hpc | setQuit hpc | notifyAudio hpc | notifyVideo hpc =>
      simp [hpc, readerRank]

theorem mainRank_step {s s' : State P} (h : mainThread s = some s') (hq : s.quit = true) :
    mainRank s'.main < mainRank s.main := by
  cases mainThread_move h with
  | goOn hpc hquit => rw [hq] at hquit; cases hquit
  | leave hpc | setQuit hpc | notifyAudio hpc | notifyVideo hpc | delay hpc | joinReader hpc | joinAudio hpc
  | joinVideo hpc | freePkt calls hpc | cleanup c calls hpc | finish hpc =>
      simp [hpc, mainRank, cleanupCalls]

theorem bodyRank_step {i : Side} {height : Int} {o o' : Output P} {k : FramePc i} {next : Option (FramePc i)}
    (h : frameStep true height o k = some (o', next)) : ((next.map bodyRank).getD 0) < bodyRank k := by
  cases frameStep_move h with
  | goOn f v c hquit => cases hquit
  | convert | queue | skip | count | pts | clockQueued | clockWritten | quit | wait | due | delay | scale
  | update | clear | copy | present => simp [bodyRank]

theorem bodyRank_le {i : Side} (k : FramePc i) : bodyRank k ≤ 10 := by
  cases k <;> simp [bodyRank]

/-- The other threads leave a consumer, its decoder and what it is to be sent
alone, but for a notification. -/
theorem consumerRank_of_ne {file : List Payload} {acts : List Act} {s s' : State P} {a : Act} {i : Side}
    (h : Runs file acts s) (hs : step s a = some s') (hdec : s'.dec i = s.dec i)
    (hcalls : s'.log.calls i = s.log.calls i)
    (hpc : s'.consumer i = s.consumer i ∨ s'.consumer i = (s.consumer i).woken) :
    consumerRank D i s' ≤ consumerRank D i s := by
  have htodo := (todo_step h hs i).1 (by rw [hcalls])
  rw [consumerRank, consumerRank, following, following, htodo, hdec]
  rcases hpc with hpc | hpc
  · rw [hpc]
  · rw [hpc]
    exact pcRank_woken _ _ _

theorem consumerRank_step {file : List Payload} {acts : List Act} {s s' : State P} {i : Side}
    (h : Runs file acts s) (hs : step s (.consumer i) = some s') (hq : s.quit = true) :
    consumerRank D i s' < consumerRank D i s := by
  obtain ⟨hkeep, htake⟩ := todo_step h hs i
  have hquiet : sent (s'.log.calls i) = sent (s.log.calls i) → s'.dec i = s.dec i →
      pcRank ((D i).left (s.dec i)) (following D i s) (s'.consumer i) <
        pcRank ((D i).left (s.dec i)) (following D i s) (s.consumer i) →
      consumerRank D i s' < consumerRank D i s := by
    intro hsent hdec hlt
    rwa [consumerRank, following, hkeep hsent, hdec]
  cases consumerThread_move (step_consumer hs) with
  | enter hpc hquit | unready hpc hempty hquit => rw [hq] at hquit; cases hquit
  | lock hpc =>
      refine hquiet rfl rfl ?_
      rcases hpc with hpc | hpc <;> simp [hpc, pcRank]
  | stop hpc =>
      refine hquiet rfl rfl ?_
      simp only [hpc, State.goto_consumer, Function.update_self, pcRank]
      omega
  | leave hpc | ready hpc | block hpc | goOn hpc | breakUnlock hpc | pop p q hpc | unlock p hpc | ctx p hpc
  | free p hpc => exact hquiet rfl rfl (by simp [hpc, pcRank])
  | accept p d hpc hsend =>
      have hnext := htake p (by simp)
      rw [consumerRank, consumerRank, following, following, hnext]
      simp [hpc, pcRank, hsend]
  | reject p r d hpc hsend hr =>
      simp [consumerRank, hpc, pcRank]
      omega
  | receive p f d hpc hreceive =>
      have hlt := (D i).frame (s.dec i) (by rw [hreceive])
      have hbody := bodyRank_le (onFrame i f)
      rw [hreceive] at hlt
      simp only [consumerRank, hpc, State.goto_consumer, State.called_dec, State.goto_dec,
        Function.update_self, pcRank] at hlt ⊢
      omega
  | drained p r f d hpc hreceive hr =>
      simp [consumerRank, hpc, pcRank]
      omega
  | body p k o next hpc hstep =>
      rw [hq] at hstep
      have hlt := bodyRank_step hstep
      refine hquiet rfl rfl ?_
      cases next with
      | none => simpa [hpc, pcRank, afterFrame] using hlt
      | some k' => simpa [hpc, pcRank, afterFrame] using hlt

/-- The actions by which a thread gets further. SDL_PollEvent may give main any
number of events before it says there are none. -/
def moves : Act → Nat
  | .reader | .consumer _ | .main | .queueAudio _ | .poll .none | .poll .quit => 1
  | .poll .other | .drain _ | .spurious _ => 0

theorem mainRank_poll {e : Event} {s s' : State P} (h : pollEvent e s = some s') :
    moves (.poll e) + mainRank s'.main ≤ mainRank s.main := by
  obtain ⟨hpc, rfl⟩ := pollEvent_eq h
  rw [hpc]
  cases e <;> simp [moves, mainRank]

theorem rank_of_leavesPackets {file : List Payload} {acts : List Act} {s s' : State P} {a : Act}
    (h : Runs file acts s) (hs : step s a = some s') (hl : LeavesPackets s s') :
    rank D s' + mainRank s.main ≤ rank D s + mainRank s'.main := by
  have hA := consumerRank_of_ne D h hs (hl.dec .audio) (hl.calls .audio) (hl.consumer .audio)
  have hV := consumerRank_of_ne D h hs (hl.dec .video) (hl.calls .video) (hl.consumer .video)
  rw [rank, rank, hl.reader]
  omega

theorem rank_of_consumerStep {file : List Payload} {acts : List Act} {s s' : State P} {a : Act} {i : Side}
    (h : Runs file acts s) (hs : step s a = some s') (hl : ConsumerStep i s s')
    (hlt : consumerRank D i s' < consumerRank D i s) : rank D s' < rank D s := by
  have hother : ∀ j, j ≠ i → consumerRank D j s' ≤ consumerRank D j s := fun j hj =>
    consumerRank_of_ne D h hs (hl.dec j hj) (hl.calls j hj) (Or.inl (hl.consumer j hj))
  rw [rank, rank, hl.reader, hl.main]
  cases i with
  | audio =>
      have hV := hother .video (by simp)
      omega
  | video =>
      have hA := hother .audio (by simp)
      omega

theorem rank_step {file : List Payload} {acts : List Act} {s s' : State P} {a : Act}
    (h : Runs file acts s) (hq : s.quit = true) (hs : step s a = some s') :
    moves a + rank D s' ≤ rank D s := by
  cases a with
  | reader =>
      have hl := readThreadFunc_step hs
      have hR := readerRank_step hs hq
      have hA := consumerRank_of_ne D h hs (hl.dec .audio) (hl.calls .audio) (hl.consumer .audio)
      have hV := consumerRank_of_ne D h hs (hl.dec .video) (hl.calls .video) (hl.consumer .video)
      rw [rank, rank, hl.main, moves]
      omega
  | consumer i =>
      have hlt := rank_of_consumerStep D h hs (consumerThread_step (step_consumer hs))
        (consumerRank_step D h hs hq)
      rw [moves]
      omega
  | main =>
      have hM := mainRank_step hs hq
      have hle := rank_of_leavesPackets D h hs (mainThread_leaves hs)
      rw [moves]
      omega
  | poll e =>
      have hM := mainRank_poll hs
      have hle := rank_of_leavesPackets D h hs (pollEvent_leaves hs)
      omega
  | queueAudio accepted =>
      have hl := queueAudioStep_step hs
      have htodo := (todo_step h hs .audio).1
      obtain ⟨p, f, n, hpc, rfl⟩ := queueAudioStep_eq hs
      have hlt := rank_of_consumerStep D h hs hl (by
        rw [consumerRank, consumerRank, following, following, htodo rfl, hpc]
        simp [pcRank, bodyRank])
      rw [moves]
      omega
  | drain n =>
      obtain ⟨-, rfl⟩ := drain_eq hs
      exact (Nat.zero_add _).le
  | spurious i =>
      have hle := rank_of_leavesPackets D h hs (spuriousWake_leaves hs)
      have hmain : s'.main = s.main := step_main_of_ne hs (by simp) (by simp)
      rw [hmain] at hle
      rw [moves]
      omega

/-- Once quit is set the threads take only so many more steps, whatever the
order and whatever SDL and the device do. -/
theorem stops_after_quit {file : List Payload} {acts more : List Act} {s t : State P} (h : Runs file acts s)
    (hq : s.quit = true) (hrun : Transition.run step s more = some t) :
    (more.map moves).sum + rank D t ≤ rank D s := by
  refine Transition.cost_le_rank (I := fun s => (∃ acts, Runs file acts s) ∧ s.quit = true)
    (fun s a s' hs h => ?_) (fun s a s' hs h => ?_) ⟨⟨acts, h⟩, hq⟩ hrun
  · obtain ⟨⟨acts, hr⟩, hq⟩ := hs
    exact ⟨⟨_, runs_snoc hr h⟩, quit_stays h hq⟩
  · obtain ⟨⟨acts, hr⟩, hq⟩ := hs
    exact rank_step D hr hq h

def stereoRunsDry (i : Side) : RunsDry (stereo.codec i) := delayingRunsDry _ _ _

/-- Both consumers have popped a packet and main polls when the reader sets quit at the end of the file. -/
def quitSet : List Act :=
  List.replicate 26 .reader ++ List.replicate 6 (.consumer .audio) ++ List.replicate 6 (.consumer .video) ++ [.main] ++
    List.replicate 10 .reader

def shutDown : List Act :=
  List.replicate 2 .reader ++ List.replicate 5 (.consumer .audio) ++ [.queueAudio true] ++
    List.replicate 4 (.consumer .audio) ++ List.replicate 15 (.consumer .video) ++ [.poll .none] ++
    List.replicate 21 .main

theorem quitSet_runs : ∃ s t : State stereo, Runs [⟨1, []⟩, ⟨0, []⟩] quitSet s ∧ s.quit = true ∧
    Transition.run step s shutDown = some t ∧ t.main = .returned := by
  obtain ⟨s, hs, hp⟩ := Transition.exists_of_run_any step (start stereo [⟨1, []⟩, ⟨0, []⟩]) quitSet
    (fun s : State stereo => s.quit && (Transition.run step s shutDown).any (fun t => t.main = .returned))
    (by decide)
  simp only [Bool.and_eq_true] at hp
  obtain ⟨t, ht, hm⟩ := Transition.exists_of_run_any step s shutDown (fun t => t.main = .returned) hp.2
  exact ⟨s, t, hs, hp.1, ht, of_decide_eq_true hm⟩

theorem stops_after_quit_sample : ∃ s t : State stereo, Runs [⟨1, []⟩, ⟨0, []⟩] quitSet s ∧ s.quit = true ∧
    Transition.run step s shutDown = some t ∧ t.main = .returned ∧
    (shutDown.map moves).sum + rank stereoRunsDry t ≤ rank stereoRunsDry s := by
  obtain ⟨s, t, hs, hq, ht, hm⟩ := quitSet_runs
  exact ⟨s, t, hs, hq, ht, hm, stops_after_quit stereoRunsDry hs hq ht⟩

def readsLeft : ReaderPc → Nat
  | .lockAudio | .lockVideo | .fullTest | .unlockAudio | .unlockVideo | .alloc | .read _ => 1
  | _ => 0

def sendsLeft {i : Side} : ConsumerPc i → Nat
  | .lock | .waitTest | .block | .waiting | .relock | .breakTest | .pop | .unlock _ | .ctxTest _
  | .send _ => 1
  | _ => 0

theorem sendsLeft_of_woken {i : Side} {pc pc' : ConsumerPc i} (h : pc' = pc ∨ pc' = pc.woken) :
    sendsLeft pc' = sendsLeft pc := by
  rcases h with rfl | rfl
  · rfl
  · cases pc <;> rfl

theorem reads_step {a : Act} {s s' : State P} (h : step s a = some s') (hq : s.quit = true) :
    s'.log.reads.length + readsLeft s'.reader ≤ s.log.reads.length + readsLeft s.reader := by
  by_cases ha : a = .reader
  · subst ha
    cases readThreadFunc_move h with
    | enter hpc hquit => rw [hq] at hquit; cases hquit
    | leave hpc | lockAudio hpc | lockVideo hpc | full j hpc | room hpc | fullUnlockAudio hpc
    | fullUnlockVideo hpc | sleep hpc | unlockAudio hpc | unlockVideo hpc | alloc hpc | eof a hpc
    | read a x xs hpc | freeEof a hpc | select j p hpc | other p hpc | lock j p hpc | push j p hpc
    | notify j hpc | unlock j hpc | freeOther p hpc | setQuit hpc | notifyAudio hpc | notifyVideo hpc =>
        simp [hpc, readsLeft]
  · have hl := step_leavesReader h ha
    rw [hl.reads, hl.reader]

theorem sends_consumerThread {i : Side} {s s' : State P}
    (h : consumerThread i true (onFrame i) s = some s') (hq : s.quit = true) :
    (sent (s'.log.calls i)).length + sendsLeft (s'.consumer i) ≤
      (sent (s.log.calls i)).length + sendsLeft (s.consumer i) := by
  cases consumerThread_move h with
  | enter hpc hquit | unready hpc hempty hquit => rw [hq] at hquit; cases hquit
  | lock hpc => rcases hpc with hpc | hpc <;> simp [hpc, sendsLeft]
  | body p k o next hpc => cases next <;> simp [hpc, sendsLeft, afterFrame]
  | leave hpc | ready hpc | block hpc | goOn hpc | stop hpc | breakUnlock hpc | pop p q hpc
  | unlock p hpc | ctx p hpc | accept p d hpc | reject p r d hpc | receive p f d hpc
  | drained p r f d hpc | free p hpc => simp [hpc, sendsLeft]

theorem sends_step {a : Act} {s s' : State P} (h : step s a = some s') (hq : s.quit = true) (i : Side) :
    (sent (s'.log.calls i)).length + sendsLeft (s'.consumer i) ≤
      (sent (s.log.calls i)).length + sendsLeft (s.consumer i) := by
  by_cases ha : a = .consumer i
  · subst ha
    exact sends_consumerThread (step_consumer h) hq
  · have hsent : sent (s'.log.calls i) = sent (s.log.calls i) := by
      cases decoderStep h i with
      | quiet calls => rw [calls]
      | send | receive => exact absurd rfl ha
    have hleft : sendsLeft (s'.consumer i) = sendsLeft (s.consumer i) := by
      by_cases hqa : ∃ b, a = .queueAudio b
      · obtain ⟨b, rfl⟩ := hqa
        obtain ⟨p, f, n, hpc, rfl⟩ := queueAudioStep_eq h
        cases i with
        | audio => simp [hpc, sendsLeft]
        | video => rfl
      · exact sendsLeft_of_woken (step_consumer_of_ne h ha (fun b hb => hqa ⟨b, hb⟩))
    rw [hsent, hleft]

/-- Once quit is set at most one more packet is read, and each decoder is sent
at most one more, however many are still queued. -/
theorem one_more_packet {more : List Act} {s t : State P} (hq : s.quit = true)
    (hrun : Transition.run step s more = some t) :
    t.log.reads.length ≤ s.log.reads.length + 1 ∧
    ∀ i, (sent (t.log.calls i)).length ≤ (sent (s.log.calls i)).length + 1 := by
  have hread : readsLeft s.reader ≤ 1 := by cases s.reader <;> simp [readsLeft]
  have hsend : ∀ i, sendsLeft (s.consumer i) ≤ 1 := fun i => by cases s.consumer i <;> simp [sendsLeft]
  obtain ⟨-, hr, hs⟩ := Transition.invariant
    (I := fun u : State P => u.quit = true ∧
      u.log.reads.length + readsLeft u.reader ≤ s.log.reads.length + readsLeft s.reader ∧
      ∀ i, (sent (u.log.calls i)).length + sendsLeft (u.consumer i) ≤
        (sent (s.log.calls i)).length + sendsLeft (s.consumer i))
    (fun u a u' hu h => ⟨quit_stays h hu.1, (reads_step h hu.1).trans hu.2.1,
      fun i => (sends_step h hu.1 i).trans (hu.2.2 i)⟩)
    ⟨hq, le_rfl, fun _ => le_rfl⟩ hrun
  refine ⟨by omega, fun i => ?_⟩
  have h1 := hs i
  have h2 := hsend i
  omega

def quitEarly : List Act :=
  List.replicate 27 .reader ++ [.consumer .audio, .main, .poll .quit, .main]

def lastPackets : List Act :=
  List.replicate 15 .reader ++ List.replicate 10 (.consumer .audio) ++ [.queueAudio true] ++
    List.replicate 4 (.consumer .audio)

theorem quitEarly_runs : ∃ s t : State stereo, Runs [⟨1, []⟩, ⟨1, []⟩, ⟨0, []⟩] quitEarly s ∧
    s.quit = true ∧ Transition.run step s lastPackets = some t ∧ t.log.reads.length = 3 ∧
    t.consumer .audio = .done ∧ (t.queue .audio).length = 1 := by
  obtain ⟨s, hs, hp⟩ := Transition.exists_of_run_any step (start stereo [⟨1, []⟩, ⟨1, []⟩, ⟨0, []⟩]) quitEarly
    (fun s : State stereo => s.quit && (Transition.run step s lastPackets).any (fun t =>
      t.log.reads.length = 3 ∧ t.consumer .audio = .done ∧ (t.queue .audio).length = 1)) (by decide)
  simp only [Bool.and_eq_true] at hp
  obtain ⟨t, ht, hm⟩ := Transition.exists_of_run_any step s lastPackets (fun t =>
    t.log.reads.length = 3 ∧ t.consumer .audio = .done ∧ (t.queue .audio).length = 1) hp.2
  exact ⟨s, t, hs, hp.1, ht, of_decide_eq_true hm⟩

theorem one_more_packet_sample : ∃ s t : State stereo, Runs [⟨1, []⟩, ⟨1, []⟩, ⟨0, []⟩] quitEarly s ∧
    s.quit = true ∧ Transition.run step s lastPackets = some t ∧ t.log.reads.length = 3 ∧
    t.consumer .audio = .done ∧ (t.queue .audio).length = 1 ∧
    t.log.reads.length ≤ s.log.reads.length + 1 ∧
    ∀ i, (sent (t.log.calls i)).length ≤ (sent (s.log.calls i)).length + 1 := by
  obtain ⟨s, t, hs, hq, ht, hread, hdone, hleft⟩ := quitEarly_runs
  exact ⟨s, t, hs, hq, ht, hread, hdone, hleft, one_more_packet hq ht⟩

end FfmpegPlayer.Termination
