import FfmpegPlayer.CondVar
import FfmpegPlayer.Interleaving

namespace FfmpegPlayer.Wakeups

open Media Threads ReadThread ConsumerThreads MainThread Interleaving CondVar

variable {P : Player}

def producing (i : Side) : ReaderPc → Bool
  | .fullTest | .fullUnlockAudio | .unlockAudio => true
  | .lockVideo => i = .audio
  | .fullUnlockVideo | .unlockVideo => i = .video
  | .push j _ | .notify j | .unlock j => j = i
  | _ => false

def stage {i : Side} : ConsumerPc i → Stage
  | .waitTest | .breakTest | .breakUnlock | .pop | .unlock _ => .inside
  | .block => .tested
  | .waiting => .asleep
  | _ => .outside

def party : Thread → Party
  | .reader => .producer
  | _ => .consumer

def monitor (i : Side) (s : State P) : Monitor AVPacket where
  owner := (s.mutex i).map party
  items := s.queue i
  producing := producing i s.reader
  owed := s.reader = .notify i
  stage := stage (s.consumer i)

@[simp] theorem stage_woken {i : Side} (pc : ConsumerPc i) : stage pc.woken = (stage pc).woken := by
  cases pc <;> rfl

theorem monitor_idle {i : Side} {s s' : State P} (h : monitor i s' = monitor i s) :
    Monitor.Step (monitor i s) (monitor i s') := by
  rw [h]
  exact .idle _

theorem monitor_of_leavesPackets (i : Side) {s s' : State P} (h : LeavesPackets s s') :
    Monitor.Step (monitor i s) (monitor i s') := by
  rcases h.consumer i with hc | hc
  · exact monitor_idle (by simp [monitor, h.mutex, h.queue, h.reader, hc])
  · have hw := Monitor.Step.wake (monitor i s)
    simpa [monitor, h.mutex, h.queue, h.reader, hc] using hw

theorem monitor_of_consumerStep {j : Side} {s s' : State P} (h : ConsumerStep j s s') {i : Side}
    (hij : i ≠ j) : monitor i s' = monitor i s := by
  simp only [monitor, h.mutex i hij, h.queue i hij, h.reader, h.consumer i hij]

/-- A step that concerns the monitor of one stream only. -/
theorem monitor_at {s s' : State P} (j i : Side) (hother : ∀ i, i ≠ j → monitor i s' = monitor i s)
    (hself : Monitor.Step (monitor j s) (monitor j s')) : Monitor.Step (monitor i s) (monitor i s') := by
  by_cases hi : i = j
  · subst hi
    exact hself
  · exact monitor_idle (hother i hi)

theorem monitor_readThreadFunc (i : Side) {s s' : State P} (h : readThreadFunc s = some s') :
    Monitor.Step (monitor i s) (monitor i s') := by
  cases readThreadFunc_move h with
  | enter hpc | leave hpc | full j hpc | room hpc | sleep hpc | alloc hpc | eof a hpc | read a x xs hpc
  | freeEof a hpc | select j p hpc | other p hpc | freeOther p hpc | setQuit hpc =>
      exact monitor_idle (by simp [monitor, hpc, producing])
  | lockAudio hpc hfree =>
      refine monitor_at .audio i (fun i hi => by simp [monitor, hpc, producing, hi]) ?_
      have hs := Monitor.Step.enter (monitor .audio s) (by simp [monitor, hfree])
      simpa [monitor, hpc, producing, party] using hs
  | lockVideo hpc hfree =>
      refine monitor_at .video i (fun i hi => by cases i <;> simp_all [monitor, producing]) ?_
      have hs := Monitor.Step.enter (monitor .video s) (by simp [monitor, hfree])
      simpa [monitor, hpc, producing, party] using hs
  | fullUnlockAudio hpc | unlockAudio hpc =>
      refine monitor_at .audio i (fun i hi => by cases i <;> simp_all [monitor, producing]) ?_
      have hs := Monitor.Step.leave (monitor .audio s) (by simp [monitor, hpc, producing])
        (by simp [monitor, hpc])
      simpa [monitor, hpc, producing] using hs
  | fullUnlockVideo hpc | unlockVideo hpc =>
      refine monitor_at .video i (fun i hi => by simp [monitor, hpc, producing, hi]) ?_
      have hs := Monitor.Step.leave (monitor .video s) (by simp [monitor, hpc, producing])
        (by simp [monitor, hpc])
      simpa [monitor, hpc, producing] using hs
  | lock j p hpc hfree =>
      refine monitor_at j i (fun i hi => by simp [monitor, hpc, producing, hi, Ne.symm hi]) ?_
      have hs := Monitor.Step.enter (monitor j s) (by simp [monitor, hfree])
      simpa [monitor, hpc, producing, party] using hs
  | push j p hpc =>
      refine monitor_at j i (fun i hi => by simp [monitor, hpc, producing, hi, Ne.symm hi]) ?_
      have hs := Monitor.Step.put (monitor j s) p (by simp [monitor, hpc, producing])
      simpa [monitor, hpc, producing] using hs
  | notify j hpc =>
      refine monitor_at j i (fun i hi => by simp [monitor, hpc, producing, hi, Ne.symm hi]) ?_
      have hs := Monitor.Step.notify (monitor j s) (by simp [monitor, hpc, producing])
      simpa [monitor, hpc, producing] using hs
  | unlock j hpc =>
      refine monitor_at j i (fun i hi => by simp [monitor, hpc, producing, hi, Ne.symm hi]) ?_
      have hs := Monitor.Step.leave (monitor j s) (by simp [monitor, hpc, producing])
        (by simp [monitor, hpc])
      simpa [monitor, hpc, producing] using hs
  | notifyAudio hpc =>
      refine monitor_at .audio i (fun i hi => by simp [monitor, hpc, producing, hi]) ?_
      have hs := Monitor.Step.wake (monitor .audio s)
      simpa [monitor, hpc, producing] using hs
  | notifyVideo hpc =>
      refine monitor_at .video i (fun i hi => by simp [monitor, hpc, producing, hi]) ?_
      have hs := Monitor.Step.wake (monitor .video s)
      simpa [monitor, hpc, producing] using hs

theorem monitor_consumerThread (i : Side) {onFrame : AVFrame → FramePc i} {s s' : State P}
    (h : consumerThread i true onFrame s = some s') : Monitor.Step (monitor i s) (monitor i s') := by
  cases consumerThread_move h with
  | lock hpc hfree =>
      have hout : stage (s.consumer i) = .outside := by rcases hpc with hpc | hpc <;> rw [hpc] <;> rfl
      have hs := Monitor.Step.lock (monitor i s) (by simp [monitor, hfree]) hout
      simpa [monitor, party, stage] using hs
  | unready hpc hempty =>
      have hs := Monitor.Step.test (monitor i s) (by simp [monitor, hpc, stage]) hempty
      simpa [monitor, hpc, stage] using hs
  | block hpc =>
      have hs := Monitor.Step.sleep (monitor i s) (by simp [monitor, hpc, stage])
      simpa [monitor, hpc, stage] using hs
  | pop p q hpc hqueue =>
      have hs := Monitor.Step.take (monitor i s) p q (by simp [monitor, hpc, stage]) hqueue
      simpa [monitor, hpc, stage] using hs
  | breakUnlock hpc | unlock p hpc =>
      have hs := Monitor.Step.unlock (monitor i s) (by simp [monitor, hpc, stage])
      simpa [monitor, hpc, stage] using hs
  | body p k o next hpc => exact monitor_idle (by cases next <;> simp [monitor, hpc, stage, afterFrame])
  | enter hpc | leave hpc | ready hpc | goOn hpc | stop hpc | ctx p hpc | accept p d hpc
  | reject p r d hpc | receive p f d hpc | drained p r f d hpc | free p hpc =>
      exact monitor_idle (by simp [monitor, hpc, stage])

/-- Every step of the player is at most one step of each stream's monitor. -/
theorem monitor_step (i : Side) {a : Act} {s s' : State P} (h : step s a = some s') :
    Monitor.Step (monitor i s) (monitor i s') := by
  cases a with
  | reader => exact monitor_readThreadFunc i h
  | consumer j =>
      replace h := step_consumer h
      exact monitor_at j i (fun i hi => monitor_of_consumerStep (consumerThread_step h) hi)
        (monitor_consumerThread j h)
  | main => exact monitor_of_leavesPackets i (mainThread_leaves h)
  | poll e => exact monitor_of_leavesPackets i (pollEvent_leaves h)
  | spurious j => exact monitor_of_leavesPackets i (spuriousWake_leaves h)
  | drain n =>
      obtain ⟨-, rfl⟩ := drain_eq h
      exact .idle _
  | queueAudio accepted =>
      obtain ⟨p, f, n, hpc, rfl⟩ := queueAudioStep_eq h
      refine monitor_idle ?_
      cases i with
      | audio => simp [monitor, hpc, stage]
      | video => simp [monitor]

theorem monitor_sound (i : Side) {file : List Payload} {acts : List Act} {s : State P}
    (h : Runs file acts s) : (monitor i s).Sound :=
  Transition.invariant (I := fun s => (monitor i s).Sound) (fun _ _ _ hs h => (monitor_step i h).sound hs)
    ⟨by simp [monitor, start, producing], by simp [monitor, start, stage], by simp [monitor, start],
      by simp [monitor, start, stage], by simp [monitor, start, stage]⟩ h

/-- A packet in the queue of a consumer that waits unnotified has just been
pushed, by a reader that still holds the mutex and is about to notify. -/
theorem no_wakeup_lost {file : List Payload} {acts : List Act} {s : State P} (h : Runs file acts s)
    {i : Side} (hw : s.consumer i = .waiting) :
    s.queue i = [] ∨ (s.mutex i = some .reader ∧ s.reader = .notify i) := by
  rcases (monitor_sound i h).empty_or_owed (by simp [monitor, hw, stage]) with hq | ⟨ho, hn⟩
  · exact Or.inl hq
  · obtain ⟨t, ht, hp⟩ := Option.map_eq_some_iff.mp ho
    refine Or.inr ⟨?_, of_decide_eq_true hn⟩
    cases t with
    | reader => exact ht
    | consumer j => cases hp
    | main => cases hp

def pushedBehindWaiter : List Act := List.replicate 4 (Act.consumer .audio) ++ List.replicate 11 Act.reader

theorem no_wakeup_lost_sample : ∃ s : State stereo, Runs [⟨1, []⟩] pushedBehindWaiter s ∧
    s.consumer .audio = .waiting ∧ s.queue .audio ≠ [] ∧
    (s.queue .audio = [] ∨ (s.mutex .audio = some .reader ∧ s.reader = .notify .audio)) := by
  obtain ⟨s, hs, hp⟩ := Transition.exists_of_run_any step (start stereo [⟨1, []⟩]) pushedBehindWaiter
    (fun s : State stereo => decide (s.consumer .audio = .waiting ∧ s.queue .audio ≠ [])) (by decide)
  have hp := of_decide_eq_true hp
  exact ⟨s, hs, hp.1, hp.2, no_wakeup_lost hs hp.1⟩

end FfmpegPlayer.Wakeups
