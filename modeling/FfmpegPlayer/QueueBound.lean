import FfmpegPlayer.Interleaving

namespace FfmpegPlayer.QueueBound

open Media Threads ReadThread ConsumerThreads MainThread Interleaving

variable {P : Player}

def cleared : ReaderPc → Bool
  | .unlockAudio | .unlockVideo | .alloc | .read _ | .route _ | .lock _ _ | .push _ _ => true
  | _ => false

/-- The bound alone is not inductive: the test that allows a push lies in an
earlier critical section, so the room it found has to last until the push. -/
structure Bounded (s : State P) : Prop where
  bound : ∀ i, (s.queue i).length ≤ maxQueueSize
  room : cleared s.reader = true → ∀ i, (s.queue i).length < maxQueueSize

theorem bounded_readThreadFunc {s s' : State P} (h : readThreadFunc s = some s') (hb : Bounded s) :
    Bounded s' := by
  cases readThreadFunc_move h with
  | room hpc hroom => exact ⟨hb.bound, fun _ => hroom⟩
  | push j p hpc =>
      have hroom := hb.room (by rw [hpc]; rfl)
      refine ⟨fun i => ?_, by simp [cleared]⟩
      by_cases hi : i = j
      · subst hi
        have hlt := hroom i
        simp
        omega
      · simpa [hi] using hb.bound i
  | unlockAudio hpc | unlockVideo hpc | alloc hpc | read a x xs hpc | select j p hpc | lock j p hpc =>
      exact ⟨hb.bound, fun _ => hb.room (by rw [hpc]; rfl)⟩
  | enter | leave | lockAudio | lockVideo | full | fullUnlockAudio | fullUnlockVideo | sleep | eof
  | freeEof | other | notify | unlock | freeOther | setQuit | notifyAudio | notifyVideo =>
      exact ⟨hb.bound, by simp [cleared]⟩

/-- Nobody but the reader makes a queue longer. -/
theorem queue_length_le {a : Act} {s s' : State P} (h : step s a = some s') (ha : a ≠ .reader)
    (i : Side) : (s'.queue i).length ≤ (s.queue i).length := by
  rcases step_queue h i with hq | ⟨hr, -⟩ | ⟨-, -, p, hq⟩
  · rw [hq]
  · exact absurd hr ha
  · rw [hq]
    exact Nat.le_succ _

theorem bounded_step {a : Act} {s s' : State P} (h : step s a = some s') (hb : Bounded s) :
    Bounded s' := by
  by_cases ha : a = .reader
  · subst ha
    exact bounded_readThreadFunc h hb
  · constructor
    · exact fun i => (queue_length_le h ha i).trans (hb.bound i)
    · rw [(step_leavesReader h ha).reader]
      exact fun hc i => (queue_length_le h ha i).trans_lt (hb.room hc i)

theorem queues_bounded {file : List Payload} {acts : List Act} {s : State P} (h : Runs file acts s)
    (i : Side) : (s.queue i).length ≤ maxQueueSize :=
  (Transition.invariant (I := Bounded) (fun _ _ _ hb h => bounded_step h hb)
    ⟨by simp [start], by simp [start, cleared]⟩ h).bound i

theorem queues_bounded_sample : ∃ s : State stereo, Runs [⟨1, []⟩] (List.replicate 13 .reader) s ∧
    (s.queue .audio).length = 1 ∧ (s.queue .audio).length ≤ maxQueueSize := by
  obtain ⟨s, hs, hp⟩ := Transition.exists_of_run_any step (start stereo [⟨1, []⟩])
    (List.replicate 13 .reader) (fun s : State stereo => decide ((s.queue .audio).length = 1)) (by decide)
  exact ⟨s, hs, of_decide_eq_true hp, queues_bounded hs .audio⟩

end FfmpegPlayer.QueueBound
