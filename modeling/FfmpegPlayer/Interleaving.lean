import FfmpegPlayer.Transition
import FfmpegPlayer.ReadThread
import FfmpegPlayer.ConsumerThreads
import FfmpegPlayer.MainThread

namespace FfmpegPlayer.Interleaving

open Media Threads ReadThread ConsumerThreads MainThread

/-- One step of the system: a thread, the return of SDL_PollEvent or of
SDL_QueueAudio, the device playing some of its queue, or a spurious wake-up. -/
inductive Act
  | reader
  | consumer (i : Side)
  | main
  | poll (e : Event)
  | queueAudio (accepted : Bool)
  | drain (n : Nat)
  | spurious (i : Side)
deriving DecidableEq, Repr

variable {P : Player}

/-- SDL_Quit closes the audio device. -/
def deviceOpen : MainPc → Bool
  | .cleanup calls => .sdlQuit ∈ calls
  | .returned => false
  | _ => true

def drain (n : Nat) (s : State P) : Option (State P) :=
  if deviceOpen s.main = true ∧ n ≤ s.out.queued then
    some { s with out.queued := s.out.queued - n, out.played := s.out.played + n }
  else none

def spuriousWake (i : Side) (s : State P) : Option (State P) :=
  if s.consumer i = .waiting then some (s.goto i .relock) else none

theorem spuriousWake_eq {i : Side} {s s' : State P} (h : spuriousWake i s = some s') :
    s.consumer i = .waiting ∧ s' = s.notifyOne i := by
  simp only [spuriousWake, Option.ite_none_right_eq_some, Option.some.injEq] at h
  refine ⟨h.1, ?_⟩
  rw [← h.2, State.goto, State.notifyOne, h.1]
  rfl

theorem spuriousWake_leaves {i : Side} {s s' : State P} (h : spuriousWake i s = some s') :
    LeavesPackets s s' := by
  obtain ⟨-, rfl⟩ := spuriousWake_eq h
  constructor <;> simp [update_woken_or]

theorem drain_eq {n : Nat} {s s' : State P} (h : drain n s = some s') :
    n ≤ s.out.queued ∧
      s' = { s with out.queued := s.out.queued - n, out.played := s.out.played + n } := by
  simp only [drain, Option.ite_none_right_eq_some, Option.some.injEq] at h
  exact ⟨h.1.2, h.2.symm⟩

theorem deviceOpen_of_drain {n : Nat} {s s' : State P} (h : drain n s = some s') :
    deviceOpen s.main = true := by
  simp only [drain, Option.ite_none_right_eq_some] at h
  exact h.1.1

def step (s : State P) : Act → Option (State P)
  | .reader => readThreadFunc s
  | .consumer .audio => audioThreadFunc s
  | .consumer .video => videoThreadFunc s
  | .main => mainThread s
  | .poll e => pollEvent e s
  | .queueAudio accepted => queueAudioStep accepted s
  | .drain n => drain n s
  | .spurious i => spuriousWake i s

def onFrame : (i : Side) → AVFrame → FramePc i
  | .audio => .convert
  | .video => .pts

theorem step_consumer_eq (s : State P) (i : Side) :
    step s (.consumer i) = consumerThread i true (onFrame i) s := by
  cases i with
  | audio => rw [step, audioThreadFunc, P.audioDecCtx_open]; rfl
  | video => rfl

theorem step_consumer {i : Side} {s s' : State P} (h : step s (.consumer i) = some s') :
    consumerThread i true (onFrame i) s = some s' := by
  rw [← step_consumer_eq]
  exact h

structure LeavesReader (s s' : State P) : Prop where
  reader : s'.reader = s.reader
  input : s'.input = s.input
  allocated : s'.log.allocated = s.log.allocated
  reads : s'.log.reads = s.log.reads

theorem step_leavesReader {a : Act} {s s' : State P} (h : step s a = some s') (ha : a ≠ .reader) :
    LeavesReader s s' := by
  cases a with
  | reader => exact absurd rfl ha
  | consumer i =>
      replace h := step_consumer h
      have hl := consumerThread_step h
      exact ⟨hl.reader, hl.input, hl.allocated, hl.reads⟩
  | main =>
      have hl := mainThread_leaves h
      exact ⟨hl.reader, hl.input, hl.allocated, hl.reads⟩
  | poll e =>
      have hl := pollEvent_leaves h
      exact ⟨hl.reader, hl.input, hl.allocated, hl.reads⟩
  | spurious i =>
      have hl := spuriousWake_leaves h
      exact ⟨hl.reader, hl.input, hl.allocated, hl.reads⟩
  | drain n =>
      obtain ⟨-, rfl⟩ := drain_eq h
      exact ⟨rfl, rfl, rfl, rfl⟩
  | queueAudio accepted =>
      have hl := queueAudioStep_step h
      exact ⟨hl.reader, hl.input, hl.allocated, hl.reads⟩

theorem step_quit {a : Act} {s s' : State P} (h : step s a = some s') :
    s'.quit = s.quit ∨
      (s'.quit = true ∧ ((a = .reader ∧ s.reader = .setQuit) ∨ s.main = .setQuit)) := by
  cases a with
  | reader =>
      rcases (readThreadFunc_step h).quit with hq | ⟨hr, hq⟩
      · exact Or.inl hq
      · exact Or.inr ⟨hq, Or.inl ⟨rfl, hr⟩⟩
  | consumer i =>
      replace h := step_consumer h
      exact Or.inl (consumerThread_step h).quit
  | main =>
      rcases (mainThread_leaves h).quit with hq | ⟨hm, hq⟩
      · exact Or.inl hq
      · exact Or.inr ⟨hq, Or.inr hm⟩
  | poll e =>
      rcases (pollEvent_leaves h).quit with hq | ⟨hm, hq⟩
      · exact Or.inl hq
      · exact Or.inr ⟨hq, Or.inr hm⟩
  | spurious i =>
      obtain ⟨-, rfl⟩ := spuriousWake_eq h
      exact Or.inl rfl
  | drain n =>
      obtain ⟨-, rfl⟩ := drain_eq h
      exact Or.inl rfl
  | queueAudio accepted => exact Or.inl (queueAudioStep_step h).quit

theorem step_queue {a : Act} {s s' : State P} (h : step s a = some s') (i : Side) :
    s'.queue i = s.queue i ∨
    (a = .reader ∧ ∃ p, s.reader = .push i p ∧ s'.queue i = s.queue i ++ [p]) ∨
    (a = .consumer i ∧ s.consumer i = .pop ∧ ∃ p, s.queue i = p :: s'.queue i) := by
  cases a with
  | reader =>
      rcases (readThreadFunc_step h).queue i with hq | hq
      · exact Or.inl hq
      · exact Or.inr (Or.inl ⟨rfl, hq⟩)
  | consumer j =>
      replace h := step_consumer h
      by_cases hi : i = j
      · subst hi
        rcases (consumerThread_step h).queue_self with hq | hq
        · exact Or.inl hq
        · exact Or.inr (Or.inr ⟨rfl, hq⟩)
      · exact Or.inl ((consumerThread_step h).queue i hi)
  | main => exact Or.inl ((mainThread_leaves h).queue i)
  | poll e => exact Or.inl ((pollEvent_leaves h).queue i)
  | spurious j => exact Or.inl ((spuriousWake_leaves h).queue i)
  | drain n =>
      obtain ⟨-, rfl⟩ := drain_eq h
      exact Or.inl rfl
  | queueAudio accepted =>
      obtain ⟨p, f, n, -, rfl⟩ := queueAudioStep_eq h
      exact Or.inl rfl

/-- Nobody but the consumer itself and the return of its SDL_QueueAudio moves
a consumer, except to wake it. -/
theorem step_consumer_of_ne {a : Act} {s s' : State P} (h : step s a = some s') {i : Side}
    (hi : a ≠ .consumer i) (hq : ∀ b, a ≠ .queueAudio b) :
    s'.consumer i = s.consumer i ∨ s'.consumer i = (s.consumer i).woken := by
  cases a with
  | reader => exact (readThreadFunc_step h).consumer i
  | consumer j =>
      replace h := step_consumer h
      exact Or.inl ((consumerThread_step h).consumer i (fun he => hi (by rw [he])))
  | main => exact (mainThread_leaves h).consumer i
  | poll e => exact (pollEvent_leaves h).consumer i
  | spurious j => exact (spuriousWake_leaves h).consumer i
  | drain n =>
      obtain ⟨-, rfl⟩ := drain_eq h
      exact Or.inl rfl
  | queueAudio accepted => exact absurd rfl (hq accepted)

theorem step_out_of_ne {a : Act} {s s' : State P} (h : step s a = some s')
    (hc : ∀ i, a ≠ .consumer i) (hq : ∀ b, a ≠ .queueAudio b) (hd : ∀ n, a ≠ .drain n) :
    s'.out = s.out := by
  cases a with
  | reader => exact (readThreadFunc_step h).out
  | consumer i => exact absurd rfl (hc i)
  | main => exact (mainThread_leaves h).out
  | poll e => exact (pollEvent_leaves h).out
  | spurious i => exact (spuriousWake_leaves h).out
  | drain n => exact absurd rfl (hd n)
  | queueAudio accepted => exact absurd rfl (hq accepted)

theorem step_main_of_ne {a : Act} {s s' : State P} (h : step s a = some s') (hm : a ≠ .main)
    (hp : ∀ e, a ≠ .poll e) : s'.main = s.main := by
  cases a with
  | reader => exact (readThreadFunc_step h).main
  | consumer i =>
      replace h := step_consumer h
      exact (consumerThread_step h).main
  | main => exact absurd rfl hm
  | poll e => exact absurd rfl (hp e)
  | spurious i =>
      obtain ⟨-, rfl⟩ := spuriousWake_eq h
      rfl
  | drain n =>
      obtain ⟨-, rfl⟩ := drain_eq h
      rfl
  | queueAudio accepted => exact (queueAudioStep_step h).main

theorem reader_done_step {a : Act} {s s' : State P} (h : step s a = some s')
    (hr : s.reader = .done) : s'.reader = .done := by
  by_cases ha : a = .reader
  · subst ha
    have hp : readThreadFunc s = some s' := h
    simp [readThreadFunc, hr] at hp
  · rw [(step_leavesReader h ha).reader, hr]

theorem consumer_done_step {a : Act} {s s' : State P} (h : step s a = some s') {i : Side}
    (hi : s.consumer i = .done) : s'.consumer i = .done := by
  by_cases ha : a = .consumer i
  · subst ha
    replace h := step_consumer h
    simp [consumerThread, hi] at h
  · by_cases hq : ∃ b, a = .queueAudio b
    · obtain ⟨b, rfl⟩ := hq
      obtain ⟨p, f, n, hpc, rfl⟩ := queueAudioStep_eq h
      cases i with
      | audio => rw [hi] at hpc; cases hpc
      | video => exact hi
    · rcases step_consumer_of_ne h ha (fun b hb => hq ⟨b, hb⟩) with he | he
      · rw [he, hi]
      · rw [he, hi]; rfl

def Runs (file : List Payload) (acts : List Act) (s : State P) : Prop :=
  Transition.run step (start P file) acts = some s

end FfmpegPlayer.Interleaving
