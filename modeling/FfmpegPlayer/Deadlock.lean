import FfmpegPlayer.Locking
import FfmpegPlayer.Leaving
import FfmpegPlayer.Shutdown

namespace FfmpegPlayer.Deadlock

open SendReceive Media Threads ReadThread ConsumerThreads MainThread Interleaving
open CondVar Wakeups Locking Leaving Shutdown

variable {P : Player}

def parked : {i : Side} → ConsumerPc i → Bool
  | _, .waiting | _, .done => true
  | _, .frame _ (.queueAudio _ _) => true
  | _, _ => false

theorem reader_enabled_iff (s : State P) :
    (step s .reader).isSome = true ↔ s.reader ≠ .done ∧ ∀ i, readerLocks s.reader = some i → s.mutex i = none := by
  simp only [step, readThreadFunc]
  cases hpc : s.reader with
  | lockAudio | lockVideo | lock => simp [readerLocks]
  | read a => cases s.input <;> simp [readerLocks]
  | notifyAll i => cases i <;> simp [readerLocks]
  | loopTest | fullTest | fullUnlockAudio | fullUnlockVideo | sleep | unlockAudio | unlockVideo | alloc
  | freeEof | route | push | notify | unlock | freeOther | setQuit | done => simp [readerLocks]

theorem consumer_enabled_iff (s : State P) (i : Side) :
    (step s (.consumer i)).isSome = true ↔ parked (s.consumer i) = false ∧
      (consumerLocks (s.consumer i) = true → s.mutex i = none) ∧ (s.consumer i = .pop → s.queue i ≠ []) := by
  simp only [step_consumer_eq, consumerThread]
  cases hpc : s.consumer i with
  | lock | relock => simp [parked, consumerLocks]
  | pop => cases s.queue i <;> simp [parked, consumerLocks]
  | frame p k => cases k <;> simp [parked, consumerLocks, frameStep]
  | loopTest | waitTest | block | waiting | breakTest | breakUnlock | unlock | ctxTest | send | receive
  | free | done => simp [parked, consumerLocks]

theorem main_enabled_iff (s : State P) :
    (step s .main).isSome = true ↔ s.main ≠ .poll ∧ s.main ≠ .returned ∧
      (s.main = .joinReader → s.reader = .done) ∧ ∀ i, s.main = .join i → s.consumer i = .done := by
  simp only [step, mainThread]
  cases hpc : s.main with
  | notifyAll i => cases i <;> simp
  | join i => cases i <;> simp
  | cleanup calls => cases calls <;> simp
  | loopTest | poll | setQuit | delay | joinReader | returned => simp

/-- A consumer that holds its mutex is not kept from going on. -/
theorem inside_enabled {file : List Payload} {acts : List Act} {s : State P} (h : Runs file acts s)
    {i : Side} (hm : s.mutex i = some (.consumer i)) : (step s (.consumer i)).isSome = true := by
  have hstage := ((locked h).consumer i).mp hm
  rw [consumer_enabled_iff]
  refine ⟨?_, fun hl => ?_, (popReady h i).pop⟩
  · cases hpc : s.consumer i <;> simp_all [stage, parked]
  · cases hpc : s.consumer i <;> simp_all [stage, consumerLocks]

/-- Whoever holds a mutex can go on, but for the reader between its two locks:
it may wait for the video thread, which can. -/
theorem mutex_holder_moves {file : List Payload} {acts : List Act} {s : State P} (h : Runs file acts s)
    {i : Side} {t : Thread} (hm : s.mutex i = some t) :
    (∃ a, thread a = t ∧ (step s a).isSome = true) ∨
    (t = .reader ∧ i = .audio ∧ s.reader = .lockVideo ∧ s.mutex .video = some (.consumer .video) ∧
      (step s (.consumer .video)).isSome = true) := by
  have hl := locked h
  rcases hl.only i t hm with rfl | rfl
  · have hp := (hl.reader i).mp hm
    by_cases hv : s.mutex .video = none ∨ s.reader ≠ .lockVideo
    · refine Or.inl ⟨.reader, rfl, ?_⟩
      rw [reader_enabled_iff]
      constructor
      · intro hpc
        simp [hpc, producing] at hp
      · intro j hj
        cases hpc : s.reader <;> simp_all [producing, readerLocks]
    · rw [not_or, not_not] at hv
      obtain ⟨t, ht⟩ := Option.ne_none_iff_exists'.mp hv.1
      have hvideo : s.mutex .video = some (.consumer .video) := by
        rcases hl.only .video t ht with rfl | rfl
        · have hp' := (hl.reader .video).mp ht
          simp [hv.2, producing] at hp'
        · exact ht
      refine Or.inr ⟨rfl, ?_, hv.2, hvideo, inside_enabled h hvideo⟩
      cases i with
      | audio => rfl
      | video => simp [hv.2, producing] at hp
  · exact Or.inl ⟨.consumer i, rfl, inside_enabled h hm⟩

def betweenLocks : List Act :=
  List.replicate 26 .reader ++ List.replicate 2 (.consumer .video) ++ List.replicate 2 .reader

theorem mutex_holder_moves_sample : ∃ s : State stereo, Runs [⟨1, []⟩, ⟨0, []⟩] betweenLocks s ∧
    s.mutex .audio = some .reader ∧ (step s .reader).isSome = false ∧
    ((∃ a, thread a = .reader ∧ (step s a).isSome = true) ∨
    (Thread.reader = .reader ∧ Side.audio = .audio ∧ s.reader = .lockVideo ∧
      s.mutex .video = some (.consumer .video) ∧ (step s (.consumer .video)).isSome = true)) := by
  obtain ⟨s, hs, hp⟩ := Transition.exists_of_run_any step (start stereo [⟨1, []⟩, ⟨0, []⟩]) betweenLocks
    (fun s : State stereo => decide (s.mutex .audio = some .reader ∧ (step s .reader).isSome = false)) (by decide)
  obtain ⟨hm, hstep⟩ := of_decide_eq_true hp
  exact ⟨s, hs, hm, hstep, mutex_holder_moves hs hm⟩

structure Stopping (s : State P) : Prop where
  reader : pastQuit s.reader = true → s.quit = true
  main : pastLoop s.main = true → s.quit = true

theorem quit_stays {a : Act} {s s' : State P} (h : step s a = some s') (hq : s.quit = true) :
    s'.quit = true := by
  rcases step_quit h with he | ⟨he, -⟩
  · rw [he, hq]
  · exact he

theorem stopping_step {a : Act} {s s' : State P} (h : step s a = some s') (hs : Stopping s) :
    Stopping s' := by
  constructor
  · intro hp
    by_cases ha : a = .reader
    · subst ha
      cases readThreadFunc_move h with
      | setQuit => rfl
      | notifyAudio hpc | notifyVideo hpc => exact hs.reader (by rw [hpc]; rfl)
      | _ => simp [pastQuit] at hp
    · rw [(step_leavesReader h ha).reader] at hp
      exact quit_stays h (hs.reader hp)
  · intro hp
    by_cases hmain : a = .main
    · subst hmain
      cases mainThread_move h with
      | leave hpc hquit => exact hquit
      | joinReader hpc | joinAudio hpc | joinVideo hpc | freePkt calls hpc | cleanup c calls hpc | finish hpc =>
          exact hs.main (by rw [hpc]; rfl)
      | goOn | setQuit | notifyAudio | notifyVideo | delay => simp [pastLoop] at hp
    · by_cases hpoll : ∃ e, a = .poll e
      · obtain ⟨e, rfl⟩ := hpoll
        obtain ⟨-, rfl⟩ := pollEvent_eq h
        cases e <;> simp [pastLoop] at hp
      · rw [step_main_of_ne h hmain (fun e he => hpoll ⟨e, he⟩)] at hp
        exact quit_stays h (hs.main hp)

theorem stopping {file : List Payload} {acts : List Act} {s : State P} (h : Runs file acts s) : Stopping s :=
  Transition.invariant (fun _ _ _ hs h => stopping_step h hs)
    (show Stopping (start P file) from ⟨by simp [start, pastQuit], by simp [start, pastLoop]⟩) h

def Dead (s : State P) : Prop :=
  ∀ a, (step s a).isSome = true → (∃ n, a = .drain n) ∨ ∃ i, a = .spurious i

theorem Dead.reader_done {file : List Payload} {acts : List Act} {s : State P} (h : Runs file acts s)
    (hd : Dead s) : s.reader = .done := by
  have hno : ¬ (step s .reader).isSome = true := fun he => by simpa using hd _ he
  rw [reader_enabled_iff] at hno
  by_contra hr
  refine hno ⟨hr, fun i hi => ?_⟩
  by_contra hm
  obtain ⟨t, ht⟩ := Option.ne_none_iff_exists'.mp hm
  rcases (locked h).only i t ht with rfl | rfl
  · have hp := ((locked h).reader i).mp ht
    cases hpc : s.reader <;> simp_all [producing, readerLocks]
  · simpa using hd _ (inside_enabled h ht)

theorem Dead.consumer_rests {file : List Payload} {acts : List Act} {s : State P} (h : Runs file acts s)
    (hd : Dead s) (i : Side) : s.consumer i = .done ∨ s.consumer i = .waiting := by
  have hno : ¬ (step s (.consumer i)).isSome = true := fun he => by simpa using hd _ he
  have hfree : s.mutex i = none := by
    by_contra hm
    obtain ⟨t, ht⟩ := Option.ne_none_iff_exists'.mp hm
    rcases (locked h).only i t ht with rfl | rfl
    · have hp := ((locked h).reader i).mp ht
      simp [hd.reader_done h, producing] at hp
    · exact hno (inside_enabled h ht)
  have hparked : parked (s.consumer i) = true := by
    by_contra hp
    exact hno ((consumer_enabled_iff s i).mpr
      ⟨by simpa using hp, fun _ => hfree, (popReady h i).pop⟩)
  cases hpc : s.consumer i with
  | frame p k =>
      cases k with
      | queueAudio f n =>
          have he : (step s (.queueAudio true)).isSome = true := by
            simp [step, queueAudioStep, hpc]
          simpa using hd _ he
      | convert | size | count | pts | clockQueued | clockWritten | quitTest | compare | delay | scale | update
      | clear | copy | present => simp [hpc, parked] at hparked
  | waiting => exact Or.inr rfl
  | done => exact Or.inl rfl
  | loopTest | lock | waitTest | block | relock | breakTest | breakUnlock | pop | unlock | ctxTest | send
  | receive | free => simp [hpc, parked] at hparked

/-- Main joins a thread that the last notify_all on its condition variable has
missed, and all the others are at rest. -/
structure MissedNotification (s : State P) : Prop where
  announced : Announced s
  rests : ∀ i, s.consumer i = .done ∨ s.consumer i = .waiting
  joins : ∃ i, s.main = .join i ∧ s.consumer i = .waiting ∧ s.log.missed i = true

theorem dead_of_rests {s : State P} (hr : s.reader = .done)
    (hc : ∀ i, s.consumer i = .done ∨ s.consumer i = .waiting)
    (hm : s.main = .returned ∨ ∃ i, s.main = .join i ∧ s.consumer i = .waiting) : Dead s := by
  intro a ha
  cases a with
  | reader => exact absurd hr ((reader_enabled_iff s).mp ha).1
  | consumer i =>
      have hp := ((consumer_enabled_iff s i).mp ha).1
      rcases hc i with hpc | hpc <;> simp [hpc, parked] at hp
  | main =>
      obtain ⟨-, hret, -, hjoin⟩ := (main_enabled_iff s).mp ha
      rcases hm with hm | ⟨i, hm, hw⟩
      · exact absurd hm hret
      · rw [hjoin i hm] at hw
        cases hw
  | poll e =>
      rcases hm with hm | ⟨i, hm, -⟩ <;> simp [step, pollEvent, hm] at ha
  | queueAudio b =>
      rcases hc .audio with hpc | hpc <;> simp [step, queueAudioStep, hpc] at ha
  | drain n => exact Or.inl ⟨n, rfl⟩
  | spurious i => exact Or.inr ⟨i, rfl⟩

theorem Dead.returned_or_missed {file : List Payload} {acts : List Act} {s : State P} (hd : Dead s)
    (h : Runs file acts s) : s.main = .returned ∨ MissedNotification s := by
  have hr := hd.reader_done h
  have hno : ¬ (step s .main).isSome = true := fun he => by simpa using hd _ he
  have hpoll : s.main ≠ .poll := by
    intro hm
    have he : (step s (.poll .none)).isSome = true := by simp [step, pollEvent, hm]
    simpa using hd _ he
  rw [main_enabled_iff] at hno
  by_cases hret : s.main = .returned
  · exact Or.inl hret
  · refine Or.inr ?_
    obtain ⟨i, hj, hc⟩ : ∃ i, s.main = .join i ∧ s.consumer i ≠ .done := by
      by_contra hall
      simp only [not_exists, not_and, not_not] at hall
      exact hno ⟨hpoll, hret, fun _ => hr, hall⟩
    have ha : Announced s := ⟨(stopping h).reader (by rw [hr]; rfl), hr, by rw [hj]; rfl⟩
    have hw := (hd.consumer_rests h i).resolve_left hc
    refine ⟨ha, hd.consumer_rests h, i, hj, hw, ?_⟩
    have hp := ha.not_pending i
    have hcov := covered h i ha.quit (by rw [hw]; rfl)
    simpa [hp.1, hp.2] using hcov

/-- The player never stops short of its return, except with main joining a
thread that the last notify_all on its condition variable has missed. -/
theorem dead_iff {file : List Payload} {acts : List Act} {s : State P} (h : Runs file acts s) :
    Dead s ↔ s.main = .returned ∨ MissedNotification s := by
  constructor
  · exact fun hd => hd.returned_or_missed h
  · rintro (hret | hm)
    · obtain ⟨hr, hc⟩ := done_of_joined h (by rw [hret]; rfl)
      exact dead_of_rests hr (fun i => Or.inl (hc i)) (Or.inl hret)
    · obtain ⟨i, hj, hw, -⟩ := hm.joins
      exact dead_of_rests hm.announced.reader hm.rests (Or.inr ⟨i, hj, hw⟩)

/-- Both packets have been played, and the audio thread went to sleep after the last notify_all. -/
theorem dead_iff_sample : ∃ s : State stereo, Runs [⟨1, []⟩, ⟨0, []⟩] lostWakeup s ∧ s.main = .join .audio ∧
    Dead s ∧ MissedNotification s := by
  obtain ⟨s, hs, ha, hm, haudio, hvideo, -⟩ := lostWakeup_runs
  have hdead : Dead s := by
    refine dead_of_rests ha.reader (fun i => ?_) (Or.inr ⟨.audio, hm, haudio⟩)
    cases i with
    | audio => exact Or.inr haudio
    | video => exact Or.inl hvideo
  refine ⟨s, hs, hm, hdead, ((dead_iff hs).mp hdead).resolve_left ?_⟩
  rw [hm]
  simp

end FfmpegPlayer.Deadlock
