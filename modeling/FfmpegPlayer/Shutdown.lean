import FfmpegPlayer.Interleaving

namespace FfmpegPlayer.Shutdown

open SendReceive Media Threads ReadThread ConsumerThreads MainThread Interleaving

variable {P : Player}

def readerPending : Side → ReaderPc → Bool
  | _, .done => false
  | .audio, .notifyAll .video => false
  | _, _ => true

def mainPending : Side → MainPc → Bool
  | _, .notifyAll .audio => true
  | .video, .notifyAll .video => true
  | _, _ => false

def Untouched (i : Side) (s s' : State P) : Prop :=
  s'.consumer i = s.consumer i ∧ s'.log.missed i = s.log.missed i

def NotifiedOne (i : Side) (s s' : State P) : Prop :=
  s'.consumer i = (s.consumer i).woken ∧ s'.log.missed i = s.log.missed i

def NotifiedAll (i : Side) (s s' : State P) : Prop :=
  s'.consumer i = (s.consumer i).woken ∧ s'.log.missed i = decide (s.consumer i = .block)

theorem notice_readThreadFunc (i : Side) {s s' : State P} (h : readThreadFunc s = some s') :
    (Untouched i s s' ∧ readerPending i s'.reader = readerPending i s.reader) ∨
    (NotifiedOne i s s' ∧ readerPending i s.reader = true ∧ readerPending i s'.reader = true) ∨
    (NotifiedAll i s s' ∧ readerPending i s'.reader = false) := by
  cases readThreadFunc_move h with
  | notify j hpc =>
      by_cases hi : i = j
      · subst hi
        exact Or.inr (Or.inl ⟨⟨by simp, rfl⟩, by cases i <;> simp [hpc, readerPending]⟩)
      · exact Or.inl ⟨⟨by simp [hi], rfl⟩, by cases i <;> simp [hpc, readerPending]⟩
  | notifyAudio hpc | notifyVideo hpc =>
      cases i <;> simp [hpc, readerPending, Untouched, NotifiedAll]
  | enter hpc | leave hpc | lockAudio hpc | lockVideo hpc | full j hpc | room hpc | fullUnlockAudio hpc
  | fullUnlockVideo hpc | sleep hpc | unlockAudio hpc | unlockVideo hpc | alloc hpc | eof a hpc
  | read a x xs hpc | freeEof a hpc | select j p hpc | other p hpc | lock j p hpc | push j p hpc
  | unlock j hpc | freeOther p hpc | setQuit hpc =>
      exact Or.inl ⟨⟨rfl, rfl⟩, by cases i <;> simp [hpc, readerPending]⟩

theorem notice_mainThread (i : Side) {s s' : State P} (h : mainThread s = some s') :
    (Untouched i s s' ∧ (mainPending i s.main = true → mainPending i s'.main = true)) ∨
    NotifiedAll i s s' := by
  cases mainThread_move h with
  | notifyAudio hpc | notifyVideo hpc => cases i <;> simp [hpc, mainPending, Untouched, NotifiedAll]
  | goOn hpc | leave hpc | setQuit hpc | delay hpc | joinReader hpc | joinAudio hpc | joinVideo hpc
  | freePkt calls hpc | cleanup c calls hpc | finish hpc =>
      exact Or.inl ⟨⟨rfl, rfl⟩, by cases i <;> simp [hpc, mainPending]⟩

def sleepy {i : Side} : ConsumerPc i → Bool
  | .block | .waiting => true
  | _ => false

theorem sleepy_of_woken {i : Side} {pc : ConsumerPc i} (h : sleepy pc.woken = true) : pc = .block := by
  cases pc <;> simp_all [ConsumerPc.woken, sleepy]

theorem sleepy_consumerThread {i : Side} {onFrame : AVFrame → FramePc i} {s s' : State P}
    (h : consumerThread i true onFrame s = some s') (hs : sleepy (s'.consumer i) = true) :
    s.quit = false ∨ s.consumer i = .block := by
  cases consumerThread_move h with
  | unready hpc hempty hquit => exact Or.inl hquit
  | block hpc => exact Or.inr hpc
  | body p k o next => cases next <;> simp [afterFrame, sleepy] at hs
  | _ => simp [sleepy] at hs

/-- While quit is set, a consumer committed to sleep will still be notified,
or the last notification has missed it. -/
def Covered (i : Side) (s : State P) : Prop :=
  s.quit = true → sleepy (s.consumer i) = true →
    readerPending i s.reader = true ∨ mainPending i s.main = true ∨ s.log.missed i = true

theorem covered_of_notifiedAll {i : Side} {s s' : State P} (h : NotifiedAll i s s') : Covered i s' := by
  intro _ hs
  refine Or.inr (Or.inr ?_)
  rw [h.1] at hs
  rw [h.2, sleepy_of_woken hs]
  simp

theorem covered_of_quiet {i : Side} {s s' : State P} (hc : Covered i s) (hq : s'.quit = s.quit)
    (hs : sleepy (s'.consumer i) = true → sleepy (s.consumer i) = true) (hr : s'.reader = s.reader)
    (hm : mainPending i s.main = true → mainPending i s'.main = true)
    (hl : s'.log.missed i = s.log.missed i) : Covered i s' := by
  intro hq' hs'
  rw [hr, hl]
  rcases hc (hq.symm.trans hq') (hs hs') with h | h | h
  · exact Or.inl h
  · exact Or.inr (Or.inl (hm h))
  · exact Or.inr (Or.inr h)

theorem covered_step {a : Act} {s s' : State P} (h : step s a = some s') (i : Side)
    (hc : Covered i s) : Covered i s' := by
  cases a with
  | reader =>
      have hr : readThreadFunc s = some s' := h
      rcases notice_readThreadFunc i hr with ⟨hu, hp⟩ | ⟨-, -, hp⟩ | ⟨hn, -⟩
      · rcases (readThreadFunc_step hr).quit with hq | ⟨hset, -⟩
        · intro hq' hs
          rw [hu.1] at hs
          rw [hp, hu.2, (readThreadFunc_step hr).main]
          exact hc (hq.symm.trans hq') hs
        · intro _ _
          rw [hp, hset]
          exact Or.inl (by cases i <;> rfl)
      · exact fun _ _ => Or.inl hp
      · exact covered_of_notifiedAll hn
  | consumer j =>
      replace h := step_consumer h
      have hl := consumerThread_step h
      by_cases hij : i = j
      · subst hij
        intro hq hs
        rw [hl.reader, hl.main, hl.missed]
        rw [hl.quit] at hq
        rcases sleepy_consumerThread h hs with hf | hb
        · rw [hq] at hf; simp at hf
        · exact hc hq (by rw [hb]; rfl)
      · exact covered_of_quiet hc hl.quit (by rw [hl.consumer i hij]; exact id) hl.reader
          (by rw [hl.main]; exact id) (hl.missed i)
  | main =>
      have hm : mainThread s = some s' := h
      have hl := mainThread_leaves hm
      rcases notice_mainThread i hm with ⟨hu, hp⟩ | hn
      · rcases hl.quit with hq | ⟨hset, -⟩
        · exact covered_of_quiet hc hq (by rw [hu.1]; exact id) hl.reader hp hu.2
        · intro _ _
          simp only [mainThread, hset, Option.some.injEq] at hm
          subst hm
          exact Or.inr (Or.inl (by cases i <;> rfl))
      · exact covered_of_notifiedAll hn
  | poll e =>
      obtain ⟨hpc, rfl⟩ := pollEvent_eq h
      exact covered_of_quiet hc rfl id rfl (by cases i <;> simp [hpc, mainPending]) rfl
  | spurious j =>
      obtain ⟨-, rfl⟩ := spuriousWake_eq h
      refine covered_of_quiet hc rfl (fun hs => ?_) rfl id rfl
      rcases update_woken_or s.consumer j i with he | he
      · rwa [State.notifyOne_consumer, he] at hs
      · rw [State.notifyOne_consumer, he] at hs
        rw [sleepy_of_woken hs]
        rfl
  | drain n =>
      obtain ⟨-, rfl⟩ := drain_eq h
      exact covered_of_quiet hc rfl id rfl id rfl
  | queueAudio accepted =>
      obtain ⟨p, f, n, hpc, rfl⟩ := queueAudioStep_eq h
      refine covered_of_quiet hc rfl (fun hs => ?_) rfl id rfl
      cases i with
      | audio => simp [sleepy] at hs
      | video => exact hs

theorem covered {file : List Payload} {acts : List Act} {s : State P} (h : Runs file acts s)
    (i : Side) : Covered i s :=
  Transition.invariant (I := Covered i) (fun _ _ _ hc h => covered_step h i hc)
    (by intro hq; simp [start] at hq) h

def pastLoop : MainPc → Bool
  | .joinReader | .join _ | .cleanup _ | .returned => true
  | _ => false

structure Announced (s : State P) : Prop where
  quit : s.quit = true
  reader : s.reader = .done
  main : pastLoop s.main = true

theorem Announced.not_pending {s : State P} (h : Announced s) (i : Side) :
    readerPending i s.reader = false ∧ mainPending i s.main = false := by
  constructor
  · rw [h.reader]; cases i <;> rfl
  · have hm := h.main
    cases hpc : s.main <;> cases i <;> simp_all [pastLoop, mainPending]

/-- After its own notify_all of a condition variable, the reader wakes nobody
through it any more: a consumer that the last notify_all missed goes to sleep
and stays asleep. -/
def Asleep (i : Side) (s : State P) : Prop :=
  s.log.missed i = true → readerPending i s.reader = false → sleepy (s.consumer i) = true

theorem asleep_of_notifiedAll {i : Side} {s s' : State P} (h : NotifiedAll i s s') : Asleep i s' := by
  intro hm _
  rw [h.2, decide_eq_true_eq] at hm
  rw [h.1, hm]
  rfl

theorem asleep_of_same {i : Side} {s s' : State P} (ha : Asleep i s)
    (hs : sleepy (s.consumer i) = true → sleepy (s'.consumer i) = true) (hr : s'.reader = s.reader)
    (hl : s'.log.missed i = s.log.missed i) : Asleep i s' := by
  intro hm hp
  rw [hl] at hm
  rw [hr] at hp
  exact hs (ha hm hp)

theorem sleepy_stays {i : Side} {onFrame : AVFrame → FramePc i} {s s' : State P}
    (h : consumerThread i true onFrame s = some s') (hs : sleepy (s.consumer i) = true) :
    s.consumer i = .block ∧ s'.consumer i = .waiting := by
  cases consumerThread_move h with
  | block hpc => exact ⟨hpc, by simp⟩
  | lock hpc => rcases hpc with hpc | hpc <;> simp [hpc, sleepy] at hs
  | enter hpc | leave hpc | ready hpc | unready hpc | goOn hpc | stop hpc | breakUnlock hpc | pop p q hpc
  | unlock p hpc | ctx p hpc | accept p d hpc | reject p r d hpc | receive p f d hpc
  | drained p r f d hpc | body p k o next hpc | free p hpc => simp [hpc, sleepy] at hs

theorem asleep_step {a : Act} {s s' : State P} (h : step s a = some s') (ha : ∀ j, a ≠ .spurious j)
    (i : Side) (hs : Asleep i s) : Asleep i s' := by
  cases a with
  | reader =>
      have hr : readThreadFunc s = some s' := h
      rcases notice_readThreadFunc i hr with ⟨hu, hp⟩ | ⟨-, -, hp⟩ | ⟨hn, -⟩
      · intro hm hp'
        rw [hu.2] at hm
        rw [hp] at hp'
        rw [hu.1]
        exact hs hm hp'
      · intro _ hp'
        rw [hp] at hp'
        simp at hp'
      · exact asleep_of_notifiedAll hn
  | consumer j =>
      replace h := step_consumer h
      have hl := consumerThread_step h
      refine asleep_of_same hs (fun hsl => ?_) hl.reader (hl.missed i)
      by_cases hij : i = j
      · subst hij
        rw [(sleepy_stays h hsl).2]
        rfl
      · rwa [hl.consumer i hij]
  | main =>
      have hm : mainThread s = some s' := h
      rcases notice_mainThread i hm with ⟨hu, -⟩ | hn
      · exact asleep_of_same hs (by rw [hu.1]; exact id) (mainThread_leaves hm).reader hu.2
      · exact asleep_of_notifiedAll hn
  | poll e =>
      obtain ⟨-, rfl⟩ := pollEvent_eq h
      exact hs
  | spurious j => exact absurd rfl (ha j)
  | drain n =>
      obtain ⟨-, rfl⟩ := drain_eq h
      exact hs
  | queueAudio accepted =>
      obtain ⟨p, f, n, hpc, rfl⟩ := queueAudioStep_eq h
      refine asleep_of_same hs (fun hsl => ?_) rfl rfl
      cases i with
      | audio => simp [hpc, sleepy] at hsl
      | video => exact hsl

/-- Once nobody has a notify_all to issue: a consumer that the last one found
outside its window does not sleep, and without spurious wake-ups one sleeps
exactly if it was found inside. -/
theorem asleep_iff_missed {file : List Payload} {acts : List Act} {s : State P}
    (h : Runs file acts s) (ha : Announced s) :
    (∀ i, s.log.missed i = false → s.consumer i ≠ .waiting) ∧
    ((∀ a ∈ acts, ∀ j, a ≠ .spurious j) →
      ∀ i, s.consumer i = .block ∨ s.consumer i = .waiting ↔ s.log.missed i = true) := by
  have hmissed (i : Side) (hsl : sleepy (s.consumer i) = true) : s.log.missed i = true := by
    have hp := ha.not_pending i
    have hc := covered h i ha.quit hsl
    simpa [hp.1, hp.2] using hc
  constructor
  · intro i hm hw
    rw [hmissed i (by rw [hw]; rfl)] at hm
    cases hm
  · intro hsp i
    constructor
    · rintro (hpc | hpc) <;> exact hmissed i (by rw [hpc]; rfl)
    · intro hm
      have hG := Transition.along_of_forall step (A := fun a => ∀ j, a ≠ .spurious j)
        (start P file) hsp
      have hs : Asleep i s := Transition.invariant_along (I := Asleep i)
        (fun _ _ _ hs ha h => asleep_step h ha i hs) hG (by intro hm; simp [start] at hm) h
      have hsl := hs hm (ha.not_pending i).1
      cases hpc : s.consumer i <;> simp_all [sleepy]

/-- A packet of each stream is decoded. The reader is past its last test when
the audio thread finds its queue empty and quit unset; quit is stored and both
notifications are issued before the audio thread enters the waiter set. -/
def lostWakeup : List Act :=
  List.replicate 26 .reader ++ List.replicate 11 (.consumer .audio) ++ [.queueAudio true] ++
    List.replicate 3 (.consumer .audio) ++ List.replicate 21 (.consumer .video) ++ List.replicate 9 .reader ++
    List.replicate 3 (.consumer .audio) ++ List.replicate 3 .reader ++
    [.consumer .audio, .consumer .video, .main, .main]

theorem lostWakeup_runs : ∃ s : State stereo, Runs [⟨1, []⟩, ⟨0, []⟩] lostWakeup s ∧ Announced s ∧
    s.main = .join .audio ∧ s.consumer .audio = .waiting ∧ s.consumer .video = .done ∧
    s.log.missed .audio = true ∧ s.log.missed .video = false := by
  obtain ⟨s, hs, hp⟩ := Transition.exists_of_run_any step (start stereo [⟨1, []⟩, ⟨0, []⟩]) lostWakeup
    (fun s : State stereo => decide (s.quit = true ∧ s.reader = .done ∧ s.main = .join .audio ∧
      s.consumer .audio = .waiting ∧ s.consumer .video = .done ∧ s.log.missed .audio = true ∧
      s.log.missed .video = false)) (by decide +kernel)
  obtain ⟨hq, hr, hm, hrest⟩ := of_decide_eq_true hp
  exact ⟨s, hs, ⟨hq, hr, by rw [hm]; rfl⟩, hm, hrest⟩

theorem asleep_iff_missed_sample : ∃ s : State stereo, Runs [⟨1, []⟩, ⟨0, []⟩] lostWakeup s ∧
    s.log.missed .audio = true ∧ s.log.missed .video = false ∧
    (∀ i, s.log.missed i = false → s.consumer i ≠ .waiting) ∧
    ∀ i, s.consumer i = .block ∨ s.consumer i = .waiting ↔ s.log.missed i = true := by
  obtain ⟨s, hs, ha, -, -, -, hma, hmv⟩ := lostWakeup_runs
  obtain ⟨hawake, hasleep⟩ := asleep_iff_missed hs ha
  refine ⟨s, hs, hma, hmv, hawake, hasleep ?_⟩
  rintro a hact j rfl
  revert hact
  cases j <;> decide

theorem not_awake_after_shutdown : ¬ ∀ (P : Player) (file : List Payload) (acts : List Act) (s : State P),
    Runs file acts s → Announced s → ∀ i, s.consumer i ≠ .waiting := by
  intro hall
  obtain ⟨s, hs, ha, -, hc, -⟩ := lostWakeup_runs
  exact hall stereo _ _ s hs ha .audio hc

theorem mainThread_pastLoop {s s' : State P} (h : mainThread s = some s') (hm : pastLoop s.main = true) :
    pastLoop s'.main = true ∧ s'.consumer = s.consumer := by
  cases mainThread_move h with
  | joinReader | joinAudio | joinVideo | freePkt | cleanup | finish => exact ⟨rfl, rfl⟩
  | goOn hpc | leave hpc | setQuit hpc | notifyAudio hpc | notifyVideo hpc | delay hpc =>
      simp [hpc, pastLoop] at hm

theorem announced_step {a : Act} {s s' : State P} (h : step s a = some s') (ha : Announced s) :
    Announced s' := by
  constructor
  · rcases step_quit h with hq | ⟨hq, -⟩
    · rw [hq, ha.quit]
    · exact hq
  · exact reader_done_step h ha.reader
  · by_cases hmain : a = .main
    · subst hmain
      exact (mainThread_pastLoop h ha.main).1
    · by_cases hpoll : ∃ e, a = .poll e
      · obtain ⟨e, rfl⟩ := hpoll
        have hm := ha.main
        simp [(pollEvent_eq h).1, pastLoop] at hm
      · rw [step_main_of_ne h hmain (fun e he => hpoll ⟨e, he⟩)]
        exact ha.main

/-- A waiter left behind is left behind for ever: main never gets past joining it. -/
theorem waiting_forever {i : Side} {more : List Act} {s t : State P} (ha : Announced s)
    (hw : s.consumer i = .waiting) (hsp : ∀ a ∈ more, ∀ j, a ≠ .spurious j)
    (h : Transition.run step s more = some t) : t.consumer i = .waiting := by
  have hG := Transition.along_of_forall step (A := fun a => ∀ j, a ≠ .spurious j) s hsp
  refine (Transition.invariant_along (I := fun s => Announced s ∧ s.consumer i = .waiting)
    (fun s a s' hs hsp h => ⟨announced_step h hs.1, ?_⟩) hG ⟨ha, hw⟩ h).2
  cases a with
  | reader =>
      have hr : readThreadFunc s = some s' := h
      simp [readThreadFunc, hs.1.reader] at hr
  | consumer j =>
      replace h := step_consumer h
      by_cases hij : i = j
      · subst hij
        simp [consumerThread, hs.2] at h
      · rw [(consumerThread_step h).consumer i hij, hs.2]
  | main =>
      rw [(mainThread_pastLoop h hs.1.main).2, hs.2]
  | poll e =>
      obtain ⟨-, rfl⟩ := pollEvent_eq h
      exact hs.2
  | spurious j => exact absurd rfl (hsp j)
  | drain n =>
      obtain ⟨-, rfl⟩ := drain_eq h
      exact hs.2
  | queueAudio accepted =>
      obtain ⟨p, f, n, hpc, rfl⟩ := queueAudioStep_eq h
      cases i with
      | audio => rw [hs.2] at hpc; cases hpc
      | video => exact hs.2

end FfmpegPlayer.Shutdown
