import FfmpegPlayer.Termination

namespace FfmpegPlayer.Returning

open SendReceive Media Threads ReadThread ConsumerThreads MainThread Interleaving
open Leaving Shutdown Deadlock Reference Termination

variable {P : Player}

def mainMayNotify : Side → MainPc → Bool
  | _, .poll | _, .setQuit | _, .notifyAll .audio => true
  | .video, .notifyAll .video => true
  | _, _ => false

def MayBeNotified (i : Side) (s : State P) : Prop :=
  readerPending i s.reader = true ∨ mainMayNotify i s.main = true

structure Abandoned (i : Side) (s : State P) : Prop where
  quit : s.quit = true
  sleeps : sleepy (s.consumer i) = true
  alone : ¬ MayBeNotified i s

theorem reader_untouched {i : Side} {s s' : State P} (h : readThreadFunc s = some s')
    (hp : readerPending i s.reader = false) :
    s'.consumer i = s.consumer i ∧ readerPending i s'.reader = false := by
  cases readThreadFunc_move h with
  | notifyVideo hpc => cases i <;> simp [hpc, readerPending] at hp ⊢
  | enter hpc | leave hpc | lockAudio hpc | lockVideo hpc | full j hpc | room hpc | fullUnlockAudio hpc
  | fullUnlockVideo hpc | sleep hpc | unlockAudio hpc | unlockVideo hpc | alloc hpc | eof a hpc
  | read a x xs hpc | freeEof a hpc | select j p hpc | other p hpc | lock j p hpc | push j p hpc
  | notify j hpc | unlock j hpc | freeOther p hpc | setQuit hpc | notifyAudio hpc =>
      cases i <;> simp [hpc, readerPending] at hp

theorem main_untouched {i : Side} {s s' : State P} (h : mainThread s = some s') (hq : s.quit = true)
    (hm : mainMayNotify i s.main = false) :
    s'.consumer i = s.consumer i ∧ mainMayNotify i s'.main = false := by
  cases mainThread_move h with
  | goOn hpc hquit => rw [hq] at hquit; cases hquit
  | setQuit hpc | notifyAudio hpc => simp [hpc, mainMayNotify] at hm
  | notifyVideo hpc => cases i <;> simp [hpc, mainMayNotify] at hm ⊢
  | leave | delay | joinReader | joinAudio | joinVideo | freePkt | cleanup | finish =>
      exact ⟨rfl, by cases i <;> rfl⟩

theorem abandoned_step {i : Side} {a : Act} {s s' : State P} (h : step s a = some s')
    (ha : ∀ j, a ≠ .spurious j) (hs : Abandoned i s) : Abandoned i s' := by
  have halone := hs.alone
  rw [MayBeNotified, not_or, Bool.not_eq_true, Bool.not_eq_true] at halone
  obtain ⟨hr, hm⟩ := halone
  have hquit := quit_stays h hs.quit
  have keep : s'.consumer i = s.consumer i → readerPending i s'.reader = false →
      mainMayNotify i s'.main = false → Abandoned i s' :=
    fun hc hr hm => ⟨hquit, by rw [hc]; exact hs.sleeps, by simp [MayBeNotified, hr, hm]⟩
  cases a with
  | reader =>
      obtain ⟨hc, hr'⟩ := reader_untouched h hr
      exact keep hc hr' (by rw [(readThreadFunc_step h).main]; exact hm)
  | consumer j =>
      have hl := consumerThread_step (step_consumer h)
      by_cases hij : i = j
      · subst hij
        have hw := (sleepy_stays (step_consumer h) hs.sleeps).2
        exact ⟨hquit, by rw [hw]; rfl, by simp [MayBeNotified, hl.reader, hl.main, hr, hm]⟩
      · exact keep (hl.consumer i hij) (by rw [hl.reader]; exact hr) (by rw [hl.main]; exact hm)
  | main =>
      obtain ⟨hc, hm'⟩ := main_untouched h hs.quit hm
      exact keep hc (by rw [(mainThread_leaves h).reader]; exact hr) hm'
  | poll e =>
      have hpc := (pollEvent_eq h).1
      cases i <;> simp [hpc, mainMayNotify] at hm
  | spurious j => exact absurd rfl (ha j)
  | drain n =>
      obtain ⟨-, rfl⟩ := drain_eq h
      exact ⟨hquit, hs.sleeps, hs.alone⟩
  | queueAudio accepted =>
      have hl := queueAudioStep_step h
      have hsleeps := hs.sleeps
      obtain ⟨p, f, n, hpc, rfl⟩ := queueAudioStep_eq h
      cases i with
      | audio => simp [hpc, sleepy] at hsleeps
      | video => exact keep rfl hr hm

def NotAbandoned (s : State P) : Prop := ∀ i, sleepy (s.consumer i) = true → MayBeNotified i s

/-- A step that does not let a consumer go to sleep, nor a notification pass it
by, keeps every sleeper within reach. -/
theorem notAbandoned_of_consumers {s s' : State P} (hs : NotAbandoned s)
    (hstep : ∀ i, sleepy (s'.consumer i) = true →
      sleepy (s.consumer i) = true ∧ (MayBeNotified i s → MayBeNotified i s')) : NotAbandoned s' := by
  intro i hsl
  obtain ⟨hsl', hmay⟩ := hstep i hsl
  exact hmay (hs i hsl')

theorem mayBeNotified_of_same {i : Side} {s s' : State P} (hr : s'.reader = s.reader)
    (hm : s'.main = s.main) (h : MayBeNotified i s) : MayBeNotified i s' := by
  rwa [MayBeNotified, hr, hm]

theorem not_sleepy_of_woken {i : Side} {pc : ConsumerPc i} (h : pc ≠ .block) :
    sleepy pc.woken = false := by
  by_contra hs
  exact h (sleepy_of_woken (by simpa using hs))

theorem notAbandoned_reader {s s' : State P} (h : readThreadFunc s = some s')
    (hblock : ∀ i, s.consumer i ≠ .block) (hs : NotAbandoned s) : NotAbandoned s' := by
  refine notAbandoned_of_consumers hs (fun i hsl => ?_)
  rcases notice_readThreadFunc i h with ⟨hu, hp⟩ | ⟨hn, -⟩ | ⟨hn, -⟩
  · refine ⟨by rwa [hu.1] at hsl, fun hmay => ?_⟩
    rwa [MayBeNotified, hp, (readThreadFunc_step h).main]
  · rw [hn.1, not_sleepy_of_woken (hblock i)] at hsl
    cases hsl
  · rw [hn.1, not_sleepy_of_woken (hblock i)] at hsl
    cases hsl

theorem notAbandoned_main {s s' : State P} (h : mainThread s = some s') (hq : s.quit = true)
    (hblock : ∀ i, s.consumer i ≠ .block) (hs : NotAbandoned s) : NotAbandoned s' := by
  refine notAbandoned_of_consumers hs (fun i hsl => ?_)
  rcases notice_mainThread i h with ⟨hu, -⟩ | hn
  · refine ⟨by rwa [hu.1] at hsl, fun hmay => ?_⟩
    rw [MayBeNotified, (mainThread_leaves h).reader]
    refine hmay.imp id (fun hm => ?_)
    cases mainThread_move h with
    | goOn hpc hquit => rw [hq] at hquit; cases hquit
    | setQuit => cases i <;> rfl
    | notifyAudio hpc =>
        cases i with
        | audio =>
            rw [hu.1] at hsl
            have hw := hu.1
            rw [State.notifyAll_consumer, Function.update_self] at hw
            rw [← hw, not_sleepy_of_woken (hblock .audio)] at hsl
            cases hsl
        | video => rfl
    | notifyVideo hpc =>
        cases i with
        | audio => simp [hpc, mainMayNotify] at hm
        | video =>
            rw [hu.1] at hsl
            have hw := hu.1
            rw [State.notifyAll_consumer, Function.update_self] at hw
            rw [← hw, not_sleepy_of_woken (hblock .video)] at hsl
            cases hsl
    | leave hpc | delay hpc | joinReader hpc | joinAudio hpc | joinVideo hpc | freePkt calls hpc
    | cleanup c calls hpc | finish hpc => cases i <;> simp [hpc, mainMayNotify] at hm
  · rw [hn.1, not_sleepy_of_woken (hblock i)] at hsl
    cases hsl

theorem notAbandoned_consumer {i : Side} {s s' : State P} (h : step s (.consumer i) = some s')
    (hq : s.quit = true) (hs : NotAbandoned s) : NotAbandoned s' := by
  have hl := consumerThread_step (step_consumer h)
  refine notAbandoned_of_consumers hs (fun j hsl => ⟨?_, mayBeNotified_of_same hl.reader hl.main⟩)
  by_cases hij : j = i
  · subst hij
    rcases sleepy_consumerThread (step_consumer h) hsl with hf | hb
    · rw [hq] at hf
      cases hf
    · rw [hb]
      rfl
  · rwa [hl.consumer j hij] at hsl

theorem notAbandoned_queueAudio {accepted : Bool} {s s' : State P}
    (h : queueAudioStep accepted s = some s') (hs : NotAbandoned s) : NotAbandoned s' := by
  have hl := queueAudioStep_step h
  refine notAbandoned_of_consumers hs (fun j hsl => ⟨?_, mayBeNotified_of_same hl.reader hl.main⟩)
  obtain ⟨p, f, n, -, rfl⟩ := queueAudioStep_eq h
  cases j with
  | audio => simp [sleepy] at hsl
  | video => exact hsl

/-- While main has not returned and no sleeper is abandoned, some action brings
it nearer without abandoning one: a consumer about to sleep goes to sleep
first, and a polling main is told to quit. -/
theorem exists_nearer (D : (i : Side) → RunsDry (P.codec i)) {file : List Payload} {acts : List Act}
    {s : State P} (h : Runs file acts s) (hq : s.quit = true) (hs : NotAbandoned s)
    (hret : s.main ≠ .returned) :
    ∃ a s', (∀ j, a ≠ .spurious j) ∧ step s a = some s' ∧ NotAbandoned s' ∧ rank D s' < rank D s := by
  have take : ∀ a, (∀ j, a ≠ .spurious j) → moves a = 1 → (step s a).isSome = true →
      (∀ s', step s a = some s' → NotAbandoned s') →
      ∃ a s', (∀ j, a ≠ .spurious j) ∧ step s a = some s' ∧ NotAbandoned s' ∧ rank D s' < rank D s := by
    intro a ha hm he hn
    obtain ⟨s', hs'⟩ := Option.isSome_iff_exists.mp he
    have hle := rank_step D h hq hs'
    exact ⟨a, s', ha, hs', hn s' hs', by omega⟩
  by_cases hblock : ∃ i, s.consumer i = .block
  · obtain ⟨i, hi⟩ := hblock
    refine take (.consumer i) (by simp) rfl ?_ (fun s' hs' => notAbandoned_consumer hs' hq hs)
    exact (consumer_enabled_iff s i).mpr (by simp [hi, parked, Locking.consumerLocks])
  · simp only [not_exists] at hblock
    by_cases hpoll : s.main = .poll
    · have hs' : pollEvent .quit s = some { s with main := .setQuit } := by
        simp [pollEvent, hpoll]
      refine ⟨.poll .quit, _, by simp, hs', fun i _ => Or.inr (by cases i <;> rfl), ?_⟩
      have hle := rank_of_leavesPackets D h (a := .poll .quit) hs' (pollEvent_leaves hs')
      simp only [hpoll, mainRank] at hle
      omega
    · have hlive : ¬ Dead s := by
        intro hd
        rcases hd.returned_or_missed h with hm | hm
        · exact hret hm
        · obtain ⟨i, hj, hw, -⟩ := hm.joins
          rcases hs i (by rw [hw]; rfl) with hr | hn
          · rw [(hm.announced.not_pending i).1] at hr
            cases hr
          · cases i <;> simp [hj, mainMayNotify] at hn
      simp only [Dead, not_forall, not_or, not_exists] at hlive
      obtain ⟨a, he, hdrain, hspurious⟩ := hlive
      cases a with
      | reader =>
          exact take .reader (by simp) rfl he (fun s' hs' => notAbandoned_reader hs' hblock hs)
      | consumer i =>
          exact take (.consumer i) (by simp) rfl he (fun s' hs' => notAbandoned_consumer hs' hq hs)
      | main =>
          exact take .main (by simp) rfl he (fun s' hs' => notAbandoned_main hs' hq hblock hs)
      | poll e =>
          obtain ⟨s', hs'⟩ := Option.isSome_iff_exists.mp he
          exact absurd (pollEvent_eq hs').1 hpoll
      | queueAudio b =>
          exact take (.queueAudio b) (by simp) rfl he (fun s' hs' => notAbandoned_queueAudio hs' hs)
      | drain n => exact absurd rfl (hdrain n)
      | spurious i => exact absurd rfl (hspurious i)

/-- Once quit is set, the player can still be brought to its return, without a
spurious wake-up, exactly if no consumer sleeps whom nobody can notify any more. -/
theorem can_return_iff (D : (i : Side) → RunsDry (P.codec i)) {file : List Payload} {acts : List Act}
    {s : State P} (h : Runs file acts s) (hq : s.quit = true) :
    (∃ more, ∃ t : State P, (∀ a ∈ more, ∀ j, a ≠ .spurious j) ∧ Transition.run step s more = some t ∧
      t.main = .returned) ↔ ∀ i, ¬ Abandoned i s := by
  constructor
  · rintro ⟨more, t, hsp, hrun, hret⟩ i hi
    have hG := Transition.along_of_forall step (A := fun a => ∀ j, a ≠ .spurious j) s hsp
    have ht : Abandoned i t := Transition.invariant_along (I := Abandoned i)
      (fun _ _ _ hs ha h => abandoned_step h ha hs) hG hi hrun
    have hdone := (done_of_joined (Transition.run_trans h hrun) (by rw [hret]; rfl)).2 i
    have hsleeps := ht.sleeps
    simp [hdone, sleepy] at hsleeps
  · intro hno
    have hs : NotAbandoned s := by
      intro i hsl
      by_contra hn
      exact hno i ⟨hq, hsl, hn⟩
    refine Transition.exists_run_to (A := fun a : Act => ∀ j, a ≠ .spurious j)
      (I := fun s => (∃ acts, Runs file acts s) ∧ s.quit = true ∧ NotAbandoned s)
      (rank D) (fun s hI hret => ?_) ⟨⟨acts, h⟩, hq, hs⟩
    obtain ⟨⟨acts, hr⟩, hq, hs⟩ := hI
    obtain ⟨a, s', ha, hs', hn, hlt⟩ := exists_nearer D hr hq hs hret
    exact ⟨a, s', ha, hs', ⟨⟨_, runs_snoc hr hs'⟩, quit_stays hs' hq, hn⟩, hlt⟩

def quitAsleep : List Act :=
  List.replicate 13 .reader ++ List.replicate 4 (.consumer .audio) ++ List.replicate 21 (.consumer .video) ++
    [.main, .poll .quit, .main]

theorem can_return_iff_sample : ∃ s : State stereo, Runs [⟨0, []⟩] quitAsleep s ∧ s.quit = true ∧
    s.consumer .audio = .waiting ∧ (∀ i, ¬ Abandoned i s) ∧
    ∃ more, ∃ t : State stereo, (∀ a ∈ more, ∀ j, a ≠ .spurious j) ∧
      Transition.run step s more = some t ∧ t.main = .returned := by
  obtain ⟨s, hs, hp⟩ := Transition.exists_of_run_any step (start stereo [⟨0, []⟩]) quitAsleep
    (fun s : State stereo => decide (s.quit = true ∧ s.consumer .audio = .waiting ∧
      s.main = .notifyAll .audio)) (by decide +kernel)
  obtain ⟨hq, ha, hm⟩ := of_decide_eq_true hp
  have hno (i : Side) : ¬ Abandoned i s :=
    fun hi => hi.alone (Or.inr (by cases i <;> simp [hm, mainMayNotify]))
  exact ⟨s, hs, hq, ha, hno, (can_return_iff stereoRunsDry hs hq).mpr hno⟩

end FfmpegPlayer.Returning
