import FfmpegPlayer.Wakeups

namespace FfmpegPlayer.Locking

open Media Threads ReadThread ConsumerThreads MainThread Interleaving CondVar Wakeups

variable {P : Player}

def touches (s : State P) : Act → List Side
  | .reader => match s.reader with
    | .fullTest => [.audio, .video]
    | .push i _ => [i]
    | _ => []
  | .consumer i => match s.consumer i with
    | .waitTest | .breakTest | .pop => [i]
    | _ => []
  | _ => []

def unlocks (s : State P) : Act → List Side
  | .reader => match s.reader with
    | .fullUnlockAudio | .unlockAudio => [.audio]
    | .fullUnlockVideo | .unlockVideo => [.video]
    | .unlock i => [i]
    | _ => []
  | .consumer i => match s.consumer i with
    | .block | .breakUnlock | .unlock _ => [i]
    | _ => []
  | _ => []

def readerLocks : ReaderPc → Option Side
  | .lockAudio => some .audio
  | .lockVideo => some .video
  | .lock i _ => some i
  | _ => none

def consumerLocks {i : Side} : ConsumerPc i → Bool
  | .lock | .relock => true
  | _ => false

def locks (s : State P) : Act → List Side
  | .reader => (readerLocks s.reader).toList
  | .consumer i => if consumerLocks (s.consumer i) then [i] else []
  | _ => []

def thread : Act → Thread
  | .reader => .reader
  | .consumer i => .consumer i
  | _ => .main

inductive MutexStep (i : Side) (s s' : State P) (a : Act) : Prop
  | same (mutex : s'.mutex i = s.mutex i)
  | lock (wants : i ∈ locks s a) (free : s.mutex i = none) (mutex : s'.mutex i = some (thread a))
  | unlock (leaves : i ∈ unlocks s a) (mutex : s'.mutex i = none)

theorem mutexStep_update {i j : Side} {o : Option Thread} {a : Act} {s s' : State P}
    (hm : s'.mutex = Function.update s.mutex j o)
    (hself : s'.mutex j = o → MutexStep j s s' a) : MutexStep i s s' a := by
  by_cases hi : i = j
  · subst hi
    exact hself (by rw [hm, Function.update_self])
  · exact .same (by rw [hm, Function.update_of_ne hi])

theorem mutexStep_reader (i : Side) {s s' : State P} (h : readThreadFunc s = some s') :
    MutexStep i s s' .reader := by
  cases readThreadFunc_move h with
  | lockAudio hpc hfree | lockVideo hpc hfree | lock j p hpc hfree =>
      exact mutexStep_update rfl (fun hm => .lock (by simp [locks, readerLocks, hpc]) hfree hm)
  | fullUnlockAudio hpc | fullUnlockVideo hpc | unlockAudio hpc | unlockVideo hpc | unlock j hpc =>
      exact mutexStep_update rfl (fun hm => .unlock (by simp [unlocks, hpc]) hm)
  | enter | leave | full | room | sleep | alloc | eof | read | freeEof | select | other | push | notify
  | freeOther | setQuit | notifyAudio | notifyVideo => exact .same rfl

theorem mutexStep_consumer (i : Side) {j : Side} {onFrame : AVFrame → FramePc j} {s s' : State P}
    (h : consumerThread j true onFrame s = some s') : MutexStep i s s' (.consumer j) := by
  cases consumerThread_move h with
  | lock hpc hfree =>
      refine mutexStep_update rfl (fun hm => .lock ?_ hfree hm)
      rcases hpc with hpc | hpc <;> simp [locks, consumerLocks, hpc]
  | block hpc | breakUnlock hpc | unlock p hpc =>
      exact mutexStep_update rfl (fun hm => .unlock (by simp [unlocks, hpc]) hm)
  | enter | leave | ready | unready | goOn | stop | pop | ctx | accept | reject | receive | drained | body
  | free => exact .same rfl

theorem mutexStep (i : Side) {a : Act} {s s' : State P} (h : step s a = some s') : MutexStep i s s' a := by
  cases a with
  | reader => exact mutexStep_reader i h
  | consumer j => exact mutexStep_consumer i (step_consumer h)
  | main => exact .same ((mainThread_leaves h).mutex i)
  | poll e => exact .same ((pollEvent_leaves h).mutex i)
  | spurious j => exact .same ((spuriousWake_leaves h).mutex i)
  | drain n =>
      obtain ⟨-, rfl⟩ := drain_eq h
      exact .same rfl
  | queueAudio accepted =>
      obtain ⟨p, f, n, -, rfl⟩ := queueAudioStep_eq h
      exact .same rfl

def Rightful (s : State P) : Prop := ∀ i t, s.mutex i = some t → t = .reader ∨ t = .consumer i

theorem thread_of_mem_locks {s : State P} {a : Act} {i : Side} (h : i ∈ locks s a) :
    thread a = .reader ∨ thread a = .consumer i := by
  cases a with
  | reader => exact Or.inl rfl
  | consumer j =>
      obtain ⟨-, rfl⟩ : consumerLocks (s.consumer j) = true ∧ i = j := by simpa [locks] using h
      exact Or.inr rfl
  | main | poll e | queueAudio b | drain n | spurious j => simp [locks] at h

theorem rightful_step {a : Act} {s s' : State P} (h : step s a = some s') (hs : Rightful s) :
    Rightful s' := by
  intro i t ht
  cases mutexStep i h with
  | same hm => exact hs i t (by rw [← hm, ht])
  | lock wants free hm =>
      rw [hm, Option.some.injEq] at ht
      rw [← ht]
      exact thread_of_mem_locks wants
  | unlock leaves hm => rw [hm] at ht; cases ht

structure Locked (s : State P) : Prop where
  reader : ∀ i, s.mutex i = some .reader ↔ producing i s.reader = true
  consumer : ∀ i, s.mutex i = some (.consumer i) ↔
    stage (s.consumer i) = .inside ∨ stage (s.consumer i) = .tested
  only : Rightful s

theorem monitor_held (i : Side) {file : List Payload} {acts : List Act} {s : State P}
    (h : Runs file acts s) : (monitor i s).Held :=
  Transition.invariant (I := fun s => (monitor i s).Held) (fun _ _ _ hs h => (monitor_step i h).held hs)
    ⟨by simp [monitor, start], by simp [monitor, start]⟩ h

theorem locked {file : List Payload} {acts : List Act} {s : State P} (h : Runs file acts s) : Locked s := by
  have honly : Rightful s := Transition.invariant (fun _ _ _ hs h => rightful_step h hs)
    (show Rightful (start P file) by intro i t h; simp [start] at h) h
  have howner : ∀ i p, (monitor i s).owner = some p ↔ ∃ t, s.mutex i = some t ∧ party t = p := by
    intro i p
    simp [monitor]
  refine ⟨fun i => ?_, fun i => ?_, honly⟩
  · constructor
    · intro hm
      exact (monitor_held i h).producer ((howner i _).mpr ⟨_, hm, rfl⟩)
    · intro hp
      obtain ⟨t, ht, hparty⟩ := (howner i _).mp ((monitor_sound i h).producer hp)
      rcases honly i t ht with rfl | rfl
      · exact ht
      · cases hparty
  · constructor
    · intro hm
      exact (monitor_held i h).consumer ((howner i _).mpr ⟨_, hm, rfl⟩)
    · intro hst
      obtain ⟨t, ht, hparty⟩ := (howner i _).mp ((monitor_sound i h).consumer hst)
      rcases honly i t ht with rfl | rfl
      · cases hparty
      · exact ht

structure PopReady (i : Side) (s : State P) : Prop where
  breakTest : s.consumer i = .breakTest → s.queue i ≠ [] ∨ s.quit = true
  pop : s.consumer i = .pop → s.queue i ≠ []

theorem queue_ne_nil_step {a : Act} {s s' : State P} (h : step s a = some s') {i : Side}
    (ha : a ≠ .consumer i) (hq : s.queue i ≠ []) : s'.queue i ≠ [] := by
  rcases step_queue h i with he | ⟨-, p, -, he⟩ | ⟨hc, -⟩
  · rwa [he]
  · simp [he]
  · exact absurd hc ha

theorem popReady_consumerThread {i : Side} {onFrame : AVFrame → FramePc i} {s s' : State P}
    (h : consumerThread i true onFrame s = some s') (hs : PopReady i s) : PopReady i s' := by
  cases consumerThread_move h with
  | ready hpc hready => exact ⟨fun _ => hready, by simp⟩
  | goOn hpc hmore =>
      refine ⟨by simp, fun _ => ?_⟩
      rcases hs.breakTest hpc with hq | hq
      · exact hq
      · exact fun he => hmore ⟨hq, he⟩
  | body p k o next => constructor <;> cases next <;> simp [afterFrame]
  | enter | leave | lock | unready | block | stop | breakUnlock | pop | unlock | ctx | accept | reject
  | receive | drained | free => constructor <;> simp

theorem popReady_step {a : Act} {s s' : State P} (h : step s a = some s') (i : Side)
    (hs : PopReady i s) : PopReady i s' := by
  by_cases ha : a = .consumer i
  · subst ha
    exact popReady_consumerThread (step_consumer h) hs
  · have hquit : s.quit = true → s'.quit = true := by
      intro hq
      rcases step_quit h with he | ⟨he, -⟩
      · rw [he, hq]
      · exact he
    have hsame : s'.consumer i = .breakTest ∨ s'.consumer i = .pop → s'.consumer i = s.consumer i := by
      intro hpc
      by_cases hq : ∃ b, a = .queueAudio b
      · obtain ⟨b, rfl⟩ := hq
        obtain ⟨p, f, n, -, rfl⟩ := queueAudioStep_eq h
        cases i with
        | audio => simp at hpc
        | video => rfl
      · rcases step_consumer_of_ne h ha (fun b hb => hq ⟨b, hb⟩) with he | he
        · exact he
        · rw [he] at hpc ⊢
          cases hc : s.consumer i <;> simp_all [ConsumerPc.woken]
    constructor
    · intro hpc
      have hsame := hsame (Or.inl hpc)
      rw [hpc] at hsame
      exact (hs.breakTest hsame.symm).imp (queue_ne_nil_step h ha) hquit
    · intro hpc
      have hsame := hsame (Or.inr hpc)
      rw [hpc] at hsame
      exact queue_ne_nil_step h ha (hs.pop hsame.symm)

theorem popReady {file : List Payload} {acts : List Act} {s : State P} (h : Runs file acts s) (i : Side) :
    PopReady i s :=
  Transition.invariant (I := PopReady i) (fun _ _ _ hs h => popReady_step h i hs)
    ⟨by simp [start], by simp [start]⟩ h

/-- Queues are only looked at and changed under their mutex, a mutex is only
unlocked by the thread that holds it and never locked by it again, and front
and pop never meet an empty queue. -/
structure Disciplined (s : State P) : Prop where
  touches : ∀ a, ∀ i ∈ touches s a, s.mutex i = some (thread a)
  changes : ∀ a i s', step s a = some s' → s'.queue i ≠ s.queue i → s.mutex i = some (thread a)
  unlocks : ∀ a, ∀ i ∈ unlocks s a, s.mutex i = some (thread a)
  locks : ∀ a, ∀ i ∈ locks s a, s.mutex i ≠ some (thread a)
  pop : ∀ i, s.consumer i = .pop → s.queue i ≠ []

theorem Locked.touches {s : State P} (hl : Locked s) {a : Act} {i : Side} (hi : i ∈ touches s a) :
    s.mutex i = some (thread a) := by
  cases a with
  | reader =>
      rw [thread, hl.reader]
      cases hpc : s.reader <;> simp_all [Locking.touches, producing]
  | consumer j =>
      obtain rfl : i = j := by
        simp only [Locking.touches] at hi
        split at hi <;> simp_all
      rw [thread, hl.consumer]
      cases hpc : s.consumer i <;> simp_all [Locking.touches, stage]
  | main | poll e | queueAudio b | drain n | spurious j => simp [Locking.touches] at hi

theorem Locked.unlocks {s : State P} (hl : Locked s) {a : Act} {i : Side} (hi : i ∈ unlocks s a) :
    s.mutex i = some (thread a) := by
  cases a with
  | reader =>
      rw [thread, hl.reader]
      cases hpc : s.reader <;> simp_all [Locking.unlocks, producing]
  | consumer j =>
      obtain rfl : i = j := by
        simp only [Locking.unlocks] at hi
        split at hi <;> simp_all
      rw [thread, hl.consumer]
      cases hpc : s.consumer i <;> simp_all [Locking.unlocks, stage]
  | main | poll e | queueAudio b | drain n | spurious j => simp [Locking.unlocks] at hi

theorem Locked.locks {s : State P} (hl : Locked s) {a : Act} {i : Side} (hi : i ∈ locks s a) :
    s.mutex i ≠ some (thread a) := by
  cases a with
  | reader =>
      rw [thread, Ne, hl.reader]
      cases hpc : s.reader <;> simp_all [Locking.locks, readerLocks, producing]
  | consumer j =>
      obtain ⟨hc, rfl⟩ : consumerLocks (s.consumer j) = true ∧ i = j := by simpa [Locking.locks] using hi
      rw [thread, Ne, hl.consumer]
      cases hpc : s.consumer i <;> simp_all [consumerLocks, stage]
  | main | poll e | queueAudio b | drain n | spurious j => simp [Locking.locks] at hi

theorem mem_touches_of_queue_ne {a : Act} {s s' : State P} (h : step s a = some s') {i : Side}
    (hq : s'.queue i ≠ s.queue i) : i ∈ touches s a := by
  rcases step_queue h i with he | ⟨rfl, p, hpc, -⟩ | ⟨rfl, hpc, -⟩
  · exact absurd he hq
  · simp [touches, hpc]
  · simp [touches, hpc]

theorem queues_disciplined {file : List Payload} {acts : List Act} {s : State P} (h : Runs file acts s) :
    Disciplined s := by
  have hl := locked h
  exact {
    touches := fun _ _ hi => hl.touches hi
    changes := fun _ _ _ hs hq => hl.touches (mem_touches_of_queue_ne hs hq)
    unlocks := fun _ _ hi => hl.unlocks hi
    locks := fun _ _ hi => hl.locks hi
    pop := fun i => (popReady h i).pop }

def bothWanted : List Act := List.replicate 3 Act.reader ++ [.consumer .video]

theorem queues_disciplined_sample : ∃ s : State stereo, Runs [⟨1, []⟩] bothWanted s ∧
    touches s .reader = [.audio, .video] ∧ locks s (.consumer .video) = [.video] ∧ Disciplined s := by
  obtain ⟨s, hs, hp⟩ := Transition.exists_of_run_any step (start stereo [⟨1, []⟩]) bothWanted
    (fun s : State stereo => decide (touches s .reader = [.audio, .video] ∧
      locks s (.consumer .video) = [.video])) (by decide)
  obtain ⟨ht, hl⟩ := of_decide_eq_true hp
  exact ⟨s, hs, ht, hl, queues_disciplined hs⟩

end FfmpegPlayer.Locking
