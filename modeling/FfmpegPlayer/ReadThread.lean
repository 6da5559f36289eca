import FfmpegPlayer.Threads

namespace FfmpegPlayer.ReadThread

open SendReceive Media Threads

variable {P : Player}

/-- The next step of the read thread, or `none` while a mutex it wants is held
or after it has returned. -/
def readThreadFunc (s : State P) : Option (State P) :=
  match s.reader with
  | .loopTest => some { s with reader := if s.quit then .setQuit else .lockAudio }
  | .lockAudio =>
      if s.mutex .audio = none then some { s.setMutex .audio (some .reader) with reader := .lockVideo }
      else none
  | .lockVideo =>
      if s.mutex .video = none then some { s.setMutex .video (some .reader) with reader := .fullTest }
      else none
  | .fullTest =>
      let full := maxQueueSize ≤ (s.queue .audio).length ∨ maxQueueSize ≤ (s.queue .video).length
      some { s with reader := if full then .fullUnlockAudio else .unlockAudio }
  | .fullUnlockAudio => some { s.setMutex .audio none with reader := .fullUnlockVideo }
  | .fullUnlockVideo => some { s.setMutex .video none with reader := .sleep }
  | .sleep => some { s with reader := .loopTest }
  | .unlockAudio => some { s.setMutex .audio none with reader := .unlockVideo }
  | .unlockVideo => some { s.setMutex .video none with reader := .alloc }
  | .alloc =>
      some { s with reader := .read s.log.allocated, log.allocated := s.log.allocated + 1 }
  | .read a =>
      match s.input with
      | [] => some { s with reader := .freeEof a }
      | x :: xs =>
          some { s with reader := .route ⟨a, x⟩, input := xs, log.reads := s.log.reads ++ [⟨a, x⟩] }
  | .freeEof a => some { s.freed a with reader := .setQuit }
  | .route p =>
      some { s with reader := match P.route p.payload with
        | some i => .lock i p
        | none => .freeOther p }
  | .lock i p =>
      if s.mutex i = none then some { s.setMutex i (some .reader) with reader := .push i p } else none
  | .push i p => some { s.setQueue i (s.queue i ++ [p]) with reader := .notify i }
  | .notify i => some { s.notifyOne i with reader := .unlock i }
  | .unlock i => some { s.setMutex i none with reader := .loopTest }
  | .freeOther p => some { s.freed p.addr with reader := .loopTest }
  | .setQuit => some { s with quit := true, reader := .notifyAll .audio }
  | .notifyAll .audio => some { s.notifyAll .audio with reader := .notifyAll .video }
  | .notifyAll .video => some { s.notifyAll .video with reader := .done }
  | .done => none

inductive ReaderMove (s : State P) : State P → Prop
  | enter (before : s.reader = .loopTest) (hquit : s.quit = false) :
      ReaderMove s { s with reader := .lockAudio }
  | leave (before : s.reader = .loopTest) (hquit : s.quit = true) :
      ReaderMove s { s with reader := .setQuit }
  | lockAudio (before : s.reader = .lockAudio) (free : s.mutex .audio = none) :
      ReaderMove s { s.setMutex .audio (some .reader) with reader := .lockVideo }
  | lockVideo (before : s.reader = .lockVideo) (free : s.mutex .video = none) :
      ReaderMove s { s.setMutex .video (some .reader) with reader := .fullTest }
  | full (i : Side) (before : s.reader = .fullTest) (hfull : maxQueueSize ≤ (s.queue i).length) :
      ReaderMove s { s with reader := .fullUnlockAudio }
  | room (before : s.reader = .fullTest) (hroom : ∀ i, (s.queue i).length < maxQueueSize) :
      ReaderMove s { s with reader := .unlockAudio }
  | fullUnlockAudio (before : s.reader = .fullUnlockAudio) :
      ReaderMove s { s.setMutex .audio none with reader := .fullUnlockVideo }
  | fullUnlockVideo (before : s.reader = .fullUnlockVideo) :
      ReaderMove s { s.setMutex .video none with reader := .sleep }
  | sleep (before : s.reader = .sleep) :
      ReaderMove s { s with reader := .loopTest }
  | unlockAudio (before : s.reader = .unlockAudio) :
      ReaderMove s { s.setMutex .audio none with reader := .unlockVideo }
  | unlockVideo (before : s.reader = .unlockVideo) :
      ReaderMove s { s.setMutex .video none with reader := .alloc }
  | alloc (before : s.reader = .alloc) :
      ReaderMove s { s with
        reader := .read s.log.allocated
        log.allocated := s.log.allocated + 1 }
  | eof (a : Nat) (before : s.reader = .read a) (hinput : s.input = []) :
      ReaderMove s { s with reader := .freeEof a }
  | read (a : Nat) (x : Payload) (xs : List Payload) (before : s.reader = .read a)
      (hinput : s.input = x :: xs) :
      ReaderMove s { s with
        reader := .route ⟨a, x⟩
        input := xs
        log.reads := s.log.reads ++ [⟨a, x⟩] }
  | freeEof (a : Nat) (before : s.reader = .freeEof a) :
      ReaderMove s { s.freed a with reader := .setQuit }
  | select (i : Side) (p : AVPacket) (before : s.reader = .route p)
      (hroute : P.route p.payload = some i) :
      ReaderMove s { s with reader := .lock i p }
  | other (p : AVPacket) (before : s.reader = .route p) (hroute : P.route p.payload = none) :
      ReaderMove s { s with reader := .freeOther p }
  | lock (i : Side) (p : AVPacket) (before : s.reader = .lock i p) (free : s.mutex i = none) :
      ReaderMove s { s.setMutex i (some .reader) with reader := .push i p }
  | push (i : Side) (p : AVPacket) (before : s.reader = .push i p) :
      ReaderMove s { s.setQueue i (s.queue i ++ [p]) with reader := .notify i }
  | notify (i : Side) (before : s.reader = .notify i) :
      ReaderMove s { s.notifyOne i with reader := .unlock i }
  | unlock (i : Side) (before : s.reader = .unlock i) :
      ReaderMove s { s.setMutex i none with reader := .loopTest }
  | freeOther (p : AVPacket) (before : s.reader = .freeOther p) :
      ReaderMove s { s.freed p.addr with reader := .loopTest }
  | setQuit (before : s.reader = .setQuit) :
      ReaderMove s { s with quit := true, reader := .notifyAll .audio }
  | notifyAudio (before : s.reader = .notifyAll .audio) :
      ReaderMove s { s.notifyAll .audio with reader := .notifyAll .video }
  | notifyVideo (before : s.reader = .notifyAll .video) :
      ReaderMove s { s.notifyAll .video with reader := .done }

theorem readThreadFunc_move {s s' : State P} (h : readThreadFunc s = some s') : ReaderMove s s' := by
  unfold readThreadFunc at h
  cases hpc : s.reader with
  | loopTest =>
      simp only [hpc, Option.some.injEq] at h
      subst h
      split
      next hq => exact .leave hpc hq
      next hq => exact .enter hpc (by simpa using hq)
  | fullTest =>
      simp only [hpc, Option.some.injEq] at h
      subst h
      split
      next hf => exact hf.elim (.full .audio hpc) (.full .video hpc)
      next hf =>
        rw [not_or, Nat.not_le, Nat.not_le] at hf
        exact .room hpc (fun i => by cases i; exacts [hf.1, hf.2])
  | route p =>
      simp only [hpc, Option.some.injEq] at h
      subst h
      cases hr : P.route p.payload with
      | some i => exact .select i p hpc hr
      | none => exact .other p hpc hr
  | read a =>
      cases hin : s.input with
      | nil =>
          simp only [hpc, hin, Option.some.injEq] at h
          exact h ▸ hin ▸ .eof a hpc hin
      | cons x xs =>
          simp only [hpc, hin, Option.some.injEq] at h
          exact h ▸ .read a x xs hpc hin
  | lockAudio =>
      simp only [hpc, Option.ite_none_right_eq_some, Option.some.injEq] at h
      exact h.2 ▸ .lockAudio hpc h.1
  | lockVideo =>
      simp only [hpc, Option.ite_none_right_eq_some, Option.some.injEq] at h
      exact h.2 ▸ .lockVideo hpc h.1
  | lock i p =>
      simp only [hpc, Option.ite_none_right_eq_some, Option.some.injEq] at h
      exact h.2 ▸ .lock i p hpc h.1
  | fullUnlockAudio => simp only [hpc, Option.some.injEq] at h; exact h ▸ .fullUnlockAudio hpc
  | fullUnlockVideo => simp only [hpc, Option.some.injEq] at h; exact h ▸ .fullUnlockVideo hpc
  | sleep => simp only [hpc, Option.some.injEq] at h; exact h ▸ .sleep hpc
  | unlockAudio => simp only [hpc, Option.some.injEq] at h; exact h ▸ .unlockAudio hpc
  | unlockVideo => simp only [hpc, Option.some.injEq] at h; exact h ▸ .unlockVideo hpc
  | alloc => simp only [hpc, Option.some.injEq] at h; exact h ▸ .alloc hpc
  | freeEof a => simp only [hpc, Option.some.injEq] at h; exact h ▸ .freeEof a hpc
  | push i p => simp only [hpc, Option.some.injEq] at h; exact h ▸ .push i p hpc
  | notify i => simp only [hpc, Option.some.injEq] at h; exact h ▸ .notify i hpc
  | unlock i => simp only [hpc, Option.some.injEq] at h; exact h ▸ .unlock i hpc
  | freeOther p => simp only [hpc, Option.some.injEq] at h; exact h ▸ .freeOther p hpc
  | setQuit => simp only [hpc, Option.some.injEq] at h; exact h ▸ .setQuit hpc
  | notifyAll i =>
      cases i with
      | audio => simp only [hpc, Option.some.injEq] at h; exact h ▸ .notifyAudio hpc
      | video => simp only [hpc, Option.some.injEq] at h; exact h ▸ .notifyVideo hpc
  | done => simp [hpc] at h

structure ReaderStep (s s' : State P) : Prop where
  main : s'.main = s.main
  dec : ∀ i, s'.dec i = s.dec i
  out : s'.out = s.out
  calls : ∀ i, s'.log.calls i = s.log.calls i
  consumer : ∀ i, s'.consumer i = s.consumer i ∨ s'.consumer i = (s.consumer i).woken
  quit : s'.quit = s.quit ∨ (s.reader = .setQuit ∧ s'.quit = true)
  queue : ∀ i, s'.queue i = s.queue i ∨
    ∃ p, s.reader = .push i p ∧ s'.queue i = s.queue i ++ [p]

theorem readThreadFunc_step {s s' : State P} (h : readThreadFunc s = some s') : ReaderStep s s' := by
  cases readThreadFunc_move h with
  | push j p hpc =>
      refine ⟨rfl, fun _ => rfl, rfl, fun _ => rfl, fun _ => .inl rfl, .inl rfl, fun i => ?_⟩
      by_cases hi : i = j
      · subst hi
        exact Or.inr ⟨p, hpc, by simp⟩
      · exact Or.inl (by simp [hi])
  | setQuit hpc => constructor <;> simp [hpc]
  | _ => constructor <;> simp [update_woken_or]

end FfmpegPlayer.ReadThread
