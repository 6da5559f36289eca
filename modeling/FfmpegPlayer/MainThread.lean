import FfmpegPlayer.Threads

namespace FfmpegPlayer.MainThread

open Media Threads

variable {P : Player}

inductive Event
  | none
  | other
  | quit
deriving DecidableEq, Repr

def pollEvent (e : Event) (s : State P) : Option (State P) :=
  match s.main with
  | .poll => some { s with main := match e with
      | .none => .delay
      | .other => .poll
      | .quit => .setQuit }
  | _ => Option.none

def mainThread (s : State P) : Option (State P) :=
  match s.main with
  | .loopTest => some { s with main := if s.quit then .joinReader else .poll }
  | .poll => none
  | .setQuit => some { s with quit := true, main := .notifyAll .audio }
  | .notifyAll .audio => some { s.notifyAll .audio with main := .notifyAll .video }
  | .notifyAll .video => some { s.notifyAll .video with main := .delay }
  | .delay => some { s with main := .loopTest }
  | .joinReader => if s.reader = .done then some { s with main := .join .audio } else none
  | .join .audio => if s.consumer .audio = .done then some { s with main := .join .video } else none
  | .join .video =>
      if s.consumer .video = .done then some { s with main := .cleanup cleanupCalls } else none
  | .cleanup [] => some { s with main := .returned }
  | .cleanup (c :: calls) =>
      some { (if c = .freePkt then s.freed 0 else s) with main := .cleanup calls }
  | .returned => none

theorem pollEvent_eq {e : Event} {s s' : State P} : pollEvent e s = some s' →
    s.main = .poll ∧ s' = { s with main := match e with
      | .none => .delay
      | .other => .poll
      | .quit => .setQuit } := by
  intro h
  unfold pollEvent at h
  split at h
  next hpc => exact ⟨hpc, (Option.some.inj h).symm⟩
  next => simp at h

theorem pollEvent_leaves {e : Event} {s s' : State P} (h : pollEvent e s = some s') :
    LeavesPackets s s' := by
  obtain ⟨-, rfl⟩ := pollEvent_eq h
  constructor <;> simp

inductive MainMove (s : State P) : State P → Prop
  | goOn (before : s.main = .loopTest) (hquit : s.quit = false) :
      MainMove s { s with main := .poll }
  | leave (before : s.main = .loopTest) (hquit : s.quit = true) :
      MainMove s { s with main := .joinReader }
  | setQuit (before : s.main = .setQuit) :
      MainMove s { s with quit := true, main := .notifyAll .audio }
  | notifyAudio (before : s.main = .notifyAll .audio) :
      MainMove s { s.notifyAll .audio with main := .notifyAll .video }
  | notifyVideo (before : s.main = .notifyAll .video) :
      MainMove s { s.notifyAll .video with main := .delay }
  | delay (before : s.main = .delay) :
      MainMove s { s with main := .loopTest }
  | joinReader (before : s.main = .joinReader) (hdone : s.reader = .done) :
      MainMove s { s with main := .join .audio }
  | joinAudio (before : s.main = .join .audio) (hdone : s.consumer .audio = .done) :
      MainMove s { s with main := .join .video }
  | joinVideo (before : s.main = .join .video) (hdone : s.consumer .video = .done) :
      MainMove s { s with main := .cleanup cleanupCalls }
  | freePkt (calls : List Cleanup) (before : s.main = .cleanup (.freePkt :: calls)) :
      MainMove s { s.freed 0 with main := .cleanup calls }
  | cleanup (c : Cleanup) (calls : List Cleanup) (before : s.main = .cleanup (c :: calls))
      (hc : c ≠ .freePkt) :
      MainMove s { s with main := .cleanup calls }
  | finish (before : s.main = .cleanup []) :
      MainMove s { s with main := .returned }

theorem mainThread_move {s s' : State P} (h : mainThread s = some s') : MainMove s s' := by
  unfold mainThread at h
  cases hpc : s.main with
  | loopTest =>
      simp only [hpc, Option.some.injEq] at h
      subst h
      split
      next hq => exact .leave hpc hq
      next hq => exact .goOn hpc (by simpa using hq)
  | setQuit => simp only [hpc, Option.some.injEq] at h; exact h ▸ .setQuit hpc
  | notifyAll i =>
      cases i with
      | audio => simp only [hpc, Option.some.injEq] at h; exact h ▸ .notifyAudio hpc
      | video => simp only [hpc, Option.some.injEq] at h; exact h ▸ .notifyVideo hpc
  | delay => simp only [hpc, Option.some.injEq] at h; exact h ▸ .delay hpc
  | joinReader =>
      simp only [hpc, Option.ite_none_right_eq_some, Option.some.injEq] at h
      exact h.2 ▸ .joinReader hpc h.1
  | join i =>
      cases i with
      | audio =>
          simp only [hpc, Option.ite_none_right_eq_some, Option.some.injEq] at h
          exact h.2 ▸ .joinAudio hpc h.1
      | video =>
          simp only [hpc, Option.ite_none_right_eq_some, Option.some.injEq] at h
          exact h.2 ▸ .joinVideo hpc h.1
  | cleanup calls =>
      cases calls with
      | nil => simp only [hpc, Option.some.injEq] at h; exact h ▸ .finish hpc
      | cons c calls =>
          simp only [hpc, Option.some.injEq] at h
          subst h
          by_cases hc : c = .freePkt
          · subst hc
            exact .freePkt calls hpc
          · simp only [hc, if_false]
            exact .cleanup c calls hpc hc
  | poll | returned => simp [hpc] at h

theorem mainThread_leaves {s s' : State P} (h : mainThread s = some s') : LeavesPackets s s' := by
  cases mainThread_move h with
  | setQuit hpc => constructor <;> simp [hpc]
  | _ => constructor <;> simp [update_woken_or]

end FfmpegPlayer.MainThread
