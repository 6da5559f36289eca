import Mathlib.Data.List.Basic

namespace FfmpegPlayer.CondVar

variable {τ : Type*}

inductive Party
  | producer
  | consumer
deriving DecidableEq

/-- Where the consumer stands. `tested` lies between a test that found no item
and the release of the mutex, `asleep` is a place in the waiter set. -/
inductive Stage
  | outside
  | inside
  | tested
  | asleep
deriving DecidableEq

def Stage.woken : Stage → Stage
  | .asleep => .outside
  | st => st

/-- A queue behind a mutex and a condition variable. `producing` tells whether
the producer is in its critical section, `owed` whether it has put an item and
notified nobody since. -/
structure Monitor (τ : Type*) where
  owner : Option Party
  items : List τ
  producing : Bool
  owed : Bool
  stage : Stage

inductive Monitor.Step : Monitor τ → Monitor τ → Prop
  | idle (m) : Step m m
  | enter (m) (free : m.owner = none) :
      Step m { m with owner := some .producer, producing := true }
  | put (m t) (hin : m.producing = true) :
      Step m { m with items := m.items ++ [t], owed := true }
  | notify (m) (hin : m.producing = true) :
      Step m { m with owed := false, stage := m.stage.woken }
  | leave (m) (hin : m.producing = true) (paid : m.owed = false) :
      Step m { m with owner := none, producing := false }
  | wake (m) : Step m { m with stage := m.stage.woken }
  | lock (m) (free : m.owner = none) (hout : m.stage = .outside) :
      Step m { m with owner := some .consumer, stage := .inside }
  | test (m) (hin : m.stage = .inside) (hempty : m.items = []) :
      Step m { m with stage := .tested }
  | sleep (m) (htested : m.stage = .tested) :
      Step m { m with owner := none, stage := .asleep }
  | take (m t ts) (hin : m.stage = .inside) (hitems : m.items = t :: ts) :
      Step m { m with items := ts }
  | unlock (m) (hin : m.stage = .inside) :
      Step m { m with owner := none, stage := .outside }

/-- At most one party is in its critical section, and a consumer sleeps over
an item only while the producer still owes the notification. -/
structure Monitor.Sound (m : Monitor τ) : Prop where
  producer : m.producing = true → m.owner = some .producer
  consumer : m.stage = .inside ∨ m.stage = .tested → m.owner = some .consumer
  owed : m.owed = true → m.producing = true
  tested : m.stage = .tested → m.items = []
  asleep : m.stage = .asleep → m.items = [] ∨ m.owed = true

variable {m m' : Monitor τ}

theorem Stage.woken_ne_asleep (st : Stage) : st.woken ≠ .asleep := by
  cases st <;> simp [Stage.woken]

theorem Stage.of_woken {st target : Stage} (h : st.woken = target) (ht : target ≠ .outside) :
    st = target := by
  cases st <;> simp_all [Stage.woken]

theorem Monitor.Sound.not_inside (hm : m.Sound) (h : m.owner ≠ some .consumer) :
    ¬ (m.stage = .inside ∨ m.stage = .tested) :=
  fun hs => h (hm.consumer hs)

theorem Monitor.Sound.not_producing (hm : m.Sound) (h : m.owner ≠ some .producer) :
    m.producing = false := by
  cases hp : m.producing with
  | false => rfl
  | true => exact absurd (hm.producer hp) h

theorem Monitor.Sound.woken (hm : m.Sound) (b : Bool) (hb : b = true → m.owed = true) :
    Monitor.Sound { m with owed := b, stage := m.stage.woken } := by
  constructor
  · exact hm.producer
  · intro hs
    refine hm.consumer (hs.imp (fun h => ?_) (fun h => ?_))
    · exact Stage.of_woken h (by simp)
    · exact Stage.of_woken h (by simp)
  · exact fun h => hm.owed (hb h)
  · exact fun h => hm.tested (Stage.of_woken h (by simp))
  · exact fun h => absurd h (Stage.woken_ne_asleep _)

theorem Monitor.Step.sound (h : Monitor.Step m m') (hm : m.Sound) : m'.Sound := by
  cases h with
  | idle => exact hm
  | enter free =>
      have hout := hm.not_inside (by rw [free]; simp)
      exact ⟨fun _ => rfl, fun hs => absurd hs hout, fun _ => rfl, hm.tested, hm.asleep⟩
  | put t hin =>
      have hout := hm.not_inside (by rw [hm.producer hin]; simp)
      exact ⟨hm.producer, hm.consumer, fun _ => hin, fun hs => absurd (Or.inr hs) hout,
        fun _ => Or.inr rfl⟩
  | notify hin => exact hm.woken false (by simp)
  | leave hin paid =>
      have hout := hm.not_inside (by rw [hm.producer hin]; simp)
      refine ⟨by simp, fun hs => absurd hs hout, fun ho => ?_, hm.tested, hm.asleep⟩
      rw [paid] at ho
      cases ho
  | wake => exact hm.woken m.owed id
  | lock free hout =>
      have hp := hm.not_producing (by rw [free]; simp)
      refine ⟨fun h => ?_, fun _ => rfl, hm.owed, by simp, by simp⟩
      rw [hp] at h
      cases h
  | test hin hempty =>
      exact ⟨hm.producer, fun _ => hm.consumer (Or.inl hin), hm.owed, fun _ => hempty, by simp⟩
  | sleep htested =>
      have hp := hm.not_producing (by rw [hm.consumer (Or.inr htested)]; simp)
      refine ⟨fun h => ?_, by simp, hm.owed, by simp, fun _ => Or.inl (hm.tested htested)⟩
      rw [hp] at h
      cases h
  | take t ts hin hitems =>
      refine ⟨hm.producer, hm.consumer, hm.owed, fun hs => ?_, fun hs => ?_⟩
      · rw [hin] at hs; cases hs
      · rw [hin] at hs; cases hs
  | unlock hin =>
      have hp := hm.not_producing (by rw [hm.consumer (Or.inl hin)]; simp)
      refine ⟨fun h => ?_, by simp, hm.owed, by simp, by simp⟩
      rw [hp] at h
      cases h

structure Monitor.Held (m : Monitor τ) : Prop where
  producer : m.owner = some .producer → m.producing = true
  consumer : m.owner = some .consumer → m.stage = .inside ∨ m.stage = .tested

theorem Stage.woken_of_inside {st : Stage} (h : st = .inside ∨ st = .tested) : st.woken = st := by
  rcases h with rfl | rfl <;> rfl

theorem Monitor.Held.woken (hm : m.Held) (b : Bool) :
    Monitor.Held { m with owed := b, stage := m.stage.woken } := by
  refine ⟨hm.producer, fun ho => ?_⟩
  have hs := hm.consumer ho
  rwa [← Stage.woken_of_inside hs] at hs

theorem Monitor.Step.held (h : Monitor.Step m m') (hm : m.Held) : m'.Held := by
  cases h with
  | idle | put | take => exact ⟨hm.producer, hm.consumer⟩
  | notify hin => exact hm.woken false
  | wake => exact hm.woken m.owed
  | enter free => exact ⟨fun _ => rfl, by simp⟩
  | lock free hout => exact ⟨by simp, fun _ => Or.inl rfl⟩
  | test hin hempty => exact ⟨hm.producer, fun _ => Or.inr rfl⟩
  | leave | sleep | unlock => exact ⟨by simp, by simp⟩

/-- No lost wake-up: an item behind a sleeping consumer is one that the
producer has just put, still inside its critical section. -/
theorem Monitor.Sound.empty_or_owed (hm : m.Sound) (h : m.stage = .asleep) :
    m.items = [] ∨ (m.owner = some .producer ∧ m.owed = true) :=
  (hm.asleep h).imp_right (fun ho => ⟨hm.producer (hm.owed ho), ho⟩)

end FfmpegPlayer.CondVar
