import FfmpegPlayer.PacketFlow
import FfmpegPlayer.QueueBound
import FfmpegPlayer.DeviceQueue

namespace FfmpegPlayer.LivePackets

open SendReceive Media Threads ReadThread ConsumerThreads MainThread Interleaving
open PacketFlow QueueBound Stall DeviceQueue

variable {P : Player}

def onTheWay (s : State P) : Nat :=
  (s.queue .audio).length + (s.queue .video).length + (readerHeld s.reader).card

/-- A push fills one queue at most: the reader goes for a packet only with room in both. -/
structure Room (s : State P) : Prop where
  bounded : Bounded s
  few : onTheWay s < 2 * maxQueueSize

theorem room_readThreadFunc {s s' : State P} (h : readThreadFunc s = some s') (hs : Room s) :
    onTheWay s' < 2 * maxQueueSize := by
  have hw := hs.few
  rw [onTheWay] at hw ⊢
  cases readThreadFunc_move h with
  | alloc hpc =>
      have hA := hs.bounded.room (by rw [hpc]; rfl) .audio
      have hV := hs.bounded.room (by rw [hpc]; rfl) .video
      simp only [readerHeld, Multiset.card_singleton]
      omega
  | push i p hpc =>
      simp only [hpc, readerHeld, Multiset.card_singleton] at hw
      cases i with
      | audio => simp [readerHeld]; omega
      | video => simp [readerHeld]; omega
  | enter hpc | leave hpc | lockAudio hpc | lockVideo hpc | full j hpc | room hpc | fullUnlockAudio hpc
  | fullUnlockVideo hpc | sleep hpc | unlockAudio hpc | unlockVideo hpc | eof a hpc | read a x xs hpc
  | select j p hpc | other p hpc | lock j p hpc | notify j hpc | unlock j hpc | setQuit hpc
  | notifyAudio hpc | notifyVideo hpc => simpa [hpc, readerHeld] using hw
  | freeEof a hpc | freeOther p hpc =>
      simp only [hpc, readerHeld, Multiset.card_singleton] at hw
      simp only [State.freed_queue, readerHeld, Multiset.card_zero]
      omega

theorem room_step {a : Act} {s s' : State P} (h : step s a = some s') (hs : Room s) : Room s' := by
  refine ⟨bounded_step h hs.bounded, ?_⟩
  by_cases ha : a = .reader
  · subst ha
    exact room_readThreadFunc h hs
  · have hA := queue_length_le h ha .audio
    have hV := queue_length_le h ha .video
    have hw := hs.few
    rw [onTheWay] at hw ⊢
    rw [(step_leavesReader h ha).reader]
    omega

theorem room {file : List Payload} {acts : List Act} {s : State P} (h : Runs file acts s) : Room s :=
  Transition.invariant (I := Room) (fun _ _ _ hs h => room_step h hs)
    ⟨⟨by simp [start], by simp [start, cleared]⟩, by simp [onTheWay, start, readerHeld, maxQueueSize]⟩ h

theorem card_consumerHeld {i : Side} (pc : ConsumerPc i) : (consumerHeld pc).card ≤ 1 := by
  cases pc <;> simp [consumerHeld]

def FreesOnce (m : MainPc) : Prop := ∀ calls, m = .cleanup calls → calls.count .freePkt ≤ 1

theorem freesOnce_step {a : Act} {s s' : State P} (h : step s a = some s') (hs : FreesOnce s.main) :
    FreesOnce s'.main := by
  by_cases ha : a = .main
  · subst ha
    cases mainThread_move h with
    | joinVideo => exact fun calls hc => by cases hc; decide
    | freePkt rest hpc =>
        intro calls hc
        cases hc
        have honce := hs _ hpc
        rw [List.count_cons_self] at honce
        omega
    | cleanup c rest hpc hne =>
        intro calls hc
        cases hc
        exact (List.count_le_count_cons).trans (hs _ hpc)
    | goOn | leave | setQuit | notifyAudio | notifyVideo | delay | joinReader | joinAudio | finish =>
        simp [FreesOnce]
  · by_cases hpoll : ∃ e, a = .poll e
    · obtain ⟨e, rfl⟩ := hpoll
      obtain ⟨-, rfl⟩ := pollEvent_eq h
      cases e <;> simp [FreesOnce]
    · rwa [step_main_of_ne h ha (fun e he => hpoll ⟨e, he⟩)]

theorem card_mainHeld {file : List Payload} {acts : List Act} {s : State P} (h : Runs file acts s) :
    (mainHeld s.main).card ≤ 1 := by
  have hown : FreesOnce s.main := Transition.invariant (I := fun s : State P => FreesOnce s.main)
    (fun _ _ _ hs h => freesOnce_step h hs) (by simp [start, FreesOnce]) h
  cases hm : s.main with
  | cleanup calls => simpa [mainHeld] using hown calls hm
  | loopTest | poll | setQuit | notifyAll | delay | joinReader | join | returned => simp [mainHeld]

theorem card_owned (s : State P) : (ledger s).owned.card = (mainHeld s.main).card + onTheWay s +
    (consumerHeld (s.consumer .audio)).card + (consumerHeld (s.consumer .video)).card := by
  simp only [ledger, owners, laneHeld, queueHeld, Multiset.card_add, Multiset.coe_card, List.length_map,
    onTheWay]
  omega

/-- However long the file and however slow the decoders, the packets allocated
and not yet freed never number more than two for each place in a queue and two. -/
theorem live_packets_le {file : List Payload} {acts : List Act} {s : State P} (h : Runs file acts s) :
    s.log.allocated ≤ s.log.freed.length + (2 * maxQueueSize + 2) := by
  have hcard := congrArg Multiset.card (ledger_balanced h)
  rw [Multiset.card_add, Multiset.card_range, card_owned] at hcard
  have hfreed : (ledger s).freed.card = s.log.freed.length := rfl
  have hallocated : (ledger s).allocated = s.log.allocated := rfl
  have hmain := card_mainHeld h
  have hA := card_consumerHeld (s.consumer .audio)
  have hV := card_consumerHeld (s.consumer .video)
  have hroom := (room h).few
  omega

/-- The reader on its own moves the next packets of the file, all of one
stream, into their queue. -/
theorem reader_moves {i : Side} (xs rest : List Payload) (hx : ∀ x ∈ xs, P.route x = some i) {s : State P}
    (hr : s.reader = .loopTest) (hq : s.quit = false) (hm : ∀ j, s.mutex j = none)
    (hroom : ∀ j, j ≠ i → (s.queue j).length < maxQueueSize)
    (hn : (s.queue i).length + xs.length ≤ maxQueueSize) (hin : s.input = xs ++ rest)
    (hw : (s.consumer i).woken = s.consumer i) :
    ∃ acts t, Transition.run step s acts = some t ∧ t.reader = .loopTest ∧ t.quit = false ∧
      t.mutex = s.mutex ∧ (t.queue i).length = (s.queue i).length + xs.length ∧
      (∀ j, j ≠ i → t.queue j = s.queue j) ∧ t.input = rest ∧ t.consumer = s.consumer ∧
      t.log.allocated = s.log.allocated + xs.length ∧ t.log.freed = s.log.freed := by
  induction xs generalizing s with
  | nil => exact ⟨[], s, rfl, hr, hq, rfl, rfl, fun _ _ => rfl, hin, rfl, rfl, rfl⟩
  | cons x xs ih =>
      have hroom' : ∀ j, (s.queue j).length < maxQueueSize := by
        intro j
        by_cases hj : j = i
        · subst hj
          rw [List.length_cons] at hn
          omega
        · exact hroom j hj
      have hpush := reader_pushes hr hq hm hroom' hin (hx x (by simp)) hw
      obtain ⟨acts, t, ht, htr, htq, htm, htl, hto, hti, htc, hta, htf⟩ := ih
        (fun y hy => hx y (by simp [hy])) (s := { s with
          queue := Function.update s.queue i (s.queue i ++ [⟨s.log.allocated, x⟩])
          input := xs ++ rest
          log.allocated := s.log.allocated + 1
          log.reads := s.log.reads ++ [⟨s.log.allocated, x⟩] }) hr hq hm
        (fun j hj => by simpa [hj] using hroom j hj)
        (by simpa [Nat.add_assoc, Nat.add_comm 1] using hn) rfl hw
      refine ⟨_, t, Transition.run_trans hpush ht, htr, htq, htm, ?_, fun j hj => ?_, hti, htc, ?_, htf⟩
      · rw [htl]
        simp
        omega
      · rw [hto j hj]
        simp [hj]
      · rw [hta, List.length_cons]
        exact Nat.add_right_comm _ _ _

def longFile : List Payload :=
  [⟨1, []⟩, ⟨0, []⟩] ++ (List.replicate 199 ⟨0, []⟩ ++ List.replicate 200 ⟨1, []⟩)

theorem bothTake_runs : ∃ s : State stereo,
    Runs longFile (List.replicate 26 Act.reader ++ (List.replicate 7 (Act.consumer .audio) ++
      List.replicate 7 (Act.consumer .video))) s ∧
    s.reader = .loopTest ∧ s.quit = false ∧ (∀ j, s.mutex j = none) ∧ (∀ j, s.queue j = []) ∧
    s.input = List.replicate 199 ⟨0, []⟩ ++ List.replicate 200 ⟨1, []⟩ ∧
    (∀ j, (s.consumer j).woken = s.consumer j) ∧ s.log.allocated = 3 ∧ s.log.freed = [] := by
  refine ⟨_, rfl, rfl, rfl, fun j => ?_, fun j => ?_, rfl, fun j => ?_, rfl, rfl⟩ <;> cases j <;> rfl

/-- The bound is reached: both queues are as full as they get while both
decoders work on a packet. -/
theorem bound_reached : ∃ acts, ∃ s : State stereo, Runs longFile acts s ∧
    s.log.allocated = s.log.freed.length + (2 * maxQueueSize + 2) := by
  obtain ⟨s, hs, hr, hq, hm, hqueue, hin, hw, ha, hf⟩ := bothTake_runs
  obtain ⟨acts₁, t, ht, htr, htq, htm, htl, hto, hti, htc, hta, htf⟩ := reader_moves
    (i := .video) (List.replicate 199 ⟨0, []⟩) (List.replicate 200 ⟨1, []⟩)
    (fun x hx => by rw [List.eq_of_mem_replicate hx]; rfl) hr hq hm
    (fun j _ => by rw [hqueue]; decide) (by rw [hqueue, List.length_replicate]; decide) hin (hw .video)
  obtain ⟨acts₂, u, hu, -, -, -, -, -, -, -, hua, huf⟩ := reader_moves
    (i := .audio) (List.replicate 200 ⟨1, []⟩) []
    (fun x hx => by rw [List.eq_of_mem_replicate hx]; rfl) htr htq (fun j => by rw [htm, hm])
    (fun j hj => by
      cases j with
      | audio => exact absurd rfl hj
      | video => rw [htl, hqueue, List.length_replicate]; decide)
    (by rw [hto .audio (by decide), hqueue, List.length_replicate]; decide) (by rw [hti, List.append_nil]) (by rw [htc, hw])
  have hruns : Runs longFile _ u := Transition.run_trans (Transition.run_trans hs ht) hu
  refine ⟨_, u, hruns, ?_⟩
  rw [hua, hta, ha, huf, htf, hf, List.length_replicate, List.length_replicate]
  rfl

theorem live_packets_sample : ∃ acts, ∃ s : State stereo, Runs longFile acts s ∧
    s.log.allocated = s.log.freed.length + (2 * maxQueueSize + 2) ∧
    s.log.allocated ≤ s.log.freed.length + (2 * maxQueueSize + 2) := by
  obtain ⟨acts, s, hs, hbound⟩ := bound_reached
  exact ⟨acts, s, hs, hbound, live_packets_le hs⟩

end FfmpegPlayer.LivePackets
