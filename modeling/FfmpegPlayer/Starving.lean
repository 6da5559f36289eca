import FfmpegPlayer.Stall
import FfmpegPlayer.Termination
import Mathlib.Data.Prod.Lex
import Mathlib.Order.WithBot

namespace FfmpegPlayer.Starving

open SendReceive Media Threads ReadThread ConsumerThreads MainThread Interleaving
open PacketFlow Packets Leaving Wakeups Locking Deadlock AudioClock Decoding Playback SequentialLoop
open Termination Stall

variable {P : Player}

/-- What get_audio_clock returns once the device has played all that has been counted. -/
def allPlayed (o : Output P) : ℚ := P.getAudioClock o.audioWrittenBytes (P.queuedAudioSize 0)

theorem clock_of_drained {o : Output P} (h : o.queued = 0) : clock o = allPlayed o := by
  rw [clock, h, allPlayed]

def AudioRests (s : State P) : Prop := s.consumer .audio = .waiting ∧ s.out.queued = 0

def VideoRests (s : State P) : Prop :=
  s.consumer .video = .waiting ∨ ∃ p f v, s.consumer .video = .frame p (.delay f v) ∧ P.ahead v (clock s.out)

def calm : {i : Side} → ConsumerPc i → Bool
  | _, .waiting | _, .relock | _, .frame _ (.delay _ _) => true
  | _, _ => false

theorem calm_woken {i : Side} {pc : ConsumerPc i} (h : calm pc = true) : calm pc.woken = true := by
  cases pc with
  | waiting => rfl
  | _ => exact h

theorem AudioRests.calm {s : State P} (h : AudioRests s) : calm (s.consumer .audio) = true := by
  rw [h.1]
  rfl

theorem VideoRests.calm {s : State P} (h : VideoRests s) : calm (s.consumer .video) = true := by
  rcases h with h | ⟨p, f, v, h, -⟩ <;> rw [h] <;> rfl

/-- What the sync loop has read of the clock still holds, and no frame has left it too early. -/
def UpToDate (o : Output P) : FramePc .video → Prop
  | .clockWritten _ _ q => q = P.queuedAudioSize 0
  | .quitTest _ _ c | .compare _ _ c => c = allPlayed o
  | .scale f _ => ¬ P.ahead (P.videoPts f) (allPlayed o)
  | .update x | .clear x | .copy x | .present x => ¬ P.ahead (P.videoPts x.frame) (allPlayed o)
  | .pts _ | .clockQueued _ _ | .delay _ _ => True

def Due (o : Output P) : Prop := ∀ x ∈ o.rendered, ¬ P.ahead (P.videoPts x.frame) (allPlayed o)

theorem upToDate_frameStep {height : Int} {o o' : Output P} {k : FramePc .video} {next : Option (FramePc .video)}
    (hs : frameStep false height o k = some (o', next)) (hq : o.queued = 0)
    (ht : ∀ f v, syncing k = some (f, v) → v = P.videoPts f) (hk : UpToDate o k) (hdue : Due o) :
    (∀ k', next = some k' → UpToDate o' k') ∧ Due o' ∧ o'.queued = 0 := by
  cases frameStep_move hs with
  | pts f | delay f v => exact ⟨by rintro _ ⟨⟩; trivial, hdue, hq⟩
  | clockQueued f v => exact ⟨by rintro _ ⟨⟩; simp [UpToDate, hq], hdue, hq⟩
  | clockWritten f v q =>
      obtain rfl : q = P.queuedAudioSize 0 := hk
      exact ⟨by rintro _ ⟨⟩; rfl, hdue, hq⟩
  | quit f v c hquit => cases hquit
  | goOn f v c => exact ⟨by rintro _ ⟨⟩; exact hk, hdue, hq⟩
  | wait f v c => exact ⟨by rintro _ ⟨⟩; trivial, hdue, hq⟩
  | due f v c hle =>
      refine ⟨?_, hdue, hq⟩
      rintro _ ⟨⟩
      obtain rfl : c = allPlayed o := hk
      rwa [ht f v rfl] at hle
  | scale f c | update x | clear x | copy x => exact ⟨by rintro _ ⟨⟩; exact hk, hdue, hq⟩
  | present x =>
      refine ⟨by rintro _ ⟨⟩, fun y hy => ?_, hq⟩
      rcases List.mem_append.mp hy with hy | hy
      · exact hdue y hy
      · rw [List.mem_singleton.mp hy]
        exact hk

theorem due_frameStep {height : Int} {o o' : Output P} {k : FramePc .audio} {next : Option (FramePc .audio)}
    (hs : frameStep false height o k = some (o', next)) (hdue : Due o) : Due o' := by
  cases frameStep_move hs with
  | convert | queue | skip => exact hdue
  | count f n =>
      refine fun x hx hahead => hdue x hx (P.ahead_anti (P.getAudioClock_mono ?_ _) hahead)
      show o.audioWrittenBytes ≤ o.audioWrittenBytes + n
      omega

def going : ReaderPc → Bool
  | .freeEof _ | .setQuit | .notifyAll _ | .done | .fullUnlockAudio | .fullUnlockVideo | .sleep => false
  | _ => true

def checksRoom : ReaderPc → Bool
  | .lockAudio | .lockVideo | .fullTest => true
  | _ => false

/-- A run in which nothing is left lying: the reader goes for a packet only when
the consumers have come to rest, and the video thread goes on only when all the
sound has been played. The packets of `rest` are not read. -/
structure Prompt (rest : List Payload) (s : State P) : Prop where
  quit : s.quit = false
  main : s.main = .loopTest
  going : going s.reader = true
  left : rest.length + readsLeft s.reader ≤ s.input.length
  room : checksRoom s.reader = true → ∀ i, (s.queue i).length < maxQueueSize
  calm : s.reader ≠ .loopTest → ∀ i, calm (s.consumer i) = true
  video : ∀ k, (s.consumer .video).body = some k →
    UpToDate s.out k ∧ ((∃ f v, k = .delay f v) ∨ s.reader = .loopTest ∧ AudioRests s)
  due : Due s.out

theorem prompt_start (pre rest : List Payload) : Prompt rest (start P (pre ++ rest)) where
  quit := rfl
  main := rfl
  going := rfl
  left := by simp [start, readsLeft]
  room := by simp [start, checksRoom]
  calm := fun h => absurd rfl h
  video := fun k hk => by cases hk
  due := fun x hx => by cases hx

def readerTurn : ReaderPc → Nat
  | .route _ => 19
  | .lock _ _ => 18
  | .push _ _ => 17
  | .notify _ => 16
  | .unlock _ | .freeOther _ => 15
  | .loopTest => 13
  | .lockAudio => 12
  | .lockVideo => 11
  | .fullTest => 10
  | .unlockAudio => 9
  | .unlockVideo => 8
  | .alloc => 7
  | .read _ => 6
  | _ => 0

def bodyTurn (P : Player) (c : ℚ) : {i : Side} → FramePc i → Nat
  | _, .convert _ => 4
  | _, .size _ _ => 3
  | _, .queueAudio _ _ => 2
  | _, .count _ _ => 1
  | _, .pts _ => 11
  | _, .delay _ v => if P.ahead v c then 0 else 10
  | _, .clockQueued _ _ => 9
  | _, .clockWritten _ _ _ => 8
  | _, .quitTest _ _ _ => 7
  | _, .compare _ _ _ => 6
  | _, .scale _ _ => 5
  | _, .update _ => 4
  | _, .clear _ => 3
  | _, .copy _ => 2
  | _, .present _ => 1

/-- A packet popped may bring any number of frames, but once it has been sent
there are `left` of them at most. -/
def turn (P : Player) (left : Nat) (c : ℚ) {i : Side} : ConsumerPc i → WithTop ℕ ×ₗ ℕ
  | .unlock _ => toLex (⊤, 3)
  | .ctxTest _ => toLex (⊤, 2)
  | .send _ => toLex (⊤, 1)
  | .receive _ => toLex (((left + 1 : ℕ) : WithTop ℕ), 0)
  | .frame _ k => toLex (((left + 1 : ℕ) : WithTop ℕ), bodyTurn P c k)
  | .free _ => toLex (0, 8)
  | .loopTest => toLex (0, 7)
  | .lock | .relock => toLex (0, 6)
  | .waitTest => toLex (0, 5)
  | .breakTest => toLex (0, 4)
  | .pop => toLex (0, 3)
  | .block => toLex (0, 2)
  | .waiting | .breakUnlock => toLex (0, 1)
  | .done => toLex (0, 0)

variable (D : (i : Side) → RunsDry (P.codec i))

def consumerTurn (i : Side) (s : State P) : ℕ ×ₗ WithTop ℕ ×ₗ ℕ :=
  toLex ((s.queue i).length, turn P ((D i).left (s.dec i)) (clock s.out) (s.consumer i))

/-- The reader comes first, then the sound, then the device, and the picture last. -/
def farness (s : State P) : ℕ ×ₗ (ℕ ×ₗ WithTop ℕ ×ₗ ℕ) ×ₗ ℕ ×ₗ ℕ ×ₗ WithTop ℕ ×ₗ ℕ :=
  toLex (14 * s.input.length + readerTurn s.reader,
    toLex (consumerTurn D .audio s, toLex (s.out.queued, consumerTurn D .video s)))

def Productive (o : Output P) : {i : Side} → FramePc i → Prop
  | _, .compare _ _ c => c = clock o
  | _, .delay _ v => ¬ P.ahead v (clock o)
  | _, _ => True

theorem bodyTurn_lt {i : Side} {height : Int} {o o' : Output P} {k : FramePc i} {next : Option (FramePc i)}
    (hs : frameStep false height o k = some (o', next)) (hk : Productive o k) :
    (next.map (bodyTurn P (clock o'))).getD 0 < bodyTurn P (clock o) k := by
  cases frameStep_move hs with
  | quit f v c hquit => cases hquit
  | wait f v c hahead =>
      obtain rfl : c = clock o := hk
      simp [bodyTurn, hahead]
  | delay f v =>
      have hnot : ¬ P.ahead v (clock o) := hk
      simp [bodyTurn, hnot]
  | convert | queue | skip | count | pts | clockQueued | clockWritten | goOn | due | scale | update | clear
  | copy | present => simp [bodyTurn]

theorem consumerTurn_lt {i : Side} {s s' : State P} (h : consumerThread i true (onFrame i) s = some s')
    (hq : s.quit = false) (hk : ∀ k, (s.consumer i).body = some k → Productive s.out k) :
    consumerTurn D i s' < consumerTurn D i s := by
  cases consumerThread_move h with
  | leave hpc hquit | stop hpc hquit => rw [hq] at hquit; cases hquit
  | pop p q hpc hqueue => simp [consumerTurn, Prod.Lex.toLex_lt_toLex, hqueue]
  | lock hpc => rcases hpc with hpc | hpc <;> simp [consumerTurn, Prod.Lex.toLex_lt_toLex, turn, hpc]
  | receive p f d hpc hreceive =>
      have hlt := (D i).frame (s.dec i) (by rw [hreceive])
      rw [hreceive] at hlt
      simpa [consumerTurn, Prod.Lex.toLex_lt_toLex, turn, hpc] using hlt
  | body p k o next hpc hs =>
      rw [hq] at hs
      have hlt := bodyTurn_lt hs (hk k (by rw [hpc]; rfl))
      cases next with
      | none => simpa [consumerTurn, Prod.Lex.toLex_lt_toLex, turn, hpc, afterFrame] using hlt
      | some k' => simpa [consumerTurn, Prod.Lex.toLex_lt_toLex, turn, hpc, afterFrame] using hlt
  | enter hpc | ready hpc | unready hpc | block hpc | goOn hpc | breakUnlock hpc | unlock p hpc | ctx p hpc
  | accept p d hpc | reject p r d hpc | drained p r f d hpc | free p hpc =>
      simp [consumerTurn, Prod.Lex.toLex_lt_toLex, turn, hpc]

theorem delayed_of_calm {pc : ConsumerPc .video} {k : FramePc .video} (h : calm pc = true) (hk : pc.body = some k) :
    ∃ f v, k = .delay f v := by
  cases pc with
  | frame p k' =>
      cases hk
      cases k with
      | delay f v => exact ⟨f, v, rfl⟩
      | _ => cases h
  | _ => cases hk

section Advance

variable {rest file : List Payload} {acts : List Act} {s : State P}

theorem mutex_free (h : Runs file acts s) {i : Side} (hr : producing i s.reader = false)
    (hc : stage (s.consumer i) ≠ .inside ∧ stage (s.consumer i) ≠ .tested) : s.mutex i = none := by
  by_contra hm
  obtain ⟨t, ht⟩ := Option.ne_none_iff_exists'.mp hm
  rcases (locked h).only i t ht with rfl | rfl
  · rw [((locked h).reader i).mp ht] at hr
    cases hr
  · rcases ((locked h).consumer i).mp ht with hin | hin
    · exact hc.1 hin
    · exact hc.2 hin

/-- The reader goes on, and at the head of its loop sets out for another packet. -/
theorem advance_reader (h : Runs file acts s) (hp : Prompt rest s)
    (hround : s.reader = .loopTest → (∀ i, (s.queue i).length < maxQueueSize) ∧
      rest.length < s.input.length ∧ AudioRests s ∧ VideoRests s) :
    ∃ s', step s .reader = some s' ∧ Prompt rest s' ∧ farness D s' < farness D s := by
  have hcalm (i : Side) : calm (s.consumer i) = true := by
    by_cases hr : s.reader = .loopTest
    · obtain ⟨-, -, ha, hv⟩ := hround hr
      cases i with
      | audio => exact ha.calm
      | video => exact hv.calm
    · exact hp.calm hr i
  have hon : (step s .reader).isSome = true := by
    rw [reader_enabled_iff]
    refine ⟨fun hd => ?_, fun i hi => mutex_free h ?_ ?_⟩
    · have hg := hp.going
      rw [hd] at hg
      cases hg
    · cases hpc : s.reader <;> rw [hpc] at hi <;> cases hi <;> rfl
    · have hc := hcalm i
      cases hpc : s.consumer i <;> simp_all [calm, stage]
  obtain ⟨s', hs'⟩ := Option.isSome_iff_exists.mp hon
  have hmove : readThreadFunc s = some s' := hs'
  have hl := readThreadFunc_step hmove
  have hcalm' (i : Side) : calm (s'.consumer i) = true := by
    rcases hl.consumer i with he | he <;> rw [he]
    · exact hcalm i
    · exact calm_woken (hcalm i)
  have hvideo : ∀ k, (s'.consumer .video).body = some k →
      UpToDate s'.out k ∧ ((∃ f v, k = .delay f v) ∨ s'.reader = .loopTest ∧ AudioRests s') := by
    intro k hk
    obtain ⟨f, v, rfl⟩ := delayed_of_calm (hcalm' .video) hk
    exact ⟨trivial, .inl ⟨f, v, rfl⟩⟩
  have hdue : Due s'.out := by
    rw [hl.out]
    exact hp.due
  suffices hturn : going s'.reader = true ∧ rest.length + readsLeft s'.reader ≤ s'.input.length ∧
      (checksRoom s'.reader = true → ∀ i, (s'.queue i).length < maxQueueSize) ∧
      14 * s'.input.length + readerTurn s'.reader < 14 * s.input.length + readerTurn s.reader by
    obtain ⟨hgoing, hleft, hroom, hlt⟩ := hturn
    have hquit : s'.quit = false := by
      rcases hl.quit with hq | ⟨hset, -⟩
      · rw [hq, hp.quit]
      · have hg := hp.going
        rw [hset] at hg
        cases hg
    exact ⟨s', hs', ⟨hquit, hl.main.trans hp.main, hgoing, hleft, hroom, fun _ => hcalm', hvideo, hdue⟩,
      Prod.Lex.toLex_lt_toLex.mpr (.inl hlt)⟩
  have hgoing := hp.going
  have hleft := hp.left
  have hroom := hp.room
  cases readThreadFunc_move hmove with
  | leave hpc hquit =>
      rw [hp.quit] at hquit
      cases hquit
  | enter hpc =>
      obtain ⟨hfree, hmore, -⟩ := hround hpc
      exact ⟨rfl, hmore, fun _ => hfree, by simp [hpc, readerTurn]⟩
  | full i hpc hfull => exact absurd (hroom (by rw [hpc]; rfl) i) (Nat.not_lt.mpr hfull)
  | eof a hpc hinput => simp [hpc, hinput, readsLeft] at hleft
  | read a x xs hpc hinput =>
      rw [hpc, hinput] at hleft
      simp [hpc, hinput, readsLeft, going, checksRoom, readerTurn] at hleft ⊢
      omega
  | lockAudio hpc | lockVideo hpc =>
      rw [hpc] at hleft hroom
      exact ⟨rfl, hleft, fun _ => hroom rfl, by simp [hpc, readerTurn]⟩
  | room hpc | unlockAudio hpc | unlockVideo hpc | alloc hpc | select i p hpc | other p hpc | lock i p hpc
  | push i p hpc | notify i hpc | unlock i hpc | freeOther p hpc =>
      rw [hpc] at hleft
      refine ⟨rfl, hleft, by simp [checksRoom], by simp [hpc, readerTurn]⟩
  | fullUnlockAudio hpc | fullUnlockVideo hpc | sleep hpc | freeEof a hpc | setQuit hpc | notifyAudio hpc
  | notifyVideo hpc => simp [hpc, Starving.going] at hgoing

theorem consumer_enabled (h : Runs file acts s) (hp : Prompt rest s) (hr : s.reader = .loopTest) {i : Side}
    (hw : s.consumer i ≠ .waiting) (hqueue : ∀ p f n, i = .audio → s.consumer .audio ≠ .frame p (.queueAudio f n)) :
    (step s (.consumer i)).isSome = true := by
  rw [consumer_enabled_iff]
  refine ⟨?_, fun hl => mutex_free h (by rw [hr]; rfl) ?_, (popReady h i).pop⟩
  · have hdone : s.consumer i ≠ .done := by
      intro hd
      have hq := leftQuit h i (by rw [hd]; rfl)
      rw [hp.quit] at hq
      cases hq
    cases hpc : s.consumer i with
    | frame p k =>
        cases k with
        | queueAudio f n => exact absurd hpc (hqueue p f n rfl)
        | _ => rfl
    | waiting => exact absurd hpc hw
    | done => exact absurd hpc hdone
    | _ => rfl
  · cases hpc : s.consumer i <;> simp_all [consumerLocks, stage]

theorem Prompt.delayed (hp : Prompt rest s) (ha : ¬ AudioRests s) {k : FramePc .video}
    (hk : (s.consumer .video).body = some k) : ∃ f v, k = .delay f v :=
  (hp.video k hk).2.resolve_right (fun hrest => ha hrest.2)

/-- While a consumer goes on the reader stays at the head of its loop. -/
theorem Prompt.consumerStep (hp : Prompt rest s) (hr : s.reader = .loopTest) {i : Side} {s' : State P}
    (hl : ConsumerStep i s s') (hdue : Due s'.out) (hvideo : ∀ k, (s'.consumer .video).body = some k →
      UpToDate s'.out k ∧ ((∃ f v, k = .delay f v) ∨ AudioRests s')) : Prompt rest s' := by
  have hr' : s'.reader = .loopTest := hl.reader.trans hr
  refine ⟨hl.quit.trans hp.quit, hl.main.trans hp.main, ?_, ?_, ?_, ?_, ?_, hdue⟩
  · rw [hl.reader]
    exact hp.going
  · rw [hl.reader, hl.input]
    exact hp.left
  · rw [hr']
    simp [checksRoom]
  · exact fun hne => absurd hr' hne
  · exact fun k hk => (hvideo k hk).imp_right (Or.imp_right (⟨hr', ·⟩))

/-- Whatever happens to the sound, the picture stays where it is. -/
theorem Prompt.audioStep (hp : Prompt rest s) (hr : s.reader = .loopTest) (ha : ¬ AudioRests s) {s' : State P}
    (hl : ConsumerStep .audio s s') (hdue : Due s'.out) : Prompt rest s' := by
  apply hp.consumerStep hr hl hdue
  rw [hl.consumer .video (by simp)]
  intro k hk
  obtain ⟨f, v, rfl⟩ := hp.delayed ha hk
  exact ⟨trivial, .inl ⟨f, v, rfl⟩⟩

theorem farness_audioStep {s' : State P} (hl : ConsumerStep .audio s s')
    (hlt : consumerTurn D .audio s' < consumerTurn D .audio s) : farness D s' < farness D s := by
  refine Prod.Lex.toLex_lt_toLex.mpr (.inr ⟨?_, Prod.Lex.toLex_lt_toLex.mpr (.inl hlt)⟩)
  rw [hl.reader, hl.input]

theorem advance_device (hp : Prompt rest s) (hw : s.consumer .audio = .waiting) (ha : ¬ AudioRests s) :
    ∃ a s', step s a = some s' ∧ Prompt rest s' ∧ farness D s' < farness D s := by
  have hpos : s.out.queued ≠ 0 := fun hq => ha ⟨hw, hq⟩
  have hs' : step s (.drain s.out.queued) = some { s with
      out.queued := s.out.queued - s.out.queued, out.played := s.out.played + s.out.queued } := by
    simp only [step, drain]
    rw [if_pos ⟨by rw [hp.main]; rfl, le_rfl⟩]
  refine ⟨_, _, hs', ?_, ?_⟩
  · refine ⟨hp.quit, hp.main, hp.going, hp.left, hp.room, hp.calm, fun k hk => ?_, hp.due⟩
    obtain ⟨f, v, rfl⟩ := hp.delayed ha hk
    exact ⟨trivial, .inl ⟨f, v, rfl⟩⟩
  · simp [farness, consumerTurn, Prod.Lex.toLex_lt_toLex, turn, hw]
    omega

theorem advance_queueing (hp : Prompt rest s) (hr : s.reader = .loopTest) (ha : ¬ AudioRests s)
    {p : AVPacket} {f : AVFrame} {n : Nat} (hpc : s.consumer .audio = .frame p (.queueAudio f n)) :
    ∃ a s', step s a = some s' ∧ Prompt rest s' ∧ farness D s' < farness D s := by
  have hs' : queueAudioStep true s =
      some { s.goto .audio (.frame p (.count f n)) with out := sdlQueueAudio true s.out f n } := by
    simp only [queueAudioStep, hpc]
  have hl := queueAudioStep_step hs'
  refine ⟨.queueAudio true, _, hs', hp.audioStep hr ha hl hp.due, farness_audioStep D hl ?_⟩
  simp [consumerTurn, Prod.Lex.toLex_lt_toLex, turn, bodyTurn, hpc]

/-- The audio thread goes on, or the device plays what it has. -/
theorem advance_audio (h : Runs file acts s) (hp : Prompt rest s) (hr : s.reader = .loopTest)
    (ha : ¬ AudioRests s) : ∃ a s', step s a = some s' ∧ Prompt rest s' ∧ farness D s' < farness D s := by
  by_cases hw : s.consumer .audio = .waiting
  · exact advance_device D hp hw ha
  by_cases hqueue : ∃ p f n, s.consumer .audio = .frame p (.queueAudio f n)
  · obtain ⟨p, f, n, hpc⟩ := hqueue
    exact advance_queueing D hp hr ha hpc
  simp only [not_exists] at hqueue
  obtain ⟨s', hs'⟩ := Option.isSome_iff_exists.mp (consumer_enabled h hp hr hw (fun p f n _ => hqueue p f n))
  have hmove := step_consumer hs'
  have hl := consumerThread_step hmove
  refine ⟨.consumer .audio, s', hs', hp.audioStep hr ha hl ?_, farness_audioStep D hl ?_⟩
  · rcases consumerThread_body hmove with hout | ⟨p, k, o, next, hin⟩
    · rw [hout.out]
      exact hp.due
    · have hstep := hin.step
      rw [hp.quit] at hstep
      rw [hin.out]
      exact due_frameStep hstep hp.due
  · refine consumerTurn_lt D hmove hp.quit (fun k _ => ?_)
    cases k <;> trivial

theorem upToDate_step (h : Runs file acts s) (hp : Prompt rest s) (ha : AudioRests s) {s' : State P}
    (hmove : consumerThread .video true (onFrame .video) s = some s') :
    s'.out.queued = 0 ∧ Due s'.out ∧ ∀ k, (s'.consumer .video).body = some k → UpToDate s'.out k := by
  rcases consumerThread_body hmove with hout | ⟨p, k, o, next, hin⟩
  · rw [hout.out]
    refine ⟨ha.2, hp.due, fun k hk => ?_⟩
    rcases hout.enter with hnone | ⟨-, hsome⟩
    · rw [hnone] at hk
      cases hk
    · rw [hsome] at hk
      cases hk
      trivial
  · have hstep := hin.step
    rw [hp.quit] at hstep
    have htimed := (paths h).video.timed
    rw [hin.body_before] at htimed
    obtain ⟨hnext, hdue, hqueued⟩ := upToDate_frameStep hstep ha.2 (fun f v hk => htimed f v hk)
      (hp.video k hin.body_before).1 hp.due
    rw [hin.out, hin.body_after]
    exact ⟨hqueued, hdue, hnext⟩

theorem productive_of_prompt (hp : Prompt rest s) (ha : AudioRests s) (hv : ¬ VideoRests s) {k : FramePc .video}
    (hk : (s.consumer .video).body = some k) : Productive s.out k := by
  have hup := (hp.video k hk).1
  cases k with
  | compare f v c => exact (show c = allPlayed s.out from hup).trans (clock_of_drained ha.2).symm
  | delay f v =>
      intro hahead
      cases hpc : s.consumer .video with
      | frame p k =>
          rw [hpc] at hk
          cases hk
          exact hv (.inr ⟨p, f, v, hpc, hahead⟩)
      | _ => rw [hpc] at hk; cases hk
  | _ => trivial

/-- With the sound at rest the video thread goes on. -/
theorem advance_video (h : Runs file acts s) (hp : Prompt rest s) (hr : s.reader = .loopTest)
    (ha : AudioRests s) (hv : ¬ VideoRests s) :
    ∃ s', step s (.consumer .video) = some s' ∧ Prompt rest s' ∧ farness D s' < farness D s := by
  obtain ⟨s', hs'⟩ := Option.isSome_iff_exists.mp
    (consumer_enabled h hp hr (i := .video) (fun hw => hv (.inl hw)) (by simp))
  have hmove := step_consumer hs'
  have hl := consumerThread_step hmove
  have haudio := hl.consumer .audio (by simp)
  obtain ⟨hqueued, hdue, hbody⟩ := upToDate_step h hp ha hmove
  have ha' : AudioRests s' := ⟨haudio.trans ha.1, hqueued⟩
  refine ⟨s', hs', hp.consumerStep hr hl hdue (fun k hk => ⟨hbody k hk, .inr ha'⟩), ?_⟩
  have hlt := consumerTurn_lt D hmove hp.quit (fun k hk => productive_of_prompt hp ha hv hk)
  simp only [farness, Prod.Lex.toLex_lt_toLex]
  refine .inr ⟨by rw [hl.reader, hl.input], .inr ⟨?_, .inr ⟨by rw [hqueued, ha.2], hlt⟩⟩⟩
  rw [consumerTurn, consumerTurn, haudio, hl.queue .audio (by simp), ha.1]
  rfl

theorem queue_empty (h : Runs file acts s) (hr : s.reader = .loopTest) {i : Side} (hw : s.consumer i = .waiting) :
    s.queue i = [] := by
  rcases (monitor_sound i h).empty_or_owed (by simp [monitor, hw, stage]) with hq | ⟨-, hn⟩
  · exact hq
  · simp [monitor, hr] at hn

/-- With everybody at rest and no room for the reader the player is stuck. -/
theorem stuck_of_full (h : Runs file acts s) (hp : Prompt rest s) (hr : s.reader = .loopTest) (ha : AudioRests s)
    (hv : VideoRests s) {i : Side} (hfull : maxQueueSize ≤ (s.queue i).length) : Stuck s := by
  have hempty := queue_empty h hr ha.1
  refine ⟨hp.quit, by rw [hr]; rfl, ⟨i, hfull⟩, ha.1, hempty, ha.2, ?_⟩
  rcases hv with hw | ⟨p, f, v, hpc, hahead⟩
  · have hempty' := queue_empty h hr hw
    cases i <;> simp [hempty, hempty', maxQueueSize] at hfull
  · exact ⟨p, _, hpc, hahead⟩

end Advance

/-- All but `rest` has been read, nobody but the reader goes on, and there is room for more. -/
structure Settled (rest : List Payload) (s : State P) : Prop where
  reader : s.reader = .loopTest
  read : s.input.length = rest.length
  audio : AudioRests s
  video : VideoRests s
  room : ∀ i, (s.queue i).length < maxQueueSize

def Halted (rest : List Payload) (s : State P) : Prop := Stuck s ∨ Prompt rest s ∧ Settled rest s

theorem advance {pre rest : List Payload} {acts : List Act} {s : State P} (h : Runs (pre ++ rest) acts s)
    (hp : Prompt rest s) (hgoal : ¬ Halted rest s) :
    ∃ a s', step s a = some s' ∧ Prompt rest s' ∧ farness D s' < farness D s := by
  by_cases hr : s.reader = .loopTest
  · by_cases ha : AudioRests s
    · by_cases hv : VideoRests s
      · have hroom : ∀ i, (s.queue i).length < maxQueueSize := fun i =>
          Nat.lt_of_not_le fun hfull => hgoal (.inl (stuck_of_full h hp hr ha hv hfull))
        have hne : s.input.length ≠ rest.length := fun hread => hgoal (.inr ⟨hp, hr, hread, ha, hv, hroom⟩)
        have hleft := hp.left
        obtain ⟨s', hs'⟩ := advance_reader D h hp (fun _ => ⟨hroom, by omega, ha, hv⟩)
        exact ⟨.reader, s', hs'⟩
      · obtain ⟨s', hs'⟩ := advance_video D h hp hr ha hv
        exact ⟨.consumer .video, s', hs'⟩
    · exact advance_audio D h hp hr ha
  · obtain ⟨s', hs'⟩ := advance_reader D h hp (fun hr' => absurd hr' hr)
    exact ⟨.reader, s', hs'⟩

include D in
/-- A part of a file can be read, and all that was read be played, unless the player gets stuck. -/
theorem exists_settled (pre rest : List Payload) : ∃ acts, ∃ s : State P, Runs (pre ++ rest) acts s ∧
    Halted rest s := by
  have hgo (s : State P) (hI : (∃ acts, Runs (pre ++ rest) acts s) ∧ Prompt rest s) (hgoal : ¬ Halted rest s) :
      ∃ a s', True ∧ step s a = some s' ∧ ((∃ acts, Runs (pre ++ rest) acts s') ∧ Prompt rest s') ∧
        farness D s' < farness D s := by
    obtain ⟨⟨acts, h⟩, hp⟩ := hI
    obtain ⟨a, s', hs', hp', hlt⟩ := advance D h hp hgoal
    exact ⟨a, s', trivial, hs', ⟨⟨_, Reference.runs_snoc h hs'⟩, hp'⟩, hlt⟩
  obtain ⟨acts, s, -, hrun, hgoal⟩ :=
    Transition.exists_run_to (farness D) hgo ⟨⟨[], rfl⟩, prompt_start pre rest⟩
  exact ⟨acts, s, hrun, hgoal⟩

theorem Settled.lane {pre rest : List Payload} {acts : List Act} {s : State P} (h : Runs (pre ++ rest) acts s)
    (hset : Settled rest s) (i : Side) :
    (sent (s.log.calls i)).map AVPacket.payload ++ (s.queue i).map AVPacket.payload = P.select i pre := by
  have hpop : popped (s.consumer i) = [] := by
    cases i with
    | audio => rw [hset.audio.1]; rfl
    | video => rcases hset.video with hw | ⟨p, f, v, hpc, -⟩ <;> [rw [hw]; rw [hpc]] <;> rfl
  rw [lane_of_checking h i (by rw [hset.reader]; rfl) hpop]
  exact congrArg _ (List.append_inj_left' (numbered h).read hset.read)

/-- Where all is settled, the frames of packets with a full queue behind them have been shown. -/
theorem Settled.shown {pre rest : List Payload} {acts : List Act} {s : State P} (h : Runs (pre ++ rest) acts s)
    (hset : Settled rest s) {vs vq : List Payload} (hsel : P.select .video pre = vs ++ vq)
    (hlen : maxQueueSize ≤ vq.length) {fs : List AVFrame} {d : (P.codec .video).State} {ph : Phase}
    (hdec : Decodes (P.codec .video) ph vs fs d) : fs <+: s.out.rendered.map Picture.frame := by
  have hlane := hset.lane h .video
  have hshown := (paths h).video.shown
  rw [hsel] at hlane
  rcases hset.video with hw | ⟨p, f, v, hpc, -⟩
  · have hall := inLoop h .video
    rw [queue_empty h hset.reader hw, List.map_nil, List.append_nil] at hlane
    rw [InLoop, hw, hlane] at hall
    rw [hw] at hshown
    simp only [ConsumerPc.body, Option.map_none, Option.toList_none, List.append_nil] at hshown
    rw [← hshown]
    exact frames_of_decodes hdec hall
  · -- a packet behind them has been sent, and before it the decoder had been read out
    obtain ⟨ps, q, gs, hs, e, hsent, hframes, hread, hne⟩ := sinceSend h .video (by rw [hpc]; rfl)
    have hhs : hs ≠ [] := hne (by rw [hpc]; simp [ConsumerPc.body])
    have hbehind : vs <+: ps.map AVPacket.payload := by
      rw [hsent, List.map_append, List.append_assoc] at hlane
      have hroom := hset.room .video
      have hlength := congrArg List.length hlane
      simp only [List.length_append, List.length_map, List.length_singleton] at hlength
      refine List.prefix_of_prefix_length_le (List.prefix_append vs vq) ⟨_, hlane⟩ ?_
      rw [List.length_map]
      omega
    obtain ⟨ws, hws⟩ := hbehind
    rw [← hws] at hread
    refine (frames_of_decodes hdec hread).trans ?_
    obtain ⟨hs', g, rfl⟩ := (List.eq_nil_or_concat hs).resolve_left hhs
    rw [hframes, hpc, List.concat_eq_append, ← List.append_assoc] at hshown
    obtain ⟨hrendered, -⟩ := List.append_inj' hshown rfl
    exact ⟨hs', hrendered⟩

include D in
/-- A file that is not paced gets the player stuck. -/
theorem stuck_of_not_paced {file : List Payload} (h : ¬ Paced P file) :
    ∃ acts, ∃ s : State P, Runs file acts s ∧ Stuck s := by
  simp only [Paced, not_forall, not_not] at h
  obtain ⟨pre, rest, vs, vq, fsA, dA, fsV, f, dV, rfl, hsel, hlen, hA, hV, hahead⟩ := h
  obtain ⟨acts, s, hs, hstuck | ⟨hp, hset⟩⟩ := exists_settled D pre rest
  · exact ⟨acts, s, hs, hstuck⟩
  have haudio := inLoop hs .audio
  have hlane := hset.lane hs .audio
  rw [queue_empty hs hset.reader hset.audio.1, List.map_nil, List.append_nil] at hlane
  rw [InLoop, hset.audio.1, hlane] at haudio
  have hsame : fsA = frames (s.log.calls .audio) := frames_unique hA haudio
  have hpath := (paths hs).audio
  rw [hset.audio.1] at hpath
  rw [hsame, hpath.soundBytes_eq] at hahead
  have hshown := hset.shown hs hsel hlen hV
  obtain ⟨x, hx, rfl⟩ := List.mem_map.mp (hshown.subset (by simp : f ∈ fsV ++ [f]))
  exact absurd hahead (hp.due x hx)

include D in
/-- Some interleaving stalls on a file exactly if the file is not paced. -/
theorem stalls_iff {file : List Payload} : (∃ acts, ∃ s : State P, Runs file acts s ∧ Stuck s) ↔ ¬ Paced P file := by
  constructor
  · rintro ⟨acts, s, hs, hstuck⟩ hp
    exact hstuck.not_paced hs hp
  · exact stuck_of_not_paced D

theorem stalls_sample : ∃ acts, ∃ s : State stereo, Runs silentFile acts s ∧ Stuck s := by
  refine (stalls_iff stereoRunsDry).mpr fun hp => ?_
  have hframe := (Decodes.init (c := stereo.codec .video)).accept ⟨0, [0]⟩ rfl
  refine hp silentFile [] [⟨0, [0]⟩] (List.replicate 200 ⟨0, []⟩) [] _ [] _ _ (List.append_nil _).symm ?_ ?_ .init
    (hframe.frame rfl) ?_
  · decide +kernel
  · rw [List.length_replicate, maxQueueSize]
  · decide +kernel

end FfmpegPlayer.Starving
