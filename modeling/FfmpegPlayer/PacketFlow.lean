import FfmpegPlayer.Fifo
import FfmpegPlayer.Ownership
import FfmpegPlayer.Interleaving
import Mathlib.Tactic.Abel
import Mathlib.Algebra.Order.Group.Multiset

namespace FfmpegPlayer.PacketFlow

open SendReceive Media Threads ReadThread ConsumerThreads MainThread Interleaving Fifo Ownership

variable {P : Player}

def incoming (P : Player) (i : Side) : ReaderPc → List AVPacket
  | .route p => if P.Selects i p.payload then [p] else []
  | .lock j p | .push j p => if j = i then [p] else []
  | _ => []

def popped {i : Side} : ConsumerPc i → List AVPacket
  | .unlock p | .ctxTest p | .send p => [p]
  | _ => []

def lane (i : Side) (s : State P) : Lane AVPacket where
  taken := s.log.reads.filter (fun p => P.Selects i p.payload)
  incoming := incoming P i s.reader
  queue := s.queue i
  popped := popped (s.consumer i)
  sent := sent (s.log.calls i)

@[simp] theorem popped_woken (i : Side) (pc : ConsumerPc i) : popped pc.woken = popped pc := by
  cases pc <;> rfl

@[simp] theorem popped_update_woken (c : (i : Side) → ConsumerPc i) (j i : Side) :
    popped (Function.update c j (c j).woken i) = popped (c i) :=
  update_woken (fun _ => popped) popped_woken c j i

theorem lane_idle {i : Side} {s s' : State P} (h : lane i s' = lane i s) :
    Lane.Step (lane i s) (lane i s') := by
  rw [h]
  exact .idle _

theorem lane_readThreadFunc (i : Side) {s s' : State P} (h : readThreadFunc s = some s') :
    Lane.Step (lane i s) (lane i s') := by
  cases readThreadFunc_move h with
  | read a x xs hpc =>
      by_cases hx : P.Selects i x
      · have he := Lane.Step.take (lane i s) ⟨a, x⟩ (by simp [lane, hpc, incoming])
        simpa [lane, hpc, incoming, hx] using he
      · exact lane_idle (by simp [lane, hpc, incoming, hx])
  | select j p hpc hroute =>
      have hi : P.route p.payload = some i ↔ P.Selects i p.payload := P.route_eq_some
      rw [hroute, Option.some.injEq] at hi
      exact lane_idle (by simp [lane, hpc, incoming, hi])
  | other p hpc hroute =>
      have hi : P.route p.payload = some i ↔ P.Selects i p.payload := P.route_eq_some
      simp only [hroute, reduceCtorEq, false_iff] at hi
      exact lane_idle (by simp [lane, hpc, incoming, hi])
  | push j p hpc =>
      by_cases hj : j = i
      · subst hj
        have he := Lane.Step.push (lane j s) p (by simp [lane, hpc, incoming])
        simpa [lane, hpc, incoming] using he
      · exact lane_idle (by simp [lane, hpc, incoming, hj, Ne.symm hj])
  | enter hpc | leave hpc | lockAudio hpc | lockVideo hpc | full j hpc | room hpc | fullUnlockAudio hpc
  | fullUnlockVideo hpc | sleep hpc | unlockAudio hpc | unlockVideo hpc | alloc hpc | eof a hpc
  | freeEof a hpc | lock j p hpc | notify j hpc | unlock j hpc | freeOther p hpc | setQuit hpc
  | notifyAudio hpc | notifyVideo hpc =>
      exact lane_idle (by simp [lane, hpc, incoming])

theorem lane_of_consumerStep {j : Side} {s s' : State P} (h : ConsumerStep j s s') {i : Side}
    (hij : i ≠ j) : lane i s' = lane i s := by
  simp only [lane, h.reads, h.reader, h.queue i hij, h.consumer i hij, h.calls i hij]

theorem lane_consumerThread (i : Side) {onFrame : AVFrame → FramePc i} {s s' : State P}
    (h : consumerThread i true onFrame s = some s') : Lane.Step (lane i s) (lane i s') := by
  cases consumerThread_move h with
  | pop p q hpc hq =>
      have he := Lane.Step.pop (lane i s) p q (by simp [lane, hq]) (by simp [lane, hpc, popped])
      simpa [lane, hpc, popped] using he
  | accept p d hpc | reject p r d hpc =>
      have he := Lane.Step.send (lane i s) p (by simp [lane, hpc, popped])
      simpa [lane, hpc, popped] using he
  | lock hpc => rcases hpc with hpc | hpc <;> exact lane_idle (by simp [lane, hpc, popped])
  | body p k o next hpc => exact lane_idle (by cases next <;> simp [lane, hpc, popped, afterFrame])
  | enter hpc | leave hpc | ready hpc | unready hpc | block hpc | goOn hpc | stop hpc | breakUnlock hpc
  | unlock p hpc | ctx p hpc | receive p f d hpc | drained p r f d hpc | free p hpc =>
      exact lane_idle (by simp [lane, hpc, popped])

theorem popped_of_woken {i : Side} {pc pc' : ConsumerPc i} (h : pc' = pc ∨ pc' = pc.woken) :
    popped pc' = popped pc := by
  rcases h with rfl | rfl
  · rfl
  · exact popped_woken i pc

theorem lane_of_leavesPackets {s s' : State P} (h : LeavesPackets s s') (i : Side) :
    lane i s' = lane i s := by
  simp only [lane, h.reads, h.reader, h.queue i, popped_of_woken (h.consumer i), h.calls i]

/-- Every step of the player moves at most one packet one place along the
lane of one stream. -/
theorem lane_step (i : Side) {s s' : State P} {a : Act} (h : step s a = some s') :
    Lane.Step (lane i s) (lane i s') := by
  cases a with
  | reader => exact lane_readThreadFunc i h
  | consumer j =>
      replace h := step_consumer h
      by_cases hij : i = j
      · subst hij
        exact lane_consumerThread i h
      · exact lane_idle (lane_of_consumerStep (consumerThread_step h) hij)
  | main => exact lane_idle (lane_of_leavesPackets (mainThread_leaves h) i)
  | poll e => exact lane_idle (lane_of_leavesPackets (pollEvent_leaves h) i)
  | spurious j => exact lane_idle (lane_of_leavesPackets (spuriousWake_leaves h) i)
  | drain n =>
      obtain ⟨-, rfl⟩ := drain_eq h
      exact lane_idle rfl
  | queueAudio accepted =>
      apply lane_idle
      by_cases hi : i = .audio
      · obtain ⟨p, f, n, hpc, rfl⟩ := queueAudioStep_eq h
        subst hi
        simp [lane, hpc, popped]
      · exact lane_of_consumerStep (queueAudioStep_step h) hi

theorem lane_start (i : Side) (file : List Payload) : (lane i (start P file)).InOrder := rfl

theorem lane_inOrder {file : List Payload} {acts : List Act} {s : State P} (h : Runs file acts s)
    (i : Side) : (lane i s).InOrder :=
  Transition.invariant (I := fun s => (lane i s).InOrder)
    (fun _ _ _ hs h => (lane_step i h).inOrder hs) (lane_start i file) h

def readerHeld : ReaderPc → Multiset Nat
  | .read a | .freeEof a => {a}
  | .route p | .lock _ p | .push _ p | .freeOther p => {p.addr}
  | _ => 0

def consumerHeld {i : Side} : ConsumerPc i → Multiset Nat
  | .unlock p | .ctxTest p | .send p | .receive p | .frame p _ | .free p => {p.addr}
  | _ => 0

def queueHeld (q : List AVPacket) : Multiset Nat := ↑(q.map AVPacket.addr)

theorem coe_snoc (l : List Nat) (a : Nat) : (↑(l ++ [a]) : Multiset Nat) = a ::ₘ ↑l := by
  exact Multiset.coe_eq_coe.mpr (List.perm_append_singleton a l)

@[simp] theorem queueHeld_push (q : List AVPacket) (p : AVPacket) :
    queueHeld (q ++ [p]) = p.addr ::ₘ queueHeld q := by
  rw [queueHeld, List.map_append]
  exact coe_snoc _ _

@[simp] theorem queueHeld_cons (q : List AVPacket) (p : AVPacket) :
    queueHeld (p :: q) = p.addr ::ₘ queueHeld q := rfl

theorem add_held (m : Multiset Nat) (a : Nat) : m + {a} = a ::ₘ m := by
  rw [add_comm, Multiset.singleton_add]

def mainHeld : MainPc → Multiset Nat
  | .cleanup calls => Multiset.replicate (calls.count .freePkt) 0
  | .returned => 0
  | _ => {0}

def laneHeld (i : Side) (s : State P) : Multiset Nat :=
  queueHeld (s.queue i) + consumerHeld (s.consumer i)

def owners (s : State P) : Multiset Nat := readerHeld s.reader + (laneHeld .audio s + laneHeld .video s)

def ledger (s : State P) : Ledger where
  allocated := s.log.allocated
  owned := mainHeld s.main + owners s
  freed := s.log.freed

@[simp] theorem consumerHeld_woken (i : Side) (pc : ConsumerPc i) :
    consumerHeld pc.woken = consumerHeld pc := by
  cases pc <;> rfl

@[simp] theorem consumerHeld_update_woken (c : (i : Side) → ConsumerPc i) (j i : Side) :
    consumerHeld (Function.update c j (c j).woken i) = consumerHeld (c i) :=
  update_woken (fun _ => consumerHeld) consumerHeld_woken c j i

theorem ledger_move {s s' : State P} (h : ledger s' = ledger s) :
    Ledger.Step (ledger s) (ledger s') := by
  rw [h]
  exact .move _

theorem ledger_free {s s' : State P} (a : Nat) (ha : (ledger s').allocated = (ledger s).allocated)
    (ho : (ledger s).owned = a ::ₘ (ledger s').owned) (hf : (ledger s').freed = a ::ₘ (ledger s).freed) :
    Ledger.Step (ledger s) (ledger s') := by
  have he : ledger s' = ⟨(ledger s).allocated, (ledger s').owned, a ::ₘ (ledger s).freed⟩ := by
    rw [← ha, ← hf]
  rw [he]
  exact .free _ a _ ho

theorem ledger_readThreadFunc {s s' : State P} (h : readThreadFunc s = some s') :
    Ledger.Step (ledger s) (ledger s') := by
  cases readThreadFunc_move h with
  | alloc hpc =>
      have he := Ledger.Step.alloc (ledger s)
      simpa [ledger, owners, laneHeld, hpc, readerHeld] using he
  | freeEof a hpc =>
      refine ledger_free a ?_ ?_ ?_ <;> simp [ledger, owners, laneHeld, hpc, readerHeld, coe_snoc]
  | freeOther p hpc =>
      refine ledger_free p.addr ?_ ?_ ?_ <;> simp [ledger, owners, laneHeld, hpc, readerHeld, coe_snoc]
  | push j p hpc =>
      apply ledger_move
      cases j <;> simp [ledger, owners, laneHeld, hpc, readerHeld]
  | enter hpc | leave hpc | lockAudio hpc | lockVideo hpc | full j hpc | room hpc | fullUnlockAudio hpc
  | fullUnlockVideo hpc | sleep hpc | unlockAudio hpc | unlockVideo hpc | eof a hpc | read a x xs hpc
  | select j p hpc | other p hpc | lock j p hpc | notify j hpc | unlock j hpc | setQuit hpc
  | notifyAudio hpc | notifyVideo hpc =>
      exact ledger_move (by simp [ledger, owners, laneHeld, hpc, readerHeld])

def Side.other : Side → Side
  | .audio => .video
  | .video => .audio

theorem owners_eq (i : Side) (s : State P) :
    owners s = laneHeld i s + (readerHeld s.reader + laneHeld (Side.other i) s) := by
  cases i <;> simp only [owners, Side.other] <;> abel

theorem other_ne (i : Side) : Side.other i ≠ i := by
  cases i <;> simp [Side.other]

theorem owners_of_consumerStep {i : Side} {s s' : State P} (h : ConsumerStep i s s') :
    owners s' = laneHeld i s' + (readerHeld s.reader + laneHeld (Side.other i) s) := by
  rw [owners_eq i s', h.reader]
  simp only [laneHeld, h.queue _ (other_ne i), h.consumer _ (other_ne i)]

theorem ledger_consumer_move {i : Side} {s s' : State P} (h : ConsumerStep i s s')
    (hl : laneHeld i s' = laneHeld i s) (hf : s'.log.freed = s.log.freed) :
    Ledger.Step (ledger s) (ledger s') := by
  apply ledger_move
  simp only [ledger, h.allocated, h.main, owners_of_consumerStep h, owners_eq i s, hl, hf]

theorem ledger_consumerThread (i : Side) {onFrame : AVFrame → FramePc i} {s s' : State P}
    (h : consumerThread i true onFrame s = some s') : Ledger.Step (ledger s) (ledger s') := by
  have hl := consumerThread_step h
  cases consumerThread_move h with
  | free p hpc =>
      refine ledger_free p.addr ?_ ?_ ?_
      · simp [ledger]
      · have ho := owners_of_consumerStep hl
        simp only [laneHeld, State.goto_consumer, Function.update_self, State.goto_queue,
          State.freed_queue, consumerHeld, add_zero] at ho
        simp only [ledger, State.goto_main, State.freed_main, ho, owners_eq i s]
        simp only [laneHeld, hpc, consumerHeld, add_held, Multiset.cons_add, Multiset.add_cons]
      · simp [ledger, coe_snoc]
  | pop p q hpc hq =>
      exact ledger_consumer_move hl (by simp [laneHeld, hpc, hq, consumerHeld, add_held]) rfl
  | lock hpc =>
      rcases hpc with hpc | hpc <;>
        exact ledger_consumer_move hl (by simp [laneHeld, hpc, consumerHeld]) rfl
  | body p k o next hpc =>
      refine ledger_consumer_move hl ?_ rfl
      cases next <;> simp [laneHeld, hpc, consumerHeld, afterFrame]
  | enter hpc | leave hpc | ready hpc | unready hpc | block hpc | goOn hpc | stop hpc | breakUnlock hpc
  | unlock p hpc | ctx p hpc | accept p d hpc | reject p r d hpc | receive p f d hpc
  | drained p r f d hpc =>
      exact ledger_consumer_move hl (by simp [laneHeld, hpc, consumerHeld]) rfl

theorem consumerHeld_of_woken {i : Side} {pc pc' : ConsumerPc i} (h : pc' = pc ∨ pc' = pc.woken) :
    consumerHeld pc' = consumerHeld pc := by
  rcases h with rfl | rfl
  · rfl
  · exact consumerHeld_woken i pc

theorem owners_of_leavesPackets {s s' : State P} (h : LeavesPackets s s') : owners s' = owners s := by
  simp only [owners, laneHeld, h.reader, h.queue, consumerHeld_of_woken (h.consumer _)]

theorem ledger_packets_move {s s' : State P} (h : LeavesPackets s s')
    (hm : mainHeld s'.main = mainHeld s.main) (hf : s'.log.freed = s.log.freed) :
    Ledger.Step (ledger s) (ledger s') := by
  apply ledger_move
  simp only [ledger, owners_of_leavesPackets h, h.allocated, hm, hf]

theorem ledger_pollEvent {e : Event} {s s' : State P} (h : pollEvent e s = some s') :
    Ledger.Step (ledger s) (ledger s') := by
  have hl := pollEvent_leaves h
  obtain ⟨hpc, rfl⟩ := pollEvent_eq h
  refine ledger_packets_move hl ?_ rfl
  cases e <;> simp [hpc, mainHeld]

theorem ledger_mainThread {s s' : State P} (h : mainThread s = some s') :
    Ledger.Step (ledger s) (ledger s') := by
  have hl := mainThread_leaves h
  cases mainThread_move h with
  | freePkt calls hpc =>
      have ho := owners_of_leavesPackets hl
      refine ledger_free 0 hl.allocated ?_ ?_
      · simp only [ledger, ho, hpc, mainHeld]
        simp [Multiset.replicate_succ]
      · simp [ledger, coe_snoc]
  | cleanup c calls hpc hc => exact ledger_packets_move hl (by simp [hpc, mainHeld, hc]) rfl
  | joinVideo hpc => exact ledger_packets_move hl (by simp [hpc, mainHeld, cleanupCalls]) rfl
  | goOn hpc | leave hpc | setQuit hpc | notifyAudio hpc | notifyVideo hpc | delay hpc | joinReader hpc
  | joinAudio hpc | finish hpc => exact ledger_packets_move hl (by simp [hpc, mainHeld]) rfl

/-- Every step of the player allocates a packet, frees one that somebody owns,
or hands packets over. -/
theorem ledger_step {s s' : State P} {a : Act} (h : step s a = some s') :
    Ledger.Step (ledger s) (ledger s') := by
  cases a with
  | reader => exact ledger_readThreadFunc h
  | consumer j =>
      replace h := step_consumer h
      exact ledger_consumerThread j h
  | main => exact ledger_mainThread h
  | poll e => exact ledger_pollEvent h
  | spurious j =>
      have hs := (spuriousWake_eq h).2
      refine ledger_packets_move (spuriousWake_leaves h) ?_ ?_ <;> rw [hs] <;> rfl
  | drain n =>
      obtain ⟨-, rfl⟩ := drain_eq h
      exact ledger_move rfl
  | queueAudio accepted =>
      have hl := queueAudioStep_step h
      obtain ⟨p, f, n, hpc, rfl⟩ := queueAudioStep_eq h
      exact ledger_consumer_move hl (by simp [laneHeld, hpc, consumerHeld]) rfl

theorem ledger_start (file : List Payload) : (ledger (start P file)).Balanced := by
  simp [Ledger.Balanced, ledger, owners, laneHeld, start, mainHeld, readerHeld, queueHeld,
    consumerHeld]

theorem ledger_balanced {file : List Payload} {acts : List Act} {s : State P}
    (h : Runs file acts s) : (ledger s).Balanced :=
  Transition.invariant (I := fun s => (ledger s).Balanced)
    (fun _ _ _ hs h => (ledger_step h).balanced hs) (ledger_start file) h

end FfmpegPlayer.PacketFlow
