import FfmpegPlayer.PacketFlow

namespace FfmpegPlayer.Packets

open SendReceive Media Threads ReadThread ConsumerThreads MainThread Interleaving
open Fifo Ownership PacketFlow

variable {P : Player}

structure Numbered (file : List Payload) (s : State P) : Prop where
  allocated : 0 < s.log.allocated
  fresh : ∀ a, s.reader = .read a →
    0 < a ∧ a < s.log.allocated ∧ ∀ p ∈ s.log.reads, p.addr < a
  bounds : ∀ p ∈ s.log.reads, 0 < p.addr ∧ p.addr < s.log.allocated
  increasing : s.log.reads.Pairwise (fun p q => p.addr < q.addr)
  read : s.log.reads.map AVPacket.payload ++ s.input = file

theorem numbered_of_same {file : List Payload} {s s' : State P} (h : Numbered file s)
    (hr : ∀ a, s'.reader ≠ .read a) (hi : s'.input = s.input)
    (ha : s'.log.allocated = s.log.allocated) (hd : s'.log.reads = s.log.reads) : Numbered file s' := by
  constructor
  · rw [ha]; exact h.allocated
  · intro a he; exact absurd he (hr a)
  · rw [hd, ha]; exact h.bounds
  · rw [hd]; exact h.increasing
  · rw [hd, hi]; exact h.read

theorem numbered_readThreadFunc {file : List Payload} {s s' : State P}
    (h : readThreadFunc s = some s') (hn : Numbered file s) : Numbered file s' := by
  cases readThreadFunc_move h with
  | alloc =>
      constructor
      · exact Nat.succ_pos _
      · intro a he
        obtain rfl : s.log.allocated = a := by simpa using he
        exact ⟨hn.allocated, Nat.lt_succ_self _, fun p hp => (hn.bounds p hp).2⟩
      · intro p hp
        have hb := hn.bounds p hp
        exact ⟨hb.1, Nat.lt_succ_of_lt hb.2⟩
      · exact hn.increasing
      · exact hn.read
  | read a x xs hpc hin =>
      obtain ⟨hpos, hlt, hprev⟩ := hn.fresh a hpc
      constructor
      · exact hn.allocated
      · simp
      · intro p hp
        rcases List.mem_append.mp hp with hp | hp
        · exact hn.bounds p hp
        · rw [List.mem_singleton.mp hp]; exact ⟨hpos, hlt⟩
      · refine List.pairwise_append.mpr ⟨hn.increasing, List.pairwise_singleton _ _, ?_⟩
        intro p hp q hq
        rw [List.mem_singleton.mp hq]
        exact hprev p hp
      · have hf := hn.read
        rw [hin] at hf
        simpa using hf
  | _ => exact numbered_of_same hn (by simp) rfl rfl rfl

theorem numbered {file : List Payload} {acts : List Act} {s : State P} (h : Runs file acts s) :
    Numbered file s := by
  refine Transition.invariant (I := Numbered file) (fun s a s' hn h => ?_) ?_ h
  · by_cases ha : a = .reader
    · subst ha; exact numbered_readThreadFunc h hn
    · have hl := step_leavesReader h ha
      constructor
      · rw [hl.allocated]; exact hn.allocated
      · rw [hl.reader, hl.allocated, hl.reads]; exact hn.fresh
      · rw [hl.reads, hl.allocated]; exact hn.bounds
      · rw [hl.reads]; exact hn.increasing
      · rw [hl.reads, hl.input]; exact hn.read
  · constructor <;> simp [start]

theorem select_reads (i : Side) (reads : List AVPacket) :
    (reads.filter (fun p => P.Selects i p.payload)).map AVPacket.payload =
      P.select i (reads.map AVPacket.payload) := by
  rw [Player.select, List.filter_map]
  rfl

theorem sent_or_held {file : List Payload} {acts : List Act} {s : State P} (h : Runs file acts s)
    (i : Side) : (sent (s.log.calls i)).map AVPacket.payload ++
      (popped (s.consumer i) ++ s.queue i ++ incoming P i s.reader).map AVPacket.payload =
      P.select i (s.log.reads.map AVPacket.payload) := by
  have hl := lane_inOrder h i
  simp only [Lane.InOrder, lane, List.append_assoc] at hl
  rw [← select_reads, ← hl, List.append_assoc, ← List.map_append]

theorem mainHeld_count (m : MainPc) {a : Nat} (ha : 0 < a) : (mainHeld m).count a = 0 := by
  have hne : a ≠ 0 := Nat.ne_of_gt ha
  cases m with
  | cleanup calls => exact Multiset.count_eq_zero.mpr (fun h => hne (Multiset.eq_of_mem_replicate h))
  | loopTest | poll | setQuit | notifyAll _ | delay | joinReader | join _ | returned =>
      simp [mainHeld, hne]

def uses (s : State P) : Act → List Nat
  | .reader => match s.reader with
    | .read a | .freeEof a => [a]
    | .route p | .push _ p | .freeOther p => [p.addr]
    | _ => []
  | .consumer i => match s.consumer i with
    | .pop => (s.queue i).head?.toList.map AVPacket.addr
    | .send p | .free p => [p.addr]
    | _ => []
  | .main => match s.main with
    | .cleanup (.freePkt :: _) => [0]
    | _ => []
  | _ => []

theorem mem_owned_of_mem_uses {s : State P} {a : Act} {x : Nat} (h : x ∈ uses s a) :
    x ∈ (ledger s).owned := by
  simp only [ledger, Multiset.mem_add]
  cases a with
  | reader =>
      refine Or.inr ?_
      cases hpc : s.reader <;> simp_all [uses, owners, readerHeld]
  | consumer i =>
      refine Or.inr ?_
      rw [owners_eq i, Multiset.mem_add]
      refine Or.inl ?_
      cases hpc : s.consumer i with
      | pop =>
          cases hq : s.queue i <;> simp_all [uses, laneHeld]
      | send p | free p => simp_all [uses, laneHeld, consumerHeld]
      | loopTest | lock | waitTest | block | waiting | relock | breakTest | breakUnlock | unlock _
      | ctxTest _ | receive _ | frame _ _ | done => simp [uses, hpc] at h
  | main =>
      refine Or.inl ?_
      simp only [uses] at h
      split at h
      next calls hpc =>
        rw [hpc, mainHeld, List.count_cons_self, Multiset.replicate_succ, List.mem_singleton.mp h]
        exact Multiset.mem_cons_self _ _
      next => simp at h
  | poll _ | queueAudio _ | drain _ | spurious _ => simp [uses] at h

/-- The packets read so far are those of the file, in order and numbered in
that order. Those of each stream lie along its path from the decoder back to
the reader, still in order. Each has one owner or has been freed once, and no
thread is about to touch one that has been freed. -/
structure Conserved (file : List Payload) (s : State P) : Prop where
  read : s.log.reads.map AVPacket.payload ++ s.input = file
  increasing : s.log.reads.Pairwise (fun p q => p.addr < q.addr)
  inOrder : ∀ i, sent (s.log.calls i) ++ popped (s.consumer i) ++ s.queue i ++ incoming P i s.reader =
    s.log.reads.filter (fun p => P.Selects i p.payload)
  owned : ∀ p ∈ s.log.reads,
    ((owners s).count p.addr = 1 ∧ s.log.freed.count p.addr = 0) ∨
    ((owners s).count p.addr = 0 ∧ s.log.freed.count p.addr = 1)
  unused : ∀ a, ∀ x ∈ uses s a, x ∉ s.log.freed

theorem packets_conserved {file : List Payload} {acts : List Act} {s : State P} (h : Runs file acts s) :
    Conserved file s := by
  have hn := numbered h
  have hb := ledger_balanced h
  refine ⟨hn.read, hn.increasing, fun i => lane_inOrder h i, fun p hp => ?_, fun a x hx => ?_⟩
  · obtain ⟨hpos, hlt⟩ := hn.bounds p hp
    have hc := hb.owned_or_freed hlt
    simpa only [ledger, Multiset.count_add, mainHeld_count s.main hpos, Nat.zero_add,
      Multiset.coe_count] using hc
  · have hx' := hb.not_freed (mem_owned_of_mem_uses hx)
    simpa only [ledger, Multiset.mem_coe] using hx'

def threePackets : List Act := List.replicate 36 .reader ++ List.replicate 8 (.consumer .audio)

theorem packets_conserved_sample : ∃ s : State stereo,
    Runs [⟨1, []⟩, ⟨2, []⟩, ⟨0, []⟩] threePackets s ∧
    sent (s.log.calls .audio) = [⟨1, ⟨1, []⟩⟩] ∧ Conserved [⟨1, []⟩, ⟨2, []⟩, ⟨0, []⟩] s := by
  obtain ⟨s, hs, hp⟩ := Transition.exists_of_run_any step
    (start stereo [⟨1, []⟩, ⟨2, []⟩, ⟨0, []⟩]) threePackets
    (fun s : State stereo => decide (sent (s.log.calls .audio) = [⟨1, ⟨1, []⟩⟩])) (by decide)
  exact ⟨s, hs, of_decide_eq_true hp, packets_conserved hs⟩

end FfmpegPlayer.Packets
