import FfmpegPlayer.Interleaving
import Mathlib.Data.List.Induction

namespace FfmpegPlayer.Decoding

open SendReceive Media Threads ReadThread ConsumerThreads MainThread Interleaving

variable {P : Player}

def phase {i : Side} : ConsumerPc i → Phase
  | .receive _ | .frame _ _ => .reading
  | _ => .idle

inductive DecoderStep (i : Side) (s s' : State P) : Act → Prop
  | quiet {a} (calls : s'.log.calls i = s.log.calls i) (dec : s'.dec i = s.dec i)
      (phase : phase (s'.consumer i) = phase (s.consumer i))
      (body : (s.consumer i).body = none → (s'.consumer i).body = none)
      (idle : a = .consumer i → ∀ p, s.consumer i ≠ .send p) : DecoderStep i s s' a
  | send (p : AVPacket) (before : s.consumer i = .send p)
      (after : s'.consumer i =
        if ((P.codec i).send (s.dec i) (some p.payload)).1 = 0 then .receive p else .free p)
      (calls : s'.log.calls i =
        s.log.calls i ++ [.send p ((P.codec i).send (s.dec i) (some p.payload)).1])
      (dec : s'.dec i = ((P.codec i).send (s.dec i) (some p.payload)).2) :
      DecoderStep i s s' (.consumer i)
  | receive (p : AVPacket) (before : s.consumer i = .receive p)
      (after : s'.consumer i =
        if ((P.codec i).receive (s.dec i)).1 = 0 then
          .frame p (onFrame i ((P.codec i).receive (s.dec i)).2.1) else .free p)
      (calls : s'.log.calls i = s.log.calls i ++
        [.receive ((P.codec i).receive (s.dec i)).1 ((P.codec i).receive (s.dec i)).2.1])
      (dec : s'.dec i = ((P.codec i).receive (s.dec i)).2.2) :
      DecoderStep i s s' (.consumer i)

theorem decoderStep_consumer {i : Side} {s s' : State P}
    (h : consumerThread i true (onFrame i) s = some s') :
    DecoderStep i s s' (.consumer i) := by
  cases consumerThread_move h with
  | accept p d hpc hs => exact .send p hpc (by simp [hs]) (by simp [hs]) (by simp [hs])
  | reject p r d hpc hs hr => exact .send p hpc (by simp [hs, hr]) (by simp [hs]) (by simp [hs])
  | receive p f d hpc hs => exact .receive p hpc (by simp [hs]) (by simp [hs]) (by simp [hs])
  | drained p r f d hpc hs hr =>
      exact .receive p hpc (by simp [hs, hr]) (by simp [hs]) (by simp [hs])
  | body p k o next hpc =>
      refine .quiet rfl rfl ?_ (by simp [hpc, ConsumerPc.body]) (by simp [hpc])
      cases next <;> simp [hpc, afterFrame, phase]
  | lock hpc =>
      rcases hpc with hpc | hpc <;>
        exact .quiet rfl rfl (by simp [hpc, phase]) (by simp [ConsumerPc.body]) (by simp [hpc])
  | enter hpc | leave hpc | ready hpc | unready hpc | block hpc | goOn hpc | stop hpc | breakUnlock hpc
  | pop p q hpc | unlock p hpc | ctx p hpc | free p hpc =>
      exact .quiet rfl rfl (by simp [hpc, phase]) (by simp [ConsumerPc.body]) (by simp [hpc])

theorem phase_of_woken {i : Side} {pc pc' : ConsumerPc i} (h : pc' = pc ∨ pc' = pc.woken) :
    phase pc' = phase pc := by
  rcases h with rfl | rfl
  · rfl
  · cases pc <;> rfl

theorem decoderStep {a : Act} {s s' : State P} (h : step s a = some s') (i : Side) :
    DecoderStep i s s' a := by
  have quiet : s'.log.calls i = s.log.calls i → s'.dec i = s.dec i →
      (s'.consumer i = s.consumer i ∨ s'.consumer i = (s.consumer i).woken) →
      a ≠ .consumer i → DecoderStep i s s' a :=
    fun hc hd hw ha => .quiet hc hd (phase_of_woken hw) (by rw [body_of_woken hw]; exact id)
      (fun he => absurd he ha)
  cases a with
  | reader =>
      have hl := readThreadFunc_step h
      exact quiet (hl.calls i) (hl.dec i) (hl.consumer i) (by simp)
  | consumer j =>
      replace h := step_consumer h
      by_cases hij : i = j
      · subst hij
        exact decoderStep_consumer h
      · have hl := consumerThread_step h
        exact quiet (hl.calls i hij) (hl.dec i hij) (Or.inl (hl.consumer i hij)) (by simp [Ne.symm hij])
  | main =>
      have hl := mainThread_leaves h
      exact quiet (hl.calls i) (hl.dec i) (hl.consumer i) (by simp)
  | poll e =>
      have hl := pollEvent_leaves h
      exact quiet (hl.calls i) (hl.dec i) (hl.consumer i) (by simp)
  | spurious j =>
      have hl := spuriousWake_leaves h
      exact quiet (hl.calls i) (hl.dec i) (hl.consumer i) (by simp)
  | drain n =>
      obtain ⟨-, rfl⟩ := drain_eq h
      exact quiet rfl rfl (Or.inl rfl) (by simp)
  | queueAudio accepted =>
      obtain ⟨p, f, n, hpc, rfl⟩ := queueAudioStep_eq h
      cases i with
      | audio => exact .quiet rfl rfl (by simp [hpc, phase]) (by simp [hpc, ConsumerPc.body]) (by simp)
      | video => exact quiet rfl rfl (Or.inl rfl) (by simp)

def InLoop (i : Side) (s : State P) : Prop :=
  Decodes (P.codec i) (phase (s.consumer i)) ((sent (s.log.calls i)).map AVPacket.payload)
    (frames (s.log.calls i)) (s.dec i)

theorem inLoop_step {a : Act} {s s' : State P} (h : step s a = some s') (i : Side)
    (hl : InLoop i s) : InLoop i s' := by
  unfold InLoop at hl ⊢
  cases decoderStep h i with
  | quiet calls dec phase body idle => rwa [calls, dec, phase]
  | send p before after calls dec =>
      rw [before] at hl
      rw [after, calls, dec, sent_send, frames_send, List.map_append]
      split
      next hr => exact hl.accept p.payload hr
      next hr => exact hl.reject p.payload hr
  | receive p before after calls dec =>
      rw [before] at hl
      rw [after, calls, dec, sent_receive, frames_receive]
      split
      next hr => exact hl.frame hr
      next hr => rw [List.append_nil]; exact hl.stop hr

theorem inLoop {file : List Payload} {acts : List Act} {s : State P} (h : Runs file acts s) (i : Side) :
    InLoop i s :=
  Transition.invariant (I := InLoop i) (fun _ _ _ hl h => inLoop_step h i hl) (by exact .init) h

/-- The frames received since the last packet was sent: before it the decoder had been read out. -/
def SinceSend (i : Side) (s : State P) : Prop :=
  phase (s.consumer i) = .reading → ∃ ps p fs gs d,
    sent (s.log.calls i) = ps ++ [p] ∧ frames (s.log.calls i) = fs ++ gs ∧
    Decodes (P.codec i) .idle (ps.map AVPacket.payload) fs d ∧ ((s.consumer i).body ≠ none → gs ≠ [])

theorem sinceSend_step {a : Act} {s s' : State P} (h : step s a = some s') (i : Side)
    (hl : InLoop i s) (hs : SinceSend i s) : SinceSend i s' := by
  unfold SinceSend at hs ⊢
  cases decoderStep h i with
  | quiet calls dec phase body idle =>
      rw [calls, phase]
      intro hread
      obtain ⟨ps, p, fs, gs, d, hsent, hframes, hdec, hbody⟩ := hs hread
      exact ⟨ps, p, fs, gs, d, hsent, hframes, hdec, fun hb => hbody (fun hn => hb (body hn))⟩
  | send p before after calls dec =>
      rw [InLoop, before] at hl
      rw [after, calls, sent_send, frames_send]
      split
      next hr => exact fun _ => ⟨_, p, _, [], s.dec i, rfl, (List.append_nil _).symm, hl, by simp [ConsumerPc.body]⟩
      next => exact fun hread => by cases hread
  | receive p before after calls dec =>
      rw [before] at hs
      rw [after, calls, sent_receive, frames_receive]
      split
      next hr =>
        obtain ⟨ps, q, fs, gs, d, hsent, hframes, hdec, -⟩ := hs rfl
        exact fun _ => ⟨ps, q, fs, gs ++ [((P.codec i).receive (s.dec i)).2.1], d, hsent,
          by rw [hframes, List.append_assoc], hdec, by simp⟩
      next => exact fun hread => by cases hread

theorem sinceSend {file : List Payload} {acts : List Act} {s : State P} (h : Runs file acts s) (i : Side) :
    SinceSend i s :=
  (Transition.invariant (I := fun s => InLoop i s ∧ SinceSend i s)
    (fun _ _ _ hs h => ⟨inLoop_step h i hs.1, sinceSend_step h i hs.1 hs.2⟩)
    ⟨by exact .init, fun hread => by cases hread⟩ h).2

/-- A frame a decoder returns is the one its receive loop's body begins with;
in every other step the frames returned so far stay the same. -/
theorem frames_step {a : Act} {s s' : State P} (h : step s a = some s') (i : Side) :
    (frames (s'.log.calls i) = frames (s.log.calls i) ∧
      ((s.consumer i).body = none → (s'.consumer i).body = none)) ∨
    ((s.consumer i).body = none ∧ ∃ f, frames (s'.log.calls i) = frames (s.log.calls i) ++ [f] ∧
      (s'.consumer i).body = some (onFrame i f)) := by
  cases decoderStep h i with
  | quiet calls dec phase body idle => exact Or.inl ⟨by rw [calls], body⟩
  | send p before after calls dec =>
      refine Or.inl ⟨by rw [calls, frames_send], fun _ => ?_⟩
      rw [after]
      split <;> rfl
  | receive p before after calls dec =>
      rw [after, calls, frames_receive, before]
      split
      next => exact Or.inr ⟨rfl, _, rfl, rfl⟩
      next => exact Or.inl ⟨List.append_nil _, fun _ => rfl⟩

/-- What avcodec_receive_frame returns in this step, with the context it leaves. -/
def received (s : State P) (i : Side) (a : Act) : List (AVFrame × (P.codec i).State) :=
  match s.consumer i with
  | .receive _ =>
      if a = .consumer i ∧ ((P.codec i).receive (s.dec i)).1 = 0 then [((P.codec i).receive (s.dec i)).2]
      else []
  | _ => []

theorem received_of_ne {s : State P} {i : Side} {a : Act} (h : a ≠ .consumer i) : received s i a = [] := by
  unfold received
  split
  next => exact if_neg (fun ha => h ha.1)
  next => rfl

theorem frames_received {a : Act} {s s' : State P} (h : step s a = some s') (i : Side) :
    frames (s'.log.calls i) = frames (s.log.calls i) ++ (received s i a).map Prod.fst := by
  by_cases ha : a = .consumer i
  · subst ha
    cases consumerThread_move (step_consumer h) with
    | receive p f d hpc hr => simp [received, hpc, hr]
    | drained p r f d hpc hreceive hr => simp [received, hpc, hreceive, hr]
    | lock hpc => rcases hpc with hpc | hpc <;> simp [received, hpc]
    | enter hpc | leave hpc | ready hpc | unready hpc | block hpc | goOn hpc | stop hpc
    | breakUnlock hpc | pop p q hpc | unlock p hpc | ctx p hpc | accept p d hpc | reject p r d hpc
    | body p k o next hpc | free p hpc => simp [received, hpc]
  · rw [received_of_ne ha, List.map_nil, List.append_nil]
    cases decoderStep h i with
    | quiet calls => rw [calls]
    | send | receive => exact absurd rfl ha

theorem mem_frames_of_run {file : List Payload} {pre post : List Act} {t s : State P}
    (ht : Runs file pre t) (hs : Runs file (pre ++ post) s) (i : Side) {f : AVFrame}
    (hf : f ∈ frames (t.log.calls i)) : f ∈ frames (s.log.calls i) := by
  have hrun : Transition.run step t post = some s := by
    rw [Runs, Transition.run_append, ht] at hs
    exact hs
  refine Transition.invariant (I := fun s : State P => f ∈ frames (s.log.calls i))
    (fun s a s' hf h => ?_) hf hrun
  rcases frames_step h i with ⟨hsame, -⟩ | ⟨-, g, hmore, -⟩
  · rwa [hsame]
  · rw [hmore]
    exact List.mem_append_left _ hf

/-- After each frame, and before the first, the run passes through a state
outside the body of the receive loop. -/
theorem between_frames {i : Side} {file : List Payload} {acts : List Act} {s : State P}
    (h : Runs file acts s) {n : Nat} (hn : n ≤ (frames (s.log.calls i)).length)
    (hb : (s.consumer i).body = none ∨ n < (frames (s.log.calls i)).length) :
    ∃ pre post, ∃ t : State P, acts = pre ++ post ∧ Runs file pre t ∧ (t.consumer i).body = none ∧
      frames (t.log.calls i) = (frames (s.log.calls i)).take n := by
  induction acts using List.reverseRecOn generalizing s with
  | nil =>
      cases h
      exact ⟨[], [], _, rfl, rfl, rfl, by simp [start, frames]⟩
  | append_singleton acts a ih =>
      obtain ⟨u, hu, ha⟩ := Transition.run_snoc h
      have hcase : ((s.consumer i).body = none ∧ n = (frames (s.log.calls i)).length) ∨
          (n ≤ (frames (u.log.calls i)).length ∧
            ((u.consumer i).body = none ∨ n < (frames (u.log.calls i)).length) ∧
            (frames (s.log.calls i)).take n = (frames (u.log.calls i)).take n) := by
        rcases frames_step ha i with ⟨hf, -⟩ | ⟨hnone, f, hf, hs⟩
        · rw [hf] at hn hb ⊢
          rcases hn.lt_or_eq with hlt | heq
          · exact Or.inr ⟨hn, Or.inr hlt, rfl⟩
          · exact Or.inl ⟨hb.resolve_right (by omega), heq⟩
        · rw [hf, List.length_append, List.length_singleton] at hb
          rw [hs] at hb
          have hle : n ≤ (frames (u.log.calls i)).length := by simpa [Nat.lt_succ_iff] using hb
          refine Or.inr ⟨hle, Or.inl hnone, ?_⟩
          rw [hf, List.take_append_of_le_length hle]
      rcases hcase with ⟨hs, hlen⟩ | ⟨hle, hor, htake⟩
      · exact ⟨acts ++ [a], [], s, by simp, h, hs, by rw [hlen, List.take_length]⟩
      · obtain ⟨pre, post, t, rfl, ht, hbt, hft⟩ := ih hu hle hor
        exact ⟨pre, post ++ [a], t, by simp, ht, hbt, by rw [hft, htake]⟩

end FfmpegPlayer.Decoding
