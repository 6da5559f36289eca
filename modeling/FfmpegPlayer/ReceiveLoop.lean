import FfmpegPlayer.SimpleDecoder
import Mathlib.Tactic.Common

namespace FfmpegPlayer.ReceiveLoop

open SendReceive SimpleDecoder

variable {π φ : Type} {c : FFCodec π φ}

@[simp] theorem takePacket_inPkt (s : AVCodecInternal c) (p : π) :
    (takePacket s p).inPkt = some ⟨p, 0⟩ := by
  unfold takePacket extractPacketProps
  grind

theorem takePacket_work {s : AVCodecInternal c} {p : π} (hp : s.bsfBufferPkt = some p) :
    work (takePacket s p) < work s := by
  have htake : work (takePacket s p) = 2 * c.size p + 1 + c.left s.priv + (if s.drainingDone then 0 else 1) := by
    unfold takePacket extractPacketProps
    grind [work, bytesLeft]
  rw [htake, work, bytesLeft, hp]
  simp only
  omega

inductive Fetch (s : AVCodecInternal c) : Int × AVCodecInternal c → Prop
  | inHand (h : hasData c s.inPkt = true ∨ s.draining = true) : Fetch s (0, s)
  | ended (hd : s.draining = false) (he : s.bsfEof = true) :
      Fetch s (eof, { s with inPkt := none, draining := true })
  | empty (hd : s.draining = false) (he : s.bsfEof = false) (hp : s.bsfBufferPkt = none) :
      Fetch s (eagain, { s with inPkt := none })
  | packet (p : π) (hd : s.draining = false) (he : s.bsfEof = false) (hp : s.bsfBufferPkt = some p) :
      Fetch s (0, takePacket { s with inPkt := none } p)

theorem fetchPacket_fetch (s : AVCodecInternal c) : Fetch s (fetchPacket s) := by
  unfold fetchPacket
  split
  next h =>
    unfold ffDecodeGetPacket
    rw [if_neg (by simp [h.2])]
    split
    next he => exact .ended h.2 he
    next he =>
      split
      next hp => exact .empty h.2 (by simpa using he) hp
      next p hp => exact .packet p h.2 (by simpa using he) hp
  next h =>
    refine .inHand ?_
    by_contra hn
    rw [not_or, Bool.not_eq_true, Bool.not_eq_true] at hn
    exact h hn

theorem drop_work (s : AVCodecInternal c) : work { s with inPkt := none } ≤ work s := by
  cases hx : s.inPkt <;> simp [work, bytesLeft, hx]

theorem Fetch.work {s : AVCodecInternal c} {r : Int × AVCodecInternal c} (h : Fetch s r) :
    SimpleDecoder.work r.2 ≤ SimpleDecoder.work s := by
  cases h with
  | inHand => exact Nat.le_refl _
  | ended | empty => exact drop_work s
  | packet p hd he hp => exact Nat.le_trans (Nat.le_of_lt (takePacket_work hp)) (drop_work s)

/-- Without a packet there is nothing to decode but what draining gives. -/
theorem Fetch.draining {s : AVCodecInternal c} {r : Int × AVCodecInternal c} (h : Fetch s r)
    (hok : ¬ (r.1 < 0 ∧ r.1 ≠ eof)) (hnone : r.2.inPkt = none) : r.2.draining = true := by
  cases h with
  | inHand h => exact h.resolve_left (by simp only at hnone; simp [hnone, hasData])
  | ended => rfl
  | empty => exact absurd (by simp [eagain, eof]) hok
  | packet => simp at hnone

@[simp] theorem consume_priv (ret : Int) (s : AVCodecInternal c) : (consume ret s).priv = s.priv := by
  unfold consume
  split <;> rfl

@[simp] theorem consume_drainingDone (ret : Int) (s : AVCodecInternal c) :
    (consume ret s).drainingDone = s.drainingDone := by
  unfold consume
  split <;> rfl

theorem bytesLeft_consume_all (s : AVCodecInternal c) (ret : Int) (h : restSize c.size s.inPkt ≤ ret) :
    bytesLeft (consume ret s) + 2 * restSize c.size s.inPkt + (if s.inPkt.isSome then 1 else 0) =
      bytesLeft s := by
  rw [consume, if_pos (Or.inl h)]
  cases hx : s.inPkt with
  | none => simp [bytesLeft, hx, restSize]
  | some x =>
      simp only [bytesLeft, hx, restSize, Option.isSome_some, if_true]
      omega

theorem bytesLeft_consume_some (s : AVCodecInternal c) (ret : Int) (h : ret < restSize c.size s.inPkt)
    (hpos : 0 ≤ ret) : bytesLeft (consume ret s) + 2 * ret.toNat = bytesLeft s := by
  rw [consume, if_neg (by omega)]
  cases hx : s.inPkt with
  | none =>
      simp only [hx, restSize] at h
      omega
  | some x =>
      simp only [hx, restSize] at h
      simp only [bytesLeft, hx, Option.map_some, Rest.advance]
      omega

structure Continues (actual : Bool) (ret : Int) (s : AVCodecInternal c) (d : Int × AVCodecInternal c) :
    Prop where
  ret : d.1 = ret
  priv : d.2.priv = s.priv
  inPkt : d.2.inPkt = s.inPkt
  bytes : bytesLeft d.2 = bytesLeft s
  done : d.2.drainingDone = true ∨ ((s.draining = true → actual = true) ∧ d.2.drainingDone = s.drainingDone)

theorem stopDraining_continues (actual : Bool) (ret : Int) (s : AVCodecInternal c)
    (h : 0 ≤ (stopDraining actual ret s).1) : Continues actual ret s (stopDraining actual ret s) := by
  unfold stopDraining at h ⊢
  split
  next hd =>
    rw [if_pos hd] at h
    split
    next hneg =>
      rw [if_pos hneg] at h
      split at h
      · simp [averrorBug] at h
      · exact absurd h (Int.not_le.mpr hneg)
    next hpos => exact ⟨rfl, rfl, rfl, rfl, Or.inl rfl⟩
  next hd =>
    refine ⟨rfl, rfl, rfl, rfl, Or.inr ⟨fun ht => ?_, rfl⟩⟩
    by_contra ha
    exact hd ⟨ht, by simpa using ha⟩

theorem bytesRead_of_lt (video : Bool) (rest : Nat) (ret : Int) (hlt : bytesRead video rest ret < rest)
    (hpos : 0 ≤ bytesRead video rest ret) : video = false ∧ bytesRead video rest ret = ret := by
  unfold bytesRead at hlt hpos ⊢
  split
  next h =>
    rw [if_pos h] at hlt
    omega
  next h =>
    rw [if_neg h] at hpos
    refine ⟨?_, rfl⟩
    cases video with
    | false => rfl
    | true => exact absurd ⟨hpos, rfl⟩ h

/-- A turn that keeps no frame and is no error brings the loop nearer to its end. -/
theorem decodeInPkt_work {s : AVCodecInternal c} (hin : s.inPkt = none → s.draining = true)
    (hdone : s.drainingDone = false) (hret : (decodeInPkt s).ret = 0) (hframe : (decodeInPkt s).frame = none) :
    work (decodeInPkt s).state < work s := by
  simp only [decodeInPkt] at hret hframe ⊢
  have hleft := c.frames_left s.priv s.inPkt s.lastPktProps
  have hprogress := c.progress s.priv s.inPkt s.lastPktProps hframe
  generalize c.decode s.priv s.inPkt s.lastPktProps = r at hleft hprogress hret ⊢
  generalize hrest : restSize c.size s.inPkt = rest at hleft hprogress hret ⊢
  generalize hbytes : bytesRead c.video rest r.ret = ret at hret ⊢
  have hd := stopDraining_continues r.actualGotFrame ret { s with priv := r.state } (by
      by_contra hneg
      rw [if_pos (by omega)] at hret
      omega)
  generalize stopDraining r.actualGotFrame ret { s with priv := r.state } = d at hret hd ⊢
  have hpos : 0 ≤ ret := by
    rw [← hd.ret]
    by_contra hneg
    rw [if_pos (by omega)] at hret
    omega
  have hbytes_d : bytesLeft d.2 = bytesLeft s := hd.bytes
  have hrest_d : restSize c.size d.2.inPkt = rest := by rw [hd.inPkt, hrest]
  have hpriv : d.2.priv = r.state := hd.priv
  rw [hd.ret, work, work, consume_priv, consume_drainingDone, hpriv, hdone]
  by_cases hall : (rest : Int) ≤ ret
  · have hconsume := bytesLeft_consume_all d.2 ret (by rw [hrest_d]; exact hall)
    rw [hrest_d, hd.inPkt] at hconsume
    rw [bytesGone, hbytes, if_pos (Or.inl hall)] at hleft
    rcases hd.done with htrue | ⟨hactual, hsame⟩
    · rw [htrue]
      simp only [Bool.false_eq_true, if_false, if_true]
      omega
    · have hsame : d.2.drainingDone = false := hsame.trans hdone
      rw [hsame]
      cases hx : s.inPkt with
      | none =>
          rw [hactual (hin hx)] at hleft
          simp only [hx, Option.isSome_none, Bool.false_eq_true, if_false, if_true] at hconsume hleft ⊢
          omega
      | some x =>
          simp only [hx, Option.isSome_some, Bool.false_eq_true, if_false, if_true] at hconsume ⊢
          omega
  · have hpart := bytesRead_of_lt c.video rest r.ret (by omega) (by omega)
    have hconsume := bytesLeft_consume_some d.2 ret (by rw [hrest_d]; omega) hpos
    have hnonzero : r.ret ≠ 0 := by
      intro hz
      rcases hprogress hz with hv | hv
      · rw [hpart.1] at hv
        cases hv
      · omega
    have hnot : ¬ ((rest : Int) ≤ ret ∨ ret < 0) := by omega
    rw [bytesGone, hbytes, if_neg hnot] at hleft
    have hflag : (if d.2.drainingDone = true then 0 else 1) ≤ 1 := by split <;> omega
    simp only [Bool.false_eq_true, if_false]
    omega

theorem decodeSimpleInternal_ret_le (s : AVCodecInternal c) : (decodeSimpleInternal s).ret ≤ 0 := by
  unfold decodeSimpleInternal decodeFetched
  split
  next h => exact Int.le_of_lt h.1
  split
  · simp [eof]
  split
  · simp [eof]
  simp only [decodeInPkt]
  split <;> omega

theorem decodeSimpleInternal_work {s : AVCodecInternal c} (hret : (decodeSimpleInternal s).ret = 0)
    (hframe : (decodeSimpleInternal s).frame = none) : work (decodeSimpleInternal s).state < work s := by
  have hfetch := fetchPacket_fetch s
  unfold decodeSimpleInternal at hret hframe ⊢
  generalize fetchPacket s = r at hfetch hret hframe ⊢
  refine Nat.lt_of_lt_of_le ?_ hfetch.work
  unfold decodeFetched at hret hframe ⊢
  split at hret
  next hneg => exact absurd hret (Int.ne_of_lt hneg.1)
  next hok =>
    rw [if_neg hok] at hframe ⊢
    split at hret
    · simp [eof] at hret
    next hdone =>
      rw [if_neg hdone] at hframe ⊢
      split at hret
      · simp [eof] at hret
      next hdata =>
        rw [if_neg hdata] at hframe ⊢
        exact decodeInPkt_work (hfetch.draining hok) (by simpa using hdone) hret hframe

theorem turns_enough {n m k : Nat} {s : AVCodecInternal c} (hn : work s < n) (hm : work s < m) :
    turns n k s = turns m k s := by
  induction n generalizing m k s with
  | zero => omega
  | succ n ih =>
      cases m with
      | zero => omega
      | succ m =>
          simp only [turns]
          split
          · rfl
          split
          · rfl
          next hret =>
            split
            · rfl
            next hframe =>
              have hzero : (decodeSimpleInternal s).ret = 0 :=
                Int.le_antisymm (decodeSimpleInternal_ret_le s) (Int.not_lt.mp hret)
              have hlt := decodeSimpleInternal_work hzero (by simpa using hframe)
              exact ih (by omega) (by omega)

/-- The loop, one turn at a time. -/
theorem receiveLoop_eq (k : Nat) (s : AVCodecInternal c) :
    receiveLoop k s =
      if c.maxSamples < k then ⟨eagain, none, s⟩
      else if (decodeSimpleInternal s).ret < 0 then
        ⟨(decodeSimpleInternal s).ret, (decodeSimpleInternal s).frame, (decodeSimpleInternal s).state⟩
      else if (decodeSimpleInternal s).frame.isSome then
        ⟨0, (decodeSimpleInternal s).frame, (decodeSimpleInternal s).state⟩
      else receiveLoop (k + (decodeSimpleInternal s).discardedSamples) (decodeSimpleInternal s).state := by
  rw [receiveLoop, turns]
  by_cases hmax : c.maxSamples < k
  · rw [if_pos hmax, if_pos hmax]
  · rw [if_neg hmax, if_neg hmax]
    by_cases hret : (decodeSimpleInternal s).ret < 0
    · simp only [hret, if_true]
    · by_cases hframe : (decodeSimpleInternal s).frame.isSome = true
      · simp only [hret, hframe, if_true, if_false]
      · have hzero : (decodeSimpleInternal s).ret = 0 :=
          Int.le_antisymm (decodeSimpleInternal_ret_le s) (Int.not_lt.mp hret)
        simp only [hret, hframe, if_false]
        exact turns_enough (decodeSimpleInternal_work hzero (by simpa using hframe)) (Nat.lt_succ_self _)

/-- The bytes and frames that the context and its decoder hold: a frame is made
of one of them at least. -/
def held (s : AVCodecInternal c) : Nat :=
  restSize c.size s.inPkt + s.bsfBufferPkt.elim 0 c.size + c.left s.priv

theorem Fetch.held {s : AVCodecInternal c} {r : Int × AVCodecInternal c} (h : Fetch s r) :
    ReceiveLoop.held r.2 ≤ ReceiveLoop.held s := by
  cases h with
  | inHand => exact Nat.le_refl _
  | ended | empty => simp [ReceiveLoop.held, restSize]
  | packet p hd he hp =>
      unfold takePacket extractPacketProps
      grind [ReceiveLoop.held, restSize]

theorem stopDraining_frame (actual : Bool) (ret : Int) (s : AVCodecInternal c) :
    (stopDraining actual ret s).2.inPkt = s.inPkt ∧ (stopDraining actual ret s).2.priv = s.priv ∧
    (stopDraining actual ret s).2.bsfBufferPkt = s.bsfBufferPkt := by
  unfold stopDraining
  grind

theorem stopDraining_ret (actual : Bool) (ret : Int) (s : AVCodecInternal c) :
    (stopDraining actual ret s).1 = ret ∨ (ret < 0 ∧ (stopDraining actual ret s).1 < 0) := by
  unfold stopDraining averrorBug
  grind

theorem held_consume (video : Bool) (ret code : Int) (s : AVCodecInternal c)
    (hcode : code = bytesRead video (restSize c.size s.inPkt) ret ∨
      (bytesRead video (restSize c.size s.inPkt) ret < 0 ∧ code < 0)) :
    held (consume code s) + bytesGone video (restSize c.size s.inPkt) ret ≤ held s := by
  generalize hbytes : bytesRead video (restSize c.size s.inPkt) ret = n at hcode
  rw [bytesGone, hbytes]
  by_cases hall : restSize c.size s.inPkt ≤ code ∨ code < 0
  · rw [consume, if_pos hall]
    change 0 + s.bsfBufferPkt.elim 0 c.size + c.left s.priv + _ ≤
      restSize c.size s.inPkt + s.bsfBufferPkt.elim 0 c.size + c.left s.priv
    split <;> omega
  · rw [consume, if_neg hall]
    obtain rfl : code = n := by omega
    rw [if_neg hall]
    cases hx : s.inPkt with
    | none =>
        simp only [hx, restSize] at hall
        omega
    | some x =>
        simp only [hx, restSize] at hall
        simp only [held, hx, Option.map_some, restSize, Rest.advance]
        omega

theorem held_decodeInPkt (s : AVCodecInternal c) :
    held (decodeInPkt s).state + (if (decodeInPkt s).frame.isSome then 1 else 0) ≤ held s := by
  obtain ⟨d, hd⟩ : ∃ d, c.decode s.priv s.inPkt s.lastPktProps = d := ⟨_, rfl⟩
  have hleft := c.frames_left s.priv s.inPkt s.lastPktProps
  have hkept := c.kept s.priv s.inPkt s.lastPktProps
  rw [hd] at hleft hkept
  simp only [decodeInPkt, hd]
  obtain ⟨hin, hpriv, hbsf⟩ := stopDraining_frame d.actualGotFrame
    (bytesRead c.video (restSize c.size s.inPkt) d.ret) { s with priv := d.state }
  have hret := stopDraining_ret d.actualGotFrame (bytesRead c.video (restSize c.size s.inPkt) d.ret)
    { s with priv := d.state }
  generalize stopDraining d.actualGotFrame (bytesRead c.video (restSize c.size s.inPkt) d.ret)
    { s with priv := d.state } = e at hin hpriv hbsf hret ⊢
  simp only at hin hpriv hbsf
  have hconsume := held_consume c.video d.ret e.1 e.2 (by rw [hin]; exact hret)
  have he : held e.2 = restSize c.size s.inPkt + s.bsfBufferPkt.elim 0 c.size + c.left d.state := by
    rw [held, hin, hpriv, hbsf]
  have hframe : (if d.frame.isSome = true then 1 else 0) ≤ (if d.actualGotFrame = true then 1 else 0) := by
    by_cases hf : d.frame.isSome = true
    · simp [hf, hkept hf]
    · simp [hf]
  rw [hin, he] at hconsume
  have hs : held s = restSize c.size s.inPkt + s.bsfBufferPkt.elim 0 c.size + c.left s.priv := rfl
  omega

theorem held_turn (s : AVCodecInternal c) : held (decodeSimpleInternal s).state +
    (if (decodeSimpleInternal s).frame.isSome then 1 else 0) ≤ held s := by
  have hfetch := (fetchPacket_fetch s).held
  unfold decodeSimpleInternal decodeFetched
  split
  · simpa using hfetch
  split
  · simpa using hfetch
  split
  · simpa using hfetch
  exact Nat.le_trans (held_decodeInPkt _) hfetch

theorem held_turns {n k : Nat} {s : AVCodecInternal c} (h : ¬ (turns n k s).ret < 0) :
    held (turns n k s).state < held s := by
  induction n generalizing k s with
  | zero => exact absurd (by simp [turns, eagain]) h
  | succ n ih =>
      have hturn := held_turn s
      simp only [turns] at h ⊢
      by_cases hmax : c.maxSamples < k
      · rw [if_pos hmax] at h
        exact absurd (by simp [eagain]) h
      rw [if_neg hmax] at h ⊢
      by_cases hneg : (decodeSimpleInternal s).ret < 0
      · rw [if_pos hneg] at h
        exact absurd hneg h
      rw [if_neg hneg] at h ⊢
      by_cases hframe : (decodeSimpleInternal s).frame.isSome = true
      · rw [if_pos hframe] at hturn ⊢
        exact hturn
      · rw [if_neg hframe] at h hturn ⊢
        exact Nat.lt_of_lt_of_le (ih h) hturn

theorem Fetch.bufferFrame {s : AVCodecInternal c} {r : Int × AVCodecInternal c} (h : Fetch s r) :
    r.2.bufferFrame = s.bufferFrame := by
  cases h with
  | inHand | ended | empty => rfl
  | packet =>
      unfold takePacket extractPacketProps
      grind

theorem decodeSimpleInternal_bufferFrame (s : AVCodecInternal c) :
    (decodeSimpleInternal s).state.bufferFrame = s.bufferFrame := by
  have hfetch := (fetchPacket_fetch s).bufferFrame
  unfold decodeSimpleInternal decodeFetched decodeInPkt consume stopDraining
  grind

theorem turns_bufferFrame (n k : Nat) (s : AVCodecInternal c) :
    (turns n k s).state.bufferFrame = s.bufferFrame := by
  induction n generalizing k s with
  | zero => rfl
  | succ n ih =>
      have hturn := decodeSimpleInternal_bufferFrame s
      simp only [turns]
      split
      · rfl
      split
      · exact hturn
      split
      · exact hturn
      · exact (ih _ _).trans hturn

theorem nextProps_frame (s : AVCodecInternal c) :
    held (nextProps s) = held s ∧ (nextProps s).bufferFrame = s.bufferFrame := by
  unfold nextProps
  split <;> exact ⟨rfl, rfl⟩

theorem held_decodeReceiveFrameInternal {s : AVCodecInternal c}
    (h : ¬ (decodeReceiveFrameInternal s).ret < 0) :
    held (decodeReceiveFrameInternal s).state < held s ∧
    (decodeReceiveFrameInternal s).state.bufferFrame = s.bufferFrame := by
  have hlt : held (decodeSimpleReceiveFrame s).state < held s := held_turns h
  have hsame : (decodeSimpleReceiveFrame s).state.bufferFrame = s.bufferFrame := turns_bufferFrame _ _ _
  have hret : (decodeSimpleReceiveFrame s).ret ≠ eof := by
    intro he
    exact h (show (decodeSimpleReceiveFrame s).ret < 0 by rw [he]; simp [eof])
  obtain ⟨hheld, hframe⟩ := nextProps_frame (decodeSimpleReceiveFrame s).state
  simp only [decodeReceiveFrameInternal, hret, if_false]
  exact ⟨hheld ▸ hlt, hframe.trans hsame⟩

def framesLeft (s : AVCodecInternal c) : Nat := held s + (if s.bufferFrame.isSome then 1 else 0)

theorem framesLeft_receive {s : AVCodecInternal c} (h : (avcodecReceiveFrame s).1 = 0) :
    framesLeft (avcodecReceiveFrame s).2.2 < framesLeft s := by
  unfold avcodecReceiveFrame at h ⊢
  cases hbuf : s.bufferFrame with
  | some f => simp [framesLeft, held, hbuf]
  | none =>
      simp only [hbuf] at h ⊢
      by_cases hneg : (decodeReceiveFrameInternal s).ret < 0
      · rw [if_pos hneg] at h
        exact absurd h (Int.ne_of_lt hneg)
      · obtain ⟨hlt, hframe⟩ := held_decodeReceiveFrameInternal hneg
        rw [if_neg hneg]
        simpa [framesLeft, hframe, hbuf] using hlt

def codecRunsDry (c : FFCodec π φ) : RunsDry (codec c) where
  left := framesLeft (c := c)
  frame _ h := framesLeft_receive h

end FfmpegPlayer.ReceiveLoop
