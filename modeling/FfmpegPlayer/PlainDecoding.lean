import FfmpegPlayer.SequentialLoop
import FfmpegPlayer.ReceiveLoop

namespace FfmpegPlayer.PlainDecoding

open SendReceive SequentialLoop SimpleDecoder ReceiveLoop StateTransition

variable {π φ : Type}

/-- Decoding without any buffers: one packet at a time is given to the decoder
until nothing is left of it, or an error drops the rest. -/
structure Plain (c : FFCodec π φ) where
  todo : List π
  inPkt : Option (Rest π)
  frames : List φ
  priv : c.State

def Plain.start (c : FFCodec π φ) (ps : List π) : Plain c := ⟨ps, none, [], c.init⟩

variable {c : FFCodec π φ}

def propsOf (c : FFCodec π φ) (x : Option (Rest π)) : Option (Rest π) :=
  if c.capSetsFrameProps then none else x

def Plain.decode (d : c.State) (x : Rest π) : Decoded φ c.State := c.decode d (some x) (propsOf c (some x))

def Plain.rest (d : c.State) (x : Rest π) : Option (Rest π) :=
  let ret := bytesRead c.video (c.size x.packet - x.consumed) (decode d x).ret
  if (c.size x.packet - x.consumed : Nat) ≤ ret ∨ ret < 0 then none else some (x.advance ret.toNat)

def Plain.next (l : Plain c) : Option (Plain c) :=
  match l.inPkt, l.todo with
  | some x, _ =>
      some { l with
        inPkt := rest l.priv x
        frames := l.frames ++ (decode l.priv x).frame.toList.map c.crop
        priv := (decode l.priv x).state }
  | none, p :: ps => some { l with todo := ps, inPkt := if c.size p = 0 then none else some ⟨p, 0⟩ }
  | none, [] => none

/-- What is asked of a decoder given data: a failed turn yields no frame, none
reports the end of the stream, and one discards so many samples at most. The
decoders of GIF and TIFF do report the end of the stream. -/
structure Mannered (c : FFCodec π φ) (drops : Nat) : Prop where
  failed : ∀ d x props, (c.decode d x props).ret < 0 → (c.decode d x props).frame = none
  not_eof : ∀ d x props, (c.decode d x props).ret ≠ eof
  drops_le : ∀ d x props, (c.decode d x props).discardedSamples ≤ drops

structure Sized (c : FFCodec π φ) (drops : Nat) (p : π) : Prop where
  data : c.data p = true
  few : c.size p * drops ≤ c.maxSamples

/-- Between two calls, while packets with data are sent: nothing waits in the
filter, and the properties at hand are those of the packet at hand. -/
structure Holding (drops : Nat) (s : AVCodecInternal c) : Prop where
  draining : s.draining = false
  drainingDone : s.drainingDone = false
  bsfEof : s.bsfEof = false
  bsfBufferPkt : s.bsfBufferPkt = none
  pktProps : s.pktProps = []
  lastPktProps : s.lastPktProps = propsOf c s.inPkt
  sized : ∀ x, s.inPkt = some x → Sized c drops x.packet ∧ x.consumed < c.size x.packet

variable {drops : Nat}

theorem holding_start : Holding drops (AVCodecInternal.start c) :=
  ⟨rfl, rfl, rfl, rfl, rfl, by simp [AVCodecInternal.start, propsOf], by simp [AVCodecInternal.start]⟩

def afterTurn (s : AVCodecInternal c) (x : Rest π) : AVCodecInternal c :=
  { s with
    inPkt := Plain.rest s.priv x
    lastPktProps := propsOf c (Plain.rest s.priv x)
    priv := (Plain.decode s.priv x).state }

theorem decodeSimpleInternal_some {s : AVCodecInternal c} (hs : Holding drops s) {x : Rest π}
    (hx : s.inPkt = some x) : decodeSimpleInternal s =
      ⟨if (Plain.decode s.priv x).ret < 0 then (Plain.decode s.priv x).ret else 0,
        (Plain.decode s.priv x).frame, (Plain.decode s.priv x).discardedSamples, afterTurn s x⟩ := by
  have hdata : hasData c s.inPkt = true := by rw [hx]; exact (hs.sized x hx).1.data
  have hfetch : fetchPacket s = (0, s) := by
    rw [fetchPacket, if_neg (by simp [hdata])]
  have hprops : s.lastPktProps = propsOf c (some x) := by rw [hs.lastPktProps, hx]
  rw [decodeSimpleInternal, hfetch, decodeFetched, if_neg (by simp), if_neg (by simp [hs.drainingDone]),
    if_neg (by simp [hdata]), decodeInPkt]
  have hstop : ∀ actual ret (t : AVCodecInternal c), t.draining = false →
      stopDraining actual ret t = (ret, t) := by
    intro actual ret t ht
    rw [stopDraining, if_neg (by simp [ht])]
  have hdecode : c.decode s.priv s.inPkt s.lastPktProps = Plain.decode s.priv x := by
    rw [hx, hprops, Plain.decode]
  simp only [hdecode, hstop _ _ { s with priv := (Plain.decode s.priv x).state } hs.draining]
  have hneg : bytesRead c.video (restSize c.size s.inPkt) (Plain.decode s.priv x).ret < 0 ↔
      (Plain.decode s.priv x).ret < 0 := by
    unfold bytesRead
    split <;> omega
  congr 1
  · simp only [hneg]
    split
    next h => rw [bytesRead, if_neg (by omega)]
    next h => rfl
  · unfold consume afterTurn Plain.rest propsOf
    simp only [hx, hprops, restSize]
    split
    · simp
    · grind [propsOf]

theorem decodeSimpleInternal_none {s : AVCodecInternal c} (hs : Holding drops s) (hx : s.inPkt = none) :
    decodeSimpleInternal s = ⟨eagain, none, 0, s⟩ := by
  have hdrop : { s with inPkt := none } = s := by rw [← hx]
  rw [decodeSimpleInternal, fetchPacket, if_pos ⟨by rw [hx]; rfl, hs.draining⟩, hdrop, ffDecodeGetPacket,
    if_neg (by simp [hs.draining]), if_neg (by simp [hs.bsfEof]), hs.bsfBufferPkt]
  simp [decodeFetched, eagain, eof]

theorem holding_afterTurn {s : AVCodecInternal c} (hs : Holding drops s) {x : Rest π} (hx : s.inPkt = some x) :
    Holding drops (afterTurn s x) := by
  refine ⟨hs.draining, hs.drainingDone, hs.bsfEof, hs.bsfBufferPkt, hs.pktProps, rfl, fun y hy => ?_⟩
  have hd := hs.sized x hx
  simp only [afterTurn, Plain.rest] at hy
  split at hy
  · cases hy
  next hrest =>
    simp only [Option.some.injEq] at hy
    rw [← hy]
    simp only [Rest.advance]
    exact ⟨hd.1, by omega⟩

theorem rest_of_neg {d : c.State} {x : Rest π} (h : (Plain.decode d x).ret < 0) : Plain.rest d x = none := by
  have hneg : bytesRead c.video (c.size x.packet - x.consumed) (Plain.decode d x).ret < 0 := by
    rw [bytesRead, if_neg (by omega)]
    exact h
  simp only [Plain.rest]
  rw [if_pos (Or.inr hneg)]

/-- A turn without a frame that is no error leaves less of the packet. -/
theorem rest_lt {d : c.State} {x : Rest π} (hx : x.consumed < c.size x.packet)
    (hframe : (Plain.decode d x).frame = none) :
    restSize c.size (Plain.rest d x) < c.size x.packet - x.consumed := by
  have hprogress := c.progress d (some x) _ hframe
  simp only [Plain.rest]
  split
  · simp only [restSize]
    omega
  next hrest =>
    have hpart := bytesRead_of_lt c.video (c.size x.packet - x.consumed) (Plain.decode d x).ret
      (by omega) (by omega)
    have hnonzero : (Plain.decode d x).ret ≠ 0 := by
      intro hz
      rcases hprogress hz with hv | hv
      · rw [hpart.1] at hv
        cases hv
      · simp only [restSize] at hv
        omega
    simp only [restSize, Rest.advance]
    omega

structure Outcome (drops : Nat) (s : AVCodecInternal c) (r : Received c) : Prop where
  holding : Holding drops r.state
  bufferFrame : r.state.bufferFrame = s.bufferFrame
  plain : ∀ todo fs, Reaches Plain.next ⟨todo, s.inPkt, fs, s.priv⟩
    ⟨todo, r.state.inPkt, fs ++ r.frame.toList.map c.crop, r.state.priv⟩
  ended : (r.ret = 0 ∧ ∃ f, r.frame = some f) ∨
    (r.ret < 0 ∧ r.ret ≠ eof ∧ r.frame = none ∧ r.state.inPkt = none)

theorem Outcome.of_afterTurn {s : AVCodecInternal c} {x : Rest π} (hx : s.inPkt = some x) {r : Received c}
    (hframe : (Plain.decode s.priv x).frame = none) (hr : Outcome drops (afterTurn s x) r) : Outcome drops s r := by
  refine ⟨hr.holding, hr.bufferFrame, fun todo fs => .head ?_ (hr.plain todo fs), hr.ended⟩
  rw [hx]
  simp [Plain.next, hframe, afterTurn]

theorem receiveLoop_outcome (hc : Mannered c drops) {s : AVCodecInternal c} (hs : Holding drops s) {k : Nat}
    (hk : k + restSize c.size s.inPkt * drops ≤ c.maxSamples) : Outcome drops s (receiveLoop k s) := by
  induction hn : restSize c.size s.inPkt using Nat.strongRecOn generalizing s k with
  | ind n ih =>
      have hmax : ¬ c.maxSamples < k := by omega
      rw [receiveLoop_eq, if_neg hmax]
      cases hx : s.inPkt with
      | none =>
          rw [decodeSimpleInternal_none hs hx, if_pos (by simp [eagain])]
          refine ⟨hs, rfl, fun todo fs => ?_, Or.inr ⟨by simp [eagain], by simp [eagain, eof], rfl, hx⟩⟩
          simp [hx, Reaches, Relation.ReflTransGen.refl]
      | some x =>
          have hd := hs.sized x hx
          have hafter := holding_afterTurn hs hx
          have hplain : ∀ todo fs, Reaches Plain.next ⟨todo, s.inPkt, fs, s.priv⟩
              ⟨todo, Plain.rest s.priv x, fs ++ (Plain.decode s.priv x).frame.toList.map c.crop,
                (Plain.decode s.priv x).state⟩ := by
            intro todo fs
            rw [hx]
            exact .single rfl
          rw [decodeSimpleInternal_some hs hx]
          by_cases hneg : (Plain.decode s.priv x).ret < 0
          · simp only [hneg, if_true]
            exact ⟨hafter, rfl, hplain,
              Or.inr ⟨hneg, hc.not_eof _ _ _, hc.failed _ _ _ hneg, rest_of_neg hneg⟩⟩
          · simp only [hneg, if_false, Int.lt_irrefl]
            cases hframe : (Plain.decode s.priv x).frame with
            | some f =>
                simp only [Option.isSome_some, if_true]
                exact ⟨hafter, rfl, hframe ▸ hplain, Or.inl ⟨rfl, f, rfl⟩⟩
            | none =>
                simp only [Option.isSome_none, Bool.false_eq_true, if_false]
                have hlt : restSize c.size (afterTurn s x).inPkt < n := by
                  rw [← hn, hx]
                  exact rest_lt hd.2 hframe
                have hdrops : (Plain.decode s.priv x).discardedSamples ≤ drops := hc.drops_le _ _ _
                have hless := Nat.mul_le_mul_right drops hlt
                rw [Nat.succ_mul] at hless
                rw [hn] at hk
                exact .of_afterTurn hx hframe (ih _ hlt hafter (by omega) rfl)

theorem Holding.few {s : AVCodecInternal c} (hs : Holding drops s) :
    restSize c.size s.inPkt * drops ≤ c.maxSamples := by
  cases hx : s.inPkt with
  | none => simp [restSize]
  | some x => exact (Nat.mul_le_mul_right drops (Nat.sub_le _ _)).trans (hs.sized x hx).1.few

theorem decodeReceiveFrameInternal_eq {s t : AVCodecInternal c} (h : Outcome drops t (receiveLoop 0 s)) :
    decodeReceiveFrameInternal s = receiveLoop 0 s := by
  have heof : (receiveLoop 0 s).ret ≠ eof := by
    rcases h.ended with ⟨hr, -⟩ | ⟨-, hr, -⟩
    · rw [hr]
      simp [eof]
    · exact hr
  have hprops := h.holding.pktProps
  have hnext : nextProps (receiveLoop 0 s).state = (receiveLoop 0 s).state := by
    unfold nextProps
    grind
  rw [decodeReceiveFrameInternal, decodeSimpleReceiveFrame]
  simp only [heof, if_false, hnext]

theorem decodeReceiveFrameInternal_outcome (hc : Mannered c drops) {s : AVCodecInternal c}
    (hs : Holding drops s) : Outcome drops s (decodeReceiveFrameInternal s) := by
  have h := receiveLoop_outcome hc hs (k := 0) (by rw [Nat.zero_add]; exact hs.few)
  rw [decodeReceiveFrameInternal_eq h]
  exact h

def loaded (s : AVCodecInternal c) (p : π) : AVCodecInternal c :=
  { s with inPkt := some ⟨p, 0⟩, lastPktProps := propsOf c (some ⟨p, 0⟩) }

theorem takePacket_eq {s : AVCodecInternal c} (hs : Holding drops s) (hin : s.inPkt = none) (p : π) :
    takePacket { s with bsfBufferPkt := some p, inPkt := none } p = loaded s p := by
  have hlast : s.lastPktProps = none := by
    rw [hs.lastPktProps, hin]
    simp [propsOf]
  have hb := hs.bsfBufferPkt
  have hq := hs.pktProps
  unfold takePacket extractPacketProps loaded propsOf
  grind

theorem receiveLoop_sent {s : AVCodecInternal c} (hs : Holding drops s) (hin : s.inPkt = none) {p : π}
    (hp : c.data p = true) :
    receiveLoop 0 { s with bsfBufferPkt := some p } = receiveLoop 0 (loaded s p) := by
  have hfetch : fetchPacket { s with bsfBufferPkt := some p } = (0, loaded s p) := by
    rw [fetchPacket, if_pos ⟨by simp [hin, hasData], hs.draining⟩, ffDecodeGetPacket,
      if_neg (by simp [hs.draining]), if_neg (by simp [hs.bsfEof])]
    simp only [takePacket_eq hs hin]
  have hhand : fetchPacket (loaded s p) = (0, loaded s p) := by
    rw [fetchPacket, if_neg (by simp [loaded, hasData, hp])]
  have hturn : decodeSimpleInternal { s with bsfBufferPkt := some p } = decodeSimpleInternal (loaded s p) := by
    rw [decodeSimpleInternal, decodeSimpleInternal, hfetch, hhand]
  rw [receiveLoop_eq 0 { s with bsfBufferPkt := some p }, receiveLoop_eq 0 (loaded s p), hturn,
    if_neg (Nat.not_lt_zero _), if_neg (Nat.not_lt_zero _)]

theorem holding_loaded {s : AVCodecInternal c} (hs : Holding drops s) {p : π} (hp : Sized c drops p)
    (hsize : c.size p ≠ 0) : Holding drops (loaded s p) := by
  refine ⟨hs.draining, hs.drainingDone, hs.bsfEof, hs.bsfBufferPkt, hs.pktProps, rfl, fun x hx => ?_⟩
  simp only [loaded, Option.some.injEq] at hx
  rw [← hx]
  exact ⟨hp, Nat.pos_of_ne_zero hsize⟩

def buffered (s : AVCodecInternal c) : List φ := s.bufferFrame.toList.map c.crop

structure Called (drops : Nat) (code : Int) (s : AVCodecInternal c) : Prop where
  holding : Holding drops s
  idle : code ≠ 0 → s.inPkt = none ∧ s.bufferFrame = none

theorem send_called (hc : Mannered c drops) {s : AVCodecInternal c} (hs : Holding drops s)
    (hin : s.inPkt = none) (hbuf : s.bufferFrame = none) {p : π} (hp : Sized c drops p) :
    Called drops (avcodecSendPacket s (some p)).1 (avcodecSendPacket s (some p)).2 ∧
    (avcodecSendPacket s (some p)).1 ≠ eagain ∧
    ∀ todo fs, Reaches Plain.next ⟨p :: todo, none, fs, s.priv⟩
      ⟨todo, (avcodecSendPacket s (some p)).2.inPkt, fs ++ buffered (avcodecSendPacket s (some p)).2,
        (avcodecSendPacket s (some p)).2.priv⟩ := by
  rw [avcodecSendPacket, if_neg (by simp [hs.draining])]
  by_cases hsize : c.size p = 0
  · rw [if_pos (by simp [hsize, hp.data])]
    refine ⟨⟨hs, fun _ => ⟨hin, hbuf⟩⟩, by simp [einval, eagain], fun todo fs => .single ?_⟩
    simp [Plain.next, hsize, hin, hbuf, buffered]
  · have hbsf : avBsfSendPacket s ((some p).filter (fun p => c.data p || c.sideData p)) =
        (0, { s with bsfBufferPkt := some p }) := by
      simp [Option.filter, hp.data, avBsfSendPacket, hs.bsfEof, hs.bsfBufferPkt]
    have hr := receiveLoop_outcome hc (holding_loaded hs hp hsize) (k := 0)
      (by rw [Nat.zero_add]; exact (holding_loaded hs hp hsize).few)
    rw [← receiveLoop_sent hs hin hp.data] at hr
    have hdecode := decodeReceiveFrameInternal_eq hr
    generalize receiveLoop 0 { s with bsfBufferPkt := some p } = r at hr hdecode
    rw [if_neg (by simp [hp.data, hsize]), hbsf, if_neg (by simp)]
    simp only [hdecode]
    simp only [hbuf, Option.isSome_none, Bool.false_eq_true, if_false]
    have hhold : Holding drops { r.state with bufferFrame := r.frame } :=
      ⟨hr.holding.draining, hr.holding.drainingDone, hr.holding.bsfEof, hr.holding.bsfBufferPkt,
        hr.holding.pktProps, hr.holding.lastPktProps, hr.holding.sized⟩
    have hplain : ∀ todo fs, Reaches Plain.next ⟨p :: todo, none, fs, s.priv⟩
        ⟨todo, r.state.inPkt, fs ++ r.frame.toList.map c.crop, r.state.priv⟩ := by
      intro todo fs
      refine .head ?_ (hr.plain todo fs)
      simp [Plain.next, hsize, loaded]
    refine ⟨⟨hhold, fun hcode => ?_⟩, ?_, hplain⟩
    · rcases hr.ended with ⟨hret, -⟩ | ⟨-, -, hframe, hin⟩
      · simp [hret] at hcode
      · exact ⟨hin, hframe⟩
    · split
      next h => exact h.2.1
      next h => simp [eagain]

theorem receive_called (hc : Mannered c drops) {s : AVCodecInternal c} (hs : Holding drops s) :
    Called drops (avcodecReceiveFrame s).1 (avcodecReceiveFrame s).2.2 ∧
    ∀ todo fs, Reaches Plain.next ⟨todo, s.inPkt, fs ++ buffered s, s.priv⟩
      ⟨todo, (avcodecReceiveFrame s).2.2.inPkt,
        fs ++ (if (avcodecReceiveFrame s).1 = 0 then [(avcodecReceiveFrame s).2.1] else []) ++
          buffered (avcodecReceiveFrame s).2.2, (avcodecReceiveFrame s).2.2.priv⟩ := by
  unfold avcodecReceiveFrame
  cases hbuf : s.bufferFrame with
  | some f =>
      refine ⟨⟨⟨hs.draining, hs.drainingDone, hs.bsfEof, hs.bsfBufferPkt, hs.pktProps, hs.lastPktProps,
        hs.sized⟩, by simp⟩, fun todo fs => ?_⟩
      simp [buffered, hbuf, Reaches, Relation.ReflTransGen.refl]
  | none =>
      have hr := decodeReceiveFrameInternal_outcome hc hs
      generalize decodeReceiveFrameInternal s = r at hr ⊢
      rcases hr.ended with ⟨hret, f, hframe⟩ | ⟨hret, -, hframe, hin⟩
      · simp only [hret, Int.lt_irrefl, if_false, if_true, hframe, Option.getD_some]
        refine ⟨⟨hr.holding, by simp⟩, fun todo fs => ?_⟩
        have hplain := hr.plain todo fs
        simpa [buffered, hframe, hr.bufferFrame, hbuf] using hplain
      · simp only [hret, if_true, if_neg (Int.ne_of_lt hret)]
        refine ⟨⟨hr.holding, fun _ => ⟨hin, by rw [hr.bufferFrame, hbuf]⟩⟩, fun todo fs => ?_⟩
        have hplain := hr.plain todo fs
        simpa [buffered, hframe, hr.bufferFrame, hbuf] using hplain

def plain (l : Loop (codec c)) : Plain c := ⟨l.todo, l.dec.inPkt, l.frames ++ buffered l.dec, l.dec.priv⟩

structure Between (drops : Nat) (l : Loop (codec c)) : Prop where
  holding : Holding drops l.dec
  idle : l.phase = .idle → l.dec.inPkt = none ∧ l.dec.bufferFrame = none
  sized : ∀ p ∈ l.todo, Sized c drops p

theorem between_next (hc : Mannered c drops) {l m : Loop (codec c)} (hl : Between drops l)
    (h : l.next = some m) : Between drops m ∧ Reaches Plain.next (plain l) (plain m) := by
  obtain ⟨phase, todo, fs, s⟩ := l
  cases phase with
  | idle =>
      cases todo with
      | nil => cases h
      | cons p ps =>
          rw [Loop.next_send] at h
          cases h
          obtain ⟨hin, hbuf⟩ := hl.idle rfl
          obtain ⟨hcalled, -, hplain⟩ := send_called hc hl.holding hin hbuf (hl.sized p (by simp))
          refine ⟨⟨hcalled.holding, fun hp => hcalled.idle ?_, fun q hq => hl.sized q (by simp [hq])⟩, ?_⟩
          · intro hcode
            simp [hcode] at hp
          · have hrun := hplain ps fs
            simp only [plain] at hin hbuf ⊢
            simpa [buffered, hin, hbuf, codec_send] using hrun
  | reading =>
      obtain ⟨hcalled, hplain⟩ := receive_called hc hl.holding
      have hrun := hplain todo fs
      by_cases hcode : (avcodecReceiveFrame s).1 = 0
      · rw [Loop.next_frame todo fs hcode] at h
        cases h
        refine ⟨⟨hcalled.holding, by simp, hl.sized⟩, ?_⟩
        simpa [plain, hcode, codec_receive] using hrun
      · rw [Loop.next_stop todo fs hcode] at h
        cases h
        refine ⟨⟨hcalled.holding, fun _ => hcalled.idle hcode, hl.sized⟩, ?_⟩
        simpa [plain, hcode, codec_receive] using hrun

/-- Sending packets and receiving frames comes to plain decoding, one packet
after the other: between two packets nothing is buffered anywhere. -/
theorem loop_decodes_plainly (hc : Mannered c drops) {ps : List π} (hps : ∀ p ∈ ps, Sized c drops p)
    {l : Loop (codec c)} (h : Reaches Loop.next (Loop.start (codec c) ps) l) :
    Between drops l ∧ Reaches Plain.next (Plain.start c ps) (plain l) := by
  induction h with
  | refl => exact ⟨⟨holding_start, fun _ => ⟨rfl, rfl⟩, hps⟩, .refl⟩
  | tail _ hnext ih =>
      obtain ⟨hl, hplain⟩ := ih
      obtain ⟨hm, hrun⟩ := between_next hc hl hnext
      exact ⟨hm, hplain.trans hrun⟩

end FfmpegPlayer.PlainDecoding
