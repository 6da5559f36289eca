import FfmpegPlayer.SendReceive
import Mathlib.Tactic.Common

namespace FfmpegPlayer.SimpleDecoder

open SendReceive

variable {π φ : Type}

structure Rest (π : Type) where
  packet : π
  consumed : Nat
deriving DecidableEq

/-- What one turn of codec->cb.decode comes to once its frame is kept or
discarded: the bytes read or a negative error code, the frame that is kept,
whether one was decoded, and the samples discarded. -/
structure Decoded (φ σ : Type) where
  ret : Int
  frame : Option φ
  actualGotFrame : Bool
  discardedSamples : Nat
  state : σ

def restSize (size : π → Nat) : Option (Rest π) → Nat
  | none => 0
  | some x => size x.packet - x.consumed

/-- The bytes read: a video decoder takes the whole packet, whatever it returns. -/
def bytesRead (video : Bool) (rest : Nat) (ret : Int) : Int :=
  if 0 ≤ ret ∧ video then rest else ret

def bytesGone (video : Bool) (rest : Nat) (ret : Int) : Nat :=
  if rest ≤ bytesRead video rest ret ∨ bytesRead video rest ret < 0 then rest
  else (bytesRead video rest ret).toNat

/-- A decoder of the simple API, with the fields of its context that the
generic code reads. The last fields are what makes that code's loop end: a
turn that keeps no frame and leaves something of a packet has read some of it,
and no more frames are decoded than `left` and the bytes account for. -/
structure FFCodec (π φ : Type) where
  State : Type
  init : State
  /-- avpkt->size -/
  size : π → Nat
  /-- whether avpkt->data is set -/
  data : π → Bool
  /-- whether the packet has side data -/
  sideData : π → Bool
  /-- codec->type is AVMEDIA_TYPE_VIDEO -/
  video : Bool
  capDelay : Bool
  capSetsFrameProps : Bool
  maxSamples : Nat
  /-- apply_cropping -/
  crop : φ → φ
  blank : φ
  /-- the packet, `none` for the drain packet, and avci->last_pkt_props -/
  decode : State → Option (Rest π) → Option (Rest π) → Decoded φ State
  left : State → Nat
  progress : ∀ d x props, (decode d x props).frame = none → (decode d x props).ret = 0 →
    video = true ∨ restSize size x = 0
  frames_left : ∀ d x props, left (decode d x props).state +
    (if (decode d x props).actualGotFrame then 1 else 0) ≤
      left d + bytesGone video (restSize size x) (decode d x props).ret
  kept : ∀ d x props, (decode d x props).frame.isSome = true → (decode d x props).actualGotFrame = true

variable (c : FFCodec π φ)

/-- The fields of AVCodecInternal that sending and receiving use, and the
packet and the flag of the null bitstream filter before the decoder. -/
structure AVCodecInternal where
  draining : Bool
  drainingDone : Bool
  nbDrainingErrors : Nat
  bsfEof : Bool
  bsfBufferPkt : Option π
  inPkt : Option (Rest π)
  lastPktProps : Option (Rest π)
  pktProps : List (Rest π)
  bufferFrame : Option φ
  priv : c.State

def AVCodecInternal.start : AVCodecInternal c where
  draining := false
  drainingDone := false
  nbDrainingErrors := 0
  bsfEof := false
  bsfBufferPkt := none
  inPkt := none
  lastPktProps := none
  pktProps := []
  bufferFrame := none
  priv := c.init

variable {c}

def einval : Int := -22

def averrorBug : Int := -558323010

/-- 20 plus the one thread -/
def nbErrorsMax : Nat := 21

def hasData (c : FFCodec π φ) : Option (Rest π) → Bool
  | none => false
  | some x => c.data x.packet

def Rest.advance (n : Nat) (x : Rest π) : Rest π := { x with consumed := x.consumed + n }

def avBsfSendPacket (s : AVCodecInternal c) : Option π → Int × AVCodecInternal c
  | none => (0, { s with bsfEof := true })
  | some p =>
      if s.bsfEof then (einval, s)
      else if s.bsfBufferPkt.isSome then (eagain, s)
      else (0, { s with bsfBufferPkt := some p })

def extractPacketProps (s : AVCodecInternal c) (x : Rest π) : AVCodecInternal c :=
  match s.lastPktProps, s.pktProps with
  | none, [] => { s with lastPktProps := some x }
  | none, y :: ys => { s with lastPktProps := some y, pktProps := ys ++ [x] }
  | some _, ys => { s with pktProps := ys ++ [x] }

def takePacket (s : AVCodecInternal c) (p : π) : AVCodecInternal c :=
  let s := { s with bsfBufferPkt := none, inPkt := some ⟨p, 0⟩ }
  if c.capSetsFrameProps then s else extractPacketProps s ⟨p, 0⟩

def ffDecodeGetPacket (s : AVCodecInternal c) : Int × AVCodecInternal c :=
  if s.draining then (eof, s)
  else if s.bsfEof then (eof, { s with draining := true })
  else
    match s.bsfBufferPkt with
    | none => (eagain, s)
    | some p => (0, takePacket s p)

structure Turn (c : FFCodec π φ) where
  ret : Int
  frame : Option φ
  discardedSamples : Nat
  state : AVCodecInternal c

def stopDraining (actualGotFrame : Bool) (ret : Int) (s : AVCodecInternal c) : Int × AVCodecInternal c :=
  if s.draining ∧ actualGotFrame = false then
    if ret < 0 then
      if nbErrorsMax ≤ s.nbDrainingErrors then
        (averrorBug, { s with nbDrainingErrors := s.nbDrainingErrors + 1, drainingDone := true })
      else (ret, { s with nbDrainingErrors := s.nbDrainingErrors + 1 })
    else (ret, { s with drainingDone := true })
  else (ret, s)

def consume (ret : Int) (s : AVCodecInternal c) : AVCodecInternal c :=
  if restSize c.size s.inPkt ≤ ret ∨ ret < 0 then { s with inPkt := none, lastPktProps := none }
  else
    { s with
      inPkt := s.inPkt.map (Rest.advance ret.toNat)
      lastPktProps :=
        if c.capSetsFrameProps then s.lastPktProps else s.lastPktProps.map (Rest.advance ret.toNat) }

def decodeInPkt (s : AVCodecInternal c) : Turn c :=
  let r := c.decode s.priv s.inPkt s.lastPktProps
  let ret := bytesRead c.video (restSize c.size s.inPkt) r.ret
  let d := stopDraining r.actualGotFrame ret { s with priv := r.state }
  ⟨if d.1 < 0 then d.1 else 0, r.frame, r.discardedSamples, consume d.1 d.2⟩

def fetchPacket (s : AVCodecInternal c) : Int × AVCodecInternal c :=
  if hasData c s.inPkt = false ∧ s.draining = false then ffDecodeGetPacket { s with inPkt := none }
  else (0, s)

def decodeFetched (r : Int × AVCodecInternal c) : Turn c :=
  if r.1 < 0 ∧ r.1 ≠ eof then ⟨r.1, none, 0, r.2⟩
  else if r.2.drainingDone then ⟨eof, none, 0, r.2⟩
  else if hasData c r.2.inPkt = false ∧ c.capDelay = false then ⟨eof, none, 0, r.2⟩
  else decodeInPkt r.2

def decodeSimpleInternal (s : AVCodecInternal c) : Turn c := decodeFetched (fetchPacket s)

def bytesLeft (s : AVCodecInternal c) : Nat :=
  (match s.inPkt with
    | none => 0
    | some x => 2 * (c.size x.packet - x.consumed) + 1) +
  (match s.bsfBufferPkt with
    | none => 0
    | some p => 2 * c.size p + 2)

def work (s : AVCodecInternal c) : Nat :=
  bytesLeft s + c.left s.priv + (if s.drainingDone then 0 else 1)

structure Received (c : FFCodec π φ) where
  ret : Int
  frame : Option φ
  state : AVCodecInternal c

def turns : Nat → Nat → AVCodecInternal c → Received c
  | 0, _, s => ⟨eagain, none, s⟩
  | n + 1, discardedSamples, s =>
      if c.maxSamples < discardedSamples then ⟨eagain, none, s⟩
      else
        let t := decodeSimpleInternal s
        if t.ret < 0 then ⟨t.ret, t.frame, t.state⟩
        else if t.frame.isSome then ⟨0, t.frame, t.state⟩
        else turns n (discardedSamples + t.discardedSamples) t.state

/-- The loop from so many discarded samples on; it never takes more turns than that. -/
def receiveLoop (discardedSamples : Nat) (s : AVCodecInternal c) : Received c :=
  turns (work s + 1) discardedSamples s

def decodeSimpleReceiveFrame (s : AVCodecInternal c) : Received c := receiveLoop 0 s

def nextProps (s : AVCodecInternal c) : AVCodecInternal c :=
  match c.capSetsFrameProps, s.lastPktProps, s.pktProps with
  | false, none, y :: ys => { s with lastPktProps := some y, pktProps := ys }
  | _, _, _ => s

def decodeReceiveFrameInternal (s : AVCodecInternal c) : Received c :=
  let r := decodeSimpleReceiveFrame s
  { r with state := nextProps (if r.ret = eof then { r.state with drainingDone := true } else r.state) }

def avcodecSendPacket (s : AVCodecInternal c) (avpkt : Option π) : Int × AVCodecInternal c :=
  if s.draining then (eof, s)
  else if avpkt.any (fun p => c.size p = 0 ∧ c.data p) then (einval, s)
  else
    let b := avBsfSendPacket s (avpkt.filter (fun p => c.data p || c.sideData p))
    if b.1 < 0 then b
    else if b.2.bufferFrame.isSome then (0, b.2)
    else
      let r := decodeReceiveFrameInternal b.2
      (if r.ret < 0 ∧ r.ret ≠ eagain ∧ r.ret ≠ eof then r.ret else 0,
        { r.state with bufferFrame := r.frame })

def avcodecReceiveFrame (s : AVCodecInternal c) : Int × φ × AVCodecInternal c :=
  match s.bufferFrame with
  | some f => (0, c.crop f, { s with bufferFrame := none })
  | none =>
      let r := decodeReceiveFrameInternal s
      if r.ret < 0 then (r.ret, c.blank, r.state)
      else (0, c.crop (r.frame.getD c.blank), r.state)

def codec (c : FFCodec π φ) : Codec π φ where
  State := AVCodecInternal c
  init := AVCodecInternal.start c
  send := avcodecSendPacket
  receive := avcodecReceiveFrame

@[simp] theorem codec_send (s : (codec c).State) (p : Option π) :
    (codec c).send s p = avcodecSendPacket s p := rfl

@[simp] theorem codec_receive (s : (codec c).State) : (codec c).receive s = avcodecReceiveFrame s := rfl

end FfmpegPlayer.SimpleDecoder
