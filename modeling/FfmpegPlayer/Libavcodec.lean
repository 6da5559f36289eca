import FfmpegPlayer.PlainDecoding
import FfmpegPlayer.Reference

namespace FfmpegPlayer.Libavcodec

open SendReceive Media Threads ReadThread ConsumerThreads MainThread Interleaving
open SequentialLoop StateTransition SimpleDecoder ReceiveLoop PlainDecoding PacketFlow Decoding Reference

def onDecoders (P : Player) (D : Side → FFCodec Payload AVFrame) (height : (D .video).State → Int) : Player :=
  { P with
    codec := fun i => codec (D i)
    decHeight := fun s => height (AVCodecInternal.priv s) }

variable {P : Player} {D : Side → FFCodec Payload AVFrame} {height : (D .video).State → Int}
variable {drops : Side → Nat} {file : List Payload} {acts : List Act} {s : State (onDecoders P D height)}

theorem between (hD : ∀ i, Mannered (D i) (drops i)) (hfile : ∀ i, ∀ x ∈ P.select i file, Sized (D i) (drops i) x)
    (h : Runs file acts s) (i : Side) :
    Between (c := D i) (drops i) (loop i s) ∧
    Reaches Plain.next (Plain.start (D i) (P.select i file)) (plain (c := D i) (loop i s)) :=
  loop_decodes_plainly (hD i) (hfile i) (loop_reached h i)

/-- Whatever the threads do, and however the calls that feed a decoder and
those that read from it buffer, the frames of a stream are those that plain
decoding makes of its packets: received, or decoded ahead by the last send.
Where the thread is between two packets, nothing is left in a buffer. -/
theorem decodes_plainly (hD : ∀ i, Mannered (D i) (drops i))
    (hfile : ∀ i, ∀ x ∈ P.select i file, Sized (D i) (drops i) x) (h : Runs file acts s) (i : Side) :
    Reaches Plain.next (Plain.start (D i) (P.select i file))
      ⟨todo i s, AVCodecInternal.inPkt (c := D i) (s.dec i),
        frames (s.log.calls i) ++ buffered (c := D i) (s.dec i), AVCodecInternal.priv (c := D i) (s.dec i)⟩ ∧
    (phase (s.consumer i) = .idle →
      AVCodecInternal.inPkt (c := D i) (s.dec i) = none ∧ buffered (c := D i) (s.dec i) = []) := by
  obtain ⟨hb, hplain⟩ := between hD hfile h i
  refine ⟨hplain, fun hidle => ?_⟩
  obtain ⟨hin, hbuf⟩ := hb.idle hidle
  have hbuffered : buffered (loop i s).dec = [] := by simp [buffered, hbuf]
  exact ⟨hin, hbuffered⟩

/-- No packet is ever refused because the decoder has output left to be read. -/
theorem sends_taken (hD : ∀ i, Mannered (D i) (drops i))
    (hfile : ∀ i, ∀ x ∈ P.select i file, Sized (D i) (drops i) x) (h : Runs file acts s) (i : Side)
    (p : AVPacket) : Call.send p eagain ∉ s.log.calls i := by
  refine (Transition.invariant (I := fun s : State (onDecoders P D height) =>
    (∃ acts, Runs file acts s) ∧ Call.send p eagain ∉ s.log.calls i)
    (fun s a s' hs h => ?_) ⟨⟨[], rfl⟩, by simp [start]⟩ h).2
  obtain ⟨⟨acts, hr⟩, hno⟩ := hs
  refine ⟨⟨_, runs_snoc hr h⟩, ?_⟩
  cases decoderStep h i with
  | quiet calls => rwa [calls]
  | receive q before after calls => simp [calls, hno]
  | send q before after calls =>
      obtain ⟨hb, -⟩ := between hD hfile hr i
      have hidle : (loop i s).phase = .idle := by simp [loop, before, phase]
      have htodo : q.payload ∈ (loop i s).todo := by simp [loop, todo, before, popped]
      obtain ⟨hin, hbuf⟩ := hb.idle hidle
      have hcode := (send_called (hD i) hb.holding hin hbuf (hb.sized _ htodo)).2.1
      rw [calls, List.mem_append, List.mem_singleton]
      rintro (hmem | hlast)
      · exact hno hmem
      · exact hcode (Call.send.inj hlast).2.symm

def nextByte (x : Option (Rest Payload)) : Option UInt8 := x.bind (fun x => x.packet.data[x.consumed]?)

theorem nextByte_rest (x : Option (Rest Payload)) :
    (nextByte x).isSome = true ↔ 0 < restSize (fun x => x.data.length) x := by
  cases x with
  | none => simp [nextByte, restSize]
  | some x => simp [nextByte, restSize]

def decodeByte : Option UInt8 → Decoded AVFrame Unit
  | none => ⟨0, none, false, 0, ()⟩
  | some b =>
      if b = 255 then ⟨-1, none, false, 0, ()⟩
      else ⟨1, some ⟨b.toNat, 1, 2, 2, 0, 44100, 2⟩, true, 0, ()⟩

def byteDecoder : FFCodec Payload AVFrame where
  State := Unit
  init := ()
  size x := x.data.length
  data _ := true
  sideData _ := false
  video := false
  capDelay := false
  capSetsFrameProps := false
  maxSamples := 2147483647
  crop := id
  blank := ⟨avNoptsValue, 0, 0, 0, 0, 0, 0⟩
  decode _ x _ := decodeByte (nextByte x)
  left _ := 0
  progress d x props hframe hret := by
    have hrest := nextByte_rest x
    generalize nextByte x = b at hframe hret hrest
    unfold decodeByte at hframe hret
    grind
  frames_left d x props := by
    have hrest := nextByte_rest x
    generalize nextByte x = b at hrest
    unfold decodeByte bytesGone bytesRead
    grind
  kept d x props := by
    unfold decodeByte
    grind

theorem byteDecoder_mannered : Mannered byteDecoder 0 := by
  constructor <;> intro d x props <;> simp only [byteDecoder, decodeByte] <;> grind [eof]

theorem byteDecoder_sized (x : Payload) : Sized byteDecoder 0 x := ⟨rfl, Nat.zero_le _⟩

def bytewise : Player := onDecoders stereo (fun _ => byteDecoder) (fun _ => 2)

def firstOfTwo : List Act := List.replicate 13 Act.reader ++ List.replicate 9 (Act.consumer .audio)

theorem firstOfTwo_runs : ∃ s : State bytewise, Runs [⟨1, [7, 8]⟩] firstOfTwo s ∧
    frames (s.log.calls .audio) = [⟨7, 1, 2, 2, 0, 44100, 2⟩] := by
  obtain ⟨s, hs, hp⟩ := Transition.exists_of_run_any step (start bytewise [⟨1, [7, 8]⟩]) firstOfTwo
    (fun s : State bytewise => decide (frames (s.log.calls .audio) = [⟨7, 1, 2, 2, 0, 44100, 2⟩])) (by decide)
  exact ⟨s, hs, of_decide_eq_true hp⟩

theorem decodes_plainly_sample : ∃ s : State bytewise, Runs [⟨1, [7, 8]⟩] firstOfTwo s ∧
    frames (s.log.calls .audio) ≠ [] ∧
    Reaches Plain.next (Plain.start byteDecoder (stereo.select .audio [⟨1, [7, 8]⟩]))
      ⟨todo .audio s, AVCodecInternal.inPkt (c := byteDecoder) (s.dec .audio),
        frames (s.log.calls .audio) ++ buffered (c := byteDecoder) (s.dec .audio),
        AVCodecInternal.priv (c := byteDecoder) (s.dec .audio)⟩ ∧
    (phase (s.consumer .audio) = .idle →
      AVCodecInternal.inPkt (c := byteDecoder) (s.dec .audio) = none ∧
      buffered (c := byteDecoder) (s.dec .audio) = []) := by
  obtain ⟨s, hs, hf⟩ := firstOfTwo_runs
  exact ⟨s, hs, by simp [hf], decodes_plainly (D := fun _ => byteDecoder) (fun _ => byteDecoder_mannered)
    (fun _ x _ => byteDecoder_sized x) hs .audio⟩

theorem sends_taken_sample : ∃ s : State bytewise, Runs [⟨1, [7, 8]⟩] firstOfTwo s ∧
    frames (s.log.calls .audio) ≠ [] ∧ ∀ p, Call.send p eagain ∉ s.log.calls .audio := by
  obtain ⟨s, hs, hf⟩ := firstOfTwo_runs
  exact ⟨s, hs, by simp [hf], sends_taken (D := fun _ => byteDecoder) (fun _ => byteDecoder_mannered)
    (fun _ x _ => byteDecoder_sized x) hs .audio⟩

end FfmpegPlayer.Libavcodec
