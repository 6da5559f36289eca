import Mathlib.Data.List.FinRange
import Mathlib.Data.List.ReduceOption
import Mathlib.Logic.Function.Basic

namespace FfmpegPlayer.ReadFrame

structure Packet (n : Nat) where
  stream : Fin n
  data : List UInt8
  /-- AV_PKT_FLAG_CORRUPT -/
  corrupt : Bool
deriving DecidableEq

inductive Item (n : Nat)
  | packet (p : Packet n)
  | redo

structure Parsed (σ : Type) where
  len : Nat
  out : List UInt8
  state : σ

/-- A parser. A call after which it is called again has made progress. -/
structure AVParser (σ : Type) where
  init : σ
  parse : σ → List UInt8 → Parsed σ
  left : σ → List UInt8 → Nat
  progress : ∀ st data, data.drop (parse st data).len ≠ [] ∨ (parse st data).out ≠ [] →
    left (parse st data).state (data.drop (parse st data).len) < left st data

variable {n : Nat} {σ : Type}

structure AVFormatContext (n : Nat) (σ : Type) where
  /-- AVFMT_FLAG_DISCARD_CORRUPT -/
  discardCorrupt : Bool
  /-- streams[i]->discard is AVDISCARD_ALL -/
  discardAll : Fin n → Bool
  probesize : Int
  /-- set_codec_from_probe_data finds a codec with a score for which the stream is not tried again -/
  identify : Fin n → List UInt8 → Bool
  /-- av_parser_init for the codec of a stream -/
  parserInit : Fin n → Option (AVParser σ)

structure Probe where
  requestProbe : Int
  probePackets : Int
  probeData : List UInt8

structure RawBuffer (n : Nat) where
  packets : List (Packet n)
  size : Int
  probe : Fin n → Probe

structure Parsing (σ : Type) where
  needParsing : Bool
  parser : Option (AVParser σ × σ)

structure FFFormatContext (n : Nat) (σ : Type) where
  /-- what iformat->read_packet has yet to return before it fails -/
  source : List (Item n)
  raw : RawBuffer n
  parsing : Fin n → Parsing σ
  parseQueue : List (Packet n)
  packetBuffer : List (Packet n)

variable (s : AVFormatContext n σ)

def probeCodec (i : Fin n) (pkt : Option (List UInt8)) (raw : RawBuffer n) : RawBuffer n :=
  let q := raw.probe i
  if 0 < q.requestProbe then
    let probePackets := if pkt.isSome then q.probePackets - 1 else 0
    let probeData := q.probeData ++ pkt.getD []
    let last : Bool := s.probesize ≤ raw.size ∨ probePackets ≤ 0
    let found : Bool :=
      (last ∨ probeData.length.log2 ≠ (probeData.length - (pkt.getD []).length).log2) ∧
        (s.identify i probeData ∨ last)
    { raw with
      probe := Function.update raw.probe i
        (if found then ⟨-1, probePackets, []⟩ else ⟨q.requestProbe, probePackets, probeData⟩) }
  else raw

def checkSize (i : Fin n) (raw : RawBuffer n) : RawBuffer n :=
  if s.probesize ≤ raw.size then probeCodec s i none raw else raw

def popRaw (raw : RawBuffer n) : Option (Packet n) × RawBuffer n :=
  match raw.packets with
  | [] => (none, raw)
  | p :: ps =>
      if ((checkSize s p.stream raw).probe p.stream).requestProbe ≤ 0 then
        (some p, { checkSize s p.stream raw with packets := ps, size := raw.size - p.data.length })
      else (none, checkSize s p.stream raw)

def probeAll (raw : RawBuffer n) : RawBuffer n :=
  (List.finRange n).foldl (fun raw i =>
    if (raw.probe i).probePackets ≠ 0 ∨ 0 < (raw.probe i).requestProbe then probeCodec s i none raw else raw) raw

def pushRaw (p : Packet n) (raw : RawBuffer n) : RawBuffer n :=
  probeCodec s p.stream (some p.data)
    { raw with packets := raw.packets ++ [p], size := raw.size + p.data.length }

def ffReadPacket : List (Item n) → RawBuffer n → Option (Packet n) × List (Item n) × RawBuffer n
  | [], raw =>
      match popRaw s raw with
      | (some p, raw) => (some p, [], raw)
      | (none, raw) =>
          if raw.packets = [] then (none, [], raw)
          else
            let r := popRaw s (probeAll s raw)
            (r.1, [], r.2)
  | item :: source, raw =>
      match popRaw s raw with
      | (some p, raw) => (some p, item :: source, raw)
      | (none, raw) =>
          match item with
          | .redo => ffReadPacket source raw
          | .packet p =>
              if s.discardCorrupt ∧ p.corrupt then ffReadPacket source raw
              else if raw.packets = [] ∧ (raw.probe p.stream).requestProbe ≤ 0 then (some p, source, raw)
              else ffReadPacket source (pushRaw s p raw)

def AVParser.run (P : AVParser σ) (flush : Bool) (st : σ) (data : List UInt8) : List (List UInt8) × σ :=
  let r := P.parse st data
  if _h : data.drop r.len ≠ [] ∨ flush ∧ r.out ≠ [] then
    let rest := P.run flush r.state (data.drop r.len)
    (if r.out = [] then rest.1 else r.out :: rest.1, rest.2)
  else (if r.out = [] then [] else [r.out], r.state)
termination_by P.left st data
decreasing_by exact P.progress st data (_h.imp_right And.right)

/-- parse_packet of a packet: the data of those it makes. -/
def AVParser.parsePacket (P : AVParser σ) (st : σ) (data : List UInt8) : List (List UInt8) × σ :=
  if data = [] then ([], st) else P.run false st data

def openParser (i : Fin n) (t : Parsing σ) : Parsing σ :=
  if t.needParsing ∧ t.parser.isNone then
    match s.parserInit i with
    | none => { t with needParsing := false }
    | some P => { t with parser := some (P, P.init) }
  else t

def Parsing.active (t : Parsing σ) : Option (AVParser σ × σ) := if t.needParsing then t.parser else none

def Parsing.flushed (i : Fin n) (t : Parsing σ) : List (Packet n) :=
  match t.active with
  | none => []
  | some (P, st) => (P.run true st []).1.map fun data => ⟨i, data, false⟩

def Parsing.close (t : Parsing σ) : Parsing σ := if t.needParsing then { t with parser := none } else t

variable (c : FFFormatContext n σ)

def flushParsers : FFFormatContext n σ :=
  { c with
    parseQueue := c.parseQueue ++ (List.finRange n).flatMap fun i => (c.parsing i).flushed i
    parsing := fun i => (c.parsing i).close }

def popParsed : Option (Packet n) × FFFormatContext n σ :=
  match c.parseQueue with
  | [] => (none, c)
  | p :: ps => (some p, { c with parseQueue := ps })

def kept (source : List (Item n)) : List (Packet n) :=
  source.filterMap fun item =>
    match item with
    | .redo => none
    | .packet p => if s.discardCorrupt ∧ p.corrupt then none else some p

def pending (source : List (Item n)) (raw : RawBuffer n) : List (Packet n) := raw.packets ++ kept s source

@[simp] theorem packets_probeCodec (i : Fin n) (pkt : Option (List UInt8)) (raw : RawBuffer n) :
    (probeCodec s i pkt raw).packets = raw.packets := by
  rw [probeCodec]
  split <;> rfl

theorem probeCodec_none_le (i : Fin n) (raw : RawBuffer n) :
    ((probeCodec s i none raw).probe i).requestProbe ≤ 0 := by
  rw [probeCodec]
  split
  · simp
  next h => exact Int.not_lt.mp h

theorem probeCodec_probe_le {i j : Fin n} {raw : RawBuffer n} (pkt : Option (List UInt8))
    (h : (raw.probe j).requestProbe ≤ 0) : ((probeCodec s i pkt raw).probe j).requestProbe ≤ 0 := by
  by_cases hij : j = i
  · subst hij
    rw [probeCodec, if_neg (Int.not_lt.mpr h)]
    exact h
  · rw [probeCodec]
    split
    · simp only [Function.update_of_ne hij]
      exact h
    · exact h

@[simp] theorem packets_checkSize (i : Fin n) (raw : RawBuffer n) :
    (checkSize s i raw).packets = raw.packets := by
  rw [checkSize]
  split
  · exact packets_probeCodec s i none raw
  · rfl

theorem foldl_probe_spec (is : List (Fin n)) (raw : RawBuffer n) :
    let raw' := is.foldl (fun raw i =>
      if (raw.probe i).probePackets ≠ 0 ∨ 0 < (raw.probe i).requestProbe then probeCodec s i none raw else raw) raw
    raw'.packets = raw.packets ∧
      ∀ j, j ∈ is ∨ (raw.probe j).requestProbe ≤ 0 → (raw'.probe j).requestProbe ≤ 0 := by
  induction is generalizing raw with
  | nil => exact ⟨rfl, fun j hj => hj.resolve_left List.not_mem_nil⟩
  | cons i is ih =>
      simp only [List.foldl_cons]
      split
      next h =>
        obtain ⟨hpackets, hprobe⟩ := ih (probeCodec s i none raw)
        refine ⟨hpackets.trans (packets_probeCodec s i none raw), ?_⟩
        intro j hj
        apply hprobe
        rcases hj with hj | hj
        · rcases List.mem_cons.mp hj with rfl | hj
          · exact Or.inr (probeCodec_none_le s j raw)
          · exact Or.inl hj
        · exact Or.inr (probeCodec_probe_le s none hj)
      next h =>
        obtain ⟨hpackets, hprobe⟩ := ih raw
        refine ⟨hpackets, ?_⟩
        intro j hj
        apply hprobe
        rcases hj with hj | hj
        · rcases List.mem_cons.mp hj with rfl | hj
          · exact Or.inr (Int.not_lt.mp fun hlt => h (Or.inr hlt))
          · exact Or.inl hj
        · exact Or.inr hj

theorem probeAll_spec (raw : RawBuffer n) :
    (probeAll s raw).packets = raw.packets ∧ ∀ j, ((probeAll s raw).probe j).requestProbe ≤ 0 := by
  obtain ⟨hpackets, hprobe⟩ := foldl_probe_spec s (List.finRange n) raw
  exact ⟨hpackets, fun j => hprobe j (Or.inl (List.mem_finRange j))⟩

inductive Popped (raw : RawBuffer n) : Option (Packet n) × RawBuffer n → Prop
  | first (p : Packet n) (raw' : RawBuffer n) (h : raw.packets = p :: raw'.packets) : Popped raw (some p, raw')
  | held (raw' : RawBuffer n) (h : raw'.packets = raw.packets) : Popped raw (none, raw')

theorem popRaw_popped (raw : RawBuffer n) : Popped raw (popRaw s raw) := by
  rw [popRaw]
  split
  next hnil => exact .held raw rfl
  next p ps hcons =>
    split
    · exact .first p _ hcons
    · exact .held _ (packets_checkSize s p.stream raw)

theorem popRaw_of_probed {raw : RawBuffer n} (h : ∀ j, (raw.probe j).requestProbe ≤ 0) (hne : raw.packets ≠ []) :
    ∃ p raw', popRaw s raw = (some p, raw') ∧ raw.packets = p :: raw'.packets := by
  rw [popRaw]
  split
  next hnil => exact absurd hnil hne
  next p ps hcons =>
    have hle : ((checkSize s p.stream raw).probe p.stream).requestProbe ≤ 0 := by
      rw [checkSize]
      split
      · exact probeCodec_none_le s p.stream raw
      · exact h p.stream
    rw [if_pos hle]
    exact ⟨p, _, rfl, hcons⟩

inductive Read (source : List (Item n)) (raw : RawBuffer n) :
    Option (Packet n) × List (Item n) × RawBuffer n → Prop
  | next (p : Packet n) (source' : List (Item n)) (raw' : RawBuffer n)
      (h : pending s source raw = p :: pending s source' raw') : Read source raw (some p, source', raw')
  | fail (raw' : RawBuffer n) (h : pending s source raw = []) (h' : raw'.packets = []) :
      Read source raw (none, [], raw')

variable {s}

theorem Read.of_pending {source source' : List (Item n)} {raw raw' : RawBuffer n}
    {r : Option (Packet n) × List (Item n) × RawBuffer n} (h : Read s source' raw' r)
    (hpending : pending s source raw = pending s source' raw') : Read s source raw r := by
  cases h with
  | next p source'' raw'' h => exact .next p source'' raw'' (hpending.trans h)
  | fail raw'' h h' => exact .fail raw'' (hpending.trans h) h'

variable (s)

theorem kept_packet {p : Packet n} {source : List (Item n)} (h : ¬ (s.discardCorrupt ∧ p.corrupt)) :
    kept s (.packet p :: source) = p :: kept s source := by
  simp only [kept, List.filterMap_cons, if_neg h]

theorem kept_drop {p : Packet n} {source : List (Item n)} (h : s.discardCorrupt ∧ p.corrupt) :
    kept s (.packet p :: source) = kept s source := by
  simp only [kept, List.filterMap_cons, if_pos h]

@[simp] theorem packets_pushRaw (p : Packet n) (raw : RawBuffer n) :
    (pushRaw s p raw).packets = raw.packets ++ [p] :=
  packets_probeCodec s p.stream _ _

theorem ffReadPacket_read (source : List (Item n)) (raw : RawBuffer n) :
    Read s source raw (ffReadPacket s source raw) := by
  induction source generalizing raw with
  | nil =>
      rw [ffReadPacket]
      cases hpop : popRaw s raw with
      | mk x raw' =>
          have hpopped := popRaw_popped s raw
          rw [hpop] at hpopped
          cases hpopped with
          | first p _ h => exact .next p [] raw' (by rw [pending, h]; rfl)
          | held _ h =>
              simp only
              split
              next hnil => exact .fail raw' (by rw [pending, ← h, hnil]; rfl) hnil
              next hne =>
                obtain ⟨hpackets, hprobe⟩ := probeAll_spec s raw'
                obtain ⟨p, raw'', hpop', hp⟩ := popRaw_of_probed s hprobe (by rw [hpackets]; exact hne)
                rw [hpop']
                exact .next p [] raw'' (by rw [pending, ← h, ← hpackets, hp]; rfl)
  | cons item source ih =>
      rw [ffReadPacket]
      cases hpop : popRaw s raw with
      | mk x raw' =>
          have hpopped := popRaw_popped s raw
          rw [hpop] at hpopped
          cases hpopped with
          | first p _ h => exact .next p (item :: source) raw' (by rw [pending, h]; rfl)
          | held _ h =>
              cases item with
              | redo => exact (ih raw').of_pending (by rw [pending, pending, h]; rfl)
              | packet p =>
                  simp only
                  split
                  next hdrop => exact (ih raw').of_pending (by rw [pending, pending, h, kept_drop s hdrop])
                  next hkeep =>
                    split
                    next hfirst =>
                      exact .next p source raw' (by rw [pending, pending, ← h, hfirst.1, kept_packet s hkeep]; rfl)
                    · refine (ih (pushRaw s p raw')).of_pending ?_
                      rw [pending, pending, packets_pushRaw, ← h, kept_packet s hkeep, List.append_assoc]
                      rfl

theorem Read.pending_lt {source source' : List (Item n)} {raw raw' : RawBuffer n} {p : Packet n}
    (h : Read s source raw (some p, source', raw')) :
    (pending s source' raw').length < (pending s source raw).length := by
  cases h with
  | next _ _ _ h =>
      rw [h]
      exact Nat.lt_succ_self _

def parsed (t : Parsing σ) (p : Packet n) : List (Packet n) × Parsing σ :=
  match (openParser s p.stream t).active with
  | none => ([p], openParser s p.stream t)
  | some (P, st) =>
      if s.discardAll p.stream then ([], openParser s p.stream t)
      else
        ((P.parsePacket st p.data).1.map fun data => ⟨p.stream, data, p.corrupt⟩,
          { openParser s p.stream t with parser := some (P, (P.parsePacket st p.data).2) })

/-- read_frame_internal. There is no packet when nothing is left to read or to parse.
Left out are a stream that changes its codec, where an old parser is closed,
AVFMT_FLAG_GENPTS, and a demuxer that returns EAGAIN. -/
def readFrameInternal (c : FFFormatContext n σ) : Option (Packet n) × FFFormatContext n σ :=
  if c.parseQueue ≠ [] then popParsed c
  else
    match _hread : ffReadPacket s c.source c.raw with
    | (none, source, raw) => popParsed (flushParsers { c with source := source, raw := raw })
    | (some p, source, raw) =>
        let r := parsed s (c.parsing p.stream) p
        let c' := { c with source := source, raw := raw, parsing := Function.update c.parsing p.stream r.2 }
        -- without a parser there is nothing to queue
        if (openParser s p.stream (c.parsing p.stream)).active.isNone then (some p, c')
        else readFrameInternal { c' with parseQueue := r.1 }
termination_by (pending s c.source c.raw).length
decreasing_by
  have hr := ffReadPacket_read s c.source c.raw
  rw [_hread] at hr
  exact hr.pending_lt

/-- av_read_frame, without AVFMT_FLAG_GENPTS -/
def avReadFrame (c : FFFormatContext n σ) : Option (Packet n) × FFFormatContext n σ :=
  match c.packetBuffer with
  | [] => readFrameInternal s c
  | p :: ps => (some p, { c with packetBuffer := ps })

/-- The reading done by avformat_find_stream_info: so many packets are put into
packet_buffer, or all there are. For MPEG-PS and MPEG-TS estimate_timings reads
on at the end of the file, which is left out. -/
def findStreamInfo : Nat → FFFormatContext n σ → FFFormatContext n σ
  | 0, c => c
  | m + 1, c =>
      match readFrameInternal s c with
      | (none, c) => c
      | (some p, c) => findStreamInfo m { c with packetBuffer := c.packetBuffer ++ [p] }

def reads : Nat → FFFormatContext n σ → List (Option (Packet n))
  | 0, _ => []
  | k + 1, c => (avReadFrame s c).1 :: reads k (avReadFrame s c).2

/-- The frames of a file: its packets are parsed one after the other, and what is
left in the parsers comes last. -/
def framesOf (parsing : Fin n → Parsing σ) : List (Packet n) → List (Packet n)
  | [] => (List.finRange n).flatMap fun i => (parsing i).flushed i
  | p :: ps =>
      (parsed s (parsing p.stream) p).1 ++
        framesOf (Function.update parsing p.stream (parsed s (parsing p.stream) p).2) ps

def unread (c : FFFormatContext n σ) : List (Packet n) :=
  c.parseQueue ++ framesOf s c.parsing (pending s c.source c.raw)

inductive Next (c : FFFormatContext n σ) : Option (Packet n) × FFFormatContext n σ → Prop
  | next (p : Packet n) (c' : FFFormatContext n σ) (h : unread s c = p :: unread s c')
      (hb : c'.packetBuffer = c.packetBuffer) : Next c (some p, c')
  | fail (c' : FFFormatContext n σ) (h : unread s c = []) (h' : unread s c' = [])
      (hb : c'.packetBuffer = c.packetBuffer) : Next c (none, c')

variable {s}

theorem Next.of_unread {c c' : FFFormatContext n σ} {r : Option (Packet n) × FFFormatContext n σ} (h : Next s c' r)
    (hunread : unread s c = unread s c') (hbuffer : c'.packetBuffer = c.packetBuffer) : Next s c r := by
  cases h with
  | next p c'' h hb => exact .next p c'' (hunread.trans h) (hb.trans hbuffer)
  | fail c'' h h' hb => exact .fail c'' (hunread.trans h) h' (hb.trans hbuffer)

variable (s)

theorem popParsed_next {c : FFFormatContext n σ} (h : c.parseQueue ≠ []) : Next s c (popParsed c) := by
  rw [popParsed]
  split
  next hnil => exact absurd hnil h
  next p ps hcons => exact .next p _ (by rw [unread, hcons]; rfl) rfl

/-- A closed parser holds nothing. -/
@[simp] theorem flushed_close (i : Fin n) (t : Parsing σ) : t.close.flushed i = [] := by
  rw [Parsing.flushed]
  have hactive : t.close.active = none := by
    rw [Parsing.close, Parsing.active]
    split <;> simp_all
  rw [hactive]

theorem unread_flushParsers {c : FFFormatContext n σ} (h : pending s c.source c.raw = []) :
    unread s (flushParsers c) = unread s c := by
  have hsame : pending s (flushParsers c).source (flushParsers c).raw = [] := h
  have hclosed : framesOf s (flushParsers c).parsing [] = [] := by
    simp [framesOf, flushParsers]
  rw [unread, unread, hsame, hclosed, h, List.append_nil]
  rfl

theorem flushParsers_next {c : FFFormatContext n σ} (h : pending s c.source c.raw = []) :
    Next s c (popParsed (flushParsers c)) := by
  by_cases hqueue : (flushParsers c).parseQueue = []
  · have hnone : unread s (flushParsers c) = [] := by
      have hsame : pending s (flushParsers c).source (flushParsers c).raw = [] := h
      rw [unread, hqueue, hsame]
      simp [framesOf, flushParsers]
    rw [popParsed, hqueue]
    exact .fail _ ((unread_flushParsers s h).symm.trans hnone) hnone rfl
  · exact (popParsed_next s hqueue).of_unread (unread_flushParsers s h).symm rfl

theorem parsed_of_inactive {t : Parsing σ} {p : Packet n} (h : (openParser s p.stream t).active = none) :
    parsed s t p = ([p], openParser s p.stream t) := by
  rw [parsed, h]

def afterParsing (c : FFFormatContext n σ) (p : Packet n) (source : List (Item n)) (raw : RawBuffer n) :
    FFFormatContext n σ :=
  { c with
    source := source
    raw := raw
    parsing := Function.update c.parsing p.stream (parsed s (c.parsing p.stream) p).2 }

theorem readFrameInternal_none {c : FFFormatContext n σ} {source : List (Item n)} {raw : RawBuffer n}
    (hqueue : c.parseQueue = []) (h : ffReadPacket s c.source c.raw = (none, source, raw)) :
    readFrameInternal s c = popParsed (flushParsers { c with source := source, raw := raw }) := by
  rw [readFrameInternal, if_neg (not_not.mpr hqueue)]
  split
  next heq => rw [h] at heq; cases heq; rfl
  next heq => rw [h] at heq; cases heq

theorem readFrameInternal_some {c : FFFormatContext n σ} {source : List (Item n)} {raw : RawBuffer n} {p : Packet n}
    (hqueue : c.parseQueue = []) (h : ffReadPacket s c.source c.raw = (some p, source, raw)) :
    readFrameInternal s c =
      if (openParser s p.stream (c.parsing p.stream)).active.isNone then (some p, afterParsing s c p source raw)
      else readFrameInternal s
        { afterParsing s c p source raw with parseQueue := (parsed s (c.parsing p.stream) p).1 } := by
  rw [readFrameInternal, if_neg (not_not.mpr hqueue)]
  split
  next heq => rw [h] at heq; cases heq
  next heq => rw [h] at heq; cases heq; rfl

theorem unread_of_read {c : FFFormatContext n σ} {source : List (Item n)} {raw : RawBuffer n} {p : Packet n}
    (hqueue : c.parseQueue = []) (h : pending s c.source c.raw = p :: pending s source raw) :
    unread s c = (parsed s (c.parsing p.stream) p).1 ++
      framesOf s (afterParsing s c p source raw).parsing (pending s source raw) := by
  rw [unread, hqueue, h]
  rfl

theorem readFrameInternal_next (c : FFFormatContext n σ) : Next s c (readFrameInternal s c) := by
  induction c using readFrameInternal.induct s with
  | case1 c hqueue =>
      rw [readFrameInternal, if_pos hqueue]
      exact popParsed_next s hqueue
  | case2 c hqueue source raw hread =>
      have hqueue := not_not.mp hqueue
      have hr := ffReadPacket_read s c.source c.raw
      rw [readFrameInternal_none s hqueue hread]
      rw [hread] at hr
      cases hr with
      | fail _ h h' =>
          have hend : pending s ([] : List (Item n)) raw = [] := by rw [pending, h']; rfl
          refine (flushParsers_next s hend).of_unread ?_ rfl
          rw [unread, unread, h, hend]
  | case3 c hqueue p source raw hread hactive =>
      have hqueue := not_not.mp hqueue
      have hr := ffReadPacket_read s c.source c.raw
      rw [readFrameInternal_some s hqueue hread, if_pos hactive]
      rw [hread] at hr
      cases hr with
      | next _ _ _ h =>
          refine .next p _ ?_ rfl
          rw [unread_of_read s hqueue h, parsed_of_inactive s (Option.isNone_iff_eq_none.mp hactive), unread]
          simp only [afterParsing, hqueue, List.nil_append, List.singleton_append]
  | case4 c hqueue p source raw hread r c' hactive ih =>
      have hqueue := not_not.mp hqueue
      have hr := ffReadPacket_read s c.source c.raw
      rw [readFrameInternal_some s hqueue hread, if_neg hactive]
      rw [hread] at hr
      cases hr with
      | next _ _ _ h => exact ih.of_unread (unread_of_read s hqueue h) rfl

def remaining (c : FFFormatContext n σ) : List (Packet n) := c.packetBuffer ++ unread s c

theorem avReadFrame_spec (c : FFFormatContext n σ) :
    (∃ p c', avReadFrame s c = (some p, c') ∧ remaining s c = p :: remaining s c') ∨
      ∃ c', avReadFrame s c = (none, c') ∧ remaining s c = [] ∧ remaining s c' = [] := by
  rw [avReadFrame, remaining]
  split
  next hnil =>
    have hnext := readFrameInternal_next s c
    cases hr : readFrameInternal s c with
    | mk x c' =>
        rw [hr] at hnext
        cases hnext with
        | next p _ h hb => exact Or.inl ⟨p, c', rfl, by rw [remaining, hb, hnil, h]; rfl⟩
        | fail _ h h' hb => exact Or.inr ⟨c', rfl, by rw [hnil, h]; rfl, by rw [remaining, hb, hnil, h']; rfl⟩
  next p ps hcons => exact Or.inl ⟨p, _, rfl, by rw [hcons]; rfl⟩

theorem reads_eq (k : Nat) (c : FFFormatContext n σ) :
    reads s k c = (List.range k).map fun i => (remaining s c)[i]? := by
  induction k generalizing c with
  | zero => rfl
  | succ k ih =>
      rw [reads, List.range_succ_eq_map, List.map_cons, List.map_map, ih]
      rcases avReadFrame_spec s c with ⟨p, c', hread, h⟩ | ⟨c', hread, h, h'⟩
      · rw [hread, h]
        rfl
      · rw [hread, h, h']
        rfl

/-- Reading ahead only moves packets from one list to the next. -/
theorem remaining_findStreamInfo (m : Nat) (c : FFFormatContext n σ) :
    remaining s (findStreamInfo s m c) = remaining s c := by
  induction m generalizing c with
  | zero => rfl
  | succ m ih =>
      have hnext := readFrameInternal_next s c
      rw [findStreamInfo]
      cases hr : readFrameInternal s c with
      | mk x c' =>
          rw [hr] at hnext
          cases hnext with
          | next p _ h hb =>
              simp only
              rw [ih, remaining, remaining, h, hb, List.append_assoc]
              rfl
          | fail _ h h' hb => rw [remaining, remaining, h, h', hb]

theorem reduceOption_range {α : Type} (xs : List α) {k : Nat} (h : xs.length ≤ k) :
    ((List.range k).map fun i => xs[i]?).reduceOption = xs := by
  induction k generalizing xs with
  | zero =>
      obtain rfl := List.length_eq_zero_iff.mp (Nat.le_zero.mp h)
      rfl
  | succ k ih =>
      rw [List.range_succ_eq_map, List.map_cons, List.map_map]
      cases xs with
      | nil => exact (List.reduceOption_cons_of_none _).trans (ih [] (Nat.zero_le k))
      | cons x xs =>
          exact (List.reduceOption_cons_of_some x _).trans (congrArg (x :: ·) (ih xs (Nat.le_of_succ_le_succ h)))

/-- Once av_read_frame has failed it has returned everything. -/
theorem reduceOption_reads {c : FFFormatContext n σ} {k : Nat} (h : none ∈ reads s k c) :
    (reads s k c).reduceOption = remaining s c := by
  rw [reads_eq] at h ⊢
  obtain ⟨i, hi, hnone⟩ := List.mem_map.mp h
  have hle := List.getElem?_eq_none_iff.mp hnone
  exact reduceOption_range _ (Nat.le_trans hle (Nat.le_of_lt (List.mem_range.mp hi)))

end FfmpegPlayer.ReadFrame
