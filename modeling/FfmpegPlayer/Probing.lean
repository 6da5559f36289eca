import FfmpegPlayer.PlainFile
import FfmpegPlayer.ProbeFormat

namespace FfmpegPlayer.Probing

open Window AvioBuf BufferedFile PlainFile ProbeFormat

variable {F σ : Type} {U : Protocol} {file : List UInt8} {place : U.State → Nat} {c : AVIOContext U}

def probeBufMin : Nat := 2048

theorem probeBufMin_pos : 0 < probeBufMin := by decide

def avprobeScoreRetry : Int := 25

def averrorInvaliddata : Int := -1094995529

abbrev Reader (σ : Type) := σ → Nat → (Int × List UInt8) × σ

/-- A format that scores more than the best so far, where `probe` is av_probe_input_format3. -/
def avProbeInputFormat2 (probe : List UInt8 → Option F × Int) (data : List UInt8) (scoreMax : Int) : Option F × Int :=
  let r := probe data
  if scoreMax < r.2 then r else (none, scoreMax)

structure Probe (F : Type) where
  fmt : Option F
  buf : List UInt8
  score : Int
  ret : Int
  eof : Bool
deriving DecidableEq, Repr

def guess (probe : List UInt8 → Option F × Int) (offset maxProbeSize probeSize : Nat) (p : Probe F)
    (r : Int × List UInt8) : Probe F :=
  let score := if probeSize < maxProbeSize then avprobeScoreRetry else 0
  if r.1 < 0 ∧ r.1 ≠ averrorEof then { p with score := score, ret := r.1 }
  else
    -- at the end of the file a low score will do
    let atEnd := decide (r.1 < 0)
    let buf := p.buf ++ r.2
    let score := if atEnd then 0 else score
    let ret := if atEnd then 0 else r.1
    if buf.length < offset then ⟨p.fmt, buf, score, ret, atEnd⟩
    else
      let f := avProbeInputFormat2 probe (buf.drop offset) score
      ⟨f.1, buf, f.2, ret, atEnd⟩

def nextProbeSize (maxProbeSize probeSize : Nat) : Nat := min (2 * probeSize) (max maxProbeSize (probeSize + 1))

theorem lt_nextProbeSize (maxProbeSize : Nat) {probeSize : Nat} (h : 0 < probeSize) :
    probeSize < nextProbeSize maxProbeSize probeSize := by
  rw [nextProbeSize]
  omega

def probeLoop (read : Reader σ) (probe : List UInt8 → Option F × Int) (offset maxProbeSize probeSize : Nat)
    (h : 0 < probeSize) (p : Probe F) (s : σ) : Probe F × σ :=
  if probeSize ≤ maxProbeSize ∧ p.fmt.isNone ∧ p.eof = false ∧ 0 ≤ p.ret then
    let r := read s (probeSize - p.buf.length)
    probeLoop read probe offset maxProbeSize (nextProbeSize maxProbeSize probeSize)
      (Nat.lt_trans h (lt_nextProbeSize maxProbeSize h)) (guess probe offset maxProbeSize probeSize p r.1) r.2
  else (p, s)
termination_by maxProbeSize + 1 - probeSize
decreasing_by
  have hlt := lt_nextProbeSize maxProbeSize h
  omega

def found (p : Probe F) (rewound : Int) : Int × Option F :=
  let ret := if p.ret < 0 then p.ret else if p.fmt.isNone then averrorInvaliddata else p.ret
  let ret := if 0 ≤ ret then rewound else ret
  (if ret < 0 then ret else p.score, p.fmt)

def probeLimit (maxProbeSize : Nat) : Nat := if maxProbeSize = 0 then probeBufMax else maxProbeSize

def probeBuffer (read : Reader σ) (rewind : σ → List UInt8 → Int × σ) (probe : List UInt8 → Option F × Int)
    (fmt : Option F) (offset maxProbeSize : Nat) (s : σ) : (Int × Option F) × σ :=
  if maxProbeSize ≠ 0 ∧ maxProbeSize < probeBufMin then ((einval, fmt), s)
  else if probeLimit maxProbeSize ≤ offset then ((einval, fmt), s)
  else
    let r := probeLoop read probe offset (probeLimit maxProbeSize) probeBufMin probeBufMin_pos ⟨fmt, [], 0, 0, false⟩ s
    let w := rewind r.2 r.1.buf
    (found r.1 w.1, w.2)

def avioReader (c : AVIOContext U) (size : Nat) : (Int × List UInt8) × AVIOContext U :=
  let r := avioRead c size
  ((r.1, r.2.1), r.2.2)

def probeMime (option : Option String) : Option String :=
  option.map fun m => String.ofList (m.toList.takeWhile (· ≠ ';'))

/-- av_probe_input_buffer2, for probe sizes below 2^31. -/
def avProbeInputBuffer2 (probe : Option String → List UInt8 → Option F × Int) (fmt : Option F)
    (offset maxProbeSize : Nat) (c : AVIOContext U) : (Int × Option F) × AVIOContext U :=
  probeBuffer avioReader ffioRewindWithProbeData (probe (probeMime (U.mimeType c.prot))) fmt offset maxProbeSize c

def plainReader (file : List UInt8) (t : Nat) (size : Nat) : (Int × List UInt8) × Nat :=
  let xs := (file.drop t).take size
  ((if xs = [] then averrorEof else xs.length, xs), t + xs.length)

def probeFile (probe : List UInt8 → Option F × Int) (fmt : Option F) (offset maxProbeSize : Nat)
    (file : List UInt8) : Int × Option F :=
  (probeBuffer (plainReader file) (fun _ _ => (0, 0)) probe fmt offset maxProbeSize 0).1

structure Probed (file : List UInt8) (place : U.State → Nat) (buf : List UInt8) (c : AVIOContext U) : Prop where
  settled : Settled file place c
  shows : Shows file 0 buf
  length_eq : buf.length = cursor c

theorem guess_buf (probe : List UInt8 → Option F × Int) (offset maxProbeSize probeSize : Nat) (p : Probe F)
    {r : Int × List UInt8} (h : 0 ≤ r.1 ∨ r.1 = averrorEof) :
    (guess probe offset maxProbeSize probeSize p r).buf = p.buf ++ r.2 := by
  have hno : ¬ (r.1 < 0 ∧ r.1 ≠ averrorEof) := by
    rintro ⟨hneg, hne⟩
    exact h.elim (fun hp => absurd hneg (Int.not_lt.mpr hp)) hne
  simp only [guess, if_neg hno]
  split
  next => rfl
  next => rfl

theorem plainReader_ret (file : List UInt8) (t size : Nat) :
    0 ≤ (plainReader file t size).1.1 ∨ (plainReader file t size).1.1 = averrorEof := by
  simp only [plainReader]
  split
  next => exact .inr rfl
  next => exact .inl (Int.natCast_nonneg _)

theorem avioReader_plain (hh : Honest U file place) (h : Settled file place c) {size : Nat} (hsize : 0 < size) :
    (avioReader c size).1 = (plainReader file (cursor c) size).1 ∧
      cursor (avioReader c size).2 = (plainReader file (cursor c) size).2 ∧ Settled file place (avioReader c size).2 := by
  obtain ⟨hanswer, hhandle, hsettled⟩ := avioRead_plain hh h size
  have hplace : (file.drop (handle c).place).take size = (file.drop (cursor c)).take size := rfl
  rw [plain_read (handle c) hplace] at hanswer
  obtain ⟨hret, hdata⟩ := Answer.data.inj hanswer
  refine ⟨Prod.ext (hret.trans ?_) hdata, congrArg Handle.place hhandle, hsettled⟩
  simp only [plainReader]
  split
  next hnil =>
    have hlt : decide (((file.drop (cursor c)).take size).length < size) = true := by
      rw [hnil]
      exact decide_eq_true hsize
    rw [hlt, Bool.or_true, if_pos rfl]
  next => rfl

theorem Probed.read (hh : Honest U file place) {buf : List UInt8} (h : Probed file place buf c) {size : Nat}
    (hsize : 0 < size) : Probed file place (buf ++ (avioReader c size).1.2) (avioReader c size).2 := by
  obtain ⟨hread, hcur, hsettled⟩ := avioReader_plain hh h.settled hsize
  rw [hread]
  refine ⟨hsettled, h.shows.append ?_, ?_⟩
  · rw [Nat.zero_add, h.length_eq]
    exact shows_take file _ _
  · rw [hcur, List.length_append, h.length_eq]
    rfl

/-- The loop over the context sees what it would see of the file itself. -/
theorem probeLoop_plain (hh : Honest U file place) (probe : List UInt8 → Option F × Int) (offset maxProbeSize : Nat)
    {probeSize : Nat} (hpos : 0 < probeSize) {p : Probe F} (h : Probed file place p.buf c)
    (hlt : p.buf.length < probeSize) :
    (probeLoop avioReader probe offset maxProbeSize probeSize hpos p c).1 =
        (probeLoop (plainReader file) probe offset maxProbeSize probeSize hpos p (cursor c)).1 ∧
      Probed file place (probeLoop avioReader probe offset maxProbeSize probeSize hpos p c).1.buf
        (probeLoop avioReader probe offset maxProbeSize probeSize hpos p c).2 := by
  fun_induction probeLoop avioReader probe offset maxProbeSize probeSize hpos p c with
  | case1 probeSize hpos p c hgo r ih =>
      have hsize : 0 < probeSize - p.buf.length := Nat.sub_pos_of_lt hlt
      obtain ⟨hread, hcur, -⟩ := avioReader_plain hh h.settled hsize
      have hprobed := h.read hh hsize
      have hret := plainReader_ret file (cursor c) (probeSize - p.buf.length)
      rw [← hread] at hret
      have hbuf := guess_buf probe offset maxProbeSize probeSize p hret
      have hle : (p.buf ++ r.1.2).length ≤ probeSize := by
        show (p.buf ++ (avioReader c (probeSize - p.buf.length)).1.2).length ≤ probeSize
        rw [hread, List.length_append, plainReader, List.length_take]
        omega
      rw [← hbuf] at hprobed hle
      rw [probeLoop.eq_def (plainReader file), if_pos hgo]
      simp only
      rw [← hread, ← hcur]
      exact ih hprobed (Nat.lt_of_le_of_lt hle (lt_nextProbeSize maxProbeSize hpos))
  | case2 probeSize hpos p c hstop =>
      rw [probeLoop.eq_def (plainReader file), if_neg hstop]
      exact ⟨rfl, h⟩

/-- After the rewind the next byte is the first one of the file, and what was read
behind the bytes for probing is not lost. -/
theorem Probed.rewind {buf : List UInt8} (h : Probed file place buf c) :
    (ffioRewindWithProbeData c buf).1 = 0 ∧ Settled file place (ffioRewindWithProbeData c buf).2 ∧
      handle (ffioRewindWithProbeData c buf).2 = ⟨0, false⟩ := by
  have hadd := h.settled.holds.avail_add
  have hcur := h.settled.holds.cursor_add
  have hlen := h.length_eq
  have hsize := h.settled.holds.size
  have hle := h.settled.holds.length_le
  have hstart : c.start = c.pos - c.buffer.length := rfl
  have hdrop : (c.buffer.drop c.bufPtr).length = c.avail := List.length_drop
  have hover : (buf.length - c.start).toNat = c.bufPtr := by omega
  have hdata : (if (buf.length : Int) < buf.length + c.buffer.length - (buf.length - c.start) then
      buf ++ c.buffer.drop (buf.length - c.start).toNat else buf) = buf ++ c.buffer.drop c.bufPtr := by
    rw [hover]
    split
    next => rfl
    next hno =>
      have hnil : c.buffer.drop c.bufPtr = [] := List.eq_nil_of_length_eq_zero (by omega)
      rw [hnil, List.append_nil]
  have hpos : (buf ++ c.buffer.drop c.bufPtr).length = c.pos := by
    rw [List.length_append]
    omega
  rw [ffioRewindWithProbeData, if_neg (by omega)]
  simp only [hdata, hpos]
  refine ⟨trivial, ⟨⟨h.settled.holds.place, Nat.le_of_eq hpos, ?_, Nat.zero_le _, ?_⟩, h.settled.error,
    fun heof => by cases heof⟩, ?_⟩
  · show Shows file (c.pos - (buf ++ c.buffer.drop c.bufPtr).length) (buf ++ c.buffer.drop c.bufPtr)
    rw [hpos, Nat.sub_self]
    refine h.shows.append ?_
    rw [Nat.zero_add, hlen]
    exact h.settled.holds.shows_avail
  · show (buf ++ c.buffer.drop c.bufPtr).length ≤
      (max (c.bufferSize : Int) (buf.length + c.buffer.length - (buf.length - c.start))).toNat
    omega
  · show Handle.mk (c.pos - ((buf ++ c.buffer.drop c.bufPtr).length - 0)) false = ⟨0, false⟩
    rw [hpos, Nat.sub_zero, Nat.sub_self]

/-- Probing finds in a context what it finds in the file, and leaves the context at its start. -/
theorem avProbeInputBuffer2_plain (hh : Honest U file place) (h : Settled file place c)
    (hfresh : handle c = ⟨0, false⟩) (probe : Option String → List UInt8 → Option F × Int) (fmt : Option F)
    (offset maxProbeSize : Nat) :
    (avProbeInputBuffer2 probe fmt offset maxProbeSize c).1 =
        probeFile (probe (probeMime (U.mimeType c.prot))) fmt offset maxProbeSize file ∧
      Settled file place (avProbeInputBuffer2 probe fmt offset maxProbeSize c).2 ∧
      handle (avProbeInputBuffer2 probe fmt offset maxProbeSize c).2 = ⟨0, false⟩ := by
  have hzero : cursor c = 0 := congrArg Handle.place hfresh
  simp only [avProbeInputBuffer2, probeFile, probeBuffer]
  by_cases hmin : maxProbeSize ≠ 0 ∧ maxProbeSize < probeBufMin
  · simp only [if_pos hmin]
    exact ⟨trivial, h, hfresh⟩
  by_cases hoffset : probeLimit maxProbeSize ≤ offset
  · simp only [if_neg hmin, if_pos hoffset]
    exact ⟨trivial, h, hfresh⟩
  have hprobed : Probed file place (Probe.mk fmt [] 0 0 false).buf c := ⟨h, shows_nil file 0, hzero.symm⟩
  obtain ⟨hsame, hkept⟩ := probeLoop_plain hh (probe (probeMime (U.mimeType c.prot))) offset (probeLimit maxProbeSize) probeBufMin_pos hprobed
    probeBufMin_pos
  obtain ⟨hret, hsettled, hhandle⟩ := hkept.rewind
  rw [hzero] at hsame
  simp only [if_neg hmin, if_neg hoffset]
  exact ⟨by rw [hret, hsame], hsettled, hhandle⟩

/-- Which format a file of one MIME type has: neither the protocol and the sizes of its
pieces nor the order of the demuxers has a part in it. -/
theorem format_of_bytes {V : Protocol} {place' : V.State → Nat} (hh : Honest U file place) (hh' : Honest V file place')
    {st : U.State} (hst : place st = 0) {st' : V.State} (hst' : place' st' = 0)
    (hmime : probeMime (U.mimeType st) = probeMime (V.mimeType st')) {bufferSize bufferSize' : Nat}
    (hsize : 0 < bufferSize) (hsize' : 0 < bufferSize') {demuxers demuxers' : List AVInputFormat}
    (hp : demuxers.Perm demuxers') (fmt : Option AVInputFormat) (offset maxProbeSize : Nat) :
    (avProbeInputBuffer2 (avProbeInputFormat3 demuxers true) fmt offset maxProbeSize
        (ffioInitContext st bufferSize hsize)).1 =
      (avProbeInputBuffer2 (avProbeInputFormat3 demuxers' true) fmt offset maxProbeSize
        (ffioInitContext st' bufferSize' hsize')).1 := by
  obtain ⟨hfound, -⟩ := avProbeInputBuffer2_plain hh (settled_init hst hsize) rfl (avProbeInputFormat3 demuxers true) fmt
    offset maxProbeSize
  obtain ⟨hfound', -⟩ := avProbeInputBuffer2_plain hh' (settled_init hst' hsize') rfl (avProbeInputFormat3 demuxers' true)
    fmt offset maxProbeSize
  have hsame : probeMime (U.mimeType (ffioInitContext st bufferSize hsize).prot) =
      probeMime (V.mimeType (ffioInitContext st' bufferSize' hsize').prot) := hmime
  rw [hfound, hfound', hsame, avProbeInputFormat3_eq_of_perm hp]

def magic (name : String) (first : UInt8) (score : Int) : AVInputFormat where
  name := name
  experimental := false
  noFile := false
  readProbe := some fun data => if data.head? = some first then score else 0
  matchesExt := false
  matchesMime := fun mime => name = "aac" ∧ mime = "audio/aac"

def typed (content : List UInt8) (blocksize : Nat) (mime : String) : Protocol :=
  { fileProtocol content blocksize with mimeType := fun _ => some mime }

theorem typed_honest (content : List UInt8) {blocksize : Nat} (h : 0 < blocksize) (mime : String) :
    Honest (typed content blocksize mime) content id := by
  obtain ⟨hserves, hread, hend⟩ := fileProtocol_honest content h
  exact ⟨⟨hserves.read, hserves.read_error, hserves.seek⟩, hread, hend⟩

theorem format_of_bytes_sample :
    (avProbeInputBuffer2 (avProbeInputFormat3 [magic "loas" 1 60, magic "aac" 1 51] true) none 0 0
        (ffioInitContext (U := typed [1, 2, 3, 4, 5, 6, 7, 8] 3 "audio/aac") (0 : Nat) 65536 (by decide))).1 =
      (avProbeInputBuffer2 (avProbeInputFormat3 [magic "aac" 1 51, magic "loas" 1 60] true) none 0 0
        (ffioInitContext (U := typed [1, 2, 3, 4, 5, 6, 7, 8] 5 "audio/aac;x=y") (0 : Nat) 40000 (by decide))).1 :=
  format_of_bytes (typed_honest [1, 2, 3, 4, 5, 6, 7, 8] (by decide : 0 < 3) "audio/aac")
    (typed_honest [1, 2, 3, 4, 5, 6, 7, 8] (by decide : 0 < 5) "audio/aac;x=y") rfl rfl (by decide) (by decide)
    (by decide) (List.Perm.swap _ _ _) none 0 0

end FfmpegPlayer.Probing
