import FfmpegPlayer.Window

namespace FfmpegPlayer.AvioBuf

open Window

def averrorEof : Int := -541478725

def einval : Int := -22

def epipe : Int := -32

def ioBufferSize : Nat := 32768

def intMax : Nat := 2147483647

def int64Max : Int := 9223372036854775807

/-- The protocol behind a context, with what of the context it determines. A
read that succeeds brings at least one byte and no more than there is room for. -/
structure Protocol where
  State : Type
  /-- s->read_packet and s->seek are set -/
  hasRead : Bool
  hasSeek : Bool
  readPacket : State → Nat → Except Int (List UInt8) × State
  /-- with SEEK_SET -/
  seek : State → Int → Int × State
  /-- 0 where short_seek_get is not set -/
  shortSeekGet : State → Int
  shortSeekThreshold : Int
  maxPacketSize : Nat
  direct : Bool
  /-- the flag AVIO_SEEKABLE_NORMAL and the other flags of s->seekable -/
  seekableNormal : Bool
  seekableOther : Bool
  /-- the option mime_type, where the protocol has one -/
  mimeType : State → Option String
  read_ne_nil : ∀ st n xs, 0 < n → (readPacket st n).1 = .ok xs → xs ≠ []
  read_le : ∀ st n xs, (readPacket st n).1 = .ok xs → xs.length ≤ n

def Protocol.maxBufferSize (U : Protocol) : Nat := if U.maxPacketSize ≠ 0 then U.maxPacketSize else ioBufferSize

structure AVIOContext (U : Protocol) where
  prot : U.State
  /-- the buffer as far as buf_end -/
  buffer : List UInt8
  bufPtr : Nat
  bufferSize : Nat
  bufferSize_pos : 0 < bufferSize
  origBufferSize : Nat
  /-- the place in the file of the end of the buffer -/
  pos : Nat
  eofReached : Bool
  error : Int
  updateChecksum : Option (UInt64 → List UInt8 → UInt64)
  checksum : UInt64
  checksumPtr : Nat

variable {U : Protocol}

def ffioInitContext (st : U.State) (bufferSize : Nat) (h : 0 < bufferSize) : AVIOContext U where
  prot := st
  buffer := []
  bufPtr := 0
  bufferSize := bufferSize
  bufferSize_pos := h
  origBufferSize := bufferSize
  pos := 0
  eofReached := false
  error := 0
  updateChecksum := none
  checksum := 0
  checksumPtr := 0

def readPacketWrapper (c : AVIOContext U) (size : Nat) : Except Int (List UInt8) × U.State :=
  if U.hasRead then U.readPacket c.prot size else (.error einval, c.prot)

def failed (c : AVIOContext U) (st : U.State) (e : Int) : AVIOContext U :=
  { c with prot := st, eofReached := true, error := if e = averrorEof then c.error else e }

def setBufSize (c : AVIOContext U) (size : Nat) (h : 0 < size) : AVIOContext U :=
  { c with buffer := [], bufPtr := 0, bufferSize := size, bufferSize_pos := h, origBufferSize := size }

def fillDst (c : AVIOContext U) : Nat :=
  if c.buffer.length + U.maxBufferSize ≤ c.bufferSize then c.buffer.length else 0

def countBuffer (c : AVIOContext U) (dst : Nat) : AVIOContext U :=
  match c.updateChecksum with
  | none => c
  | some update =>
      if dst = 0 then
        { c with
          checksum := if c.checksumPtr < c.buffer.length
            then update c.checksum (c.buffer.drop c.checksumPtr) else c.checksum
          checksumPtr := 0 }
      else c

/-- A buffer that is larger than it was at first is read into in smaller pieces,
and replaced where nothing of it is kept. -/
def shrink (c : AVIOContext U) (dst : Nat) : AVIOContext U × Nat :=
  let len := c.bufferSize - dst
  if h : U.hasRead ∧ 0 < c.origBufferSize ∧ c.origBufferSize < c.bufferSize ∧ c.origBufferSize ≤ len then
    if dst = 0 ∧ c.bufPtr ≠ dst then ({ setBufSize c c.origBufferSize h.2.1 with checksumPtr := 0 }, c.origBufferSize)
    else (c, c.origBufferSize)
  else (c, len)

def receive (c : AVIOContext U) (dst : Nat) : Except Int (List UInt8) × U.State → AVIOContext U
  | (.error e, st) => failed c st e
  | (.ok xs, st) =>
      { c with prot := st, pos := c.pos + xs.length, bufPtr := dst, buffer := c.buffer.take dst ++ xs }

def fillBuffer (c : AVIOContext U) : AVIOContext U :=
  let dst := fillDst c
  let eof := c.eofReached || (!U.hasRead && decide (c.buffer.length ≤ c.bufPtr))
  if eof then { c with eofReached := true }
  else
    let r := shrink (countBuffer c dst) dst
    receive r.1 dst (readPacketWrapper r.1 r.2)

def avioFeof (c : AVIOContext U) : Bool × AVIOContext U :=
  let c := if c.eofReached then fillBuffer { c with eofReached := false } else c
  (c.eofReached, c)

def avioR8 (c : AVIOContext U) : UInt8 × AVIOContext U :=
  let c := if c.buffer.length ≤ c.bufPtr then fillBuffer c else c
  match c.buffer[c.bufPtr]? with
  | some b => (b, { c with bufPtr := c.bufPtr + 1 })
  | none => (0, c)

def AVIOContext.avail (c : AVIOContext U) : Nat := c.buffer.length - c.bufPtr

def take (c : AVIOContext U) (len : Nat) : List UInt8 × AVIOContext U :=
  ((c.buffer.drop c.bufPtr).take len, { c with bufPtr := c.bufPtr + len })

def readDirect (c : AVIOContext U) (st : U.State) (xs : List UInt8) : AVIOContext U :=
  { c with prot := st, pos := c.pos + xs.length, buffer := [], bufPtr := 0 }

theorem readPacketWrapper_ne_nil {c : AVIOContext U} {size : Nat} {xs : List UInt8} {st : U.State}
    (hpos : 0 < size) (h : readPacketWrapper c size = (.ok xs, st)) : xs ≠ [] := by
  rw [readPacketWrapper] at h
  split at h
  · exact U.read_ne_nil c.prot size xs hpos (by rw [h])
  · cases h

theorem readPacketWrapper_le {c : AVIOContext U} {size : Nat} {xs : List UInt8} {st : U.State}
    (h : readPacketWrapper c size = (.ok xs, st)) : xs.length ≤ size := by
  rw [readPacketWrapper] at h
  split at h
  · exact U.read_le c.prot size xs (by rw [h])
  · cases h

def readLoop (c : AVIOContext U) (size : Nat) : List UInt8 × AVIOContext U :=
  if _h0 : size = 0 then ([], c)
  else if _h1 : c.avail = 0 then
    if (U.direct ∨ c.bufferSize < size) ∧ c.updateChecksum.isNone ∧ U.hasRead then
      match _h2 : readPacketWrapper c size with
      | (.error e, st) => ([], failed c st e)
      | (.ok xs, st) =>
          let r := readLoop (readDirect c st xs) (size - xs.length)
          (xs ++ r.1, r.2)
    else
      let c := fillBuffer c
      if _h3 : c.avail = 0 then ([], c) else readLoop c size
  else
    let t := take c (min c.avail size)
    let r := readLoop t.2 (size - min c.avail size)
    (t.1 ++ r.1, r.2)
termination_by (size, if c.avail = 0 then 1 else 0)
decreasing_by
  · have hne := List.length_pos_iff.mpr (readPacketWrapper_ne_nil (Nat.pos_of_ne_zero _h0) _h2)
    exact Prod.Lex.left _ _ (by omega)
  · exact Prod.Lex.right _ (by rw [if_neg _h3, if_pos _h1]; exact Nat.one_pos)
  · exact Prod.Lex.left _ _ (by omega)

def avioRead (c : AVIOContext U) (size : Nat) : Int × List UInt8 × AVIOContext U :=
  let r := readLoop c size
  if r.1 = [] then
    if r.2.error ≠ 0 then (r.2.error, [], r.2)
    else
      let f := avioFeof r.2
      (if f.1 then averrorEof else 0, [], f.2)
  else (r.1.length, r)

def AVIOContext.start (c : AVIOContext U) : Int := c.pos - c.buffer.length

def AVIOContext.tell (c : AVIOContext U) : Int := c.start + c.bufPtr

structure Prepared (c : AVIOContext U) (dst : Nat) (c1 : AVIOContext U) (len : Nat) : Prop where
  prot : c1.prot = c.prot
  pos : c1.pos = c.pos
  error : c1.error = c.error
  eofReached : c1.eofReached = c.eofReached
  updateChecksum : c1.updateChecksum = c.updateChecksum
  buffer : (c1.buffer = c.buffer ∧ c1.bufPtr = c.bufPtr ∧ c1.bufferSize = c.bufferSize) ∨
    (dst = 0 ∧ c.bufPtr ≠ 0 ∧ c1.buffer = [] ∧ c1.bufPtr = 0 ∧ c1.checksumPtr = 0)
  len_pos : 0 < len
  len_le : dst + len ≤ c1.bufferSize

theorem maxBufferSize_pos (U : Protocol) : 0 < U.maxBufferSize := by
  rw [Protocol.maxBufferSize]
  split
  next h => exact Nat.pos_of_ne_zero h
  next => decide

theorem fillDst_lt (c : AVIOContext U) : fillDst c < c.bufferSize := by
  have hpos := c.bufferSize_pos
  have hmax := maxBufferSize_pos U
  rw [fillDst]
  split <;> omega

theorem prepared (c : AVIOContext U) :
    Prepared c (fillDst c) (shrink (countBuffer c (fillDst c)) (fillDst c)).1
      (shrink (countBuffer c (fillDst c)) (fillDst c)).2 := by
  have hlt := fillDst_lt c
  generalize fillDst c = dst at hlt ⊢
  have hcount : Prepared c dst (countBuffer c dst) (c.bufferSize - dst) := by
    rw [countBuffer]
    split
    next => constructor <;> first | rfl | exact .inl ⟨rfl, rfl, rfl⟩ | omega
    next =>
      split
      all_goals constructor <;> first | assumption | rfl | exact .inl ⟨rfl, rfl, rfl⟩ | (show _ ≤ c.bufferSize; omega) | omega
  obtain ⟨hbuf, hptr, hsize⟩ := hcount.buffer.resolve_right (by
    rintro ⟨hz, hp, hb, hb', hc⟩
    rw [countBuffer] at hb'
    split at hb' <;> try exact hp hb'
    split at hb' <;> exact hp hb')
  rw [shrink]
  simp only [hptr, hsize]
  split
  next h =>
    split
    next hd =>
      exact ⟨hcount.prot, hcount.pos, hcount.error, hcount.eofReached, hcount.updateChecksum,
        .inr ⟨hd.1, hd.1 ▸ hd.2, rfl, rfl, rfl⟩, h.2.1, by show dst + _ ≤ (countBuffer c dst).origBufferSize; omega⟩
    next => exact { hcount with len_pos := h.2.1, len_le := by rw [hsize]; omega }
  next => exact hcount

inductive Fill (c : AVIOContext U) : AVIOContext U → Prop
  | ended (h : c.eofReached = true ∨ U.hasRead = false) : Fill c { c with eofReached := true }
  | failed (c1 : AVIOContext U) (len : Nat) (st : U.State) (e : Int) (before : Prepared c (fillDst c) c1 len)
      (hread : readPacketWrapper c1 len = (.error e, st)) : Fill c (AvioBuf.failed c1 st e)
  | filled (c1 : AVIOContext U) (len : Nat) (st : U.State) (xs : List UInt8)
      (before : Prepared c (fillDst c) c1 len) (hread : readPacketWrapper c1 len = (.ok xs, st))
      (hne : xs ≠ []) (heof : c.eofReached = false) : Fill c (receive c1 (fillDst c) (.ok xs, st))

theorem fillBuffer_fill (c : AVIOContext U) : Fill c (fillBuffer c) := by
  rw [fillBuffer]
  have hprep := prepared c
  split
  next h =>
    refine .ended ?_
    simp only [Bool.or_eq_true, Bool.and_eq_true, Bool.not_eq_true'] at h
    exact h.imp_right And.left
  next h =>
    rcases hread : readPacketWrapper (shrink (countBuffer c (fillDst c)) (fillDst c)).1
      (shrink (countBuffer c (fillDst c)) (fillDst c)).2 with ⟨e | xs, st⟩
    · simp only [hread]
      exact .failed _ _ st e hprep hread
    · simp only [hread]
      simp only [Bool.or_eq_true, not_or, Bool.not_eq_true] at h
      exact .filled _ _ st xs hprep hread (readPacketWrapper_ne_nil hprep.len_pos hread) h.1

theorem fillBuffer_progress (c : AVIOContext U) :
    (fillBuffer c).eofReached = true ∨ c.pos < (fillBuffer c).pos := by
  have hfill := fillBuffer_fill c
  generalize fillBuffer c = c' at hfill ⊢
  cases hfill with
  | ended | failed => exact .inl rfl
  | filled c1 len st xs before hread hne =>
      have hlen := List.length_pos_iff.mpr hne
      right
      show c.pos < c1.pos + xs.length
      rw [before.pos]
      omega

/-- The loop of avio_seek that reads on to a place behind the buffer. -/
def fillUntil (c : AVIOContext U) (offset : Int) : AVIOContext U :=
  if _h : c.pos < offset ∧ c.eofReached = false then fillUntil (fillBuffer c) offset else c
termination_by if c.eofReached then 0 else (offset - c.pos).toNat + 1
decreasing_by
  rcases fillBuffer_progress c with heof | hpos
  · simp [heof, _h.2]
  · rw [_h.2]
    split
    · simp
    · simp only [Bool.false_eq_true, if_false]
      omega

theorem start_fillBuffer {c : AVIOContext U} (hnil : c.buffer = []) : (fillBuffer c).start = c.pos := by
  have hfill := fillBuffer_fill c
  generalize fillBuffer c = c' at hfill ⊢
  cases hfill with
  | ended => simp [AVIOContext.start, hnil]
  | failed c1 len st e before =>
      have hbuf : c1.buffer = [] := before.buffer.elim (fun h => h.1.trans hnil) (fun h => h.2.2.1)
      simp [AVIOContext.start, failed, before.pos, hbuf]
  | filled c1 len st xs before =>
      have hbuf : c1.buffer = [] := before.buffer.elim (fun h => h.1.trans hnil) (fun h => h.2.2.1)
      simp [AVIOContext.start, receive, before.pos, hbuf]

def backTo (c : AVIOContext U) : Int := c.start - min (c.buffer.length / 2 : Int) c.start

def sought (c : AVIOContext U) (st : U.State) (pos : Int) : AVIOContext U :=
  { c with prot := st, buffer := [], bufPtr := 0, pos := pos.toNat, eofReached := false }

def seekSet (c : AVIOContext U) (offset : Int) : Int × AVIOContext U :=
  if offset < 0 then (einval, c)
  else
    let offset1 := offset - c.start
    let shortSeek := max (U.shortSeekGet c.prot) U.shortSeekThreshold
    let buffered : Prop := U.direct = false ∨ U.hasSeek = false
    if buffered ∧ 0 ≤ offset1 ∧ offset1 ≤ c.buffer.length then
      (offset, { c with bufPtr := offset1.toNat, eofReached := false })
    else if (U.seekableNormal = false ∨ offset1 ≤ c.buffer.length + shortSeek) ∧ 0 ≤ offset1 ∧ buffered then
      let c := fillUntil c offset
      if c.eofReached then (averrorEof, c)
      else (offset, { c with bufPtr := (c.buffer.length - (c.pos - offset)).toNat, eofReached := false })
    else if _h : offset1 < 0 ∧ -offset1 < c.buffer.length / 2 ∧ U.hasSeek ∧ 0 < offset then
      let r := U.seek c.prot (backTo c)
      if r.1 < 0 then (r.1, { c with prot := r.2 })
      else seekSet (fillBuffer (sought c r.2 (backTo c))) offset
    else if U.hasSeek = false then (epipe, c)
    else
      let r := U.seek c.prot offset
      if r.1 < 0 then (r.1, { c with prot := r.2 }) else (offset, sought c r.2 offset)
termination_by if offset < c.start then 1 else 0
decreasing_by
  rw [start_fillBuffer (by rfl)]
  have hback : backTo c ≤ offset ∧ 0 ≤ backTo c := by
    rw [backTo]
    omega
  rw [if_neg (by show ¬ offset < ((backTo c).toNat : Int); omega), if_pos (by omega)]
  exact Nat.one_pos

inductive Whence
  | set
  | cur
  | other
deriving DecidableEq, Repr

def avioSeek (c : AVIOContext U) (offset : Int) : Whence → Int × AVIOContext U
  | .other => (einval, c)
  | .set => seekSet c offset
  | .cur =>
      if offset = 0 then (c.tell, c)
      else if int64Max - c.tell < offset then (einval, c)
      else seekSet c (offset + c.tell)

def countRead (c : AVIOContext U) : AVIOContext U :=
  match c.updateChecksum with
  | none => c
  | some update =>
      if c.checksumPtr < c.bufPtr then
        { c with checksum := update c.checksum ((c.buffer.take c.bufPtr).drop c.checksumPtr) }
      else c

theorem seekback_size_pos (c : AVIOContext U) (size : Nat) :
    0 < if size ≤ c.bufferSize then c.bufferSize else size := by
  have hpos := c.bufferSize_pos
  split <;> omega

def ffioEnsureSeekback (c : AVIOContext U) (bufSize : Nat) : Int × AVIOContext U :=
  if bufSize ≤ c.avail then (0, c)
  else if intMax < bufSize + U.maxBufferSize then (einval, c)
  else
    let size := bufSize + U.maxBufferSize - 1
    if size + c.bufPtr ≤ c.bufferSize ∨ U.seekableNormal ∨ U.seekableOther ∨ U.hasRead = false then (0, c)
    else
      let c1 := countRead c
      (0, { c1 with
        buffer := c.buffer.drop c.bufPtr
        bufPtr := 0
        checksumPtr := 0
        bufferSize := if size ≤ c.bufferSize then c.bufferSize else size
        bufferSize_pos := seekback_size_pos c size })

theorem rewind_size_pos (c : AVIOContext U) (size : Int) : 0 < (max (c.bufferSize : Int) size).toNat := by
  have hpos := c.bufferSize_pos
  omega

def ffioRewindWithProbeData (c : AVIOContext U) (buf : List UInt8) : Int × AVIOContext U :=
  if (buf.length : Int) < c.start then (einval, c)
  else
    let overlap := buf.length - c.start
    let newSize := buf.length + c.buffer.length - overlap
    let data := if buf.length < newSize then buf ++ c.buffer.drop overlap.toNat else buf
    (0, { c with
      buffer := data
      bufPtr := 0
      bufferSize := (max (c.bufferSize : Int) newSize).toNat
      bufferSize_pos := rewind_size_pos c newSize
      pos := data.length
      eofReached := false })

end FfmpegPlayer.AvioBuf
