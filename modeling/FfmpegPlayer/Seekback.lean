import FfmpegPlayer.PlainFile

namespace FfmpegPlayer.Seekback

open Window AvioBuf BufferedFile PlainFile

variable {U : Protocol} {file : List UInt8} {place : U.State → Nat} {c c' : AVIOContext U} {start n : Nat}

def first (c : AVIOContext U) : Nat := c.pos - c.buffer.length

/-- The buffer reaches back to a place, and has got, or still has room for, the
`n` bytes from there on. The end of the file has not been met behind them. -/
structure Keeps (file : List UInt8) (place : U.State → Nat) (start n : Nat) (c : AVIOContext U) : Prop where
  holds : Holds file place c
  first_le : first c ≤ start
  le_cursor : start ≤ cursor c
  room : start + n ≤ c.pos ∨ start + n + U.maxBufferSize ≤ first c + c.bufferSize + 1
  eof : c.eofReached = true → c.pos < start + n

theorem Holds.first_add (h : Holds file place c) : first c + c.bufPtr = cursor c := by
  have hadd := h.avail_add
  have hcur := h.cursor_add
  have hle := h.length_le
  rw [first]
  omega

/-- Where the bytes wanted are not all in the buffer, fill_buffer puts more behind those that are. -/
theorem Keeps.fillDst (h : Keeps file place start n c) (hpos : c.pos < start + n) :
    fillDst c = c.buffer.length := by
  have hle := h.holds.length_le
  have hfirst := h.first_le
  have hroom := h.room.resolve_left (by omega)
  rw [AvioBuf.fillDst, if_pos]
  rw [first] at hroom
  omega

theorem Keeps.prepared {len : Nat} {c1 : AVIOContext U} (h : Keeps file place start n c)
    (hpos : c.pos < start + n) (hp : Prepared c (AvioBuf.fillDst c) c1 len) :
    c1.buffer = c.buffer ∧ c1.bufPtr = c.bufPtr ∧ c1.bufferSize = c.bufferSize := by
  refine hp.buffer.resolve_right ?_
  rintro ⟨hz, hne, -⟩
  have hptr := h.holds.ptr_le
  rw [h.fillDst hpos] at hz
  omega

theorem Keeps.fillBuffer (hs : Serves U file place) (h : Keeps file place start n c)
    (hpos : c.pos < start + n) : Keeps file place start n (fillBuffer c) := by
  have hholds := h.holds.fillBuffer hs
  have hdst := h.fillDst hpos
  have hroom := h.room.resolve_left (by omega)
  have hfill := fillBuffer_fill c
  generalize AvioBuf.fillBuffer c = c' at hholds hfill ⊢
  cases hfill with
  | ended => exact ⟨hholds, h.first_le, h.le_cursor, .inr hroom, fun _ => hpos⟩
  | failed c1 len st e before =>
      obtain ⟨hbuf, hptr, hsize⟩ := h.prepared hpos before
      have hfirst : first (AvioBuf.failed c1 st e) = first c := by
        rw [first, first, AvioBuf.failed, before.pos, hbuf]
      have hcur : cursor (AvioBuf.failed c1 st e) = cursor c := by
        rw [cursor, cursor, AVIOContext.avail, AVIOContext.avail, AvioBuf.failed, before.pos, hbuf, hptr]
      refine ⟨hholds, by rw [hfirst]; exact h.first_le, by rw [hcur]; exact h.le_cursor, .inr ?_, fun _ => ?_⟩
      · show _ ≤ first (AvioBuf.failed c1 st e) + c1.bufferSize + 1
        rw [hfirst, hsize]
        exact hroom
      · show c1.pos < start + n
        rw [before.pos]
        exact hpos
  | filled c1 len st xs before hread hne heof =>
      obtain ⟨hbuf, -, hsize⟩ := h.prepared hpos before
      have hfirst : first (AvioBuf.receive c1 (AvioBuf.fillDst c) (.ok xs, st)) = first c := by
        rw [first, first, AvioBuf.receive, before.pos, hbuf, hdst, List.take_length, List.length_append]
        exact Nat.add_sub_add_right _ _ _
      have hcur : c.pos = cursor (AvioBuf.receive c1 (AvioBuf.fillDst c) (.ok xs, st)) := by
        have hadd := Holds.first_add hholds
        have hptr : (AvioBuf.receive c1 (AvioBuf.fillDst c) (.ok xs, st)).bufPtr = AvioBuf.fillDst c := rfl
        have hle := h.holds.length_le
        rw [hfirst, hptr, first] at hadd
        omega
      refine ⟨hholds, by rw [hfirst]; exact h.first_le, ?_, .inr ?_, fun he => ?_⟩
      · rw [← hcur]
        exact h.le_cursor.trans (Nat.sub_le _ _)
      · show _ ≤ first (AvioBuf.receive c1 (AvioBuf.fillDst c) (.ok xs, st)) + c1.bufferSize + 1
        rw [hfirst, hsize]
        exact hroom
      · have hno : c1.eofReached = true := he
        rw [before.eofReached, heof] at hno
        cases hno

theorem Keeps.take {k : Nat} (h : Keeps file place start n c) (hk : k ≤ c.avail) :
    Keeps file place start n (take c k).2 := by
  obtain ⟨hholds, -, -, hcur⟩ := h.holds.take hk
  exact ⟨hholds, h.first_le, by rw [hcur]; exact Nat.le_trans h.le_cursor (Nat.le_add_right _ _), h.room, h.eof⟩

theorem Keeps.readLoop (hs : Serves U file place) (hdirect : U.direct = false) (h : Keeps file place start n c)
    {size : Nat} (hsize : cursor c + size ≤ start + n) : Keeps file place start n (readLoop c size).2 := by
  -- a read of no more than is kept never goes past the buffer
  have hbuffered : ∀ (c : AVIOContext U) (size : Nat), Keeps file place start n c → ¬ size = 0 → c.avail = 0 →
      cursor c + size ≤ start + n → ¬ (U.direct = true ∨ c.bufferSize < size) := by
    intro c size h h0 h1 hsize
    rw [cursor_of_avail h1] at hsize
    have hcur := h.le_cursor
    rw [cursor_of_avail h1] at hcur
    have hfirst := h.first_le
    have hmax := maxBufferSize_pos U
    have hroom := h.room.resolve_left (by omega)
    rw [hdirect, not_or]
    exact ⟨by simp, by omega⟩
  fun_induction AvioBuf.readLoop c size with
  | case1 c => exact h
  | case2 c size h0 h1 hd e st hread => exact absurd hd.1 (hbuffered c size h h0 h1 hsize)
  | case3 c size h0 h1 hd xs st hread r ih => exact absurd hd.1 (hbuffered c size h h0 h1 hsize)
  | case4 c size h0 h1 hd c1 h3 =>
      rw [cursor_of_avail h1] at hsize
      exact h.fillBuffer hs (by omega)
  | case5 c size h0 h1 hd c1 h3 ih =>
      have hcur := cursor_fillBuffer h1
      refine ih (h.fillBuffer hs ?_) (by rw [hcur]; exact hsize)
      rw [cursor_of_avail h1] at hsize
      omega
  | case6 c size h0 h1 t r ih =>
      have hmin := Nat.min_le_left c.avail size
      have hcur : cursor t.2 = cursor c + min c.avail size := (h.holds.take hmin).2.2.2
      refine ih (h.take hmin) ?_
      rw [hcur]
      omega

/-- Asking the protocol once more puts what it brings behind the bytes kept. -/
theorem Keeps.avioFeof (hs : Serves U file place) (h : Keeps file place start n c) :
    Keeps file place start n (avioFeof c).2 := by
  rw [AvioBuf.avioFeof]
  split
  next heof =>
    have h0 : Keeps file place start n { c with eofReached := false } :=
      ⟨⟨h.holds.place, h.holds.length_le, h.holds.shows, h.holds.ptr_le, h.holds.size⟩, h.first_le, h.le_cursor,
        h.room, by simp⟩
    exact h0.fillBuffer hs (h.eof heof)
  next => exact h

theorem Keeps.avioRead (hs : Serves U file place) (hdirect : U.direct = false) (h : Keeps file place start n c)
    {size : Nat} (hsize : cursor c + size ≤ start + n) : Keeps file place start n (avioRead c size).2.2 := by
  have hkeeps := h.readLoop hs hdirect hsize
  rw [AvioBuf.avioRead]
  simp only
  split
  · split
    · exact hkeeps
    · exact hkeeps.avioFeof hs
  · exact hkeeps

theorem Keeps.avioR8 (hs : Serves U file place) (h : Keeps file place start n c)
    (hsize : cursor c < start + n) : Keeps file place start n (avioR8 c).2 := by
  refine avioR8_invariant h (fun havail => h.fillBuffer hs ?_) (fun c1 h1 havail => h1.take havail)
  rw [cursor_of_avail havail] at hsize
  exact hsize

theorem Keeps.fillUntil (hs : Serves U file place) (h : Keeps file place start n c) {offset : Int}
    (hend : offset ≤ (start + n : Nat)) : Keeps file place start n (fillUntil c offset) := by
  fun_induction AvioBuf.fillUntil c offset with
  | case1 c hc ih => exact ih (h.fillBuffer hs (by omega))
  | case2 c hc => exact h

/-- A place in the buffer is moved to without a call of the protocol. -/
theorem Keeps.moveTo (h : Keeps file place start n c) {offset : Int} (hstart : start ≤ offset) {k : Nat}
    (hk : (k : Int) = offset - c.start) (hle : k ≤ c.buffer.length) :
    (cursor { c with bufPtr := k, eofReached := false } : Int) = offset ∧
      Keeps file place start n { c with bufPtr := k, eofReached := false } := by
  obtain ⟨hholds, hcur⟩ := h.holds.moveTo hk hle
  refine ⟨hcur, hholds, h.first_le, ?_, h.room, by simp⟩
  rw [← hcur] at hstart
  exact Int.ofNat_le.mp hstart

/-- A seek to a place that is kept takes no call of the protocol. -/
theorem Keeps.seekKept (hdirect : U.direct = false) (h : Keeps file place start n c) {offset : Int}
    (hstart : start ≤ offset) (hpos : offset ≤ c.pos) :
    (seekSet c offset).1 = offset ∧ (seekSet c offset).2.prot = c.prot ∧
      (cursor (seekSet c offset).2 : Int) = offset ∧ Keeps file place start n (seekSet c offset).2 := by
  have hfirst := h.first_le
  have hle := h.holds.length_le
  rw [first] at hfirst
  have hin : (U.direct = false ∨ U.hasSeek = false) ∧ 0 ≤ offset - c.start ∧ offset - c.start ≤ c.buffer.length := by
    rw [AVIOContext.start]
    exact ⟨.inl hdirect, by omega, by omega⟩
  rw [AvioBuf.seekSet, if_neg (by omega)]
  simp only
  rw [if_pos hin]
  obtain ⟨hcur, hkeeps⟩ := h.moveTo hstart (Int.toNat_of_nonneg hin.2.1) (by omega)
  exact ⟨rfl, rfl, hcur, hkeeps⟩

/-- A seek further on, within the `n` bytes, reads up to the place. -/
theorem Keeps.seekSet (hs : Serves U file place) (hdirect : U.direct = false) (hnormal : U.seekableNormal = false)
    (h : Keeps file place start n c) {offset : Int} (hstart : start ≤ offset) (hend : offset ≤ (start + n : Nat)) :
    Keeps file place start n (seekSet c offset).2 := by
  by_cases hpos : offset ≤ c.pos
  · exact (h.seekKept hdirect hstart hpos).2.2.2
  · have hle := h.holds.length_le
    have hout : ¬ ((U.direct = false ∨ U.hasSeek = false) ∧ 0 ≤ offset - c.start ∧
        offset - c.start ≤ c.buffer.length) := by
      rw [AVIOContext.start]
      omega
    rw [AvioBuf.seekSet, if_neg (by omega)]
    simp only
    rw [if_neg hout, if_pos ⟨.inl hnormal, by rw [AVIOContext.start]; omega, .inl hdirect⟩]
    have hfill := h.fillUntil hs hend
    split
    next => exact hfill
    next heof =>
      have hfront : c.start ≤ offset := by rw [AVIOContext.start]; omega
      obtain ⟨-, hbehind, hcome⟩ := h.holds.fillUntil hs hfront
      have hreach := hcome.resolve_left heof
      rw [AVIOContext.start] at hbehind
      exact (hfill.moveTo hstart (by rw [AVIOContext.start]; omega) (by omega)).2

def Inside (start n : Nat) (c : AVIOContext U) : Op → Prop
  | .read size => cursor c + size ≤ start + n
  | .r8 => cursor c < start + n
  | .seek offset .set => start ≤ offset ∧ offset ≤ (start + n : Nat)
  | .seek offset .cur => start ≤ cursor c + offset ∧ cursor c + offset ≤ (start + n : Nat)
  | .seek _ .other | .feof => True
  | .ensureSeekback _ => False

theorem Keeps.perform (hs : Serves U file place) (hdirect : U.direct = false) (hnormal : U.seekableNormal = false)
    (h : Keeps file place start n c) {op : Op} (hin : Inside start n c op) :
    Keeps file place start n (perform c op).2 := by
  cases op with
  | read size => exact h.avioRead hs hdirect hin
  | r8 => exact h.avioR8 hs hin
  | feof => exact h.avioFeof hs
  | ensureSeekback size => exact hin.elim
  | seek offset whence =>
      show Keeps file place start n (AvioBuf.avioSeek c offset whence).2
      cases whence with
      | set => exact h.seekSet hs hdirect hnormal hin.1 hin.2
      | other => exact h
      | cur =>
          have htell := h.holds.tell_eq
          rw [AvioBuf.avioSeek]
          split
          · exact h
          · split
            · exact h
            · exact h.seekSet hs hdirect hnormal (by have := hin.1; omega) (by have := hin.2; omega)

end FfmpegPlayer.Seekback
