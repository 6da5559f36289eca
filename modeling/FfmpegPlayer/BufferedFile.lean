import FfmpegPlayer.AvioBuf

namespace FfmpegPlayer.BufferedFile

open Window AvioBuf

variable {U : Protocol} {file : List UInt8} {place : U.State → Nat} {c c' : AVIOContext U}

structure Serves (U : Protocol) (file : List UInt8) (place : U.State → Nat) : Prop where
  read : ∀ st n xs st', U.readPacket st n = (.ok xs, st') →
    Shows file (place st) xs ∧ place st' = place st + xs.length
  read_error : ∀ st n e st', U.readPacket st n = (.error e, st') → place st' = place st
  seek : ∀ st offset r st', U.seek st offset = (r, st') → place st' = if r < 0 then place st else offset.toNat

/-- The buffer holds the bytes of the file before the place of the protocol. -/
structure Holds (file : List UInt8) (place : U.State → Nat) (c : AVIOContext U) : Prop where
  place : place c.prot = c.pos
  length_le : c.buffer.length ≤ c.pos
  shows : Shows file (c.pos - c.buffer.length) c.buffer
  ptr_le : c.bufPtr ≤ c.buffer.length
  size : c.buffer.length ≤ c.bufferSize

def cursor (c : AVIOContext U) : Nat := c.pos - c.avail

theorem Holds.avail_add (h : Holds file place c) : c.bufPtr + c.avail = c.buffer.length := by
  have hle := h.ptr_le
  rw [AVIOContext.avail]
  omega

theorem Holds.cursor_add (h : Holds file place c) : cursor c + c.avail = c.pos := by
  have hle := h.length_le
  have hadd := h.avail_add
  rw [cursor]
  omega

theorem Holds.tell_eq (h : Holds file place c) : c.tell = cursor c := by
  have hle := h.length_le
  have hadd := h.avail_add
  rw [AVIOContext.tell, AVIOContext.start, cursor]
  omega

theorem Holds.start_nonneg (h : Holds file place c) : 0 ≤ c.start := by
  have hle := h.length_le
  rw [AVIOContext.start]
  omega

theorem Holds.shows_avail (h : Holds file place c) : Shows file (cursor c) (c.buffer.drop c.bufPtr) := by
  have hdrop := h.shows.drop c.bufPtr
  have hadd := h.avail_add
  have hcur := h.cursor_add
  have hle := h.length_le
  have hcursor : c.pos - c.buffer.length + c.bufPtr = cursor c := by omega
  rwa [hcursor] at hdrop

theorem Holds.prepared {dst len : Nat} {c1 : AVIOContext U} (h : Holds file place c)
    (hp : Prepared c dst c1 len) : Holds file place c1 := by
  rcases hp.buffer with ⟨hbuf, hptr, hsize⟩ | ⟨-, -, hbuf, hptr, -⟩
  · exact {
      place := by rw [hp.prot, hp.pos, h.place]
      length_le := by rw [hbuf, hp.pos]; exact h.length_le
      shows := by rw [hbuf, hp.pos]; exact h.shows
      ptr_le := by rw [hbuf, hptr]; exact h.ptr_le
      size := by rw [hbuf, hsize]; exact h.size }
  · exact {
      place := by rw [hp.prot, hp.pos, h.place]
      length_le := by rw [hbuf]; exact Nat.zero_le _
      shows := by rw [hbuf]; exact shows_nil file _
      ptr_le := by rw [hbuf, hptr]; exact Nat.le_refl _
      size := by rw [hbuf]; exact Nat.zero_le _ }

theorem fillDst_cases (c : AVIOContext U) : fillDst c = c.buffer.length ∨ fillDst c = 0 := by
  rw [fillDst]
  split
  · exact .inl rfl
  · exact .inr rfl

theorem take_fillDst {dst len : Nat} {c1 : AVIOContext U} (hp : Prepared c dst c1 len)
    (hdst : dst = c.buffer.length ∨ dst = 0) : (c1.buffer.take dst).length = dst := by
  rcases hdst with hdst | hdst
  · rcases hp.buffer with ⟨hbuf, -, -⟩ | ⟨hz, -, hbuf, -, -⟩
    · rw [hbuf, hdst, List.take_length]
    · rw [hbuf, hz]; rfl
  · rw [hdst]; rfl

section Reading

variable (hs : Serves U file place)
include hs

theorem wrapper_ok {n : Nat} {xs : List UInt8} {st : U.State} (h : readPacketWrapper c n = (.ok xs, st)) :
    Shows file (place c.prot) xs ∧ place st = place c.prot + xs.length := by
  rw [readPacketWrapper] at h
  split at h
  · exact hs.read _ _ _ _ h
  · cases h

theorem wrapper_error {n : Nat} {e : Int} {st : U.State} (h : readPacketWrapper c n = (.error e, st)) :
    place st = place c.prot := by
  rw [readPacketWrapper] at h
  split at h
  · exact hs.read_error _ _ _ _ h
  · cases h
    rfl

theorem Holds.failed {n : Nat} {e : Int} {st : U.State} (h : Holds file place c)
    (hread : readPacketWrapper c n = (.error e, st)) : Holds file place (AvioBuf.failed c st e) :=
  ⟨(wrapper_error hs hread).trans h.place, h.length_le, h.shows, h.ptr_le, h.size⟩

theorem Holds.receive {dst len : Nat} {c1 : AVIOContext U} {xs : List UInt8} {st : U.State}
    (h : Holds file place c) (hp : Prepared c dst c1 len) (hdst : dst = c.buffer.length ∨ dst = 0)
    (hread : readPacketWrapper c1 len = (.ok xs, st)) : Holds file place (AvioBuf.receive c1 dst (.ok xs, st)) := by
  have h1 := h.prepared hp
  obtain ⟨hxs, hst⟩ := wrapper_ok hs hread
  have hle := readPacketWrapper_le hread
  have hlen := take_fillDst hp hdst
  have hroom := hp.len_le
  rw [h1.place] at hxs hst
  have hsum : (c1.buffer.take dst ++ xs).length = dst + xs.length := by rw [List.length_append, hlen]
  have hdle : dst ≤ c1.pos := by
    have hbuf := h1.length_le
    rw [List.length_take] at hlen
    omega
  refine ⟨hst, ?_, ?_, ?_, ?_⟩
  · show (c1.buffer.take dst ++ xs).length ≤ c1.pos + xs.length
    omega
  · have hstart : c1.pos + xs.length - (c1.buffer.take dst ++ xs).length = c1.pos - dst := by omega
    show Shows file (c1.pos + xs.length - (c1.buffer.take dst ++ xs).length) (c1.buffer.take dst ++ xs)
    rw [hstart]
    refine Shows.append ?_ ?_
    · rcases Nat.eq_zero_or_pos dst with hz | hpos
      · rw [hz, List.take_zero]
        exact shows_nil file _
      · -- nothing of the buffer is dropped: the bytes go behind those in it
        have hall : dst = c1.buffer.length := by
          rcases hp.buffer with ⟨hbuf, -, -⟩ | ⟨hz, -⟩
          · rw [hbuf]
            exact hdst.resolve_right (Nat.ne_of_gt hpos)
          · omega
        rw [hall, List.take_length]
        exact h1.shows
    · rwa [hlen, Nat.sub_add_cancel hdle]
  · show dst ≤ (c1.buffer.take dst ++ xs).length
    omega
  · show (c1.buffer.take dst ++ xs).length ≤ c1.bufferSize
    omega

theorem Holds.fillBuffer (h : Holds file place c) : Holds file place (fillBuffer c) := by
  have hfill := fillBuffer_fill c
  generalize AvioBuf.fillBuffer c = c' at hfill ⊢
  cases hfill with
  | ended => exact ⟨h.place, h.length_le, h.shows, h.ptr_le, h.size⟩
  | failed c1 len st e before hread => exact (h.prepared before).failed hs hread
  | filled c1 len st xs before hread => exact h.receive hs before (fillDst_cases c) hread

end Reading

theorem cursor_of_avail (h : c.avail = 0) : cursor c = c.pos := by
  rw [cursor, h, Nat.sub_zero]

/-- A call of fill_buffer either brings bytes, which are the next to be read,
or finds the end of the file and moves nothing but, at most, past the buffer. -/
theorem fillBuffer_moves (c : AVIOContext U) :
    ((fillBuffer c).eofReached = true ∧ (fillBuffer c).pos = c.pos ∧
      ((fillBuffer c).avail = c.avail ∨ (fillBuffer c).avail = 0)) ∨
    ((fillBuffer c).eofReached = false ∧ c.eofReached = false ∧ 0 < (fillBuffer c).avail ∧
      cursor (fillBuffer c) = c.pos) := by
  have hfill := fillBuffer_fill c
  generalize fillBuffer c = c' at hfill ⊢
  cases hfill with
  | ended => exact .inl ⟨rfl, rfl, .inl rfl⟩
  | failed c1 len st e before =>
      refine .inl ⟨rfl, before.pos, ?_⟩
      rcases before.buffer with ⟨hbuf, hptr, -⟩ | ⟨-, -, hbuf, hptr, -⟩
      · exact .inl (by rw [AVIOContext.avail, AVIOContext.avail, AvioBuf.failed, hbuf, hptr])
      · exact .inr (by rw [AVIOContext.avail, AvioBuf.failed, hbuf]; exact Nat.zero_sub _)
  | filled c1 len st xs before hread hne heof =>
      have hlen := take_fillDst before (fillDst_cases c)
      have hpos := List.length_pos_iff.mpr hne
      have havail : (AvioBuf.receive c1 (fillDst c) (.ok xs, st)).avail = xs.length := by
        rw [AVIOContext.avail, AvioBuf.receive, List.length_append, hlen, Nat.add_sub_cancel_left]
      refine .inr ⟨by rw [AvioBuf.receive, before.eofReached, heof], heof, by omega, ?_⟩
      rw [cursor, havail, AvioBuf.receive, before.pos, Nat.add_sub_cancel]

theorem cursor_fillBuffer (h : c.avail = 0) : cursor (fillBuffer c) = cursor c := by
  rw [cursor_of_avail h]
  rcases fillBuffer_moves c with ⟨-, hpos, havail⟩ | ⟨-, -, -, hcur⟩
  · rw [cursor_of_avail (havail.elim (fun ha => ha.trans h) id), hpos]
  · exact hcur

structure Reads (file : List UInt8) (place : U.State → Nat) (c : AVIOContext U) (n : Nat) (xs : List UInt8)
    (c' : AVIOContext U) : Prop where
  holds : Holds file place c'
  shows : Shows file (cursor c) xs
  moved : cursor c' = cursor c + xs.length
  le : xs.length ≤ n
  short : xs.length < n → c'.eofReached = true ∧ c'.avail = 0
  full : xs.length = n → c'.eofReached = c.eofReached

theorem Reads.none (h : Holds file place c) : Reads file place c 0 [] c :=
  ⟨h, shows_nil file _, rfl, Nat.le_refl 0, fun hlt => absurd hlt (Nat.lt_irrefl 0), fun _ => rfl⟩

theorem Reads.cons {c1 : AVIOContext U} {n : Nat} {xs ys : List UInt8} (hxs : Shows file (cursor c) xs)
    (hcur : cursor c1 = cursor c + xs.length) (heof : c1.eofReached = c.eofReached) (hle : xs.length ≤ n)
    (h : Reads file place c1 (n - xs.length) ys c') : Reads file place c n (xs ++ ys) c' where
  holds := h.holds
  shows := hxs.append (by rw [← hcur]; exact h.shows)
  moved := by rw [h.moved, hcur, List.length_append, Nat.add_assoc]
  le := by
    have hys := h.le
    rw [List.length_append]
    omega
  short := fun hlt => h.short (by rw [List.length_append] at hlt; omega)
  full := fun heq => (h.full (by rw [List.length_append] at heq; omega)).trans heof

theorem Holds.take {k : Nat} (h : Holds file place c) (hk : k ≤ c.avail) :
    Holds file place (AvioBuf.take c k).2 ∧ Shows file (cursor c) (AvioBuf.take c k).1 ∧
      (AvioBuf.take c k).1.length = k ∧ cursor (AvioBuf.take c k).2 = cursor c + k := by
  have hadd := h.avail_add
  have hcur := h.cursor_add
  refine ⟨⟨h.place, h.length_le, h.shows, ?_, h.size⟩, h.shows_avail.take k, ?_, ?_⟩
  · show c.bufPtr + k ≤ c.buffer.length
    omega
  · rw [AvioBuf.take, List.length_take, List.length_drop]
    omega
  · show c.pos - (c.buffer.length - (c.bufPtr + k)) = cursor c + k
    omega

theorem readLoop_reads (hs : Serves U file place) (h : Holds file place c) (n : Nat) :
    Reads file place c n (readLoop c n).1 (readLoop c n).2 := by
  fun_induction readLoop c n with
  | case1 c => exact .none h
  | case2 c size h0 h1 hdirect e st hread =>
      exact ⟨h.failed hs hread, shows_nil file _, rfl, Nat.zero_le _, fun _ => ⟨rfl, h1⟩,
        fun heq => absurd heq.symm h0⟩
  | case3 c size h0 h1 hdirect xs st hread r ih =>
      obtain ⟨hxs, hst⟩ := wrapper_ok hs hread
      rw [h.place] at hxs hst
      rw [← cursor_of_avail h1] at hxs
      refine Reads.cons hxs ?_ ?_ (readPacketWrapper_le hread) (ih ?_)
      · rw [cursor_of_avail h1, cursor_of_avail rfl]
        rfl
      · rfl
      · exact ⟨hst, Nat.zero_le _, shows_nil file _, Nat.le_refl 0, Nat.zero_le _⟩
  | case4 c size h0 h1 hdirect c1 h3 =>
      have hfill := h.fillBuffer hs
      refine ⟨hfill, shows_nil file _, cursor_fillBuffer h1, Nat.zero_le _, fun _ => ⟨?_, h3⟩,
        fun heq => absurd heq.symm h0⟩
      rcases fillBuffer_moves c with ⟨heof, -⟩ | ⟨-, -, havail, -⟩
      · exact heof
      · exact absurd h3 (Nat.ne_of_gt havail)
  | case5 c size h0 h1 hdirect c1 h3 ih =>
      have hreads := ih (h.fillBuffer hs)
      exact { hreads with
        shows := by rw [← cursor_fillBuffer h1]; exact hreads.shows
        moved := by rw [← cursor_fillBuffer h1]; exact hreads.moved
        full := fun heq => by
          rw [hreads.full heq]
          rcases fillBuffer_moves c with ⟨-, -, havail⟩ | ⟨heof, heof', -⟩
          · exact absurd (havail.elim (fun ha => ha.trans h1) id) h3
          · rw [heof, heof'] }
  | case6 c size h0 h1 t r ih =>
      obtain ⟨hholds, hshows, hlen, hcur⟩ := h.take (Nat.min_le_left c.avail size)
      rw [← hlen] at hcur
      refine Reads.cons hshows hcur rfl (by rw [hlen]; exact Nat.min_le_right _ _) ?_
      rw [hlen]
      exact ih hholds

/-- The rule for what avio_r8 preserves: it fills an empty buffer and takes a byte where there is one. -/
theorem avioR8_invariant {I : AVIOContext U → Prop} (hc : I c) (hfill : c.avail = 0 → I (fillBuffer c))
    (htake : ∀ c1, I c1 → 0 < c1.avail → I (take c1 1).2) : I (avioR8 c).2 := by
  have hbyte : ∀ c1 : AVIOContext U, I c1 → ∀ b, c1.buffer[c1.bufPtr]? = some b → I (AvioBuf.take c1 1).2 := by
    intro c1 h1 b hb
    exact htake c1 h1 (Nat.sub_pos_of_lt (List.getElem?_eq_some_iff.mp hb).1)
  rw [AvioBuf.avioR8]
  by_cases hempty : c.buffer.length ≤ c.bufPtr
  · simp only [if_pos hempty]
    have hfilled := hfill (Nat.sub_eq_zero_of_le hempty)
    split
    next b hb => exact hbyte _ hfilled b hb
    next => exact hfilled
  · simp only [if_neg hempty]
    split
    next b hb => exact hbyte c hc b hb
    next => exact hc

/-- A byte read from the buffer or, where there was none, from the file. -/
theorem Holds.avioR8 (hs : Serves U file place) (h : Holds file place c) :
    Holds file place (avioR8 c).2 ∧
      ((file[cursor c]? = some (avioR8 c).1 ∧ cursor (avioR8 c).2 = cursor c + 1 ∧
          (avioR8 c).2.eofReached = c.eofReached) ∨
        ((avioR8 c).1 = 0 ∧ cursor (avioR8 c).2 = cursor c ∧ (avioR8 c).2.eofReached = true ∧
          (avioR8 c).2.avail = 0)) := by
  have hbyte : ∀ c1 : AVIOContext U, Holds file place c1 → ∀ b, c1.buffer[c1.bufPtr]? = some b →
      Holds file place { c1 with bufPtr := c1.bufPtr + 1 } ∧ file[cursor c1]? = some b ∧
        cursor { c1 with bufPtr := c1.bufPtr + 1 } = cursor c1 + 1 := by
    intro c1 h1 b hb
    have hlt := (List.getElem?_eq_some_iff.mp hb).1
    have hadd := h1.avail_add
    obtain ⟨hholds, hshows, -, hcur⟩ := h1.take (k := 1) (by omega)
    refine ⟨hholds, ?_, hcur⟩
    have hget := h1.shows_avail.getElem? (i := 0) (by rw [List.length_drop]; omega)
    rwa [List.getElem?_drop, Nat.add_zero, Nat.add_zero, hb, eq_comm] at hget
  rw [AvioBuf.avioR8]
  by_cases hempty : c.buffer.length ≤ c.bufPtr
  · simp only [if_pos hempty]
    have h0 : c.avail = 0 := Nat.sub_eq_zero_of_le hempty
    have hfill := h.fillBuffer hs
    have hcur := cursor_fillBuffer h0
    cases hb : (AvioBuf.fillBuffer c).buffer[(AvioBuf.fillBuffer c).bufPtr]? with
    | none =>
        have hend := List.getElem?_eq_none_iff.mp hb
        have havail : (AvioBuf.fillBuffer c).avail = 0 := Nat.sub_eq_zero_of_le hend
        refine ⟨hfill, .inr ⟨rfl, hcur, ?_, havail⟩⟩
        rcases fillBuffer_moves c with ⟨heof, -⟩ | ⟨-, -, hpos, -⟩
        · exact heof
        · exact absurd havail (Nat.ne_of_gt hpos)
    | some b =>
        obtain ⟨hholds, hget, hmove⟩ := hbyte _ hfill b hb
        refine ⟨hholds, .inl ⟨by rw [← hcur]; exact hget, by rw [← hcur]; exact hmove, ?_⟩⟩
        have hlt := (List.getElem?_eq_some_iff.mp hb).1
        rcases fillBuffer_moves c with ⟨-, -, havail⟩ | ⟨heof, heof', -⟩
        · rw [h0] at havail
          have hadd := hfill.avail_add
          omega
        · exact heof.trans heof'.symm
  · simp only [if_neg hempty]
    have hlt : c.bufPtr < c.buffer.length := Nat.lt_of_not_le hempty
    rw [List.getElem?_eq_getElem hlt]
    obtain ⟨hholds, hget, hmove⟩ := hbyte c h _ (List.getElem?_eq_getElem hlt)
    exact ⟨hholds, .inl ⟨hget, hmove, rfl⟩⟩

theorem start_fillBuffer_cases (c : AVIOContext U) :
    (fillBuffer c).start = c.start ∨ (fillBuffer c).start = c.pos := by
  have hfill := fillBuffer_fill c
  generalize fillBuffer c = c' at hfill ⊢
  cases hfill with
  | ended => exact .inl rfl
  | failed c1 len st e before =>
      rcases before.buffer with ⟨hbuf, -⟩ | ⟨-, -, hbuf, -⟩
      · exact .inl (by rw [AVIOContext.start, AVIOContext.start, AvioBuf.failed, before.pos, hbuf])
      · exact .inr (by simp [AVIOContext.start, AvioBuf.failed, before.pos, hbuf])
  | filled c1 len st xs before =>
      have hlen := take_fillDst before (fillDst_cases c)
      have hstart : (AvioBuf.receive c1 (fillDst c) (.ok xs, st)).start = (c.pos : Int) - fillDst c := by
        rw [AVIOContext.start, AvioBuf.receive, before.pos, List.length_append, hlen]
        push_cast
        omega
      rcases fillDst_cases c with hdst | hdst
      · exact .inl (by rw [hstart, hdst, AVIOContext.start])
      · exact .inr (by rw [hstart, hdst]; simp)

/-- The loop of avio_seek ends at the place or behind it, or at the end of the file. -/
theorem Holds.fillUntil (hs : Serves U file place) (h : Holds file place c) {offset : Int}
    (hstart : c.start ≤ offset) : Holds file place (fillUntil c offset) ∧ (fillUntil c offset).start ≤ offset ∧
      ((fillUntil c offset).eofReached = true ∨ offset ≤ (fillUntil c offset).pos) := by
  fun_induction AvioBuf.fillUntil c offset with
  | case1 c hc ih =>
      refine ih (h.fillBuffer hs) ?_
      rcases start_fillBuffer_cases c with he | he <;> omega
  | case2 c hc =>
      refine ⟨h, hstart, ?_⟩
      rw [not_and_or, Bool.not_eq_false, Int.not_lt] at hc
      exact hc.symm

theorem Holds.moveTo (h : Holds file place c) {offset : Int} {n : Nat} (hn : (n : Int) = offset - c.start)
    (hle : n ≤ c.buffer.length) : Holds file place { c with bufPtr := n, eofReached := false } ∧
      (cursor { c with bufPtr := n, eofReached := false } : Int) = offset := by
  refine ⟨⟨h.place, h.length_le, h.shows, hle, h.size⟩, ?_⟩
  have hlen := h.length_le
  rw [AVIOContext.start] at hn
  show ((c.pos - (c.buffer.length - n) : Nat) : Int) = offset
  omega

theorem Holds.moveBack (h : Holds file place c) {offset : Int} (hstart : c.start ≤ offset) (hpos : offset ≤ c.pos) :
    Holds file place { c with bufPtr := (c.buffer.length - (c.pos - offset)).toNat, eofReached := false } ∧
      (cursor { c with bufPtr := (c.buffer.length - (c.pos - offset)).toNat, eofReached := false } : Int) =
        offset := by
  rw [AVIOContext.start] at hstart
  exact h.moveTo (by rw [AVIOContext.start]; omega) (by omega)

theorem holds_sought (hs : Serves U file place) {st : U.State} {pos r : Int}
    (hseek : U.seek c.prot pos = (r, st)) (hr : 0 ≤ r) : Holds file place (sought c st pos) := by
  have hplace := hs.seek _ _ _ _ hseek
  rw [if_neg (by omega)] at hplace
  exact ⟨hplace, Nat.zero_le _, shows_nil file _, Nat.le_refl 0, Nat.zero_le _⟩

theorem Holds.not_sought (hs : Serves U file place) (h : Holds file place c) {st : U.State} {pos r : Int}
    (hseek : U.seek c.prot pos = (r, st)) (hr : r < 0) : Holds file place { c with prot := st } := by
  have hplace := hs.seek _ _ _ _ hseek
  rw [if_pos hr] at hplace
  exact ⟨hplace.trans h.place, h.length_le, h.shows, h.ptr_le, h.size⟩

/-- A seek that reports a place has moved to it, and it is the place asked for. -/
theorem Holds.seekSet (hs : Serves U file place) (h : Holds file place c) (offset : Int) :
    Holds file place (seekSet c offset).2 ∧
      (((seekSet c offset).1 = offset ∧ (cursor (seekSet c offset).2 : Int) = offset ∧
          (seekSet c offset).2.eofReached = false) ∨ (seekSet c offset).1 < 0) := by
  fun_induction AvioBuf.seekSet c offset with
  | case1 c hneg => exact ⟨h, .inr (show einval < 0 by decide)⟩
  | case2 c hneg offset1 buffered hin =>
      obtain ⟨hholds, hcur⟩ := h.moveTo (n := offset1.toNat) (Int.toNat_of_nonneg hin.2.1) (by omega)
      exact ⟨hholds, .inl ⟨rfl, hcur, rfl⟩⟩
  | case3 c hneg offset1 shortSeek buffered hin hshort c1 heof =>
      exact ⟨(h.fillUntil hs (by omega)).1, .inr (show averrorEof < 0 by decide)⟩
  | case4 c hneg offset1 shortSeek buffered hin hshort c1 heof =>
      obtain ⟨hfill, hstart, hpos⟩ := h.fillUntil hs (Int.sub_nonneg.mp hshort.2.1)
      obtain ⟨hholds, hcur⟩ := hfill.moveBack hstart (hpos.resolve_left heof)
      exact ⟨hholds, .inl ⟨rfl, hcur, rfl⟩⟩
  | case5 c hneg offset1 shortSeek buffered hin hshort hback r hr => exact ⟨h.not_sought hs rfl hr, .inr hr⟩
  | case6 c hneg offset1 shortSeek buffered hin hshort hback r hr ih =>
      exact ih ((holds_sought hs rfl (Int.not_lt.mp hr)).fillBuffer hs)
  | case7 c hneg offset1 shortSeek buffered hin hshort hback hno => exact ⟨h, .inr (show epipe < 0 by decide)⟩
  | case8 c hneg offset1 shortSeek buffered hin hshort hback hno r hr => exact ⟨h.not_sought hs rfl hr, .inr hr⟩
  | case9 c hneg offset1 shortSeek buffered hin hshort hback hno r hr =>
      refine ⟨holds_sought hs rfl (Int.not_lt.mp hr), .inl ⟨rfl, ?_, rfl⟩⟩
      show ((offset.toNat - 0 : Nat) : Int) = offset
      omega

theorem countRead_same (c : AVIOContext U) :
    (countRead c).prot = c.prot ∧ (countRead c).pos = c.pos ∧ (countRead c).error = c.error ∧
      (countRead c).eofReached = c.eofReached := by
  rw [countRead]
  split
  · exact ⟨rfl, rfl, rfl, rfl⟩
  · split <;> exact ⟨rfl, rfl, rfl, rfl⟩

/-- Moving the unread bytes to the front of the buffer loses none of them. -/
theorem Holds.ffioEnsureSeekback (h : Holds file place c) (bufSize : Nat) :
    Holds file place (ffioEnsureSeekback c bufSize).2 ∧
      cursor (ffioEnsureSeekback c bufSize).2 = cursor c ∧
      (ffioEnsureSeekback c bufSize).2.avail = c.avail ∧
      (ffioEnsureSeekback c bufSize).2.pos = c.pos ∧
      (ffioEnsureSeekback c bufSize).2.error = c.error ∧
      (ffioEnsureSeekback c bufSize).2.eofReached = c.eofReached := by
  rw [AvioBuf.ffioEnsureSeekback]
  split
  next => exact ⟨h, rfl, rfl, rfl, rfl, rfl⟩
  split
  next => exact ⟨h, rfl, rfl, rfl, rfl, rfl⟩
  simp only
  split
  next => exact ⟨h, rfl, rfl, rfl, rfl, rfl⟩
  next hmove =>
    have hadd := h.avail_add
    have hcur := h.cursor_add
    have hle := h.length_le
    have hsize := h.size
    obtain ⟨hprot, hpos, herror, heof⟩ := countRead_same c
    have hdrop : (c.buffer.drop c.bufPtr).length = c.avail := List.length_drop
    have hstart : c.pos - c.avail = cursor c := rfl
    refine ⟨⟨?_, ?_, ?_, Nat.zero_le _, ?_⟩, ?_, ?_, hpos, herror, heof⟩
    · exact (congrArg place hprot).trans (h.place.trans hpos.symm)
    · show (c.buffer.drop c.bufPtr).length ≤ (countRead c).pos
      omega
    · show Shows file ((countRead c).pos - (c.buffer.drop c.bufPtr).length) (c.buffer.drop c.bufPtr)
      rw [hpos, hdrop]
      exact h.shows_avail
    · show (c.buffer.drop c.bufPtr).length ≤
        if bufSize + U.maxBufferSize - 1 ≤ c.bufferSize then c.bufferSize else bufSize + U.maxBufferSize - 1
      split <;> omega
    · show (countRead c).pos - ((c.buffer.drop c.bufPtr).length - 0) = cursor c
      omega
    · show (c.buffer.drop c.bufPtr).length - 0 = c.avail
      omega

end FfmpegPlayer.BufferedFile
