import FfmpegPlayer.BufferedFile
import FfmpegPlayer.Transition

namespace FfmpegPlayer.PlainFile

open Window AvioBuf BufferedFile

variable {U : Protocol} {file : List UInt8} {place : U.State → Nat} {c : AVIOContext U}

structure Honest (U : Protocol) (file : List UInt8) (place : U.State → Nat) : Prop where
  serves : Serves U file place
  hasRead : U.hasRead = true
  atEnd : ∀ st n e st', 0 < n → U.readPacket st n = (.error e, st') → e = averrorEof ∧ file.length ≤ place st

/-- A context of such a protocol between two calls: the flag is up only where
nothing is left to read. -/
structure Settled (file : List UInt8) (place : U.State → Nat) (c : AVIOContext U) : Prop where
  holds : Holds file place c
  error : c.error = 0
  atEnd : c.eofReached = true → c.avail = 0 ∧ file.length ≤ c.pos

section Honest

variable (hh : Honest U file place)
include hh

theorem wrapper_atEnd {n : Nat} {e : Int} {st : U.State} (h : Holds file place c) (hn : 0 < n)
    (hread : readPacketWrapper c n = (.error e, st)) : e = averrorEof ∧ file.length ≤ c.pos := by
  rw [readPacketWrapper, if_pos hh.hasRead] at hread
  rw [← h.place]
  exact hh.atEnd _ _ _ _ hn hread

theorem Settled.failed {n : Nat} {e : Int} {st : U.State} (h : Settled file place c) (havail : c.avail = 0)
    (hn : 0 < n) (hread : readPacketWrapper c n = (.error e, st)) : Settled file place (failed c st e) := by
  obtain ⟨rfl, hend⟩ := wrapper_atEnd hh h.holds hn hread
  exact ⟨h.holds.failed hh.serves hread, h.error, fun _ => ⟨havail, hend⟩⟩

theorem Settled.fillBuffer (h : Settled file place c) (havail : c.avail = 0) :
    Settled file place (fillBuffer c) := by
  have hholds := h.holds.fillBuffer hh.serves
  have hmoves := fillBuffer_moves c
  have hfill := fillBuffer_fill c
  generalize AvioBuf.fillBuffer c = c' at hholds hmoves hfill ⊢
  refine ⟨hholds, ?_, fun heof => ?_⟩
  · cases hfill with
    | ended => exact h.error
    | failed c1 len st e before hread =>
        obtain ⟨rfl, -⟩ := wrapper_atEnd hh (h.holds.prepared before) before.len_pos hread
        exact before.error.trans h.error
    | filled c1 len st xs before => exact before.error.trans h.error
  · rcases hmoves with ⟨-, hpos, hav⟩ | ⟨hno, -⟩
    · refine ⟨hav.elim (fun ha => ha.trans havail) id, ?_⟩
      rw [hpos]
      cases hfill with
      | ended hend =>
          rcases hend with hend | hend
          · exact (h.atEnd hend).2
          · rw [hh.hasRead] at hend
            cases hend
      | failed c1 len st e before hread =>
          rw [← before.pos]
          exact (wrapper_atEnd hh (h.holds.prepared before) before.len_pos hread).2
      | filled c1 len st xs before hread hne hno =>
          have heof' := before.eofReached.trans hno
          rw [AvioBuf.receive, heof'] at heof
          cases heof
    · rw [hno] at heof
      cases heof

theorem Settled.readLoop (h : Settled file place c) (n : Nat) : Settled file place (readLoop c n).2 := by
  fun_induction AvioBuf.readLoop c n with
  | case1 c => exact h
  | case2 c size h0 h1 hdirect e st hread => exact h.failed hh h1 (Nat.pos_of_ne_zero h0) hread
  | case3 c size h0 h1 hdirect xs st hread r ih =>
      obtain ⟨hxs, hst⟩ := wrapper_ok hh.serves hread
      refine ih ⟨⟨?_, Nat.zero_le _, shows_nil file _, Nat.le_refl 0, Nat.zero_le _⟩, h.error, fun heof => ?_⟩
      · show place st = c.pos + xs.length
        rw [hst, h.holds.place]
      · exact ⟨rfl, Nat.le_trans (h.atEnd heof).2 (Nat.le_add_right _ _)⟩
  | case4 c size h0 h1 hdirect c1 h3 => exact h.fillBuffer hh h1
  | case5 c size h0 h1 hdirect c1 h3 ih => exact ih (h.fillBuffer hh h1)
  | case6 c size h0 h1 t r ih =>
      refine ih ⟨(h.holds.take (Nat.min_le_left c.avail size)).1, h.error, fun heof => ?_⟩
      exact absurd (h.atEnd heof).1 h1

theorem Settled.avioFeof (h : Settled file place c) :
    Settled file place (avioFeof c).2 ∧ (avioFeof c).1 = c.eofReached ∧ (avioFeof c).2.eofReached = c.eofReached ∧
      cursor (avioFeof c).2 = cursor c := by
  cases heof : c.eofReached with
  | false =>
      have hsame : AvioBuf.avioFeof c = (c.eofReached, c) := by simp [AvioBuf.avioFeof, heof]
      rw [hsame]
      exact ⟨h, heof, heof, rfl⟩
  | true =>
      obtain ⟨havail, hend⟩ := h.atEnd heof
      have h0 : Settled file place { c with eofReached := false } :=
        ⟨⟨h.holds.place, h.holds.length_le, h.holds.shows, h.holds.ptr_le, h.holds.size⟩, h.error,
          fun hf => by cases hf⟩
      have hfill := h0.fillBuffer hh havail
      have hcur : cursor (AvioBuf.fillBuffer { c with eofReached := false }) = cursor c := cursor_fillBuffer havail
      have heof' : (AvioBuf.fillBuffer { c with eofReached := false }).eofReached = true := by
        rcases fillBuffer_moves { c with eofReached := false } with ⟨ht, -⟩ | ⟨-, -, hpos, hmove⟩
        · exact ht
        · -- bytes from behind the end of the file
          have hadd := hfill.holds.cursor_add
          have hlen := hfill.holds.shows_avail.length_le
          have havl := hfill.holds.avail_add
          rw [List.length_drop] at hlen
          simp only at hmove
          omega
      simp only [AvioBuf.avioFeof, heof, if_true]
      exact ⟨hfill, heof', heof', hcur⟩

theorem eofReached_fillBuffer (h : Holds file place c) (heof : c.eofReached = false) (hpos : c.pos < file.length) :
    (fillBuffer c).eofReached = false := by
  have hfill := fillBuffer_fill c
  generalize AvioBuf.fillBuffer c = c' at hfill ⊢
  cases hfill with
  | ended hend =>
      rcases hend with hend | hend
      · rw [heof] at hend
        cases hend
      · rw [hh.hasRead] at hend
        cases hend
  | failed c1 len st e before hread =>
      have hend := (wrapper_atEnd hh (h.prepared before) before.len_pos hread).2
      rw [before.pos] at hend
      omega
  | filled c1 len st xs before => exact before.eofReached.trans heof

theorem error_fillBuffer (h : Holds file place c) (herror : c.error = 0) : (fillBuffer c).error = 0 := by
  have hfill := fillBuffer_fill c
  generalize AvioBuf.fillBuffer c = c' at hfill ⊢
  cases hfill with
  | ended => exact herror
  | failed c1 len st e before hread =>
      obtain ⟨rfl, -⟩ := wrapper_atEnd hh (h.prepared before) before.len_pos hread
      exact before.error.trans herror
  | filled c1 len st xs before => exact before.error.trans herror

theorem fillUntil_inside (h : Holds file place c) {offset : Int} (hle : offset ≤ file.length)
    (herror : c.error = 0) (heof : c.eofReached = false) :
    (fillUntil c offset).eofReached = false ∧ (fillUntil c offset).error = 0 := by
  fun_induction fillUntil c offset with
  | case1 c hc ih =>
      exact ih (h.fillBuffer hh.serves) (error_fillBuffer hh h herror)
        (eofReached_fillBuffer hh h heof (by omega))
  | case2 c hc => exact ⟨heof, herror⟩

end Honest

structure Seekable (U : Protocol) : Prop where
  hasSeek : U.hasSeek = true
  seek : ∀ st offset, 0 ≤ offset → 0 ≤ (U.seek st offset).1

structure Streamed (U : Protocol) : Prop where
  notSeekable : U.seekableNormal = false
  buffered : U.direct = false ∨ U.hasSeek = false

/-- With the flag up, every place within the file is in the buffer. -/
theorem Settled.place_in_buffer (h : Settled file place c) {offset : Int} (hle : offset ≤ file.length)
    (hout : ¬ offset - c.start ≤ c.buffer.length) : c.eofReached = false := by
  rw [← Bool.not_eq_true]
  intro heof
  have hend := (h.atEnd heof).2
  rw [AVIOContext.start] at hout
  omega

theorem Settled.backTo_nonneg (h : Settled file place c) : 0 ≤ backTo c := by
  have hstart := h.holds.start_nonneg
  rw [backTo]
  omega

theorem Settled.start_le_cursor (h : Settled file place c) : c.start ≤ cursor c := by
  rw [← h.holds.tell_eq, AVIOContext.tell]
  omega

/-- A seek within the file succeeds, forward in every file and backward in one that can be sought. -/
theorem Settled.seekSet_within (hh : Honest U file place) (h : Settled file place c) {offset : Int} (h0 : 0 ≤ offset)
    (hle : offset ≤ file.length) (hway : Seekable U ∨ Streamed U ∧ cursor c ≤ offset) :
    (seekSet c offset).1 = offset ∧ (seekSet c offset).2.error = 0 := by
  fun_induction AvioBuf.seekSet c offset with
  | case1 c hneg => omega
  | case2 c hneg offset1 buffered hin => exact ⟨rfl, h.error⟩
  | case3 c hneg offset1 shortSeek buffered hin hshort c1 heof =>
      have hno := h.place_in_buffer hle (fun hbuf => hin ⟨hshort.2.2, hshort.2.1, hbuf⟩)
      have hfill := (fillUntil_inside hh h.holds hle h.error hno).1
      exact absurd heof (by rw [Bool.not_eq_true]; exact hfill)
  | case4 c hneg offset1 shortSeek buffered hin hshort c1 heof =>
      have hno := h.place_in_buffer hle (fun hbuf => hin ⟨hshort.2.2, hshort.2.1, hbuf⟩)
      exact ⟨rfl, (fillUntil_inside hh h.holds hle h.error hno).2⟩
  | case5 c hneg offset1 shortSeek buffered hin hshort hback r hr =>
      have hstart := h.start_le_cursor
      rcases hway with hseek | ⟨-, hcur⟩
      · exact absurd hr (Int.not_lt.mpr (hseek.seek _ _ h.backTo_nonneg))
      · omega
  | case6 c hneg offset1 shortSeek buffered hin hshort hback r hr ih =>
      have hstart := h.start_le_cursor
      rcases hway with hseek | ⟨-, hcur⟩
      · have hsought : Settled file place (sought c r.2 (backTo c)) :=
          ⟨holds_sought hh.serves rfl (Int.not_lt.mp hr), h.error, fun heof => by cases heof⟩
        exact ih (hsought.fillBuffer hh rfl) (.inl hseek)
      · omega
  | case7 c hneg offset1 shortSeek buffered hin hshort hback hno =>
      have hstart := h.start_le_cursor
      rcases hway with hseek | ⟨hstream, hcur⟩
      · rw [hseek.hasSeek] at hno
        cases hno
      · exact absurd ⟨.inl hstream.notSeekable, Int.sub_nonneg.mpr (Int.le_trans hstart hcur), hstream.buffered⟩ hshort
  | case8 c hneg offset1 shortSeek buffered hin hshort hback hno r hr =>
      have hstart := h.start_le_cursor
      rcases hway with hseek | ⟨hstream, hcur⟩
      · exact absurd hr (Int.not_lt.mpr (hseek.seek _ _ h0))
      · exact absurd ⟨.inl hstream.notSeekable, Int.sub_nonneg.mpr (Int.le_trans hstart hcur), hstream.buffered⟩ hshort
  | case9 c hneg offset1 shortSeek buffered hin hshort hback hno r hr => exact ⟨rfl, h.error⟩

theorem Settled.seekSet (hh : Honest U file place) (h : Settled file place c) {offset : Int} (h0 : 0 ≤ offset)
    (hle : offset ≤ file.length) (hway : Seekable U ∨ Streamed U ∧ cursor c ≤ offset) :
    (seekSet c offset).1 = offset ∧ Settled file place (seekSet c offset).2 ∧
      (cursor (seekSet c offset).2 : Int) = offset ∧ (seekSet c offset).2.eofReached = false := by
  obtain ⟨hret, herror⟩ := h.seekSet_within hh h0 hle hway
  obtain ⟨hholds, hmove⟩ := h.holds.seekSet hh.serves offset
  obtain ⟨-, hcur, heof⟩ := hmove.resolve_right (by omega)
  exact ⟨hret, ⟨hholds, herror, fun ht => by rw [heof] at ht; cases ht⟩, hcur, heof⟩

theorem Settled.avioR8 (hh : Honest U file place) (h : Settled file place c) :
    Settled file place (avioR8 c).2 := by
  refine avioR8_invariant h (fun havail => h.fillBuffer hh havail) ?_
  intro c1 h1 havail
  exact ⟨(h1.holds.take havail).1, h1.error, fun heof => absurd (h1.atEnd heof).1 (Nat.ne_of_gt havail)⟩

theorem Settled.ffioEnsureSeekback (h : Settled file place c) (bufSize : Nat) :
    Settled file place (ffioEnsureSeekback c bufSize).2 ∧
      cursor (ffioEnsureSeekback c bufSize).2 = cursor c ∧
      (ffioEnsureSeekback c bufSize).2.eofReached = c.eofReached := by
  obtain ⟨hholds, hcur, havail, hpos, herror, heof⟩ := h.holds.ffioEnsureSeekback bufSize
  refine ⟨⟨hholds, herror.trans h.error, fun ht => ?_⟩, hcur, heof⟩
  rw [havail, hpos]
  exact h.atEnd (heof.symm.trans ht)

inductive Op
  | read (size : Nat)
  | r8
  | seek (offset : Int) (whence : Whence)
  | feof
  | ensureSeekback (bufSize : Nat)
deriving DecidableEq, Repr

inductive Answer
  | data (ret : Int) (xs : List UInt8)
  | byte (b : UInt8)
  | moved (ret : Int)
  | flag (atEnd : Bool)
  | done
deriving DecidableEq, Repr

def perform (c : AVIOContext U) : Op → Answer × AVIOContext U
  | .read size => let r := avioRead c size; (.data r.1 r.2.1, r.2.2)
  | .r8 => let r := avioR8 c; (.byte r.1, r.2)
  | .seek offset whence => let r := avioSeek c offset whence; (.moved r.1, r.2)
  | .feof => let r := avioFeof c; (.flag r.1, r.2)
  | .ensureSeekback bufSize => (.done, (ffioEnsureSeekback c bufSize).2)

/-- A file read without a buffer: the place of the next byte, and whether an
attempt has been made to read past the end. -/
structure Handle where
  place : Nat
  atEnd : Bool
deriving DecidableEq, Repr

def plain (file : List UInt8) (t : Handle) : Op → Answer × Handle
  | .read size =>
      let xs := (file.drop t.place).take size
      let atEnd := t.atEnd || decide (xs.length < size)
      (.data (if xs = [] then if atEnd then averrorEof else 0 else xs.length) xs, ⟨t.place + xs.length, atEnd⟩)
  | .r8 => match file[t.place]? with
    | some b => (.byte b, ⟨t.place + 1, t.atEnd⟩)
    | none => (.byte 0, ⟨t.place, true⟩)
  | .seek offset .set => (.moved offset, ⟨offset.toNat, false⟩)
  | .seek offset .cur =>
      if offset = 0 then (.moved t.place, t) else (.moved (offset + t.place), ⟨(offset + t.place).toNat, false⟩)
  | .seek _ .other => (.moved einval, t)
  | .feof => (.flag t.atEnd, t)
  | .ensureSeekback _ => (.done, t)

def Within (U : Protocol) (file : List UInt8) (t : Handle) (offset : Int) : Prop :=
  0 ≤ offset ∧ offset ≤ file.length ∧ (Seekable U ∨ Streamed U ∧ t.place ≤ offset)

def handle (c : AVIOContext U) : Handle := ⟨cursor c, c.eofReached⟩

theorem plain_read (t : Handle) {size : Nat} {xs : List UInt8} (hxs : (file.drop t.place).take size = xs) :
    plain file t (.read size) =
      (.data (if xs = [] then if t.atEnd || decide (xs.length < size) then averrorEof else 0 else xs.length) xs,
        ⟨t.place + xs.length, t.atEnd || decide (xs.length < size)⟩) := by
  subst hxs
  rfl

section Calls

variable (hh : Honest U file place)
include hh

theorem avioRead_plain (h : Settled file place c) (size : Nat) :
    (perform c (.read size)).1 = (plain file (handle c) (.read size)).1 ∧
      handle (perform c (.read size)).2 = (plain file (handle c) (.read size)).2 ∧
      Settled file place (perform c (.read size)).2 := by
  have hreads := readLoop_reads hh.serves h.holds size
  have hsettled := h.readLoop hh size
  rcases hr : AvioBuf.readLoop c size with ⟨xs, c1⟩
  rw [hr] at hreads hsettled
  change Settled file place c1 at hsettled
  have herror : c1.error = 0 := hsettled.error
  have hxs : (file.drop (cursor c)).take size = xs := by
    refine (hreads.shows.eq_take_of_le hreads.le (fun hlt => ?_)).symm
    obtain ⟨heof, havail⟩ := hreads.short hlt
    rw [← hreads.moved, cursor_of_avail havail]
    exact (hsettled.atEnd heof).2
  have heof : c1.eofReached = (c.eofReached || decide (xs.length < size)) := by
    rcases Nat.lt_or_eq_of_le hreads.le with hlt | heq
    · rw [(hreads.short hlt).1, decide_eq_true hlt, Bool.or_true]
    · rw [hreads.full heq, heq, decide_eq_false (Nat.lt_irrefl size), Bool.or_false]
  rw [plain_read (handle c) hxs]
  simp only [perform, avioRead, hr]
  by_cases hnil : xs = []
  · obtain ⟨hfeof, hflag, hsame, hmove⟩ := hsettled.avioFeof hh
    simp only [hnil, if_true, herror, ne_eq, not_true_eq_false, if_false]
    rw [hnil] at heof hreads
    refine ⟨by rw [hflag, heof]; rfl, ?_, hfeof⟩
    rw [handle, hmove, hsame, heof]
    exact congrArg (Handle.mk · _) hreads.moved
  · simp only [if_neg hnil]
    refine ⟨trivial, ?_, hsettled⟩
    rw [handle, heof]
    exact congrArg (Handle.mk · _) hreads.moved

end Calls

theorem settled_init {st : U.State} {bufferSize : Nat} (hst : place st = 0) (hsize : 0 < bufferSize) :
    Settled file place (ffioInitContext st bufferSize hsize) :=
  ⟨⟨hst, Nat.le_refl 0, shows_nil file 0, Nat.le_refl 0, Nat.zero_le _⟩, rfl, fun h => by cases h⟩

def fileRead (content : List UInt8) (blocksize place size : Nat) : Except Int (List UInt8) × Nat :=
  let xs := (content.drop place).take (min size blocksize)
  if xs = [] then (.error averrorEof, place) else (.ok xs, place + xs.length)

def fileSeek (place : Nat) (offset : Int) : Int × Nat :=
  if offset < 0 then (einval, place) else (offset, offset.toNat)

theorem fileRead_ok {content xs : List UInt8} {blocksize place size place' : Nat}
    (h : fileRead content blocksize place size = (.ok xs, place')) :
    xs = (content.drop place).take (min size blocksize) ∧ xs ≠ [] ∧ place' = place + xs.length := by
  simp only [fileRead] at h
  split at h
  next => cases h
  next hne =>
    cases h
    exact ⟨rfl, hne, rfl⟩

theorem fileRead_error {content : List UInt8} {blocksize place size place' : Nat} {e : Int}
    (h : fileRead content blocksize place size = (.error e, place')) :
    e = averrorEof ∧ place' = place ∧ (0 < size → 0 < blocksize → content.length ≤ place) := by
  simp only [fileRead] at h
  split at h
  next hnil =>
    cases h
    have hlen := congrArg List.length hnil
    rw [List.length_take, List.length_drop, List.length_nil] at hlen
    exact ⟨rfl, rfl, fun _ _ => by omega⟩
  next => cases h

theorem fileSeek_place {place place' : Nat} {offset r : Int} (h : fileSeek place offset = (r, place')) :
    place' = if r < 0 then place else offset.toNat := by
  simp only [fileSeek] at h
  split at h
  next => cases h; rfl
  next hneg => cases h; rw [if_neg hneg]

theorem fileRead_fst {content xs : List UInt8} {blocksize place size : Nat}
    (h : (fileRead content blocksize place size).1 = .ok xs) : xs ≠ [] ∧ xs.length ≤ size := by
  obtain ⟨hxs, hne, -⟩ := fileRead_ok (Prod.ext h rfl)
  refine ⟨hne, ?_⟩
  rw [hxs, List.length_take]
  omega

def fileProtocol (content : List UInt8) (blocksize : Nat) : Protocol where
  State := Nat
  hasRead := true
  hasSeek := true
  readPacket := fileRead content blocksize
  seek := fileSeek
  shortSeekGet _ := 0
  shortSeekThreshold := ioBufferSize
  maxPacketSize := 0
  direct := false
  seekableNormal := true
  seekableOther := false
  mimeType _ := none
  read_ne_nil _ _ _ _ h := (fileRead_fst h).1
  read_le _ _ _ h := (fileRead_fst h).2

theorem fileProtocol_honest (content : List UInt8) {blocksize : Nat} (h : 0 < blocksize) :
    Honest (fileProtocol content blocksize) content id where
  hasRead := rfl
  serves := {
    read := fun st n xs st' hread => by
      obtain ⟨rfl, -, hplace⟩ := fileRead_ok hread
      exact ⟨shows_take content _ _, hplace⟩
    read_error := fun st n e st' hread => (fileRead_error hread).2.1
    seek := fun st offset r st' hseek => fileSeek_place hseek }
  atEnd := fun st n e st' hn hread => ⟨(fileRead_error hread).1, (fileRead_error hread).2.2 hn h⟩

end FfmpegPlayer.PlainFile
