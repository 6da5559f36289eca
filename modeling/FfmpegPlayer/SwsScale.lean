import FfmpegPlayer.ImageBuffer
import FfmpegPlayer.Presentation

namespace FfmpegPlayer.SwsScale

open Bitmap ImageBuffer SlidingBuffer

structure SwsContext where
  srcW : Nat
  srcH : Nat

structure Source where
  data : Fin 4 → Option Int
  linesize : Fin 4 → Int
  byte : Int → UInt8

def Source.bytes (x : Source) (ptr : Int) (n : Nat) : List UInt8 := (List.range n).map fun (j : Nat) => x.byte (ptr + j)

def Source.rows (x : Source) (plane : Fin 4) (ptr : Int) (length height : Nat) : List (List UInt8) :=
  (List.range height).map fun (i : Nat) => x.bytes (ptr + x.linesize plane * i) length

def planeShare (plane : Fin 4) (n sub : Nat) : Nat := if plane = 0 ∨ plane = 3 then n else ceilRshift n sub

def fillPlane (mem : List UInt8) (plane stride width height y : Nat) (val : UInt8) : Option (List UInt8) :=
  writeRows mem (plane + stride * y) stride (List.replicate height (List.replicate width val))

variable (c : SwsContext) (src : Source) (srcSliceY srcSliceH : Nat) (dst : Arrays)

def planarCopyPlane (plane : Fin 4) (ptr : Nat) (mem : List UInt8) : Option (List UInt8) :=
  let length := planeShare plane c.srcW yuv420p.log2ChromaW
  let y := planeShare plane srcSliceY yuv420p.log2ChromaH
  let height := planeShare plane srcSliceH yuv420p.log2ChromaH
  if plane = 1 ∧ dst.data 2 = none then some mem
  else
    match (if plane = 1 ∧ src.data 2 = none then none else src.data plane) with
    | none => fillPlane mem ptr (dst.linesize plane) length height y (if plane = 3 then 255 else 128)
    | some srcPtr =>
        if dst.linesize plane = src.linesize plane ∧ 0 < src.linesize plane ∧ src.linesize plane = length then
          write mem (ptr + dst.linesize plane * y) (src.bytes srcPtr (height * dst.linesize plane))
        else
          writeRows mem (ptr + dst.linesize plane * y) (dst.linesize plane) (src.rows plane srcPtr length height)

def planarCopy : List (Fin 4) → List UInt8 → Option (List UInt8)
  | [], mem => some mem
  | plane :: planes, mem =>
      match dst.data plane with
      | none => some mem
      | some ptr =>
          (planarCopyPlane c src srcSliceY srcSliceH dst plane ptr mem).bind (planarCopy planes)

def planarCopyWrapper (mem : List UInt8) : Option (List UInt8) :=
  planarCopy c src srcSliceY srcSliceH dst [0, 1, 2, 3] mem

def checkImagePointers {α β : Type} [Zero β] [DecidableEq β] (data : Fin 4 → Option α) (d : AVPixFmtDescriptor)
    (linesizes : Fin 4 → β) : Bool :=
  (List.finRange 4).all fun i => (data (d.comp i).plane).isSome && linesizes (d.comp i).plane ≠ 0

def resetPtr {α : Type} (data : Fin 4 → Option α) : Fin 4 → Option α := Function.update data 3 none

def Source.reset (x : Source) : Source := { x with data := resetPtr x.data }

def Arrays.reset (x : Arrays) : Arrays := { x with data := resetPtr x.data }

def swsScale (mem : List UInt8) : Option (Int × List UInt8) :=
  if srcSliceH % 2 ≠ 0 ∧ srcSliceH ≠ c.srcH ∨ c.srcH < srcSliceH then some (einval, mem)
  else if checkImagePointers src.data yuv420p src.linesize = false then some (einval, mem)
  else if checkImagePointers dst.data yuv420p dst.linesize = false then some (einval, mem)
  else if srcSliceH = 0 then some (0, mem)
  else
    (planarCopyWrapper c src.reset 0 srcSliceH (Arrays.reset dst) mem).map fun mem' => (srcSliceH, mem')

abbrev Samples := Fin 3 → List (List UInt8)

def readPlane (mem : List UInt8) (p : Fin 3) : Option (List (List UInt8)) :=
  (dst.data p.castSucc).bind fun ptr => readRows mem ptr (dst.linesize p.castSucc)
    (planeShare p.castSucc c.srcW yuv420p.log2ChromaW) (planeShare p.castSucc c.srcH yuv420p.log2ChromaH)

/-- SDL_UpdateYUVTexture for the whole of a texture: the result, and the texture
afterwards. Where it returns 0 the texture has the rows that it was given. -/
structure UpdateYUVTexture where
  update : Samples → Arrays → List UInt8 → Int × Samples
  updated : ∀ texture dst mem (rows : Samples), (∀ p, readPlane c dst mem p = some (rows p)) →
    (update texture dst mem).1 = 0 → (update texture dst mem).2 = rows

structure Shot where
  src : Source
  height : Nat

/-- What the video thread does with each frame after the sync loop: what
SDL_UpdateYUVTexture returns, the texture presented whatever it returns, and in
the end the memory of frame_yuv. -/
def showFrames (sdl : UpdateYUVTexture c) :
    Samples → List UInt8 → List Shot → Option (List (Int × Samples) × List UInt8)
  | _, mem, [] => some ([], mem)
  | texture, mem, shot :: shots => do
      let scaled ← swsScale c shot.src shot.height dst mem
      let updated := sdl.update texture dst scaled.2
      let shown ← showFrames sdl updated.2 scaled.2 shots
      some (updated :: shown.1, shown.2)

theorem planeShare_castSucc (p : Fin 3) (n sub : Nat) :
    planeShare p.castSucc n sub = ceilRshift n (if p.castSucc = 1 ∨ p.castSucc = 2 then sub else 0) := by
  match p with
  | 0 => exact (ceilRshift_zero n).symm
  | 1 => rfl
  | 2 => rfl

theorem planeShare_pos {n : Nat} (p : Fin 3) (sub : Nat) (h : 0 < n) : 0 < planeShare p.castSucc n sub := by
  rw [planeShare_castSucc]
  exact ceilRshift_pos _ h

theorem planeShare_le (p : Fin 3) (n : Nat) : planeShare p.castSucc n yuv420p.log2ChromaW ≤ n := by
  have hlog : yuv420p.log2ChromaW = 1 := rfl
  rw [planeShare_castSucc, ceilRshift_eq, hlog]
  split <;> omega

theorem linesizeOf_yuv420p {w : Nat} (hw : w ≤ intMax) (p : Fin 3) :
    linesizeOf yuv420p w p.castSucc = .ok (planeShare p.castSucc w yuv420p.log2ChromaW) := by
  have hstep : avImageFillMaxPixsteps yuv420p p.castSucc = (1, p.castSucc) := by
    revert p
    decide
  have hfit := Nat.le_trans (planeShare_le p w) hw
  rw [planeShare_castSucc, ← Nat.one_mul (ceilRshift _ _)] at hfit
  rw [linesizeOf, hstep, planeShare_castSucc, imageGetLinesize_eq rfl hfit, Nat.one_mul]

structure FrameYuv (w h : Nat) where
  size : Nat
  arrays : Arrays
  laid : Laid yuv420p w h 1 0 size arrays
  w_pos : 0 < w
  h_pos : 0 < h
  w_le : w ≤ intMax

namespace FrameYuv

variable {w h : Nat} (f : FrameYuv w h)

theorem share_le (p : Fin 3) : planeShare p.castSucc w yuv420p.log2ChromaW ≤ f.arrays.linesize p.castSucc := by
  obtain ⟨n, hn, hle⟩ := f.laid.wide p.castSucc
  rw [linesizeOf_yuv420p f.w_le] at hn
  cases hn
  exact hle

theorem linesize_pos (p : Fin 3) : 0 < f.arrays.linesize p.castSucc :=
  lt_of_lt_of_le (planeShare_pos p _ f.w_pos) (f.share_le p)

def plane (p : Fin 3) : Plane where
  offset := (f.arrays.data p.castSucc).getD 0
  pitch := f.arrays.linesize p.castSucc
  width := planeShare p.castSucc w yuv420p.log2ChromaW
  height := planeShare p.castSucc h yuv420p.log2ChromaH
  width_le := f.share_le p

theorem data_eq (p : Fin 3) : f.arrays.data p.castSucc = some (f.plane p).offset := by
  have hplane : HasPlane yuv420p p.castSucc := by
    revert p
    decide
  obtain ⟨off, hoff⟩ := Option.isSome_iff_exists.mp ((f.laid.present p.castSucc).mpr hplane)
  rw [plane, hoff, Option.getD_some]

theorem size_plane (p : Fin 3) : planeSize yuv420p h f.arrays.linesize p.castSucc = (f.plane p).size := by
  have hrows : (f.plane p).height = yuv420p.rowsOf h p.castSucc := planeShare_castSucc p h _
  rw [planeSize, if_neg (by simp [yuv420p]), Plane.size, hrows]
  rfl

theorem plane_stop_le (p : Fin 3) : (f.plane p).stop ≤ f.size := by
  have hin := (f.laid.inside p.castSucc _ (f.data_eq p)).2
  rw [size_plane, Nat.zero_add] at hin
  exact hin

theorem plane_apart {p q : Fin 3} (hpq : p ≠ q) : (f.plane p).Apart (f.plane q) := by
  rcases lt_or_gt_of_ne hpq with hlt | hlt
  · have hle := f.laid.apart _ _ _ _ (Fin.castSucc_lt_castSucc_iff.mpr hlt) (f.data_eq p) (f.data_eq q)
    rw [size_plane] at hle
    exact Or.inl hle
  · have hle := f.laid.apart _ _ _ _ (Fin.castSucc_lt_castSucc_iff.mpr hlt) (f.data_eq q) (f.data_eq p)
    rw [size_plane] at hle
    exact Or.inr hle

end FrameYuv

theorem Source.bytes_add (x : Source) (ptr : Int) (m n : Nat) :
    x.bytes ptr (m + n) = x.bytes ptr m ++ x.bytes (ptr + m) n := by
  simp only [Source.bytes, List.range_add, List.map_append, List.map_map]
  congr 1
  apply List.map_congr_left
  intro j _
  simp only [Function.comp, Nat.cast_add, Int.add_assoc]

@[simp] theorem Source.length_bytes (x : Source) (ptr : Int) (n : Nat) : (x.bytes ptr n).length = n := by
  rw [Source.bytes, List.length_map, List.length_range]

@[simp] theorem Source.length_rows (x : Source) (p : Fin 4) (ptr : Int) (length height : Nat) :
    (x.rows p ptr length height).length = height := by
  rw [Source.rows, List.length_map, List.length_range]

theorem Source.length_of_mem_rows {x : Source} {p : Fin 4} {ptr : Int} {length height : Nat} {row : List UInt8}
    (h : row ∈ x.rows p ptr length height) : row.length = length := by
  obtain ⟨i, -, rfl⟩ := List.mem_map.mp h
  exact x.length_bytes _ _

theorem Source.bytes_eq_flatten {x : Source} {p : Fin 4} {length : Nat} (h : x.linesize p = length) (ptr : Int)
    (height : Nat) : x.bytes ptr (height * length) = (x.rows p ptr length height).flatten := by
  induction height with
  | zero => simp [Source.bytes, Source.rows]
  | succ height ih =>
      rw [Nat.succ_mul, Source.bytes_add, ih, Source.rows, Source.rows, List.range_succ, List.map_append,
        List.flatten_append, h]
      simp [mul_comm]

@[simp] theorem planeShare_zero (plane : Fin 4) : planeShare plane 0 yuv420p.log2ChromaH = 0 := by
  revert plane
  decide

theorem planeShare_mono (plane : Fin 4) {m n : Nat} (sub : Nat) (h : m ≤ n) :
    planeShare plane m sub ≤ planeShare plane n sub := by
  rw [planeShare, planeShare]
  split
  · exact h
  · rw [ceilRshift_eq, ceilRshift_eq]
    exact Nat.div_le_div_right (by omega)

variable {c : SwsContext} {src : Source} {dst : Arrays}

/-- Where the pointers are there, a turn of the loop writes the rows of a plane. -/
theorem planarCopyPlane_eq {plane : Fin 4} {ptr height : Nat} {srcPtr : Int} {mem : List UInt8}
    (hdst : dst.data 2 ≠ none) (hsrc : src.data plane = some srcPtr) (hsrc2 : src.data 2 ≠ none)
    (hptr : ptr ≤ mem.length) :
    planarCopyPlane c src 0 height dst plane ptr mem =
      writeRows mem ptr (dst.linesize plane) (src.rows plane srcPtr (planeShare plane c.srcW yuv420p.log2ChromaW)
        (planeShare plane height yuv420p.log2ChromaH)) := by
  simp only [planarCopyPlane, hdst, hsrc, hsrc2, and_false, if_false, planeShare_zero, Nat.mul_zero, Nat.add_zero]
  split
  next hall =>
    have hlength : dst.linesize plane = planeShare plane c.srcW yuv420p.log2ChromaW := by omega
    rw [hlength, Source.bytes_eq_flatten hall.2.2]
    exact write_flatten (fun _ => Source.length_of_mem_rows) mem ptr hptr
  · rfl

def Shot.rows (c : SwsContext) (x : Shot) (p : Fin 3) : List (List UInt8) :=
  x.src.rows p.castSucc ((x.src.data p.castSucc).getD 0) (planeShare p.castSucc c.srcW yuv420p.log2ChromaW)
    (planeShare p.castSucc x.height yuv420p.log2ChromaH)

structure Shot.Fits (c : SwsContext) (x : Shot) : Prop where
  even : x.height % 2 = 0 ∨ x.height = c.srcH
  le : x.height ≤ c.srcH
  data : ∀ p : Fin 3, (x.src.data p.castSucc).isSome
  linesize : ∀ p : Fin 3, x.src.linesize p.castSucc ≠ 0

instance (x : Shot) : Decidable (x.Fits c) :=
  decidable_of_iff ((x.height % 2 = 0 ∨ x.height = c.srcH) ∧ x.height ≤ c.srcH ∧
    (∀ p : Fin 3, (x.src.data p.castSucc).isSome) ∧ ∀ p : Fin 3, x.src.linesize p.castSucc ≠ 0)
    ⟨fun ⟨he, hl, hd, hn⟩ => ⟨he, hl, hd, hn⟩, fun ⟨he, hl, hd, hn⟩ => ⟨he, hl, hd, hn⟩⟩

/-- A shot drawn over a picture: as many rows of each plane as it has. One that
does not fit leaves the picture as it is. -/
def Shot.paint (c : SwsContext) (x : Shot) (screen : Samples) : Samples :=
  if x.Fits c then fun p => blit (screen p) 0 (x.rows c p) else screen

theorem resetPtr_castSucc {α : Type} (data : Fin 4 → Option α) (p : Fin 3) :
    resetPtr data p.castSucc = data p.castSucc :=
  Function.update_of_ne (Fin.castSucc_ne_last p) _ _

theorem checkImagePointers_yuv420p {α β : Type} [Zero β] [DecidableEq β] (data : Fin 4 → Option α)
    (linesizes : Fin 4 → β) : checkImagePointers data yuv420p linesizes = true ↔
      ∀ p : Fin 3, (data p.castSucc).isSome ∧ linesizes p.castSucc ≠ 0 := by
  have hplane : ∀ i, ∃ p : Fin 3, (yuv420p.comp i).plane = p.castSucc := by decide
  have hcomp : ∀ p : Fin 3, (yuv420p.comp p.castSucc).plane = p.castSucc := by decide
  simp only [checkImagePointers, List.all_eq_true, List.mem_finRange, true_implies, Bool.and_eq_true,
    decide_eq_true_eq]
  constructor
  · intro h p
    rw [← hcomp p]
    exact h p.castSucc
  · intro h i
    obtain ⟨p, hp⟩ := hplane i
    rw [hp]
    exact h p

variable (f : FrameYuv c.srcW c.srcH)

theorem FrameYuv.data_reset {w h : Nat} (f : FrameYuv w h) (p : Fin 3) :
    (Arrays.reset f.arrays).data p.castSucc = some (f.plane p).offset :=
  (resetPtr_castSucc f.arrays.data p).trans (f.data_eq p)

theorem planarCopyPlane_rows {x : Shot} (hx : x.Fits c) (p : Fin 3) {mem : List UInt8} (hmem : f.size ≤ mem.length) :
    ∃ mem', planarCopyPlane c x.src.reset 0 x.height (Arrays.reset f.arrays) p.castSucc (f.plane p).offset mem =
        some mem' ∧ mem'.length = mem.length ∧
      (f.plane p).rows mem' = blit ((f.plane p).rows mem) 0 (x.rows c p) ∧
      ∀ q, q ≠ p → (f.plane q).rows mem' = (f.plane q).rows mem := by
  have hstop := Nat.le_trans (f.plane_stop_le p) hmem
  have hdst : (Arrays.reset f.arrays).data 2 ≠ none := by
    have hdata := f.data_reset 2
    intro hnone
    exact absurd (hdata.symm.trans hnone) (by simp)
  obtain ⟨srcPtr, hptr⟩ := Option.isSome_iff_exists.mp (hx.data p)
  have hsrc : x.src.reset.data p.castSucc = some srcPtr := (resetPtr_castSucc x.src.data p).trans hptr
  have hsrc2 : x.src.reset.data 2 ≠ none := by
    obtain ⟨v, hv⟩ := Option.isSome_iff_exists.mp (hx.data 2)
    have hdata := (resetPtr_castSucc x.src.data 2).trans hv
    intro hnone
    exact absurd (hdata.symm.trans hnone) (by simp)
  have hoffset : (f.plane p).offset ≤ mem.length := Nat.le_trans (Nat.le_add_right _ _) hstop
  have hrows : x.rows c p = x.src.rows p.castSucc srcPtr (f.plane p).width
      (planeShare p.castSucc x.height yuv420p.log2ChromaH) := by
    rw [Shot.rows, hptr, Option.getD_some]
    rfl
  have hwidth : ∀ row ∈ x.rows c p, row.length = (f.plane p).width := by
    rw [hrows]
    exact fun _ => Source.length_of_mem_rows
  have hle : (x.rows c p).length ≤ (f.plane p).height := by
    rw [hrows, Source.length_rows]
    exact planeShare_mono _ _ hx.le
  obtain ⟨mem', hmem', hlen, hnew, hold⟩ := Plane.writeRows_rows hstop hwidth hle
  refine ⟨mem', ?_, hlen, hnew, fun q hq => hold (f.plane q) (f.plane_apart hq.symm)⟩
  rw [planarCopyPlane_eq hdst hsrc hsrc2 hoffset, ← hmem', hrows]
  rfl

theorem planarCopy_rows {x : Shot} (hx : x.Fits c) {ps : List (Fin 3)} (hps : ps.Nodup) {mem : List UInt8}
    (hmem : f.size ≤ mem.length) :
    ∃ mem', planarCopy c x.src.reset 0 x.height (Arrays.reset f.arrays) (ps.map Fin.castSucc ++ [3]) mem =
        some mem' ∧ mem'.length = mem.length ∧
      ∀ q, (f.plane q).rows mem' =
        if q ∈ ps then blit ((f.plane q).rows mem) 0 (x.rows c q) else (f.plane q).rows mem := by
  induction ps generalizing mem with
  | nil => exact ⟨mem, rfl, rfl, fun q => (if_neg List.not_mem_nil).symm⟩
  | cons p ps ih =>
      obtain ⟨hp, hps⟩ := List.nodup_cons.mp hps
      obtain ⟨mid, hmid, hlen, hnew, hold⟩ := planarCopyPlane_rows f hx p hmem
      have hmid' : f.size ≤ mid.length := by rw [hlen]; exact hmem
      obtain ⟨mem', hmem', hlen', hrows⟩ := ih hps hmid'
      refine ⟨mem', ?_, hlen'.trans hlen, ?_⟩
      · rw [List.map_cons, List.cons_append, planarCopy, f.data_reset p]
        simp only [hmid, Option.bind_some, hmem']
      · intro q
        rw [hrows q]
        by_cases hq : q = p
        · subst hq
          rw [if_neg hp, if_pos List.mem_cons_self, hnew]
        · simp only [hold q hq, List.mem_cons, hq, false_or]

/-- sws_scale draws over the picture in frame_yuv, and writes nowhere else. -/
theorem swsScale_rows (x : Shot) {mem : List UInt8} (hmem : f.size ≤ mem.length) :
    ∃ ret mem', swsScale c x.src x.height f.arrays mem = some (ret, mem') ∧ mem'.length = mem.length ∧
      (fun p => (f.plane p).rows mem') = x.paint c fun p => (f.plane p).rows mem := by
  have hdst : checkImagePointers f.arrays.data yuv420p f.arrays.linesize = true := by
    rw [checkImagePointers_yuv420p]
    intro p
    exact ⟨by rw [f.data_eq p]; rfl, Nat.pos_iff_ne_zero.mp (f.linesize_pos p)⟩
  by_cases hfits : x.Fits c
  · have hsrc := (checkImagePointers_yuv420p x.src.data x.src.linesize).mpr fun p => ⟨hfits.data p, hfits.linesize p⟩
    have hheight : ¬ (x.height % 2 ≠ 0 ∧ x.height ≠ c.srcH ∨ c.srcH < x.height) := by
      have heven := hfits.even
      have hle := hfits.le
      omega
    obtain ⟨mem', hmem', hlen, hrows⟩ := planarCopy_rows f hfits (by decide : ([0, 1, 2] : List (Fin 3)).Nodup) hmem
    rw [swsScale, if_neg hheight, if_neg (by simp [hsrc]), if_neg (by simp [hdst]), Shot.paint, if_pos hfits]
    by_cases hzero : x.height = 0
    · rw [if_pos hzero]
      refine ⟨0, mem, rfl, rfl, ?_⟩
      funext p
      rw [Shot.rows, hzero, planeShare_zero]
      exact (List.drop_zero).symm
    · rw [if_neg hzero]
      refine ⟨x.height, mem', by rw [← Option.map_some, ← hmem']; rfl, hlen, ?_⟩
      funext p
      rw [hrows p, if_pos (by revert p; decide)]
  · have hpaint : x.paint c (fun p => (f.plane p).rows mem) = fun p => (f.plane p).rows mem := if_neg hfits
    rw [hpaint, swsScale]
    split
    · exact ⟨einval, mem, rfl, rfl, rfl⟩
    next hheight =>
      split
      · exact ⟨einval, mem, rfl, rfl, rfl⟩
      next hsrc =>
        have hptrs := (checkImagePointers_yuv420p x.src.data x.src.linesize).mp (by simpa using hsrc)
        exact absurd ⟨by omega, by omega, fun p => (hptrs p).1, fun p => (hptrs p).2⟩ hfits

theorem FrameYuv.readPlane_eq {mem : List UInt8} (hmem : f.size ≤ mem.length) (p : Fin 3) :
    readPlane c f.arrays mem p = some ((f.plane p).rows mem) := by
  rw [readPlane, f.data_eq p, Option.bind_some]
  exact Plane.readRows_eq (Nat.le_trans (f.plane_stop_le p) hmem)

def pictures (c : SwsContext) : Samples → List Shot → List Samples
  | _, [] => []
  | screen, x :: xs => x.paint c screen :: pictures c (x.paint c screen) xs

def Shows (presented : Int × Samples) (picture : Samples) : Prop := presented.1 = 0 → presented.2 = picture

theorem showFrames_eq (sdl : UpdateYUVTexture c) (texture : Samples) (shots : List Shot) {mem : List UInt8}
    (hmem : f.size ≤ mem.length) :
    ∃ shown mem', showFrames c f.arrays sdl texture mem shots = some (shown, mem') ∧
      mem'.length = mem.length ∧
      List.Forall₂ Shows shown (pictures c (fun p => (f.plane p).rows mem) shots) := by
  induction shots generalizing texture mem with
  | nil => exact ⟨[], mem, rfl, rfl, .nil⟩
  | cons x xs ih =>
      obtain ⟨ret, mid, hscale, hlen, hpaint⟩ := swsScale_rows f x hmem
      have hmid : f.size ≤ mid.length := by rw [hlen]; exact hmem
      obtain ⟨shown, mem', hshow, hlen', hall⟩ := ih (sdl.update texture f.arrays mid).2 hmid
      refine ⟨sdl.update texture f.arrays mid :: shown, mem', ?_, hlen'.trans hlen, ?_⟩
      · rw [showFrames, hscale]
        simp only [bind, Option.bind, hshow]
      · rw [pictures, ← hpaint]
        exact .cons (sdl.updated texture f.arrays mid _ (f.readPlane_eq hmid)) hall

/-- A shot of the full height covers the picture. -/
theorem Shot.paint_full {x : Shot} (hx : x.Fits c) (hheight : x.height = c.srcH) {screen : Samples}
    (hscreen : ∀ p, (screen p).length = (f.plane p).height) : x.paint c screen = x.rows c := by
  rw [Shot.paint, if_pos hx]
  funext p
  have hle : (screen p).length ≤ (x.rows c p).length := by
    rw [hscreen p, Shot.rows, Source.length_rows, hheight]
    exact Nat.le_refl _
  rw [blit, List.take_zero, List.nil_append, Nat.zero_add, List.drop_of_length_le hle, List.append_nil]

theorem pictures_full {shots : List Shot} (h : ∀ x ∈ shots, x.Fits c ∧ x.height = c.srcH) {screen : Samples}
    (hscreen : ∀ p, (screen p).length = (f.plane p).height) : pictures c screen shots = shots.map (Shot.rows c) := by
  induction shots generalizing screen with
  | nil => rfl
  | cons x xs ih =>
      obtain ⟨hfits, hheight⟩ := h x List.mem_cons_self
      rw [pictures, Shot.paint_full f hfits hheight hscreen, List.map_cons]
      congr 1
      apply ih (fun y hy => h y (List.mem_cons_of_mem _ hy))
      intro p
      rw [Shot.rows, Source.length_rows, hheight]
      rfl

theorem exists_frameYuv {w h : BitVec 32} {n : Nat} {a : Arrays}
    (hfill : avImageFillArrays (some yuv420p) (some 0) w h 1 = .ok (n, a)) :
    ∃ f : FrameYuv w.toNat h.toNat, f.size = n ∧ f.arrays = a := by
  obtain ⟨hcheck, -, d, hd, hlaid⟩ := laid_of_fillArrays Nat.one_pos hfill
  obtain ⟨hw, hh, hwmax⟩ := avImageCheckSize_ok hcheck
  cases hd
  rw [toInt_of_checkSize hcheck] at hlaid
  exact ⟨⟨n, a, hlaid, hw, hh, hwmax⟩, rfl, rfl⟩

open Media Threads Interleaving Playback in
/-- The pictures the video thread presents are those of the frames it receives,
in their order, drawn one over the other from what the buffer holds at first;
and just those of the frames, where all have the height the picture memory is
made for. -/
theorem presented_pictures {P : Player} {file : List Payload} {acts : List Act} {s : State P}
    (hr : Runs file acts s) {w h : BitVec 32} {n : Nat} {a : Arrays}
    (hfill : avImageFillArrays (some yuv420p) (some 0) w h 1 = .ok (n, a)) {buffer : List UInt8}
    (hbuffer : buffer.length = n) (sdl : UpdateYUVTexture ⟨w.toNat, h.toNat⟩) (texture : Samples)
    {shots : List Shot}
    (hshots : shots.map (fun x => (x.height : Int)) = s.out.rendered.map Picture.sliceHeight) :
    (∃ rest : List AVFrame, rest.length ≤ 1 ∧
      SendReceive.frames (s.log.calls .video) = s.out.rendered.map Picture.frame ++ rest) ∧
    ∃ screen shown mem, (∀ p, readPlane ⟨w.toNat, h.toNat⟩ a buffer p = some (screen p)) ∧
      showFrames ⟨w.toNat, h.toNat⟩ a sdl texture buffer shots = some (shown, mem) ∧ mem.length = n ∧
      List.Forall₂ Shows shown (pictures ⟨w.toNat, h.toNat⟩ screen shots) ∧
      ((∀ x ∈ s.out.rendered, x.sliceHeight = h.toNat) →
        (∀ x ∈ shots, ∀ p : Fin 3, (x.src.data p.castSucc).isSome ∧ x.src.linesize p.castSucc ≠ 0) →
        pictures ⟨w.toNat, h.toNat⟩ screen shots = shots.map (Shot.rows ⟨w.toNat, h.toNat⟩)) := by
  refine ⟨⟨((s.consumer .video).body.map onScreen).toList, ?_, (paths hr).video.shown⟩, ?_⟩
  · cases (s.consumer .video).body <;> simp
  obtain ⟨f, rfl, rfl⟩ := exists_frameYuv hfill
  have hmem : f.size ≤ buffer.length := Nat.le_of_eq hbuffer.symm
  obtain ⟨shown, mem, hshow, hlen, hall⟩ :=
    showFrames_eq (c := ⟨w.toNat, h.toNat⟩) f sdl texture shots hmem
  refine ⟨_, shown, mem, FrameYuv.readPlane_eq (c := ⟨w.toNat, h.toNat⟩) f hmem, hshow, hlen.trans hbuffer,
    hall, ?_⟩
  intro hheights hptrs
  apply pictures_full (c := ⟨w.toNat, h.toNat⟩) f
  · intro x hx
    have hheight : x.height = h.toNat := by
      have hmem : (x.height : Int) ∈ s.out.rendered.map Picture.sliceHeight := by
        rw [← hshots]
        exact List.mem_map_of_mem hx
      obtain ⟨y, hy, hyx⟩ := List.mem_map.mp hmem
      have hfull := hheights y hy
      omega
    exact ⟨⟨Or.inr hheight, Nat.le_of_eq hheight, fun p => (hptrs x hx p).1, fun p => (hptrs x hx p).2⟩, hheight⟩
  · intro p
    exact (f.plane p).length_rows buffer

def uploading (c : SwsContext) : UpdateYUVTexture c where
  update texture dst mem :=
    match readPlane c dst mem 0, readPlane c dst mem 1, readPlane c dst mem 2 with
    | some y, some u, some v => (0, ![y, u, v])
    | _, _, _ => (-1, texture)
  updated texture dst mem rows hrows _ := by
    simp only [hrows]
    funext p
    match p with
    | 0 | 1 | 2 => rfl

def ramp : Source where
  data := ![some 0, some 10, some 20, none]
  linesize := ![4, -1, 1, 0]
  byte i := UInt8.ofNat i.toNat

open Media Threads Interleaving Presentation in
theorem presented_pictures_sample : ∃ (s : State stereo.exact) (a : Arrays) (mem : List UInt8),
    Runs [⟨0, []⟩] oneFrame s ∧ avImageFillArrays (some yuv420p) (some 0) 2 2 1 = .ok (6, a) ∧
    showFrames ⟨2, 2⟩ a (uploading ⟨2, 2⟩) (fun _ => []) (List.replicate 6 0) [⟨ramp, 2⟩] =
      some ([(0, ![[[0, 1], [4, 5]], [[10]], [[20]]])], mem) := by
  obtain ⟨s, hs, hp⟩ := Transition.exists_of_run_any step (start stereo.exact [⟨0, []⟩]) oneFrame
    (fun s : State stereo.exact => decide (s.out.rendered.map Picture.sliceHeight = [2])) (by decide +kernel)
  have hheights := of_decide_eq_true hp
  have hcodes : (avImageFillArrays (some yuv420p) (some 0) 2 2 1).toOption.bind (fun r =>
      (showFrames ⟨2, 2⟩ r.2 (uploading ⟨2, 2⟩) (fun _ => []) (List.replicate 6 0) [⟨ramp, 2⟩]).map
        (fun shown => (r.1, shown.1.map Prod.fst))) = some (6, [0]) := by decide +kernel
  obtain ⟨⟨n, a⟩, hfill, hcodes⟩ := Option.bind_eq_some_iff.mp hcodes
  obtain ⟨⟨shown, mem⟩, hshow, hcodes⟩ := Option.map_eq_some_iff.mp hcodes
  rw [Prod.mk.injEq] at hcodes
  obtain ⟨rfl, hcode⟩ := hcodes
  replace hfill : avImageFillArrays (some yuv420p) (some 0) 2 2 1 = .ok (6, a) := by
    cases hres : avImageFillArrays (some yuv420p) (some 0) 2 2 1 with
    | error e => rw [hres] at hfill; cases hfill
    | ok r => rw [hres] at hfill; exact congrArg _ (Option.some.inj hfill)
  have hshots : [(⟨ramp, 2⟩ : Shot)].map (fun x => (x.height : Int)) = s.out.rendered.map Picture.sliceHeight := by
    rw [hheights]
    rfl
  obtain ⟨-, screen, shown', mem', -, hshow', -, hall, hfull⟩ :=
    presented_pictures hs hfill (rfl : (List.replicate 6 (0 : UInt8)).length = 6) (uploading ⟨2, 2⟩)
      (fun _ => []) hshots
  obtain ⟨rfl, rfl⟩ : shown = shown' ∧ mem = mem' := by
    have hsame := hshow.symm.trans hshow'
    simpa using hsame
  have hrows : Shot.rows ⟨(2 : BitVec 32).toNat, (2 : BitVec 32).toNat⟩ ⟨ramp, 2⟩ =
      ![[[0, 1], [4, 5]], [[10]], [[20]]] := by
    funext p
    revert p
    decide
  rw [hfull, List.map_singleton, hrows] at hall
  · obtain ⟨⟨code, picture⟩, rest, hshows, hnil, rfl⟩ := List.forall₂_cons_right_iff.mp hall
    obtain rfl := List.forall₂_nil_right_iff.mp hnil
    obtain rfl : code = 0 := by simpa using hcode
    obtain rfl := hshows rfl
    exact ⟨s, a, mem, hs, hfill, hshow⟩
  · intro x hx
    have hmem := List.mem_map_of_mem (f := Picture.sliceHeight) hx
    rw [hheights, List.mem_singleton] at hmem
    exact hmem
  · intro x hx
    obtain rfl := List.mem_singleton.mp hx
    decide

end FfmpegPlayer.SwsScale
