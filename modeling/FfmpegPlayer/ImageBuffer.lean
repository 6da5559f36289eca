import FfmpegPlayer.Bitmap
import Mathlib.Algebra.GroupWithZero.Nat
import Mathlib.Algebra.Order.BigOperators.Group.List
import Mathlib.Algebra.Order.Group.Nat
import Mathlib.Data.Fin.VecNotation
import Mathlib.Data.Fin.Tuple.Basic

namespace FfmpegPlayer.ImageBuffer

open Bitmap

instance neZero_four : NeZero 4 := ⟨by decide⟩

structure AVComponentDescriptor where
  plane : Fin 4
  step : Nat

structure AVPixFmtDescriptor where
  comp : Fin 4 → AVComponentDescriptor
  log2ChromaW : Nat
  log2ChromaH : Nat
  /-- AV_PIX_FMT_FLAG_BITSTREAM -/
  bitstream : Bool
  /-- AV_PIX_FMT_FLAG_PAL -/
  pal : Bool
  /-- AV_PIX_FMT_FLAG_HWACCEL -/
  hwaccel : Bool

def yuv420p : AVPixFmtDescriptor where
  comp := ![⟨0, 1⟩, ⟨1, 1⟩, ⟨2, 1⟩, ⟨0, 0⟩]
  log2ChromaW := 1
  log2ChromaH := 1
  bitstream := false
  pal := false
  hwaccel := false

def einval : Int := -22

def intMax : Nat := 2147483647

def sizeMax : Nat := 18446744073709551615

def ceilRshift (a b : Nat) : Nat := (a + (1 <<< b) - 1) >>> b

def ffalign (x a : Nat) : Nat := (x + a - 1) - ((x + a - 1) &&& (a - 1))

def avImageFillMaxPixsteps (d : AVPixFmtDescriptor) : Fin 4 → Nat × Fin 4 :=
  (List.finRange 4).foldl (fun acc i =>
    if (acc (d.comp i).plane).1 < (d.comp i).step then
      Function.update acc (d.comp i).plane ((d.comp i).step, i)
    else acc) (fun _ => (0, 0))

def imageGetLinesize (width : Int) (maxStep : Nat) (maxStepComp : Fin 4) (d : AVPixFmtDescriptor) :
    Except Int Nat :=
  if width < 0 then .error einval
  else
    let s := if maxStepComp = 1 ∨ maxStepComp = 2 then d.log2ChromaW else 0
    let shiftedW := ceilRshift width.toNat s
    if shiftedW ≠ 0 ∧ intMax / shiftedW < maxStep then .error einval
    else if d.bitstream then .ok ((maxStep * shiftedW + 7) >>> 3)
    else .ok (maxStep * shiftedW)

def inMemory : Option AVPixFmtDescriptor → Except Int AVPixFmtDescriptor
  | none => .error einval
  | some d => if d.hwaccel then .error einval else .ok d

def linesizeOf (d : AVPixFmtDescriptor) (width : Int) (plane : Fin 4) : Except Int Nat :=
  imageGetLinesize width (avImageFillMaxPixsteps d plane).1 (avImageFillMaxPixsteps d plane).2 d

def avImageGetLinesize (desc : Option AVPixFmtDescriptor) (width : Int) (plane : Fin 4) : Except Int Nat := do
  let d ← inMemory desc
  linesizeOf d width plane

def avImageFillLinesizes (desc : Option AVPixFmtDescriptor) (width : Int) : Except Int (Fin 4 → Nat) := do
  let d ← inMemory desc
  let s0 ← linesizeOf d width 0
  let s1 ← linesizeOf d width 1
  let s2 ← linesizeOf d width 2
  let s3 ← linesizeOf d width 3
  .ok ![s0, s1, s2, s3]

def AVPixFmtDescriptor.hasPlane (d : AVPixFmtDescriptor) (plane : Fin 4) : Bool :=
  (List.finRange 4).any (fun i => (d.comp i).plane = plane)

def AVPixFmtDescriptor.rowsOf (d : AVPixFmtDescriptor) (height : Nat) (plane : Fin 4) : Nat :=
  ceilRshift height (if plane = 1 ∨ plane = 2 then d.log2ChromaH else 0)

/-- The sizes of the planes after the first. From the first plane that the
format does not have, all are 0. -/
def laterPlaneSizes (d : AVPixFmtDescriptor) (height : Nat) (linesizes : Fin 4 → Nat) :
    List (Fin 4) → Except Int (List Nat)
  | [] => .ok []
  | i :: is =>
      if d.hasPlane i then
        if sizeMax / d.rowsOf height i < linesizes i then .error einval
        else do
          let sizes ← laterPlaneSizes d height linesizes is
          .ok (d.rowsOf height i * linesizes i :: sizes)
      else .ok (List.replicate (is.length + 1) 0)

def avImageFillPlaneSizes (desc : Option AVPixFmtDescriptor) (height : Nat) (linesizes : Fin 4 → Nat) :
    Except Int (List Nat) := do
  let d ← inMemory desc
  if sizeMax / height < linesizes 0 then .error einval
  else if d.pal then .ok [linesizes 0 * height, 256 * 4, 0, 0]
  else do
    let sizes ← laterPlaneSizes d height linesizes [1, 2, 3]
    .ok (linesizes 0 * height :: sizes)

def totalSize : Nat → List Nat → Except Int Nat
  | ret, [] => .ok ret
  | ret, s :: sizes => if intMax - ret < s then .error einval else totalSize (ret + s) sizes

def pointersFrom (data size : Nat) : List Nat → List Nat
  | [] => []
  | s :: sizes => if s = 0 then [] else (data + size) :: pointersFrom (data + size) s sizes

def pointers (ptr : Nat) : List Nat → List Nat
  | [] => []
  | s :: sizes => ptr :: pointersFrom ptr s sizes

def avImageFillPointers (desc : Option AVPixFmtDescriptor) (height : Nat) (ptr : Option Nat)
    (linesizes : Fin 4 → Nat) : Except Int (Nat × (Fin 4 → Option Nat)) := do
  let sizes ← avImageFillPlaneSizes desc height linesizes
  let ret ← totalSize 0 sizes
  match ptr with
  | none => .ok (ret, fun _ => none)
  | some p => .ok (ret, fun i => (pointers p sizes)[i.val]?)

def avImageCheckSize2 (w h : BitVec 32) (maxPixels : Int) (desc : Option AVPixFmtDescriptor) : Except Int Unit :=
  let linesize : Nat := (avImageGetLinesize desc w.toInt 0).toOption.getD 0
  let stride := (if linesize = 0 then 8 * w.toNat else linesize) + 128 * 8
  if w = 0 ∨ h = 0 ∨ intMax < w.toNat ∨ intMax < h.toNat ∨ intMax ≤ stride ∨ intMax ≤ stride * (h.toNat + 128) then
    .error einval
  else if maxPixels < 2 ^ 63 - 1 ∧ maxPixels < w.toNat * h.toNat then .error einval
  else .ok ()

def avImageCheckSize (w h : BitVec 32) : Except Int Unit := avImageCheckSize2 w h (2 ^ 63 - 1) none

structure Arrays where
  data : Fin 4 → Option Nat
  linesize : Fin 4 → Nat

def avImageFillArrays (desc : Option AVPixFmtDescriptor) (src : Option Nat) (width height : BitVec 32) (align : Nat) :
    Except Int (Nat × Arrays) := do
  avImageCheckSize width height
  let linesize ← avImageFillLinesizes desc width.toInt
  let filled ← avImageFillPointers desc height.toNat src (fun i => ffalign (linesize i) align)
  .ok (filled.1, ⟨filled.2, fun i => ffalign (linesize i) align⟩)

def avImageGetBufferSize (desc : Option AVPixFmtDescriptor) (width height : BitVec 32) (align : Nat) :
    Except Int Nat := do
  if desc.isNone then .error einval
  else do
    avImageCheckSize width height
    let linesize ← avImageFillLinesizes desc width.toInt
    let sizes ← avImageFillPlaneSizes desc height.toNat (fun i => ffalign (linesize i) align)
    totalSize 0 sizes

theorem bind_eq_ok {α β : Type} {x : Except Int α} {f : α → Except Int β} {b : β} (h : x >>= f = .ok b) :
    ∃ a, x = .ok a ∧ f a = .ok b := by
  cases x with
  | error e => cases h
  | ok a => exact ⟨a, rfl, h⟩

theorem inMemory_eq {desc : Option AVPixFmtDescriptor} {d : AVPixFmtDescriptor} (h : inMemory desc = .ok d) :
    desc = some d := by
  cases desc with
  | none => cases h
  | some e =>
      rw [inMemory] at h
      split at h
      · cases h
      · cases h
        rfl

theorem ceilRshift_eq (a b : Nat) : ceilRshift a b = (a + 2 ^ b - 1) / 2 ^ b := by
  rw [ceilRshift, Nat.shiftLeft_eq, Nat.one_mul, Nat.shiftRight_eq_div_pow]

@[simp] theorem ceilRshift_zero (a : Nat) : ceilRshift a 0 = a := by
  rw [ceilRshift_eq, Nat.pow_zero, Nat.div_one, Nat.add_sub_cancel]

theorem ceilRshift_pos {a : Nat} (b : Nat) (h : 0 < a) : 0 < ceilRshift a b := by
  have hpow : 0 < 2 ^ b := Nat.two_pow_pos b
  rw [ceilRshift_eq]
  exact Nat.div_pos (by omega) hpow

theorem imageGetLinesize_eq {d : AVPixFmtDescriptor} {w maxStep : Nat} {comp : Fin 4} (hbits : d.bitstream = false)
    (hfit : maxStep * ceilRshift w (if comp = 1 ∨ comp = 2 then d.log2ChromaW else 0) ≤ intMax) :
    imageGetLinesize w maxStep comp d =
      .ok (maxStep * ceilRshift w (if comp = 1 ∨ comp = 2 then d.log2ChromaW else 0)) := by
  have hneg : ¬ (w : Int) < 0 := Int.not_lt.mpr (Int.natCast_nonneg w)
  simp only [imageGetLinesize, hneg, if_false, hbits, Bool.false_eq_true, Int.toNat_natCast]
  generalize ceilRshift w (if comp = 1 ∨ comp = 2 then d.log2ChromaW else 0) = shiftedW at hfit ⊢
  refine if_neg ?_
  rintro ⟨hne, hlt⟩
  exact absurd ((Nat.le_div_iff_mul_le (Nat.pos_of_ne_zero hne)).mpr hfit) (Nat.not_le.mpr hlt)

theorem le_ffalign {a : Nat} (x : Nat) (h : 0 < a) : x ≤ ffalign x a := by
  have hand : (x + a - 1) &&& (a - 1) ≤ a - 1 := Nat.and_le_right
  rw [ffalign]
  omega

theorem dvd_ffalign (x k : Nat) : 2 ^ k ∣ ffalign x (2 ^ k) := by
  rw [ffalign, Nat.and_two_pow_sub_one_eq_mod]
  exact Nat.dvd_sub_mod _

theorem totalSize_eq {ret n : Nat} {sizes : List Nat} (h : totalSize ret sizes = .ok n) :
    n = ret + sizes.sum := by
  induction sizes generalizing ret with
  | nil =>
      obtain rfl : ret = n := by simpa [totalSize] using h
      rfl
  | cons s sizes ih =>
      rw [totalSize] at h
      split at h
      · cases h
      · rw [ih h, List.sum_cons, Nat.add_assoc]

theorem pointersFrom_eq {data size i off : Nat} {sizes : List Nat}
    (h : (pointersFrom data size sizes)[i]? = some off) : off = data + size + (sizes.take i).sum := by
  induction sizes generalizing data size i with
  | nil => simp [pointersFrom] at h
  | cons s sizes ih =>
      rw [pointersFrom] at h
      split at h
      · simp at h
      · cases i with
        | zero =>
            obtain rfl : data + size = off := by simpa using h
            rfl
        | succ i =>
            rw [List.getElem?_cons_succ] at h
            rw [ih h, List.take_succ_cons, List.sum_cons]
            omega

theorem pointersFrom_isSome {i : Nat} {sizes : List Nat} (data size : Nat) (hi : i < sizes.length) :
    ((pointersFrom data size sizes)[i]?).isSome ↔ ∀ k s, k ≤ i → sizes[k]? = some s → s ≠ 0 := by
  induction sizes generalizing data size i with
  | nil => exact absurd hi (Nat.not_lt_zero _)
  | cons s sizes ih =>
      rw [pointersFrom]
      split
      next hs => exact iff_of_false (by simp) fun h => h 0 s (Nat.zero_le _) rfl hs
      next hs =>
        cases i with
        | zero =>
            refine iff_of_true rfl fun k t hk ht => ?_
            obtain rfl := Nat.le_zero.mp hk
            obtain rfl : s = t := by simpa using ht
            exact hs
        | succ i =>
            rw [List.getElem?_cons_succ, ih (data + size) s (Nat.lt_of_succ_lt_succ hi)]
            constructor
            · intro h k t hk ht
              cases k with
              | zero =>
                  obtain rfl : s = t := by simpa using ht
                  exact hs
              | succ k => exact h k t (Nat.le_of_succ_le_succ hk) (by simpa using ht)
            · intro h k t hk ht
              exact h (k + 1) t (Nat.succ_le_succ hk) (by simpa using ht)

theorem laterPlaneSizes_eq {d : AVPixFmtDescriptor} {height : Nat} {linesizes : Fin 4 → Nat}
    {planes : List (Fin 4)} {sizes : List Nat} (h : laterPlaneSizes d height linesizes planes = .ok sizes) :
    sizes.length = planes.length ∧ ∀ k p s, planes[k]? = some p → sizes[k]? = some s →
      s = if ∀ q ∈ planes.take (k + 1), d.hasPlane q then d.rowsOf height p * linesizes p else 0 := by
  induction planes generalizing sizes with
  | nil =>
      obtain rfl : [] = sizes := by simpa [laterPlaneSizes] using h
      exact ⟨rfl, by simp⟩
  | cons i is ih =>
      rw [laterPlaneSizes] at h
      split at h
      next hi =>
        split at h
        · cases h
        · obtain ⟨rest, hrest, h⟩ := bind_eq_ok h
          cases h
          obtain ⟨hlen, hsizes⟩ := ih hrest
          refine ⟨congrArg (· + 1) hlen, ?_⟩
          intro k p s hp hs
          cases k with
          | zero =>
              obtain rfl : i = p := by simpa using hp
              rw [if_pos (by simpa using hi)]
              simpa using hs.symm
          | succ k => simpa [hi] using hsizes k p s hp hs
      next hi =>
        cases h
        refine ⟨by rw [List.length_replicate, List.length_cons], ?_⟩
        intro k p s _ hs
        rw [List.getElem?_replicate] at hs
        rw [if_neg (by simp [hi])]
        exact ((Option.some.inj (Option.ite_none_right_eq_some.mp hs).2)).symm

/-- The bytes of a plane; those of the second one of a format with a palette
are the palette. -/
def planeSize (d : AVPixFmtDescriptor) (height : Nat) (linesizes : Fin 4 → Nat) (p : Fin 4) : Nat :=
  if d.pal ∧ p = 1 then 256 * 4 else linesizes p * d.rowsOf height p

/-- The planes of a format: the pixels and their palette, or those before the
first in which no component has a byte. -/
def HasPlane (d : AVPixFmtDescriptor) (p : Fin 4) : Prop :=
  if d.pal then p ≤ 1 else ∀ q : Fin 4, 0 < q → q ≤ p → ∃ i, (d.comp i).plane = q ∧ (d.comp i).step ≠ 0

def Reached (d : AVPixFmtDescriptor) (p : Fin 4) : Prop :=
  if d.pal then p ≤ 1 else ∀ q : Fin 4, 0 < q → q ≤ p → d.hasPlane q = true

instance (d : AVPixFmtDescriptor) (p : Fin 4) : Decidable (HasPlane d p) :=
  inferInstanceAs (Decidable (if d.pal = true then _ else _))

instance (d : AVPixFmtDescriptor) (p : Fin 4) : Decidable (Reached d p) :=
  inferInstanceAs (Decidable (if d.pal = true then _ else _))

theorem reached_mono {d : AVPixFmtDescriptor} {p q : Fin 4} (hpq : q ≤ p) (h : Reached d p) : Reached d q := by
  unfold Reached at h ⊢
  split
  next hpal => rw [if_pos hpal] at h; exact hpq.trans h
  next hpal => rw [if_neg hpal] at h; exact fun r h0 hr => h r h0 (hr.trans hpq)

theorem reached_of_hasPlane {d : AVPixFmtDescriptor} {p : Fin 4} (h : HasPlane d p) : Reached d p := by
  unfold HasPlane at h
  unfold Reached
  split
  next hpal => rwa [if_pos hpal] at h
  next hpal =>
    rw [if_neg hpal] at h
    intro q h0 hq
    obtain ⟨i, hi, -⟩ := h q h0 hq
    exact List.any_eq_true.mpr ⟨i, List.mem_finRange i, decide_eq_true hi⟩

theorem planeSize_zero (d : AVPixFmtDescriptor) (height : Nat) (linesizes : Fin 4 → Nat) :
    planeSize d height linesizes 0 = linesizes 0 * height := by
  have hrows : d.rowsOf height 0 = height := ceilRshift_zero height
  rw [planeSize, if_neg (by simp), hrows]

theorem getElem?_laterPlanes (p : Fin 4) (h : p ≠ 0) : ([1, 2, 3] : List (Fin 4))[p.val - 1]? = some p := by
  revert p
  decide

theorem mem_laterPlanes (p q : Fin 4) (h : p ≠ 0) :
    q ∈ ([1, 2, 3] : List (Fin 4)).take (p.val - 1 + 1) ↔ 0 < q ∧ q ≤ p := by
  revert p q
  decide

/-- The size of every plane. -/
theorem avImageFillPlaneSizes_eq {d : AVPixFmtDescriptor} {height : Nat} {linesizes : Fin 4 → Nat}
    {sizes : List Nat} (h : avImageFillPlaneSizes (some d) height linesizes = .ok sizes) :
    sizes.length = 4 ∧ ∀ (p : Fin 4) s, sizes[p.val]? = some s →
      s = if Reached d p then planeSize d height linesizes p else 0 := by
  obtain ⟨_, hd, hok⟩ := bind_eq_ok h
  cases inMemory_eq hd
  split at hok
  · cases hok
  split at hok
  next hpal =>
    cases hok
    refine ⟨rfl, ?_⟩
    intro p s hs
    match p, hs with
    | 0, hs =>
        rw [planeSize_zero]
        simpa [Reached, hpal, eq_comm] using hs
    | 1, hs => simpa [Reached, planeSize, hpal, eq_comm] using hs
    | 2, hs | 3, hs => simpa [Reached, hpal, eq_comm] using hs
  next hpal =>
    obtain ⟨rest, hrest, hsum⟩ := bind_eq_ok hok
    cases hsum
    obtain ⟨hlen, hsizes⟩ := laterPlaneSizes_eq hrest
    refine ⟨congrArg (· + 1) hlen, ?_⟩
    intro p s hs
    by_cases hp : p = 0
    · subst hp
      have hreach : Reached d 0 := by
        rw [Reached, if_neg hpal]
        exact fun q h0 hq => absurd h0 (not_lt.mpr hq)
      rw [planeSize_zero, if_pos hreach]
      simpa [eq_comm] using hs
    · have hp' : p.val = p.val - 1 + 1 := by
        have hval : p.val ≠ 0 := fun h0 => hp (Fin.ext h0)
        omega
      rw [hp', List.getElem?_cons_succ] at hs
      have hsize := hsizes _ p s (getElem?_laterPlanes p hp) hs
      have hreach : (∀ q ∈ ([1, 2, 3] : List (Fin 4)).take (p.val - 1 + 1), d.hasPlane q) ↔ Reached d p := by
        rw [Reached, if_neg hpal]
        simp only [mem_laterPlanes p _ hp, and_imp]
      have hplane : planeSize d height linesizes p = d.rowsOf height p * linesizes p := by
        rw [planeSize, if_neg (fun hc => hpal hc.1), Nat.mul_comm]
      rw [hsize, hplane]
      exact if_congr hreach rfl rfl

theorem pointers_eq {base i off : Nat} {sizes : List Nat} (h : (pointers base sizes)[i]? = some off) :
    off = base + (sizes.take i).sum := by
  cases sizes with
  | nil => simp [pointers] at h
  | cons s sizes =>
      cases i with
      | zero =>
          obtain rfl : base = off := by simpa [pointers] using h
          rfl
      | succ i =>
          rw [pointers, List.getElem?_cons_succ] at h
          rw [pointersFrom_eq h, List.take_succ_cons, List.sum_cons, Nat.add_assoc]

theorem pointers_isSome {base i : Nat} {sizes : List Nat} (hi : i < sizes.length) :
    ((pointers base sizes)[i]?).isSome ↔ ∀ k s, 0 < k → k ≤ i → sizes[k]? = some s → s ≠ 0 := by
  cases sizes with
  | nil => exact absurd hi (Nat.not_lt_zero _)
  | cons s sizes =>
      cases i with
      | zero => exact iff_of_true rfl fun k _ hk hk0 => absurd hk (Nat.not_lt.mpr hk0)
      | succ i =>
          rw [pointers, List.getElem?_cons_succ, pointersFrom_isSome base s (Nat.lt_of_succ_lt_succ hi)]
          constructor
          · intro h k t h0 hk ht
            obtain ⟨m, rfl⟩ := Nat.exists_eq_succ_of_ne_zero (Nat.pos_iff_ne_zero.mp h0)
            exact h m t (Nat.le_of_succ_le_succ hk) (by simpa using ht)
          · intro h k t hk ht
            exact h (k + 1) t (Nat.succ_pos k) (Nat.succ_le_succ hk) (by simpa using ht)

theorem sum_take_add_le {sizes : List Nat} {i j s : Nat} (hs : sizes[i]? = some s) (h : i < j) :
    (sizes.take i).sum + s ≤ (sizes.take j).sum := by
  obtain ⟨hi, rfl⟩ := List.getElem?_eq_some_iff.mp hs
  rw [← List.sum_take_succ sizes i hi]
  exact List.monotone_sum_take sizes h

/-- The planes of a picture lie in a buffer, one after the other. They are just
those of the format, and their rows are long enough. -/
structure Laid (d : AVPixFmtDescriptor) (width : Int) (height align base n : Nat) (a : Arrays) : Prop where
  inside : ∀ p off, a.data p = some off → base ≤ off ∧ off + planeSize d height a.linesize p ≤ base + n
  apart : ∀ p q off off', p < q → a.data p = some off → a.data q = some off' →
    off + planeSize d height a.linesize p ≤ off'
  present : ∀ p, (a.data p).isSome ↔ HasPlane d p
  wide : ∀ p, ∃ c, linesizeOf d width p = .ok c ∧ c ≤ a.linesize p
  aligned : ∀ k, align = 2 ^ k → ∀ p, align ∣ a.linesize p

theorem planeSize_ne_zero {d : AVPixFmtDescriptor} {height : Nat} {linesizes : Fin 4 → Nat} {p : Fin 4}
    (hheight : 0 < height) (h : linesizes p ≠ 0) : planeSize d height linesizes p ≠ 0 := by
  rw [planeSize]
  split
  · decide
  · exact Nat.mul_ne_zero h (Nat.pos_iff_ne_zero.mp (ceilRshift_pos _ hheight))

theorem maxPixsteps_ne_zero (d : AVPixFmtDescriptor) (p : Fin 4) :
    (avImageFillMaxPixsteps d p).1 ≠ 0 ↔ ∃ i, (d.comp i).plane = p ∧ (d.comp i).step ≠ 0 := by
  have hfold : ∀ (is : List (Fin 4)) (acc : Fin 4 → Nat × Fin 4),
      (is.foldl (fun acc i =>
        if (acc (d.comp i).plane).1 < (d.comp i).step then
          Function.update acc (d.comp i).plane ((d.comp i).step, i)
        else acc) acc p).1 ≠ 0 ↔
        (acc p).1 ≠ 0 ∨ ∃ i ∈ is, (d.comp i).plane = p ∧ (d.comp i).step ≠ 0 := by
    intro is
    induction is with
    | nil => simp
    | cons i is ih =>
        intro acc
        rw [List.foldl_cons, ih]
        simp only [List.mem_cons, exists_eq_or_imp, ← or_assoc]
        refine or_congr_left ?_
        by_cases hp : (d.comp i).plane = p
        · subst hp
          split
          next hlt =>
            rw [Function.update_self]
            exact iff_of_true (Nat.ne_zero_of_lt hlt) (.inr ⟨rfl, Nat.ne_zero_of_lt hlt⟩)
          next hle =>
            refine ⟨.inl, fun h => h.elim id fun h => ?_⟩
            omega
        · split
          · rw [Function.update_of_ne (Ne.symm hp)]
            simp [hp]
          · simp [hp]
  rw [avImageFillMaxPixsteps, hfold]
  simp

theorem imageGetLinesize_ne_zero {d : AVPixFmtDescriptor} {width : Int} {maxStep n : Nat} {comp : Fin 4}
    (hwidth : 0 < width) (h : imageGetLinesize width maxStep comp d = .ok n) : n ≠ 0 ↔ maxStep ≠ 0 := by
  have hpos : 0 < ceilRshift width.toNat (if comp = 1 ∨ comp = 2 then d.log2ChromaW else 0) :=
    ceilRshift_pos _ (by omega)
  rw [imageGetLinesize, if_neg (by omega)] at h
  dsimp only at h
  generalize ceilRshift width.toNat (if comp = 1 ∨ comp = 2 then d.log2ChromaW else 0) = shiftedW at h hpos
  split at h
  · cases h
  · split at h
    · cases h
      rw [Nat.shiftRight_eq_div_pow]
      have hmul := Nat.le_mul_of_pos_right maxStep hpos
      rcases Nat.eq_zero_or_pos maxStep with rfl | hstep
      · simp
      · refine iff_of_true ?_ (Nat.pos_iff_ne_zero.mp hstep)
        exact Nat.pos_iff_ne_zero.mp (Nat.div_pos (by omega) (by decide))
    · cases h
      rw [Nat.mul_ne_zero_iff]
      exact and_iff_left (Nat.pos_iff_ne_zero.mp hpos)

theorem ffalign_ne_zero {x a : Nat} (h : 0 < a) : ffalign x a ≠ 0 ↔ x ≠ 0 := by
  have hle := le_ffalign x h
  constructor
  · rintro hne rfl
    exact hne (by simp [ffalign])
  · omega

theorem avImageFillPointers_eq {desc : Option AVPixFmtDescriptor} {height base n : Nat}
    {linesizes : Fin 4 → Nat} {data : Fin 4 → Option Nat}
    (h : avImageFillPointers desc height (some base) linesizes = .ok (n, data)) :
    ∃ sizes, avImageFillPlaneSizes desc height linesizes = .ok sizes ∧ n = sizes.sum ∧
      data = fun i => (pointers base sizes)[i.val]? := by
  obtain ⟨sizes, hsizes, h⟩ := bind_eq_ok h
  obtain ⟨m, htotal, h⟩ := bind_eq_ok h
  cases h
  exact ⟨sizes, hsizes, by rw [totalSize_eq htotal, Nat.zero_add], rfl⟩

theorem laid_of_fillPointers {d : AVPixFmtDescriptor} {width : Int} {height align base n : Nat}
    {linesizes : Fin 4 → Nat} {data : Fin 4 → Option Nat} (hwidth : 0 < width) (hheight : 0 < height)
    (halign : 0 < align) (hlines : ∀ p, linesizeOf d width p = .ok (linesizes p))
    (h : avImageFillPointers (some d) height (some base) (fun i => ffalign (linesizes i) align) = .ok (n, data)) :
    Laid d width height align base n ⟨data, fun i => ffalign (linesizes i) align⟩ := by
  obtain ⟨sizes, hsizes, rfl, rfl⟩ := avImageFillPointers_eq h
  obtain ⟨hlen, hsize⟩ := avImageFillPlaneSizes_eq hsizes
  have hline (p : Fin 4) : ffalign (linesizes p) align ≠ 0 ↔ ∃ i, (d.comp i).plane = p ∧ (d.comp i).step ≠ 0 := by
    rw [ffalign_ne_zero halign, imageGetLinesize_ne_zero hwidth (hlines p), maxPixsteps_ne_zero]
  have hsome (p : Fin 4) : ∃ s, sizes[p.val]? = some s :=
    ⟨_, List.getElem?_eq_getElem (by omega)⟩
  -- no size before a pointer is 0, so the plane has been come to
  have hreached {p : Fin 4} (h : ((pointers base sizes)[p.val]?).isSome) : Reached d p := by
    rw [pointers_isSome (by omega)] at h
    by_cases hp : p = 0
    · subst hp
      unfold Reached
      split
      · decide
      · exact fun q h0 hq => absurd h0 (not_lt.mpr hq)
    · obtain ⟨s, hs⟩ := hsome p
      by_contra hnot
      have hzero := hsize p s hs
      rw [if_neg hnot] at hzero
      exact h p.val s (Nat.pos_iff_ne_zero.mpr fun h0 => hp (Fin.ext h0)) (Nat.le_refl _) hs hzero
  have hat : ∀ (p : Fin 4) off, (pointers base sizes)[p.val]? = some off →
      off = base + (sizes.take p).sum ∧ sizes[p.val]? = some (planeSize d height (fun i => ffalign (linesizes i) align) p) := by
    intro p off hoff
    obtain ⟨s, hs⟩ := hsome p
    have hfull := hsize p s hs
    rw [if_pos (hreached (by rw [hoff]; rfl))] at hfull
    exact ⟨pointers_eq hoff, by rw [hs, hfull]⟩
  constructor
  · intro p off hoff
    obtain ⟨rfl, hs⟩ := hat p off hoff
    have hle := sum_take_add_le hs p.isLt
    rw [List.take_of_length_le (Nat.le_of_eq hlen)] at hle
    refine ⟨Nat.le_add_right _ _, ?_⟩
    dsimp only
    omega
  · intro p q off off' hpq hoff hoff'
    obtain ⟨rfl, hs⟩ := hat p off hoff
    obtain ⟨rfl, -⟩ := hat q off' hoff'
    have hle := sum_take_add_le hs hpq
    dsimp only
    omega
  · intro p
    constructor
    · intro hp
      have hreach := hreached hp
      rw [pointers_isSome (by omega)] at hp
      unfold HasPlane
      split
      next hpal => rwa [Reached, if_pos hpal] at hreach
      next hpal =>
        intro q h0 hq
        obtain ⟨s, hs⟩ := hsome q
        have hne := hp q.val s h0 hq hs
        rw [hsize q s hs, if_pos (reached_mono hq hreach), planeSize, if_neg (fun hc => hpal hc.1)] at hne
        exact (hline q).mp (Nat.mul_ne_zero_iff.mp hne).1
    · intro hp
      have hreach := reached_of_hasPlane hp
      rw [pointers_isSome (by omega)]
      intro k s h0 hk hs
      have hq : (⟨k, by omega⟩ : Fin 4) ≤ p := hk
      rw [hsize ⟨k, by omega⟩ s hs, if_pos (reached_mono hq hreach)]
      unfold HasPlane at hp
      split at hp
      next hpal =>
        have hone : (⟨k, by omega⟩ : Fin 4) = 1 :=
          le_antisymm (hq.trans hp) (Fin.one_le_of_ne_zero (by simp [Fin.ext_iff]; omega))
        rw [planeSize, if_pos ⟨hpal, hone⟩]
        decide
      next hpal => exact planeSize_ne_zero hheight ((hline _).mpr (hp _ h0 hq))
  · intro p
    exact ⟨linesizes p, hlines p, le_ffalign _ halign⟩
  · rintro k rfl p
    exact dvd_ffalign _ k

theorem totalSize_le {ret n : Nat} {sizes : List Nat} (hret : ret ≤ intMax) (h : totalSize ret sizes = .ok n) :
    n ≤ intMax := by
  induction sizes generalizing ret with
  | nil =>
      obtain rfl : ret = n := by simpa [totalSize] using h
      exact hret
  | cons s sizes ih =>
      rw [totalSize] at h
      split at h
      · cases h
      next hs => exact ih (by omega) h

theorem avImageCheckSize2_eq (w h : BitVec 32) (maxPixels : Int) (desc : Option AVPixFmtDescriptor) :
    avImageCheckSize2 w h maxPixels desc = .error einval ∨
      avImageCheckSize2 w h maxPixels desc = .ok () ∧
        w ≠ 0 ∧ h ≠ 0 ∧ w.toNat ≤ intMax ∧ h.toNat ≤ intMax := by
  rw [avImageCheckSize2]
  generalize (if _ = 0 then _ else _) + 128 * 8 = stride
  split
  · exact Or.inl rfl
  next hbad =>
    split
    · exact Or.inl rfl
    · simp only [not_or, Nat.not_lt] at hbad
      exact Or.inr ⟨rfl, hbad.1, hbad.2.1, hbad.2.2.1, hbad.2.2.2.1⟩

theorem avImageFillLinesizes_eq {desc : Option AVPixFmtDescriptor} {width : Int} {linesizes : Fin 4 → Nat}
    (h : avImageFillLinesizes desc width = .ok linesizes) :
    ∃ d, desc = some d ∧ ∀ p, linesizeOf d width p = .ok (linesizes p) := by
  obtain ⟨d, hd, h⟩ := bind_eq_ok h
  obtain ⟨s0, h0, h⟩ := bind_eq_ok h
  obtain ⟨s1, h1, h⟩ := bind_eq_ok h
  obtain ⟨s2, h2, h⟩ := bind_eq_ok h
  obtain ⟨s3, h3, h⟩ := bind_eq_ok h
  cases h
  refine ⟨d, inMemory_eq hd, ?_⟩
  intro p
  match p with
  | 0 => exact h0
  | 1 => exact h1
  | 2 => exact h2
  | 3 => exact h3

theorem map_fst_avImageFillArrays (desc : Option AVPixFmtDescriptor) (src : Option Nat) (w h : BitVec 32)
    (align : Nat) : (avImageFillArrays desc src w h align).map Prod.fst = avImageGetBufferSize desc w h align := by
  rw [avImageFillArrays, avImageGetBufferSize]
  rcases avImageCheckSize2_eq w h (2 ^ 63 - 1) none with hc | ⟨hc, -⟩
  · rw [avImageCheckSize, hc]
    split <;> rfl
  · rw [avImageCheckSize, hc]
    cases desc with
    | none => rfl
    | some d =>
        cases hl : avImageFillLinesizes (some d) w.toInt with
        | error e => rfl
        | ok linesize =>
            cases hs : avImageFillPlaneSizes (some d) h.toNat (fun i => ffalign (linesize i) align) with
            | error e => simp [bind, Except.bind, Except.map, avImageFillPointers, hs]
            | ok sizes =>
                cases ht : totalSize 0 sizes <;> cases src <;>
                  simp [bind, Except.bind, Except.map, avImageFillPointers, hs, ht]

theorem avImageCheckSize_ok {w h : BitVec 32} (hok : avImageCheckSize w h = .ok ()) :
    0 < w.toNat ∧ 0 < h.toNat ∧ w.toNat ≤ intMax := by
  rcases avImageCheckSize2_eq w h (2 ^ 63 - 1) none with hc | ⟨-, hw, hh, hwmax, -⟩
  · rw [avImageCheckSize, hc] at hok
    cases hok
  · exact ⟨Nat.pos_of_ne_zero fun h0 => hw (BitVec.eq_of_toNat_eq h0),
      Nat.pos_of_ne_zero fun h0 => hh (BitVec.eq_of_toNat_eq h0), hwmax⟩

theorem toInt_of_checkSize {w h : BitVec 32} (hok : avImageCheckSize w h = .ok ()) : w.toInt = w.toNat := by
  have hmax := (avImageCheckSize_ok hok).2.2
  exact BitVec.toInt_eq_toNat_of_lt (by rw [intMax] at hmax; omega)

theorem laid_of_fillArrays {desc : Option AVPixFmtDescriptor} {base align n : Nat} {w h : BitVec 32} {a : Arrays}
    (halign : 0 < align) (hok : avImageFillArrays desc (some base) w h align = .ok (n, a)) :
    avImageCheckSize w h = .ok () ∧ n ≤ intMax ∧ ∃ d, desc = some d ∧ Laid d w.toInt h.toNat align base n a := by
  obtain ⟨⟨⟩, hcheck, hfill⟩ := bind_eq_ok hok
  obtain ⟨linesize, hlines, hpoint⟩ := bind_eq_ok hfill
  obtain ⟨⟨m, data⟩, hdata, hret⟩ := bind_eq_ok hpoint
  cases hret
  obtain ⟨d, rfl, hrows⟩ := avImageFillLinesizes_eq hlines
  obtain ⟨sizes, -, htotal⟩ := bind_eq_ok hdata
  obtain ⟨k, hk, hret⟩ := bind_eq_ok htotal
  cases hret
  obtain ⟨hw, hh, -⟩ := avImageCheckSize_ok hcheck
  have hwidth : 0 < w.toInt := by
    rw [toInt_of_checkSize hcheck]
    exact_mod_cast hw
  exact ⟨hcheck, totalSize_le (Nat.zero_le _) hk, d, rfl, laid_of_fillPointers hwidth hh halign hrows hdata⟩

/-- The planes of a frame that av_image_fill_arrays points into a buffer lie in
one of the size av_image_get_buffer_size tells, and no two of them overlap. -/
theorem arrays_fit (desc : Option AVPixFmtDescriptor) (base : Nat) (w h : BitVec 32) (align : Nat)
    (halign : 0 < align) :
    (avImageFillArrays desc (some base) w h align).map Prod.fst = avImageGetBufferSize desc w h align ∧
      ∀ n a, avImageFillArrays desc (some base) w h align = .ok (n, a) →
        n ≤ intMax ∧ ∃ d, desc = some d ∧ Laid d w.toInt h.toNat align base n a :=
  ⟨map_fst_avImageFillArrays desc (some base) w h align, fun _ _ hok => (laid_of_fillArrays halign hok).2⟩

theorem arrays_fit_sample : ∃ a, avImageFillArrays (some yuv420p) (some 0) 5 3 1 = .ok (27, a) ∧
    Laid yuv420p 5 3 1 0 27 a := by
  obtain ⟨hsize, hlaid⟩ := arrays_fit (some yuv420p) 0 5 3 1 (by decide)
  have hbuffer : avImageGetBufferSize (some yuv420p) 5 3 1 = .ok 27 := by decide
  rw [hbuffer] at hsize
  cases hfill : avImageFillArrays (some yuv420p) (some 0) 5 3 1 with
  | error e =>
      rw [hfill] at hsize
      cases hsize
  | ok r =>
      rw [hfill] at hsize
      obtain ⟨n, a⟩ := r
      cases hsize
      obtain ⟨-, d, hd, hlaid⟩ := hlaid 27 a hfill
      cases hd
      exact ⟨a, rfl, hlaid⟩

end FfmpegPlayer.ImageBuffer
