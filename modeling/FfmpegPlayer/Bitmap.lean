import FfmpegPlayer.SlidingBuffer

namespace FfmpegPlayer.Bitmap

open SlidingBuffer

variable {α : Type*}

def read (mem : List α) (n c : Nat) : List α := (mem.drop n).take c

/-- A block written into a memory. A write beyond the end has no result. -/
def write (mem : List α) (n : Nat) (xs : List α) : Option (List α) :=
  if n + xs.length ≤ mem.length then some (blit mem n xs) else none

theorem write_of_fits {mem xs : List α} {n : Nat} (h : n + xs.length ≤ mem.length) :
    write mem n xs = some (blit mem n xs) :=
  if_pos h

theorem read_blit_self {mem xs : List α} {n : Nat} (h : n + xs.length ≤ mem.length) :
    read (blit mem n xs) n xs.length = xs := by
  have hn : n + 0 ≤ mem.length := by omega
  have hread : ((blit mem (n + 0) xs).drop n).take (0 + xs.length) = (mem.drop n).take 0 ++ xs := drop_blit hn
  rwa [Nat.add_zero, Nat.zero_add, List.take_zero, List.nil_append] at hread

theorem read_blit_before {mem xs : List α} {n m c : Nat} (h : n + xs.length ≤ mem.length) (hm : m + c ≤ n) :
    read (blit mem n xs) m c = read mem m c := by
  have hlen : m ≤ (mem.take n).length := by rw [List.length_take]; omega
  have hc : c ≤ ((mem.take n).drop m).length := by rw [List.length_drop, List.length_take]; omega
  rw [read, blit, List.append_assoc, List.drop_append_of_le_length hlen, List.take_append_of_le_length hc,
    List.drop_take, List.take_take, Nat.min_eq_left (by omega)]
  rfl

theorem read_blit_after {mem xs : List α} {n m : Nat} (c : Nat) (h : n + xs.length ≤ mem.length)
    (hm : n + xs.length ≤ m) : read (blit mem n xs) m c = read mem m c := by
  have hlen : (mem.take n ++ xs).length = n + xs.length := by
    rw [List.length_append, List.length_take]; omega
  rw [read, blit, List.drop_append, List.drop_of_length_le (by omega), List.nil_append, List.drop_drop, hlen,
    Nat.add_sub_of_le hm]
  rfl

theorem read_blit_apart {mem xs : List α} {n m c : Nat} (h : n + xs.length ≤ mem.length)
    (hm : m + c ≤ n ∨ n + xs.length ≤ m) : read (blit mem n xs) m c = read mem m c := by
  rcases hm with hm | hm
  · exact read_blit_before h hm
  · exact read_blit_after c h hm

theorem blit_append {mem xs ys : List α} {n : Nat} (h : n + xs.length ≤ mem.length) :
    blit mem n (xs ++ ys) = blit (blit mem n xs) (n + xs.length) ys := by
  have hlen : (mem.take n ++ xs).length = n + xs.length := by
    rw [List.length_append, List.length_take]; omega
  have htake : (blit mem n xs).take (n + xs.length) = mem.take n ++ xs := by
    rw [blit, List.take_left' hlen]
  have hdrop : (blit mem n xs).drop (n + xs.length + ys.length) = mem.drop (n + (xs ++ ys).length) := by
    rw [blit, List.drop_append, List.drop_of_length_le (by omega), List.nil_append, List.drop_drop, hlen,
      List.length_append]
    congr 1
    omega
  rw [blit, blit, htake, hdrop, ← List.append_assoc (mem.take n)]

theorem write_append (mem xs ys : List α) (n : Nat) :
    write mem n (xs ++ ys) = (write mem n xs).bind fun mem' => write mem' (n + xs.length) ys := by
  by_cases h : n + xs.length ≤ mem.length
  · rw [write_of_fits h, Option.bind_some, write, write, length_blit h, List.length_append, Nat.add_assoc,
      blit_append h]
  · rw [write, write, if_neg h, if_neg (by rw [List.length_append]; omega), Option.bind_none]

def writeRows (mem : List α) (n pitch : Nat) : List (List α) → Option (List α)
  | [] => some mem
  | row :: rows => (write mem n row).bind fun mem' => writeRows mem' (n + pitch) pitch rows

/-- Rows without a gap between them may be written all at once. -/
theorem write_flatten {rows : List (List α)} {pitch : Nat} (h : ∀ row ∈ rows, row.length = pitch)
    (mem : List α) (n : Nat) (hn : n ≤ mem.length) : write mem n rows.flatten = writeRows mem n pitch rows := by
  induction rows generalizing mem n with
  | nil => rw [List.flatten_nil, writeRows, write_of_fits hn, blit, List.append_nil, List.length_nil, Nat.add_zero,
      List.take_append_drop]
  | cons row rows ih =>
      rw [List.flatten_cons, write_append, writeRows, h row List.mem_cons_self]
      by_cases hfit : n + row.length ≤ mem.length
      · rw [write_of_fits hfit]
        apply ih (fun r hr => h r (List.mem_cons_of_mem _ hr))
        rw [length_blit hfit, ← h row List.mem_cons_self]
        exact hfit
      · rw [write, if_neg hfit]
        rfl

/-- The outcome of writing rows of one length: they are there, and nothing
before the first or after the last has changed. -/
structure Written (mem : List α) (n pitch width : Nat) (rows : List (List α)) (mem' : List α) : Prop where
  length : mem'.length = mem.length
  row : ∀ i row, rows[i]? = some row → read mem' (n + pitch * i) width = row
  apart : ∀ m c, m + c ≤ n ∨ n + pitch * rows.length ≤ m → read mem' m c = read mem m c

theorem Written.cons {mem mem' row : List α} {rows : List (List α)} {n pitch : Nat} (hle : row.length ≤ pitch)
    (hfit : n + row.length ≤ mem.length)
    (h : Written (blit mem n row) (n + pitch) pitch row.length rows mem') :
    Written mem n pitch row.length (row :: rows) mem' := by
  refine ⟨h.length.trans (length_blit hfit), ?_, ?_⟩
  · intro i r hr
    cases i with
    | zero =>
        obtain rfl : row = r := by simpa using hr
        rw [Nat.mul_zero, Nat.add_zero, h.apart n row.length (Or.inl (by omega))]
        exact read_blit_self hfit
    | succ i =>
        rw [Nat.mul_succ, Nat.add_comm _ pitch, ← Nat.add_assoc]
        exact h.row i r hr
  · intro m c hm
    rw [List.length_cons, Nat.mul_succ] at hm
    rw [h.apart m c (by omega)]
    exact read_blit_apart hfit (by omega)

theorem writeRows_spec {rows : List (List α)} {pitch width : Nat} (hrows : ∀ row ∈ rows, row.length = width)
    (hle : width ≤ pitch) {mem : List α} {n : Nat} (hfit : n + pitch * rows.length ≤ mem.length) :
    ∃ mem', writeRows mem n pitch rows = some mem' ∧ Written mem n pitch width rows mem' := by
  induction rows generalizing mem n with
  | nil => exact ⟨mem, rfl, rfl, by simp, fun _ _ _ => rfl⟩
  | cons row rows ih =>
      obtain rfl : row.length = width := hrows row List.mem_cons_self
      rw [List.length_cons, Nat.mul_succ] at hfit
      have hrow : n + row.length ≤ mem.length := by omega
      have hrest : n + pitch + pitch * rows.length ≤ (blit mem n row).length := by
        rw [length_blit hrow]
        omega
      obtain ⟨mem', hmem', hw⟩ := ih (fun r hr => hrows r (List.mem_cons_of_mem _ hr)) hrest
      exact ⟨mem', by rw [writeRows, write_of_fits hrow, Option.bind_some, hmem'], hw.cons hle hrow⟩

/-- Rows read `pitch` apart. A read beyond the end has no result. -/
def readRows (mem : List α) (n pitch width height : Nat) : Option (List (List α)) :=
  if ∀ i < height, n + pitch * i + width ≤ mem.length then
    some ((List.range height).map fun i => read mem (n + pitch * i) width)
  else none

structure Plane where
  offset : Nat
  pitch : Nat
  width : Nat
  height : Nat
  width_le : width ≤ pitch

namespace Plane

def size (p : Plane) : Nat := p.pitch * p.height

def stop (p : Plane) : Nat := p.offset + p.size

def row (p : Plane) (mem : List α) (i : Nat) : List α := read mem (p.offset + p.pitch * i) p.width

def rows (p : Plane) (mem : List α) : List (List α) := (List.range p.height).map (p.row mem)

@[simp] theorem length_rows (p : Plane) (mem : List α) : (p.rows mem).length = p.height := by
  rw [rows, List.length_map, List.length_range]

@[simp] theorem getElem_rows (p : Plane) (mem : List α) {i : Nat} (h : i < (p.rows mem).length) :
    (p.rows mem)[i] = p.row mem i := by
  simp only [rows, List.getElem_map, List.getElem_range]

theorem row_fits (p : Plane) {i : Nat} (h : i < p.height) : p.offset + p.pitch * i + p.width ≤ p.stop := by
  have hle := p.width_le
  have hmul : p.pitch * (i + 1) ≤ p.size := Nat.mul_le_mul_left _ h
  rw [Nat.mul_succ] at hmul
  rw [stop]
  omega

theorem readRows_eq {p : Plane} {mem : List α} (hfit : p.stop ≤ mem.length) :
    readRows mem p.offset p.pitch p.width p.height = some (p.rows mem) :=
  if_pos fun _ hi => Nat.le_trans (p.row_fits hi) hfit

def Apart (p q : Plane) : Prop := p.stop ≤ q.offset ∨ q.stop ≤ p.offset

/-- Rows written over the first ones of a plane show in that plane, and in no
other plane apart from it. -/
theorem writeRows_rows {p : Plane} {mem : List α} (hfit : p.stop ≤ mem.length) {rows : List (List α)}
    (hwidth : ∀ row ∈ rows, row.length = p.width) (hle : rows.length ≤ p.height) :
    ∃ mem', writeRows mem p.offset p.pitch rows = some mem' ∧ mem'.length = mem.length ∧
      p.rows mem' = blit (p.rows mem) 0 rows ∧ ∀ q : Plane, p.Apart q → q.rows mem' = q.rows mem := by
  have hsize : p.pitch * rows.length ≤ p.size := Nat.mul_le_mul_left _ hle
  have hfits : p.offset + p.pitch * rows.length ≤ mem.length := by
    rw [stop] at hfit
    omega
  obtain ⟨mem', hmem', hw⟩ := writeRows_spec hwidth p.width_le hfits
  refine ⟨mem', hmem', hw.length, ?_, ?_⟩
  · apply List.ext_getElem
    · rw [length_rows, length_blit (by rw [length_rows]; omega), length_rows]
    intro i hi _
    rw [length_rows] at hi
    simp only [blit, List.take_zero, List.nil_append, Nat.zero_add, getElem_rows]
    by_cases hnew : i < rows.length
    · rw [List.getElem_append_left hnew]
      exact hw.row i _ (List.getElem?_eq_getElem hnew)
    · rw [List.getElem_append_right (by omega), List.getElem_drop, getElem_rows,
        Nat.add_sub_of_le (Nat.le_of_not_lt hnew)]
      have hmul : p.pitch * rows.length ≤ p.pitch * i := Nat.mul_le_mul_left _ (Nat.le_of_not_lt hnew)
      exact hw.apart _ _ (Or.inr (by omega))
  · intro q hq
    apply List.map_congr_left
    intro i hi
    have hi' := q.row_fits (List.mem_range.mp hi)
    apply hw.apart
    rcases hq with hq | hq
    · right
      rw [stop] at hq
      omega
    · left
      omega

end Plane

end FfmpegPlayer.Bitmap
