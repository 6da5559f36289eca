import Mathlib.Data.List.Basic

namespace FfmpegPlayer

namespace SlidingBuffer

variable {α : Type*}

def blit (xs : List α) (n : Nat) (ys : List α) : List α := xs.take n ++ ys ++ xs.drop (n + ys.length)

theorem length_blit {xs ys : List α} {n : Nat} (h : n + ys.length ≤ xs.length) :
    (blit xs n ys).length = xs.length := by
  simp only [blit, List.length_append, List.length_take, List.length_drop]
  omega

theorem drop_blit {xs ys : List α} {i c : Nat} (h : i + c ≤ xs.length) :
    ((blit xs (i + c) ys).drop i).take (c + ys.length) = (xs.drop i).take c ++ ys := by
  have hlen : i ≤ (xs.take (i + c)).length := by rw [List.length_take]; omega
  have hdrop : (xs.take (i + c)).drop i = (xs.drop i).take c := by
    rw [List.drop_take, Nat.add_sub_cancel_left]
  rw [blit, List.append_assoc, List.drop_append_of_le_length hlen, hdrop, ← List.append_assoc]
  apply List.take_left'
  rw [List.length_append, List.length_take, List.length_drop]
  omega

end SlidingBuffer

/-- A buffer whose contents lie between two places that move up as elements are
added at the end and removed at the front. -/
structure SlidingBuffer (α : Type*) where
  data : List α
  start : Nat
  count : Nat
  fits : start + count ≤ data.length

namespace SlidingBuffer

variable {α : Type*}

def contents (b : SlidingBuffer α) : List α := (b.data.drop b.start).take b.count

def empty : SlidingBuffer α := ⟨[], 0, 0, Nat.le_refl _⟩

@[simp] theorem contents_empty : (empty : SlidingBuffer α).contents = [] := rfl

@[simp] theorem length_contents (b : SlidingBuffer α) : b.contents.length = b.count := by
  have h := b.fits
  rw [contents, List.length_take, List.length_drop]
  omega

def dropFront (b : SlidingBuffer α) (n : Nat) (h : n ≤ b.count) : SlidingBuffer α where
  data := b.data
  start := if b.count - n = 0 then 0 else b.start + n
  count := b.count - n
  fits := by
    have hb := b.fits
    split <;> omega

@[simp] theorem contents_dropFront (b : SlidingBuffer α) (n : Nat) (h : n ≤ b.count) :
    (b.dropFront n h).contents = b.contents.drop n := by
  have hlen := b.length_contents
  simp only [dropFront, contents]
  by_cases hall : b.count - n = 0
  · rw [hall, List.take_zero, eq_comm, List.drop_eq_nil_iff, ← contents]
    omega
  · rw [if_neg hall, List.drop_take, List.drop_drop]

/-- The contents are moved to the front. They are copied from a place they do
not overlap with. -/
def rewind (b : SlidingBuffer α) (_ : b.count ≤ b.start) : SlidingBuffer α where
  data := blit b.data 0 b.contents
  start := 0
  count := b.count
  fits := by
    have hb := b.fits
    have hroom : 0 + b.contents.length ≤ b.data.length := by rw [length_contents]; omega
    rw [length_blit hroom]
    omega

@[simp] theorem contents_rewind (b : SlidingBuffer α) (h : b.count ≤ b.start) :
    (b.rewind h).contents = b.contents := by
  change ((blit b.data 0 b.contents).drop 0).take b.count = b.contents
  rw [blit, List.take_zero, List.nil_append, List.drop_zero]
  exact List.take_left' b.length_contents

@[simp] theorem length_rewind (b : SlidingBuffer α) (h : b.count ≤ b.start) :
    (b.rewind h).data.length = b.data.length := by
  have hb := b.fits
  exact length_blit (by rw [length_contents]; omega)

theorem room_rewind (b : SlidingBuffer α) {n : Nat} (h : b.count + n ≤ b.start) :
    (b.rewind (Nat.le_of_add_right_le h)).start + (b.rewind (Nat.le_of_add_right_le h)).count + n ≤
      (b.rewind (Nat.le_of_add_right_le h)).data.length := by
  have hb := b.fits
  rw [length_rewind]
  change 0 + b.count + n ≤ b.data.length
  omega

def grow (b : SlidingBuffer α) (xs : List α) : SlidingBuffer α where
  data := b.data ++ xs
  start := b.start
  count := b.count
  fits := by
    have hb := b.fits
    rw [List.length_append]
    omega

@[simp] theorem contents_grow (b : SlidingBuffer α) (xs : List α) : (b.grow xs).contents = b.contents := by
  have hb := b.fits
  simp only [grow, contents]
  rw [List.drop_append_of_le_length (by omega), List.take_append_of_le_length]
  rw [List.length_drop]
  omega

theorem room_grow (b : SlidingBuffer α) {xs : List α} {n : Nat}
    (h : b.start + b.count + n ≤ b.data.length + xs.length) :
    (b.grow xs).start + (b.grow xs).count + n ≤ (b.grow xs).data.length := by
  rw [← List.length_append] at h
  exact h

def pushBack (b : SlidingBuffer α) (xs : List α) (h : b.start + b.count + xs.length ≤ b.data.length) :
    SlidingBuffer α where
  data := blit b.data (b.start + b.count) xs
  start := b.start
  count := b.count + xs.length
  fits := by
    rw [length_blit h]
    omega

@[simp] theorem contents_pushBack (b : SlidingBuffer α) (xs : List α)
    (h : b.start + b.count + xs.length ≤ b.data.length) :
    (b.pushBack xs h).contents = b.contents ++ xs :=
  drop_blit b.fits

@[simp] theorem length_pushBack (b : SlidingBuffer α) (xs : List α)
    (h : b.start + b.count + xs.length ≤ b.data.length) :
    (b.pushBack xs h).data.length = b.data.length :=
  length_blit h

end SlidingBuffer

end FfmpegPlayer
