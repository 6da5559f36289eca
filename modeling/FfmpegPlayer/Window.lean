import Mathlib.Data.List.Infix
import Mathlib.Tactic.Common

namespace FfmpegPlayer.Window

variable {α : Type*}

def Shows (file : List α) (start : Nat) (data : List α) : Prop := data <+: file.drop start

variable {file xs ys : List α} {start n : Nat}

theorem shows_nil (file : List α) (start : Nat) : Shows file start [] := List.nil_prefix

theorem shows_take (file : List α) (start n : Nat) : Shows file start ((file.drop start).take n) :=
  List.take_prefix n _

theorem Shows.eq_take (h : Shows file start xs) : xs = (file.drop start).take xs.length :=
  List.prefix_iff_eq_take.mp h

theorem Shows.length_le (h : Shows file start xs) : xs.length ≤ file.length - start := by
  have hle := List.IsPrefix.length_le h
  rwa [List.length_drop] at hle

theorem Shows.append (hx : Shows file start xs) (hy : Shows file (start + xs.length) ys) :
    Shows file start (xs ++ ys) := by
  obtain ⟨rest, hrest⟩ := hx
  have hdrop : file.drop (start + xs.length) = rest := by
    rw [← List.drop_drop, ← hrest, List.drop_left]
  rw [Shows, hdrop] at hy
  rw [Shows, ← hrest]
  exact (List.prefix_append_right_inj xs).mpr hy

theorem Shows.drop (h : Shows file start xs) (n : Nat) : Shows file (start + n) (xs.drop n) := by
  rw [Shows, ← List.drop_drop]
  exact List.IsPrefix.drop h n

theorem Shows.take (h : Shows file start xs) (n : Nat) : Shows file start (xs.take n) :=
  (List.take_prefix n xs).trans h

theorem Shows.getElem? (h : Shows file start xs) {i : Nat} (hi : i < xs.length) :
    xs[i]? = file[start + i]? := by
  obtain ⟨rest, hrest⟩ := h
  rw [← List.getElem?_drop, ← hrest, List.getElem?_append_left hi]

/-- A block that is as long as wanted or reaches the end of the file is what
there is to read. -/
theorem Shows.eq_take_of_le (h : Shows file start xs) (hle : xs.length ≤ n)
    (hfull : xs.length < n → file.length ≤ start + xs.length) : xs = (file.drop start).take n := by
  have hlen := h.length_le
  rw [h.eq_take]
  rcases Nat.lt_or_ge xs.length n with hlt | hge
  · have hend := hfull hlt
    rw [List.take_of_length_le (by rw [List.length_drop]; omega), List.take_of_length_le (by
      rw [List.length_drop]; omega)]
  · rw [Nat.le_antisymm hle hge]

end FfmpegPlayer.Window
