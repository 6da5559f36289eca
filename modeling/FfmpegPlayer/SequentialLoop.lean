import FfmpegPlayer.SendReceive
import Mathlib.Computability.StateTransition
import Mathlib.Data.List.Infix

namespace FfmpegPlayer.SequentialLoop

open SendReceive StateTransition

variable {π φ : Type}

structure Loop (c : Codec π φ) where
  phase : Phase
  todo : List π
  frames : List φ
  dec : c.State

def Loop.start (c : Codec π φ) (ps : List π) : Loop c := ⟨.idle, ps, [], c.init⟩

variable {c : Codec π φ} {l m n : Loop c}

def Loop.next (l : Loop c) : Option (Loop c) :=
  match l.phase, l.todo with
  | .idle, [] => none
  | .idle, p :: ps =>
      let r := c.send l.dec (some p)
      some { l with phase := if r.1 = 0 then .reading else .idle, todo := ps, dec := r.2 }
  | .reading, _ =>
      let r := c.receive l.dec
      some (if r.1 = 0 then { l with frames := l.frames ++ [r.2.1], dec := r.2.2 }
        else { l with phase := .idle, dec := r.2.2 })

theorem Loop.next_send (p : π) (ps : List π) (fs : List φ) (d : c.State) :
    Loop.next ⟨.idle, p :: ps, fs, d⟩ =
      some ⟨if (c.send d (some p)).1 = 0 then .reading else .idle, ps, fs, (c.send d (some p)).2⟩ := rfl

theorem Loop.next_frame (ps : List π) (fs : List φ) {d : c.State} (h : (c.receive d).1 = 0) :
    Loop.next ⟨.reading, ps, fs, d⟩ =
      some ⟨.reading, ps, fs ++ [(c.receive d).2.1], (c.receive d).2.2⟩ := by
  simp [Loop.next, h]

theorem Loop.next_stop (ps : List π) (fs : List φ) {d : c.State} (h : (c.receive d).1 ≠ 0) :
    Loop.next ⟨.reading, ps, fs, d⟩ = some ⟨.idle, ps, fs, (c.receive d).2.2⟩ := by
  simp [Loop.next, h]

theorem Loop.next_eq_none (hi : l.phase = .idle) (ht : l.todo = []) : l.next = none := by
  rw [Loop.next, hi, ht]

theorem Loop.next_frames (h : l.next = some m) : l.frames <+: m.frames := by
  unfold Loop.next at h
  split at h
  next => cases h
  next => cases h; exact List.prefix_refl _
  next =>
    cases h
    split
    · exact List.prefix_append _ _
    · exact List.prefix_refl _

theorem frames_of_reaches (h : Reaches Loop.next l m) : l.frames <+: m.frames := by
  induction h with
  | refl => exact List.prefix_refl _
  | tail _ hnext ih => exact ih.trans (Loop.next_frames hnext)

def Comparable {α : Type*} (xs ys : List α) : Prop := xs <+: ys ∨ ys <+: xs

theorem Comparable.of_initial_segments {α : Type*} {xs ys xs' ys' : List α} (h : Comparable xs ys)
    (hx : xs' <+: xs) (hy : ys' <+: ys) : Comparable xs' ys' := by
  rcases h with h | h
  · exact List.prefix_or_prefix_of_prefix (hx.trans h) hy
  · exact List.prefix_or_prefix_of_prefix hx (hy.trans h)

theorem Comparable.map {α β : Type*} {xs ys : List α} (h : Comparable xs ys) (f : α → β) :
    Comparable (xs.map f) (ys.map f) :=
  h.imp (fun h => h.map f) (fun h => h.map f)

/-- Two views of one loop have made the same frames as far as both have got. -/
theorem frames_comparable (hm : Reaches Loop.next l m) (hn : Reaches Loop.next l n) :
    Comparable m.frames n.frames :=
  (reaches_total hm hn).imp frames_of_reaches frames_of_reaches

/-- A loop that has come to its end has made all the frames it ever makes. -/
theorem frames_of_halted (hm : Reaches Loop.next l m) (hhalt : m.next = none) (hn : Reaches Loop.next l n) :
    n.frames <+: m.frames := by
  rcases reaches_total hm hn with hmn | hnm
  · rcases Relation.ReflTransGen.cases_head hmn with rfl | ⟨u, hu, -⟩
    · exact List.prefix_refl _
    · rw [hhalt] at hu
      cases hu
  · exact frames_of_reaches hnm

/-- What the decoding loop comes to with some packets it comes to with more of them after these. -/
theorem reaches_of_decodes {ph : Phase} {ps : List π} {fs : List φ} {d : c.State} (h : Decodes c ph ps fs d) :
    ∀ qs, Reaches Loop.next (Loop.start c (ps ++ qs)) ⟨ph, qs, fs, d⟩ := by
  induction h with
  | init => exact fun qs => .refl
  | @reject ps fs s p h hr ih =>
      intro qs
      rw [List.append_assoc, List.singleton_append]
      refine (ih (p :: qs)).tail ?_
      simp [Loop.next, hr]
  | @accept ps fs s p h hr ih =>
      intro qs
      rw [List.append_assoc, List.singleton_append]
      refine (ih (p :: qs)).tail ?_
      simp [Loop.next, hr]
  | frame h hr ih => exact fun qs => (ih qs).tail (Loop.next_frame qs _ hr)
  | stop h hr ih => exact fun qs => (ih qs).tail (Loop.next_stop qs _ hr)

/-- The frames of some packets come before those of the packets after them. -/
theorem frames_of_decodes {ph : Phase} {ps qs : List π} {fs gs : List φ} {d e : c.State}
    (h : Decodes c ph ps fs d) (hall : Decodes c .idle (ps ++ qs) gs e) : fs <+: gs := by
  have hend := reaches_of_decodes hall []
  rw [List.append_nil] at hend
  exact frames_of_halted hend (Loop.next_eq_none rfl rfl) (reaches_of_decodes h qs)

theorem frames_unique {ps : List π} {fs gs : List φ} {d e : c.State} (h : Decodes c .idle ps fs d)
    (h' : Decodes c .idle ps gs e) : fs = gs := by
  have hle {fs gs : List φ} {d e : c.State} (h : Decodes c .idle ps fs d) (h' : Decodes c .idle ps gs e) :
      fs <+: gs := by
    rw [← List.append_nil ps] at h'
    exact frames_of_decodes h h'
  exact (hle h h').eq_of_length_le (hle h' h).length_le

def measured {β : Type} (c : Codec π φ) (g : c.State → β) : Codec π (φ × β) where
  State := c.State
  init := c.init
  send := c.send
  receive s := ((c.receive s).1, ((c.receive s).2.1, g (c.receive s).2.2), (c.receive s).2.2)

end FfmpegPlayer.SequentialLoop
