import Mathlib.Data.List.Basic

namespace FfmpegPlayer.Fifo

variable {τ : Type*}

/-- One first-in first-out path of tokens from a producer to a consumer:
what the producer has taken for it, the token it still has in hand, the
queue, the token the consumer has popped, and what the consumer has sent on. -/
structure Lane (τ : Type*) where
  taken : List τ
  incoming : List τ
  queue : List τ
  popped : List τ
  sent : List τ

inductive Lane.Step : Lane τ → Lane τ → Prop
  | idle (l) : Step l l
  | take (l t) (h : l.incoming = []) :
      Step l { l with taken := l.taken ++ [t], incoming := [t] }
  | push (l t) (h : l.incoming = [t]) :
      Step l { l with incoming := [], queue := l.queue ++ [t] }
  | pop (l t q) (hq : l.queue = t :: q) (hp : l.popped = []) :
      Step l { l with queue := q, popped := [t] }
  | send (l t) (h : l.popped = [t]) :
      Step l { l with popped := [], sent := l.sent ++ [t] }

def Lane.InOrder (l : Lane τ) : Prop :=
  l.sent ++ l.popped ++ l.queue ++ l.incoming = l.taken

theorem Lane.Step.inOrder {l m : Lane τ} (h : Lane.Step l m) (hl : l.InOrder) : m.InOrder := by
  unfold Lane.InOrder at hl ⊢
  cases h with
  | idle => exact hl
  | take t h => rw [← hl, h]; simp
  | push t h => rw [← hl, h]; simp
  | pop t q hq hp => rw [← hl, hq, hp]; simp
  | send t h => rw [← hl, h]; simp

end FfmpegPlayer.Fifo
