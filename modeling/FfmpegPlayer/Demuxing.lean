import FfmpegPlayer.ReadFrame
import FfmpegPlayer.Packets

namespace FfmpegPlayer.Demuxing

open SendReceive Media Threads Interleaving Packets ReadFrame

variable {n : Nat} {σ : Type} {P : Player}

def payload (p : Packet n) : Payload := ⟨p.stream.val, p.data⟩

structure FileOf (s : AVFormatContext n σ) (c : FFFormatContext n σ) (file : List Payload) : Prop where
  opened : c.packetBuffer = [] ∧ c.parseQueue = []
  read : ∃ m k, none ∈ reads s k (findStreamInfo s m c) ∧
    file = (reads s k (findStreamInfo s m c)).reduceOption.map payload

variable {s : AVFormatContext n σ} {c : FFFormatContext n σ} {file : List Payload}

theorem FileOf.eq (h : FileOf s c file) :
    file = (framesOf s c.parsing (c.raw.packets ++ kept s c.source)).map payload := by
  obtain ⟨m, k, hend, rfl⟩ := h.read
  rw [reduceOption_reads s hend, remaining_findStreamInfo, remaining, unread, h.opened.1, h.opened.2]
  rfl

def bytewise : AVParser Unit where
  init := ()
  parse _ data := ⟨1, data.take 1, ()⟩
  left _ data := data.length
  progress _ data h := by
    cases data with
    | nil => simp at h
    | cons x xs => exact Nat.lt_succ_self _

end FfmpegPlayer.Demuxing
