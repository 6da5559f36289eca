import Mathlib.Data.List.Basic

namespace FfmpegPlayer.SendReceive

/-- A decoder seen through its send and receive calls. Both return 0 or a
negative error code; sending `none` is the flush packet. -/
structure Codec (π φ : Type) where
  State : Type
  init : State
  send : State → Option π → Int × State
  receive : State → Int × φ × State

def eagain : Int := -11

def eof : Int := -541478725

inductive Call (π φ : Type)
  | send (p : π) (code : Int)
  | receive (code : Int) (f : φ)
deriving DecidableEq

variable {π π' φ : Type}

def Call.code : Call π φ → Int
  | .send _ r | .receive r _ => r

def Call.packet : Call π φ → Option π
  | .send p _ => some p
  | .receive _ _ => none

def Call.frame : Call π φ → Option φ
  | .send _ _ => none
  | .receive r f => if r = 0 then some f else none

def sent (calls : List (Call π φ)) : List π := calls.filterMap Call.packet

def frames (calls : List (Call π φ)) : List φ := calls.filterMap Call.frame

@[simp] theorem sent_send (calls : List (Call π φ)) (p : π) (r : Int) :
    sent (calls ++ [.send p r]) = sent calls ++ [p] := by
  simp [sent, Call.packet]

@[simp] theorem sent_receive (calls : List (Call π φ)) (r : Int) (f : φ) :
    sent (calls ++ [.receive r f]) = sent calls := by
  simp [sent, Call.packet]

@[simp] theorem frames_send (calls : List (Call π φ)) (p : π) (r : Int) :
    frames (calls ++ [.send p r]) = frames calls := by
  simp [frames, Call.frame]

@[simp] theorem frames_receive (calls : List (Call π φ)) (r : Int) (f : φ) :
    frames (calls ++ [.receive r f]) = frames calls ++ (if r = 0 then [f] else []) := by
  by_cases hr : r = 0 <;> simp [frames, Call.frame, hr]

def accepted (calls : List (Call π φ)) : List π :=
  calls.filterMap (fun c => if c.code = 0 then c.packet else none)

theorem length_accepted_le (calls : List (Call π φ)) :
    (accepted calls).length ≤ (sent calls).length := by
  induction calls with
  | nil => exact Nat.le_refl _
  | cons c calls ih =>
      simp only [accepted, sent, List.filterMap_cons] at ih ⊢
      cases hp : c.packet with
      | none => simpa using ih
      | some p =>
          by_cases hc : c.code = 0
          · simpa [hc] using ih
          · simpa [hc] using Nat.le_succ_of_le ih

inductive Phase
  | idle
  | reading

/-- The decoding loop on its own: one send for each packet, and after an
accepted packet receives until one of them does not return a frame. -/
inductive Decodes (c : Codec π φ) : Phase → List π → List φ → c.State → Prop
  | init : Decodes c .idle [] [] c.init
  | reject {ps fs s} (p : π) (h : Decodes c .idle ps fs s) (hr : (c.send s (some p)).1 ≠ 0) :
      Decodes c .idle (ps ++ [p]) fs (c.send s (some p)).2
  | accept {ps fs s} (p : π) (h : Decodes c .idle ps fs s) (hr : (c.send s (some p)).1 = 0) :
      Decodes c .reading (ps ++ [p]) fs (c.send s (some p)).2
  | frame {ps fs s} (h : Decodes c .reading ps fs s) (hr : (c.receive s).1 = 0) :
      Decodes c .reading ps (fs ++ [(c.receive s).2.1]) (c.receive s).2.2
  | stop {ps fs s} (h : Decodes c .reading ps fs s) (hr : (c.receive s).1 ≠ 0) :
      Decodes c .idle ps fs (c.receive s).2.2

inductive Drains (c : Codec π φ) : c.State → List φ → Prop
  | done {s} (h : (c.receive s).1 = eof) : Drains c s []
  | frame {s fs} (h : (c.receive s).1 = 0) (hd : Drains c (c.receive s).2.2 fs) :
      Drains c s ((c.receive s).2.1 :: fs)

def Produces (c : Codec π φ) (ps : List π) (fs : List φ) : Prop :=
  ∃ gs hs s, Decodes c .idle ps gs s ∧ (c.send s none).1 = 0 ∧
    Drains c (c.send s none).2 hs ∧ fs = gs ++ hs

/-- The documented rules about EAGAIN: a packet is refused only while output
is unread, and a receive that asks for input leaves no output unread. -/
structure Contract (c : Codec π φ) where
  unread : c.State → Prop
  init_read : ¬ unread c.init
  send_refused : ∀ s p, (c.send s p).1 = eagain → unread s
  frame_unread : ∀ s, (c.receive s).1 = 0 → unread s
  receive_empty : ∀ s, (c.receive s).1 = eagain → ¬ unread s ∧ ¬ unread (c.receive s).2.2

structure RunsDry (c : Codec π φ) where
  left : c.State → Nat
  frame : ∀ s, (c.receive s).1 = 0 → left (c.receive s).2.2 < left s

/-- What the last call on a decoder says about the output it still holds. -/
def Settled {c : Codec π φ} (k : Contract c) (calls : List (Call π' φ)) (s : c.State) : Prop :=
  (calls = [] → ¬ k.unread s) ∧
  (∀ f, calls.getLast? = some (.receive eagain f) → ¬ k.unread s)

theorem settled_init {c : Codec π φ} (k : Contract c) :
    Settled k ([] : List (Call π' φ)) c.init :=
  ⟨fun _ => k.init_read, by simp⟩

theorem settled_send {c : Codec π φ} (k : Contract c) (calls : List (Call π' φ)) (p : π')
    (r : Int) (s : c.State) : Settled k (calls ++ [.send p r]) s := by
  constructor <;> simp

theorem settled_receive {c : Codec π φ} (k : Contract c) (calls : List (Call π' φ)) (s : c.State) :
    Settled k (calls ++ [.receive (c.receive s).1 (c.receive s).2.1]) (c.receive s).2.2 := by
  refine ⟨by simp, fun f h => ?_⟩
  simp only [List.getLast?_append, List.getLast?_singleton, Option.some_or, Option.some.injEq,
    Call.receive.injEq] at h
  exact (k.receive_empty s h.1).2

theorem Settled.accepts {c : Codec π φ} {k : Contract c} {calls : List (Call π' φ)} {s : c.State}
    (h : Settled k calls s) (hl : calls = [] ∨ ∃ f, calls.getLast? = some (.receive eagain f))
    (p : Option π) : (c.send s p).1 ≠ eagain := by
  intro hs
  have hu := k.send_refused s p hs
  rcases hl with hl | ⟨f, hl⟩
  · exact h.1 hl hu
  · exact h.2 f hl hu

/-- A decoder that makes one frame of each packet and holds the last `delay`
frames back until it is flushed. -/
def delaying (delay : Nat) (decode : π → φ) (blank : φ) : Codec π φ where
  State := List φ × Bool
  init := ([], false)
  send
    | (fs, true), _ => (eof, (fs, true))
    | (fs, false), none => (0, (fs, true))
    | (fs, false), some p => (0, (fs ++ [decode p], false))
  receive
    | ([], true) => (eof, blank, ([], true))
    | (f :: fs, true) => (0, f, (fs, true))
    | ([], false) => (eagain, blank, ([], false))
    | (f :: fs, false) =>
        if delay ≤ fs.length then (0, f, (fs, false)) else (eagain, blank, (f :: fs, false))

def delayingContract (delay : Nat) (decode : π → φ) (blank : φ) :
    Contract (delaying delay decode blank) where
  unread s := ((delaying delay decode blank).receive s).1 = 0
  init_read := by simp [delaying, eagain]
  send_refused s p h := by
    obtain ⟨fs, flushed⟩ := s
    cases flushed <;> cases p <;> simp [delaying, eagain, eof] at h
  frame_unread _ h := h
  receive_empty s h := by
    obtain ⟨fs, flushed⟩ := s
    cases flushed with
    | true => cases fs <;> simp [delaying, eagain, eof] at h
    | false =>
        cases fs with
        | nil => simp [delaying, eagain]
        | cons f fs =>
            by_cases hd : delay ≤ fs.length
            · simp [delaying, eagain, hd] at h
            · simp [delaying, eagain, hd]

/-- Without delay each packet's frame is returned before the next is sent. -/
theorem Decodes.of_prompt {decode : π → φ} {blank : φ} {ph : Phase} {ps : List π} {fs : List φ}
    {s : (delaying 0 decode blank).State} (h : Decodes (delaying 0 decode blank) ph ps fs s) :
    fs ++ s.1 = ps.map decode ∧ s.2 = false ∧ (ph = .idle → s.1 = []) := by
  induction h with
  | init => exact ⟨rfl, rfl, fun _ => rfl⟩
  | @reject ps fs s p h hr ih =>
      obtain ⟨gs, flushed⟩ := s
      obtain rfl : flushed = false := ih.2.1
      exact absurd rfl hr
  | @accept ps fs s p h hr ih =>
      obtain ⟨gs, flushed⟩ := s
      obtain ⟨hfs, rfl, hidle⟩ := ih
      obtain rfl : gs = [] := hidle rfl
      rw [List.append_nil] at hfs
      exact ⟨by simp [delaying, hfs], rfl, by simp⟩
  | @frame ps fs s h hr ih =>
      obtain ⟨gs, flushed⟩ := s
      obtain ⟨hfs, rfl, -⟩ := ih
      cases gs with
      | nil => simp [delaying, eagain] at hr
      | cons g gs => exact ⟨by simpa [delaying] using hfs, rfl, by simp⟩
  | @stop ps fs s h hr ih =>
      obtain ⟨gs, flushed⟩ := s
      obtain ⟨hfs, rfl, -⟩ := ih
      cases gs with
      | nil => exact ⟨hfs, rfl, fun _ => rfl⟩
      | cons g gs => exact absurd rfl hr

def delayingRunsDry (delay : Nat) (decode : π → φ) (blank : φ) :
    RunsDry (delaying delay decode blank) where
  left s := s.1.length
  frame s h := by
    obtain ⟨fs, flushed⟩ := s
    cases fs with
    | nil => cases flushed <;> simp [delaying, eagain, eof] at h
    | cons f fs =>
        cases flushed with
        | true => simp [delaying]
        | false =>
            by_cases hd : delay ≤ fs.length
            · simp [delaying, hd]
            · simp [delaying, eagain, hd] at h

end FfmpegPlayer.SendReceive
