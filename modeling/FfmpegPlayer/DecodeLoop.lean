import FfmpegPlayer.Decoding

namespace FfmpegPlayer.DecodeLoop

open SendReceive Media Threads ReadThread ConsumerThreads MainThread Interleaving Decoding

variable {P : Player}

/-- Outside the receive loop the last call on the decoder was not a success,
and what it said about unread output still stands. -/
structure AtRest {i : Side} (k : Contract (P.codec i)) (s : State P) : Prop where
  settled : Settled k (s.log.calls i) (s.dec i)
  last : phase (s.consumer i) = .idle → ∀ c, (s.log.calls i).getLast? = some c → c.code ≠ 0

theorem atRest_step {i : Side} {k : Contract (P.codec i)} {a : Act} {s s' : State P}
    (h : step s a = some s') (hr : AtRest k s) : AtRest k s' := by
  cases decoderStep h i with
  | quiet calls dec phase body idle =>
      constructor
      · rw [calls, dec]; exact hr.settled
      · rw [calls, phase]; exact hr.last
  | send p before after calls dec =>
      constructor
      · rw [calls]; exact settled_send k _ _ _ _
      · intro hidle c hc
        simp only [calls, List.getLast?_append, List.getLast?_singleton, Option.some_or,
          Option.some.injEq] at hc
        subst hc
        rw [after] at hidle
        intro h0
        simp only [Call.code] at h0
        simp [h0, phase] at hidle
  | receive p before after calls dec =>
      constructor
      · rw [calls, dec]; exact settled_receive k _ _
      · intro hidle c hc
        simp only [calls, List.getLast?_append, List.getLast?_singleton, Option.some_or,
          Option.some.injEq] at hc
        subst hc
        rw [after] at hidle
        intro h0
        simp only [Call.code] at h0
        simp [h0, phase] at hidle

def Failed (calls : List (Call AVPacket AVFrame)) : Prop :=
  ∃ c, calls.getLast? = some c ∧ c.code ≠ 0 ∧ c.code ≠ eagain

def OutputRead {i : Side} (k : Contract (P.codec i)) (s : State P) (a : Act) : Prop :=
  a = .consumer i → ∀ p, s.consumer i = .send p → Failed (s.log.calls i) → ¬ k.unread (s.dec i)

def Refused (i : Side) (s : State P) : Prop := ∃ p, Call.send p eagain ∈ s.log.calls i

theorem refused_step {i : Side} {a : Act} {s s' : State P} (h : step s a = some s') (hb : Refused i s) :
    Refused i s' := by
  obtain ⟨p, hp⟩ := hb
  refine ⟨p, ?_⟩
  cases decoderStep h i with
  | quiet calls dec phase body idle => rwa [calls]
  | send q before after calls dec => rw [calls]; exact List.mem_append_left _ hp
  | receive q before after calls dec => rw [calls]; exact List.mem_append_left _ hp

theorem AtRest.accepts {i : Side} {k : Contract (P.codec i)} {s : State P} (hr : AtRest k s)
    (hb : ¬ Refused i s) {p : AVPacket} (hpc : s.consumer i = .send p) (hf : ¬ Failed (s.log.calls i)) :
    ((P.codec i).send (s.dec i) (some p.payload)).1 ≠ eagain := by
  refine hr.settled.accepts ?_ _
  cases hl : (s.log.calls i).getLast? with
  | none => exact Or.inl (List.getLast?_eq_none_iff.mp hl)
  | some c =>
      have h0 := hr.last (by rw [hpc]; rfl) c hl
      have hc : c.code = eagain := by
        by_contra hc
        exact hf ⟨c, hl, h0, hc⟩
      cases c with
      | send q r =>
          simp only [Call.code] at hc
          subst hc
          exact absurd ⟨q, List.mem_of_getLast? hl⟩ hb
      | receive r f =>
          simp only [Call.code] at hc
          subst hc
          exact Or.inr ⟨f, rfl⟩

theorem refused_iff {i : Side} {a : Act} {s s' : State P} (h : step s a = some s') (hb : ¬ Refused i s) :
    Refused i s' ↔ a = .consumer i ∧ ∃ p, s.consumer i = .send p ∧
      ((P.codec i).send (s.dec i) (some p.payload)).1 = eagain := by
  cases decoderStep h i with
  | quiet calls dec phase body idle =>
      rw [Refused, calls]
      exact iff_of_false hb fun ⟨ha, p, hp, _⟩ => idle ha p hp
  | send p before after calls dec =>
      constructor
      · rintro ⟨q, hq⟩
        rw [calls, List.mem_append, List.mem_singleton] at hq
        rcases hq with hq | hq
        · exact absurd ⟨q, hq⟩ hb
        · simp only [Call.send.injEq] at hq
          exact ⟨rfl, p, before, hq.2.symm⟩
      · rintro ⟨-, q, hq, he⟩
        rw [before] at hq
        cases hq
        exact ⟨p, by rw [calls, he]; simp⟩
  | receive p before after calls dec =>
      refine iff_of_false ?_ (fun ⟨_, q, hq, _⟩ => by rw [before] at hq; cases hq)
      rintro ⟨q, hq⟩
      rw [calls, List.mem_append, List.mem_singleton] at hq
      rcases hq with hq | hq
      · exact hb ⟨q, hq⟩
      · cases hq

theorem not_refused_step {i : Side} {k : Contract (P.codec i)} {a : Act} {s s' : State P}
    (h : step s a = some s') (hr : AtRest k s) (hb : ¬ Refused i s) (hg : OutputRead k s a) :
    ¬ Refused i s' := by
  rw [refused_iff h hb]
  rintro ⟨ha, p, hpc, he⟩
  by_cases hf : Failed (s.log.calls i)
  · exact hg ha p hpc hf (k.send_refused _ _ he)
  · exact hr.accepts hb hpc hf he

/-- No packet is refused because a decoder was merely full in a run where every
error leaves no output unread at the next send. A decoder that takes no packet
while output is unread refuses one in every other run. -/
theorem never_refused_of_outputRead (k : (i : Side) → Contract (P.codec i)) {file : List Payload}
    {acts : List Act} {s : State P} (h : Runs file acts s) :
    ((∀ i, Transition.Along step (OutputRead (k i)) (start P file) acts) →
      ∀ i p, Call.send p eagain ∉ s.log.calls i) ∧
    ((∀ i d p, (k i).unread d → ((P.codec i).send d p).1 = eagain) →
      (∀ i p, Call.send p eagain ∉ s.log.calls i) →
      ∀ i, Transition.Along step (OutputRead (k i)) (start P file) acts) := by
  have hstart (i : Side) : AtRest (k i) (start P file) := ⟨settled_init (k i), by simp [start]⟩
  have hnone (i : Side) : ¬ Refused i (start P file) := by simp [Refused, start]
  constructor
  · intro hread i p hp
    exact (Transition.invariant_along (I := fun s => AtRest (k i) s ∧ ¬ Refused i s)
      (fun _ _ _ hs hg h => ⟨atRest_step h hs.1, not_refused_step h hs.1 hs.2 hg⟩)
      (hread i) ⟨hstart i, hnone i⟩ h).2 ⟨p, hp⟩
  · intro hfull hnever i
    refine (Transition.along_iff_of_recorded (I := AtRest (k i)) (B := Refused i) (H := fun _ _ => True)
      (fun _ _ _ hr _ h => atRest_step h hr) (fun _ _ _ _ _ h hb => refused_step h hb)
      (fun s a s' hr _ h hb => ⟨?_, ?_⟩) (Transition.along_true _ _) (hstart i) (hnone i) h).mpr
      (by rintro ⟨p, hp⟩; exact hnever i p hp)
    · exact fun hb' hg => not_refused_step h hr hb hg hb'
    · intro hg
      simp only [OutputRead, Classical.not_imp, not_forall, not_not] at hg
      obtain ⟨ha, p, hpc, -, hu⟩ := hg
      exact (refused_iff h hb).mpr ⟨ha, p, hpc, hfull i _ _ hu⟩

def invalidData : Int := -1094995529

/-- A decoder that reports each packet as damaged before it returns the `n`
frames it could still make of it. -/
def reporting (n : Nat) (π : Type) (blank : AVFrame) : Codec π AVFrame where
  State := Nat × Bool
  init := (0, false)
  send s _ := if 0 < s.1 then (eagain, s) else (0, (n, true))
  receive
    | (m, true) => (invalidData, blank, (m, false))
    | (m + 1, false) => (0, blank, (m, false))
    | (0, false) => (eagain, blank, (0, false))

def reportingContract (n : Nat) (π : Type) (blank : AVFrame) : Contract (reporting n π blank) where
  unread s := 0 < s.1
  init_read := by simp [reporting]
  send_refused s p h := by
    by_contra hs
    simp [reporting, hs, eagain] at h
  frame_unread s h := by
    match s, h with
    | (m, true), h => simp [reporting, invalidData] at h
    | (m + 1, false), _ => exact Nat.succ_pos m
    | (0, false), h => simp [reporting, eagain] at h
  receive_empty s h := by
    match s, h with
    | (m, true), h => simp [reporting, invalidData, eagain] at h
    | (m + 1, false), h => simp [reporting, eagain] at h
    | (0, false), _ => simp [reporting]

def damaged (n : Nat) : Player :=
  { stereo with
    codec := fun _ => reporting n Payload ⟨0, 1, 2, 2, 0, 44100, 2⟩
    decHeight := fun _ => 2 }

def sendsAfterError : List Act := List.replicate 26 .reader ++ List.replicate 18 (.consumer .audio)

/-- A packet of which no frame can be made leaves nothing to read. -/
theorem damaged_read {i : Side} {a : Act} {s s' : State (damaged 0)} (h : step s a = some s')
    (hs : ¬ (reportingContract 0 Payload ⟨0, 1, 2, 2, 0, 44100, 2⟩).unread (s.dec i)) :
    ¬ (reportingContract 0 Payload ⟨0, 1, 2, 2, 0, 44100, 2⟩).unread (s'.dec i) := by
  cases decoderStep h i with
  | quiet calls dec phase body idle => rwa [dec]
  | send p before after calls dec =>
      rw [dec]
      simp only [reportingContract] at hs ⊢
      simp [damaged, reporting, hs]
  | receive p before after calls dec =>
      rw [dec]
      revert hs
      generalize s.dec i = d
      match d with
      | (m, true) => exact id
      | (m + 1, false) => exact fun hd => absurd (Nat.succ_pos m) hd
      | (0, false) => exact id

/-- The second packet is sent right after an error, with nothing left to read. -/
theorem never_refused_of_outputRead_sample :
    ∃ s : State (damaged 0), Runs [⟨1, []⟩, ⟨1, []⟩] sendsAfterError s ∧
      s.log.calls .audio = [.send ⟨1, ⟨1, []⟩⟩ 0, .receive invalidData ⟨0, 1, 2, 2, 0, 44100, 2⟩,
        .send ⟨2, ⟨1, []⟩⟩ 0] ∧
      (∀ i, Transition.Along step (OutputRead (i := i) (reportingContract 0 _ _))
        (start (damaged 0) [⟨1, []⟩, ⟨1, []⟩]) sendsAfterError) ∧
      ∀ i p, Call.send p eagain ∉ s.log.calls i := by
  obtain ⟨s, hs, hp⟩ := Transition.exists_of_run_any step
    (start (damaged 0) [⟨1, []⟩, ⟨1, []⟩]) sendsAfterError
    (fun s : State (damaged 0) => decide (
      s.log.calls .audio = [.send ⟨1, ⟨1, []⟩⟩ 0, .receive invalidData ⟨0, 1, 2, 2, 0, 44100, 2⟩,
        .send ⟨2, ⟨1, []⟩⟩ 0])) (by decide)
  have ha := of_decide_eq_true hp
  have hloop := never_refused_of_outputRead (P := damaged 0) (fun _ => reportingContract 0 _ _) hs
  have hread (i : Side) : Transition.Along step (OutputRead (i := i) (reportingContract 0 _ _))
      (start (damaged 0) [⟨1, []⟩, ⟨1, []⟩]) sendsAfterError := Transition.along_of_invariant
    (I := fun s : State (damaged 0) => ¬ (reportingContract 0 Payload ⟨0, 1, 2, 2, 0, 44100, 2⟩).unread (s.dec i))
    (fun _ _ _ hu _ h => damaged_read h hu) (fun _ _ hu _ _ _ _ _ => hu)
    (Transition.along_true _ _) (Nat.lt_irrefl 0)
  exact ⟨s, hs, ha, hread, hloop.1 hread⟩

theorem sendsAfterError_runs : ∃ s : State (damaged 2), Runs [⟨1, []⟩, ⟨1, []⟩] sendsAfterError s ∧
    Call.send ⟨2, ⟨1, []⟩⟩ eagain ∈ s.log.calls .audio := by
  obtain ⟨s, hs, hp⟩ := Transition.exists_of_run_any step
    (start (damaged 2) [⟨1, []⟩, ⟨1, []⟩]) sendsAfterError
    (fun s : State (damaged 2) => decide (Call.send ⟨2, ⟨1, []⟩⟩ eagain ∈ s.log.calls .audio)) (by decide)
  exact ⟨s, hs, of_decide_eq_true hp⟩

theorem not_never_refused : ¬ ∀ (P : Player) (file : List Payload) (acts : List Act) (s : State P),
    (∀ i, Nonempty (Contract (P.codec i))) → Runs file acts s →
    ∀ i p, Call.send p eagain ∉ s.log.calls i := by
  intro hall
  obtain ⟨s, hs, hp⟩ := sendsAfterError_runs
  exact hall (damaged 2) _ _ s (fun _ => ⟨reportingContract 2 _ _⟩) hs .audio _ hp

end FfmpegPlayer.DecodeLoop
