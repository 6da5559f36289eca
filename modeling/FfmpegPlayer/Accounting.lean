import FfmpegPlayer.Playback

namespace FfmpegPlayer.Accounting

open SendReceive Media Threads ReadThread ConsumerThreads MainThread Interleaving
open BlockStream AudioClock Decoding Playback

variable {P : Player}

/-- The bytes of the SDL_QueueAudio calls that succeeded, and of those that failed. -/
def taken (cs : List Chunk) : Nat := total (queuedBlocks (cs.filter Chunk.accepted))

def refused (cs : List Chunk) : Nat := total (queuedBlocks (cs.filter (fun c => !c.accepted)))

theorem total_queuedBlocks (cs : List Chunk) : total (queuedBlocks cs) = taken cs + refused cs := by
  induction cs with
  | nil => rfl
  | cons c cs ih =>
      simp only [queuedBlocks, taken, refused, List.map_cons, total_cons] at ih ⊢
      cases hc : c.accepted <;> simp [hc, ih] <;> omega

theorem taken_append (cs ds : List Chunk) : taken (cs ++ ds) = taken cs + taken ds := by
  simp [taken, queuedBlocks]

theorem refused_eq_zero {cs : List Chunk} (hpos : ∀ c ∈ cs, 0 < c.size) :
    refused cs = 0 ↔ ∀ c ∈ cs, c.accepted = true := by
  induction cs with
  | nil => simp [refused, queuedBlocks]
  | cons c cs ih =>
      have hc := hpos c (by simp)
      have ih := ih (fun d hd => hpos d (by simp [hd]))
      simp only [refused, queuedBlocks] at ih ⊢
      cases ha : c.accepted with
      | true => simpa [ha] using ih
      | false =>
          simp [ha]
          omega

/-- The bytes the device took are those it still has and those it has played. -/
theorem taken_eq {file : List Payload} {acts : List Act} {s : State P} (h : Runs file acts s) :
    taken s.out.chunks = s.out.queued + s.out.played := by
  refine Transition.invariant (I := fun s : State P => taken s.out.chunks = s.out.queued + s.out.played)
    (fun s a s' hb h => ?_) rfl h
  cases deviceStep h with
  | other chunks queued played => rw [chunks, queued, played, hb]
  | queue f n b before chunks queued played =>
      rw [chunks, queued, played, taken_append, hb]
      cases b with
      | false => simp [taken, queuedBlocks]
      | true =>
          simp [taken, queuedBlocks]
          omega
  | drain n hn chunks queued played =>
      rw [chunks, queued, played, hb]
      omega

theorem blocks_pos {cs : List (AVFrame × Int)} {b : AVFrame × Nat} (h : b ∈ blocks P cs) : 0 < b.2 := by
  obtain ⟨c, -, hb⟩ := List.mem_filterMap.mp h
  simp only [Option.ite_none_right_eq_some, Option.some.injEq] at hb
  obtain ⟨hpos, rfl⟩ := hb
  exact Int.pos_iff_toNat_pos.mp hpos

theorem chunks_pos {file : List Payload} {acts : List Act} {s : State P} (h : Runs file acts s) :
    ∀ c ∈ s.out.chunks, 0 < c.size := by
  intro c hc
  have hcut := (paths h).audio.cut
  have hmem : (c.frame, c.size) ∈ blocks P s.out.converts := by
    rw [hcut]
    exact List.mem_append_left _ (List.mem_map_of_mem hc)
  exact blocks_pos hmem

/-- Outside the receive loop the counter is what SDL_QueueAudio was given,
whether it took it or not. -/
theorem written_eq {file : List Payload} {acts : List Act} {s : State P} (h : Runs file acts s)
    (hb : (s.consumer .audio).body = none) :
    s.out.audioWrittenBytes = s.out.queued + s.out.played + refused s.out.chunks := by
  have hcnt := (paths h).audio.counted
  have htot := total_queuedBlocks s.out.chunks
  have htaken := taken_eq h
  rw [hb] at hcnt
  simp only [flying] at hcnt
  omega

def Failed (s : State P) : Prop := ∃ c ∈ s.out.chunks, c.accepted = false

theorem failed_step {a : Act} {s s' : State P} (h : step s a = some s') (hf : Failed s) : Failed s' := by
  obtain ⟨c, hc, hr⟩ := hf
  refine ⟨c, ?_, hr⟩
  cases deviceStep h with
  | other chunks => rwa [chunks]
  | queue f n b before chunks => rw [chunks]; exact List.mem_append_left _ hc
  | drain n hn chunks => rwa [chunks]

theorem failed_iff {a : Act} {s s' : State P} (h : step s a = some s') (hf : ¬ Failed s) :
    Failed s' ↔ ¬ a ≠ .queueAudio false := by
  rw [not_not]
  cases deviceStep h with
  | other chunks queued played idle =>
      rw [Failed, chunks]
      exact iff_of_false hf (idle false)
  | queue f n b before chunks =>
      rw [Failed, chunks]
      constructor
      · rintro ⟨c, hc, hr⟩
        rcases List.mem_append.mp hc with hc | hc
        · exact absurd ⟨c, hc, hr⟩ hf
        · rw [List.mem_singleton.mp hc] at hr
          simpa using hr
      · intro hb
        exact ⟨⟨f, n, b⟩, by simp, by simpa using hb⟩
  | drain n hn chunks =>
      rw [Failed, chunks]
      exact iff_of_false hf (by simp)

theorem refused_eq_zero_iff {file : List Payload} {acts : List Act} {s : State P} (h : Runs file acts s) :
    refused s.out.chunks = 0 ↔ ∀ a ∈ acts, a ≠ .queueAudio false := by
  have hrec : Transition.Along step (fun _ a => a ≠ .queueAudio false) (start P file) acts ↔ ¬ Failed s :=
    Transition.along_iff_of_recorded (I := fun _ => True) (H := fun _ _ => True)
      (fun _ _ _ _ _ _ => trivial)
      (fun _ _ _ _ _ h hf => failed_step h hf)
      (fun _ _ _ _ _ h hf => failed_iff h hf)
      (Transition.along_true _ _) trivial (by simp [Failed, start, Output.start]) h
  have hrefused : refused s.out.chunks = 0 ↔ ¬ Failed s := by
    rw [refused_eq_zero (chunks_pos h)]
    simp [Failed]
  rw [hrefused, ← hrec]
  exact ⟨fun hok => Transition.forall_of_along hok h, fun hok => Transition.along_of_forall step _ hok⟩

def FailureUncounted (s : State P) (a : Act) : Prop :=
  a = .consumer .audio → ∀ f n c, (s.consumer .audio).body = some (.count f n) →
    s.out.chunks.getLast? = some c → c.accepted = false →
    ∀ s', step s a = some s' →
      s'.out.audioWrittenBytes = s.out.audioWrittenBytes ∧ clock s'.out = clock s.out

/-- At the head of its loop the audio thread's counter is the number of bytes
the device has taken, and failures have not moved it, if and only if there
have been no failures. -/
theorem counter_agrees_iff {file : List Payload} {acts : List Act} {s : State P}
    (h : Runs file acts s) (hhead : s.consumer .audio = .loopTest) :
    (s.out.audioWrittenBytes = s.out.queued + s.out.played ∧
      Transition.Along step FailureUncounted (start P file) acts) ↔
    ∀ a ∈ acts, a ≠ .queueAudio false := by
  have hwritten := written_eq h (by rw [hhead]; rfl)
  rw [← refused_eq_zero_iff h]
  constructor
  · rintro ⟨hagree, -⟩
    omega
  · intro hzero
    have hH := Transition.along_of_forall step (start P file) ((refused_eq_zero_iff h).mp hzero)
    refine ⟨by rw [hwritten, hzero]; simp, ?_⟩
    refine Transition.along_of_invariant (I := fun s => ¬ Failed s)
      (fun s a s' hs ha h hf => (failed_iff h hs).mp hf ha) (fun s a hs _ => ?_) hH
      (by simp [Failed, start, Output.start])
    intro _ f n c _ hlast hc
    exact absurd ⟨c, List.mem_of_getLast? hlast, hc⟩ hs

def takenChunk : List Act :=
  List.replicate 13 Act.reader ++ List.replicate 11 (Act.consumer .audio) ++ [.queueAudio true] ++
    List.replicate 3 (Act.consumer .audio) ++ [.drain 1]

theorem counter_agrees_sample : ∃ s : State stereo, Runs [⟨1, []⟩] takenChunk s ∧
    s.out.queued = 3 ∧ s.out.played = 1 ∧ s.out.audioWrittenBytes = s.out.queued + s.out.played ∧
    Transition.Along step FailureUncounted (start stereo [⟨1, []⟩]) takenChunk := by
  obtain ⟨s, hs, hp⟩ := Transition.exists_of_run_any step (start stereo [⟨1, []⟩]) takenChunk
    (fun s : State stereo => decide (s.consumer .audio = .loopTest ∧ s.out.queued = 3 ∧ s.out.played = 1))
    (by decide)
  obtain ⟨hhead, hq, hplayed⟩ := of_decide_eq_true hp
  exact ⟨s, hs, hq, hplayed, (counter_agrees_iff hs hhead).mpr (by decide)⟩

def refusedChunk : List Act :=
  List.replicate 13 Act.reader ++ List.replicate 11 (Act.consumer .audio) ++ [.queueAudio false] ++
    List.replicate 3 (Act.consumer .audio)

theorem refusedChunk_runs : ∃ s : State stereo, Runs [⟨1, []⟩] refusedChunk s ∧
    s.consumer .audio = .loopTest ∧ s.out.audioWrittenBytes = 4 ∧ s.out.queued = 0 ∧ s.out.played = 0 := by
  obtain ⟨s, hs, hp⟩ := Transition.exists_of_run_any step (start stereo [⟨1, []⟩]) refusedChunk
    (fun s : State stereo => decide (s.consumer .audio = .loopTest ∧ s.out.audioWrittenBytes = 4 ∧
      s.out.queued = 0 ∧ s.out.played = 0)) (by decide)
  exact ⟨s, hs, of_decide_eq_true hp⟩

theorem not_counter_agrees : ¬ ∀ (P : Player) (file : List Payload) (acts : List Act) (s : State P),
    Runs file acts s → s.consumer .audio = .loopTest →
    s.out.audioWrittenBytes = s.out.queued + s.out.played := by
  intro hall
  obtain ⟨s, hs, hhead, hw, hq, hp⟩ := refusedChunk_runs
  have h := hall stereo _ _ s hs hhead
  rw [hw, hq, hp] at h
  exact absurd h (by decide)

end FfmpegPlayer.Accounting
