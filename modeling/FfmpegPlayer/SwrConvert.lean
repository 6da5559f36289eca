import FfmpegPlayer.Resampling
import FfmpegPlayer.SlidingBuffer

namespace FfmpegPlayer.SwrConvert

open SendReceive Media Threads ReadThread ConsumerThreads MainThread Interleaving
open BlockStream AudioClock Decoding Playback Timeline

variable {α β : Type}

/-- The input format of a context without a resampler, a channel matrix or
dithering, and what its full_convert makes of the sample of every channel. -/
structure Format (α β : Type) where
  bps : Nat
  chCount : Nat
  silence : α
  convert : α → β

def einval : Int := -22

def Format.maxCount (F : Format α β) : Nat := 2147483647 / 2 / F.bps / F.chCount

variable (F : Format α β)

/-- swri_realloc_audio on in_buffer: what is added to its data. -/
def swriReallocAudio (b : SlidingBuffer α) (count : Nat) :
    Except Int { xs : List α // count ≤ b.data.length + xs.length } :=
  if F.maxCount < count then .error einval
  else if h : count ≤ b.data.length then .ok ⟨[], h⟩
  else .ok ⟨List.replicate (2 * count - b.data.length) F.silence, by rw [List.length_replicate]; omega⟩

/-- The first part of swr_convert: what in_buffer holds goes out before the
input. Where it holds nothing it already starts at the front. -/
def convertHeld (b : SlidingBuffer α) (outCount : Nat) : List β × SlidingBuffer α :=
  ((b.contents.take (min outCount b.count)).map F.convert,
    b.dropFront (min outCount b.count) (Nat.min_le_right _ _))

/-- Room for `n` more samples: those held are moved to the front of in_buffer,
where that helps, or else in_buffer is allocated anew. -/
def makeRoom (b : SlidingBuffer α) (n : Nat) :
    Except Int { c : SlidingBuffer α // c.start + c.count + n ≤ c.data.length } :=
  let size := b.start + b.count + n
  if h : b.data.length < size ∧ b.count + n ≤ b.start then
    .ok ⟨b.rewind (Nat.le_of_add_right_le h.2), b.room_rewind h.2⟩
  else (swriReallocAudio F b size).map (fun xs => ⟨b.grow xs.1, b.room_grow xs.2⟩)

def convertInput (b : SlidingBuffer α) (outCount : Nat) (xs : List α) :
    Except Int (List β × SlidingBuffer α) :=
  if xs.length ≤ outCount then .ok (xs.map F.convert, b)
  else
    (makeRoom F b (xs.length - outCount)).map (fun c =>
      ((xs.take outCount).map F.convert,
        c.1.pushBack (xs.drop outCount) (by rw [List.length_drop]; exact c.2)))

/-- swr_convert once the context is initialised and nothing is to be dropped:
the number of samples written or an error code, and what has been written. -/
def swrConvert (b : SlidingBuffer α) (outCount : Nat) (input : Option (List α)) :
    Int × List β × SlidingBuffer α :=
  if input = none ∧ b.count = 0 then (0, [], b)
  else
    let held := convertHeld F b outCount
    match convertInput F held.2 (outCount - held.1.length) (input.getD []) with
    | .error e => (e, held)
    | .ok r => (held.1.length + r.1.length, held.1 ++ r.1, r.2)

variable {F}

theorem makeRoom_cases (b : SlidingBuffer α) (n : Nat) :
    (∃ c, makeRoom F b n = .ok c ∧ c.1.contents = b.contents ∧
      c.1.data.length ≤ max b.data.length (4 * (b.count + n))) ∨
    (makeRoom F b n = .error einval ∧ F.maxCount < max b.data.length (2 * (b.count + n))) := by
  by_cases hmove : b.data.length < b.start + b.count + n ∧ b.count + n ≤ b.start
  · refine Or.inl ⟨_, by rw [makeRoom, dif_pos hmove], b.contents_rewind (by omega), ?_⟩
    rw [b.length_rewind (by omega)]
    exact Nat.le_max_left _ _
  · rw [makeRoom, dif_neg hmove, swriReallocAudio]
    by_cases hmax : F.maxCount < b.start + b.count + n
    · rw [if_pos hmax]
      exact Or.inr ⟨rfl, by omega⟩
    · rw [if_neg hmax]
      by_cases hlen : b.start + b.count + n ≤ b.data.length
      · rw [dif_pos hlen]
        exact Or.inl ⟨_, rfl, b.contents_grow _, by simp [SlidingBuffer.grow]⟩
      · rw [dif_neg hlen]
        refine Or.inl ⟨_, rfl, b.contents_grow _, ?_⟩
        simp only [SlidingBuffer.grow, List.length_append, List.length_replicate]
        omega

/-- What a call of swr_convert is documented to do: as much is written as there
is room for, those held first, and the rest is held. -/
structure Taken (F : Format α β) (b : SlidingBuffer α) (outCount : Nat) (xs : List α)
    (r : Int × List β × SlidingBuffer α) : Prop where
  ret : r.1 = (min outCount (b.count + xs.length) : Nat)
  out : r.2.1 = ((b.contents ++ xs).take outCount).map F.convert
  contents : r.2.2.contents = (b.contents ++ xs).drop outCount

theorem convertHeld_eq (b : SlidingBuffer α) (outCount : Nat) :
    (convertHeld F b outCount).1 = (b.contents.take outCount).map F.convert ∧
    (convertHeld F b outCount).1.length = min outCount b.count ∧
    (convertHeld F b outCount).2.contents = b.contents.drop outCount ∧
    (convertHeld F b outCount).2.count = b.count - outCount ∧
    (convertHeld F b outCount).2.data = b.data := by
  have hlen := b.length_contents
  refine ⟨?_, ?_, ?_, ?_, rfl⟩
  · rw [convertHeld, List.take_eq_take_min, hlen]
    simp
  · simp [convertHeld]
  · rw [convertHeld, SlidingBuffer.contents_dropFront, List.drop_eq_drop_min (i := outCount), hlen]
  · simp only [convertHeld, SlidingBuffer.dropFront]
    omega

theorem convertInput_cases (b : SlidingBuffer α) (outCount : Nat) (xs : List α) :
    (∃ c, convertInput F b outCount xs = .ok ((xs.take outCount).map F.convert, c) ∧
      c.contents = b.contents ++ xs.drop outCount ∧
      c.data.length ≤ max b.data.length (4 * (b.count + (xs.length - outCount)))) ∨
    (convertInput F b outCount xs = .error einval ∧
      F.maxCount < max b.data.length (2 * (b.count + (xs.length - outCount)))) := by
  rw [convertInput]
  by_cases hfits : xs.length ≤ outCount
  · rw [if_pos hfits]
    refine Or.inl ⟨b, ?_, ?_, Nat.le_max_left _ _⟩
    · rw [List.take_of_length_le hfits]
    · rw [List.drop_eq_nil_of_le hfits, List.append_nil]
  · rw [if_neg hfits]
    rcases makeRoom_cases (F := F) b (xs.length - outCount) with ⟨c, hc, hsame, hlong⟩ | ⟨he, hlong⟩
    · rw [hc]
      refine Or.inl ⟨_, rfl, ?_, ?_⟩
      · rw [SlidingBuffer.contents_pushBack, hsame]
      · rw [SlidingBuffer.length_pushBack]
        exact hlong
    · rw [he]
      exact Or.inr ⟨rfl, hlong⟩

/-- A call that fails has lost its input, and what it took out of in_buffer. -/
theorem swrConvert_cases (b : SlidingBuffer α) (outCount : Nat) (xs : List α) :
    (Taken F b outCount xs (swrConvert F b outCount (some xs)) ∧
      (swrConvert F b outCount (some xs)).2.2.data.length ≤
        max b.data.length (4 * (b.count + xs.length - outCount))) ∨
    (swrConvert F b outCount (some xs) = (einval, convertHeld F b outCount) ∧
      F.maxCount < max b.data.length (2 * (b.count + xs.length - outCount))) := by
  obtain ⟨hout, hlen, hcontents, hcount, hdata⟩ := convertHeld_eq (F := F) b outCount
  have hheld := b.length_contents
  have hroom : outCount - (convertHeld F b outCount).1.length = outCount - b.contents.length := by omega
  have hleft : (convertHeld F b outCount).2.count + (xs.length - (outCount - b.contents.length)) =
      b.count + xs.length - outCount := by omega
  have hinput := convertInput_cases (F := F) (convertHeld F b outCount).2 (outCount - b.contents.length) xs
  rw [hleft, hdata, hcontents] at hinput
  rw [swrConvert, if_neg (by simp)]
  simp only [Option.getD_some, hroom]
  rcases hinput with ⟨c, hc, hsame, hlong⟩ | ⟨he, hlong⟩
  · rw [hc]
    refine Or.inl ⟨⟨?_, ?_, ?_⟩, hlong⟩
    · simp only [List.length_map, List.length_take, hlen]
      omega
    · simp only
      rw [hout, ← List.map_append, List.take_append]
    · simp only
      rw [hsame, List.drop_append]
  · rw [he]
    exact Or.inr ⟨rfl, hlong⟩

/-- While few samples are held, in_buffer never needs more than it can have,
however often its contents move up in it. -/
theorem swrConvert_taken {b : SlidingBuffer α} {outCount m : Nat} {xs : List α} (hm : 4 * m ≤ F.maxCount)
    (hb : b.data.length ≤ 4 * m) (hheld : b.count + xs.length - outCount ≤ m) :
    Taken F b outCount xs (swrConvert F b outCount (some xs)) ∧
    (swrConvert F b outCount (some xs)).2.2.data.length ≤ 4 * m := by
  rcases swrConvert_cases (F := F) b outCount xs with ⟨htaken, hlen⟩ | ⟨-, hlong⟩
  · exact ⟨htaken, by omega⟩
  · omega

/-- swr_convert on the samples of a frame. The second component of the state
is no part of the context: it holds what has been written by the calls that
returned a number of samples. -/
def convertFrame (F : Format α β) (samples : AVFrame → List α) (room : Nat)
    (w : SlidingBuffer α × List β) (f : AVFrame) : Int × SlidingBuffer α × List β :=
  let r := swrConvert F w.1 room (some (samples f))
  (r.1, r.2.2, if 0 ≤ r.1 then w.2 ++ r.2.1 else w.2)

def swrContext (F : Format α β) (samples : AVFrame → List α) : SwrContext where
  State := SlidingBuffer α × List β
  init := (.empty, [])
  convert w room f := convertFrame F samples room.toNat w f

def onSwr (P : Player) (F : Format α β) (samples : AVFrame → List α) : Player :=
  { P with swr := swrContext F samples }

def documented (P : Player) : Player := { P with swr := Resampling.bufferingSwr }

def heldAfter (P : Player) (fs : List AVFrame) : Nat := (resample (documented P) fs).2

variable {P : Player} {samples : AVFrame → List α}

theorem heldAfter_append_frame (fs : List AVFrame) (f : AVFrame) :
    heldAfter P (fs ++ [f]) = heldAfter P fs + f.nbSamples - 192000 / P.channels / 2 := by
  rw [heldAfter, resample_append_frame]
  change heldAfter P fs + f.nbSamples - min (192000 / P.channels / 2) (heldAfter P fs + f.nbSamples) = _
  omega

/-- The samples of the frames, converted, are written in order, as many at a
time as there is room for; the rest is held. -/
structure InOrder (P : Player) (F : Format α β) (samples : AVFrame → List α) (fs : List AVFrame)
    (r : List (AVFrame × Int) × SlidingBuffer α × List β) : Prop where
  results : r.1 = (resample (documented P) fs).1
  count : r.2.1.count = heldAfter P fs
  samples : r.2.2 ++ r.2.1.contents.map F.convert = (fs.flatMap samples).map F.convert
  written : (r.1.map Prod.snd).sum = r.2.2.length

theorem InOrder.append_frame {fs : List AVFrame} {f : AVFrame} {cs : List (AVFrame × Int)}
    {w : SlidingBuffer α × List β} (hlen : (samples f).length = f.nbSamples)
    (h : InOrder P F samples fs (cs, w))
    (ht : Taken F w.1 (192000 / P.channels / 2) (samples f)
      (swrConvert F w.1 (192000 / P.channels / 2) (some (samples f)))) :
    InOrder P F samples (fs ++ [f])
      (cs ++ [(f, (convertFrame F samples (192000 / P.channels / 2) w f).1)],
        (convertFrame F samples (192000 / P.channels / 2) w f).2) := by
  obtain ⟨hresults, hcount, hsamples, hwritten⟩ := h
  obtain ⟨hret, hout, hcontents⟩ := ht
  simp only at hresults hcount hsamples hwritten
  simp only [convertFrame]
  generalize swrConvert F w.1 (192000 / P.channels / 2) (some (samples f)) = r at hret hout hcontents ⊢
  have hpos : 0 ≤ r.1 := by rw [hret]; exact Int.natCast_nonneg _
  have hn : r.2.1.length = min (192000 / P.channels / 2) (w.1.count + (samples f).length) := by
    rw [hout, List.length_map, List.length_take, List.length_append, SlidingBuffer.length_contents]
  rw [if_pos hpos]
  constructor
  · rw [resample_append_frame]
    simp only
    rw [hresults, hret, hcount, hlen]
    rfl
  · rw [heldAfter_append_frame, ← hcount, ← hlen]
    simp only
    rw [← SlidingBuffer.length_contents, hcontents, List.length_drop, List.length_append,
      SlidingBuffer.length_contents]
  · simp only
    rw [hout, hcontents, List.append_assoc, ← List.map_append, List.take_append_drop, List.map_append,
      ← List.append_assoc, hsamples, List.flatMap_append, List.flatMap_singleton, List.map_append]
  · simp only [List.map_append, List.map_singleton, List.sum_append, List.sum_singleton, List.length_append]
    rw [hwritten, hret, hn]
    exact (Nat.cast_add _ _).symm

/-- Nothing fails, gets lost or out of order while few enough samples are held. -/
theorem resample_inOrder (hlen : ∀ f, (samples f).length = f.nbSamples) {fs : List AVFrame}
    (hfew : ∀ gs, gs <+: fs → heldAfter P gs ≤ F.maxCount / 4) :
    InOrder P F samples fs (resample (onSwr P F samples) fs) ∧
    (resample (onSwr P F samples) fs).2.1.data.length ≤ 4 * (F.maxCount / 4) := by
  induction fs using List.reverseRecOn with
  | nil => exact ⟨⟨rfl, rfl, rfl, rfl⟩, Nat.zero_le _⟩
  | append_singleton fs f ih =>
      obtain ⟨hin, hdata⟩ := ih (fun gs hgs => hfew gs (hgs.trans (List.prefix_append _ _)))
      have hheld := hfew (fs ++ [f]) (List.prefix_refl _)
      rw [heldAfter_append_frame, ← hin.count, ← hlen f] at hheld
      obtain ⟨htaken, hdata'⟩ := swrConvert_taken (F := F) (by omega) hdata hheld
      rw [resample_append_frame]
      exact ⟨hin.append_frame (hlen f) htaken, hdata'⟩

theorem documented_nonneg (fs : List AVFrame) : ∀ c ∈ (resample (documented P) fs).1, 0 ≤ c.2 := by
  induction fs using List.reverseRecOn with
  | nil => simp [resample]
  | append_singleton fs f ih =>
      intro c hc
      rw [resample_append_frame] at hc
      rcases List.mem_append.mp hc with hc | hc
      · exact ih c hc
      · rw [List.mem_singleton.mp hc]
        exact Int.natCast_nonneg _

theorem total_blocks {cs : List (AVFrame × Int)} (h : ∀ c ∈ cs, 0 ≤ c.2) :
    (total (blocks P cs) : Int) = (cs.map Prod.snd).sum * P.channels * 2 := by
  induction cs with
  | nil => simp [blocks]
  | cons c cs ih =>
      have hc : 0 ≤ dataSize P c.2 := by
        have hn := h c (by simp)
        unfold dataSize
        positivity
      have hblock : (total (blocks P [c]) : Int) = dataSize P c.2 := by
        rw [show c = (c.1, c.2) from rfl, blocks_singleton]
        split
        · simpa using hc
        · simp only [total_nil]
          omega
      rw [← List.singleton_append, blocks_append, total_append, Nat.cast_add, hblock,
        ih (fun d hd => h d (by simp [hd])), dataSize]
      simp only [List.singleton_append, List.map_cons, List.sum_cons]
      ring

variable {file : List Payload} {acts : List Act} {s : State (onSwr P F samples)}

/-- The player on the library's swr_convert gets the results that are
documented, in every run in which few enough samples are ever held and no allocation fails: every
sample of every frame is converted, once and in order, and queued with the
block it was written in. -/
theorem sound_in_order (hlen : ∀ f, (samples f).length = f.nbSamples) (h : Runs file acts s)
    (hfew : ∀ fs, fs <+: frames (s.log.calls .audio) → heldAfter P fs ≤ F.maxCount / 4) :
    InOrder P F samples (s.out.converts.map Prod.fst) (s.out.converts, s.out.swr) ∧
    (total (queuedBlocks s.out.chunks ++ toQueue (onSwr P F samples) (s.consumer .audio).body) : Int) =
      (s.out.converts.map Prod.snd).sum * P.channels * 2 := by
  have hpath := (paths h).audio
  have hgiven : s.out.converts.map Prod.fst <+: frames (s.log.calls .audio) := ⟨_, hpath.decoded.symm⟩
  have hin := (resample_inOrder (P := P) (F := F) hlen
    (fun gs hgs => hfew gs (hgs.trans hgiven))).1
  rw [hpath.resampled] at hin
  refine ⟨hin, ?_⟩
  have hpos : ∀ c ∈ s.out.converts, 0 ≤ c.2 := by
    rw [show s.out.converts = _ from hin.results]
    exact documented_nonneg _
  rw [← hpath.cut]
  exact total_blocks (P := onSwr P F samples) hpos

def ramp (f : AVFrame) : List Int := (List.range f.nbSamples).map (fun k => 3 * f.pts + k)

def negating : Format Int Int := ⟨2, 2, 0, Neg.neg⟩

def narrow : Player :=
  { samplePlayer 0 (fun _ x => ⟨x.data.length, 3, 2, 2, 0, 44100, 2⟩) with
    channels := 48000
    channels_pos := by decide }

def twoFrames : List Act :=
  List.replicate 26 Act.reader ++ List.replicate 11 (Act.consumer .audio) ++ [.queueAudio true] ++
    List.replicate 14 (Act.consumer .audio) ++ [.queueAudio true, .consumer .audio]

theorem twoFrames_runs : ∃ s : State (onSwr narrow negating ramp),
    Runs [⟨1, []⟩, ⟨1, [0]⟩] twoFrames s ∧
    s.out.swr.2 = [0, -1, -2, -3] ∧ s.out.swr.1.contents = [4, 5] ∧
    frames (s.log.calls .audio) = [⟨0, 3, 2, 2, 0, 44100, 2⟩, ⟨1, 3, 2, 2, 0, 44100, 2⟩] := by
  obtain ⟨s, hs, hp⟩ := Transition.exists_of_run_any step
    (start (onSwr narrow negating ramp) [⟨1, []⟩, ⟨1, [0]⟩]) twoFrames
    (fun s : State (onSwr narrow negating ramp) => decide (s.out.swr.2 = [0, -1, -2, -3] ∧
      s.out.swr.1.contents = [4, 5] ∧
      frames (s.log.calls .audio) = [⟨0, 3, 2, 2, 0, 44100, 2⟩, ⟨1, 3, 2, 2, 0, 44100, 2⟩])) (by decide)
  exact ⟨s, hs, of_decide_eq_true hp⟩

theorem sound_in_order_sample : ∃ s : State (onSwr narrow negating ramp),
    Runs [⟨1, []⟩, ⟨1, [0]⟩] twoFrames s ∧ s.out.swr.1.contents = [4, 5] ∧
    InOrder narrow negating ramp (s.out.converts.map Prod.fst) (s.out.converts, s.out.swr) ∧
    (total (queuedBlocks s.out.chunks ++ toQueue (onSwr narrow negating ramp) (s.consumer .audio).body) : Int) =
      (s.out.converts.map Prod.snd).sum * narrow.channels * 2 := by
  obtain ⟨s, hs, -, hheld, hframes⟩ := twoFrames_runs
  refine ⟨s, hs, hheld, sound_in_order (fun f => by simp [ramp]) hs (fun fs hfs => ?_)⟩
  have hall : ∀ fs ∈ (frames (s.log.calls .audio)).inits, heldAfter narrow fs ≤ negating.maxCount / 4 := by
    rw [hframes]
    decide
  exact hall fs ((List.mem_inits _ _).mpr hfs)

end FfmpegPlayer.SwrConvert
