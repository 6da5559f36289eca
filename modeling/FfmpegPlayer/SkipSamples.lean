import FfmpegPlayer.Libavcodec

namespace FfmpegPlayer.SkipSamples

open SendReceive Media Threads Interleaving SequentialLoop StateTransition
open SimpleDecoder PlainDecoding Reference Libavcodec

variable {π φ α : Type}

structure Raw (φ σ : Type) where
  ret : Int
  frame : Option φ
  setsSkip : Option Nat
  state : σ

/-- An audio decoder of the simple API, with what the generic code needs to
cut its frames. Every turn on data that is no error reads some of the data, so
the decoder of APE, which makes many frames of a packet before it does, is none. -/
structure AudioDecoder (π φ α : Type) where
  State : Type
  init : State
  /-- avci->skip_samples of the opened decoder -/
  skipSamples : Nat
  size : π → Nat
  data : π → Bool
  sideData : π → Bool
  capDelay : Bool
  capSetsFrameProps : Bool
  maxSamples : Nat
  blank : φ
  /-- the samples of a frame: nb_samples in all -/
  samples : φ → List α
  /-- AV_FRAME_FLAG_DISCARD -/
  discard : φ → Bool
  dropFront : Nat → φ → φ
  keepFront : Nat → φ → φ
  samples_dropFront : ∀ n f, samples (dropFront n f) = (samples f).drop n
  samples_keepFront : ∀ n f, samples (keepFront n f) = (samples f).take n
  /-- the first two numbers of the side data AV_PKT_DATA_SKIP_SAMPLES -/
  skipData : π → Option (BitVec 32 × BitVec 32)
  /-- avci->skip_samples_multiplier -/
  multiplier : State → BitVec 32
  decode : State → Option (Rest π) → Option (Rest π) → Raw φ State
  left : State → Nat
  progress : ∀ d x props, (decode d x props).ret = 0 → restSize size x = 0
  frames_left : ∀ d x props, left (decode d x props).state +
    (if (decode d x props).frame.isSome then 1 else 0) ≤
      left d + bytesGone false (restSize size x) (decode d x props).ret

variable {D : AudioDecoder π φ α}

def AudioDecoder.nbSamples (D : AudioDecoder π φ α) (f : φ) : Nat := (D.samples f).length

structure Trimmed (φ : Type) where
  frame : Option φ
  discardedSamples : Nat
  skipSamples : Nat

def trimEnd (D : AudioDecoder π φ α) (discardPadding discarded skipSamples : Nat) (f : φ) : Trimmed φ :=
  if 0 < discardPadding ∧ discardPadding ≤ D.nbSamples f then
    if discardPadding = D.nbSamples f then ⟨none, discarded + D.nbSamples f, skipSamples⟩
    else ⟨some (D.keepFront (D.nbSamples f - discardPadding) f), discarded, skipSamples⟩
  else ⟨some f, discarded, skipSamples⟩

def trim (D : AudioDecoder π φ α) (skipSamples discardPadding : Nat) : Option φ → Trimmed φ
  | none => ⟨none, 0, skipSamples⟩
  | some f =>
      if D.discard f then ⟨none, D.nbSamples f, skipSamples - D.nbSamples f⟩
      else if 0 < skipSamples then
        if D.nbSamples f ≤ skipSamples then ⟨none, D.nbSamples f, skipSamples - D.nbSamples f⟩
        else trimEnd D discardPadding skipSamples 0 (D.dropFront skipSamples f)
      else trimEnd D discardPadding 0 skipSamples f

/-- A turn of the decoder: the number of samples to skip, if the decoder or
the packet tells one, the padding to discard, and the frame as it was decoded. -/
structure RawTurn (φ : Type) where
  skip : Option Nat
  discardPadding : Nat
  frame : Option φ
deriving DecidableEq

/-- The side data is that of avci->last_pkt_props; it is stored in an int, and
a negative one counts as none. -/
def rawTurn (D : AudioDecoder π φ α) (props : Option (Rest π)) (r : Raw φ D.State) : RawTurn φ :=
  match props.bind (fun x => D.skipData x.packet) with
  | none => ⟨r.setsSkip, 0, r.frame⟩
  | some side => ⟨some (side.1 * D.multiplier r.state).toInt.toNat, side.2.toNat, r.frame⟩

theorem rawTurn_frame (props : Option (Rest π)) (r : Raw φ D.State) : (rawTurn D props r).frame = r.frame := by
  unfold rawTurn
  split <;> rfl

def cutTurn (D : AudioDecoder π φ α) (skipSamples : Nat) (t : RawTurn φ) : Trimmed φ :=
  trim D (t.skip.getD skipSamples) t.discardPadding t.frame

theorem trim_isSome {k n : Nat} {x : Option φ} (h : (trim D k n x).frame.isSome = true) : x.isSome = true := by
  cases x with
  | none => simp [trim] at h
  | some f => rfl

/-- The decoder as the generic code drives it: avci->skip_samples goes with its state. -/
def AudioDecoder.trimmed (D : AudioDecoder π φ α) : FFCodec π φ where
  State := D.State × Nat
  init := (D.init, D.skipSamples)
  size := D.size
  data := D.data
  sideData := D.sideData
  video := false
  capDelay := D.capDelay
  capSetsFrameProps := D.capSetsFrameProps
  maxSamples := D.maxSamples
  crop := id
  blank := D.blank
  decode d x props :=
    let r := D.decode d.1 x props
    let c := cutTurn D d.2 (rawTurn D props r)
    ⟨r.ret, c.frame, r.frame.isSome, c.discardedSamples, r.state, c.skipSamples⟩
  left d := D.left d.1
  progress d x props _ hret := Or.inr (D.progress d.1 x props hret)
  frames_left d x props := D.frames_left d.1 x props
  kept d x props h := by
    have hsome := trim_isSome h
    rwa [rawTurn_frame] at hsome

structure Untrimmed (D : AudioDecoder π φ α) where
  todo : List π
  inPkt : Option (Rest π)
  turns : List (RawTurn φ)
  priv : D.State

def Untrimmed.start (D : AudioDecoder π φ α) (ps : List π) : Untrimmed D := ⟨ps, none, [], D.init⟩

def Untrimmed.decode (d : D.State) (x : Rest π) : Raw φ D.State :=
  D.decode d (some x) (if D.capSetsFrameProps then none else some x)

def Untrimmed.turn (d : D.State) (x : Rest π) : RawTurn φ :=
  rawTurn D (if D.capSetsFrameProps then none else some x) (decode d x)

def Untrimmed.next (m : Untrimmed D) : Option (Untrimmed D) :=
  match m.inPkt, m.todo with
  | some x, _ =>
      let r := decode m.priv x
      some { m with
        inPkt :=
          if (D.size x.packet - x.consumed : Nat) ≤ r.ret ∨ r.ret < 0 then none else some (x.advance r.ret.toNat)
        turns := m.turns ++ [turn m.priv x]
        priv := r.state }
  | none, p :: ps => some { m with todo := ps, inPkt := if D.size p = 0 then none else some ⟨p, 0⟩ }
  | none, [] => none

def cut (D : AudioDecoder π φ α) (skipSamples : Nat) (ts : List (RawTurn φ)) : List φ × Nat :=
  ts.foldl (fun r t => (r.1 ++ (cutTurn D r.2 t).frame.toList, (cutTurn D r.2 t).skipSamples)) ([], skipSamples)

theorem cut_snoc (k : Nat) (ts : List (RawTurn φ)) (t : RawTurn φ) :
    cut D k (ts ++ [t]) = ((cut D k ts).1 ++ (cutTurn D (cut D k ts).2 t).frame.toList,
      (cutTurn D (cut D k ts).2 t).skipSamples) := by
  rw [cut, List.foldl_append]
  rfl

def Untrimmed.plain (m : Untrimmed D) : Plain D.trimmed :=
  ⟨m.todo, m.inPkt, (cut D D.skipSamples m.turns).1, m.priv, (cut D D.skipSamples m.turns).2⟩

theorem rest_trimmed (d : D.State × Nat) (x : Rest π) : Plain.rest (c := D.trimmed) d x =
    if (D.size x.packet - x.consumed : Nat) ≤ (Untrimmed.decode d.1 x).ret ∨ (Untrimmed.decode d.1 x).ret < 0
    then none else some (x.advance (Untrimmed.decode d.1 x).ret.toNat) := by
  have hread : ∀ n ret, bytesRead D.trimmed.video n ret = ret := fun n ret => if_neg (by simp [AudioDecoder.trimmed])
  simp only [Plain.rest, hread]
  rfl

/-- A step of the driven decoder is a step of the one on its own, cut. -/
theorem Untrimmed.plain_next (m : Untrimmed D) : m.plain.next = m.next.map Untrimmed.plain := by
  obtain ⟨todo, inPkt, turns, priv⟩ := m
  cases inPkt with
  | some x =>
      have hcrop : ∀ fs : List φ, fs.map D.trimmed.crop = fs := List.map_id
      simp only [Untrimmed.plain, Plain.next, Untrimmed.next, Option.map_some, cut_snoc, hcrop, rest_trimmed]
      rfl
  | none =>
      cases todo with
      | nil => rfl
      | cons p ps => rfl

theorem Untrimmed.of_reaches {m : Untrimmed D} {l : Plain D.trimmed} (h : Reaches Plain.next m.plain l) :
    ∃ n, Reaches Untrimmed.next m n ∧ n.plain = l := by
  induction h with
  | refl => exact ⟨m, .refl, rfl⟩
  | tail _ hnext ih =>
      obtain ⟨n, hn, rfl⟩ := ih
      rw [Option.mem_def, plain_next, Option.map_eq_some_iff] at hnext
      obtain ⟨n', hn', rfl⟩ := hnext
      exact ⟨n', hn.tail hn', rfl⟩

def rawSamples (D : AudioDecoder π φ α) (t : RawTurn φ) : List α := t.frame.elim [] D.samples

theorem trimEnd_samples {n : Nat} {f : φ} (hn : n ≤ (D.samples f).length) (discarded k : Nat) :
    (trimEnd D n discarded k f).frame.toList.flatMap D.samples =
      (D.samples f).take ((D.samples f).length - n) ∧
    (trimEnd D n discarded k f).skipSamples = k := by
  unfold trimEnd AudioDecoder.nbSamples
  by_cases hpos : 0 < n ∧ n ≤ (D.samples f).length
  · rw [if_pos hpos]
    by_cases hall : n = (D.samples f).length
    · rw [if_pos hall]
      simp [← hall]
    · rw [if_neg hall]
      simp [D.samples_keepFront]
  · rw [if_neg hpos]
    have hzero : n = 0 := by omega
    simp [hzero]

theorem cutTurn_samples {k : Nat} {t : RawTurn φ} (hskip : t.skip = none)
    (hdiscard : ∀ f, t.frame = some f → D.discard f = false)
    (hpad : t.discardPadding ≤ (rawSamples D t).length - k) :
    (cutTurn D k t).frame.toList.flatMap D.samples =
      ((rawSamples D t).drop k).take ((rawSamples D t).length - k - t.discardPadding) ∧
    (cutTurn D k t).skipSamples = k - (rawSamples D t).length := by
  rw [cutTurn, hskip, Option.getD_none]
  cases hf : t.frame with
  | none => simp [trim, rawSamples, hf]
  | some f =>
      have hraw : rawSamples D t = D.samples f := by rw [rawSamples, hf]; rfl
      rw [hraw] at hpad ⊢
      rw [trim, if_neg (by simp [hdiscard f hf]), AudioDecoder.nbSamples]
      by_cases hpos : 0 < k
      · rw [if_pos hpos]
        by_cases hall : (D.samples f).length ≤ k
        · rw [if_pos hall, List.drop_eq_nil_of_le hall]
          simp
        · rw [if_neg hall]
          have hend := trimEnd_samples (D := D) (n := t.discardPadding) (f := D.dropFront k f)
            (by rw [D.samples_dropFront, List.length_drop]; exact hpad) k 0
          rw [D.samples_dropFront, List.length_drop] at hend
          exact ⟨hend.1, by rw [hend.2]; omega⟩
      · rw [if_neg hpos]
        obtain rfl : k = 0 := by omega
        have hend := trimEnd_samples (D := D) (n := t.discardPadding) (f := f) (by omega) 0 0
        exact ⟨hend.1, by rw [hend.2]; omega⟩

structure Untold (D : AudioDecoder π φ α) (t : RawTurn φ) : Prop where
  skip : t.skip = none
  discardPadding : t.discardPadding = 0
  discard : ∀ f, t.frame = some f → D.discard f = false

theorem cut_samples {ts : List (RawTurn φ)} (h : ∀ t ∈ ts, Untold D t) (k : Nat) :
    (cut D k ts).1.flatMap D.samples = (ts.flatMap (rawSamples D)).drop k ∧
    (cut D k ts).2 = k - (ts.flatMap (rawSamples D)).length := by
  induction ts using List.reverseRecOn with
  | nil => simp [cut]
  | append_singleton ts t ih =>
      obtain ⟨hframes, hleft⟩ := ih (fun u hu => h u (by simp [hu]))
      have ht := h t (by simp)
      obtain ⟨hkept, hrest⟩ := cutTurn_samples (k := (cut D k ts).2) ht.skip ht.discard
        (by rw [ht.discardPadding]; exact Nat.zero_le _)
      rw [ht.discardPadding, Nat.sub_zero, ← List.length_drop, List.take_length] at hkept
      rw [cut_snoc, List.flatMap_append, List.flatMap_append, List.flatMap_singleton, List.drop_append]
      simp only
      rw [hframes, hkept, hrest, hleft, List.length_append]
      exact ⟨rfl, by omega⟩

/-- The first turn tells how many samples to skip; when the last one tells how
many to discard, they have been skipped. The turns between tell nothing. -/
structure Gapless (D : AudioDecoder π φ α) (k : Nat) (t : RawTurn φ) (ts : List (RawTurn φ)) (u : RawTurn φ) :
    Prop where
  skip : t.skip = some k
  first : Untold D { t with skip := none }
  between : ∀ v ∈ ts, Untold D v
  skipped : k ≤ ((t :: ts).flatMap (rawSamples D)).length
  noMore : u.skip = some 0
  kept : ∀ f, u.frame = some f → D.discard f = false
  padding : u.discardPadding ≤ (rawSamples D u).length

/-- Just so many samples are cut off at the beginning and at the end. -/
theorem Gapless.samples {k k₀ : Nat} {t u : RawTurn φ} {ts : List (RawTurn φ)} (h : Gapless D k t ts u) :
    (cut D k₀ (t :: ts ++ [u])).1.flatMap D.samples =
      (((t :: ts ++ [u]).flatMap (rawSamples D)).drop k).take
        (((t :: ts ++ [u]).flatMap (rawSamples D)).length - k - u.discardPadding) := by
  have hfirst : cut D k₀ (t :: ts) = cut D k ({ t with skip := none } :: ts) := by
    simp only [cut, List.foldl_cons, cutTurn, h.skip, Option.getD_some, Option.getD_none]
  have hraw : (({ t with skip := none } :: ts).flatMap (rawSamples D)) = (t :: ts).flatMap (rawSamples D) := rfl
  have huntold : ∀ v ∈ { t with skip := none } :: ts, Untold D v :=
    fun v hv => (List.mem_cons.mp hv).elim (fun hv => hv ▸ h.first) (h.between v)
  have hframes := (cut_samples huntold k).1
  rw [hraw] at hframes
  have hlast : ∀ j, cutTurn D j u = cutTurn D 0 { u with skip := none } := by
    intro j
    simp only [cutTurn, h.noMore, Option.getD_some, Option.getD_none]
  have hkept := (cutTurn_samples (D := D) (k := 0) (t := { u with skip := none }) rfl h.kept h.padding).1
  rw [List.drop_zero, Nat.sub_zero] at hkept
  have hskipped := h.skipped
  have hpad := h.padding
  rw [cut_snoc, hfirst, hlast, List.flatMap_append, List.flatMap_append, List.flatMap_singleton, hframes, hkept]
  change _ ++ (rawSamples D u).take ((rawSamples D u).length - u.discardPadding) = _
  generalize (t :: ts).flatMap (rawSamples D) = xs at hskipped ⊢
  rw [List.drop_append_of_le_length hskipped, List.length_append, List.take_append, List.length_drop]
  have hall : (xs.drop k).take (xs.length + (rawSamples D u).length - k - u.discardPadding) = xs.drop k := by
    apply List.take_of_length_le
    rw [List.length_drop]
    omega
  have hrest : xs.length + (rawSamples D u).length - k - u.discardPadding - (xs.length - k) =
      (rawSamples D u).length - u.discardPadding := by omega
  rw [hall, hrest]

structure RawMannered (D : AudioDecoder π φ α) (drops : Nat) : Prop where
  failed : ∀ d x props, (D.decode d x props).ret < 0 → (D.decode d x props).frame = none
  not_eof : ∀ d x props, (D.decode d x props).ret ≠ eof
  samples_le : ∀ d x props f, (D.decode d x props).frame = some f → (D.samples f).length ≤ drops

theorem trimEnd_discarded_le (n j k : Nat) (f : φ) :
    (trimEnd D n j k f).discardedSamples ≤ j + (D.samples f).length := by
  unfold trimEnd
  split
  · split
    · exact Nat.le_refl _
    · exact Nat.le_add_right _ _
  · exact Nat.le_add_right _ _

theorem trim_discarded_le (k n : Nat) (x : Option φ) :
    (trim D k n x).discardedSamples ≤ (x.elim [] D.samples).length := by
  cases x with
  | none => exact Nat.le_refl _
  | some f =>
      rw [trim, Option.elim_some]
      by_cases hdiscard : D.discard f = true
      · rw [if_pos hdiscard]
        exact Nat.le_refl _
      rw [if_neg hdiscard]
      by_cases hpos : 0 < k
      · rw [if_pos hpos]
        by_cases hall : D.nbSamples f ≤ k
        · rw [if_pos hall]
          exact Nat.le_refl _
        · rw [if_neg hall]
          have hend := trimEnd_discarded_le (D := D) n k 0 (D.dropFront k f)
          rw [D.samples_dropFront, List.length_drop] at hend
          rw [AudioDecoder.nbSamples] at hall
          omega
      · rw [if_neg hpos]
        have hend := trimEnd_discarded_le (D := D) n 0 k f
        omega

theorem trimmed_mannered {drops : Nat} (h : RawMannered D drops) : Mannered D.trimmed drops := by
  refine ⟨fun d x props hret => ?_, fun d x props => h.not_eof d.1 x props, fun d x props => ?_⟩
  · have hnone := h.failed d.1 x props hret
    change (cutTurn D d.2 (rawTurn D props (D.decode d.1 x props))).frame = none
    rw [cutTurn, rawTurn_frame, hnone]
    rfl
  · change (cutTurn D d.2 (rawTurn D props (D.decode d.1 x props))).discardedSamples ≤ drops
    rw [cutTurn, rawTurn_frame]
    refine (trim_discarded_le _ _ _).trans ?_
    cases hf : (D.decode d.1 x props).frame with
    | none => exact Nat.zero_le _
    | some f => exact h.samples_le _ _ _ f hf

def decoders (D : AudioDecoder Payload AVFrame α) (V : FFCodec Payload AVFrame) : Side → FFCodec Payload AVFrame
  | .audio => D.trimmed
  | .video => V

variable {P : Player} {V : FFCodec Payload AVFrame} {height : V.State → Int} {drops : Nat}
  {file : List Payload} {acts : List Act}

/-- Whatever the threads do, the frames of the audio stream are those of the
decoder on its own, cut as the packets and the decoder tell: exactly the
samples told are missing at the beginning and at the end. -/
theorem sound_is_trimmed {D : AudioDecoder Payload AVFrame α}
    {s : State (onDecoders P (decoders D V) height)} (hD : RawMannered D drops)
    (hfile : ∀ x ∈ P.select .audio file, Sized D.trimmed drops x) (h : Runs file acts s) :
    ∃ m : Untrimmed D, Reaches Untrimmed.next (Untrimmed.start D (P.select .audio file)) m ∧
      m.todo = todo .audio s ∧
      frames (s.log.calls .audio) ++ buffered (c := D.trimmed) (s.dec .audio) =
        (cut D D.skipSamples m.turns).1 ∧
      ∀ k t ts u, m.turns = t :: ts ++ [u] → Gapless D k t ts u →
        (frames (s.log.calls .audio) ++ buffered (c := D.trimmed) (s.dec .audio)).flatMap D.samples =
          ((m.turns.flatMap (rawSamples D)).drop k).take
            ((m.turns.flatMap (rawSamples D)).length - k - u.discardPadding) := by
  have hplain := (loop_decodes_plainly (c := D.trimmed) (trimmed_mannered hD) hfile (loop_reached h .audio)).2
  obtain ⟨m, hm, hsame⟩ := Untrimmed.of_reaches (m := Untrimmed.start D (P.select .audio file)) hplain
  have htodo : m.todo = todo .audio s := congrArg Plain.todo hsame
  have hframes : (cut D D.skipSamples m.turns).1 =
      frames (s.log.calls .audio) ++ buffered (c := D.trimmed) (s.dec .audio) := congrArg Plain.frames hsame
  refine ⟨m, hm, htodo, hframes.symm, fun k t ts u hturns hgap => ?_⟩
  rw [← hframes, hturns]
  exact hgap.samples

/-- A packet of one byte is a frame of so many samples; the two bytes before
it, where there are, tell how many samples to skip and to discard. -/
def chunk (x : Option (Rest Payload)) : Raw AVFrame Unit :=
  match x with
  | none => ⟨0, none, none, ()⟩
  | some x =>
      if x.packet.data.length ≤ x.consumed then ⟨0, none, none, ()⟩
      else
        ⟨(x.packet.data.length - x.consumed : Nat),
          some ⟨0, (x.packet.data.getLastD 0).toNat, 0, 0, 0, 44100, 2⟩, none, ()⟩

theorem chunk_progress {x : Option (Rest Payload)} (h : (chunk x).ret = 0) :
    restSize (fun x : Payload => x.data.length) x = 0 := by
  unfold chunk at h
  grind [restSize]

def chunkDecoder : AudioDecoder Payload AVFrame Unit where
  State := Unit
  init := ()
  skipSamples := 0
  size x := x.data.length
  data _ := true
  sideData _ := false
  capDelay := false
  capSetsFrameProps := false
  maxSamples := 2147483647
  blank := ⟨avNoptsValue, 0, 0, 0, 0, 0, 0⟩
  samples f := List.replicate f.nbSamples ()
  discard _ := false
  dropFront n f := { f with nbSamples := f.nbSamples - n }
  keepFront n f := { f with nbSamples := min n f.nbSamples }
  samples_dropFront n f := by rw [List.drop_replicate]
  samples_keepFront n f := by rw [List.take_replicate]
  skipData x :=
    match x.data with
    | [k, n, _] => some (k.toNat, n.toNat)
    | _ => none
  multiplier _ := 1
  decode _ x _ := chunk x
  left _ := 0
  progress _ _ _ h := chunk_progress h
  frames_left d x props := by
    unfold chunk bytesGone bytesRead
    grind [restSize]

theorem chunkDecoder_mannered : RawMannered chunkDecoder 255 := by
  constructor
  · intro d x props
    simp only [chunkDecoder, chunk]
    grind
  · intro d x props
    simp only [chunkDecoder, chunk]
    grind [eof]
  · intro d x props f hf
    simp only [chunkDecoder, chunk] at hf ⊢
    rw [List.length_replicate]
    grind [UInt8.toNat_lt]

def chunky : Player := onDecoders stereo (decoders chunkDecoder byteDecoder) (fun _ => 2)

def gaplessFile : List Payload := [⟨1, [2, 0, 4]⟩, ⟨1, [3]⟩, ⟨1, [0, 1, 5]⟩]

def threeFrames : List Act :=
  List.replicate 39 Act.reader ++ List.replicate 11 (Act.consumer .audio) ++ [.queueAudio true] ++
    List.replicate 14 (Act.consumer .audio) ++ [.queueAudio true] ++ List.replicate 12 (Act.consumer .audio)

theorem threeFrames_runs : ∃ s : State chunky, Runs gaplessFile threeFrames s ∧
    (frames (s.log.calls .audio)).map AVFrame.nbSamples = [2, 3, 4] := by
  obtain ⟨s, hs, hp⟩ := Transition.exists_of_run_any step (start chunky gaplessFile) threeFrames
    (fun s : State chunky => decide ((frames (s.log.calls .audio)).map AVFrame.nbSamples = [2, 3, 4]))
    (by decide)
  exact ⟨s, hs, of_decide_eq_true hp⟩

theorem sound_is_trimmed_sample : ∃ s : State chunky, Runs gaplessFile threeFrames s ∧
    (frames (s.log.calls .audio)).map AVFrame.nbSamples = [2, 3, 4] ∧
    ∃ m : Untrimmed chunkDecoder,
      Reaches Untrimmed.next (Untrimmed.start chunkDecoder (stereo.select .audio gaplessFile)) m ∧
      m.todo = todo .audio s ∧
      frames (s.log.calls .audio) ++ buffered (c := chunkDecoder.trimmed) (s.dec .audio) =
        (cut chunkDecoder chunkDecoder.skipSamples m.turns).1 ∧
      ∀ k t ts u, m.turns = t :: ts ++ [u] → Gapless chunkDecoder k t ts u →
        (frames (s.log.calls .audio) ++ buffered (c := chunkDecoder.trimmed) (s.dec .audio)).flatMap
            chunkDecoder.samples =
          ((m.turns.flatMap (rawSamples chunkDecoder)).drop k).take
            ((m.turns.flatMap (rawSamples chunkDecoder)).length - k - u.discardPadding) := by
  obtain ⟨s, hs, hframes⟩ := threeFrames_runs
  have hsize : ∀ x ∈ stereo.select .audio gaplessFile, x.data.length * 255 ≤ 2147483647 := by decide
  exact ⟨s, hs, hframes, sound_is_trimmed (V := byteDecoder) chunkDecoder_mannered
    (fun x hx => ⟨rfl, hsize x hx⟩) hs⟩

end FfmpegPlayer.SkipSamples
