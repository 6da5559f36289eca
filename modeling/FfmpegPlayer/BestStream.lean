import FfmpegPlayer.Setup
import Mathlib.Data.List.MinMax
import Mathlib.Data.Prod.Lex
import Mathlib.Data.List.FinRange
import Mathlib.Data.Int.ConditionallyCompleteOrder

namespace FfmpegPlayer.BestStream

open SendReceive Media Setup

inductive AVMediaType
  | unknown
  | video
  | audio
  | data
  | subtitle
  | attachment
deriving DecidableEq, Repr

structure AVStream where
  codecType : AVMediaType
  codecId : Int
  nbChannels : Int
  sampleRate : Int
  bitRate : Int
  disposition : BitVec 32
  codecInfoNbFrames : Int
deriving DecidableEq, Repr

structure AVFormatContext where
  nbStreams : Nat
  streams : Fin nbStreams → AVStream
  programs : List (List (Fin nbStreams))

def averrorStreamNotFound : Int := -1381258232

def averrorDecoderNotFound : Int := -1128613112

/-- The arguments of av_find_best_stream; `decoder` is ff_find_decoder, where
the caller asks for a decoder. -/
structure Request (δ : Type) where
  type : AVMediaType
  wantedStreamNb : Int
  relatedStream : Int
  decoder : Option (AVStream → Option δ)

structure Best (δ : Type) where
  ret : Int
  disposition : Int
  multiframe : Int
  bitrate : Int
  count : Int
  decoder : Option δ

def Best.start (δ : Type) : Best δ := ⟨averrorStreamNotFound, -1, -1, -1, -1, none⟩

def dispositionOf (st : AVStream) : Int :=
  (if st.disposition &&& (1 <<< 7 ||| 1 <<< 8) = 0 then 1 else 0) +
    (if st.disposition &&& 1 = 0 then 0 else 1)

def multiframeOf (st : AVStream) : Int := min 5 st.codecInfoNbFrames

variable {δ : Type} {ic : AVFormatContext}

def Best.Beats (b : Best δ) (st : AVStream) : Prop :=
  dispositionOf st < b.disposition ∨
  (b.disposition = dispositionOf st ∧ multiframeOf st < b.multiframe) ∨
  (b.disposition = dispositionOf st ∧ b.multiframe = multiframeOf st ∧ st.bitRate < b.bitrate) ∨
  (b.disposition = dispositionOf st ∧ b.multiframe = multiframeOf st ∧ b.bitrate = st.bitRate ∧
    st.codecInfoNbFrames ≤ b.count)

instance (b : Best δ) (st : AVStream) : Decidable (b.Beats st) :=
  inferInstanceAs (Decidable (_ ∨ _))

def chosen (ic : AVFormatContext) (i : Fin ic.nbStreams) (decoder : Option δ) : Best δ where
  ret := i.val
  disposition := dispositionOf (ic.streams i)
  multiframe := multiframeOf (ic.streams i)
  bitrate := (ic.streams i).bitRate
  count := (ic.streams i).codecInfoNbFrames
  decoder := decoder

/-- One turn of the loop. The last test of its body, `ret < 0` just after ret
has become the index of a stream, is never true and left out. -/
def consider (q : Request δ) (b : Best δ) (i : Fin ic.nbStreams) : Best δ :=
  let st := ic.streams i
  let unlessBeaten (decoder : Option δ) : Best δ := if b.Beats st then b else chosen ic i decoder
  if st.codecType ≠ q.type then b
  else if 0 ≤ q.wantedStreamNb ∧ (i.val : Int) ≠ q.wantedStreamNb then b
  else if q.type = .audio ∧ ¬ (st.nbChannels ≠ 0 ∧ st.sampleRate ≠ 0) then b
  else
    match q.decoder with
    | none => unlessBeaten none
    | some find =>
        match find st with
        | none => if b.ret < 0 then { b with ret := averrorDecoderNotFound } else b
        | some d => unlessBeaten (some d)

def avFindProgramFromStream (ic : AVFormatContext) (s : Int) : Option (List (Fin ic.nbStreams)) :=
  ic.programs.find? (fun p => p.any (fun i => (i.val : Int) = s))

def searched (ic : AVFormatContext) (q : Request δ) : List (Fin ic.nbStreams) :=
  if 0 ≤ q.relatedStream ∧ q.wantedStreamNb < 0 then
    (avFindProgramFromStream ic q.relatedStream).getD (List.finRange ic.nbStreams)
  else List.finRange ic.nbStreams

def avFindBestStream (ic : AVFormatContext) (q : Request δ) : Int × Option δ :=
  let b := (searched ic q).foldl (consider q) (Best.start δ)
  (b.ret, b.decoder)

structure Suits (q : Request δ) (i : Fin ic.nbStreams) : Prop where
  type : (ic.streams i).codecType = q.type
  wanted : 0 ≤ q.wantedStreamNb → (i.val : Int) = q.wantedStreamNb
  audio : q.type = .audio → (ic.streams i).nbChannels ≠ 0 ∧ (ic.streams i).sampleRate ≠ 0

def decoderOf (q : Request δ) (i : Fin ic.nbStreams) : Option δ := q.decoder.bind (fun find => find (ic.streams i))

def decodable (q : Request δ) (i : Fin ic.nbStreams) : Bool := q.decoder.isNone || (decoderOf q i).isSome

instance (q : Request δ) (i : Fin ic.nbStreams) : Decidable (Suits q i) :=
  decidable_of_iff ((ic.streams i).codecType = q.type ∧ (0 ≤ q.wantedStreamNb → (i.val : Int) = q.wantedStreamNb) ∧
    (q.type = .audio → (ic.streams i).nbChannels ≠ 0 ∧ (ic.streams i).sampleRate ≠ 0))
    ⟨fun ⟨h, h', h''⟩ => ⟨h, h', h''⟩, fun ⟨h, h', h''⟩ => ⟨h, h', h''⟩⟩

def key (ic : AVFormatContext) (i : Fin ic.nbStreams) : Int ×ₗ Int ×ₗ Int ×ₗ Int :=
  toLex (dispositionOf (ic.streams i), toLex (multiframeOf (ic.streams i),
    toLex ((ic.streams i).bitRate, (ic.streams i).codecInfoNbFrames)))

/-- Of the streams that suit and can be decoded, the first of the best. -/
noncomputable def bestOf (q : Request δ) (is : List (Fin ic.nbStreams)) : Option (Fin ic.nbStreams) :=
  (is.filter (fun i => Suits q i ∧ decodable q i)).argmax (key ic)

theorem chosen_beats (i j : Fin ic.nbStreams) (d : Option δ) :
    (chosen ic i d).Beats (ic.streams j) ↔ ¬ key ic i < key ic j := by
  simp only [Best.Beats, chosen, key, Prod.Lex.toLex_lt_toLex]
  omega

theorem dispositionOf_nonneg (st : AVStream) : 0 ≤ dispositionOf st := by
  unfold dispositionOf
  split <;> split <;> decide

theorem start_beats (ret : Int) (st : AVStream) : ¬ { Best.start δ with ret := ret }.Beats st := by
  have h := dispositionOf_nonneg st
  simp only [Best.Beats, Best.start]
  omega

theorem consider_suits {q : Request δ} {i : Fin ic.nbStreams} (h : Suits q i) (b : Best δ) :
    consider q b i =
      if decodable q i then (if b.Beats (ic.streams i) then b else chosen ic i (decoderOf q i))
      else if b.ret < 0 then { b with ret := averrorDecoderNotFound } else b := by
  have htype := h.type
  have hwanted : ¬ (0 ≤ q.wantedStreamNb ∧ (i.val : Int) ≠ q.wantedStreamNb) := fun hw => hw.2 (h.wanted hw.1)
  have haudio : ¬ (q.type = .audio ∧ ¬ ((ic.streams i).nbChannels ≠ 0 ∧ (ic.streams i).sampleRate ≠ 0)) :=
    fun ha => ha.2 (h.audio ha.1)
  rw [consider]
  simp only [htype, ne_eq, not_true_eq_false, if_false, if_neg haudio]
  rw [if_neg hwanted, decodable, decoderOf]
  cases q.decoder with
  | none => simp
  | some find => cases hf : find (ic.streams i) <;> simp [hf]

theorem consider_unsuited {q : Request δ} {i : Fin ic.nbStreams} (h : ¬ Suits q i) (b : Best δ) :
    consider q b i = b := by
  rw [consider]
  by_cases htype : (ic.streams i).codecType = q.type
  · by_cases hwanted : 0 ≤ q.wantedStreamNb ∧ (i.val : Int) ≠ q.wantedStreamNb
    · simp [htype, hwanted]
    · have haudio : q.type = .audio ∧ ¬ ((ic.streams i).nbChannels ≠ 0 ∧ (ic.streams i).sampleRate ≠ 0) := by
        by_contra hno
        refine h ⟨htype, fun hw => ?_, fun ha => ?_⟩
        · by_contra hne
          exact hwanted ⟨hw, hne⟩
        · by_contra hne
          exact hno ⟨ha, hne⟩
      simp only [htype, ne_eq, not_true_eq_false, if_false, if_neg hwanted, if_pos haudio]
  · simp only [ne_eq, htype, not_false_eq_true, if_true]

/-- Where the loop stands after some streams: the best of them has been chosen,
or none suits, or none of those that suit has a decoder. -/
noncomputable def reached (q : Request δ) (is : List (Fin ic.nbStreams)) : Best δ :=
  match bestOf q is with
  | some i => chosen ic i (decoderOf q i)
  | none =>
      if is.any (fun i => Suits q i) then { Best.start δ with ret := averrorDecoderNotFound }
      else Best.start δ

theorem reached_ret_nonneg {q : Request δ} {is : List (Fin ic.nbStreams)} {j : Fin ic.nbStreams}
    (h : bestOf q is = some j) : ¬ (reached q is).ret < 0 := by
  rw [reached, h]
  exact Int.not_lt.mpr (Int.natCast_nonneg _)

theorem reached_of_none {q : Request δ} {is : List (Fin ic.nbStreams)} (h : bestOf q is = none) :
    ∃ ret < 0, reached q is = { Best.start δ with ret := ret } := by
  by_cases hany : is.any (fun i => Suits q i) = true
  · exact ⟨averrorDecoderNotFound, by decide, by rw [reached, h]; exact if_pos hany⟩
  · exact ⟨averrorStreamNotFound, by decide, by rw [reached, h]; exact if_neg hany⟩

theorem consider_undecodable {q : Request δ} {is : List (Fin ic.nbStreams)} {i : Fin ic.nbStreams}
    (hs : Suits q i) (hd : decodable q i = false) : consider q (reached q is) i = reached q (is ++ [i]) := by
  have hsame : bestOf q (is ++ [i]) = bestOf q is := by simp [bestOf, hd]
  rw [consider_suits hs, if_neg (by simp [hd])]
  cases hb : bestOf q is with
  | none =>
      obtain ⟨ret, hneg, hr⟩ := reached_of_none hb
      rw [hr, if_pos hneg, reached, hsame, hb]
      simp [hs]
  | some j =>
      rw [if_neg (reached_ret_nonneg hb), reached, reached, hsame, hb]

theorem consider_decodable {q : Request δ} {is : List (Fin ic.nbStreams)} {i : Fin ic.nbStreams}
    (hs : Suits q i) (hd : decodable q i = true) : consider q (reached q is) i = reached q (is ++ [i]) := by
  have hbest : bestOf q (is ++ [i]) =
      Option.casesOn (bestOf q is) (some i) fun j => if key ic j < key ic i then some i else some j := by
    rw [bestOf, List.filter_append, List.filter_singleton]
    simp only [hs, hd, and_self, decide_true, cond_true]
    exact List.argmax_concat _ _ _
  rw [consider_suits hs, if_pos hd]
  cases hb : bestOf q is with
  | none =>
      obtain ⟨ret, -, hr⟩ := reached_of_none hb
      rw [hr, if_neg (start_beats ret _), reached, hbest, hb]
  | some j =>
      have hj : reached q is = chosen ic j (decoderOf q j) := by rw [reached, hb]
      rw [hj, reached, hbest, hb]
      simp only [chosen_beats]
      by_cases hless : key ic j < key ic i
      · simp [hless]
      · simp [hless]

theorem consider_reached (q : Request δ) (is : List (Fin ic.nbStreams)) (i : Fin ic.nbStreams) :
    consider q (reached q is) i = reached q (is ++ [i]) := by
  by_cases hs : Suits q i
  · cases hd : decodable q i with
    | false => exact consider_undecodable hs hd
    | true => exact consider_decodable hs hd
  · rw [consider_unsuited hs]
    simp [reached, bestOf, hs]

theorem foldl_consider (q : Request δ) (is : List (Fin ic.nbStreams)) :
    is.foldl (consider q) (Best.start δ) = reached q is := by
  induction is using List.reverseRecOn with
  | nil => rfl
  | append_singleton is i ih =>
      rw [List.foldl_append, ih]
      exact consider_reached q is i

/-- The loop, which remembers four numbers of the best stream so far, finds the
first of the best streams; where there is none, it tells whether one was only
lacking a decoder. -/
theorem av_find_best_stream_eq (q : Request δ) : avFindBestStream ic q =
    match ((searched ic q).filter (fun i => Suits q i ∧ decodable q i)).argmax (key ic) with
    | some i => (i.val, decoderOf q i)
    | none =>
        (if (searched ic q).any (fun i => Suits q i) then averrorDecoderNotFound
          else averrorStreamNotFound, none) := by
  rw [avFindBestStream, foldl_consider, reached, ← bestOf]
  cases bestOf q (searched ic q) with
  | some i => rfl
  | none =>
      by_cases hany : (searched ic q).any (fun i => Suits q i) = true
      · simp only [hany, if_true]
        rfl
      · simp only [hany]
        rfl

structure IsBest (q : Request δ) (i : Fin ic.nbStreams) : Prop where
  suits : Suits q i
  decodable : decodable q i = true
  best : ∀ j ∈ searched ic q, Suits q j → BestStream.decodable q j = true → key ic j ≤ key ic i

theorem isBest_of_found {q : Request δ} (h : 0 ≤ (avFindBestStream ic q).1) :
    ∃ i : Fin ic.nbStreams, (avFindBestStream ic q).1 = i.val ∧ IsBest q i := by
  rw [avFindBestStream, foldl_consider] at h ⊢
  cases hb : bestOf q (searched ic q) with
  | none =>
      obtain ⟨ret, hneg, hr⟩ := reached_of_none hb
      rw [hr] at h
      exact absurd h (Int.not_le.mpr hneg)
  | some i =>
      have hmem := List.argmax_mem hb
      rw [List.mem_filter] at hmem
      simp only [decide_eq_true_eq] at hmem
      refine ⟨i, by rw [reached, hb]; rfl, hmem.2.1, hmem.2.2, fun j hj hs hd => ?_⟩
      exact List.le_of_mem_argmax (List.mem_filter.mpr ⟨hj, by simp [hs, hd]⟩) hb

def ofKind (type : AVMediaType) : Request Unit := ⟨type, -1, -1, none⟩

structure FoundIn (ic : AVFormatContext) (r : Results) : Prop where
  video : r.videoStreamIndex = (avFindBestStream ic (ofKind .video)).1
  audio : r.audioStreamIndex = (avFindBestStream ic (ofKind .audio)).1

theorem prepareAudio_streams (r : Results) (rs : List Resource) :
    Acquisition.Ensures rs (prepareAudio r)
      (fun e _ => e.videoStreamIndex = r.videoStreamIndex ∧ e.audioStreamIndex = r.audioStreamIndex)
      (fun _ _ => True) := by
  unfold prepareAudio
  refine .require_bind (fun _ => trivial) (fun _ => ?_)
  refine .require_bind (fun _ => trivial) (fun _ => ?_)
  refine .require_bind (fun _ => trivial) (fun _ => ?_)
  refine .require_bind (fun _ => trivial) (fun _ => ?_)
  exact .require_bind (fun _ => trivial) (fun _ => .pure ⟨rfl, rfl⟩)

theorem setup_streams (r : Results) :
    Acquisition.Ensures [] (setup r)
      (fun e _ => Opened r ∧ e.videoStreamIndex = r.videoStreamIndex ∧
        e.audioStreamIndex = r.audioStreamIndex) (fun _ _ => True) := by
  refine .bind (R := fun _ _ => Opened r) ?_ (fun _ rs ho => ?_)
  · exact (openVideo_ensures r).mono (fun _ _ h => h.1) (fun _ _ _ => trivial)
  · exact (prepareAudio_streams r rs).mono (fun _ _ h => ⟨ho, h⟩) (fun _ _ _ => trivial)

/-- The two streams that the threads are started on are streams of the file,
each one of the best of its kind, and not the same. -/
theorem streams_of_setup {r : Results} (hr : FoundIn ic r) {e : Env} {us : List (Acquisition.Use Resource)}
    (hrun : (setup r).run [] = (.ok e, us)) : ∃ v a : Fin ic.nbStreams,
      e.videoStreamIndex = v.val ∧ e.audioStreamIndex = a.val ∧
      IsBest (ofKind .video) v ∧ IsBest (ofKind .audio) a ∧ v ≠ a := by
  obtain ⟨_, -, hstreams⟩ := setup_streams r [] rfl
  obtain ⟨_, -, hstarted⟩ := setup_ensures r [] rfl
  rw [hrun] at hstreams hstarted
  obtain ⟨ho, hv, ha⟩ := hstreams
  have hvideo := ho.videoStream
  have haudio := hstarted.2.2
  rw [hr.video] at hv hvideo
  rw [ha, hr.audio] at haudio
  rw [hr.audio] at ha
  obtain ⟨v, hvi, hvbest⟩ := isBest_of_found hvideo
  obtain ⟨a, hai, habest⟩ := isBest_of_found haudio
  refine ⟨v, a, hv.trans hvi, ha.trans hai, hvbest, habest, fun hsame => ?_⟩
  have hkind := hvbest.suits.type
  rw [hsame, habest.suits.type] at hkind
  cases hkind

def twoTracks : AVFormatContext where
  nbStreams := 3
  streams := fun i =>
    [⟨.video, 27, 0, 0, 900000, 1, 6⟩, ⟨.audio, 86018, 2, 44100, 128000, 0, 9⟩,
      ⟨.audio, 86018, 2, 44100, 96000, 1, 9⟩].get i
  programs := []

def twoTracksResults : Results := { videoOnly with audioStreamIndex := 2 }

theorem twoTracks_found : FoundIn twoTracks twoTracksResults := ⟨by decide, by decide⟩

theorem streams_of_setup_sample : ∃ e us, (setup twoTracksResults).run [] = (.ok e, us) ∧
    e.audioStreamIndex = 2 ∧ ∃ v a : Fin twoTracks.nbStreams,
      e.videoStreamIndex = v.val ∧ e.audioStreamIndex = a.val ∧
      IsBest (ofKind .video) v ∧ IsBest (ofKind .audio) a ∧ v ≠ a :=
  ⟨_, _, rfl, rfl, streams_of_setup twoTracks_found rfl⟩

end FfmpegPlayer.BestStream
