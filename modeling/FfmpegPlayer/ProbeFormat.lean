import FfmpegPlayer.Pick
import Mathlib.Data.UInt

namespace FfmpegPlayer.ProbeFormat

open Pick

def avprobeScoreExtension : Int := 50

def avprobeScoreMime : Int := 75

def id3v2HeaderSize : Nat := 10

def probeBufMax : Nat := 1048576

def ffId3v2Match : List UInt8 → Bool
  | b0 :: b1 :: b2 :: b3 :: b4 :: _ :: b6 :: b7 :: b8 :: b9 :: _ =>
      b0 == 0x49 && b1 == 0x44 && b2 == 0x33 && b3 != 0xff && b4 != 0xff &&
        b6 &&& 0x80 == 0 && b7 &&& 0x80 == 0 && b8 &&& 0x80 == 0 && b9 &&& 0x80 == 0
  | _ => false

def ffId3v2TagLen : List UInt8 → Nat
  | _ :: _ :: _ :: _ :: _ :: b5 :: b6 :: b7 :: b8 :: b9 :: _ =>
      let len := (b6 &&& 0x7f).toNat <<< 21 + (b7 &&& 0x7f).toNat <<< 14 + (b8 &&& 0x7f).toNat <<< 7 +
        (b9 &&& 0x7f).toNat + id3v2HeaderSize
      if b5 &&& 0x10 ≠ 0 then len + id3v2HeaderSize else len
  | _ => 0

/-- What probing reads of an AVInputFormat, for a file of one name: read_probe, then what
av_match_ext says of it, and av_match_name for a MIME type. -/
structure AVInputFormat where
  name : String
  experimental : Bool
  noFile : Bool
  readProbe : Option (List UInt8 → Int)
  matchesExt : Bool
  matchesMime : String → Bool

inductive Nodat
  | noId3
  | id3AlmostGreaterProbe
  | id3GreaterProbe
  | id3GreaterMaxProbe
deriving DecidableEq, Repr

def skipId3 (data : List UInt8) : Nodat × List UInt8 :=
  if 10 < data.length ∧ ffId3v2Match data then
    let id3len := ffId3v2TagLen data
    if id3len + 16 < data.length then
      (if data.length < 2 * id3len + 16 then .id3AlmostGreaterProbe else .noId3, data.drop id3len)
    else if probeBufMax ≤ id3len then (.id3GreaterMaxProbe, data)
    else (.id3GreaterProbe, data)
  else (.noId3, data)

def extensionScore (score : Int) : Nodat → Int
  | .noId3 => max score 1
  | .id3GreaterProbe | .id3AlmostGreaterProbe => max score (avprobeScoreExtension / 2 - 1)
  | .id3GreaterMaxProbe => max score avprobeScoreExtension

def scoreOf (mime : Option String) (nodat : Nodat) (data : List UInt8) (fmt : AVInputFormat) : Int :=
  let score := match fmt.readProbe with
    | some readProbe =>
        let score := readProbe data
        if fmt.matchesExt then extensionScore score nodat else score
    | none => if fmt.matchesExt then avprobeScoreExtension else 0
  if mime.any fmt.matchesMime ∧ score < avprobeScoreMime then avprobeScoreMime else score

def Considered (isOpened : Bool) (fmt : AVInputFormat) : Prop :=
  fmt.experimental = false ∧ ¬ ((!isOpened) = (!fmt.noFile) ∧ fmt.name ≠ "image2")

instance (isOpened : Bool) (fmt : AVInputFormat) : Decidable (Considered isOpened fmt) :=
  inferInstanceAs (Decidable (_ ∧ _))

def avProbeInputFormat3 (demuxers : List AVInputFormat) (isOpened : Bool) (mime : Option String)
    (data : List UInt8) : Option AVInputFormat × Int :=
  let t := skipId3 data
  let c := demuxers.foldl
    (fun c fmt => if Considered isOpened fmt then pick (scoreOf mime t.1 t.2) c fmt else c) (none, 0)
  (c.1, if t.1 = .id3GreaterProbe then min (avprobeScoreExtension / 2 - 1) c.2 else c.2)

/-- An ID3 tag of which the end has not been seen tells little. -/
def cap (nodat : Nodat) (score : Int) : Int :=
  if nodat = .id3GreaterProbe then min (avprobeScoreExtension / 2 - 1) score else score

def choice (demuxers : List AVInputFormat) (isOpened : Bool) (mime : Option String) (data : List UInt8) :
    Option AVInputFormat × Int :=
  (demuxers.filter (Considered isOpened)).foldl (pick (scoreOf mime (skipId3 data).1 (skipId3 data).2)) (none, 0)

theorem picked_choice (demuxers : List AVInputFormat) (isOpened : Bool) (mime : Option String) (data : List UInt8) :
    Picked (scoreOf mime (skipId3 data).1 (skipId3 data).2) 0 (demuxers.filter (Considered isOpened))
      (choice demuxers isOpened mime data) :=
  picked_foldl _ _ 0

theorem avProbeInputFormat3_eq (demuxers : List AVInputFormat) (isOpened : Bool) (mime : Option String) (data : List UInt8) :
    avProbeInputFormat3 demuxers isOpened mime data =
      ((choice demuxers isOpened mime data).1, cap (skipId3 data).1 (choice demuxers isOpened mime data).2) := by
  simp only [avProbeInputFormat3, choice, List.foldl_filter, decide_eq_true_eq, cap]

theorem choice_eq_of_perm {demuxers demuxers' : List AVInputFormat} (hp : demuxers.Perm demuxers') (isOpened : Bool)
    (mime : Option String) (data : List UInt8) : choice demuxers isOpened mime data = choice demuxers' isOpened mime data :=
  (picked_choice demuxers isOpened mime data).eq_of_perm (hp.filter (Considered isOpened))
    (picked_choice demuxers' isOpened mime data)

/-- The format is the one demuxer that scores highest of those considered, if any of them
scores; where two share the highest score there is none. -/
theorem unique_highest (demuxers : List AVInputFormat) (isOpened : Bool) (mime : Option String) (data : List UInt8) :
    ∃ top, Picked (scoreOf mime (skipId3 data).1 (skipId3 data).2) 0 (demuxers.filter (Considered isOpened))
        ((avProbeInputFormat3 demuxers isOpened mime data).1, top) ∧
      (avProbeInputFormat3 demuxers isOpened mime data).2 = cap (skipId3 data).1 top := by
  refine ⟨(choice demuxers isOpened mime data).2, ?_, ?_⟩
  · rw [avProbeInputFormat3_eq]
    exact picked_choice demuxers isOpened mime data
  · rw [avProbeInputFormat3_eq]

/-- The order in which the demuxers are registered does not matter. -/
theorem avProbeInputFormat3_eq_of_perm {demuxers demuxers' : List AVInputFormat} (hp : demuxers.Perm demuxers')
    (isOpened : Bool) : avProbeInputFormat3 demuxers isOpened = avProbeInputFormat3 demuxers' isOpened := by
  funext mime data
  rw [avProbeInputFormat3_eq, avProbeInputFormat3_eq, choice_eq_of_perm hp]

end FfmpegPlayer.ProbeFormat
