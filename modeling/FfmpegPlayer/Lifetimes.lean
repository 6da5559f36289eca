import FfmpegPlayer.Leaving
import FfmpegPlayer.Setup

namespace FfmpegPlayer.Lifetimes

open Media Threads MainThread Interleaving Leaving Acquisition

variable {P : Player}

inductive Object
  | fmtCtx
  | decCtx
  | sdl
  | window
  | renderer
  | texture
  | swsCtx
  | frame
  | frameYuv
  | buffer
  | pkt
  | audioDecCtx
  | dev
  | swrCtx
  | audioFrame
  | audioBuf
deriving DecidableEq, Repr

def frees : Cleanup → List Object
  | .freeAudioDecCtx => [.audioDecCtx]
  | .freeAudioFrame => [.audioFrame]
  | .freePkt => [.pkt]
  | .freeBuffer => [.buffer]
  | .freeFrame => [.frame]
  | .freeFrameYuv => [.frameYuv]
  | .freeSwsCtx => [.swsCtx]
  | .freeDecCtx => [.decCtx]
  | .closeInput => [.fmtCtx]
  | .destroyTexture => [.texture]
  | .destroyRenderer => [.renderer]
  | .destroyWindow => [.window]
  | .sdlQuit => [.dev, .sdl]
  | .freeAudioBuf => [.audioBuf]
  | .freeSwrCtx => [.swrCtx]

def readerUses : ReaderPc → List Object
  | .read _ => [.fmtCtx]
  | _ => []

def bodyUses : {i : Side} → FramePc i → List Object
  | _, .convert _ => [.swrCtx, .audioBuf, .audioFrame]
  | _, .queueAudio _ _ => [.dev, .audioBuf]
  -- frame->pts and, where it is set, video_stream->time_base
  | _, .pts _ => [.frame, .fmtCtx]
  | _, .clockQueued _ _ => [.dev]
  | _, .scale _ _ => [.swsCtx, .frame, .decCtx, .frameYuv, .buffer]
  | _, .update _ => [.texture, .frameYuv, .buffer]
  | _, .clear _ => [.renderer]
  | _, .copy _ => [.renderer, .texture]
  | _, .present _ => [.renderer]
  | _, _ => []

def decoderOf : Side → Object
  | .audio => .audioDecCtx
  | .video => .decCtx

def frameOf : Side → Object
  | .audio => .audioFrame
  | .video => .frame

def consumerUses {i : Side} : ConsumerPc i → List Object
  | .send _ => [decoderOf i]
  | .receive _ => [decoderOf i, frameOf i]
  | .frame _ k => bodyUses k
  | _ => []

def mainUses : MainPc → List Object
  | .poll => [.sdl]
  | .cleanup (c :: _) => frees c
  | _ => []

def uses (s : State P) : Thread → List Object
  | .reader => readerUses s.reader
  | .consumer i => consumerUses (s.consumer i)
  | .main => mainUses s.main

def calls (s : State P) : Act → List Cleanup
  | .main => match s.main with
    | .cleanup (c :: _) => [c]
    | _ => []
  | _ => []

def released (P : Player) (file : List Payload) (acts : List Act) : List Object :=
  (Transition.given step calls (start P file) acts).flatMap frees

section Setup

end Setup

end FfmpegPlayer.Lifetimes
