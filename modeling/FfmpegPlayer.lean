import FfmpegPlayer.Transition
import FfmpegPlayer.Fifo
import FfmpegPlayer.Ownership
import FfmpegPlayer.SendReceive
import FfmpegPlayer.SequentialLoop
import FfmpegPlayer.BlockStream
import FfmpegPlayer.CondVar
import FfmpegPlayer.Binary64
import FfmpegPlayer.Media
import FfmpegPlayer.Threads
import FfmpegPlayer.ReadThread
import FfmpegPlayer.ConsumerThreads
import FfmpegPlayer.MainThread
import FfmpegPlayer.Interleaving
import FfmpegPlayer.PacketFlow
import FfmpegPlayer.Packets
import FfmpegPlayer.Leaving
import FfmpegPlayer.Wakeups
import FfmpegPlayer.QueueBound
import FfmpegPlayer.Shutdown
import FfmpegPlayer.AudioClock
import FfmpegPlayer.Decoding
import FfmpegPlayer.Playback
import FfmpegPlayer.Accounting
import FfmpegPlayer.Conversion
import FfmpegPlayer.Presentation
import FfmpegPlayer.Stall
import FfmpegPlayer.DeviceQueue
import FfmpegPlayer.Timeline
import FfmpegPlayer.Resampling
import FfmpegPlayer.Tail
import FfmpegPlayer.DecodeLoop
import FfmpegPlayer.Acquisition
import FfmpegPlayer.Setup
import FfmpegPlayer.Locking
import FfmpegPlayer.Deadlock
import FfmpegPlayer.Reference
import FfmpegPlayer.Termination
import FfmpegPlayer.Returning
import FfmpegPlayer.LivePackets
import FfmpegPlayer.Sync
import FfmpegPlayer.SimpleDecoder
import FfmpegPlayer.ReceiveLoop
import FfmpegPlayer.PlainDecoding
import FfmpegPlayer.Libavcodec
import FfmpegPlayer.SlidingBuffer
import FfmpegPlayer.SwrConvert
import FfmpegPlayer.BestStream
import FfmpegPlayer.SkipSamples
import FfmpegPlayer.Bitmap
import FfmpegPlayer.ImageBuffer
import FfmpegPlayer.SwsScale
import FfmpegPlayer.ReadFrame
import FfmpegPlayer.Demuxing
import FfmpegPlayer.Lifetimes
import FfmpegPlayer.Window
import FfmpegPlayer.AvioBuf
import FfmpegPlayer.BufferedFile
import FfmpegPlayer.PlainFile
import FfmpegPlayer.Seekback
import FfmpegPlayer.Probing
import FfmpegPlayer.ProbeFormat
import FfmpegPlayer.Numbers
import FfmpegPlayer.Pick
import FfmpegPlayer.Starving
