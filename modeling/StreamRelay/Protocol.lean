import Mathlib.Data.List.Basic

/-! The stream metadata of the TLV protocol, as the receiving server parses it.
All fields travel as big-endian 32-bit words. -/
namespace StreamRelay

abbrev Bytes := List UInt8

structure StreamInfo where
  width : UInt32
  height : UInt32
  fps : UInt32
  bitrate : UInt32
  codec : UInt32
  chroma : UInt32
  bitdepth : UInt32
  videoFormat : UInt32
  colorSpace : UInt32
  colorRange : UInt32
  deriving DecidableEq, Repr

def StreamInfo.zero : StreamInfo := ⟨0, 0, 0, 0, 0, 0, 0, 0, 0, 0⟩

/-- MAX_STREAMS, the compile-time bound on stream ids. -/
def maxStreamsLimit : Nat := 256

def tcpHeaderSize : Nat := 7

/-- The word at a byte offset; the callers have checked the length. -/
def word32 (buf : Bytes) (offset : Nat) : UInt32 :=
  ((buf.getD offset 0).toUInt32 <<< 24) ||| ((buf.getD (offset + 1) 0).toUInt32 <<< 16) |||
    ((buf.getD (offset + 2) 0).toUInt32 <<< 8) ||| (buf.getD (offset + 3) 0).toUInt32

/-- The payload has 16, 32 or 40 bytes; what an older sender leaves out is defaulted. -/
def protocolParseStreamInfo (buf : Bytes) : Option StreamInfo :=
  if buf.length < 16 then none
  else
    let base : StreamInfo :=
      {StreamInfo.zero with
        width := word32 buf 0, height := word32 buf 4, fps := word32 buf 8,
        bitrate := word32 buf 12}
    if 32 ≤ buf.length then
      let full := {base with
        codec := word32 buf 16, chroma := word32 buf 20, bitdepth := word32 buf 24,
        videoFormat := word32 buf 28}
      if 40 ≤ buf.length then
        some {full with colorSpace := word32 buf 32, colorRange := word32 buf 36}
      else some full
    else some {base with bitdepth := 8}

end StreamRelay
