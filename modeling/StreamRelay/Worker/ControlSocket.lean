import StreamRelay.LittleEndian
import StreamRelay.Protocol

/-! The worker's control socket: a datagram is a command, whose header stands in the memory of a
little-endian machine, and the payload of the command. -/
namespace StreamRelay.Worker

open LittleEndian

structure MlControlCmd where
  magic : UInt32
  version : UInt16
  type : UInt16
  a : Int32
  b : Int32
  c : Int32
  d : Int32
  seq : UInt64
  deriving DecidableEq

def mlCtrlMagic : UInt32 := 0x4d4c4354

def mlCtrlVersion : UInt16 := 1

def cmdMouseAbs : UInt16 := 1

def cmdMouseRel : UInt16 := 2

def cmdMouseButton : UInt16 := 3

def cmdMouseClick : UInt16 := 4

def cmdMouseScroll : UInt16 := 5

def cmdMouseHscroll : UInt16 := 6

def cmdKeyboard : UInt16 := 7

def cmdKeyPress : UInt16 := 8

def cmdText : UInt16 := 9

def cmdReqIdr : UInt16 := 10

def mlControlCmdSize : Nat := 32

def mlCtrlMaxPacket : Nat := 2048

/-- memcpy from a packet. -/
def MlControlCmd.read (packet : Bytes) : MlControlCmd where
  magic := UInt32.ofNat (valueAt packet 0 4)
  version := UInt16.ofNat (valueAt packet 4 2)
  type := UInt16.ofNat (valueAt packet 6 2)
  a := (UInt32.ofNat (valueAt packet 8 4)).toInt32
  b := (UInt32.ofNat (valueAt packet 12 4)).toInt32
  c := (UInt32.ofNat (valueAt packet 16 4)).toInt32
  d := (UInt32.ofNat (valueAt packet 20 4)).toInt32
  seq := UInt64.ofNat (valueAt packet 24 8)

/-- A call of the input library. -/
inductive LiCall where
  | sendMousePosition (x y refW refH : Int16)
  | sendMouseMove (deltaX deltaY : Int16)
  | sendMouseButton (action : Int8) (button : Int32)
  | sendScroll (clicks : Int8)
  | sendHScroll (clicks : Int8)
  | sendKeyboard (keyCode : Int16) (keyAction modifiers : Int8)
  | sendUtf8Text (text : Bytes)
  | requestIdrFrame
  deriving DecidableEq

def buttonActionPress : Int8 := 7

def buttonActionRelease : Int8 := 8

def keyActionDown : Int8 := 3

def keyActionUp : Int8 := 4

def clampInt (v lo hi : Int32) : Int32 := if v < lo then lo else if v > hi then hi else v

def clampShortSigned (v : Int32) : Int16 :=
  if v < -32768 then -32768 else if v > 32767 then 32767 else v.toInt16

section Dispatch

variable (li : LiCall → Int)

/-- Two calls, the second if the first succeeds. -/
def both (first second : LiCall) : List LiCall × Int :=
  if li first ≠ 0 then ([first], li first) else ([first, second], li second)

/-- The calls that a command makes, and what it returns. -/
def dispatchCmd (referenceWidth referenceHeight : Int32) (cmd : MlControlCmd) (payload : Bytes) :
    List LiCall × Int :=
  if cmd.type = cmdMouseAbs then
    let refW := if cmd.c > 0 then cmd.c else referenceWidth
    let refH := if cmd.d > 0 then cmd.d else referenceHeight
    if refW ≤ 0 || refH ≤ 0 then ([], -1)
    else
      let x := clampInt cmd.a 0 (refW - 1)
      let y := clampInt cmd.b 0 (refH - 1)
      let call := LiCall.sendMousePosition x.toInt16 y.toInt16 refW.toInt16 refH.toInt16
      ([call], li call)
  else if cmd.type = cmdMouseRel then
    let call := LiCall.sendMouseMove (clampShortSigned cmd.a) (clampShortSigned cmd.b)
    ([call], li call)
  else if cmd.type = cmdMouseButton then
    let call := LiCall.sendMouseButton cmd.a.toInt8 cmd.b
    ([call], li call)
  else if cmd.type = cmdMouseClick then
    both li (.sendMouseButton buttonActionPress cmd.a) (.sendMouseButton buttonActionRelease cmd.a)
  else if cmd.type = cmdMouseScroll then
    ([.sendScroll cmd.a.toInt8], li (.sendScroll cmd.a.toInt8))
  else if cmd.type = cmdMouseHscroll then
    ([.sendHScroll cmd.a.toInt8], li (.sendHScroll cmd.a.toInt8))
  else if cmd.type = cmdKeyboard then
    let call := LiCall.sendKeyboard cmd.a.toInt16 cmd.b.toInt8 cmd.c.toInt8
    ([call], li call)
  else if cmd.type = cmdKeyPress then
    both li (.sendKeyboard cmd.a.toInt16 keyActionDown cmd.b.toInt8)
      (.sendKeyboard cmd.a.toInt16 keyActionUp cmd.b.toInt8)
  else if cmd.type = cmdText then
    if Int32.ofNat payload.length ≠ cmd.a then ([], -1)
    else if payload.length = 0 then ([], 0)
    else ([.sendUtf8Text payload], li (.sendUtf8Text payload))
  else if cmd.type = cmdReqIdr then ([.requestIdrFrame], 0)
  else ([], -1)

/-- A call of dispatch_cmd with what it is given and what it does. -/
structure Dispatch where
  cmd : MlControlCmd
  payload : Bytes
  calls : List LiCall
  rc : Int
  deriving DecidableEq

/-- One round of control_socket_process_all; what is beyond the buffer is lost. -/
def processPacket (referenceWidth referenceHeight : Int32) (datagram : Bytes) : Option Dispatch :=
  let packet := datagram.take mlCtrlMaxPacket
  if packet.length < mlControlCmdSize then none
  else
    let cmd := MlControlCmd.read packet
    if cmd.magic ≠ mlCtrlMagic then none
    else if cmd.version ≠ mlCtrlVersion then none
    else
      let payload := packet.drop mlControlCmdSize
      let done := dispatchCmd li referenceWidth referenceHeight cmd payload
      some ⟨cmd, payload, done.1, done.2⟩

/-- The datagrams are taken until none is left. -/
def controlSocketProcessAll (referenceWidth referenceHeight : Int32) (queue : List Bytes) :
    List Dispatch :=
  queue.filterMap (processPacket li referenceWidth referenceHeight)

end Dispatch

end StreamRelay.Worker
