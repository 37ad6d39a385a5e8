import StreamRelay.Agent.Handshake
import StreamRelay.Arrival

/-! The agent's control connections: the AUTH line if there is a token, a SUB line if there is
one, and frames that are forwarded to the worker as datagrams. -/
namespace StreamRelay.Agent.Control

open Arrival

/-- The largest part of an AUTH line that is looked at. -/
def authPeekSize : Nat := 511

def isBlank (byte : UInt8) : Bool := byte = 32 || byte = 9 || byte = 13 || byte = 10

/-- The size of the buffer for the presented token, a zero byte included. -/
def gotSize : Nat := 256

/-- The token that a line presents, as far as its buffer holds it. -/
def presentedToken (line : Bytes) : Option Bytes :=
  let p := (line ++ [CText.newline]).dropWhile isBlank
  if p.take 5 ≠ authWord then none
  else some (((p.drop 5).takeWhile fun byte => CText.inLine byte && byte ≠ 13).take (gotSize - 1))

/-- The loop of agent_auth_read_and_check for so many rounds: whether the line is right. -/
def authLoop (token : Bytes) : Nat → Sock → Option (Bool × Sock)
  | 0, _ => none
  | rounds + 1, s =>
    match s.peek authPeekSize with
    | (none, s) => some (false, s)
    | (some buf, s) =>
      match CText.splitLine buf with
      | none => if buf.length ≥ authPeekSize then some (false, s) else authLoop token rounds s
      | some (line, _) =>
        let lineLen := line.length + 1
        match s.recv lineLen with
        | (none, s) => some (false, s)
        | (some taken, s) =>
          if taken.length ≠ lineLen then some (false, s)
          else some (presentedToken line = some token, s)

/-- When the events are over all has come, and one more round shows it. -/
def agentAuthReadAndCheck (token : Bytes) (s : Sock) : Option (Bool × Sock) :=
  if token = [] then some (true, s)
  else authLoop token (s.events.length + 2) {s with limited := true}

inductive Sub where
  | absent
  | invalid
  | consumed (sid : UInt16)
  deriving DecidableEq, Repr

/-- The room for a SUB line. -/
def subLineSize : Nat := 255

/-- The loop that reads a line byte by byte, into so much room. -/
def readLine : Nat → Bytes → Sock → Option Bytes × Sock
  | 0, line, s => (some line, s)
  | room + 1, line, s =>
    match s.recv 1 with
    | (none, s) => (none, s)
    | (some c, s) =>
      if c = [CText.newline] then (some (line ++ c), s) else readLine room (line ++ c) s

def ctrlReadOptionalSub (s : Sock) : Sub × Sock :=
  match s.peek 4 with
  | (none, s) => (.absent, s)
  | (some pfx, s) =>
    if pfx.length < 4 then (.absent, s)
    else if pfx.take 3 ≠ subWord then (.absent, s)
    else
      match readLine subLineSize [] s with
      | (none, s) => (.invalid, s)
      | (some line, s) =>
        match scanSub line with
        | some sid => (.consumed (UInt16.ofNat (max 1 (min 65535 sid)).toNat), s)
        | none => (.invalid, s)

/-- The most bytes of a frame. -/
def maxFrame : Nat := 4096

/-- The loop over the frames for so many rounds, with the datagrams it sends. -/
def frameLoop : Nat → Sock → Option (List Bytes)
  | 0, _ => none
  | rounds + 1, s =>
    match s.recvExact 4 with
    | (none, _) => some []
    | (some lenb, s) =>
      let n := (BigEndian.wordAt lenb 0).toNat
      if n = 0 || n > maxFrame then some []
      else
        match s.recvExact n with
        | (none, _) => some []
        | (some buf, s) => (frameLoop rounds s).map (buf :: ·)

/-- The datagrams that a connection sends to the worker. Each frame takes bytes, so these bound
the rounds. -/
def ctrlClientThread (token : Bytes) (s : Sock) : Option (List Bytes) :=
  (agentAuthReadAndCheck token s).bind fun (ok, s) =>
    if ok then
      let s := (ctrlReadOptionalSub s).2
      frameLoop (s.rest.length + 1) {s with limited := false}
    else some []

end StreamRelay.Agent.Control
