import StreamRelay.Agent.TlvProtocol
import StreamRelay.CText

/-! The handshake of a video connection: the AUTH line if there is a token, then the SUB line. -/
namespace StreamRelay.Agent

/-- "AUTH " -/
def authWord : Bytes := [65, 85, 84, 72, 32]

/-- "SUB" -/
def subWord : Bytes := [83, 85, 66]

/-- sscanf with "SUB %d". -/
def scanSub (line : Bytes) : Option Int :=
  if line.take 3 = subWord then CText.scanInt (line.drop 3) else none

def parseSubLine (line : Bytes) : Option UInt16 :=
  ((scanSub line).orElse fun _ => CText.scanInt line).map fun sid =>
    UInt16.ofNat (max 1 (min (maxStreams : Int) sid)).toNat

/-- How the loop over the complete lines ends: in the last case with what is left of the buffer. -/
inductive Lines where
  | refused
  | subscribed (sid : UInt16)
  | rest (authed : Bool) (start : Bytes)
  deriving DecidableEq, Repr

/-- The loop for so many lines at most. -/
def lineLoop (token : Bytes) : Nat → Bool → Bytes → Lines
  | 0, authed, start => .rest authed start
  | rounds + 1, authed, start =>
    match CText.splitLine start with
    | none => .rest authed start
    | some (line, later) =>
      let line := CText.trimEnd line
      if !authed then
        if line.take 5 ≠ authWord then .refused
        else if line.drop 5 ≠ token then .refused
        else lineLoop token rounds true later
      else
        match parseSubLine line with
        | none => .refused
        | some sid => .subscribed sid

/-- The bytes that a handshake keeps, which a zero byte ends. -/
def handshakeBufSize : Nat := 1024

structure Handshake where
  authed : Bool
  buf : Bytes
  deriving DecidableEq, Repr

/-- need_auth, read once. -/
def Handshake.begin (token : Bytes) : Handshake := ⟨token = [], []⟩

inductive Shaken where
  | refused
  | subscribed (sid : UInt16)
  | waiting (handshake : Handshake)
  deriving DecidableEq, Repr

/-- What the next recv returns; the bytes stand for as many as there is room for. -/
inductive RecvAnswer where
  | data (bytes : Bytes)
  | closed
  | again
  | interrupted
  | failed
  deriving DecidableEq, Repr

namespace Handshake

/-- How many bytes a recv asks for. -/
def room (handshake : Handshake) : Nat := handshakeBufSize - 1 - handshake.buf.length

/-- The lines of the buffer with what has come, and the part that is kept. -/
def readLines (token : Bytes) (handshake : Handshake) : Shaken :=
  match lineLoop token (handshake.buf.length + 1) handshake.authed handshake.buf with
  | .refused => .refused
  | .subscribed sid => .subscribed sid
  | .rest authed start =>
    .waiting ⟨authed,
      if start.length = handshake.buf.length then handshake.buf else CText.cString start⟩

/-- One round of do_handshake, with the bytes that it takes from the connection. Without room
the recv asks for no bytes and gets none. -/
def round (token : Bytes) (late : Bool) (answer : RecvAnswer) (handshake : Handshake) :
    Shaken × Bytes :=
  if late then (.refused, [])
  else
    match answer with
    | .data bytes =>
      let taken := bytes.take handshake.room
      if taken = [] then (.refused, [])
      else (readLines token {handshake with buf := handshake.buf ++ taken}, taken)
    | .closed => (.refused, [])
    | .again | .interrupted => (.waiting handshake, [])
    | .failed => (.refused, [])

end Handshake

/-- What came begins with the line AUTH and the token; blanks and a CR may stand at its end. -/
def Presented (token sent : Bytes) : Prop :=
  ∃ line rest, sent = line ++ CText.newline :: rest ∧ (∀ byte ∈ line, CText.inLine byte = true) ∧
    CText.trimEnd line = authWord ++ token

theorem Presented.append {token sent : Bytes} (presented : Presented token sent) (more : Bytes) :
    Presented token (sent ++ more) := by
  obtain ⟨line, rest, rfl, clean, same⟩ := presented
  exact ⟨line, rest ++ more, by simp, clean, same⟩

/-- Once the line is read it stays read. -/
theorem lineLoop_authed (token : Bytes) (rounds : Nat) (start : Bytes) :
    ∀ left, lineLoop token rounds true start ≠ .rest false left := by
  intro left ended
  cases rounds with
  | zero => cases (Lines.rest.inj ended).1
  | succ rounds =>
    simp only [lineLoop, Bool.not_true, Bool.false_eq_true, if_false] at ended
    split at ended
    · cases (Lines.rest.inj ended).1
    · split at ended <;> cases ended

/-- A loop that begins without the AUTH line ends as it began, or has read it. -/
theorem lineLoop_unauthed (token : Bytes) (rounds : Nat) (start : Bytes) :
    lineLoop token rounds false start = .rest false start ∨
      lineLoop token rounds false start = .refused ∨
      (Presented token start ∧ ∀ left, lineLoop token rounds false start ≠ .rest false left) := by
  cases rounds with
  | zero => exact Or.inl rfl
  | succ rounds =>
    cases found : CText.splitLine start with
    | none => exact Or.inl (by simp only [lineLoop, found])
    | some split =>
      obtain ⟨line, later⟩ := split
      obtain ⟨whole, clean⟩ := CText.splitLine_some found
      right
      by_cases word : (CText.trimEnd line).take 5 = authWord
      · by_cases same : (CText.trimEnd line).drop 5 = token
        · right
          constructor
          · refine ⟨line, later, whole, clean, ?_⟩
            rw [← word, ← same, List.take_append_drop]
          · have goes : lineLoop token (rounds + 1) false start =
                lineLoop token rounds true later := by
              simp [lineLoop, found, word, same]
            rw [goes]
            exact lineLoop_authed token rounds later
        · left
          simp [lineLoop, found, same]
      · left
        simp [lineLoop, found, word]

/-- What a handshake knows of the bytes that came on its connection. -/
structure Handshake.Knows (token : Bytes) (handshake : Handshake) (got : Bytes) : Prop where
  presented : handshake.authed = true → Presented token got
  kept : handshake.authed = false → handshake.buf = got

def Shaken.Knows (token got : Bytes) : Shaken → Prop
  | .refused => True
  | .subscribed _ => Presented token got
  | .waiting handshake => handshake.Knows token got

/-- Nobody gets further without the token. -/
theorem Handshake.readLines_knows {token got : Bytes} {handshake : Handshake}
    (knows : handshake.Knows token got) : (handshake.readLines token).Knows token got := by
  cases authed : handshake.authed with
  | true =>
    have presented := knows.presented authed
    simp only [readLines, authed]
    cases ended : lineLoop token (handshake.buf.length + 1) true handshake.buf with
    | refused => trivial
    | subscribed sid => exact presented
    | rest still left =>
      refine ⟨fun _ => presented, fun unread => ?_⟩
      rw [show still = false from unread] at ended
      exact absurd ended (lineLoop_authed token _ _ left)
  | false =>
    have kept := knows.kept authed
    simp only [readLines, authed]
    rcases lineLoop_unauthed token (handshake.buf.length + 1) handshake.buf with
      same | refused | ⟨presented, read⟩
    · rw [same]
      exact ⟨nofun, fun _ => by simp [kept]⟩
    · rw [refused]
      trivial
    · rw [kept] at presented
      cases ended : lineLoop token (handshake.buf.length + 1) false handshake.buf with
      | refused => trivial
      | subscribed sid => exact presented
      | rest still left =>
        refine ⟨fun _ => presented, fun unread => ?_⟩
        rw [show still = false from unread] at ended
        exact absurd ended (read left)

/-- A round keeps what is known, with the bytes that it takes. -/
theorem Handshake.round_knows {token got : Bytes} {handshake : Handshake} (late : Bool)
    (answer : RecvAnswer) (knows : handshake.Knows token got) :
    (handshake.round token late answer).1.Knows token
      (got ++ (handshake.round token late answer).2) := by
  have idle : handshake.Knows token (got ++ []) := by
    rw [List.append_nil]
    exact knows
  simp only [round]
  split
  · trivial
  · cases answer with
    | closed | failed => trivial
    | again | interrupted => exact idle
    | data bytes =>
      dsimp only
      split
      · trivial
      · apply readLines_knows
        constructor
        · exact fun authed => (knows.presented authed).append _
        · intro unread
          dsimp only
          rw [knows.kept unread]

end StreamRelay.Agent
