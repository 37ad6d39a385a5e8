import StreamRelay.Agent.Datagrams
import StreamRelay.Worker.ControlSocket

/-! A command on its way from the bridge through the agent to the worker. Each hop has a limit of
its own. -/
namespace StreamRelay.Worker

open LittleEndian

/-- The header that the bridge packs. -/
def packCmd (type : UInt16) (a b c d : Int32) (seq : UInt64) : Bytes :=
  bytes 4 mlCtrlMagic.toNat ++ (bytes 2 mlCtrlVersion.toNat ++ (bytes 2 type.toNat ++
    (bytes 4 a.toUInt32.toNat ++ (bytes 4 b.toUInt32.toNat ++ (bytes 4 c.toUInt32.toNat ++
      (bytes 4 d.toUInt32.toNat ++ bytes 8 seq.toNat))))))

/-- A command with its payload that the agent takes as a frame. -/
structure Command where
  type : UInt16
  a : Int32
  b : Int32
  c : Int32
  d : Int32
  seq : UInt64
  payload : Bytes
  most : mlControlCmdSize + payload.length ≤ Agent.Control.maxFrame

namespace Command

def cmd (command : Command) : MlControlCmd :=
  ⟨mlCtrlMagic, mlCtrlVersion, command.type, command.a, command.b, command.c, command.d,
    command.seq⟩

def header (command : Command) : Bytes :=
  packCmd command.type command.a command.b command.c command.d command.seq

def packet (command : Command) : Bytes := command.header ++ command.payload

@[simp] theorem header_length (command : Command) :
    command.header.length = mlControlCmdSize := by
  simp only [header, packCmd, List.length_append, LittleEndian.bytes_length]
  rfl

theorem packet_length (command : Command) :
    command.packet.length = mlControlCmdSize + command.payload.length := by
  rw [packet, List.length_append, header_length]

def frame (command : Command) : Agent.Control.Frame where
  payload := command.packet
  some_ := by
    intro empty
    have length := command.packet_length
    rw [empty, List.length_nil, mlControlCmdSize] at length
    omega
  most := by
    rw [packet_length]
    exact command.most

end Command

theorem valueAt_half (half : UInt16) (later : Bytes) :
    UInt16.ofNat (valueAt (bytes 2 half.toNat ++ later) 0 2) = half := by
  rw [valueAt_first half.toNat_lt, UInt16.ofNat_toNat]

theorem valueAt_word (word : UInt32) (later : Bytes) :
    UInt32.ofNat (valueAt (bytes 4 word.toNat ++ later) 0 4) = word := by
  rw [valueAt_first word.toNat_lt, UInt32.ofNat_toNat]

theorem valueAt_long (long : UInt64) (later : Bytes) :
    UInt64.ofNat (valueAt (bytes 8 long.toNat ++ later) 0 8) = long := by
  rw [valueAt_first long.toNat_lt, UInt64.ofNat_toNat]

/-- The header is read back, whatever follows. -/
theorem read_header (command : Command) (later : Bytes) :
    MlControlCmd.read (command.header ++ later) = command.cmd := by
  simp (disch := decide) only [MlControlCmd.read, Command.header, packCmd, Command.cmd,
    List.append_assoc, valueAt_skip, Nat.reduceSub, valueAt_half, valueAt_word, valueAt_long,
    Int32.toInt32_toUInt32]

section Delivery

variable (li : LiCall → Int) (referenceWidth referenceHeight : Int32)

/-- What the worker makes of a command's datagram. -/
def Command.dispatch (command : Command) : Dispatch :=
  let payload := command.payload.take (mlCtrlMaxPacket - mlControlCmdSize)
  let done := dispatchCmd li referenceWidth referenceHeight command.cmd payload
  ⟨command.cmd, payload, done.1, done.2⟩

theorem processPacket_command (command : Command) :
    processPacket li referenceWidth referenceHeight command.packet =
      some (command.dispatch li referenceWidth referenceHeight) := by
  have kept : command.packet.take mlCtrlMaxPacket =
      command.header ++ command.payload.take (mlCtrlMaxPacket - mlControlCmdSize) := by
    rw [Command.packet, List.take_append, command.header_length, List.take_of_length_le]
    rw [command.header_length]
    decide
  have magic : command.cmd.magic = mlCtrlMagic := rfl
  have version : command.cmd.version = mlCtrlVersion := rfl
  have long : ¬(command.header ++
      command.payload.take (mlCtrlMaxPacket - mlControlCmdSize)).length < mlControlCmdSize := by
    rw [List.length_append, command.header_length]
    omega
  simp only [processPacket, kept]
  rw [if_neg long, read_header, if_neg (not_not.mpr magic), if_neg (not_not.mpr version),
    List.drop_left' command.header_length]
  rfl

theorem processAll_commands (commands : List Command) :
    controlSocketProcessAll li referenceWidth referenceHeight (commands.map Command.packet) =
      commands.map fun command => command.dispatch li referenceWidth referenceHeight := by
  induction commands with
  | nil => rfl
  | cons command later ih =>
    rw [controlSocketProcessAll] at ih
    rw [controlSocketProcessAll, List.map_cons, List.filterMap_cons,
      processPacket_command li referenceWidth referenceHeight command, ih]
    rfl

end Delivery

/-- Each command is dispatched once, in order, as it was packed and with its payload, and each
TEXT whose length is right is handed on. -/
structure Intact (commands : List Command) (dispatches : List Dispatch) : Prop where
  same : dispatches.map (fun dispatch => (dispatch.cmd, dispatch.payload)) =
    commands.map fun command => (command.cmd, command.payload)
  text : ∀ command ∈ commands, command.type = cmdText →
    Int32.ofNat command.payload.length = command.a → ∃ dispatch ∈ dispatches,
      dispatch.cmd = command.cmd ∧
        dispatch.calls = if command.payload = [] then [] else [.sendUtf8Text command.payload]

theorem dispatch_text (li : LiCall → Int) (referenceWidth referenceHeight : Int32)
    {cmd : MlControlCmd} {payload : Bytes} (text : cmd.type = cmdText)
    (right : Int32.ofNat payload.length = cmd.a) :
    (dispatchCmd li referenceWidth referenceHeight cmd payload).1 =
      if payload = [] then [] else [.sendUtf8Text payload] := by
  have apart (type : UInt16) (other : cmdText ≠ type) : cmd.type ≠ type := by
    rw [text]
    exact other
  rw [dispatchCmd, if_neg (apart _ (by decide)), if_neg (apart _ (by decide)),
    if_neg (apart _ (by decide)), if_neg (apart _ (by decide)), if_neg (apart _ (by decide)),
    if_neg (apart _ (by decide)), if_neg (apart _ (by decide)), if_neg (apart _ (by decide)),
    if_pos text, if_neg (not_not.mpr right)]
  simp only [List.length_eq_zero_iff]
  split <;> rfl

theorem intact_iff (li : LiCall → Int) (referenceWidth referenceHeight : Int32)
    (commands : List Command) :
    Intact commands
        (commands.map fun command => command.dispatch li referenceWidth referenceHeight) ↔
      ∀ command ∈ commands, mlControlCmdSize + command.payload.length ≤ mlCtrlMaxPacket := by
  have whole (command : Command) :
      command.payload.take (mlCtrlMaxPacket - mlControlCmdSize) = command.payload ↔
        mlControlCmdSize + command.payload.length ≤ mlCtrlMaxPacket := by
    have fits : command.payload.length ≤ mlCtrlMaxPacket - mlControlCmdSize ↔
        mlControlCmdSize + command.payload.length ≤ mlCtrlMaxPacket := by
      simp only [mlCtrlMaxPacket, mlControlCmdSize]
      omega
    rw [← fits]
    constructor
    · intro same
      rw [← same, List.length_take]
      exact Nat.min_le_left _ _
    · exact List.take_of_length_le
  constructor
  · intro intact command member
    have same := intact.same
    rw [List.map_map, List.map_inj_left] at same
    exact (whole command).mp (Prod.mk.inj (same command member)).2
  · intro fits
    constructor
    · rw [List.map_map, List.map_inj_left]
      intro command member
      exact congrArg (Prod.mk command.cmd) ((whole command).mpr (fits command member))
    · intro command member text right
      refine ⟨_, List.mem_map_of_mem member, rfl, ?_⟩
      rw [Command.dispatch, (whole command).mpr (fits command member)]
      exact dispatch_text li referenceWidth referenceHeight text right

/-- The commands of a control connection whose first lines are heard reach the worker intact just
if none is longer than the worker's buffer. -/
theorem commands_iff (li : LiCall → Int) (referenceWidth referenceHeight : Int32)
    (commands : List Command) (stream : Agent.Control.Stream)
    (sent : stream.frames = commands.map Command.frame) (events : List Arrival.Event)
    (heard : Agent.Control.Heard stream events) :
    ∃ datagrams,
      Agent.Control.ctrlClientThread stream.token.text (stream.sock events) = some datagrams ∧
      (Intact commands (controlSocketProcessAll li referenceWidth referenceHeight datagrams) ↔
        ∀ command ∈ commands, mlControlCmdSize + command.payload.length ≤ mlCtrlMaxPacket) := by
  have payloads : stream.frames.map Agent.Control.Frame.payload =
      commands.map Command.packet := by
    rw [sent, List.map_map]
    rfl
  refine ⟨commands.map Command.packet, ?_, ?_⟩
  · rw [← payloads]
    exact Agent.Control.heard_forwarded heard
  · rw [processAll_commands]
    exact intact_iff li referenceWidth referenceHeight commands

/-- A connection without a token and a SUB line. -/
def plainStream (commands : List Command) : Agent.Control.Stream where
  token := Agent.Control.noToken
  cr := false
  sub := none
  frames := commands.map Command.frame

theorem plainStream_heard (commands : List Command) (events : List Arrival.Event) :
    Agent.Control.Heard (plainStream commands) events :=
  ⟨(plainStream commands).sock events, rfl, List.not_mem_nil, fun _ absent => by cases absent⟩

/-- "hi" as text. -/
def sampleText : Command := ⟨cmdText, 2, 0, 0, 0, 1, [104, 105], by decide⟩

theorem commands_iff_text :
    ∃ datagrams, Agent.Control.ctrlClientThread [] ((plainStream [sampleText]).sock [.more 3]) =
        some datagrams ∧
      Intact [sampleText] (controlSocketProcessAll (fun _ => 0) 1920 1080 datagrams) := by
  obtain ⟨datagrams, sent, intact⟩ := commands_iff (fun _ => 0) 1920 1080 [sampleText]
    (plainStream [sampleText]) rfl [.more 3] (plainStream_heard _ _)
  exact ⟨datagrams, sent, intact.mpr (by decide)⟩

/-- A command that the agent takes and the worker's buffer does not hold. -/
theorem long_cut (command : Command)
    (long : mlCtrlMaxPacket < mlControlCmdSize + command.payload.length) :
    ∃ datagrams, Agent.Control.ctrlClientThread [] ((plainStream [command]).sock []) =
        some datagrams ∧
      ¬Intact [command] (controlSocketProcessAll (fun _ => 0) 1920 1080 datagrams) := by
  refine ⟨[command].map Command.packet,
    Agent.Control.heard_forwarded (plainStream_heard [command] []), ?_⟩
  rw [processAll_commands, intact_iff]
  intro fits
  exact absurd (fits command List.mem_cons_self) (Nat.not_le.mpr long)

def longText : Command where
  type := cmdText
  a := 2017
  b := 0
  c := 0
  d := 0
  seq := 1
  payload := List.replicate 2017 97
  most := le_of_eq_of_le (congrArg (mlControlCmdSize + ·) List.length_replicate) (by decide)

theorem not_intact_long :
    ∃ datagrams, Agent.Control.ctrlClientThread [] ((plainStream [longText]).sock []) =
        some datagrams ∧
      ¬Intact [longText] (controlSocketProcessAll (fun _ => 0) 1920 1080 datagrams) := by
  have length : longText.payload.length = 2017 := List.length_replicate
  apply long_cut
  rw [length]
  decide

end StreamRelay.Worker
