import StreamRelay.Narrowing
import StreamRelay.Scanf
import StreamRelay.Server.Packet
import StreamRelay.Worker.Commands

/-! Where the server asks for an IDR frame: a map from stream ids to the control sockets of the
workers, read once from the environment, and the datagram sent there. -/
namespace StreamRelay.Worker

open LittleEndian

/-- The memory of the structure. -/
def MlControlCmd.memory (cmd : MlControlCmd) : Bytes :=
  bytes 4 cmd.magic.toNat ++ (bytes 2 cmd.version.toNat ++ (bytes 2 cmd.type.toNat ++
    (bytes 4 cmd.a.toUInt32.toNat ++ (bytes 4 cmd.b.toUInt32.toNat ++
      (bytes 4 cmd.c.toUInt32.toNat ++ (bytes 4 cmd.d.toUInt32.toNat ++
        bytes 8 cmd.seq.toNat))))))

end StreamRelay.Worker

namespace StreamRelay.Server

open CText Scanf

/-- An entry of the map that is valid. -/
structure WorkerCtrlEndpoint where
  ip : Text
  port : UInt16
  deriving DecidableEq

abbrev WorkerCtrlMap := Nat → Option WorkerCtrlEndpoint

/-- What STREAM_MAX_STREAMS asks for, within the limits. -/
def serverRuntimeMaxStreams (value : Option Text) : Int :=
  match value with
  | none => defaultMaxStreams
  | some text =>
    match scanNumber text with
    | none => defaultMaxStreams
    | some (negative, digits, rest) =>
      if rest ≠ [] then defaultMaxStreams
      else
        let parsed := Narrowing.saturate 9223372036854775808 (if negative then -digits else digits)
        if parsed < 1 then 1 else if parsed > maxStreamsLimit then maxStreamsLimit else parsed

def trimAscii (s : Text) : Text := (s.dropWhile isSpace).rdropWhile isSpace

section Map

variable (runtimeMaxStreams : Int)

def setWorkerCtrlEndpoint (map : WorkerCtrlMap) (streamId : UInt32) (ip : Text) (port : Int) :
    WorkerCtrlMap :=
  if streamId = 0 ∨ (streamId.toNat : Int) > runtimeMaxStreams ∨ ip = [] ∨ port ≤ 0 ∨ port > 65535 then
    map
  else Function.update map streamId.toNat (some ⟨ip.take 63, UInt16.ofInt port⟩)

/-- "%u:%63[^:]:%d" -/
def colonFormat : List Directive := [.unsigned, .literal 58, .upTo 63 58, .literal 58, .int]

/-- "%u %63s %d" -/
def blankFormat : List Directive := [.unsigned, .space, .word 63, .space, .int]

/-- A stream id, an address and a port where a format finds all three. -/
def scanEntry (format : List Directive) (item : Text) : Option (UInt32 × Text × Int) :=
  match sscanf format item with
  | [.unsigned streamId, .text ip, .int port] => some (streamId, ip, port)
  | _ => none

def addEntry (map : WorkerCtrlMap) : Option (UInt32 × Text × Int) → WorkerCtrlMap
  | some (streamId, ip, port) => setWorkerCtrlEndpoint runtimeMaxStreams map streamId ip port
  | none => map

/-- The items between the commas; strtok_r passes over empty ones. -/
def parseWorkerCtrlMapString (map : WorkerCtrlMap) (mapStr : Text) : WorkerCtrlMap :=
  ((mapStr.splitOn 44).filter (· ≠ [])).foldl (fun map item =>
    let item := trimAscii item
    if item = [] then map else addEntry runtimeMaxStreams map (scanEntry colonFormat item)) map

/-- The strings that fgets returns of a file, with a buffer of so many bytes. -/
def fgetsAll (size : Nat) (current : Text) : Text → List Text
  | [] => if current = [] then [] else [cString current]
  | byte :: later =>
    if byte = newline ∨ current.length + 2 = size then
      cString (current ++ [byte]) :: fgetsAll size [] later
    else fgetsAll size (current ++ [byte]) later

def parseLine (line : Text) : Option (UInt32 × Text × Int) :=
  let line := trimAscii line
  if line = [] ∨ line.head? = some 35 then none
  else (scanEntry blankFormat line).or (scanEntry colonFormat line)

/-- The lines of a file that could be opened. -/
def parseWorkerCtrlMapFile (map : WorkerCtrlMap) (file : Option Text) : WorkerCtrlMap :=
  match file with
  | none => map
  | some contents => ((fgetsAll 256 [] contents).map parseLine).foldl (addEntry runtimeMaxStreams) map

/-- The map from the environment; the file is read behind the string. -/
def initWorkerCtrlMapOnce (mapStr : Option Text) (file : Option Text) : WorkerCtrlMap :=
  parseWorkerCtrlMapFile runtimeMaxStreams
    (parseWorkerCtrlMapString runtimeMaxStreams (fun _ => none) (mapStr.getD [])) file

end Map

/-- A number of a dotted address. -/
def octet (digits : Text) : Option UInt8 :=
  if digits = [] ∨ !digits.all isDigit ∨ (digits.length > 1 ∧ digits.head? = some 48) ∨
      digits.length > 3 ∨ digitsValue digits > 255 then none
  else some (UInt8.ofNat (digitsValue digits))

def inetPton (text : Text) : Option (List UInt8) :=
  let octets := text.splitOn 46
  if octets.length = 4 then octets.mapM octet else none

structure Datagram where
  address : List UInt8
  port : UInt16
  bytes : Bytes
  deriving DecidableEq

/-- The command of a request; memset has cleared what is not set. -/
def reqIdr (seq : UInt64) : Worker.MlControlCmd :=
  ⟨Worker.mlCtrlMagic, Worker.mlCtrlVersion, Worker.cmdReqIdr, 0, 0, 0, 0, seq⟩

/-- The datagram that is sent, if a socket is there and takes it. -/
def sendReqIdrToEndpoint (ip : Text) (port : UInt16) (seq : UInt64) (sent : Bool) : Option Datagram :=
  if ip = [] ∨ port = 0 then none
  else
    match inetPton ip with
    | none => none
    | some address => if sent then some ⟨address, port, (reqIdr seq).memory⟩ else none

def requestIdrBestEffortMainPath (runtimeMaxStreams : Int) (map : WorkerCtrlMap) (streamId : UInt16)
    (seq : UInt64) (sent : Bool) : Option Datagram :=
  if streamId > 0 ∧ (streamId.toNat : Int) ≤ runtimeMaxStreams then
    match map streamId.toNat with
    | some endpoint => sendReqIdrToEndpoint endpoint.ip endpoint.port seq sent
    | none => none
  else none

/-- 127.0.0.1 -/
def localhost : Text := ofChars "127.0.0.1".toList

theorem localhost_bytes : localhost = [49, 50, 55, 46, 48, 46, 48, 46, 49] := rfl

/-- A line for a worker on this machine. -/
def mapLine (streamId : Nat) (port : Int) : Text :=
  decimal streamId ++ 32 :: (localhost ++ 32 :: signed port)

theorem signed_dark (port : Int) : ∃ first later, signed port = first :: later ∧ isSpace first = false := by
  unfold signed
  split
  · exact ⟨45, decimal port.natAbs, rfl, rfl⟩
  · obtain ⟨first, later, split⟩ := List.exists_cons_of_ne_nil (decimal_ne_nil port.natAbs)
    refine ⟨first, later, split, (digit_apart (decimal_digits port.natAbs first ?_)).1⟩
    rw [split]
    exact List.mem_cons_self

theorem scan_address (later : Text) :
    (Directive.word 63).scan (localhost ++ 32 :: later) = some (some (.text localhost), 32 :: later) := by
  have item : ((localhost ++ 32 :: later).take 63).takeWhile (fun byte => !isSpace byte) =
      localhost := rfl
  have dark : (localhost ++ 32 :: later).dropWhile isSpace = localhost ++ 32 :: later := rfl
  rw [Directive.scan, dark]
  simp only [item]
  rfl

theorem sscanf_line (streamId : Nat) (port : Int) :
    sscanf blankFormat (mapLine streamId port) =
      [.unsigned (toUnsigned false streamId), .text localhost, .int (toInt port)] := by
  have first : scanNumber (mapLine streamId port) =
      some (false, streamId, 32 :: (localhost ++ 32 :: signed port)) := by
    apply scanNumber_decimal
    simp [isDigit]
  obtain ⟨sign, digits, split, dark⟩ := signed_dark port
  have gap : (32 :: signed port).dropWhile isSpace = signed port := by
    rw [split, List.dropWhile_cons_of_pos rfl, List.dropWhile_cons_of_neg (by simp [dark])]
  have blank : (32 :: (localhost ++ 32 :: signed port)).dropWhile isSpace =
      localhost ++ 32 :: signed port := rfl
  simp only [blankFormat, sscanf, Directive.scan.eq_1, Directive.scan.eq_5, first, Option.map_some,
    blank, scan_address, gap]
  simp only [Directive.scan, scanNumber_whole, Option.map_some, signed_value, Option.toList, List.nil_append,
    List.singleton_append]

/-- What is not blank at either end is what trim_ascii leaves of it. -/
theorem trimAscii_line {first last : UInt8} {middle : Text} (dark : isSpace first = false)
    (ends : isSpace last = false) :
    trimAscii (first :: middle ++ [last] ++ [newline]) = first :: middle ++ [last] := by
  have front : (first :: middle ++ [last] ++ [newline]).dropWhile isSpace =
      first :: middle ++ [last] ++ [newline] := by
    rw [List.cons_append, List.cons_append, List.dropWhile_cons_of_neg (by simp [dark])]
  rw [trimAscii, front, List.rdropWhile_concat_pos _ _ _ rfl,
    List.rdropWhile_concat_neg _ _ _ (by simp [ends])]

/-- A line begins and ends with a digit. -/
theorem mapLine_ends (streamId : Nat) (port : Int) : ∃ first middle last,
    mapLine streamId port = first :: middle ++ [last] ∧ isDigit first = true ∧
      isDigit last = true := by
  obtain ⟨first, later, split⟩ := List.exists_cons_of_ne_nil (decimal_ne_nil streamId)
  have digit : isDigit first = true := by
    apply decimal_digits streamId
    rw [split]
    exact List.mem_cons_self
  have final (before : Text) :
      ∃ front last, before ++ signed port = front ++ [last] ∧ isDigit last = true := by
    unfold signed
    split
    · rw [List.append_cons]
      exact decimal_ends port.natAbs (before ++ [45])
    · exact decimal_ends port.natAbs before
  obtain ⟨middle, last, whole, ended⟩ := final (later ++ 32 :: (localhost ++ [32]))
  refine ⟨first, middle, last, ?_, digit, ended⟩
  rw [mapLine, split, List.cons_append, List.cons_append, ← whole]
  simp

theorem parseLine_mapLine (streamId : Nat) (port : Int) :
    parseLine (mapLine streamId port ++ [newline]) =
      some (toUnsigned false streamId, localhost, toInt port) := by
  obtain ⟨first, middle, last, split, digit, ended⟩ := mapLine_ends streamId port
  have trimmed : trimAscii (mapLine streamId port ++ [newline]) = mapLine streamId port := by
    rw [split]
    exact trimAscii_line (digit_apart digit).1 (digit_apart ended).1
  have spoken : ¬(mapLine streamId port = [] ∨ (mapLine streamId port).head? = some 35) := by
    rw [split]
    rintro (empty | comment)
    · cases empty
    · obtain rfl := Option.some.inj comment
      cases digit
  simp only [parseLine, trimmed]
  rw [if_neg spoken, scanEntry, sscanf_line]
  rfl

theorem fgetsAll_line {size : Nat} (later : Text) :
    ∀ (line current : Text), (∀ byte ∈ line, byte ≠ newline) →
      current.length + line.length + 1 < size →
      fgetsAll size current (line ++ newline :: later) =
        cString (current ++ line ++ [newline]) :: fgetsAll size [] later
  | [], current, _, _ => by
    rw [List.nil_append, List.append_nil, fgetsAll, if_pos (Or.inl rfl)]
  | byte :: line, current, plain, fits => by
    rw [List.length_cons] at fits
    have other : ¬(byte = newline ∨ current.length + 2 = size) := by
      rintro (same | full)
      · exact plain byte List.mem_cons_self same
      · omega
    have room : (current ++ [byte]).length + line.length + 1 < size := by
      rw [List.length_append, List.length_singleton]
      omega
    rw [List.cons_append, fgetsAll, if_neg other,
      fgetsAll_line later line _ (fun byte member => plain byte (List.mem_cons_of_mem _ member)) room]
    simp

/-- A line has room in the buffer. -/
structure Short (streamId : Nat) (port : Int) : Prop where
  streamId : streamId < 10 ^ 20
  port : port.natAbs < 10 ^ 20

theorem mapLine_text {streamId : Nat} {port : Int} (short : Short streamId port) :
    (∀ byte ∈ mapLine streamId port, byte ≠ newline ∧ byte ≠ 0) ∧
      (mapLine streamId port).length + 1 < 256 := by
  have number : (signed port).length ≤ 21 := by
    have digits := decimal_length (by decide) short.port
    unfold signed
    split
    · rw [List.length_cons]
      omega
    · omega
  have digits := decimal_length (by decide) short.streamId
  constructor
  · have clean {byte : UInt8} (digit : isDigit byte = true) : byte ≠ newline ∧ byte ≠ 0 := by
      constructor <;> rintro rfl <;> cases digit
    intro byte member
    simp only [mapLine, List.mem_append, List.mem_cons] at member
    rcases member with digit | rfl | address | rfl | number
    · exact clean (decimal_digits _ _ digit)
    · decide
    · rw [localhost_bytes] at address
      simp only [List.mem_cons, List.not_mem_nil, or_false] at address
      rcases address with rfl | rfl | rfl | rfl | rfl | rfl | rfl | rfl | rfl <;> decide
    · decide
    · rcases signed_characters _ _ number with digit | rfl
      · exact clean digit
      · decide
  · have address : localhost.length = 9 := rfl
    simp only [mapLine, List.length_append, List.length_cons, address]
    omega

/-- The text of a map file. -/
def mapText (lines : List (Nat × Int)) : Text :=
  lines.flatMap fun (streamId, port) => mapLine streamId port ++ [newline]

theorem entries_mapText (lines : List (Nat × Int)) (short : ∀ line ∈ lines, Short line.1 line.2) :
    (fgetsAll 256 [] (mapText lines)).map parseLine =
      lines.map fun line => some (toUnsigned false line.1, localhost, toInt line.2) := by
  induction lines with
  | nil => rfl
  | cons line lines ih =>
    obtain ⟨clean, fits⟩ := mapLine_text (short line List.mem_cons_self)
    have text : mapText (line :: lines) =
        mapLine line.1 line.2 ++ newline :: mapText lines := by
      rw [mapText, List.flatMap_cons, List.append_assoc]
      rfl
    have whole : cString (mapLine line.1 line.2 ++ [newline]) =
        mapLine line.1 line.2 ++ [newline] := by
      apply List.takeWhile_eq_self_iff.mpr
      intro byte member
      rw [decide_eq_true_eq]
      rcases List.mem_append.mp member with inside | final
      · exact (clean byte inside).2
      · obtain rfl := List.mem_singleton.mp final
        decide
    have room : ([] : Text).length + (mapLine line.1 line.2).length + 1 < 256 := by
      rw [List.length_nil, Nat.zero_add]
      exact fits
    rw [text, fgetsAll_line (mapText lines) _ [] (fun byte member => (clean byte member).1) room,
      List.nil_append, whole, List.map_cons, parseLine_mapLine,
      ih fun line member => short line (List.mem_cons_of_mem _ member), List.map_cons]

/-- An entry is taken for a stream that the server runs and a port that there is. -/
def Taken (runtimeMaxStreams : Int) (streamId : UInt32) (port : Int) : Prop :=
  streamId ≠ 0 ∧ (streamId.toNat : Int) ≤ runtimeMaxStreams ∧ 0 < port ∧ port ≤ 65535

instance (runtimeMaxStreams : Int) (streamId : UInt32) (port : Int) :
    Decidable (Taken runtimeMaxStreams streamId port) :=
  inferInstanceAs (Decidable (_ ∧ _))

theorem setWorkerCtrlEndpoint_eq (runtimeMaxStreams : Int) (map : WorkerCtrlMap) (streamId : UInt32)
    (port : Int) :
    setWorkerCtrlEndpoint runtimeMaxStreams map streamId localhost port =
      if Taken runtimeMaxStreams streamId port then
        Function.update map streamId.toNat (some ⟨localhost, UInt16.ofInt port⟩)
      else map := by
  have named : localhost ≠ [] := by decide
  have short : localhost.take 63 = localhost := rfl
  unfold setWorkerCtrlEndpoint
  by_cases taken : Taken runtimeMaxStreams streamId port
  · have accepted : ¬(streamId = 0 ∨ (streamId.toNat : Int) > runtimeMaxStreams ∨ localhost = [] ∨
        port ≤ 0 ∨ port > 65535) := by
      obtain ⟨some_, most, positive, fits⟩ := taken
      rintro (zero | more | empty | low | high)
      · exact some_ zero
      · omega
      · exact named empty
      · omega
      · omega
    rw [if_neg accepted, if_pos taken, short]
  · have refused : streamId = 0 ∨ (streamId.toNat : Int) > runtimeMaxStreams ∨ localhost = [] ∨
        port ≤ 0 ∨ port > 65535 := by
      by_contra accepted
      simp only [not_or, not_lt, not_le] at accepted
      exact taken ⟨accepted.1, accepted.2.1, accepted.2.2.2.1, accepted.2.2.2.2⟩
    rw [if_pos refused, if_neg taken]

/-- Where the port is one of the stream alone, the order of the entries does not matter. -/
theorem addEntry_fold (runtimeMaxStreams : Int) (port : UInt32 → Int) (streams : List UInt32)
    (map : WorkerCtrlMap) (streamId : UInt32) :
    (streams.map fun stream => some (stream, localhost, port stream)).foldl
        (addEntry runtimeMaxStreams) map streamId.toNat =
      if streamId ∈ streams ∧ Taken runtimeMaxStreams streamId (port streamId) then
        some ⟨localhost, UInt16.ofInt (port streamId)⟩
      else map streamId.toNat := by
  induction streams using List.reverseRecOn with
  | nil => simp
  | append_singleton streams last ih =>
    rw [List.map_append, List.foldl_append, List.map_singleton, List.foldl_cons, List.foldl_nil,
      addEntry, setWorkerCtrlEndpoint_eq]
    by_cases same : streamId = last
    · subst same
      have there : streamId ∈ streams ++ [streamId] := by simp
      by_cases taken : Taken runtimeMaxStreams streamId (port streamId)
      · rw [if_pos taken, Function.update_self, if_pos ⟨there, taken⟩]
      · rw [if_neg taken, ih, if_neg (fun both => taken both.2), if_neg (fun both => taken both.2)]
    · have apart : streamId.toNat ≠ last.toNat := fun equal => same (UInt32.toNat_inj.mp equal)
      have among : streamId ∈ streams ++ [last] ↔ streamId ∈ streams := by simp [same]
      have kept : (if Taken runtimeMaxStreams last (port last) then
          Function.update ((streams.map fun stream => some (stream, localhost, port stream)).foldl
            (addEntry runtimeMaxStreams) map) last.toNat (some ⟨localhost, UInt16.ofInt (port last)⟩)
          else (streams.map fun stream => some (stream, localhost, port stream)).foldl
            (addEntry runtimeMaxStreams) map) streamId.toNat =
          (streams.map fun stream => some (stream, localhost, port stream)).foldl
            (addEntry runtimeMaxStreams) map streamId.toNat := by
        split
        · exact Function.update_of_ne apart _ _
        · rfl
      rw [kept, ih]
      simp only [among]

end StreamRelay.Server
