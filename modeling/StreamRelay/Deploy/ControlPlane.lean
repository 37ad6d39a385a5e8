import StreamRelay.Deploy.Workers
import StreamRelay.Server.CtrlMap
import StreamRelay.Worker.Options

/-! The way of an IDR request: mlctl.sh writes the map and starts the workers, the server reads the
map, and a worker's control socket gets the datagram. -/
namespace StreamRelay.Mlctl

open CText Scanf Server Worker

/-- The bytes that generate_ctrl_map_file writes. -/
def ctrlMapText (lines : List (List Value)) : Text :=
  lines.flatMap fun words => utf8 ([' '].intercalate words ++ ['\n'])

/-- A variable as up_worker expands it. -/
def value (s : Shell) (v : Var) : Value := (s v).getD []

/-- The options that up_worker spells out, each with the variable it takes. -/
def upOptions : List (StreamOption × (Shell → Value)) :=
  [(.host, fun s => value s .host), (.app, fun s => value s .app), (.keyDir, fun _ => "/keys".toList),
    (.tcpHost, fun s => value s .tcpHost), (.tcpPort, fun s => value s .tcpPort),
    (.streamId, fun s => value s .streamId), (.controlBind, fun s => value s .controlBind),
    (.controlPort, fun s => value s .controlPort), (.width, fun s => value s .width),
    (.height, fun s => value s .height), (.fps, fun s => value s .fps),
    (.bitrate, fun s => value s .bitrate), (.packetSize, fun s => value s .packetSize),
    (.colorspace, fun s => value s .colorspace), (.range, fun s => value s .range),
    (.codec, fun s => value s .codec), (.chroma, fun s => value s .chroma),
    (.bitdepth, fun s => value s .bitdepth)]

/-- Behind "stream" in the command of the container. -/
def upArguments (s : Shell) : List Text :=
  let mode := expand (s .skipModeCheck) "0".toList
  (upOptions.flatMap fun (option, get) => [option.text, utf8 (get s)]) ++
    if mode ≠ "0".toList ∧ mode.map Char.toLower ≠ "false".toList then
      [ofChars "--skip-mode-check".toList] else []

/-- The options that the worker of a name is started with, if it is loaded and accepts them. -/
def upWorker (keyDir : Text) (env : Environment) (files : Files) (name : Value) (s : Shell) :
    Option StreamOptions :=
  let loaded := loadWorker env (sources files) name s
  if loaded.1 then parseStreamArgs keyDir (upArguments loaded.2) else none

variable {env : Environment} {files : Files}

theorem file_streamId (config : WorkerConfig) : config.file .streamId = some config.streamId.val := rfl

theorem file_controlPort (config : WorkerConfig) :
    config.file .controlPort = some config.controlPort.val := rfl

theorem expand_some {text : Value} (said : text ≠ []) (default : Value) :
    expand (some text) default = text := if_neg said

/-- The line of a file that says both does not depend on the shell. -/
theorem mapLine_assigned {name : Value} {config : WorkerConfig} {n : Nat}
    (found : files name = some config) (assigned : Assigned env config n) (s : Shell) :
    (ctrlMapLine (sources files) name s).1 =
      some [arithmetic n, "127.0.0.1".toList, arithmetic (env.controlPortBase + n)] := by
  have file : sources files name = some config.file := by
    rw [sources, found]
    rfl
  have stream : expand (source config.file s .streamId) [] = arithmetic n := by
    rw [source, file_streamId, assigned.streamId, number_val, Option.some_or,
      expand_some (arithmetic_ne_nil _)]
  have control : expand (source config.file s .controlPort) [] =
      arithmetic (env.controlPortBase + n) := by
    rw [source, file_controlPort, assigned.controlPort, number_val, Option.some_or,
      expand_some (arithmetic_ne_nil _)]
  simp only [ctrlMapLine, file, stream, control]
  rw [if_pos ⟨arithmetic_ne_nil _, arithmetic_ne_nil _⟩]

/-- The streams of the names that have a configuration. -/
def Streams (env : Environment) (files : Files) (names : List Value) (streams : List Nat) : Prop :=
  (∀ n ∈ streams, n < shellLimit ∧ ∃ name config, files name = some config ∧ Assigned env config n) ∧
    ∀ name ∈ names, ∀ config n, files name = some config → Assigned env config n → n ∈ streams

theorem generate_streams (consistent : Consistent env files) (names : List Value) (s : Shell) :
    ∃ streams, (generateCtrlMapFile (sources files) names s).1 =
        streams.map (fun n : Nat =>
          [arithmetic n, "127.0.0.1".toList, arithmetic (env.controlPortBase + n)]) ∧
      Streams env files names streams := by
  induction names using List.reverseRecOn with
  | nil => exact ⟨[], rfl, nofun, nofun⟩
  | append_singleton names name ih =>
    obtain ⟨streams, lines, sound, complete⟩ := ih
    obtain ⟨-, next⟩ := generateCtrlMapFile_snoc env (sources files) names name s
    rw [next, lines]
    cases found : files name with
    | none =>
      have silent (s : Shell) : (ctrlMapLine (sources files) name s).1 = none := by
        have absent : sources files name = none := by
          rw [sources, found]
          rfl
        simp only [ctrlMapLine, absent]
      refine ⟨streams, by rw [silent]; exact List.append_nil _, sound, ?_⟩
      intro other member config n there assigned
      rcases List.mem_append.mp member with earlier | last
      · exact complete other earlier config n there assigned
      · obtain rfl := List.mem_singleton.mp last
        rw [found] at there
        cases there
    | some config =>
      obtain ⟨n, assigned⟩ := consistent name config found
      refine ⟨streams ++ [n], ?_, ?_, ?_⟩
      · rw [mapLine_assigned found assigned, List.map_append]
        rfl
      · intro m member
        rcases List.mem_append.mp member with earlier | last
        · exact sound m earlier
        · obtain rfl := List.mem_singleton.mp last
          exact ⟨assigned.fits, name, config, found, assigned⟩
      · intro other member otherConfig m there said
        rcases List.mem_append.mp member with earlier | last
        · exact List.mem_append_left _ (complete other earlier otherConfig m there said)
        · obtain rfl := List.mem_singleton.mp last
          rw [found] at there
          obtain rfl := Option.some.inj there
          have same := congrArg Subtype.val (assigned.streamId.symm.trans said.streamId)
          rw [number_val, number_val, arithmetic_nat assigned.fits, arithmetic_nat said.fits] at same
          have equal := congrArg (fun digits => Nat.ofDigitChars 10 digits 0) same
          simp only [Nat.ofDigitChars_ten_toDigits] at equal
          rw [equal]
          simp

theorem toDigits_ascii (n : Nat) : ∀ c ∈ Nat.toDigits 10 n, c.toNat < 128 := by
  intro c member
  have digit := Nat.isDigit_of_mem_toDigits (by decide) (by decide) member
  have range : 48 ≤ c.toNat ∧ c.toNat ≤ 57 := by
    simpa [Char.isDigit, UInt32.le_iff_toNat_le] using digit
  omega

theorem utf8_digits (n : Nat) : utf8 (Nat.toDigits 10 n) = decimal n := utf8_ascii (toDigits_ascii n)

theorem utf8_append (a b : List Char) : utf8 (a ++ b) = utf8 a ++ utf8 b := List.flatMap_append

/-- What the shell computed, as C reads it. -/
theorem utf8_arithmetic (x : Int) :
    utf8 (arithmetic x) = signed (Narrowing.wrap 9223372036854775808 x) := by
  simp only [arithmetic, signed]
  split
  · rw [← List.singleton_append, utf8_append, utf8_digits]
    rfl
  · exact utf8_digits _

theorem wrap_bounds (x : Int) : -9223372036854775808 ≤ Narrowing.wrap 9223372036854775808 x ∧
    Narrowing.wrap 9223372036854775808 x < 9223372036854775808 := by
  have positive : 0 < 2 * 9223372036854775808 := by decide
  have low := @Int.le_bmod x _ positive
  have high := @Int.bmod_lt x _ positive
  unfold Narrowing.wrap
  omega

theorem toInt_wrap (x : Int) :
    toInt (Narrowing.wrap 9223372036854775808 x) = x.bmod 4294967296 := by
  obtain ⟨low, high⟩ := wrap_bounds x
  have kept : max (-9223372036854775808) (min 9223372036854775807
      (Narrowing.wrap 9223372036854775808 x)) = Narrowing.wrap 9223372036854775808 x := by
    omega
  rw [toInt, kept, Narrowing.wrap]
  exact Int.bmod_bmod_of_dvd (by decide)

theorem atoi_arithmetic (x : Int) : atoi (utf8 (arithmetic x)) = x.bmod 4294967296 := by
  rw [utf8_arithmetic, atoi_signed, toInt_wrap]

/-- The number in which the server keeps a stream. -/
def streamKey (n : Nat) : UInt32 := toUnsigned false n

theorem streamKey_toNat {n : Nat} (fits : n < shellLimit) : (streamKey n).toNat = n % 4294967296 := by
  have small : ¬18446744073709551616 ≤ n := by
    unfold shellLimit at fits
    omega
  rw [streamKey, toUnsigned, if_neg small, if_neg (by decide)]
  rfl

/-- The control port of a stream, as C reads it. -/
def controlPortOf (base : Int) (stream : UInt32) : Int := (base + stream.toNat).bmod 4294967296

theorem controlPortOf_key (base : Int) {n : Nat} (fits : n < shellLimit) :
    (base + n).bmod 4294967296 = controlPortOf base (streamKey n) := by
  rw [controlPortOf, streamKey_toNat fits, Int.natCast_emod]
  exact (Int.add_emod_bmod (n : Int) 4294967296).symm

theorem controlPortOf_injective (base : Int) {a b : UInt32}
    (same : controlPortOf base a = controlPortOf base b) : a = b := by
  have smallA := a.toNat_lt
  have smallB := b.toNat_lt
  have equal := congrArg (· % ((4294967296 : Nat) : Int)) same
  simp only [controlPortOf, Int.bmod_emod] at equal
  apply UInt32.toNat_inj.mp
  omega

theorem ctrlMapText_lines (base : Int) {streams : List Nat} (fits : ∀ n ∈ streams, n < shellLimit) :
    ctrlMapText (streams.map fun n : Nat =>
        [arithmetic n, "127.0.0.1".toList, arithmetic (base + n)]) =
      mapText (streams.map fun n : Nat => (n, Narrowing.wrap 9223372036854775808 (base + n))) := by
  simp only [ctrlMapText, mapText, List.flatMap_map]
  apply List.flatMap_congr
  intro n member
  have address : utf8 "127.0.0.1".toList = localhost := by rfl
  have blank : utf8 [' '] = [32] := by rfl
  have ending : utf8 ['\n'] = [newline] := by rfl
  rw [arithmetic_nat (fits n member), List.intercalate_cons_cons, List.intercalate_cons_cons,
    List.intercalate_singleton, utf8_append, utf8_append, utf8_append, utf8_append, utf8_append, utf8_digits,
    utf8_arithmetic, address, blank, ending, mapLine]
  simp only [List.append_assoc, List.singleton_append]

theorem streams_short (base : Int) {n : Nat} (fits : n < shellLimit) :
    Short n (Narrowing.wrap 9223372036854775808 (base + n)) := by
  obtain ⟨low, high⟩ := wrap_bounds (base + n)
  constructor
  · exact Nat.lt_trans fits (by decide)
  · have small : (Narrowing.wrap 9223372036854775808 (base + n)).natAbs ≤ 9223372036854775808 := by
      omega
    exact Nat.lt_of_le_of_lt small (by decide)

/-- What the server has for a stream once it has read the file. -/
theorem map_streams (most base : Int) {streams : List Nat} (fits : ∀ n ∈ streams, n < shellLimit)
    (stream : UInt32) :
    initWorkerCtrlMapOnce most none (some (ctrlMapText (streams.map fun n : Nat =>
        [arithmetic n, "127.0.0.1".toList, arithmetic (base + n)]))) stream.toNat =
      if stream ∈ streams.map streamKey ∧ Taken most stream (controlPortOf base stream) then
        some ⟨localhost, UInt16.ofInt (controlPortOf base stream)⟩
      else none := by
  have silent : parseWorkerCtrlMapString most (fun _ => none) ((none : Option Text).getD []) =
      fun _ => none := by
    simp [parseWorkerCtrlMapString]
  have entries : (streams.map fun n : Nat => (n, Narrowing.wrap 9223372036854775808 (base + n))).map
      (fun line => some (toUnsigned false line.1, localhost, toInt line.2)) =
      (streams.map streamKey).map fun stream =>
        some (stream, localhost, controlPortOf base stream) := by
    rw [List.map_map, List.map_map]
    apply List.map_congr_left
    intro n member
    simp only [Function.comp_apply, toInt_wrap, controlPortOf_key base (fits n member)]
    rfl
  have short : ∀ line ∈ streams.map fun n : Nat =>
      (n, Narrowing.wrap 9223372036854775808 (base + n)), Short line.1 line.2 := by
    intro line member
    obtain ⟨n, among, rfl⟩ := List.mem_map.mp member
    exact streams_short base (fits n among)
  rw [initWorkerCtrlMapOnce, silent, ctrlMapText_lines base fits, parseWorkerCtrlMapFile,
    entries_mapText _ short, entries, addEntry_fold]

/-- What up_worker says on the command line. -/
def said (s : Shell) : List (StreamOption × Text) :=
  upOptions.map fun (option, get) => (option, utf8 (get s))

/-- The mode check comes behind the options, and changes nothing else. -/
theorem upArguments_parsed {keyDir : Text} {s : Shell} {o : StreamOptions}
    (accepted : parseStreamArgs keyDir (upArguments s) = some o) :
    ∃ parsed, setAll (streamOptionsDefaults keyDir) (said s) = some parsed ∧
      o.streamId = parsed.streamId ∧ o.controlPort = parsed.controlPort := by
  have words := parseStreamArgs_words accepted
  have many : parseStreamWords (streamOptionsDefaults keyDir) (upArguments s) =
      parseStreamLoop (streamOptionsDefaults keyDir) (upArguments s) := rfl
  have arguments : upArguments s =
      ((said s).flatMap fun each => [each.1.text, each.2]) ++
        if expand (s .skipModeCheck) "0".toList ≠ "0".toList ∧
            (expand (s .skipModeCheck) "0".toList).map Char.toLower ≠ "false".toList then
          [ofChars "--skip-mode-check".toList] else [] := by
    rw [said, List.flatMap_map]
    rfl
  rw [many, arguments, parseStreamLoop_said, Option.bind_eq_some_iff] at words
  obtain ⟨parsed, set, rest⟩ := words
  refine ⟨parsed, set, ?_⟩
  split at rest
  · rw [parseStreamLoop, if_pos rfl] at rest
    obtain rfl := Option.some.inj rest
    exact ⟨rfl, rfl⟩
  · obtain rfl := Option.some.inj rest
    exact ⟨rfl, rfl⟩

theorem loaded_value {name : Value} {config : WorkerConfig} (found : files name = some config)
    (s : Shell) (loaded : (loadWorker env (sources files) name s).1 = true) {v : Var}
    (other : v ≠ .name) {text : Value} (said : config.file v = some text) (some_ : text ≠ []) :
    value (loadWorker env (sources files) name s).2 v = text := by
  have file : sources files name = some config.file := by
    rw [sources, found]
    rfl
  rw [loadWorker_eq env (sources files) file] at loaded ⊢
  split at loaded
  · cases loaded
  · rename_i hosted
    rw [if_neg hosted, value]
    dsimp only
    rw [Option.getD_some, sourced, Function.update_of_ne other, Mlctl.source, said, Option.some_or,
      expand_some some_]

/-- The stream and the control port with which the worker of a name is started. -/
structure Started (env : Environment) (files : Files) (name : Value) (o : StreamOptions) (n : Nat) :
    Prop where
  configured : ∃ config, files name = some config ∧ Assigned env config n
  fits : n < shellLimit
  stream : (streamKey n).toNat = o.streamId.toNat
  known : o.streamId ≠ 0
  port : o.controlPort = controlPortOf env.controlPortBase (streamKey n)
  bound : 0 ≤ o.controlPort ∧ o.controlPort ≤ 65535

theorem ofInt_toNat {x : Int} (least : 0 ≤ x) (most : x ≤ 65535) : (UInt16.ofInt x).toNat = x.toNat := by
  rw [UInt16.ofInt, UInt16.toNat_ofNat']
  omega

theorem upWorker_started {keyDir : Text} {name : Value} {s : Shell} {o : StreamOptions}
    (consistent : Consistent env files) (up : upWorker keyDir env files name s = some o) :
    ∃ n, Started env files name o n := by
  simp only [upWorker] at up
  split at up
  · rename_i loaded
    cases found : files name with
    | none =>
      have absent : sources files name = none := by
        rw [sources, found]
        rfl
      simp only [loadWorker, absent] at loaded
      cases loaded
    | some config =>
      obtain ⟨n, assigned⟩ := consistent name config found
      have stream : value (loadWorker env (sources files) name s).2 .streamId = arithmetic n := by
        apply loaded_value found s loaded (by decide) _ (arithmetic_ne_nil _)
        rw [file_streamId, assigned.streamId, number_val]
      have control : value (loadWorker env (sources files) name s).2 .controlPort =
          arithmetic (env.controlPortBase + n) := by
        apply loaded_value found s loaded (by decide) _ (arithmetic_ne_nil _)
        rw [file_controlPort, assigned.controlPort, number_val]
      obtain ⟨valid, checked, -⟩ := parseStreamArgs_valid up
      obtain ⟨parsed, set, sameStream, samePort⟩ := upArguments_parsed up
      generalize (loadWorker env (sources files) name s).2 = shell at stream control set
      have atStream : setAll (streamOptionsDefaults keyDir) ((said shell).take 5 ++
          (.streamId, utf8 (value shell .streamId)) :: (said shell).drop 6) = some parsed := set
      have atPort : setAll (streamOptionsDefaults keyDir) ((said shell).take 7 ++
          (.controlPort, utf8 (value shell .controlPort)) :: (said shell).drop 8) = some parsed := set
      obtain ⟨start, next, setStream, field⟩ :=
        setAll_field StreamOptions.streamId .streamId set_streamId (by simp [said, upOptions]) atStream
      obtain ⟨start', next', setPort, field'⟩ :=
        setAll_field StreamOptions.controlPort .controlPort set_controlPort
          (by simp [said, upOptions]) atPort
      rw [stream, StreamOptions.set, atoi_arithmetic] at setStream
      rw [control, StreamOptions.set, atoi_arithmetic, controlPortOf_key _ assigned.fits] at setPort
      obtain rfl := Option.some.inj setPort
      split at setStream
      · cases setStream
      · rename_i range
        obtain rfl := Option.some.inj setStream
        rw [not_or, not_lt, not_lt] at range
        have key := @Int.bmod_emod (n : Int) 4294967296
        have id : (n : Int).bmod 4294967296 = (n % 4294967296 : Nat) := by omega
        refine ⟨n, ⟨config, found, assigned⟩, assigned.fits, ?_, valid.streamId, ?_, ?_⟩
        · rw [streamKey_toNat assigned.fits, sameStream, field, ofInt_toNat (by omega) range.2, id]
          rfl
        · exact samePort.trans field'
        · simp only [StreamOptions.checked, Bool.and_eq_true, decide_eq_true_eq] at checked
          exact ⟨checked.1.2, checked.2⟩
  · cases up

/-- Nothing of a request is left to chance on the worker's side. -/
theorem reqIdr_dispatched (seq : UInt64) (li : LiCall → Int) (width height : Int32) :
    controlSocketProcessAll li width height [(reqIdr seq).memory] =
      [⟨reqIdr seq, [], [.requestIdrFrame], 0⟩] := by
  let request : Worker.Command := ⟨cmdReqIdr, 0, 0, 0, 0, seq, [], by decide⟩
  have memory : (reqIdr seq).memory = request.packet := (List.append_nil _).symm
  have all := processAll_commands li width height [request]
  rw [List.map_singleton, List.map_singleton] at all
  rw [memory, all]
  rfl

/-- The files after these commands, from an empty directory on. -/
def managed (env : Environment) (commands : List Command) : Files :=
  Run.run (command env) (fun _ => none) commands

/-- The map of a server that started after the file was written. -/
def serverMap (files : Files) (names : List Value) (s : Shell) (most : Int) :
    WorkerCtrlMap :=
  initWorkerCtrlMapOnce most none
    (some (ctrlMapText (generateCtrlMapFile (sources files) names s).1))

/-- A request for a stream makes the worker of that stream ask for one IDR frame, and no other. -/
structure RequestsFind (keyDir : Text) (env : Environment) (files : Files) (most : Int)
    (map : WorkerCtrlMap) : Prop where
  reaches : ∀ name s o, upWorker keyDir env files name s = some o → 0 < o.controlPort →
    (o.streamId.toNat : Int) ≤ most → ∀ seq, ∃ datagram,
      requestIdrBestEffortMainPath most map o.streamId seq true = some datagram ∧
      datagram.address = [127, 0, 0, 1] ∧ (datagram.port.toNat : Int) = o.controlPort ∧
      ∀ li width height, controlSocketProcessAll li width height [datagram.bytes] =
        [⟨reqIdr seq, [], [.requestIdrFrame], 0⟩]
  only : ∀ streamId seq sent datagram,
    requestIdrBestEffortMainPath most map streamId seq sent = some datagram →
      ∀ name s o, upWorker keyDir env files name s = some o →
        o.controlPort = datagram.port.toNat → o.streamId = streamId
  apart : ∀ name name' s s' o o', upWorker keyDir env files name s = some o →
    upWorker keyDir env files name' s' = some o' → o.controlPort = o'.controlPort →
      o.streamId = o'.streamId

theorem request_some {most : Int} {map : WorkerCtrlMap} {streamId : UInt16} {seq : UInt64}
    {sent : Bool} {datagram : Datagram}
    (asked : requestIdrBestEffortMainPath most map streamId seq sent = some datagram) :
    ∃ endpoint, map streamId.toNat = some endpoint ∧ datagram.port = endpoint.port := by
  unfold requestIdrBestEffortMainPath at asked
  split at asked
  · split at asked
    · rename_i endpoint found
      refine ⟨endpoint, found, ?_⟩
      unfold sendReqIdrToEndpoint at asked
      split at asked
      · cases asked
      · split at asked
        · cases asked
        · split at asked
          · rw [← Option.some.inj asked]
          · cases asked
    · cases asked
  · cases asked

/-- A file of the directory that a glob does not skip, with its name on one line. -/
def Visible (name : Value) : Prop := name.head? ≠ some '.' ∧ '/' ∉ name ∧ '\n' ∉ name

/-- What list_worker_names prints. -/
def Lists (files : Files) (names : List Value) : Prop :=
  ∀ name, name ∈ names ↔ (files name).isSome = true ∧ Visible name

/-- Regular commands leave the map and the workers' control ports in step, whatever the base of the
ports is and however often workers come and go, as long as list_worker_names finds them. -/
theorem idr_requests_find_worker (keyDir : Text) (env : Environment) (commands : List Command)
    (regular : ∀ c ∈ commands, c.Regular env) (names : List Value)
    (listed : Lists (managed env commands) names)
    (visible : ∀ name, (managed env commands name).isSome = true → Visible name)
    (shell : Shell) (maxStreams : Option Text) :
    RequestsFind keyDir env (managed env commands) (serverRuntimeMaxStreams maxStreams)
      (serverMap (managed env commands) names shell (serverRuntimeMaxStreams maxStreams)) := by
  have consistent : Consistent env (managed env commands) := commands_keep commands regular nofun
  generalize managed env commands = files at *
  generalize serverRuntimeMaxStreams maxStreams = most
  obtain ⟨streams, lines, sound, complete⟩ := generate_streams consistent names shell
  have fits : ∀ n ∈ streams, n < shellLimit := fun n member => (sound n member).1
  have map (stream : UInt32) := map_streams most env.controlPortBase fits stream
  rw [← lines] at map
  have same {streamId : UInt16} {stream : UInt32} (equal : stream.toNat = streamId.toNat)
      {o : StreamOptions} {name : Value} {n : Nat} (started : Started env files name o n)
      (port : o.controlPort = controlPortOf env.controlPortBase stream) : o.streamId = streamId := by
    have key := controlPortOf_injective _ (started.port.symm.trans port)
    apply UInt16.toNat_inj.mp
    rw [← equal, ← started.stream, key]
  refine ⟨?_, ?_, ?_⟩
  · intro name s o up positive served seq
    obtain ⟨n, started⟩ := upWorker_started consistent up
    obtain ⟨config, found, assigned⟩ := started.configured
    have there : (files name).isSome = true := by
      rw [found]
      rfl
    have member : name ∈ names := (listed name).mpr ⟨there, visible name there⟩
    have among : streamKey n ∈ streams.map streamKey :=
      List.mem_map_of_mem (complete name member config n found assigned)
    have known : 0 < o.streamId.toNat := by
      apply Nat.pos_of_ne_zero
      intro zero
      exact started.known (UInt16.toNat_inj.mp zero)
    have taken : Taken most (streamKey n) (controlPortOf env.controlPortBase (streamKey n)) := by
      refine ⟨?_, ?_, ?_, ?_⟩
      · intro zero
        rw [← started.stream, zero] at known
        exact absurd known (by decide)
      · rw [started.stream]
        exact served
      · rw [← started.port]
        exact positive
      · rw [← started.port]
        exact started.bound.2
    have entry := map (streamKey n)
    rw [if_pos ⟨among, taken⟩, started.stream, ← started.port] at entry
    have number : ((UInt16.ofInt o.controlPort).toNat : Int) = o.controlPort := by
      rw [ofInt_toNat started.bound.1 started.bound.2]
      omega
    have open_ : ¬(localhost = [] ∨ UInt16.ofInt o.controlPort = 0) := by
      rintro (empty | zero)
      · cases empty
      · rw [zero] at number
        have none_ : ((0 : UInt16).toNat : Int) = 0 := rfl
        omega
    have address : inetPton localhost = some [127, 0, 0, 1] := by rfl
    have spoken : o.streamId > 0 ∧ (o.streamId.toNat : Int) ≤ most := ⟨known, served⟩
    refine ⟨⟨[127, 0, 0, 1], UInt16.ofInt o.controlPort, (reqIdr seq).memory⟩, ?_, rfl, number,
      reqIdr_dispatched seq⟩
    simp only [requestIdrBestEffortMainPath, serverMap, entry]
    rw [if_pos spoken, sendReqIdrToEndpoint, if_neg open_]
    simp only [address, if_true]
  · intro streamId seq sent datagram asked name s o up port
    obtain ⟨n, started⟩ := upWorker_started consistent up
    obtain ⟨endpoint, found, sentTo⟩ := request_some asked
    have entry := map streamId.toUInt32
    rw [UInt16.toNat_toUInt32] at entry
    rw [serverMap, entry] at found
    split at found
    · rename_i there
      obtain ⟨-, -, -, positive, most⟩ := there
      obtain rfl := Option.some.inj found
      apply same (UInt16.toNat_toUInt32 streamId) started
      rw [port, sentTo, ofInt_toNat (by omega) most]
      omega
    · cases found
  · intro name name' s s' o o' up up' port
    obtain ⟨n, started⟩ := upWorker_started consistent up
    obtain ⟨n', started'⟩ := upWorker_started consistent up'
    exact same started'.stream started (port.trans started'.port)

def sampleSettings : Settings :=
  ipSettings ⟨[], nofun⟩ ⟨[], nofun⟩ ⟨"10.0.0.5".toList, List.all_eq_true.mp rfl⟩

theorem samplePort_ordinary : ∀ c ∈ "9000".toList, ordinary c := List.all_eq_true.mp rfl

def sampleCommands : List Command :=
  [.batchAdd sampleSettings ⟨"9000".toList, samplePort_ordinary⟩ "1".toList "2".toList]

def sampleConfig (n : Int) : WorkerConfig :=
  ⟨sampleSettings, ⟨"9000".toList, samplePort_ordinary⟩, number n, number (30000 + n)⟩

theorem sample_managed : managed emptyEnvironment sampleCommands =
    Function.update (Function.update (fun _ => none) "worker_s1".toList (some (sampleConfig 1)))
      "worker_s2".toList (some (sampleConfig 2)) := by rfl

theorem sample_listed (name : Value) : name ∈ ["worker_s1".toList, "worker_s2".toList] ↔
    (managed emptyEnvironment sampleCommands name).isSome = true := by
  rw [sample_managed, Function.update_apply, Function.update_apply, List.mem_pair]
  by_cases second : name = "worker_s2".toList
  · rw [if_pos second]
    exact iff_of_true (Or.inr second) rfl
  · rw [if_neg second]
    by_cases first : name = "worker_s1".toList
    · rw [if_pos first]
      exact iff_of_true (Or.inl first) rfl
    · rw [if_neg first]
      exact iff_of_false (not_or.mpr ⟨first, second⟩) nofun

theorem sample_visible (name : Value)
    (there : (managed emptyEnvironment sampleCommands name).isSome = true) : Visible name := by
  rcases List.mem_pair.mp ((sample_listed name).mpr there) with rfl | rfl <;> unfold Visible <;> decide

/-- Two workers of one batch. -/
theorem idr_requests_find_worker_batch :
    RequestsFind [] emptyEnvironment (managed emptyEnvironment sampleCommands)
      (serverRuntimeMaxStreams none) (serverMap (managed emptyEnvironment sampleCommands)
        ["worker_s1".toList, "worker_s2".toList] emptyEnvironment.shell (serverRuntimeMaxStreams none)) :=
  idr_requests_find_worker [] emptyEnvironment sampleCommands
    (by simp [sampleCommands, Command.Regular]) _
    (fun name => (sample_listed name).trans (and_iff_left_of_imp (sample_visible name)).symm)
    sample_visible _ none

end StreamRelay.Mlctl
