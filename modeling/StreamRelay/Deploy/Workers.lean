import Mathlib.Data.List.TakeWhile
import StreamRelay.Deploy.Mlctl

/-! The worker configurations that mlctl.sh writes, and which stream and control port they give out.
Every command that leaves these to mlctl gives stream n the control port n above the base. -/
namespace StreamRelay.Mlctl

/-- A character that stands for itself between double quotes, on a line of its own. -/
def ordinary (c : Char) : Bool := c ∉ ['"', '$', '\\', Char.ofNat 96, '\n', '\r']

abbrev Word := {value : Value // ∀ c ∈ value, ordinary c = true}

def Var.text : Var → Value
  | .name => "NAME".toList
  | .host => "HOST".toList
  | .app => "APP".toList
  | .image => "IMAGE".toList
  | .workerBin => "WORKER_BIN".toList
  | .keyDir => "KEY_DIR".toList
  | .controlBind => "CONTROL_BIND".toList
  | .controlPort => "CONTROL_PORT".toList
  | .tcpHost => "TCP_HOST".toList
  | .tcpPort => "TCP_PORT".toList
  | .streamId => "STREAM_ID".toList
  | .width => "WIDTH".toList
  | .height => "HEIGHT".toList
  | .fps => "FPS".toList
  | .bitrate => "BITRATE".toList
  | .packetSize => "PACKET_SIZE".toList
  | .colorspace => "COLORSPACE".toList
  | .range => "RANGE".toList
  | .codec => "CODEC".toList
  | .chroma => "CHROMA".toList
  | .bitdepth => "BITDEPTH".toList
  | .skipModeCheck => "SKIP_MODE_CHECK".toList
  | .containerName => "CONTAINER_NAME".toList

/-- What write_worker_config takes over as it is. -/
structure Settings where
  host : Word
  app : Word
  image : Word
  workerBin : Word
  tcpHost : Word
  controlBind : Word
  width : Word
  height : Word
  fps : Word
  bitrate : Word
  packetSize : Word
  colorspace : Word
  range : Word
  codec : Word
  chroma : Word
  bitdepth : Word
  skipModeCheck : Word

structure WorkerConfig where
  settings : Settings
  tcpPort : Word
  streamId : Word
  controlPort : Word

namespace WorkerConfig

/-- The lines of the file. -/
def lines (config : WorkerConfig) : List (Var × Word) :=
  let s := config.settings
  [(.host, s.host), (.app, s.app), (.image, s.image), (.workerBin, s.workerBin),
    (.tcpHost, s.tcpHost), (.tcpPort, config.tcpPort), (.streamId, config.streamId),
    (.controlBind, s.controlBind), (.controlPort, config.controlPort), (.width, s.width),
    (.height, s.height), (.fps, s.fps), (.bitrate, s.bitrate), (.packetSize, s.packetSize),
    (.colorspace, s.colorspace), (.range, s.range), (.codec, s.codec), (.chroma, s.chroma),
    (.bitdepth, s.bitdepth), (.skipModeCheck, s.skipModeCheck)]

def line (said : Var × Word) : Value := said.1.text ++ "=\"".toList ++ said.2.val ++ ['"']

def text (config : WorkerConfig) : Value := config.lines.flatMap fun said => line said ++ ['\n']

/-- What the shell gets when it sources the file. -/
def file (config : WorkerConfig) : File := fun v => (config.lines.lookup v).map Subtype.val

end WorkerConfig

abbrev Files := Value → Option WorkerConfig

def sources (files : Files) (name : Value) : Option File := (files name).map WorkerConfig.file

theorem digits_ordinary {c : Char} (digit : c.isDigit = true) : ordinary c = true := by
  simp only [ordinary, decide_not, Bool.not_eq_true', decide_eq_false_iff_not]
  intro special
  simp only [List.mem_cons, List.not_mem_nil, or_false] at special
  rcases special with rfl | rfl | rfl | rfl | rfl | rfl <;> revert digit <;> decide

theorem arithmetic_ordinary (x : Int) : ∀ c ∈ arithmetic x, ordinary c = true := by
  intro c member
  have digits {n : Nat} (among : c ∈ Nat.toDigits 10 n) : ordinary c = true :=
    digits_ordinary (Nat.isDigit_of_mem_toDigits (by decide) (by decide) among)
  simp only [arithmetic] at member
  split at member
  · rcases List.mem_cons.mp member with rfl | among
    · decide
    · exact digits among
  · exact digits member

def number (x : Int) : Word := ⟨arithmetic x, arithmetic_ordinary x⟩

theorem number_val (x : Int) : (number x).val = arithmetic x := rfl

/-- `^worker_s([0-9]+)$` -/
def numbered (name : Value) : Bool :=
  "worker_s".toList.isPrefixOf name && !(name.drop 8).isEmpty && (name.drop 8).all Char.isDigit

def autoTcpPort (name : Value) : Int := if numbered name then 9000 else 9000 + indexOf name

def autoStreamId (name : Value) : Int := if numbered name then indexOf name else 1 + indexOf name

/-- `10#` of a text, or an error. -/
def tenSharp (text : Value) : Option Int :=
  if text ≠ [] ∧ text.all Char.isDigit then some (indexOf text) else none

variable (env : Environment)

/-- The configuration written for a name; a number that cannot be computed leaves none. -/
def writeWorkerConfig (name : Value) (settings : Settings) (tcpPort streamId controlPort : Word) :
    Option WorkerConfig :=
  let tcpPort := if tcpPort.val = [] then number (autoTcpPort name) else tcpPort
  let streamId := if streamId.val = [] then number (autoStreamId name) else streamId
  if controlPort.val ≠ [] then some ⟨settings, tcpPort, streamId, controlPort⟩
  else if numbered name then
    (tenSharp streamId.val).map fun n =>
      ⟨settings, tcpPort, streamId, number (env.controlPortBase + n)⟩
  else some ⟨settings, tcpPort, streamId, number (env.controlPortBase + 1 + indexOf name)⟩

/-- The files behind a worker that could be created. -/
def createWorkerNoninteractive (files : Files) (name : Value) (settings : Settings)
    (tcpPort streamId controlPort : Word) : Option Files :=
  if name = [] ∨ settings.host.val = [] then none
  else if (files name).isSome then none
  else
    (writeWorkerConfig env name settings tcpPort streamId controlPort).map fun config =>
      Function.update files name (some config)

/-- The value of a variable in an arithmetic expression: a leading zero means octal. -/
def shellNumber (text : Value) : Option Nat :=
  if text = [] ∨ !text.all Char.isDigit then none
  else if text.head? = some '0' then
    if text.all fun c => c < '8' then some (Nat.ofDigitChars 8 text 0) else none
  else some (Nat.ofDigitChars 10 text 0)

/-- One round of the loop in create_workers_batch; a failure ends it. -/
def batchRound (settings : Settings) (tcpPort : Word) (s : Files × Bool) (i : Nat) : Files × Bool :=
  let name := "worker_s".toList ++ Nat.toDigits 10 i
  if !s.2 then s
  else if (s.1 name).isSome then s
  else
    match createWorkerNoninteractive env s.1 name settings tcpPort (number i)
        (number (env.controlPortBase + i)) with
    | some files => (files, true)
    | none => (s.1, false)

def createWorkersBatch (files : Files) (settings : Settings) (tcpPort : Word)
    (startIdx endIdx : Value) : Files × Bool :=
  match shellNumber startIdx, shellNumber endIdx with
  | some first, some last =>
    if settings.host.val = [] ∨ ¬(first ≥ 1 ∧ last ≥ first) ∨ ¬last ≤ 999 then (files, false)
    else (List.range' first (last + 1 - first)).foldl (batchRound env settings tcpPort) (files, true)
  | _, _ => (files, false)

theorem mem_intercalate {sep item : Value} {c : Char} (member : c ∈ item) :
    ∀ {items : List Value}, item ∈ items → c ∈ sep.intercalate items
  | [single], among => by
    obtain rfl := List.mem_singleton.mp among
    rwa [List.intercalate_singleton]
  | first :: second :: later, among => by
    rw [List.intercalate_cons_cons, List.append_assoc]
    rcases List.mem_cons.mp among with rfl | behind
    · exact List.mem_append_left _ member
    · exact List.mem_append_right _ (List.mem_append_right _ (mem_intercalate member behind))

/-- The hosts of one argument of batch-add-ips, blanks left out. -/
def hosts (raw : Word) : List Value :=
  (((raw.val.takeWhile (· ≠ '\n')).splitOn ',').map fun item => item.filter (· ≠ ' ')).filter (· ≠ [])

theorem hosts_ordinary {raw : Word} {host : Value} (among : host ∈ hosts raw) :
    ∀ c ∈ host, ordinary c = true := by
  obtain ⟨item, there, rfl⟩ := List.mem_map.mp (List.mem_filter.mp among).1
  intro c member
  have inside : c ∈ [','].intercalate ((raw.val.takeWhile (· ≠ '\n')).splitOn ',') :=
    mem_intercalate (List.mem_filter.mp member).1 there
  rw [List.intercalate_splitOn] at inside
  exact raw.2 c ((List.takeWhile_prefix _).subset inside)

/-- The defaults that batch-add-ips does not let one change. -/
def ipSettings (image workerBin host : Word) : Settings where
  host := host
  app := ⟨"Desktop".toList, List.all_eq_true.mp rfl⟩
  image := image
  workerBin := workerBin
  tcpHost := ⟨"127.0.0.1".toList, List.all_eq_true.mp rfl⟩
  controlBind := ⟨"0.0.0.0".toList, List.all_eq_true.mp rfl⟩
  width := ⟨"1024".toList, List.all_eq_true.mp rfl⟩
  height := ⟨"768".toList, List.all_eq_true.mp rfl⟩
  fps := ⟨"30".toList, List.all_eq_true.mp rfl⟩
  bitrate := ⟨"10000".toList, List.all_eq_true.mp rfl⟩
  packetSize := ⟨"1024".toList, List.all_eq_true.mp rfl⟩
  colorspace := ⟨"709".toList, List.all_eq_true.mp rfl⟩
  range := ⟨"full".toList, List.all_eq_true.mp rfl⟩
  codec := ⟨"hevc".toList, List.all_eq_true.mp rfl⟩
  chroma := ⟨"444".toList, List.all_eq_true.mp rfl⟩
  bitdepth := ⟨"8".toList, List.all_eq_true.mp rfl⟩
  skipModeCheck := ⟨"1".toList, List.all_eq_true.mp rfl⟩

/-- The files, and the text of idx as long as the loop goes on. -/
def ipRound (image workerBin : Word) (s : Files × Option Word) (host : Word) : Files × Option Word :=
  match s.2 with
  | none => s
  | some idx =>
    let suffix := (host.val.reverse.takeWhile (· ≠ '.')).reverse
    let name := "worker_".toList ++ suffix
    if suffix = [] ∨ !suffix.all Char.isDigit then (s.1, none)
    else
      match shellNumber idx.val with
      | none => (s.1, none)
      | some n =>
        if (s.1 name).isSome then (s.1, none)
        else
          match createWorkerNoninteractive env s.1 name (ipSettings image workerBin host)
              ⟨"9000".toList, List.all_eq_true.mp rfl⟩ idx (number (env.controlPortBase + n)) with
          | some files => (files, some (number (n + 1)))
          | none => (s.1, none)

def createWorkersFromIpList (files : Files) (image workerBin : Word) (startIdx : Word)
    (raws : List Word) : Files × Option Word :=
  if raws = [] ∨ startIdx.val = [] ∨ !startIdx.val.all Char.isDigit then (files, none)
  else
    (raws.flatMap fun raw => (hosts raw).attach.map fun host =>
      (⟨host.1, hosts_ordinary host.2⟩ : Word)).foldl (ipRound env image workerBin) (files, some startIdx)

/-- The file of the name that a worker has once it is loaded goes. -/
def deleteWorker (files : Files) (name : Value) : Files :=
  let loaded := loadWorker env (sources files) name env.shell
  if loaded.1 then Function.update files ((loaded.2 .name).getD []) none else files

inductive Command where
  | add (name : Value) (settings : Settings) (tcpPort streamId controlPort : Word)
  | batchAdd (settings : Settings) (tcpPort : Word) (startIdx endIdx : Value)
  | batchAddIps (image workerBin startIdx : Word) (raws : List Word)
  | delete (name : Value)

def command (files : Files) : Command → Files
  | .add name settings tcpPort streamId controlPort =>
    (createWorkerNoninteractive env files name settings tcpPort streamId controlPort).getD files
  | .batchAdd settings tcpPort startIdx endIdx =>
    (createWorkersBatch env files settings tcpPort startIdx endIdx).1
  | .batchAddIps image workerBin startIdx raws =>
    (createWorkersFromIpList env files image workerBin startIdx raws).1
  | .delete name => deleteWorker env files name

/-- What arithmetic can hold. -/
def shellLimit : Nat := 9223372036854775808

/-- A configuration for a stream, with the control port of that stream. -/
structure Assigned (config : WorkerConfig) (n : Nat) : Prop where
  fits : n < shellLimit
  host : config.settings.host.val ≠ []
  streamId : config.streamId = number n
  controlPort : config.controlPort = number (env.controlPortBase + n)

def Consistent (files : Files) : Prop :=
  ∀ name config, files name = some config → ∃ n, Assigned env config n

/-- Stream and control port are left to mlctl, or belong together. -/
inductive Matching (name : Value) (streamId controlPort : Word) : Prop
  | left (fits : autoStreamId name < shellLimit) (stream : streamId.val = [])
    (control : controlPort.val = [])
  | given (n : Nat) (fits : n < shellLimit) (stream : streamId = number n)
    (control : controlPort = number (env.controlPortBase + n))

/-- A command under which the files stay consistent. -/
def Command.Regular : Command → Prop
  | .add name _ _ streamId controlPort => Matching env name streamId controlPort
  | .batchAdd .. => True
  | .batchAddIps _ _ startIdx raws =>
    ∃ n : Nat, startIdx = number n ∧ n + (raws.flatMap hosts).length < shellLimit
  | .delete _ => True

theorem arithmetic_nat {n : Nat} (fits : n < shellLimit) : arithmetic n = Nat.toDigits 10 n := by
  have same : Narrowing.wrap 9223372036854775808 (n : Int) = n := by
    apply Narrowing.wrap_inside
    · omega
    · exact Int.ofNat_lt.mpr fits
  simp only [arithmetic, same]
  rw [if_neg (by omega), Int.natAbs_natCast]

theorem arithmetic_ne_nil (x : Int) : arithmetic x ≠ [] := by
  simp only [arithmetic]
  split
  · exact List.cons_ne_nil _ _
  · exact Nat.toDigits_ne_nil

theorem digit_value {c : Char} (digit : c.isDigit = true) :
    ((c.toNat - '0'.toNat : Nat) : Int) = (c.toNat : Int) - 48 := by
  have range : 48 ≤ c.toNat ∧ c.toNat ≤ 57 := by
    simpa [Char.isDigit, UInt32.le_iff_toNat_le] using digit
  have zero : '0'.toNat = 48 := rfl
  omega

theorem fold_digits {digits : Value} (all : ∀ c ∈ digits, c.isDigit = true) (n : Nat) :
    digits.foldl (fun (n : Int) digit => 10 * n + (digit.toNat - 48)) n =
      (Nat.ofDigitChars 10 digits n : Int) := by
  induction digits generalizing n with
  | nil => rfl
  | cons c digits ih =>
    have next : (10 * n + ((c.toNat : Int) - 48)) = ((10 * n + (c.toNat - '0'.toNat) : Nat) : Int) := by
      rw [Int.natCast_add, digit_value (all c List.mem_cons_self), Int.natCast_mul]
      rfl
    rw [List.foldl_cons, next, Nat.ofDigitChars_cons]
    exact ih (fun c member => all c (List.mem_cons_of_mem _ member)) _

theorem indexOf_nat (name : Value) :
    indexOf name = (Nat.ofDigitChars 10 (name.reverse.takeWhile Char.isDigit).reverse 0 : Int) := by
  apply fold_digits
  intro c member
  exact List.mem_takeWhile_imp (List.mem_reverse.mp member)

theorem toDigits_all (n : Nat) : (Nat.toDigits 10 n).all Char.isDigit = true := by
  rw [List.all_eq_true]
  intro c member
  exact Nat.isDigit_of_mem_toDigits (by decide) (by decide) member

theorem indexOf_digits (n : Nat) : indexOf (Nat.toDigits 10 n) = n := by
  have all : (Nat.toDigits 10 n).reverse.takeWhile Char.isDigit = (Nat.toDigits 10 n).reverse := by
    rw [List.takeWhile_eq_self_iff]
    intro c member
    exact List.all_eq_true.mp (toDigits_all n) c (List.mem_reverse.mp member)
  rw [indexOf_nat, all, List.reverse_reverse, Nat.ofDigitChars_ten_toDigits]

theorem tenSharp_number {n : Nat} (fits : n < shellLimit) : tenSharp (number n).val = some (n : Int) := by
  rw [number_val, arithmetic_nat fits, tenSharp, if_pos ⟨Nat.toDigits_ne_nil, toDigits_all n⟩, indexOf_digits]

theorem toDigits_head {n : Nat} (positive : 0 < n) : (Nat.toDigits 10 n).head? ≠ some '0' := by
  induction n using Nat.strongRecOn with
  | ind n ih =>
    by_cases small : n < 10
    · rw [Nat.toDigits_of_lt_base small]
      have other : ∀ n < 10, 0 < n → [n.digitChar].head? ≠ some '0' := by decide
      exact other n small positive
    · have before := ih (n / 10) (by omega) (by omega)
      obtain ⟨first, later, split⟩ := List.exists_cons_of_ne_nil
        (show Nat.toDigits 10 (n / 10) ≠ [] from Nat.toDigits_ne_nil)
      rw [Nat.toDigits_of_base_le (by decide) (Nat.le_of_not_lt small)]
      rw [split] at before ⊢
      exact before

/-- A printed number is no octal one. -/
theorem shellNumber_number {n : Nat} (fits : n < shellLimit) : shellNumber (number n).val = some n := by
  have sound : ¬(Nat.toDigits 10 n = [] ∨ (!(Nat.toDigits 10 n).all Char.isDigit) = true) := by
    rw [toDigits_all]
    rintro (empty | bad)
    · exact Nat.toDigits_ne_nil empty
    · cases bad
  rw [number_val, arithmetic_nat fits, shellNumber, if_neg sound]
  rcases Nat.eq_zero_or_pos n with rfl | positive
  · rfl
  · rw [if_neg (toDigits_head positive), Nat.ofDigitChars_ten_toDigits]

theorem number_ne_nil (x : Int) : (number x).val ≠ [] := arithmetic_ne_nil x

variable {env} {files : Files}

/-- What write_worker_config makes of a stream and a port that match. -/
theorem write_assigned {name : Value} {settings : Settings} {tcpPort streamId controlPort : Word}
    {config : WorkerConfig} (hosted : settings.host.val ≠ [])
    (matching : Matching env name streamId controlPort)
    (written : writeWorkerConfig env name settings tcpPort streamId controlPort = some config) :
    ∃ n, Assigned env config n := by
  simp only [writeWorkerConfig] at written
  cases matching with
  | given n fits stream control =>
    subst stream control
    rw [if_pos (number_ne_nil _), if_neg (number_ne_nil _)] at written
    obtain rfl := Option.some.inj written
    exact ⟨n, fits, hosted, rfl, rfl⟩
  | left fits stream control =>
    obtain ⟨index, same⟩ : ∃ index : Nat, indexOf name = index := ⟨_, indexOf_nat name⟩
    rw [if_neg (not_not.mpr control), if_pos stream] at written
    unfold autoStreamId at fits written
    by_cases named : numbered name = true
    · rw [if_pos named] at fits
      rw [if_pos named, if_pos named, same] at written
      have inside : index < shellLimit := by omega
      rw [tenSharp_number inside] at written
      obtain rfl := Option.some.inj written
      exact ⟨index, inside, hosted, rfl, rfl⟩
    · rw [if_neg named] at fits
      rw [if_neg named, if_neg named] at written
      obtain rfl := Option.some.inj written
      refine ⟨index + 1, by omega, hosted, ?_, ?_⟩
      · rw [same]
        exact congrArg number (by omega)
      · rw [same]
        exact congrArg number (by omega)

theorem create_keeps {files' : Files} {name : Value} {settings : Settings}
    {tcpPort streamId controlPort : Word} (consistent : Consistent env files)
    (matching : Matching env name streamId controlPort)
    (created : createWorkerNoninteractive env files name settings tcpPort streamId controlPort =
      some files') : Consistent env files' := by
  unfold createWorkerNoninteractive at created
  split at created
  · cases created
  · rename_i given
    split at created
    · cases created
    · obtain ⟨config, written, rfl⟩ := Option.map_eq_some_iff.mp created
      intro other otherConfig found
      by_cases same : other = name
      · subst same
        rw [Function.update_self] at found
        obtain rfl := Option.some.inj found
        exact write_assigned (fun empty => given (Or.inr empty)) matching written
      · rw [Function.update_of_ne same] at found
        exact consistent other otherConfig found

theorem batchRound_keeps {settings : Settings} {tcpPort : Word} {s : Files × Bool} {i : Nat}
    (fits : i < shellLimit) (consistent : Consistent env s.1) :
    Consistent env (batchRound env settings tcpPort s i).1 := by
  simp only [batchRound]
  split
  · exact consistent
  · split
    · exact consistent
    · split
      · rename_i files created
        exact create_keeps consistent (.given i fits rfl rfl) created
      · exact consistent

theorem batch_keeps {settings : Settings} {tcpPort : Word} (startIdx endIdx : Value)
    (consistent : Consistent env files) :
    Consistent env (createWorkersBatch env files settings tcpPort startIdx endIdx).1 := by
  unfold createWorkersBatch
  split
  · rename_i first last _ _
    split
    · exact consistent
    · rename_i accepted
      have small : ∀ i ∈ List.range' first (last + 1 - first), i < shellLimit := by
        intro i member
        have bounds := List.mem_range'_1.mp member
        have limit : 999 < shellLimit := by decide
        omega
      generalize List.range' first (last + 1 - first) = indices at small
      suffices kept : ∀ s : Files × Bool, Consistent env s.1 →
          Consistent env (indices.foldl (batchRound env settings tcpPort) s).1 from
        kept (files, true) consistent
      induction indices with
      | nil => exact fun s consistent => consistent
      | cons i indices ih =>
        intro s consistent
        rw [List.foldl_cons]
        exact ih (fun j member => small j (List.mem_cons_of_mem _ member)) _
          (batchRound_keeps (small i List.mem_cons_self) consistent)
  · exact consistent

/-- A round keeps the files, and the next stream is one higher. -/
theorem ipRound_keeps (image workerBin host : Word) {s : Files × Option Word} {n : Nat}
    (fits : n < shellLimit) (counted : ∀ idx ∈ s.2, idx = number n) (consistent : Consistent env s.1) :
    Consistent env (ipRound env image workerBin s host).1 ∧
      ∀ idx ∈ (ipRound env image workerBin s host).2, idx = number (n + 1 : Nat) := by
  obtain ⟨files, idx⟩ := s
  unfold ipRound
  cases idx with
  | none => exact ⟨consistent, nofun⟩
  | some idx =>
    obtain rfl := counted idx rfl
    dsimp only
    rw [shellNumber_number fits]
    dsimp only
    split
    · exact ⟨consistent, nofun⟩
    · split
      · exact ⟨consistent, nofun⟩
      · split
        · rename_i files' created
          refine ⟨create_keeps consistent (.given n fits rfl rfl) created, ?_⟩
          intro idx same
          obtain rfl := Option.some.inj same
          exact congrArg number (by push_cast; rfl)
        · exact ⟨consistent, nofun⟩

theorem ipList_keeps {image workerBin startIdx : Word} {raws : List Word}
    (regular : ∃ n : Nat, startIdx = number n ∧ n + (raws.flatMap hosts).length < shellLimit)
    (consistent : Consistent env files) :
    Consistent env (createWorkersFromIpList env files image workerBin startIdx raws).1 := by
  obtain ⟨n, start, room⟩ := regular
  unfold createWorkersFromIpList
  split
  · exact consistent
  · have many : (raws.flatMap fun raw => (hosts raw).attach.map fun host =>
        (⟨host.1, hosts_ordinary host.2⟩ : Word)).length = (raws.flatMap hosts).length := by
      simp only [List.length_flatMap, List.length_map, List.length_attach]
    rw [← many] at room
    generalize (raws.flatMap fun raw => (hosts raw).attach.map fun host =>
      (⟨host.1, hosts_ordinary host.2⟩ : Word)) = items at room
    suffices kept : ∀ (s : Files × Option Word) (n : Nat), n + items.length < shellLimit →
        (∀ idx ∈ s.2, idx = number n) → Consistent env s.1 →
        Consistent env (items.foldl (ipRound env image workerBin) s).1 by
      refine kept (files, some startIdx) n room ?_ consistent
      intro idx same
      rw [← Option.some.inj same, start]
    clear room many
    induction items with
    | nil => exact fun s n _ _ consistent => consistent
    | cons host items ih =>
      intro s n room counted consistent
      rw [List.length_cons] at room
      have small : n < shellLimit := by omega
      obtain ⟨kept, next⟩ := ipRound_keeps image workerBin host small counted consistent
      rw [List.foldl_cons]
      exact ih _ (n + 1) (by omega) next kept

theorem delete_keeps (name : Value) (consistent : Consistent env files) :
    Consistent env (deleteWorker env files name) := by
  simp only [deleteWorker]
  split
  · intro other config found
    rw [Function.update_apply] at found
    split at found
    · cases found
    · exact consistent other config found
  · exact consistent

theorem command_keeps {c : Command} (regular : c.Regular env) (consistent : Consistent env files) :
    Consistent env (command env files c) := by
  cases c with
  | add name settings tcpPort streamId controlPort =>
    unfold command
    dsimp only
    cases created : createWorkerNoninteractive env files name settings tcpPort streamId controlPort with
    | none => exact consistent
    | some files' => exact create_keeps consistent regular created
  | batchAdd settings tcpPort startIdx endIdx => exact batch_keeps startIdx endIdx consistent
  | batchAddIps image workerBin startIdx raws => exact ipList_keeps regular consistent
  | delete name => exact delete_keeps name consistent

/-- Whatever is added and deleted in whatever order, failures included. -/
theorem commands_keep (commands : List Command) (regular : ∀ c ∈ commands, c.Regular env)
    (consistent : Consistent env files) :
    Consistent env (Run.run (command env) files commands) := by
  apply Run.history_while (command env) files (fun _ c => c.Regular env)
    (fun _ files => Consistent env files) consistent
  · intro past c kept allowed
    exact command_keeps allowed kept
  · exact Run.always_of_mem (command env) files regular

end StreamRelay.Mlctl
