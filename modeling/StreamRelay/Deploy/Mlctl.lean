import StreamRelay.Narrowing
import StreamRelay.Run

/-! The configurations of the workers in mlctl.sh. All are sourced into the one shell of the
process, in whatever order its functions ask for them. -/
namespace StreamRelay.Mlctl

abbrev Value := List Char

/-- The variables that a configuration sets. -/
inductive Var
  | name
  | host
  | app
  | image
  | workerBin
  | keyDir
  | controlBind
  | controlPort
  | tcpHost
  | tcpPort
  | streamId
  | width
  | height
  | fps
  | bitrate
  | packetSize
  | colorspace
  | range
  | codec
  | chroma
  | bitdepth
  | skipModeCheck
  | containerName
  deriving DecidableEq

/-- A variable may be unset, or set to the empty text. -/
abbrev Shell := Var → Option Value

/-- What a configuration file sets. -/
abbrev File := Var → Option Value

/-- What mlctl is started with, the settings of its own that it takes from there included. -/
structure Environment where
  shell : Shell
  dataDir : Value
  defaultImage : Value
  defaultWorkerBin : Value
  controlPortBase : Int
  mlWorkerDefault : Var → Option Value

/-- `${variable:-fallback}` -/
def expand (content : Option Value) (fallback : Value) : Value :=
  match content with
  | none => fallback
  | some text => if text = [] then fallback else text

/-- The text of `$((x))`, in 64 bits. -/
def arithmetic (x : Int) : Value :=
  let result := Narrowing.wrap 9223372036854775808 x
  if result < 0 then '-' :: Nat.toDigits 10 result.natAbs else Nat.toDigits 10 result.natAbs

/-- `10#` of the digits that `([0-9]+)$` finds, zero where there are none. -/
def indexOf (nm : Value) : Int :=
  (nm.reverse.takeWhile Char.isDigit).reverse.foldl (fun n digit => 10 * n + (digit.toNat - 48)) 0

def unsetList : List Var :=
  [.name, .host, .app, .image, .workerBin, .keyDir, .controlBind, .controlPort,
    .width, .height, .fps, .bitrate, .packetSize, .colorspace, .range, .codec, .chroma, .bitdepth,
    .skipModeCheck, .containerName]

def unset (s : Shell) : Shell := fun v => if v ∈ unsetList then none else s v

def source (file : File) (s : Shell) : Shell := fun v => (file v).or (s v)

variable (env : Environment) (files : Value → Option File)

/-- What load_worker takes for a variable without a value, once NAME has one. -/
def fallback (nm : Value) : Var → Value
  | .name => nm
  | .host => []
  | .app => "Desktop".toList
  | .image => env.defaultImage
  | .workerBin => env.defaultWorkerBin
  | .keyDir => env.dataDir ++ "/".toList ++ nm ++ "/keys".toList
  | .controlBind => "0.0.0.0".toList
  | .controlPort => arithmetic (env.controlPortBase + 1 + indexOf nm)
  | .tcpHost => "127.0.0.1".toList
  | .tcpPort => arithmetic (9000 + indexOf nm)
  | .streamId => arithmetic (1 + indexOf nm)
  | .width => expand (env.mlWorkerDefault .width) "1024".toList
  | .height => expand (env.mlWorkerDefault .height) "768".toList
  | .fps => expand (env.mlWorkerDefault .fps) "30".toList
  | .bitrate => expand (env.mlWorkerDefault .bitrate) "10000".toList
  | .packetSize => expand (env.mlWorkerDefault .packetSize) "1024".toList
  | .colorspace => expand (env.mlWorkerDefault .colorspace) "709".toList
  | .range => expand (env.mlWorkerDefault .range) "full".toList
  | .codec => expand (env.mlWorkerDefault .codec) "hevc".toList
  | .chroma => expand (env.mlWorkerDefault .chroma) "444".toList
  | .bitdepth => expand (env.mlWorkerDefault .bitdepth) "8".toList
  | .skipModeCheck => expand (env.mlWorkerDefault .skipModeCheck) "1".toList
  | .containerName => "mlw-".toList ++ nm

/-- Whether the worker could be loaded, and the shell after it. -/
def loadWorker (name : Value) (s : Shell) : Bool × Shell :=
  match files name with
  | none => (false, s)
  | some file =>
    let s := source file (unset s)
    let nm := expand (s .name) name
    let s := Function.update s .name (some nm)
    if expand (s .host) [] = [] then (false, s)
    else (true, fun v => some (expand (s v) (fallback env nm v)))

/-- One round of generate_ctrl_map_file: the words of the line it writes, if any. -/
def ctrlMapLine (name : Value) (s : Shell) : Option (List Value) × Shell :=
  match files name with
  | none => (none, s)
  | some file =>
    let s := source file s
    let streamId := expand (s .streamId) []
    let controlPort := expand (s .controlPort) []
    (if streamId ≠ [] ∧ controlPort ≠ [] then
      some [streamId, "127.0.0.1".toList, controlPort] else none, s)

def generateCtrlMapFile (names : List Value) (s : Shell) : List (List Value) × Shell :=
  names.foldl (fun (written : List (List Value) × Shell) name =>
    let next := ctrlMapLine files name written.2
    (written.1 ++ next.1.toList, next.2)) ([], s)

/-- A configuration is sourced for one of two purposes. -/
inductive Call
  | load (name : Value)
  | mapLine (name : Value)

/-- The variables left for a worker that is loaded, or the line written for it. -/
inductive Outcome
  | loaded (left : Option Shell)
  | written (line : Option (List Value))

def call (s : Shell) : Call → Outcome × Shell
  | .load name =>
    let result := loadWorker env files name s
    (.loaded (if result.1 then some result.2 else none), result.2)
  | .mapLine name =>
    let result := ctrlMapLine files name s
    (.written result.1, result.2)

def step (s : Shell) (c : Call) : Shell := (call env files s c).2

/-- Every worker gets what it would get if it were the first. -/
def Apart (calls : List Call) : Prop :=
  Run.Always (step env files) env.shell
    (fun s c => (call env files s c).1 = (call env files env.shell c).1) calls

/-- What a file leaves out has the value it had at the start, as far as a default goes. -/
def Kept (file : File) (s : Shell) (v : Var) (default : Value) : Prop :=
  file v ≠ none ∨ expand (s v) default = expand (env.shell v) default

/-- No line is written from this file and this shell. -/
def Blank (file : File) (s : Shell) : Prop :=
  expand (source file s .streamId) [] = [] ∨ expand (source file s .controlPort) [] = []

/-- The shell in which a configuration is sourced shows nothing of another one. -/
def Clean (s : Shell) : Call → Prop
  | .load name => ∀ file, files name = some file → expand (file .host) [] ≠ [] →
      ∀ v ∈ [Var.tcpHost, .tcpPort, .streamId],
        Kept env file s v (fallback env (expand (file .name) name) v)
  | .mapLine name => ∀ file, files name = some file →
      (∀ v ∈ [Var.streamId, .controlPort], Kept env file s v []) ∨
        Blank file s ∧ Blank file env.shell

theorem unset_or (v : Var) : v ∈ unsetList ∨ v ∈ [Var.tcpHost, .tcpPort, .streamId] := by
  cases v <;> decide

/-- The shell from which load_worker takes its values. -/
def sourced (file : File) (nm : Value) (s : Shell) : Shell :=
  Function.update (source file (unset s)) .name (some nm)

theorem loadWorker_eq {name : Value} {file : File} (found : files name = some file) (s : Shell) :
    loadWorker env files name s =
      if expand (file .host) [] = [] then (false, sourced file (expand (file .name) name) s)
      else (true, fun v => some (expand (sourced file (expand (file .name) name) s v)
        (fallback env (expand (file .name) name) v))) := by
  have own : source file (unset s) .name = file .name := Option.or_none
  have host : sourced file (expand (file .name) name) s .host = file .host := Option.or_none
  rw [← host]
  simp only [loadWorker, found, own]
  rfl

/-- What load_worker unsets is the same from every shell, and so is what the file sets. -/
theorem sourced_same {file : File} {nm : Value} {s s' : Shell} {v : Var}
    (own : v ∈ unsetList ∨ file v ≠ none) : sourced file nm s v = sourced file nm s' v := by
  unfold sourced
  by_cases isName : v = .name
  · rw [isName, Function.update_self, Function.update_self]
  · rw [Function.update_of_ne isName, Function.update_of_ne isName, source, source, unset, unset]
    rcases own with cleared | sets
    · rw [if_pos cleared, if_pos cleared]
    · obtain ⟨text, sets⟩ := Option.ne_none_iff_exists'.mp sets
      rw [sets]
      rfl

theorem sourced_leak {file : File} {nm : Value} (s : Shell) {v : Var}
    (leaks : v ∈ [Var.tcpHost, .tcpPort, .streamId]) (unsaid : file v = none) :
    sourced file nm s v = s v := by
  have other : v ≠ .name := by
    rintro rfl
    revert leaks
    decide
  have remains : v ∉ unsetList := by
    intro cleared
    revert leaks cleared
    cases v <;> decide
  rw [sourced, Function.update_of_ne other, source, unset, if_neg remains, unsaid, Option.none_or]

theorem load_outcome {name : Value} {file : File} (found : files name = some file) (s : Shell) :
    (call env files s (.load name)).1 = .loaded (if expand (file .host) [] = [] then none
      else some fun v => some (expand (sourced file (expand (file .name) name) s v)
        (fallback env (expand (file .name) name) v))) := by
  simp only [call, loadWorker_eq env files found]
  split <;> rfl

theorem load_clean (name : Value) (s : Shell) :
    (call env files s (.load name)).1 = (call env files env.shell (.load name)).1 ↔
      Clean env files s (.load name) := by
  cases found : files name with
  | none =>
    have vacuous : Clean env files s (.load name) := by
      intro file other
      rw [found] at other
      cases other
    have absent (s : Shell) : (call env files s (.load name)).1 = .loaded none := by
      simp only [call, loadWorker, found]
      rfl
    rw [absent, absent]
    exact iff_of_true rfl vacuous
  | some file =>
    have clean : Clean env files s (.load name) ↔ (expand (file .host) [] ≠ [] →
        ∀ v ∈ [Var.tcpHost, .tcpPort, .streamId],
          Kept env file s v (fallback env (expand (file .name) name) v)) := by
      refine ⟨fun clean => clean file found, fun clean other same => ?_⟩
      obtain rfl := Option.some.inj (found.symm.trans same)
      exact clean
    rw [clean, load_outcome env files found, load_outcome env files found]
    by_cases homeless : expand (file .host) [] = []
    · rw [if_pos homeless, if_pos homeless]
      exact iff_of_true rfl fun hosted => absurd homeless hosted
    rw [if_neg homeless, if_neg homeless]
    constructor
    · intro same _ v leaks
      have equal := congrFun (Option.some.inj (Outcome.loaded.inj same)) v
      unfold Kept
      rw [Classical.or_iff_not_imp_left]
      intro unsaid
      rw [sourced_leak s leaks (not_not.mp unsaid),
        sourced_leak env.shell leaks (not_not.mp unsaid)] at equal
      exact Option.some.inj equal
    · intro kept
      apply congrArg Outcome.loaded
      apply congrArg some
      funext v
      by_cases own : v ∈ unsetList ∨ file v ≠ none
      · rw [sourced_same own]
      · obtain ⟨remains, unsaid⟩ := not_or.mp own
        have leaks := (unset_or v).resolve_left remains
        rw [sourced_leak s leaks (not_not.mp unsaid), sourced_leak env.shell leaks (not_not.mp unsaid)]
        exact congrArg some ((kept homeless v leaks).resolve_left unsaid)

theorem source_expand {file : File} {s : Shell} {v : Var} (kept : Kept env file s v []) :
    expand (source file s v) [] = expand (source file env.shell v) [] := by
  unfold source
  cases said : file v with
  | none => exact kept.resolve_left (not_not.mpr said)
  | some text => rfl

theorem mapLine_outcome {name : Value} {file : File} (found : files name = some file) (s : Shell) :
    (call env files s (.mapLine name)).1 = .written
      (if expand (source file s .streamId) [] ≠ [] ∧ expand (source file s .controlPort) [] ≠ [] then
        some [expand (source file s .streamId) [], "127.0.0.1".toList,
          expand (source file s .controlPort) []] else none) := by
  simp only [call, ctrlMapLine, found]

theorem mapLine_clean (name : Value) (s : Shell) :
    (call env files s (.mapLine name)).1 = (call env files env.shell (.mapLine name)).1 ↔
      Clean env files s (.mapLine name) := by
  cases found : files name with
  | none =>
    have vacuous : Clean env files s (.mapLine name) := by
      intro file other
      rw [found] at other
      cases other
    have absent (s : Shell) : (call env files s (.mapLine name)).1 = .written none := by
      simp only [call, ctrlMapLine, found]
    rw [absent, absent]
    exact iff_of_true rfl vacuous
  | some file =>
    have clean : Clean env files s (.mapLine name) ↔
        ((∀ v ∈ [Var.streamId, .controlPort], Kept env file s v []) ∨
          Blank file s ∧ Blank file env.shell) := by
      refine ⟨fun clean => clean file found, fun clean other same => ?_⟩
      obtain rfl := Option.some.inj (found.symm.trans same)
      exact clean
    have blank (s : Shell) : Blank file s ↔
        ¬ (expand (source file s .streamId) [] ≠ [] ∧ expand (source file s .controlPort) [] ≠ []) := by
      unfold Blank
      tauto
    rw [clean, mapLine_outcome env files found, mapLine_outcome env files found]
    constructor
    · intro same
      have equal := Outcome.written.inj same
      by_cases written : expand (source file s .streamId) [] ≠ [] ∧
          expand (source file s .controlPort) [] ≠ []
      · left
        rw [if_pos written] at equal
        split at equal
        · simp only [Option.some.injEq, List.cons.injEq, true_and, and_true] at equal
          have kept {v : Var} (value : expand (source file s v) [] =
              expand (source file env.shell v) []) : Kept env file s v [] := by
            unfold Kept
            rw [Classical.or_iff_not_imp_left]
            intro unsaid
            rwa [source, source, not_not.mp unsaid, Option.none_or, Option.none_or] at value
          intro v either
          simp only [List.mem_cons, List.not_mem_nil, or_false] at either
          rcases either with rfl | rfl
          · exact kept equal.1
          · exact kept equal.2
        · cases equal
      · right
        rw [if_neg written] at equal
        split at equal
        · cases equal
        · next silent => exact ⟨(blank s).mpr written, (blank env.shell).mpr silent⟩
    · rintro (kept | ⟨here, first⟩)
      · rw [source_expand env (kept .streamId (by simp)),
          source_expand env (kept .controlPort (by simp))]
      · rw [if_neg ((blank s).mp here), if_neg ((blank env.shell).mp first)]

theorem call_clean (s : Shell) (c : Call) :
    (call env files s c).1 = (call env files env.shell c).1 ↔ Clean env files s c := by
  cases c with
  | load name => exact load_clean env files name s
  | mapLine name => exact mapLine_clean env files name s

/-- Whatever is sourced in whatever order, every worker gets its own exactly if each shell in
which a configuration is sourced is clean of the others. -/
theorem apart_iff (calls : List Call) :
    Apart env files calls ↔ Run.Always (step env files) env.shell (Clean env files) calls := by
  unfold Apart Run.Always
  simp only [call_clean]

/-- Files that say everything that is not unset are always apart. -/
theorem apart_of_complete (complete : ∀ name file, files name = some file →
    ∀ v ∈ [Var.tcpHost, .tcpPort, .streamId, .controlPort], file v ≠ none) (calls : List Call) :
    Run.Always (step env files) env.shell (Clean env files) calls := by
  intro past c rest _
  cases c with
  | load name =>
    intro file found _ v leaks
    apply Or.inl
    apply complete name file found
    simp only [List.mem_cons, List.not_mem_nil, or_false] at leaks ⊢
    tauto
  | mapLine name =>
    intro file found
    refine .inl fun v used => .inl (complete name file found v ?_)
    simp only [List.mem_cons, List.not_mem_nil, or_false] at used ⊢
    tauto

/-- generate_ctrl_map_file is its rounds one after another, each with the line of its call. -/
theorem generateCtrlMapFile_snoc (names : List Value) (name : Value) (s : Shell) :
    let before := Run.run (step env files) s (names.map Call.mapLine)
    (generateCtrlMapFile files names s).2 = before ∧
      (generateCtrlMapFile files (names ++ [name]) s).1 =
        (generateCtrlMapFile files names s).1 ++ (ctrlMapLine files name before).1.toList := by
  intro before
  have shell : (generateCtrlMapFile files names s).2 = before := by
    induction names using List.reverseRecOn with
    | nil => rfl
    | append_singleton names last ih =>
      simp only [before, generateCtrlMapFile, List.foldl_append, List.foldl_cons, List.foldl_nil,
        List.map_append, List.map_cons, List.map_nil, Run.run_snoc] at ih ⊢
      rw [ih]
      rfl
  refine ⟨shell, ?_⟩
  rw [← shell]
  simp only [generateCtrlMapFile, List.foldl_append, List.foldl_cons, List.foldl_nil]

def leakingFiles (name : Value) : Option File :=
  if name = "a".toList then
    some fun v => match v with
      | .host => some "10.0.0.1".toList
      | .streamId => some "7".toList
      | _ => none
  else if name = "b".toList then
    some fun v => match v with
      | .host => some "10.0.0.2".toList
      | _ => none
  else none

def emptyEnvironment : Environment := ⟨fun _ => none, [], [], [], 30000, fun _ => none⟩

/-- Worker b, whose file says nothing of a stream, gets the stream of worker a. -/
theorem stream_leaks :
    ¬ Apart emptyEnvironment leakingFiles [.load "a".toList, .load "b".toList] := by
  intro apart
  have same := apart [.load "a".toList] (.load "b".toList) [] rfl
  have second := Option.some.inj (Outcome.loaded.inj same)
  have stream := congrFun second .streamId
  revert stream
  decide

end StreamRelay.Mlctl
