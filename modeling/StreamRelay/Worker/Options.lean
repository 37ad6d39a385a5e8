import Mathlib.Tactic.FinCases
import StreamRelay.CText
import StreamRelay.Protocol

/-! The command line of ml_worker stream, and the one video format that it asks the host for. -/
namespace StreamRelay.Worker
open CText

def videoFormatH264 : Int := 0x0001

def videoFormatH264High8444 : Int := 0x0004

def videoFormatH265 : Int := 0x0100

def videoFormatH265Main10 : Int := 0x0200

def videoFormatH265Rext8444 : Int := 0x0400

def videoFormatH265Rext10444 : Int := 0x0800

def videoFormatAv1Main8 : Int := 0x1000

def videoFormatAv1Main10 : Int := 0x2000

def videoFormatAv1High8444 : Int := 0x4000

def videoFormatAv1High10444 : Int := 0x8000

def streamCodecH264 : Int := 0

def streamCodecHevc : Int := 1

def streamCodecAv1 : Int := 2

def streamChroma420 : Int := 0

def streamChroma444 : Int := 1

def colorspaceRec601 : Int := 0

def colorspaceRec709 : Int := 1

def colorRangeLimited : Int := 0

def colorRangeFull : Int := 1

structure StreamOptions where
  host : Option Text
  app : Option Text
  keyDir : Text
  width : Int
  height : Int
  fps : Int
  bitrate : Int
  packetSize : Int
  colorSpace : Int
  colorRange : Int
  tcpHost : Text
  tcpPort : UInt16
  streamId : UInt16
  controlBind : Text
  controlPort : Int
  skipModeCheck : Bool
  codec : Int
  chroma : Int
  bitdepth : Int
  codecExplicit : Bool

def parseCodecArg (s : Text) : Option Int :=
  if sameIgnoringCase s (ofChars "h264".toList) then some streamCodecH264
  else if sameIgnoringCase s (ofChars "h265".toList) ||
      sameIgnoringCase s (ofChars "hevc".toList) then some streamCodecHevc
  else if sameIgnoringCase s (ofChars "av1".toList) then some streamCodecAv1
  else none

def parseChromaArg (s : Text) : Option Int :=
  if s = ofChars "420".toList then some streamChroma420
  else if s = ofChars "444".toList then some streamChroma444
  else none

def parseBitdepthArg (s : Text) : Option Int :=
  if s = ofChars "8".toList then some 8 else if s = ofChars "10".toList then some 10 else none

def parseColorSpaceArg (s : Text) : Option Int :=
  if sameIgnoringCase s (ofChars "709".toList) || sameIgnoringCase s (ofChars "bt709".toList) ||
      sameIgnoringCase s (ofChars "rec709".toList) then some colorspaceRec709
  else if sameIgnoringCase s (ofChars "601".toList) ||
      sameIgnoringCase s (ofChars "bt601".toList) ||
      sameIgnoringCase s (ofChars "rec601".toList) then some colorspaceRec601
  else none

def parseColorRangeArg (s : Text) : Option Int :=
  if sameIgnoringCase s (ofChars "limited".toList) then some colorRangeLimited
  else if sameIgnoringCase s (ofChars "full".toList) then some colorRangeFull
  else none

/-- The mask of the formats that the host may choose from. -/
def buildSupportedVideoFormats (opt : StreamOptions) : Option Int :=
  if opt.codec = streamCodecH264 then
    if opt.bitdepth ≠ 8 then none
    else some (if opt.chroma = streamChroma444 then videoFormatH264High8444 else videoFormatH264)
  else if opt.codec = streamCodecHevc then
    some (if opt.chroma = streamChroma444 then
        if opt.bitdepth = 10 then videoFormatH265Rext10444 else videoFormatH265Rext8444
      else if opt.bitdepth = 10 then videoFormatH265Main10 else videoFormatH265)
  else if opt.codec = streamCodecAv1 then
    some (if opt.chroma = streamChroma444 then
        if opt.bitdepth = 10 then videoFormatAv1High10444 else videoFormatAv1High8444
      else if opt.bitdepth = 10 then videoFormatAv1Main10 else videoFormatAv1Main8)
  else none

/-- Codec, chroma and bit depth of a format. -/
def videoFormatToStreamMetadata (videoFormat : Int) : Option (UInt32 × UInt32 × UInt32) :=
  if videoFormat = videoFormatH264 then some (0, 0, 8)
  else if videoFormat = videoFormatH264High8444 then some (0, 1, 8)
  else if videoFormat = videoFormatH265 then some (1, 0, 8)
  else if videoFormat = videoFormatH265Main10 then some (1, 0, 10)
  else if videoFormat = videoFormatH265Rext8444 then some (1, 1, 8)
  else if videoFormat = videoFormatH265Rext10444 then some (1, 1, 10)
  else if videoFormat = videoFormatAv1Main8 then some (2, 0, 8)
  else if videoFormat = videoFormatAv1Main10 then some (2, 0, 10)
  else if videoFormat = videoFormatAv1High8444 then some (2, 1, 8)
  else if videoFormat = videoFormatAv1High10444 then some (2, 1, 10)
  else none

def applyDefaultCodecPolicy (opt : StreamOptions) : StreamOptions :=
  if !opt.codecExplicit && opt.chroma = streamChroma444 && opt.codec = streamCodecH264 then
    {opt with codec := streamCodecHevc}
  else opt

def streamOptionsDefaults (keyDir : Text) : StreamOptions where
  host := none
  app := none
  keyDir := keyDir
  width := 1024
  height := 768
  fps := 30
  bitrate := 10000
  packetSize := 1392
  colorSpace := colorspaceRec709
  colorRange := colorRangeFull
  tcpHost := ofChars "127.0.0.1".toList
  tcpPort := 9000
  streamId := 1
  controlBind := ofChars "127.0.0.1".toList
  controlPort := 0
  skipModeCheck := true
  codec := streamCodecHevc
  chroma := streamChroma444
  bitdepth := 8
  codecExplicit := false

/-- The options that take a value. -/
inductive StreamOption where
  | host
  | app
  | keyDir
  | tcpHost
  | tcpPort
  | streamId
  | width
  | height
  | fps
  | bitrate
  | packetSize
  | colorspace
  | range
  | codec
  | chroma
  | bitdepth
  | controlBind
  | controlPort
  deriving DecidableEq

def streamOptionNames : List (Text × StreamOption) :=
  [(ofChars "--host".toList, .host), (ofChars "--app".toList, .app),
    (ofChars "--key-dir".toList, .keyDir), (ofChars "--tcp-host".toList, .tcpHost),
    (ofChars "--tcp-port".toList, .tcpPort), (ofChars "--stream-id".toList, .streamId),
    (ofChars "--width".toList, .width), (ofChars "--height".toList, .height),
    (ofChars "--fps".toList, .fps), (ofChars "--bitrate".toList, .bitrate),
    (ofChars "--packet-size".toList, .packetSize), (ofChars "--colorspace".toList, .colorspace),
    (ofChars "--range".toList, .range), (ofChars "--codec".toList, .codec),
    (ofChars "--chroma".toList, .chroma), (ofChars "--bitdepth".toList, .bitdepth),
    (ofChars "--control-bind".toList, .controlBind),
    (ofChars "--control-port".toList, .controlPort)]

/-- The branch of an option, nothing where its value is refused. -/
def StreamOptions.set (o : StreamOptions) (value : Text) : StreamOption → Option StreamOptions
  | .host => some {o with host := some value}
  | .app => some {o with app := some value}
  | .keyDir => some {o with keyDir := value}
  | .tcpHost => some {o with tcpHost := value.take 255}
  | .tcpPort => some {o with tcpPort := UInt16.ofInt (atoi value)}
  | .streamId =>
    if atoi value < 1 ∨ atoi value > 65535 then none
    else some {o with streamId := UInt16.ofInt (atoi value)}
  | .width => some {o with width := atoi value}
  | .height => some {o with height := atoi value}
  | .fps => some {o with fps := atoi value}
  | .bitrate => some {o with bitrate := atoi value}
  | .packetSize => some {o with packetSize := atoi value}
  | .colorspace => (parseColorSpaceArg value).map fun colorSpace => {o with colorSpace := colorSpace}
  | .range => (parseColorRangeArg value).map fun colorRange => {o with colorRange := colorRange}
  | .codec => (parseCodecArg value).map fun codec => {o with codec := codec, codecExplicit := true}
  | .chroma => (parseChromaArg value).map fun chroma => {o with chroma := chroma}
  | .bitdepth => (parseBitdepthArg value).map fun bitdepth => {o with bitdepth := bitdepth}
  | .controlBind => some {o with controlBind := value}
  | .controlPort => some {o with controlPort := atoi value}

/-- The loop of parse_stream_args; an unknown option ends it, and so does one without a value. -/
def parseStreamLoop (o : StreamOptions) : List Text → Option StreamOptions
  | [] => some o
  | arg :: rest =>
    if arg = ofChars "--skip-mode-check".toList then
      parseStreamLoop {o with skipModeCheck := true} rest
    else if arg = ofChars "--enforce-mode-check".toList then
      parseStreamLoop {o with skipModeCheck := false} rest
    else
      match rest with
      | [] => none
      | value :: rest =>
        match (streamOptionNames.lookup arg).bind (o.set value) with
        | some o => parseStreamLoop o rest
        | none => none

/-- A host and an app alone, or options. -/
def parseStreamWords (o : StreamOptions) (args : List Text) : Option StreamOptions :=
  match args with
  | [host, app] =>
    if host.head? ≠ some 45 && app.head? ≠ some 45 then some {o with host := some host, app := some app}
    else parseStreamLoop o args
  | _ => parseStreamLoop o args

/-- What stands behind the loop, before the options are used. -/
def StreamOptions.checked (o : StreamOptions) : Bool :=
  o.host.isSome && o.app.isSome && o.width > 0 && o.height > 0 && o.fps > 0 && o.bitrate > 0 &&
    o.packetSize > 0 && o.tcpPort ≠ 0 && o.controlPort ≥ 0 && o.controlPort ≤ 65535

def parseStreamArgs (keyDir : Text) (args : List Text) : Option StreamOptions :=
  match parseStreamWords (streamOptionsDefaults keyDir) args with
  | none => none
  | some o =>
    if !o.checked then none
    else
      let o := applyDefaultCodecPolicy o
      if (buildSupportedVideoFormats o).isSome then some o else none

/-- What the defaults have and every option keeps. -/
structure Valid (o : StreamOptions) : Prop where
  codec : o.codec = streamCodecH264 ∨ o.codec = streamCodecHevc ∨ o.codec = streamCodecAv1
  chroma : o.chroma = streamChroma420 ∨ o.chroma = streamChroma444
  bitdepth : o.bitdepth = 8 ∨ o.bitdepth = 10
  colorSpace : o.colorSpace = colorspaceRec601 ∨ o.colorSpace = colorspaceRec709
  colorRange : o.colorRange = colorRangeLimited ∨ o.colorRange = colorRangeFull
  streamId : o.streamId ≠ 0
  unspoken : o.codecExplicit = false → o.codec = streamCodecHevc

theorem defaults_valid (keyDir : Text) : Valid (streamOptionsDefaults keyDir) :=
  ⟨.inr (.inl rfl), .inr rfl, .inl rfl, .inr rfl, .inr rfl, by simp [streamOptionsDefaults], fun _ => rfl⟩

theorem parseCodecArg_known {s : Text} {codec : Int} (parsed : parseCodecArg s = some codec) :
    codec = streamCodecH264 ∨ codec = streamCodecHevc ∨ codec = streamCodecAv1 := by
  unfold parseCodecArg at parsed
  split at parsed
  · exact .inl (Option.some.inj parsed).symm
  · split at parsed
    · exact .inr (.inl (Option.some.inj parsed).symm)
    · split at parsed
      · exact .inr (.inr (Option.some.inj parsed).symm)
      · cases parsed

/-- What one of two answers was taken from. -/
theorem either_of_some {p q : Prop} [Decidable p] [Decidable q] {a b x : Int}
    (parsed : (if p then some a else if q then some b else none) = some x) : x = a ∨ x = b := by
  split at parsed
  · exact .inl (Option.some.inj parsed).symm
  · split at parsed
    · exact .inr (Option.some.inj parsed).symm
    · cases parsed

theorem streamId_positive {id : Int} (least : 1 ≤ id) (most : id ≤ 65535) : UInt16.ofInt id ≠ 0 := by
  intro zero
  have value := congrArg UInt16.toNat zero
  rw [UInt16.ofInt, UInt16.toNat_ofNat', UInt16.toNat_zero] at value
  omega

theorem set_valid {o next : StreamOptions} (valid : Valid o) {value : Text} {option : StreamOption}
    (accepted : o.set value option = some next) : Valid next := by
  cases option with
  | host | app | keyDir | tcpHost | tcpPort | width | height | fps | bitrate | packetSize
  | controlBind | controlPort =>
    obtain rfl := Option.some.inj accepted
    exact {valid with}
  | streamId =>
    simp only [StreamOptions.set] at accepted
    split at accepted
    · cases accepted
    · rename_i within
      obtain ⟨least, most⟩ := not_or.mp within
      obtain rfl := Option.some.inj accepted
      exact {valid with streamId := streamId_positive (not_lt.mp least) (not_lt.mp most)}
  | colorspace =>
    obtain ⟨colorSpace, parsed, rfl⟩ := Option.map_eq_some_iff.mp accepted
    exact {valid with colorSpace := (either_of_some parsed).symm}
  | range =>
    obtain ⟨colorRange, parsed, rfl⟩ := Option.map_eq_some_iff.mp accepted
    exact {valid with colorRange := either_of_some parsed}
  | codec =>
    obtain ⟨codec, parsed, rfl⟩ := Option.map_eq_some_iff.mp accepted
    exact {valid with codec := parseCodecArg_known parsed, unspoken := nofun}
  | chroma =>
    obtain ⟨chroma, parsed, rfl⟩ := Option.map_eq_some_iff.mp accepted
    exact {valid with chroma := either_of_some parsed}
  | bitdepth =>
    obtain ⟨bitdepth, parsed, rfl⟩ := Option.map_eq_some_iff.mp accepted
    exact {valid with bitdepth := either_of_some parsed}

theorem loop_valid {o parsed : StreamOptions} (valid : Valid o) (args : List Text)
    (accepted : parseStreamLoop o args = some parsed) : Valid parsed := by
  fun_induction parseStreamLoop o args with
  | case1 o =>
    obtain rfl := Option.some.inj accepted
    exact valid
  | case2 o rest ih => exact ih {valid with} accepted
  | case3 o rest other ih => exact ih {valid with} accepted
  | case4 | case6 => cases accepted
  | case5 o arg noSkip noEnforce value rest next set ih =>
    obtain ⟨option, -, taken⟩ := Option.bind_eq_some_iff.mp set
    exact ih (set_valid valid taken) accepted

theorem words_valid {o parsed : StreamOptions} (valid : Valid o) {args : List Text}
    (accepted : parseStreamWords o args = some parsed) : Valid parsed := by
  unfold parseStreamWords at accepted
  split at accepted
  · split at accepted
    · obtain rfl := Option.some.inj accepted
      exact {valid with}
    · exact loop_valid valid _ accepted
  · exact loop_valid valid _ accepted

/-- H.264 is never chosen without being asked for, so the policy has nothing to do. -/
theorem policy_idle {o : StreamOptions} (valid : Valid o) : applyDefaultCodecPolicy o = o := by
  unfold applyDefaultCodecPolicy
  split
  · rename_i applies
    simp only [Bool.and_eq_true, Bool.not_eq_true', decide_eq_true_eq] at applies
    obtain ⟨⟨unspoken, -⟩, codec⟩ := applies
    exact absurd ((valid.unspoken unspoken).symm.trans codec) (by decide)
  · rfl

theorem parseStreamArgs_valid {keyDir : Text} {args : List Text} {o : StreamOptions}
    (accepted : parseStreamArgs keyDir args = some o) :
    Valid o ∧ o.checked = true ∧ ∃ mask, buildSupportedVideoFormats o = some mask := by
  unfold parseStreamArgs at accepted
  split at accepted
  · cases accepted
  · rename_i parsed words
    have valid := words_valid (defaults_valid keyDir) words
    split at accepted
    · cases accepted
    · rename_i checked
      simp only [policy_idle valid] at accepted
      split at accepted
      · rename_i known
        obtain rfl := Option.some.inj accepted
        exact ⟨valid, by simpa using checked, Option.isSome_iff_exists.mp known⟩
      · cases accepted

/-- The formats with what they stand for. -/
def formatTable : List (Int × UInt32 × UInt32 × UInt32) :=
  [(videoFormatH264, 0, 0, 8), (videoFormatH264High8444, 0, 1, 8), (videoFormatH265, 1, 0, 8),
    (videoFormatH265Main10, 1, 0, 10), (videoFormatH265Rext8444, 1, 1, 8),
    (videoFormatH265Rext10444, 1, 1, 10), (videoFormatAv1Main8, 2, 0, 8),
    (videoFormatAv1Main10, 2, 0, 10), (videoFormatAv1High8444, 2, 1, 8),
    (videoFormatAv1High10444, 2, 1, 10)]

theorem metadata_member {format : Int} {metadata : UInt32 × UInt32 × UInt32}
    (known : videoFormatToStreamMetadata format = some metadata) : (format, metadata) ∈ formatTable := by
  unfold videoFormatToStreamMetadata at known
  split_ifs at known with h264 h264High h265 h265Main10 h265Rext8 h265Rext10 av1Main8 av1Main10
    av1High8 av1High10 <;> subst_vars <;> cases known <;> decide

/-- No two formats stand for the same codec, chroma and bit depth. -/
theorem metadata_injective {format other : Int} {metadata : UInt32 × UInt32 × UInt32}
    (known : videoFormatToStreamMetadata format = some metadata)
    (same : videoFormatToStreamMetadata other = some metadata) : format = other := by
  have distinct : ∀ x ∈ formatTable, ∀ y ∈ formatTable, x.2 = y.2 → x.1 = y.1 := by decide
  exact distinct _ (metadata_member known) _ (metadata_member same) rfl

/-- What the options ask for, as setup compares it. -/
def StreamOptions.metadata (o : StreamOptions) : UInt32 × UInt32 × UInt32 :=
  (UInt32.ofInt o.codec, UInt32.ofInt o.chroma, UInt32.ofInt o.bitdepth)

theorem mask_metadata {o : StreamOptions} (valid : Valid o) {mask : Int}
    (built : buildSupportedVideoFormats o = some mask) :
    videoFormatToStreamMetadata mask = some o.metadata := by
  obtain ⟨codec, chroma, bitdepth, -, -, -, -⟩ := valid
  unfold buildSupportedVideoFormats at built
  unfold StreamOptions.metadata
  rcases codec with codec | codec | codec <;> rcases chroma with chroma | chroma <;>
    rcases bitdepth with bitdepth | bitdepth <;> rw [codec, chroma, bitdepth] at built ⊢ <;>
    revert built mask <;> decide

/-- Of all formats only the one in the mask is what the options ask for. -/
theorem asked_iff {o : StreamOptions} (valid : Valid o) {mask : Int}
    (built : buildSupportedVideoFormats o = some mask) (format : Int) :
    videoFormatToStreamMetadata format = some o.metadata ↔ format = mask := by
  constructor
  · intro same
    exact metadata_injective same (mask_metadata valid built)
  · rintro rfl
    exact mask_metadata valid built

theorem parseStreamArgs_words {keyDir : Text} {args : List Text} {o : StreamOptions}
    (accepted : parseStreamArgs keyDir args = some o) :
    parseStreamWords (streamOptionsDefaults keyDir) args = some o := by
  unfold parseStreamArgs at accepted
  split at accepted
  · cases accepted
  · rename_i parsed words
    have idle := policy_idle (words_valid (defaults_valid keyDir) words)
    split at accepted
    · cases accepted
    · simp only [idle] at accepted
      split at accepted
      · obtain rfl := Option.some.inj accepted
        exact words
      · cases accepted

/-- An option as it stands on the command line. -/
def StreamOption.text : StreamOption → Text
  | .host => ofChars "--host".toList
  | .app => ofChars "--app".toList
  | .keyDir => ofChars "--key-dir".toList
  | .tcpHost => ofChars "--tcp-host".toList
  | .tcpPort => ofChars "--tcp-port".toList
  | .streamId => ofChars "--stream-id".toList
  | .width => ofChars "--width".toList
  | .height => ofChars "--height".toList
  | .fps => ofChars "--fps".toList
  | .bitrate => ofChars "--bitrate".toList
  | .packetSize => ofChars "--packet-size".toList
  | .colorspace => ofChars "--colorspace".toList
  | .range => ofChars "--range".toList
  | .codec => ofChars "--codec".toList
  | .chroma => ofChars "--chroma".toList
  | .bitdepth => ofChars "--bitdepth".toList
  | .controlBind => ofChars "--control-bind".toList
  | .controlPort => ofChars "--control-port".toList

theorem text_lookup (option : StreamOption) :
    streamOptionNames.lookup option.text = some option ∧
      option.text ≠ ofChars "--skip-mode-check".toList ∧
      option.text ≠ ofChars "--enforce-mode-check".toList := by
  cases option <;> exact ⟨rfl, by decide, by decide⟩

/-- The options of a command line one after another. -/
def setAll (o : StreamOptions) (said : List (StreamOption × Text)) : Option StreamOptions :=
  said.foldlM (fun o (option, value) => o.set value option) o

theorem parseStreamLoop_said (said : List (StreamOption × Text)) (rest : List Text) (o : StreamOptions) :
    parseStreamLoop o ((said.flatMap fun each => [each.1.text, each.2]) ++ rest) =
      (setAll o said).bind fun o => parseStreamLoop o rest := by
  induction said generalizing o with
  | nil => rfl
  | cons first said ih =>
    obtain ⟨option, value⟩ := first
    obtain ⟨known, noSkip, noEnforce⟩ := text_lookup option
    rw [List.flatMap_cons, List.append_assoc, List.cons_append, List.cons_append, List.nil_append,
      parseStreamLoop, if_neg noSkip, if_neg noEnforce]
    simp only [known, Option.bind_some, setAll, List.foldlM_cons, Option.bind_eq_bind]
    cases o.set value option with
    | none => rfl
    | some o => exact ih o

/-- What one option sets and the others leave alone has the value that is said for it. -/
theorem setAll_field {β : Type} (field : StreamOptions → β) (which : StreamOption)
    (apart : ∀ o value option next, option ≠ which → StreamOptions.set o value option = some next →
      field next = field o)
    {before later : List (StreamOption × Text)} {value : Text} {o parsed : StreamOptions}
    (once : ∀ said ∈ later, said.1 ≠ which)
    (done : setAll o (before ++ (which, value) :: later) = some parsed) :
    ∃ start next, StreamOptions.set start value which = some next ∧ field parsed = field next := by
  unfold setAll at done
  rw [List.foldlM_append, Option.bind_eq_bind, Option.bind_eq_some_iff] at done
  obtain ⟨start, -, done⟩ := done
  rw [List.foldlM_cons, Option.bind_eq_bind, Option.bind_eq_some_iff] at done
  obtain ⟨next, set, done⟩ := done
  refine ⟨start, next, set, ?_⟩
  clear set
  induction later generalizing next with
  | nil =>
    obtain rfl := Option.some.inj done
    rfl
  | cons said later ih =>
    rw [List.foldlM_cons, Option.bind_eq_bind, Option.bind_eq_some_iff] at done
    obtain ⟨after, set, done⟩ := done
    rw [ih (fun said member => once said (List.mem_cons_of_mem _ member)) after done]
    exact apart next said.2 said.1 after (once said List.mem_cons_self) set

theorem set_streamId (o : StreamOptions) (value : Text) (option : StreamOption) (next : StreamOptions)
    (other : option ≠ .streamId) (set : o.set value option = some next) :
    next.streamId = o.streamId := by
  cases option <;> simp only [StreamOptions.set, Option.map_eq_some_iff] at set
  case streamId => exact absurd rfl other
  all_goals first
    | (obtain rfl := Option.some.inj set; rfl)
    | (obtain ⟨parsed, -, rfl⟩ := set; rfl)

theorem set_controlPort (o : StreamOptions) (value : Text) (option : StreamOption)
    (next : StreamOptions) (other : option ≠ .controlPort) (set : o.set value option = some next) :
    next.controlPort = o.controlPort := by
  cases option <;> simp only [StreamOptions.set, Option.map_eq_some_iff] at set
  case controlPort => exact absurd rfl other
  case streamId =>
    split at set
    · cases set
    · obtain rfl := Option.some.inj set
      rfl
  all_goals first
    | (obtain rfl := Option.some.inj set; rfl)
    | (obtain ⟨parsed, -, rfl⟩ := set; rfl)

end StreamRelay.Worker
