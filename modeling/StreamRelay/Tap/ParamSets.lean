import StreamRelay.Tap.IdrFlag
import StreamRelay.Tap.Recovery

/-! What the parameter-set caches hold. A payload is cached whole once its first unit is a
parameter set, so the caches hold single units as long as parameter sets are published
alone, and only then does a recovery not repeat what it is the recovery for. -/
namespace StreamRelay.Tap
open StartCode Recorder

/-- The payloads are start-coded texts. -/
def Input.AnnexB : Input → Prop
  | .accept .. => True
  | .publish _ data _ _ => ∃ text : Text UInt8, text.WellFormed 0 1 ∧ data = text.symbols 0 1

/-- A payload whose first unit is a parameter set has no other. -/
def Input.SetsAlone : Input → Prop
  | .accept .. => True
  | .publish _ data _ _ => firstNalType data = some 7 ∨ firstNalType data = some 8 →
      (scan 0 1 data).length = 1

/-- One unit of the type with its start code. -/
def IsSet (nalType : UInt8) (set : Bytes) : Prop :=
  hasStartCode set ∧ ∃ nal, scan 0 1 set = [nal] ∧ h264NalType nal = nalType

/-- The units of the payload, behind nothing but parameter sets. -/
def TapPacket.Once (packet : TapPacket) : Prop :=
  ∃ sets, scan 0 1 packet.bytes = sets ++ scan 0 1 packet.payload ∧
    ∀ nal ∈ sets, h264NalType nal = 7 ∨ h264NalType nal = 8

structure CarriesOnce (s : State) : Prop where
  clients : ∀ i, ((s.clients i).sps ≠ [] → IsSet 7 (s.clients i).sps) ∧
    ((s.clients i).pps ≠ [] → IsSet 8 (s.clients i).pps)
  streams : ∀ streamId, (s.sps streamId ≠ [] → IsSet 7 (s.sps streamId)) ∧
    (s.pps streamId ≠ [] → IsSet 8 (s.pps streamId))
  recoveries : ∀ fd < s.accepted, ∀ packet ∈ (s.connections fd).line.frames,
    packet.recovery → packet.Once

variable {copy : Copy} {config : Config} {pub : Publications} {c : TapClient} {k : Connection}
  {nalType : UInt8} {streamId : Nat} {set : Bytes}

/-- The packets begun on a connection are genuine. -/
def AllGenuine (pub : Publications) (k : Connection) : Prop :=
  ∀ packet ∈ k.line.frames, ∃ streamId, Genuine pub streamId packet

theorem AllGenuine.later (entry : Nat × Bytes) (genuine : AllGenuine pub k) :
    AllGenuine (pub ++ [entry]) k := fun packet member =>
  (genuine packet member).imp fun _ own => own.later entry

structure Fed (pub : Publications) (c : TapClient) (k : Connection) : Prop where
  tidy : c.Tidy
  sets : Sets pub c
  genuine : AllGenuine pub k

theorem Fed.move {data : Bytes} {late : Prop} {next : TapClient × Connection}
    (same : c.streamId = streamId) (nonempty : data ≠ [])
    (move : Move copy config data pub.length late (c, k) next)
    (fed : Fed (pub ++ [(streamId, data)]) c k) :
    Fed (pub ++ [(streamId, data)]) next.1 next.2 := by
  refine ⟨fed.tidy.move nonempty move, fed.sets.move same move, ?_⟩
  intro packet member
  rcases frames_move move with old | ⟨more, may, -⟩
  · exact fed.genuine packet (old ▸ member)
  · rw [more] at member
    rcases List.mem_append.mp member with member | member
    · exact fed.genuine packet member
    · obtain rfl := List.mem_singleton.mp member
      exact ⟨streamId, fed.sets.assemble same nonempty may⟩

/-- The law of the caches, which every run obeys. -/
def caching (copy : Copy) (config : Config) : Law copy config True True where
  seated := Fed
  vacant := Idle
  ended := AllGenuine
  known := KnownSets
  tidy := fun fed => fed.tidy
  begun := (integrity copy ⟨config.stallMs, true⟩ rfl).begun
  parted := fun fed => fed.genuine
  seated_later := fun entry fed => ⟨fed.tidy, fed.sets.later entry, fed.genuine.later entry⟩
  vacant_later := (integrity copy ⟨config.stallMs, true⟩ rfl).vacant_later
  ended_later := fun entry genuine => genuine.later entry
  known_later := fun entry known => known.later entry
  known_none := fun streamId => KnownSets.none streamId
  learn_sps := fun seven known => known.learnSps seven
  learn_pps := fun eight known => known.learnPps eight
  zeroed := (integrity copy ⟨config.stallMs, true⟩ rfl).zeroed
  closed := fun _ => Idle.closed
  reloaded := (integrity copy ⟨config.stallMs, true⟩ rfl).reloaded
  enter := by
    intro s c sid fd granted idle _ known
    have ledger := Ledger.enter copy s fd sid s.published.length granted idle.tidy idle.start
    refine ⟨ledger.tidy, Sets.enter idle.sps idle.pps known, ?_⟩
    intro packet member
    exact idle.genuine packet (by simpa [Wire.Line.frames] using member)
  move := fun _ same nonempty _ move fed => fed.move same nonempty move

theorem publishSlots_published {number : Nat} {data : Bytes} (answers : Nat → ClientAnswers)
    (slots : List Nat) (s : State) :
    (slots.foldl (publishSlot copy config streamId data number answers) s).published =
      s.published := by
  induction slots generalizing s with
  | nil => rfl
  | cons i slots ih => exact (ih _).trans (Law.publishSlot_published answers s i)

theorem updateGlobalParamSets_published (s : State) (data : Bytes) (granted : Bool) :
    (updateGlobalParamSets copy s streamId data granted).published = s.published := by
  unfold updateGlobalParamSets
  cases copy with
  | server => rfl
  | agent =>
    dsimp only
    split
    · split <;> rfl
    · rfl

theorem accept_published (s : State) (named : Option Int) (peeks again : Nat → Peek)
    (granted : Bool × Bool) :
    (accept copy s named peeks again granted).published = s.published := by
  unfold accept
  split
  · rfl
  · dsimp only
    split
    · rfl
    · split <;> rfl

theorem run_published (inputs : List Input) : ∀ entry ∈ (run copy config inputs).published,
    ∃ granted answers, Input.publish entry.1 entry.2 granted answers ∈ inputs := by
  refine Run.history (step copy config) .initial (fun inputs s => ∀ entry ∈ s.published,
    ∃ granted answers, Input.publish entry.1 entry.2 granted answers ∈ inputs) (by simp [State.initial]) ?_ inputs
  intro past input known entry member
  have older (old : entry ∈ (Run.run (step copy config) .initial past).published) :
      ∃ granted answers, Input.publish entry.1 entry.2 granted answers ∈ past ++ [input] := by
    obtain ⟨granted, answers, earlier⟩ := known entry old
    exact ⟨granted, answers, List.mem_append_left _ earlier⟩
  cases input with
  | accept named peeks again granted =>
    rw [step, accept_published] at member
    exact older member
  | publish streamId data granted answers =>
    rw [step, publish] at member
    split at member
    · exact older member
    · rw [publishSlots_published, updateGlobalParamSets_published] at member
      rcases List.mem_append.mp member with old | new
      · exact older old
      · obtain rfl := List.mem_singleton.mp new
        exact ⟨granted, answers, by simp⟩

theorem firstNalType_marker (count : Nat) (header : UInt8) (rest : Bytes) :
    firstNalType (List.replicate count 0 ++ 0 :: 0 :: 1 :: header :: rest) =
      if count < 2 then some (header &&& 0x1F) else none := by
  match count with
  | 0 | 1 | 2 | 3 => simp [firstNalType, startCode4, startCode3]
  | count + 4 => simp [firstNalType, startCode4, startCode3, List.replicate_succ]

theorem hasStartCode_marker (count : Nat) (rest : Bytes) :
    hasStartCode (List.replicate count 0 ++ 0 :: 0 :: 1 :: rest) = decide (count < 2) := by
  match count with
  | 0 | 1 | 2 | 3 => simp [hasStartCode, startCode4, startCode3]
  | count + 4 => simp [hasStartCode, startCode4, startCode3, List.replicate_succ]

/-- A text of one unit is the parameter set it is taken for. -/
theorem isSet_text {text : Text UInt8} (valid : text.WellFormed 0 1)
    (type : firstNalType (text.symbols 0 1) = some nalType)
    (alone : (scan 0 1 (text.symbols 0 1)).length = 1) : IsSet nalType (text.symbols 0 1) := by
  have units : scan 0 1 (text.symbols 0 1) = text.units :=
    (scan_symbols 0 1 (by decide) text (valid.spaced 0 1)).trans (keep_all 0 1 valid)
  rw [IsSet, units]
  rw [units, Text.units, List.length_map, List.length_eq_one_iff] at alone
  obtain ⟨piece, only⟩ := alone
  have own := valid piece.unit (by simp [Text.units, only])
  obtain ⟨header, tail, shape⟩ := List.exists_cons_of_ne_nil own.nonempty
  have bytes : text.symbols 0 1 = List.replicate piece.zeros 0 ++ 0 :: 0 :: 1 :: header ::
      (tail ++ List.replicate text.trailing 0) := by
    simp [Text.symbols, only, Piece.text_eq, shape]
  rw [bytes, firstNalType_marker] at type
  rw [bytes, hasStartCode_marker]
  split at type
  · next near =>
    refine ⟨by simpa using near, piece.unit, by simp [Text.units, only], ?_⟩
    simpa [shape, h264NalType] using type
  · cases type

/-- The payloads published on the way to a state, as the caches need them. -/
structure Fit (data : Bytes) : Prop where
  coded : ∃ text : Text UInt8, text.WellFormed 0 1 ∧ data = text.symbols 0 1
  alone : firstNalType data = some 7 ∨ firstNalType data = some 8 → (scan 0 1 data).length = 1

theorem Fit.isSet {data : Bytes} (fit : Fit data) (type : firstNalType data = some nalType)
    (set : nalType = 7 ∨ nalType = 8) : IsSet nalType data := by
  obtain ⟨text, valid, rfl⟩ := fit.coded
  refine isSet_text valid type (fit.alone ?_)
  rw [type]
  exact set.imp (congrArg some) (congrArg some)

theorem Cached.isSet (cached : Cached pub streamId nalType set)
    (fit : ∀ entry ∈ pub, Fit entry.2) (kind : nalType = 7 ∨ nalType = 8) (full : set ≠ []) :
    IsSet nalType set := by
  obtain ⟨member, type⟩ := cached.resolve_left full
  exact (fit _ member).isSet type kind

/-- A cached set is a text of at most one unit, a parameter set. -/
theorem Cached.text (cached : Cached pub streamId nalType set) (fit : ∀ entry ∈ pub, Fit entry.2)
    (kind : nalType = 7 ∨ nalType = 8) :
    (∃ text : Text UInt8, text.WellSpaced 0 1 ∧ set = text.symbols 0 1) ∧
      ∀ nal ∈ scan 0 1 set, h264NalType nal = 7 ∨ h264NalType nal = 8 := by
  by_cases full : set = []
  · subst full
    exact ⟨⟨⟨[], 0⟩, by simp [Text.WellSpaced, Text.units], rfl⟩, by simp [scan, firstCode]⟩
  · obtain ⟨-, own, only, type⟩ := cached.isSet fit kind full
    obtain ⟨text, valid, same⟩ := (fit _ (cached.resolve_left full).1).coded
    refine ⟨⟨text, valid.spaced 0 1, same⟩, ?_⟩
    intro nal member
    rw [only, List.mem_singleton] at member
    rw [member, type]
    exact kind

theorem startCode_text (data : Bytes) :
    ∃ text : Text UInt8, text.WellSpaced 0 1 ∧ text.units.flatMap keep = [] ∧
      (if hasStartCode data then [] else startCode4) = text.symbols 0 1 := by
  split
  · exact ⟨⟨[], 0⟩, by simp [Text.WellSpaced, Text.units], rfl, rfl⟩
  · exact ⟨.single [], by simp [Text.WellSpaced, Text.units, Text.single], rfl, rfl⟩

/-- The parts of a genuine packet are texts, so its units are theirs. -/
theorem Genuine.once {packet : TapPacket} (genuine : Genuine pub streamId packet)
    (fit : ∀ entry ∈ pub, Fit entry.2) : packet.Once := by
  obtain ⟨⟨sps, spsSpaced, spsBytes⟩, spsTypes⟩ := genuine.sps.text fit (.inl rfl)
  obtain ⟨⟨pps, ppsSpaced, ppsBytes⟩, ppsTypes⟩ := genuine.pps.text fit (.inr rfl)
  obtain ⟨code, codeSpaced, noUnits, codeBytes⟩ := startCode_text packet.payload
  obtain ⟨text, valid, bytes⟩ := (fit _ (List.mem_of_getElem? genuine.published)).coded
  have spaced := valid.spaced 0 1
  have sets := spsSpaced.append 0 1 ppsSpaced
  have front := sets.append 0 1 codeSpaced
  refine ⟨scan 0 1 packet.sps ++ scan 0 1 packet.pps, ?_, ?_⟩
  · rw [TapPacket.bytes, genuine.startCode, codeBytes, spsBytes, ppsBytes, show packet.payload = _ from bytes,
      ← Text.symbols_append, ← Text.symbols_append, scan_append 0 1 (by decide) _ _ front spaced,
      Text.symbols_append, scan_append 0 1 (by decide) _ _ sets codeSpaced,
      Text.symbols_append, scan_append 0 1 (by decide) _ _ spsSpaced ppsSpaced,
      scan_symbols 0 1 (by decide) code codeSpaced, noUnits, List.append_nil]
  · intro nal member
    exact (List.mem_append.mp member).elim (spsTypes nal) (ppsTypes nal)

theorem Law.Holds.carriesOnce {s : State} (holds : (caching copy config).Holds s)
    (fit : ∀ entry ∈ s.published, Fit entry.2) : CarriesOnce s where
  clients := by
    intro i
    cases active : (s.clients i).active with
    | false =>
      have idle := holds.vacant i active
      exact ⟨fun full => absurd idle.sps full, fun full => absurd idle.pps full⟩
    | true =>
      obtain ⟨-, -, -, -, -, sets, -⟩ := holds.seated i active
      exact ⟨sets.sps.isSet fit (.inl rfl), sets.pps.isSet fit (.inr rfl)⟩
  streams := fun streamId =>
    ⟨(holds.known streamId).sps.isSet fit (.inl rfl), (holds.known streamId).pps.isSet fit (.inr rfl)⟩
  recoveries := by
    intro fd below packet member _
    obtain ⟨_, genuine⟩ := holds.ended fd below packet member
    exact genuine.once fit

/-- In every run that publishes parameter sets alone the caches hold single units, and a
recovery carries the units of its payload once. -/
theorem run_carriesOnce (copy : Copy) (config : Config) (inputs : List Input)
    (annexB : ∀ input ∈ inputs, input.AnnexB) (alone : ∀ input ∈ inputs, input.SetsAlone) :
    ∀ past rest, inputs = past ++ rest → CarriesOnce (run copy config past) := by
  rintro past rest rfl
  have holds := (caching copy config).run_holds past fun _ _ _ _ => allowed_all _ _
  refine holds.carriesOnce fun entry member => ?_
  obtain ⟨granted, answers, published⟩ := run_published past entry member
  exact ⟨annexB _ (List.mem_append_left _ published), alone _ (List.mem_append_left _ published)⟩

def samplePps : Bytes := [0, 0, 0, 1, 0x68, 0xce]

def sampleSps : Bytes := [0, 0, 0, 1, 0x67, 0x42]

def playing : List Input :=
  [subscribe 1, .publish 1 sampleSps true fun _ => sampleAt 1 [] [.sent 100],
    .publish 1 samplePps true fun _ => sampleAt 1 [] [.sent 100],
    .publish 1 [0, 0, 0, 1, 0x65, 0x88] true fun _ => sampleAt 1 [] [.sent 100]]

theorem playing_carriesOnce : CarriesOnce (run .agent sampleConfig playing) := by
  have text (nal : Bytes) (valid : IsUnit 0 1 nal) : ∃ text : Text UInt8, text.WellFormed 0 1 ∧
      startCode4 ++ nal = text.symbols 0 1 :=
    ⟨.single nal, by simpa [Text.WellFormed, Text.units, Text.single] using valid,
      by simp [Text.single, Text.symbols, Piece.text, startCode4]⟩
  refine run_carriesOnce .agent sampleConfig playing ?_ ?_ playing [] (by simp)
  · simp only [playing, List.forall_mem_cons]
    exact ⟨trivial, text [0x67, 0x42] ⟨by decide, by decide, by decide⟩,
      text [0x68, 0xce] ⟨by decide, by decide, by decide⟩,
      text [0x65, 0x88] ⟨by decide, by decide, by decide⟩, by simp⟩
  · simp only [playing, List.forall_mem_cons]
    exact ⟨trivial, fun _ => by decide, fun _ => by decide, fun _ => by decide, by simp⟩

/-- An IDR in one payload with its parameter sets. -/
def sampleWhole : Bytes := [0, 0, 0, 1, 0x67, 0x42, 0, 0, 0, 1, 0x68, 0xce, 0, 0, 0, 1, 0x65, 0x88]

/-- It is published twice to a client whose socket is full. -/
def stalling : List Input :=
  [subscribe 1, .publish 1 sampleWhole true fun _ => sampleAt 1 [] [],
    .publish 1 sampleWhole true fun _ => sampleAt 1000000000 [] []]

theorem stalled_twice (copy : Copy) :
    ((run copy sampleConfig stalling).clients 0).sps = sampleWhole ∧
      ((run copy sampleConfig stalling).clients 0).out.map (fun packet =>
        (packet.recovery, (scan 0 1 packet.bytes).count [0x65, 0x88])) = some (true, 2) := by
  cases copy <;> decide +kernel

/-- In both copies the cached set has three units; the packet above carries the IDR twice. -/
theorem aggregate_not_once : ¬ ∃ copy, CarriesOnce (run copy sampleConfig stalling) := by
  rintro ⟨copy, once⟩
  obtain ⟨sps, -⟩ := stalled_twice copy
  obtain ⟨-, nal, only, -⟩ := (once.clients 0).1 (by rw [sps]; decide)
  have three : (scan 0 1 sampleWhole).length = 3 := by decide
  rw [← sps, only] at three
  cases three

end StreamRelay.Tap
