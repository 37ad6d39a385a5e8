import StreamRelay.Server.DecoderDevices

/-! Which backend a stream's decoder ends with. stream_init_decoder tries one backend after the
other, and reports the one whose attempt succeeded; decoder_init may have left that backend. -/
namespace StreamRelay.Server.Fallback

structure Host (Picture : Type*) where
  streams : Nat → StreamContext Picture
  devices : Devices

/-- What stream_init_decoder returns, with the backend it prints. -/
inductive Reply
  | already
  | failed
  | initialized (backend : DecodeBackend)
  deriving DecidableEq, Repr

inductive Event
  | setInfo (stream : Nat) (info : StreamInfo)
  | initDecoder (stream : Nat) (backend : DecodeBackend) (answers : Nat → Answers)
  | closeDecoder (stream : Nat)

/-- The documented order, each backend with the answers its attempt would get. -/
def order (answers : Nat → Answers) : List (DecodeBackend × Answers) :=
  [(.intelVa, answers 0), (.nvidia, answers 1), (.cpu, answers 2)]

namespace Host

variable {Picture : Type*}

def initial : Host Picture where
  streams := StreamContext.init
  devices := ⟨.initial, fun _ => false, fun _ => none⟩

def put (host : Host Picture) (n : Nat) (stream : StreamContext Picture) : Host Picture :=
  {host with streams := Function.update host.streams n stream}

def initDecoder (host : Host Picture) (n : Nat) (backend : DecodeBackend) (answers : Nat → Answers) :
    Host Picture × Reply :=
  let stream := host.streams n
  if stream.decoderInitialized then (host, .already)
  else
    let selected := adjustBackendForStream stream.info backend
    match Retry.firstOf (Devices.attempt (stream.decoderConfig selected)) host.devices
        (candidates selected answers) with
    | (devices, none) => ({host with devices := devices}, .failed)
    | (devices, some (item, ctx)) =>
      (({host with devices := devices} : Host Picture).put n
          {stream with
            decoderCtx := some ctx, decoderInitialized := true, framesDecoded := 0
            framesDropped := 0},
        .initialized item.1)

def closeDecoder (host : Host Picture) (n : Nat) : Host Picture :=
  let stream := host.streams n
  let devices := match stream.decoderCtx with
    | some ctx => host.devices.decoderDestroy ctx.id
    | none => host.devices
  ({host with devices := devices} : Host Picture).put n stream.closeDecoder

def step (host : Host Picture) : Event → Host Picture
  | .setInfo n info => host.put n ((host.streams n).setInfo info)
  | .initDecoder n backend answers => (host.initDecoder n backend answers).1
  | .closeDecoder n => host.closeDecoder n

/-- The decoders that the streams have. -/
def kept (host : Host Picture) : Set Nat :=
  {id | ∃ n ctx, (host.streams n).decoderCtx = some ctx ∧ ctx.id = id}

end Host

namespace Host

variable {Picture : Type*} {host : Host Picture}

/-- Each decoder belongs to one stream and uses what it says; nobody else has a device. -/
structure Sound (host : Host Picture) : Prop where
  tidy : Tidy host.kept host.devices
  flag : ∀ n, (host.streams n).decoderInitialized = (host.streams n).decoderCtx.isSome
  apart : ∀ n m ctx ctx', (host.streams n).decoderCtx = some ctx →
    (host.streams m).decoderCtx = some ctx' → ctx.id = ctx'.id → n = m
  inUse : ∀ n ctx, (host.streams n).decoderCtx = some ctx →
    host.devices.inUse ctx.id = ctx.config.backend

theorem Sound.initial : Sound (initial : Host Picture) where
  tidy :=
    { sound := Cuda.Sound.initial
      ready := by
        rintro id ⟨n, ctx, decoder, -⟩
        cases decoder
      free := fun id _ => ⟨rfl, rfl, rfl, rfl⟩ }
  flag := fun _ => rfl
  apart := by
    rintro n m ctx ctx' decoder
    cases decoder
  inUse := by
    rintro n ctx decoder
    cases decoder

theorem put_streams_self (host : Host Picture) (n : Nat) (stream : StreamContext Picture) :
    (host.put n stream).streams n = stream := Function.update_self ..

theorem put_streams_others {n m : Nat} (host : Host Picture) (apart : m ≠ n)
    (stream : StreamContext Picture) : (host.put n stream).streams m = host.streams m :=
  Function.update_of_ne apart ..

theorem kept_gain {n : Nat} {stream : StreamContext Picture} {ctx : DecoderCtx} {devices : Devices}
    (free : (host.streams n).decoderCtx = none) (some : stream.decoderCtx = some ctx) :
    (({host with devices := devices} : Host Picture).put n stream).kept =
      insert ctx.id host.kept := by
  ext id
  constructor
  · rintro ⟨m, held, decoder, rfl⟩
    by_cases here : m = n
    · rw [here, put_streams_self, some] at decoder
      cases decoder
      exact .inl rfl
    · rw [put_streams_others _ here] at decoder
      exact .inr ⟨m, held, decoder, rfl⟩
  · rintro (rfl | ⟨m, held, decoder, rfl⟩)
    · exact ⟨n, ctx, by rw [put_streams_self, some], rfl⟩
    · have apart : m ≠ n := by
        rintro rfl
        rw [free] at decoder
        cases decoder
      exact ⟨m, held, by rw [put_streams_others _ apart]; exact decoder, rfl⟩

theorem Sound.kept_lose (sound : Sound host) {n : Nat} {ctx : DecoderCtx} (devices : Devices)
    {stream : StreamContext Picture} (held : (host.streams n).decoderCtx = some ctx)
    (gone : stream.decoderCtx = none) :
    (({host with devices := devices} : Host Picture).put n stream).kept = host.kept \ {ctx.id} := by
  ext id
  constructor
  · rintro ⟨m, other, decoder, rfl⟩
    have apart : m ≠ n := by
      rintro rfl
      rw [put_streams_self, gone] at decoder
      cases decoder
    rw [put_streams_others _ apart] at decoder
    exact ⟨⟨m, other, decoder, rfl⟩, fun same => apart (sound.apart m n other ctx decoder held same)⟩
  · rintro ⟨⟨m, other, decoder, rfl⟩, differs⟩
    have apart : m ≠ n := by
      rintro rfl
      rw [held] at decoder
      cases decoder
      exact differs rfl
    exact ⟨m, other, by rw [put_streams_others _ apart]; exact decoder, rfl⟩

/-- One stream changes, and the devices with it: what has to be known of its decoder and of the
decoders that the other streams have. -/
theorem Sound.assign (sound : Sound host) {n : Nat} {stream : StreamContext Picture}
    {devices : Devices} (tidy : Tidy (({host with devices := devices} : Host Picture).put n stream).kept
      devices)
    (flag : stream.decoderInitialized = stream.decoderCtx.isSome)
    (own : ∀ ctx, stream.decoderCtx = some ctx → devices.inUse ctx.id = ctx.config.backend ∧
      ∀ m ≠ n, ∀ other, (host.streams m).decoderCtx = some other → other.id ≠ ctx.id)
    (others : ∀ m ≠ n, ∀ other, (host.streams m).decoderCtx = some other →
      devices.codec other.id = host.devices.codec other.id) :
    Sound (({host with devices := devices} : Host Picture).put n stream) where
  tidy := tidy
  flag := by
    intro m
    by_cases here : m = n
    · rw [here, put_streams_self, flag]
    · rw [put_streams_others _ here]
      exact sound.flag m
  apart := by
    intro m k first second left right same
    by_cases here : m = n
    · by_cases there : k = n
      · exact here.trans there.symm
      · rw [here, put_streams_self] at left
        rw [put_streams_others _ there] at right
        exact absurd same.symm ((own first left).2 k there second right)
    · rw [put_streams_others _ here] at left
      by_cases there : k = n
      · rw [there, put_streams_self] at right
        exact absurd same ((own second right).2 m here first left)
      · rw [put_streams_others _ there] at right
        exact sound.apart m k first second left right same
  inUse := by
    intro m other decoder
    by_cases here : m = n
    · rw [here, put_streams_self] at decoder
      exact (own other decoder).1
    · rw [put_streams_others _ here] at decoder
      exact (congrArg (Option.getD · _) (others m here other decoder)).trans
        (sound.inUse m other decoder)

/-- A stream that has no decoder gets one that nobody has. -/
theorem Sound.gain (sound : Sound host) {n : Nat} {stream : StreamContext Picture}
    {item : DecodeBackend × Answers} {ctx : DecoderCtx} {after : Devices}
    (made : Made host.kept host.devices item ctx after)
    (free : (host.streams n).decoderCtx = none) (has : stream.decoderCtx = some ctx)
    (flag : stream.decoderInitialized = true) :
    Sound (({host with devices := after} : Host Picture).put n stream) := by
  apply sound.assign
  · rw [kept_gain free has]
    exact made.tidy
  · rw [flag, has]
    rfl
  · intro mine decoder
    obtain rfl := Option.some.inj (has.symm.trans decoder)
    exact ⟨made.inUse, fun m _ other held same => made.new ⟨m, other, held, same⟩⟩
  · exact fun m _ other held => made.others other.id ⟨m, other, held, rfl⟩

/-- Attempts that all failed change nothing for the streams. -/
theorem Sound.keep (sound : Sound host) {after : Devices}
    (unchanged : Unchanged host.kept host.devices after) :
    Sound {host with devices := after} where
  tidy := unchanged.tidy
  flag := sound.flag
  apart := sound.apart
  inUse := by
    intro n ctx decoder
    have codec := unchanged.codec ctx.id ⟨n, ctx, decoder, rfl⟩
    exact (congrArg (Option.getD · _) codec).trans (sound.inUse n ctx decoder)

/-- A stream changes otherwise than by its decoder. -/
theorem Sound.put (sound : Sound host) {n : Nat} {stream : StreamContext Picture}
    (decoder : stream.decoderCtx = (host.streams n).decoderCtx)
    (flag : stream.decoderInitialized = (host.streams n).decoderInitialized) :
    Sound (host.put n stream) := by
  have same (m : Nat) : ((host.put n stream).streams m).decoderCtx = (host.streams m).decoderCtx := by
    by_cases here : m = n
    · rw [here, put_streams_self, decoder]
    · rw [put_streams_others _ here]
  have kept : (host.put n stream).kept = host.kept := by
    unfold Host.kept
    simp only [same]
  apply sound.assign (kept ▸ sound.tidy)
  · rw [flag, decoder, sound.flag]
  · intro ctx held
    rw [decoder] at held
    refine ⟨sound.inUse n ctx held, fun m apart other there equal => apart ?_⟩
    exact sound.apart m n other ctx there held equal
  · exact fun _ _ _ _ => rfl

theorem closeDecoder_sound (sound : Sound host) (n : Nat) : Sound (host.closeDecoder n) := by
  unfold closeDecoder
  dsimp only
  cases held : (host.streams n).decoderCtx with
  | none =>
    have flag := sound.flag n
    rw [held] at flag
    exact sound.put held.symm flag.symm
  | some ctx =>
    have mem : ctx.id ∈ host.kept := ⟨n, ctx, held, rfl⟩
    have gone : (host.streams n).closeDecoder.decoderCtx = none := rfl
    have kept := sound.kept_lose (host.devices.decoderDestroy ctx.id) held gone
    apply sound.assign
    · rw [kept]
      exact sound.tidy.destroy mem
    · rfl
    · rintro other ⟨⟩
    · intro m apart other there
      have differs : other.id ≠ ctx.id := fun same => apart (sound.apart m n other ctx there held same)
      exact Function.update_of_ne differs ..

/-- An initialisation ends with the first backend whose attempt opens a codec, or has none. -/
theorem initDecoder_cases (sound : Sound host) {n : Nat} (backend : DecodeBackend)
    (answers : Nat → Answers) (free : (host.streams n).decoderInitialized = false) :
    let found := (candidates (adjustBackendForStream (host.streams n).info backend) answers).find?
      (opens host.devices.cuda.shared)
    (∃ item ctx stream after, found = some item ∧ Made host.kept host.devices item ctx after ∧
        stream.decoderCtx = some ctx ∧ stream.decoderInitialized = true ∧
        host.initDecoder n backend answers =
          (({host with devices := after} : Host Picture).put n stream, .initialized item.1)) ∨
      ∃ after, found = none ∧ Unchanged host.kept host.devices after ∧
        host.initDecoder n backend answers = ({host with devices := after}, .failed) := by
  intro found
  have selected := adjustBackendForStream_known (host.streams n).info backend
  obtain ⟨first, success, failure⟩ := firstOf_attempt sound.tidy
    ((host.streams n).decoderConfig (adjustBackendForStream (host.streams n).info backend))
    (candidates_known selected answers)
  unfold initDecoder
  simp only [free, Bool.false_eq_true, if_false]
  generalize Retry.firstOf _ host.devices _ = outcome at first success failure ⊢
  obtain ⟨after, result⟩ := outcome
  cases result with
  | none => exact .inr ⟨after, first.symm, failure rfl, rfl⟩
  | some result =>
    obtain ⟨item, ctx⟩ := result
    exact .inl ⟨item, ctx, _, after, first.symm, success _ rfl, rfl, rfl, rfl⟩

/-- To the stream the initialisation is the one of its own model, for what the system answered. -/
theorem initDecoder_stream (sound : Sound host) (n : Nat) (backend : DecodeBackend)
    (answers : Nat → Answers) :
    ∃ id attempts, (host.streams n).initDecoder id backend attempts =
      ((host.initDecoder n backend answers).1.streams n,
        decide ((host.initDecoder n backend answers).2 ≠ .failed)) := by
  have selected := adjustBackendForStream_known (host.streams n).info backend
  obtain ⟨id, attempts, same⟩ := firstOf_tryBackends sound.tidy
    ((host.streams n).decoderConfig (adjustBackendForStream (host.streams n).info backend)) answers
    (attemptedBackends_known selected) 0
  refine ⟨id, attempts, ?_⟩
  unfold initDecoder StreamContext.initDecoder
  cases free : (host.streams n).decoderInitialized with
  | true => simp [free]
  | false =>
    simp only [free, Bool.false_eq_true, if_false, same, candidates, Nat.zero_add]
    generalize Retry.firstOf _ host.devices _ = outcome
    obtain ⟨after, result⟩ := outcome
    cases result with
    | none => rfl
    | some result => exact congrArg (·, true) (put_streams_self ..).symm

theorem Sound.free (sound : Sound host) {n : Nat} (free : (host.streams n).decoderInitialized = false) :
    (host.streams n).decoderCtx = none := by
  have flag := sound.flag n
  rw [free] at flag
  exact Option.not_isSome_iff_eq_none.mp (by simp [← flag])

theorem initDecoder_sound (sound : Sound host) (n : Nat) (backend : DecodeBackend)
    (answers : Nat → Answers) : Sound (host.initDecoder n backend answers).1 := by
  cases free : (host.streams n).decoderInitialized with
  | true => simpa [initDecoder, free] using sound
  | false =>
    rcases initDecoder_cases sound backend answers free with
      ⟨item, ctx, stream, after, -, made, has, flag, outcome⟩ | ⟨after, -, unchanged, outcome⟩
    · rw [outcome]
      exact sound.gain made (sound.free free) has flag
    · rw [outcome]
      exact sound.keep unchanged

theorem step_sound (sound : Sound host) (event : Event) : Sound (host.step event) := by
  cases event with
  | setInfo n info => exact sound.put rfl rfl
  | initDecoder n backend answers => exact initDecoder_sound sound n backend answers
  | closeDecoder n => exact closeDecoder_sound sound n

/-- In every state of every run the streams' decoders have the devices, each what it says it
uses, and no other decoder has one. -/
theorem run_sound (events : List Event) : Sound (Run.run step (initial : Host Picture) events) :=
  Run.invariant step initial Sound .initial (fun _ event sound => step_sound sound event) events

/-- What an initialisation with automatic routing owes: the first backend that works is the one
the stream's decoder uses and the one reported, and only decoders of streams have devices. -/
def InOrder (host : Host Picture) (n : Nat) (answers : Nat → Answers) : Prop :=
  let outcome := host.initDecoder n .auto answers
  (∀ id ∉ outcome.1.kept, outcome.1.devices.Free id) ∧
    match outcome.2 with
    | .already => outcome.1 = host
    | .failed => True
    | .initialized reported => ∃ item ctx,
        (order answers).find? (works host.devices.cuda.shared) = some item ∧
        (outcome.1.streams n).decoderCtx = some ctx ∧
        outcome.1.devices.inUse ctx.id = item.1 ∧ reported = item.1

def Honoured (host : Host Picture) : Event → Prop
  | .initDecoder n backend answers => backend = .auto → host.InOrder n answers
  | _ => True

/-- In an attempt that is made, the codec does not open for the CPU without the device. -/
def Unslipped (host : Host Picture) (n : Nat) (answers : Nat → Answers) : Bool :=
  (host.streams n).decoderInitialized ||
    !slips host.devices.cuda.shared (.intelVa, answers 0) &&
      (works host.devices.cuda.shared (.intelVa, answers 0) ||
        !slips host.devices.cuda.shared (.nvidia, answers 1))

def Clean (host : Host Picture) : Event → Prop
  | .initDecoder n backend answers => backend = .auto → host.Unslipped n answers
  | _ => True

end Host

section Order

variable {shared : Option Int} {item : DecodeBackend × Answers} {answers : Nat → Answers}

/-- decoder_init succeeds in the mode of its backend or in the mode of the CPU instead. -/
theorem opens_eq (shared : Option Int) (item : DecodeBackend × Answers) :
    opens shared item = (works shared item || slips shared item) := by
  unfold opens works slips openedBackend
  cases deviceReady shared item.2 item.1 <;> simp

theorem openedBackend_eq_iff (succeeded : opens shared item = true) :
    openedBackend shared item.2 item.1 = item.1 ↔ works shared item = true := by
  unfold opens openedBackend at succeeded
  unfold openedBackend works
  cases ready : deviceReady shared item.2 item.1 with
  | true => simpa [ready] using succeeded
  | false =>
    have hardware : item.1 ≠ .cpu := by
      intro cpu
      simp [cpu, deviceReady] at ready
    simpa using hardware.symm

/-- The first item that works is the first that opens, when that one works. -/
theorem find_works {items : List (DecodeBackend × Answers)}
    (first : items.find? (opens shared) = some item) (own : works shared item = true) :
    items.find? (works shared) = some item := by
  obtain ⟨-, before, after, rfl, earlier⟩ := List.find?_eq_some_iff_append.mp first
  refine List.find?_eq_some_iff_append.mpr ⟨own, before, after, rfl, fun other mem => ?_⟩
  have failed := earlier other mem
  rw [opens_eq] at failed
  simp_all

theorem works_not_slips (own : works shared item = true) : slips shared item = false := by
  unfold works at own
  unfold slips
  simp_all

/-- Only hardware can be missing its device. -/
theorem slips_cpu (shared : Option Int) (answers : Answers) :
    slips shared (.cpu, answers) = false := by
  simp [slips, deviceReady]

/-- The first attempt that succeeds works exactly when none of the attempts made slips. -/
theorem first_works_iff (first : (order answers).find? (opens shared) = some item) :
    works shared item = true ↔
      (!slips shared (.intelVa, answers 0) &&
        (works shared (.intelVa, answers 0) || !slips shared (.nvidia, answers 1))) = true := by
  unfold order at first
  cases intel : opens shared (.intelVa, answers 0) with
  | true =>
    rw [List.find?_cons_of_pos intel] at first
    cases first
    rw [opens_eq] at intel
    constructor
    · intro own
      simp [works_not_slips own, own]
    · intro clean
      simp_all
  | false =>
    rw [List.find?_cons_of_neg (by simp [intel])] at first
    have clean := opens_eq shared (.intelVa, answers 0)
    rw [intel, Bool.false_eq, Bool.or_eq_false_iff] at clean
    rw [clean.1, clean.2]
    cases nvidia : opens shared (.nvidia, answers 1) with
    | true =>
      rw [List.find?_cons_of_pos nvidia] at first
      cases first
      rw [opens_eq] at nvidia
      constructor
      · intro own
        simp [works_not_slips own]
      · intro clean
        simp_all
    | false =>
      rw [List.find?_cons_of_neg (by simp [nvidia])] at first
      have open_cpu := List.find?_some first
      have mem := List.mem_of_find?_eq_some first
      obtain rfl := List.mem_singleton.mp mem
      rw [opens_eq, slips_cpu, Bool.or_false] at open_cpu
      have missed := opens_eq shared (.nvidia, answers 1)
      rw [nvidia, Bool.false_eq, Bool.or_eq_false_iff] at missed
      simp [open_cpu, missed.2]

theorem none_opens (none : (order answers).find? (opens shared) = none) :
    (!slips shared (.intelVa, answers 0) &&
      (works shared (.intelVa, answers 0) || !slips shared (.nvidia, answers 1))) = true := by
  have fails := List.find?_eq_none.mp none
  have intel := fails (.intelVa, answers 0) (by simp [order])
  have nvidia := fails (.nvidia, answers 1) (by simp [order])
  simp_all [opens_eq]

end Order

namespace Host

variable {Picture : Type*} {host : Host Picture}

/-- An initialisation honours the order exactly when none of its attempts slips. -/
theorem Sound.inOrder_iff (sound : Sound host) (n : Nat) (answers : Nat → Answers) :
    host.InOrder n answers ↔ host.Unslipped n answers := by
  have tidy := (initDecoder_sound sound n .auto answers).tidy.free
  unfold InOrder Unslipped
  cases free : (host.streams n).decoderInitialized with
  | true =>
    have outcome : host.initDecoder n .auto answers = (host, .already) := by simp [initDecoder, free]
    rw [outcome] at tidy ⊢
    simpa using tidy
  | false =>
    have cases := initDecoder_cases sound .auto answers free
    rw [adjustBackendForStream_auto] at cases
    rcases cases with
      ⟨item, ctx, stream, after, first, made, has, flag, outcome⟩ | ⟨after, none, unchanged, outcome⟩
    · rw [outcome] at tidy ⊢
      rw [Bool.false_or, ← first_works_iff first]
      constructor
      · rintro ⟨-, chosen, held, -, decoder, used, reported⟩
        rw [put_streams_self, has] at decoder
        cases decoder
        refine (openedBackend_eq_iff (List.find?_some first)).mp ?_
        exact made.backend.symm.trans (made.inUse.symm.trans (used.trans reported.symm))
      · intro own
        have backend := (openedBackend_eq_iff (List.find?_some first)).mpr own
        exact ⟨tidy, item, ctx, find_works first own, by rw [put_streams_self, has],
          made.inUse.trans (made.backend.trans backend), rfl⟩
    · rw [outcome] at tidy ⊢
      rw [Bool.false_or]
      exact iff_of_true ⟨tidy, trivial⟩ (none_opens none)

/-- In every run an initialisation with automatic routing honours the documented order, reports
the backend in use and keeps no device for an abandoned attempt, exactly when in no attempt made
the codec opens for the CPU in the place of a device that is not there. -/
theorem honoured_iff (events : List Event) :
    Run.Always step (initial : Host Picture) Honoured events ↔
      Run.Always step (initial : Host Picture) Clean events := by
  have same (past : List Event) (event : Event) :
      Honoured (Run.run step (initial : Host Picture) past) event ↔
        Clean (Run.run step (initial : Host Picture) past) event := by
    cases event with
    | setInfo n info => exact Iff.rfl
    | initDecoder n backend answers =>
      exact imp_congr_right fun _ => (run_sound past).inOrder_iff n answers
    | closeDecoder n => exact Iff.rfl
  constructor
  · rintro always past event rest split
    exact (same past event).mp (always past event rest split)
  · rintro always past event rest split
    exact (same past event).mpr (always past event rest split)

/-- The VA-API devices are missing; everything else is there. -/
def noVaDevice : Answers where
  detected := .intelVa
  created := true
  vaDevice := fun _ => false
  cudaDevice := true
  refGranted := true
  opened := fun _ => true

/-- NVIDIA would work, but the first attempt counts as Intel's and decodes on the CPU. -/
theorem noVaDevice_hides_nvidia :
    ¬Run.Always step (initial : Host Unit) Honoured [.initDecoder 0 .auto fun _ => noVaDevice] := by
  intro always
  have owed : (initial : Host Unit).InOrder 0 fun _ => noVaDevice := always [] _ [] rfl rfl
  rw [Sound.initial.inOrder_iff] at owed
  exact absurd owed (by decide)

end Host

end StreamRelay.Server.Fallback
