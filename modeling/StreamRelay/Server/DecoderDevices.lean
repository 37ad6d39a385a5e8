import Mathlib.Order.BooleanAlgebra.Set
import StreamRelay.Retry
import StreamRelay.Server.CudaAcquire
import StreamRelay.Server.Stream

/-! The devices that decoders refer to, and the attempts to make a decoder for a backend:
decoder_init goes on with the CPU by itself when the device of its backend is not there. Each
attempt either leaves one decoder more or nothing at all. -/
namespace StreamRelay.Server.Fallback

/-- What the system answers while one decoder is created and initialised: the VA-API devices by
their path, the CUDA device and the reference to it, and the codec by what it is opened for. -/
structure Answers where
  detected : DecodeBackend
  created : Bool
  vaDevice : String → Bool
  cudaDevice : Bool
  refGranted : Bool
  opened : DecodeBackend → Bool

def vaDevices : List String := ["/dev/dri/renderD128", "/dev/dri/renderD129"]

/-- `cuda_device_id` in the configuration of every stream. -/
def cudaDeviceId : Int := 0

/-- The references of each decoder: `va` when its hw_device_ctx is a VA-API context, and in
`codec` the device that hw_device_ctx of its codec context refers to. -/
structure Devices where
  cuda : Cuda.State
  va : Nat → Bool
  codec : Nat → Option DecodeBackend

/-- Whether the device of a backend can be had, given the CUDA device that is shared. -/
def deviceReady (shared : Option Int) (answers : Answers) : DecodeBackend → Bool
  | .intelVa => vaDevices.any answers.vaDevice
  | .nvidia => Cuda.grants shared cudaDeviceId answers.cudaDevice answers.refGranted
  | _ => true

/-- The backend for which decoder_init opens the codec. -/
def openedBackend (shared : Option Int) (answers : Answers) (backend : DecodeBackend) : DecodeBackend :=
  if deviceReady shared answers backend then backend else .cpu

/-- The codec is opened for the backend when its device was made, else for the CPU. -/
def attemptAnswers (answers : Answers) (backend : DecodeBackend) (device : Bool) : AttemptAnswers where
  detected := answers.detected
  created := answers.created
  device := device
  opened := answers.opened (if device then backend else .cpu)

namespace Devices

def decoderCreate (answers : Answers) (config : DecoderConfig) (d : Devices) :
    Devices × Option DecoderCtx :=
  match Server.decoderCreate d.cuda.known (attemptAnswers answers config.backend false) config with
  | some ctx => ({d with cuda := Cuda.decoderCreate d.cuda}, some ctx)
  | none => (d, none)

/-- The hardware part of decoder_init, and whether the decoder stays with its backend. -/
def createDevice (answers : Answers) (ctx : DecoderCtx) (d : Devices) : Devices × Bool :=
  let plain := Cuda.decoderInit d.cuda ctx.id false cudaDeviceId answers.refGranted
  match ctx.config.backend with
  | .intelVa =>
    if vaDevices.any answers.vaDevice then
      ({ cuda := plain
         va := Function.update d.va ctx.id true
         codec := Function.update d.codec ctx.id (some .intelVa) }, true)
    else ({d with cuda := plain}, false)
  | .nvidia =>
    let cuda := Cuda.decoderInitAlone d.cuda ctx.id cudaDeviceId answers.cudaDevice answers.refGranted
    if (cuda.decoders ctx.id).usesShared then
      ({d with cuda := cuda, codec := Function.update d.codec ctx.id (some .nvidia)}, true)
    else ({d with cuda := cuda}, false)
  | _ => ({d with cuda := plain}, true)

def decoderInit (answers : Answers) (ctx : DecoderCtx) (d : Devices) : Devices × Option DecoderCtx :=
  if ctx.initialized then (d, none)
  else
    let (made, device) := d.createDevice answers ctx
    (made, Server.decoderInit (attemptAnswers answers ctx.config.backend device) ctx)

def decoderDestroy (id : Nat) (d : Devices) : Devices where
  cuda := Cuda.decoderDestroyAlone d.cuda id
  va := Function.update d.va id false
  codec := Function.update d.codec id none

/-- One round of the loop in stream_init_decoder. -/
def attempt (config : DecoderConfig) (d : Devices) (item : DecodeBackend × Answers) :
    Devices × Option DecoderCtx :=
  match d.decoderCreate item.2 {config with backend := item.1} with
  | (d, none) => (d, none)
  | (d, some ctx) =>
    match d.decoderInit item.2 ctx with
    | (d, some ctx) => (d, some ctx)
    | (d, none) => (d.decoderDestroy ctx.id, none)

/-- The backend a decoder really uses: what device its codec has. -/
def inUse (d : Devices) (id : Nat) : DecodeBackend := (d.codec id).getD .cpu

/-- No reference to a device is held for this decoder. -/
structure Free (d : Devices) (id : Nat) : Prop where
  va : d.va id = false
  codec : d.codec id = none
  hwDevice : (d.cuda.decoders id).hwDevice = none
  holds : (d.cuda.decoders id).holds = false

end Devices

/-- The backends of an initialisation, each with the answers its attempt would get. -/
def candidates (selected : DecodeBackend) (answers : Nat → Answers) : List (DecodeBackend × Answers) :=
  (attemptedBackends selected).mapIdx fun i backend => (backend, answers i)

/-- What decoder_init calls success: the codec opens, be it for the CPU. -/
def opens (shared : Option Int) (item : DecodeBackend × Answers) : Bool :=
  item.2.created && item.2.opened (openedBackend shared item.2 item.1)

/-- A backend works when its device is there and the codec opens for it. -/
def works (shared : Option Int) (item : DecodeBackend × Answers) : Bool :=
  item.2.created && deviceReady shared item.2 item.1 && item.2.opened item.1

/-- The device of the backend is not there, and the codec opens for the CPU. -/
def slips (shared : Option Int) (item : DecodeBackend × Answers) : Bool :=
  item.2.created && !deviceReady shared item.2 item.1 && item.2.opened .cpu

/-- The devices when just the decoders in `kept` are alive. -/
structure Tidy (kept : Set Nat) (d : Devices) : Prop where
  sound : Cuda.Sound d.cuda
  ready : ∀ id ∈ kept, (d.cuda.decoders id).stage = .ready
  free : ∀ id ∉ kept, d.Free id

section Attempt

variable {kept : Set Nat} {d : Devices} {id : Nat} {answers : Answers} {config : DecoderConfig}
  {ctx : DecoderCtx} {item : DecodeBackend × Answers}

theorem Tidy.fresh_known (tidy : Tidy kept d) : d.cuda.known ∉ kept := by
  intro mem
  have ready := tidy.ready _ mem
  rw [tidy.sound.absent _ le_rfl] at ready
  cases ready

theorem Tidy.create (tidy : Tidy kept d) : Tidy kept {d with cuda := Cuda.decoderCreate d.cuda} where
  sound := Cuda.decoderCreate_sound tidy.sound
  ready := by
    intro id mem
    have apart : id ≠ d.cuda.known := ne_of_mem_of_not_mem mem tidy.fresh_known
    exact (congrArg Cuda.Decoder.stage (Cuda.put_others apart _)).trans (tidy.ready id mem)
  free := by
    intro id gone
    have free := tidy.free id gone
    by_cases here : id = d.cuda.known
    · have made : (Cuda.decoderCreate d.cuda).decoders id = ⟨.fresh, none, false, 0, 0⟩ :=
        here ▸ Cuda.put_decoders_self d.cuda d.cuda.known _
      exact ⟨free.va, free.codec, by rw [made], by rw [made]; rfl⟩
    · have same : (Cuda.decoderCreate d.cuda).decoders id = d.cuda.decoders id :=
        Cuda.put_others here _
      exact ⟨free.va, free.codec, by rw [same, free.hwDevice], by rw [same, free.holds]⟩

/-- An operation on a decoder that is not kept yet; the others do not see it. -/
theorem Tidy.insert {d' : Devices} (tidy : Tidy kept d) (sound : Cuda.Sound d'.cuda)
    (ready : (d'.cuda.decoders id).stage = .ready)
    (others : ∀ other ≠ id, d'.cuda.decoders other = d.cuda.decoders other ∧
      d'.va other = d.va other ∧ d'.codec other = d.codec other) :
    Tidy (insert id kept) d' where
  sound := sound
  ready := by
    rintro other (rfl | mem)
    · exact ready
    · by_cases here : other = id
      · rw [here, ready]
      · rw [(others other here).1, tidy.ready other mem]
  free := by
    intro other gone
    obtain ⟨apart, gone⟩ := not_or.mp gone
    obtain ⟨decoder, va, codec⟩ := others other apart
    have free := tidy.free other gone
    exact ⟨va.trans free.va, codec.trans free.codec, by rw [decoder, free.hwDevice],
      by rw [decoder, free.holds]⟩

theorem Tidy.destroy (tidy : Tidy kept d) (mem : id ∈ kept) :
    Tidy (kept \ {id}) (d.decoderDestroy id) where
  sound := Cuda.decoderDestroyAlone_sound tidy.sound id
  ready := by
    rintro other ⟨mem, apart⟩
    exact (congrArg Cuda.Decoder.stage (Cuda.decoderDestroyAlone_others apart)).trans
      (tidy.ready other mem)
  free := by
    intro other gone
    by_cases here : other = id
    · subst here
      have destroyed := (Cuda.decoderDestroyAlone_cases tidy.sound (tidy.ready other mem)).1
      have valid := (Cuda.decoderDestroyAlone_sound tidy.sound other).decoders other
      simp only [Cuda.State.Valid, destroyed] at valid
      exact ⟨Function.update_self .., Function.update_self .., valid.1,
        by simp [Devices.decoderDestroy, Cuda.Decoder.holds, valid.2.2]⟩
    · have same := Cuda.decoderDestroyAlone_others (s := d.cuda) here
      have free := tidy.free other fun mem => gone ⟨mem, here⟩
      exact ⟨(Function.update_of_ne here ..).trans free.va,
        (Function.update_of_ne here ..).trans free.codec,
        (congrArg Cuda.Decoder.hwDevice same).trans free.hwDevice,
        (congrArg Cuda.Decoder.holds same).trans free.holds⟩

theorem createDevice_others {other : Nat} (apart : other ≠ ctx.id) :
    (d.createDevice answers ctx).1.cuda.decoders other = d.cuda.decoders other ∧
      (d.createDevice answers ctx).1.va other = d.va other ∧
      (d.createDevice answers ctx).1.codec other = d.codec other := by
  unfold Devices.createDevice
  dsimp only
  split
  · split
    · exact ⟨Cuda.decoderInit_others apart .., Function.update_of_ne apart ..,
        Function.update_of_ne apart ..⟩
    · exact ⟨Cuda.decoderInit_others apart .., rfl, rfl⟩
  · split
    · exact ⟨Cuda.decoderInitAlone_others apart .., rfl, Function.update_of_ne apart ..⟩
    · exact ⟨Cuda.decoderInitAlone_others apart .., rfl, rfl⟩
  · exact ⟨Cuda.decoderInit_others apart .., rfl, rfl⟩

theorem createDevice_cuda (d : Devices) (answers : Answers) (ctx : DecoderCtx) :
    (d.createDevice answers ctx).1.cuda =
      if ctx.config.backend = .nvidia then
        Cuda.decoderInitAlone d.cuda ctx.id cudaDeviceId answers.cudaDevice answers.refGranted
      else Cuda.decoderInit d.cuda ctx.id false cudaDeviceId answers.refGranted := by
  unfold Devices.createDevice
  dsimp only
  split
  · next backend => split <;> simp [backend]
  · split <;> simp
  · next backend => exact (if_neg backend).symm

/-- The decoder is ready, and destroying it leaves the shared device as it was before. -/
theorem createDevice_cases (sound : Cuda.Sound d.cuda) (ctx : DecoderCtx)
    (fresh : (d.cuda.decoders ctx.id).stage = .fresh) (answers : Answers) :
    Cuda.Sound (d.createDevice answers ctx).1.cuda ∧
      ((d.createDevice answers ctx).1.cuda.decoders ctx.id).stage = .ready ∧
      ((d.createDevice answers ctx).1.decoderDestroy ctx.id).cuda.shared = d.cuda.shared := by
  simp only [Devices.decoderDestroy]
  rw [createDevice_cuda]
  split
  · exact ⟨Cuda.decoderInitAlone_sound sound .., (Cuda.decoderInitAlone_cases sound fresh ..).1,
      Cuda.decoderDestroyAlone_init sound fresh ..⟩
  · have made := Cuda.decoderInit_sound sound ctx.id false cudaDeviceId answers.refGranted
    obtain ⟨ready, unshared, same⟩ :=
      Cuda.decoderInit_plain sound fresh cudaDeviceId answers.refGranted
    refine ⟨made, ready, ?_⟩
    rw [(Cuda.decoderDestroyAlone_cases made ready).2]
    simpa [unshared] using same

/-- The device is made exactly when it could be had before, and the codec then refers to it. -/
theorem createDevice_device (sound : Cuda.Sound d.cuda) (ctx : DecoderCtx)
    (free : d.codec ctx.id = none) (fresh : (d.cuda.decoders ctx.id).stage = .fresh)
    (known : ctx.config.backend ≠ .auto) (answers : Answers) :
    (d.createDevice answers ctx).2 = deviceReady d.cuda.shared answers ctx.config.backend ∧
      (d.createDevice answers ctx).1.inUse ctx.id =
        openedBackend d.cuda.shared answers ctx.config.backend := by
  unfold Devices.inUse Devices.createDevice openedBackend
  dsimp only
  cases backend : ctx.config.backend with
  | auto => exact absurd backend known
  | intelVa =>
    by_cases found : vaDevices.any answers.vaDevice
    · simp [deviceReady, found]
    · simp [deviceReady, found, free]
  | nvidia =>
    have uses := (Cuda.decoderInitAlone_cases sound fresh cudaDeviceId answers.cudaDevice
      answers.refGranted).2.1
    simp only [deviceReady, uses]
    split
    · next granted => simp [granted]
    · next refused => simp [free, refused]
  | cpu => simp [deviceReady, free]

def createdCtx (config : DecoderConfig) (d : Devices) (backend : DecodeBackend) : DecoderCtx :=
  ⟨d.cuda.known, {config with backend := backend}, false, 0⟩

def withDevice (config : DecoderConfig) (d : Devices) (item : DecodeBackend × Answers) : Devices :=
  (({d with cuda := Cuda.decoderCreate d.cuda} : Devices).createDevice item.2
    (createdCtx config d item.1)).1

theorem decoderCreate_stage (cuda : Cuda.State) :
    ((Cuda.decoderCreate cuda).decoders cuda.known).stage = .fresh :=
  congrArg Cuda.Decoder.stage (Cuda.put_decoders_self cuda cuda.known _)

theorem decoderCreate_eq (answers : Answers) (device : Bool) {backend : DecodeBackend}
    (known : backend ≠ .auto) (id : Nat) (config : DecoderConfig) :
    Server.decoderCreate id (attemptAnswers answers backend device) {config with backend := backend} =
      if answers.created then some ⟨id, {config with backend := backend}, false, 0⟩ else none := by
  simp [Server.decoderCreate, known, attemptAnswers]

/-- Without its device decoder_init opens the codec for the CPU. -/
theorem decoderInit_eq (shared : Option Int) (answers : Answers) (ctx : DecoderCtx)
    (fresh : ctx.initialized = false) :
    Server.decoderInit (attemptAnswers answers ctx.config.backend
        (deviceReady shared answers ctx.config.backend)) ctx =
      if answers.opened (openedBackend shared answers ctx.config.backend) then
        some {ctx with
          config.backend := openedBackend shared answers ctx.config.backend, initialized := true}
      else none := by
  unfold openedBackend
  cases ready : deviceReady shared answers ctx.config.backend with
  | true => simp [Server.decoderInit, fresh, attemptAnswers]
  | false =>
    have hardware : ctx.config.backend = .intelVa ∨ ctx.config.backend = .nvidia := by
      cases backend : ctx.config.backend <;> simp_all [deviceReady]
    rcases hardware with backend | backend <;>
      simp [Server.decoderInit, fresh, attemptAnswers, backend]

theorem Tidy.decoderInit_eq (tidy : Tidy kept d) (config : DecoderConfig) (known : item.1 ≠ .auto) :
    Devices.decoderInit item.2 (createdCtx config d item.1)
        {d with cuda := Cuda.decoderCreate d.cuda} =
      (withDevice config d item,
        if item.2.opened (openedBackend d.cuda.shared item.2 item.1) then
          some {createdCtx config d item.1 with
            config.backend := openedBackend d.cuda.shared item.2 item.1, initialized := true}
        else none) := by
  have device := (createDevice_device tidy.create.sound (createdCtx config d item.1)
    (tidy.create.free _ tidy.fresh_known).codec (decoderCreate_stage d.cuda) known item.2).1
  calc Devices.decoderInit item.2 (createdCtx config d item.1)
        {d with cuda := Cuda.decoderCreate d.cuda}
      = (withDevice config d item, Server.decoderInit (attemptAnswers item.2 item.1
          (deviceReady d.cuda.shared item.2 item.1)) (createdCtx config d item.1)) :=
        congrArg (fun device => (withDevice config d item, Server.decoderInit
          (attemptAnswers item.2 item.1 device) (createdCtx config d item.1))) device
    _ = _ := congrArg (withDevice config d item, ·)
        (Fallback.decoderInit_eq d.cuda.shared item.2 (createdCtx config d item.1) rfl)

theorem Tidy.attempt_eq (tidy : Tidy kept d) (config : DecoderConfig) (known : item.1 ≠ .auto) :
    d.attempt config item =
      if opens d.cuda.shared item then
        (withDevice config d item,
          some {createdCtx config d item.1 with
            config.backend := openedBackend d.cuda.shared item.2 item.1, initialized := true})
      else if item.2.created then ((withDevice config d item).decoderDestroy d.cuda.known, none)
      else (d, none) := by
  have create : Server.decoderCreate d.cuda.known (attemptAnswers item.2 item.1 false)
      {config with backend := item.1} =
        if item.2.created then some (createdCtx config d item.1) else none :=
    decoderCreate_eq item.2 false known d.cuda.known config
  unfold Devices.attempt Devices.decoderCreate
  dsimp only
  rw [create]
  unfold opens
  by_cases created : item.2.created
  · simp only [created, if_true, Bool.true_and, tidy.decoderInit_eq config known]
    by_cases opened : item.2.opened (openedBackend d.cuda.shared item.2 item.1)
    · simp only [opened, if_true]
    · simp only [opened, Bool.false_eq_true, if_false]
      rfl
  · simp [created]

/-- What an attempt that succeeds leaves: its decoder is one more, and says what it uses. -/
structure Made (kept : Set Nat) (d : Devices) (item : DecodeBackend × Answers) (ctx : DecoderCtx)
    (after : Devices) : Prop where
  new : ctx.id ∉ kept
  tidy : Tidy (Insert.insert ctx.id kept) after
  backend : ctx.config.backend = openedBackend d.cuda.shared item.2 item.1
  inUse : after.inUse ctx.id = ctx.config.backend
  others : ∀ id ∈ kept, after.codec id = d.codec id

theorem Tidy.withDevice (tidy : Tidy kept d) (config : DecoderConfig) (known : item.1 ≠ .auto) :
    Made kept d item
      {createdCtx config d item.1 with
        config.backend := openedBackend d.cuda.shared item.2 item.1, initialized := true}
      (withDevice config d item) := by
  have made := tidy.create
  have fresh := decoderCreate_stage d.cuda
  obtain ⟨sound, ready, -⟩ := createDevice_cases made.sound (createdCtx config d item.1) fresh
    item.2
  exact
    { new := tidy.fresh_known
      tidy := made.insert sound ready fun other apart => createDevice_others apart
      backend := rfl
      inUse := (createDevice_device made.sound (createdCtx config d item.1)
        (made.free _ tidy.fresh_known).codec fresh known item.2).2
      others := fun id mem =>
        (createDevice_others (ne_of_mem_of_not_mem mem tidy.fresh_known)).2.2 }

theorem attempt_success (tidy : Tidy kept d) (known : item.1 ≠ .auto)
    (result : (d.attempt config item).2 = some ctx) :
    opens d.cuda.shared item = true ∧ Made kept d item ctx (d.attempt config item).1 := by
  rw [tidy.attempt_eq config known] at result ⊢
  by_cases succeeded : opens d.cuda.shared item
  · rw [if_pos succeeded] at result ⊢
    cases result
    exact ⟨succeeded, tidy.withDevice config known⟩
  · rw [if_neg succeeded] at result
    split at result <;> cases result

/-- What a failed attempt leaves: nobody is there who was not there before. -/
structure Unchanged (kept : Set Nat) (d after : Devices) : Prop where
  tidy : Tidy kept after
  shared : after.cuda.shared = d.cuda.shared
  codec : ∀ id ∈ kept, after.codec id = d.codec id

theorem Unchanged.refl (tidy : Tidy kept d) : Unchanged kept d d := ⟨tidy, rfl, fun _ _ => rfl⟩

theorem attempt_failure (tidy : Tidy kept d) (known : item.1 ≠ .auto)
    (result : (d.attempt config item).2 = none) :
    opens d.cuda.shared item = false ∧ Unchanged kept d (d.attempt config item).1 := by
  rw [tidy.attempt_eq config known] at result ⊢
  by_cases succeeded : opens d.cuda.shared item
  · rw [if_pos succeeded] at result
    cases result
  · rw [if_neg succeeded]
    refine ⟨by simpa using succeeded, ?_⟩
    split
    · have made := tidy.withDevice config known
      refine ⟨?_, (createDevice_cases tidy.create.sound (createdCtx config d item.1)
        (decoderCreate_stage d.cuda) item.2).2.2, fun id mem => ?_⟩
      · have gone := made.tidy.destroy (Set.mem_insert _ _)
        rwa [Set.insert_sdiff_self_of_notMem made.new] at gone
      · have apart : id ≠ d.cuda.known := ne_of_mem_of_not_mem mem made.new
        exact (Function.update_of_ne apart ..).trans (made.others id mem)
    · exact .refl tidy

end Attempt

theorem adjustBackendForStream_auto (info : StreamInfo) :
    adjustBackendForStream info .auto = .intelVa := by
  have every : routeRuleMatches ⟨none, none, none, .intelVa⟩ info = true := rfl
  unfold adjustBackendForStream decodeRouteRules
  by_cases first : routeRuleMatches ⟨some 1, some 1, none, .intelVa⟩ info
  · simp [first]
  · simp [first, every]

theorem adjustBackendForStream_known (info : StreamInfo) (backend : DecodeBackend) :
    adjustBackendForStream info backend ≠ .auto := by
  by_cases routed : backend = .auto
  · simp [routed, adjustBackendForStream_auto]
  · simp [adjustBackendForStream, routed]

theorem attemptedBackends_known {selected : DecodeBackend} (known : selected ≠ .auto) :
    ∀ backend ∈ attemptedBackends selected, backend ≠ .auto := by
  cases selected with
  | auto => exact absurd rfl known
  | intelVa => decide
  | nvidia => decide
  | cpu => decide

theorem candidates_known {selected : DecodeBackend} (known : selected ≠ .auto)
    (answers : Nat → Answers) : ∀ item ∈ candidates selected answers, item.1 ≠ .auto := by
  intro item mem
  obtain ⟨i, inside, rfl⟩ := List.mem_mapIdx.mp mem
  exact attemptedBackends_known known _ (List.getElem_mem inside)

/-- The loop ends with the first attempt in which the codec opens. -/
theorem firstOf_attempt {kept : Set Nat} {d : Devices} (tidy : Tidy kept d) (config : DecoderConfig)
    {items : List (DecodeBackend × Answers)} (known : ∀ item ∈ items, item.1 ≠ .auto) :
    (Retry.firstOf (Devices.attempt config) d items).2.map Prod.fst =
        items.find? (opens d.cuda.shared) ∧
      (∀ found, (Retry.firstOf (Devices.attempt config) d items).2 = some found →
        Made kept d found.1 found.2 (Retry.firstOf (Devices.attempt config) d items).1) ∧
      ((Retry.firstOf (Devices.attempt config) d items).2 = none →
        Unchanged kept d (Retry.firstOf (Devices.attempt config) d items).1) := by
  apply Retry.firstOf_rule (Unchanged kept d) (Made kept d)
  · rintro s item mem ctx ⟨tidy, shared, codec⟩ result
    obtain ⟨succeeded, made⟩ := attempt_success tidy (known item mem) result
    rw [shared] at succeeded
    exact ⟨succeeded, made.new, made.tidy, by rw [made.backend, shared], made.inUse,
      fun id mem => (made.others id mem).trans (codec id mem)⟩
  · rintro s item mem ⟨tidy, shared, codec⟩ result
    obtain ⟨failed, tidy, same, others⟩ := attempt_failure tidy (known item mem) result
    rw [shared] at failed
    exact ⟨failed, tidy, same.trans shared, fun id mem => (others id mem).trans (codec id mem)⟩
  · exact .refl tidy

/-- An attempt is one round of `tryBackends`, whatever number its decoder has. -/
theorem tryBackends_cons (shared : Option Int) (answers : Answers) {backend : DecodeBackend}
    (known : backend ≠ .auto) (id : Nat) (config : DecoderConfig) (attempts : Nat → AttemptAnswers)
    (i : Nat) (rest : List DecodeBackend)
    (asked : attempts i = attemptAnswers answers backend (deviceReady shared answers backend)) :
    tryBackends id config attempts i (backend :: rest) =
      if opens shared (backend, answers) then
        some ⟨id, {config with backend := openedBackend shared answers backend}, true, 0⟩
      else tryBackends id config attempts (i + 1) rest := by
  have init := decoderInit_eq shared answers ⟨id, {config with backend := backend}, false, 0⟩ rfl
  rw [tryBackends, asked, decoderCreate_eq answers _ known]
  unfold opens
  by_cases created : answers.created
  · simp only [created, if_true, Option.bind_some, init, Bool.true_and]
    by_cases opened : answers.opened (openedBackend shared answers backend)
    · simp only [opened, if_true]
    · simp only [opened, Bool.false_eq_true, if_false]
  · simp [created]

/-- Only the answers from the next attempt on matter. -/
theorem tryBackends_congr {id : Nat} {config : DecoderConfig} {attempts others : Nat → AttemptAnswers}
    {i : Nat} (same : ∀ j ≥ i, attempts j = others j) (backends : List DecodeBackend) :
    tryBackends id config attempts i backends = tryBackends id config others i backends := by
  induction backends generalizing i with
  | nil => rfl
  | cons backend rest ih =>
    simp only [tryBackends, same i le_rfl, ih fun j after => same j (Nat.le_of_succ_le after)]

/-- The loop with its account of the devices is `tryBackends` for what the system answered. -/
theorem firstOf_tryBackends {kept : Set Nat} {d : Devices} (tidy : Tidy kept d)
    (config : DecoderConfig) (answers : Nat → Answers) {backends : List DecodeBackend}
    (known : ∀ backend ∈ backends, backend ≠ .auto) (i : Nat) :
    ∃ id attempts, tryBackends id config attempts i backends =
      (Retry.firstOf (Devices.attempt config) d
        (backends.mapIdx fun j backend => (backend, answers (i + j)))).2.map Prod.snd := by
  induction backends generalizing d i with
  | nil => exact ⟨0, fun _ => ⟨.auto, false, false, false⟩, rfl⟩
  | cons backend rest ih =>
    have known_here : (backend, answers i).1 ≠ .auto := known backend List.mem_cons_self
    have outcome := tidy.attempt_eq config known_here
    rw [List.mapIdx_cons]
    simp only [Nat.add_zero]
    let asked := attemptAnswers (answers i) backend (deviceReady d.cuda.shared (answers i) backend)
    by_cases succeeded : opens d.cuda.shared (backend, answers i)
    · rw [if_pos succeeded] at outcome
      refine ⟨d.cuda.known, fun _ => asked, ?_⟩
      rw [tryBackends_cons d.cuda.shared (answers i) known_here _ _ _ _ _ rfl, if_pos succeeded,
        Retry.firstOf_some (congrArg Prod.snd outcome)]
      rfl
    · rw [if_neg succeeded] at outcome
      have failed : (Devices.attempt config d (backend, answers i)).2 = none := by
        rw [outcome]
        split <;> rfl
      obtain ⟨id, attempts, later⟩ := ih (attempt_failure tidy known_here failed).2.tidy
        (fun other mem => known other (List.mem_cons_of_mem backend mem)) (i + 1)
      simp only [Nat.add_assoc, Nat.add_comm 1] at later
      refine ⟨id, Function.update attempts i asked, ?_⟩
      rw [tryBackends_cons d.cuda.shared (answers i) known_here _ _ _ _ _ (Function.update_self ..),
        if_neg succeeded, tryBackends_congr fun j after => Function.update_of_ne (by omega) .., later,
        Retry.firstOf_none failed]

end StreamRelay.Server.Fallback
