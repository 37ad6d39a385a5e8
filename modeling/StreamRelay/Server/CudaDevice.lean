import StreamRelay.Census
import StreamRelay.Run

/-! The CUDA device that all decoders share. `g_cuda_device_mu` is held in one step, so what
stands between two steps has it free; the device is created between two of them. -/
namespace StreamRelay.Server.Cuda

/-- How far a DecoderCtx has come: in acquire_shared_cuda_device on the way of decoder_init,
then as a decoder, then in decoder_destroy. -/
inductive Stage
  | absent
  | fresh
  | creating (device : Int)
  | installing (device : Int) (created : Nat)
  | discarding (created : Nat)
  | acquired
  | ready
  | releasing
  | destroyed
  deriving DecidableEq, Repr

/-- `hwDevice` is the reference in `hw_device_ctx` to a shared context and `usesShared` is
`uses_shared_cuda_device`. How often the device was acquired and released is noted for the
observer. -/
structure Decoder where
  stage : Stage
  hwDevice : Option Nat
  usesShared : Bool
  acquires : Nat
  releases : Nat
  deriving DecidableEq, Repr

/-- The three globals, the contexts created so far with the device of each, and the decoders. -/
structure State where
  master : Option Nat
  deviceId : Int
  users : Nat
  created : Nat
  device : Nat → Int
  known : Nat
  decoders : Nat → Decoder

def State.initial : State where
  master := none
  deviceId := -1
  users := 0
  created := 0
  device := fun _ => 0
  known := 0
  decoders := fun _ => ⟨.absent, none, false, 0, 0⟩

def State.put (s : State) (id : Nat) (d : Decoder) : State :=
  {s with decoders := Function.update s.decoders id d}

def State.setStage (s : State) (id : Nat) (stage : Stage) : State :=
  s.put id {s.decoders id with stage := stage}

/-- `g_cuda_device_users == 0` unrefs the master. -/
def State.dropUnused (s : State) : State :=
  if s.users = 0 ∧ s.master.isSome then {s with master := none, deviceId := -1} else s

def Decoder.acquire (d : Decoder) (context : Option Nat) : Decoder :=
  {d with stage := .acquired, hwDevice := context, acquires := d.acquires + 1}

/-- av_buffer_ref of the master has succeeded. -/
def State.use (s : State) (id : Nat) : State :=
  {s.put id ((s.decoders id).acquire s.master) with users := s.users + 1}

/-- The error exits of acquire_shared_cuda_device: decoder_init goes on with the CPU. -/
def State.giveUp (s : State) (id : Nat) : State := s.setStage id .ready

/-- acquire_shared_cuda_device up to the first unlock. -/
def acquireSharedCudaDevice (s : State) (id : Nat) (deviceId : Int) (refGranted : Bool) : State :=
  match s.master with
  | some _ =>
    if s.deviceId ≠ deviceId then s.giveUp id
    else if refGranted then s.use id
    else s.giveUp id
  | none => s.setStage id (.creating deviceId)

/-- av_hwdevice_ctx_create, without the lock. -/
def hwdeviceCtxCreate (s : State) (id : Nat) (deviceId : Int) (succeeds : Bool) : State :=
  if succeeds then
    { s.setStage id (.installing deviceId s.created) with
      device := Function.update s.device s.created deviceId, created := s.created + 1 }
  else s.giveUp id

/-- acquire_shared_cuda_device from the second lock on. A context that is not needed is
unreffed at once, or after the unlock if the device is another one. -/
def installCreated (s : State) (id : Nat) (deviceId : Int) (created : Nat) (refGranted : Bool) :
    State :=
  let ref (s : State) : State := if refGranted then s.use id else (s.dropUnused).giveUp id
  match s.master with
  | none => ref {s with master := some created, deviceId := deviceId}
  | some _ => if s.deviceId ≠ deviceId then s.setStage id (.discarding created) else ref s

def Decoder.release (d : Decoder) : Decoder :=
  {d with stage := .destroyed, releases := d.releases + 1}

def releaseSharedCudaDevice (s : State) (id : Nat) : State :=
  ({s.put id (s.decoders id).release with users := s.users - 1} : State).dropUnused

def decoderCreate (s : State) : State :=
  {s.put s.known ⟨.fresh, none, false, 0, 0⟩ with known := s.known + 1}

/-- decoder_init as far as the device goes; with another backend it has none of the shared. -/
def decoderInit (s : State) (id : Nat) (nvidia : Bool) (cudaDeviceId : Int) (refGranted : Bool) :
    State :=
  if (s.decoders id).stage = .fresh then
    if nvidia then
      acquireSharedCudaDevice (s.put id {s.decoders id with usesShared := false}) id cudaDeviceId
        refGranted
    else s.setStage id .ready
  else s

/-- The next operation of a decoder_init that has given back the lock. -/
def decoderInitNext (s : State) (id : Nat) (succeeds refGranted : Bool) : State :=
  match (s.decoders id).stage with
  | .creating deviceId => hwdeviceCtxCreate s id deviceId succeeds
  | .installing deviceId created => installCreated s id deviceId created refGranted
  | .discarding _ => s.giveUp id
  | .acquired => s.put id {s.decoders id with stage := .ready, usesShared := true}
  | _ => s

/-- decoder_destroy gives up its own reference and then, without a pause for the lock, the
share in the device. -/
def decoderDestroy (s : State) (id : Nat) : State :=
  let d := s.decoders id
  match d.stage with
  | .fresh | .ready =>
    s.put id {d with hwDevice := none, stage := if d.usesShared then .releasing else .destroyed}
  | .releasing => releaseSharedCudaDevice s id
  | _ => s

inductive Input
  | decoderCreate
  | decoderInit (id : Nat) (nvidia : Bool) (cudaDeviceId : Int) (refGranted : Bool)
  | decoderInitNext (id : Nat) (succeeds refGranted : Bool)
  | decoderDestroy (id : Nat)
  deriving DecidableEq, Repr

def step (s : State) : Input → State
  | .decoderCreate => decoderCreate s
  | .decoderInit id nvidia cudaDeviceId refGranted => decoderInit s id nvidia cudaDeviceId refGranted
  | .decoderInitNext id succeeds refGranted => decoderInitNext s id succeeds refGranted
  | .decoderDestroy id => decoderDestroy s id

def run (inputs : List Input) : State := Run.run step .initial inputs

/-- The acquire has succeeded and the release has not run yet. -/
def Decoder.holds (d : Decoder) : Bool := d.releases < d.acquires

structure Counted (s : State) : Prop where
  master : s.master.isSome ↔ 0 < s.users
  users : s.users = Census.count Decoder.holds s.decoders s.known
  shared : ∀ id, (s.decoders id).holds → ∃ context, s.master = some context ∧
    s.device context = s.deviceId ∧
    ((s.decoders id).stage ≠ .releasing → (s.decoders id).hwDevice = some context)
  matched : ∀ id, (s.decoders id).releases ≤ (s.decoders id).acquires ∧
    (s.decoders id).acquires ≤ 1 ∧
    ((s.decoders id).stage = .destroyed → (s.decoders id).releases = (s.decoders id).acquires)

/-- A decoder that never had the device. -/
def Decoder.Plain (d : Decoder) : Prop :=
  d.hwDevice = none ∧ d.usesShared = false ∧ d.acquires = 0 ∧ d.releases = 0

/-- A decoder that has it. -/
def Decoder.Holding (d : Decoder) (hwDevice : Option Nat) (usesShared : Bool) : Prop :=
  d.hwDevice = hwDevice ∧ d.usesShared = usesShared ∧ d.acquires = 1 ∧ d.releases = 0

/-- What each stage says about the decoder. -/
def State.Valid (s : State) (d : Decoder) : Prop :=
  match d.stage with
  | .absent | .fresh | .creating _ | .discarding _ => d.Plain
  | .installing deviceId created => d.Plain ∧ created < s.created ∧ s.device created = deviceId
  | .acquired => d.Holding s.master false
  | .ready => d.Holding s.master true ∨ d.Plain
  | .releasing => d.Holding none true
  | .destroyed => d.hwDevice = none ∧ d.acquires ≤ 1 ∧ d.releases = d.acquires

structure Sound (s : State) : Prop where
  master : s.master.isSome ↔ 0 < s.users
  users : s.users = Census.count Decoder.holds s.decoders s.known
  device : ∀ context, s.master = some context → context < s.created ∧ s.device context = s.deviceId
  absent : ∀ id, s.known ≤ id → (s.decoders id).stage = .absent
  decoders : ∀ id, s.Valid (s.decoders id)

variable {s : State} {id : Nat} {d : Decoder}

theorem Sound.initial : Sound .initial where
  master := by simp [State.initial]
  users := rfl
  device := by simp [State.initial]
  absent := fun _ _ => rfl
  decoders := fun _ => ⟨rfl, rfl, rfl, rfl⟩

theorem Decoder.Plain.free (plain : d.Plain) : d.holds = false := by
  simp [Decoder.holds, plain.2.2.1, plain.2.2.2]

theorem Decoder.Holding.held {hwDevice : Option Nat} {usesShared : Bool}
    (holding : d.Holding hwDevice usesShared) : d.holds = true := by
  simp [Decoder.holds, holding.2.2.1, holding.2.2.2]

/-- Only a decoder that holds the device depends on which context is the master. -/
theorem State.Valid.transport {s' : State} (valid : s.Valid d) (created : s.created ≤ s'.created)
    (device : ∀ context < s.created, s'.device context = s.device context)
    (master : d.holds → s'.master = s.master) : s'.Valid d := by
  unfold State.Valid at valid ⊢
  split at valid
  · exact valid
  · exact valid
  · exact valid
  · exact valid
  · obtain ⟨plain, below, same⟩ := valid
    exact ⟨plain, Nat.lt_of_lt_of_le below created, (device _ below).trans same⟩
  · rwa [master valid.held]
  · exact valid.imp_left fun holding => by rwa [master holding.held]
  · exact valid
  · exact valid

theorem Sound.below (sound : Sound s) (born : (s.decoders id).stage ≠ .absent) : id < s.known := by
  by_contra above
  exact born (sound.absent id (by omega))

/-- One decoder changes, and the globals with it. -/
theorem Sound.change {s' : State} (sound : Sound s) (born : (s.decoders id).stage ≠ .absent)
    (decoders : s'.decoders = Function.update s.decoders id d) (known : s'.known = s.known)
    (valid : s'.Valid d) (created : s.created ≤ s'.created)
    (same : ∀ context < s.created, s'.device context = s.device context)
    (users : s'.users + (s.decoders id).holds.toNat = s.users + d.holds.toNat)
    (master : s'.master.isSome ↔ 0 < s'.users)
    (device : ∀ context, s'.master = some context →
      context < s'.created ∧ s'.device context = s'.deviceId)
    (others : ∀ other ≠ id, (s.decoders other).holds → s'.master = s.master) : Sound s' where
  master := master
  device := device
  users := by
    have counted := Census.count_update Decoder.holds s.decoders (sound.below born) d
    have before := sound.users
    rw [decoders, known]
    omega
  absent := by
    intro other above
    rw [known] at above
    have apart : other ≠ id := by
      have below := sound.below born
      omega
    rw [decoders, Function.update_of_ne apart]
    exact sound.absent other above
  decoders := by
    intro other
    rw [decoders]
    by_cases here : other = id
    · rwa [here, Function.update_self]
    · rw [Function.update_of_ne here]
      exact (sound.decoders other).transport created same (others other here)

/-- One decoder changes on its own. -/
theorem Sound.put (sound : Sound s) (born : (s.decoders id).stage ≠ .absent) (valid : s.Valid d)
    (holds : d.holds = (s.decoders id).holds) : Sound (s.put id d) :=
  sound.change born rfl rfl valid le_rfl (fun _ _ => rfl) (by rw [holds]; rfl) sound.master
    sound.device fun _ _ _ => rfl

theorem Sound.unused (sound : Sound s) (free : s.master = none) : s.users = 0 := by
  by_contra some
  have master := sound.master.mpr (Nat.pos_of_ne_zero some)
  simp [free] at master

theorem Sound.none_holds (sound : Sound s) (free : s.master = none) (id : Nat) :
    (s.decoders id).holds = false := by
  have unused := sound.unused free
  by_cases below : id < s.known
  · exact Census.count_eq_zero.mp (sound.users.symm.trans unused) id below
  · have valid := sound.decoders id
    rw [State.Valid, sound.absent id (by omega)] at valid
    exact valid.free

theorem Sound.giveUp (sound : Sound s) (born : (s.decoders id).stage ≠ .absent)
    (plain : (s.decoders id).Plain) : Sound (s.giveUp id) := by
  refine sound.put born (.inr plain) ?_
  rw [plain.free]
  exact plain.free

theorem Decoder.Plain.acquire (plain : d.Plain) (context : Option Nat) :
    (d.acquire context).Holding context false :=
  ⟨rfl, plain.2.1, by simp [Decoder.acquire, plain.2.2.1], plain.2.2.2⟩

/-- A share is taken in a master that is there. -/
theorem Sound.use (sound : Sound s) (born : (s.decoders id).stage ≠ .absent)
    (plain : (s.decoders id).Plain) (present : s.master.isSome) : Sound (s.use id) := by
  have acquired := plain.acquire s.master
  refine sound.change born rfl rfl acquired le_rfl (fun _ _ => rfl) ?_ ?_ sound.device
    fun _ _ _ => rfl
  · rw [plain.free, acquired.held]
    rfl
  · exact iff_of_true present (Nat.succ_pos _)

/-- The first share is taken in the context that becomes the master. -/
theorem Sound.useNew (sound : Sound s) (born : (s.decoders id).stage ≠ .absent)
    (plain : (s.decoders id).Plain) (free : s.master = none) {deviceId : Int} {created : Nat}
    (below : created < s.created) (same : s.device created = deviceId) :
    Sound (({s with master := some created, deviceId := deviceId} : State).use id) := by
  have acquired := plain.acquire (some created)
  refine sound.change born rfl rfl acquired le_rfl (fun _ _ => rfl) ?_ ?_ ?_ ?_
  · rw [plain.free, acquired.held]
    rfl
  · exact iff_of_true rfl (Nat.succ_pos _)
  · rintro context ⟨⟩
    exact ⟨below, same⟩
  · intro other _ holds
    simp [sound.none_holds free other] at holds

/-- The master that nobody uses is dropped. -/
theorem Sound.retire (sound : Sound s) (free : s.master = none) (deviceId : Int) :
    Sound {s with deviceId := deviceId} where
  master := sound.master
  users := sound.users
  device := by simp [free]
  absent := sound.absent
  decoders := fun other => (sound.decoders other).transport le_rfl (fun _ _ => rfl) fun _ => rfl

theorem Sound.present (sound : Sound s) {context : Nat} (master : s.master = some context) :
    s.users ≠ 0 := Nat.pos_iff_ne_zero.mp (sound.master.mp (by simp [master]))

theorem dropUnused_used (used : s.users ≠ 0) : s.dropUnused = s := if_neg fun both => used both.1

theorem acquireSharedCudaDevice_sound (sound : Sound s) (born : (s.decoders id).stage ≠ .absent)
    (plain : (s.decoders id).Plain) (deviceId : Int) (refGranted : Bool) :
    Sound (acquireSharedCudaDevice s id deviceId refGranted) := by
  unfold acquireSharedCudaDevice
  split
  · next context present =>
    split
    · exact sound.giveUp born plain
    · split
      · exact sound.use born plain (by simp [present])
      · exact sound.giveUp born plain
  · refine sound.put born plain ?_
    rw [plain.free]
    exact plain.free

theorem hwdeviceCtxCreate_sound (sound : Sound s) (born : (s.decoders id).stage ≠ .absent)
    (plain : (s.decoders id).Plain) (deviceId : Int) (succeeds : Bool) :
    Sound (hwdeviceCtxCreate s id deviceId succeeds) := by
  unfold hwdeviceCtxCreate
  split
  · have older (context : Nat) (below : context < s.created) :
        Function.update s.device s.created deviceId context = s.device context :=
      Function.update_of_ne (by omega) ..
    refine sound.change born rfl rfl ⟨plain, Nat.lt_succ_self _, Function.update_self ..⟩
      (Nat.le_succ _) older ?_ sound.master ?_ fun _ _ _ => rfl
    · rw [plain.free, show Decoder.holds {s.decoders id with
        stage := .installing deviceId s.created} = false from plain.free]
      rfl
    · intro context master
      obtain ⟨below, same⟩ := sound.device context master
      exact ⟨Nat.lt_succ_of_lt below, (older context below).trans same⟩
  · exact sound.giveUp born plain

theorem installCreated_sound (sound : Sound s) (born : (s.decoders id).stage ≠ .absent)
    (plain : (s.decoders id).Plain) {deviceId : Int} {created : Nat}
    (below : created < s.created) (same : s.device created = deviceId) (refGranted : Bool) :
    Sound (installCreated s id deviceId created refGranted) := by
  unfold installCreated
  dsimp only
  split
  · next free =>
    split
    · exact sound.useNew born plain free below same
    · have unused := sound.unused free
      have dropped : ({s with master := some created, deviceId := deviceId} : State).dropUnused =
          {s with master := none, deviceId := -1} := if_pos ⟨unused, rfl⟩
      rw [dropped, ← free]
      exact (sound.retire free (-1)).giveUp born plain
  · next context present =>
    split
    · refine sound.put born plain ?_
      rw [plain.free]
      exact plain.free
    · split
      · exact sound.use born plain (by simp [present])
      · rw [dropUnused_used (sound.present present)]
        exact sound.giveUp born plain

theorem Sound.absent_free (sound : Sound s) (above : s.known ≤ id) :
    (s.decoders id).holds = false := by
  have valid := sound.decoders id
  rw [State.Valid, sound.absent id above] at valid
  exact valid.free

/-- The share is given back; with the last one the master goes. -/
theorem releaseSharedCudaDevice_sound (sound : Sound s) (stage : (s.decoders id).stage = .releasing) :
    Sound (releaseSharedCudaDevice s id) := by
  have valid := sound.decoders id
  simp only [State.Valid, stage] at valid
  have born : (s.decoders id).stage ≠ .absent := by simp [stage]
  have held := valid.held
  obtain ⟨hwDevice, -, acquires, releases⟩ := valid
  have destroyed : (s.decoders id).hwDevice = none ∧ (s.decoders id).acquires ≤ 1 ∧
      (s.decoders id).releases + 1 = (s.decoders id).acquires := ⟨hwDevice, by omega, by omega⟩
  have gone : (s.decoders id).release.holds = false := by
    simp [Decoder.release, Decoder.holds, acquires, releases]
  have counted := Census.count_update Decoder.holds s.decoders (sound.below born)
    (s.decoders id).release
  have users := sound.users
  rw [held, gone, Bool.toNat_true, Bool.toNat_false] at counted
  have left : s.users - 1 + (s.decoders id).holds.toNat =
      s.users + (s.decoders id).release.holds.toNat := by
    rw [held, gone, Bool.toNat_true, Bool.toNat_false]
    omega
  unfold releaseSharedCudaDevice State.dropUnused
  split
  · next last =>
    have unused : s.users - 1 = 0 := last.1
    refine sound.change born rfl rfl destroyed le_rfl (fun _ _ => rfl) left ?_ (by simp) ?_
    · exact iff_of_false (by simp) (by simp [unused])
    · intro other apart holds
      have all := Census.count_eq_zero.mp (show Census.count Decoder.holds
        (Function.update s.decoders id (s.decoders id).release) s.known = 0 by omega)
      by_cases below : other < s.known
      · have free := all other below
        rw [Function.update_of_ne apart] at free
        simp [free] at holds
      · simp [sound.absent_free (Nat.not_lt.mp below)] at holds
  · next more =>
    refine sound.change born rfl rfl destroyed le_rfl (fun _ _ => rfl) left ?_ sound.device
      fun _ _ _ => rfl
    have present := sound.master.mpr (by omega)
    refine iff_of_true present ?_
    have used : s.users - 1 ≠ 0 := fun unused => more ⟨unused, present⟩
    exact Nat.pos_of_ne_zero used

theorem decoderCreate_sound (sound : Sound s) : Sound (decoderCreate s) where
  master := sound.master
  device := sound.device
  users := by
    have pushed : Census.count Decoder.holds
        (Function.update s.decoders s.known ⟨.fresh, none, false, 0, 0⟩) (s.known + 1) = _ :=
      Census.count_push s.known _
    rw [show Decoder.holds ⟨.fresh, none, false, 0, 0⟩ = false from rfl] at pushed
    exact sound.users.trans pushed.symm
  absent := by
    intro id above
    have above : s.known + 1 ≤ id := above
    have apart : id ≠ s.known := by omega
    exact (congrArg Decoder.stage (Function.update_of_ne apart ..)).trans
      (sound.absent id (by omega))
  decoders := by
    intro id
    simp only [decoderCreate, State.put]
    by_cases here : id = s.known
    · rw [here, Function.update_self]
      exact ⟨rfl, rfl, rfl, rfl⟩
    · rw [Function.update_of_ne here]
      exact sound.decoders id

theorem decoderInit_sound (sound : Sound s) (id : Nat) (nvidia : Bool) (cudaDeviceId : Int)
    (refGranted : Bool) : Sound (decoderInit s id nvidia cudaDeviceId refGranted) := by
  unfold decoderInit
  split
  · next stage =>
    have plain := sound.decoders id
    simp only [State.Valid, stage] at plain
    have born : (s.decoders id).stage ≠ .absent := by simp [stage]
    split
    · have reset : s.put id {s.decoders id with usesShared := false} = s := by
        rw [← plain.2.1]
        exact congrArg (fun decoders => {s with decoders := decoders})
          (Function.update_eq_self id s.decoders)
      rw [reset]
      exact acquireSharedCudaDevice_sound sound born plain cudaDeviceId refGranted
    · exact sound.giveUp born plain
  · exact sound

theorem decoderInitNext_sound (sound : Sound s) (id : Nat) (succeeds refGranted : Bool) :
    Sound (decoderInitNext s id succeeds refGranted) := by
  have valid := sound.decoders id
  unfold decoderInitNext
  split
  · next deviceId stage =>
    simp only [State.Valid, stage] at valid
    exact hwdeviceCtxCreate_sound sound (by simp [stage]) valid deviceId succeeds
  · next deviceId created stage =>
    simp only [State.Valid, stage] at valid
    exact installCreated_sound sound (by simp [stage]) valid.1 valid.2.1 valid.2.2 refGranted
  · next created stage =>
    simp only [State.Valid, stage] at valid
    exact sound.giveUp (by simp [stage]) valid
  · next stage =>
    simp only [State.Valid, stage] at valid
    exact sound.put (by simp [stage]) (.inl ⟨valid.1, rfl, valid.2.2⟩) rfl
  · exact sound

theorem decoderDestroy_sound (sound : Sound s) (id : Nat) : Sound (decoderDestroy s id) := by
  have valid := sound.decoders id
  unfold decoderDestroy
  dsimp only
  split
  · next stage =>
    simp only [State.Valid, stage] at valid
    refine sound.put (by simp [stage]) ?_ rfl
    simp [State.Valid, valid.2.1, valid.2.2.1, valid.2.2.2]
  · next stage =>
    simp only [State.Valid, stage] at valid
    refine sound.put (by simp [stage]) ?_ rfl
    rcases valid with holding | plain
    · simp [State.Valid, Decoder.Holding, holding.2.1, holding.2.2.1, holding.2.2.2]
    · simp [State.Valid, plain.2.1, plain.2.2.1, plain.2.2.2]
  · next stage => exact releaseSharedCudaDevice_sound sound stage
  · exact sound

theorem step_sound (sound : Sound s) (input : Input) : Sound (step s input) := by
  cases input with
  | decoderCreate => exact decoderCreate_sound sound
  | decoderInit id nvidia cudaDeviceId refGranted =>
    exact decoderInit_sound sound id nvidia cudaDeviceId refGranted
  | decoderInitNext id succeeds refGranted => exact decoderInitNext_sound sound id succeeds refGranted
  | decoderDestroy id => exact decoderDestroy_sound sound id

theorem Sound.counted (sound : Sound s) : Counted s where
  master := sound.master
  users := sound.users
  shared := by
    intro id holds
    have valid := sound.decoders id
    have born : (s.decoders id).stage ≠ .absent := by
      intro absent
      rw [State.Valid, absent] at valid
      simp [valid.free] at holds
    have some_user : s.users ≠ 0 := by
      intro unused
      have free := Census.count_eq_zero.mp (sound.users.symm.trans unused) id (sound.below born)
      simp [free] at holds
    obtain ⟨context, master⟩ := Option.isSome_iff_exists.mp
      (sound.master.mpr (Nat.pos_of_ne_zero some_user))
    refine ⟨context, master, (sound.device context master).2, fun still => ?_⟩
    cases stage : (s.decoders id).stage <;> simp only [State.Valid, stage] at valid still
    case acquired => exact valid.1.trans master
    case ready =>
      rcases valid with holding | plain
      · exact holding.1.trans master
      · simp [plain.free] at holds
    case releasing => contradiction
    case destroyed => simp [Decoder.holds, valid.2.2] at holds
    case installing => simp [valid.1.free] at holds
    all_goals simp [valid.free] at holds
  matched := by
    intro id
    have valid := sound.decoders id
    have plain {d : Decoder} (plain : d.Plain) : d.releases ≤ d.acquires ∧ d.acquires ≤ 1 := by
      simp [plain.2.2.1, plain.2.2.2]
    have holding {d : Decoder} {hwDevice : Option Nat} {usesShared : Bool}
        (holding : d.Holding hwDevice usesShared) : d.releases ≤ d.acquires ∧ d.acquires ≤ 1 := by
      simp [holding.2.2.1, holding.2.2.2]
    cases stage : (s.decoders id).stage <;> simp only [State.Valid, stage] at valid
    case destroyed => exact ⟨Nat.le_of_eq valid.2.2, valid.2.1, fun _ => valid.2.2⟩
    case installing =>
      obtain ⟨ordered, once⟩ := plain valid.1
      exact ⟨ordered, once, by simp⟩
    case ready =>
      obtain ⟨ordered, once⟩ := valid.elim holding plain
      exact ⟨ordered, once, by simp⟩
    case acquired | releasing =>
      obtain ⟨ordered, once⟩ := holding valid
      exact ⟨ordered, once, by simp⟩
    all_goals
      obtain ⟨ordered, once⟩ := plain valid
      exact ⟨ordered, once, by simp⟩

end StreamRelay.Server.Cuda
