import StreamRelay.Server.CudaDevice

/-! The shared CUDA device where decoders come and go one after the other: decoder_init and
decoder_destroy run to their end, with no other thread between their critical sections. -/
namespace StreamRelay.Server.Cuda

variable {s : State} {id other : Nat}

/-- The device that is shared at present. -/
def State.shared (s : State) : Option Int := s.master.map fun _ => s.deviceId

/-- What acquire_shared_cuda_device comes to when no other thread is in it: the device that is
shared has to be the one asked for, and a new one has to be created. -/
def grants (shared : Option Int) (deviceId : Int) (succeeds refGranted : Bool) : Bool :=
  match shared with
  | some present => present = deviceId && refGranted
  | none => succeeds && refGranted

def decoderInitAlone (s : State) (id : Nat) (deviceId : Int) (succeeds refGranted : Bool) : State :=
  let next (s : State) : State := decoderInitNext s id succeeds refGranted
  next (next (next (decoderInit s id true deviceId refGranted)))

def decoderDestroyAlone (s : State) (id : Nat) : State := decoderDestroy (decoderDestroy s id) id

@[simp] theorem put_decoders_self (s : State) (id : Nat) (d : Decoder) :
    (s.put id d).decoders id = d := Function.update_self ..

@[simp] theorem put_master (s : State) (id : Nat) (d : Decoder) : (s.put id d).master = s.master :=
  rfl

@[simp] theorem put_deviceId (s : State) (id : Nat) (d : Decoder) :
    (s.put id d).deviceId = s.deviceId := rfl

@[simp] theorem put_users (s : State) (id : Nat) (d : Decoder) : (s.put id d).users = s.users := rfl

theorem put_others (apart : other ≠ id) (d : Decoder) :
    (s.put id d).decoders other = s.decoders other := Function.update_of_ne apart ..

theorem dropUnused_decoders (s : State) : s.dropUnused.decoders = s.decoders := by
  unfold State.dropUnused
  split <;> rfl

/-- An operation of a decoder leaves the other decoders alone. -/
theorem decoderInit_others (apart : other ≠ id) (nvidia : Bool) (deviceId : Int)
    (refGranted : Bool) :
    (decoderInit s id nvidia deviceId refGranted).decoders other = s.decoders other := by
  unfold decoderInit acquireSharedCudaDevice State.giveUp State.use State.setStage
  split
  · split
    · split
      · split
        · simp only [put_others apart]
        · split <;> simp only [put_others apart]
      · simp only [put_others apart]
    · simp only [put_others apart]
  · rfl

theorem decoderInitNext_others (apart : other ≠ id) (succeeds refGranted : Bool) :
    (decoderInitNext s id succeeds refGranted).decoders other = s.decoders other := by
  unfold decoderInitNext
  split
  · unfold hwdeviceCtxCreate State.giveUp State.setStage
    split <;> simp only [put_others apart]
  · unfold installCreated State.giveUp State.use State.setStage
    dsimp only
    split
    · split <;> simp only [put_others apart, dropUnused_decoders]
    · split
      · simp only [put_others apart]
      · split <;> simp only [put_others apart, dropUnused_decoders]
  · exact put_others apart _
  · exact put_others apart _
  · rfl

theorem decoderDestroy_others (apart : other ≠ id) :
    (decoderDestroy s id).decoders other = s.decoders other := by
  unfold decoderDestroy
  dsimp only
  split
  · exact put_others apart _
  · exact put_others apart _
  · unfold releaseSharedCudaDevice
    rw [dropUnused_decoders]
    exact put_others apart _
  · rfl

theorem decoderInitAlone_others (apart : other ≠ id) (deviceId : Int) (succeeds refGranted : Bool) :
    (decoderInitAlone s id deviceId succeeds refGranted).decoders other = s.decoders other := by
  unfold decoderInitAlone
  dsimp only
  rw [decoderInitNext_others apart, decoderInitNext_others apart, decoderInitNext_others apart,
    decoderInit_others apart]

theorem decoderDestroyAlone_others (apart : other ≠ id) :
    (decoderDestroyAlone s id).decoders other = s.decoders other := by
  unfold decoderDestroyAlone
  rw [decoderDestroy_others apart, decoderDestroy_others apart]

theorem decoderInitAlone_sound (sound : Sound s) (id : Nat) (deviceId : Int)
    (succeeds refGranted : Bool) : Sound (decoderInitAlone s id deviceId succeeds refGranted) :=
  decoderInitNext_sound (decoderInitNext_sound (decoderInitNext_sound
    (decoderInit_sound sound id true deviceId refGranted) id succeeds refGranted) id succeeds
    refGranted) id succeeds refGranted

theorem decoderDestroyAlone_sound (sound : Sound s) (id : Nat) : Sound (decoderDestroyAlone s id) :=
  decoderDestroy_sound (decoderDestroy_sound sound id) id

/-- A decoder of another backend has no part in the shared device. -/
theorem decoderInit_plain (sound : Sound s) (fresh : (s.decoders id).stage = .fresh)
    (deviceId : Int) (refGranted : Bool) :
    let after := decoderInit s id false deviceId refGranted
    (after.decoders id).stage = .ready ∧ (after.decoders id).usesShared = false ∧
      after.shared = s.shared := by
  have plain := sound.decoders id
  simp only [State.Valid, fresh] at plain
  simp [decoderInit, fresh, State.setStage, plain.2.1, State.shared]

/-- A decoder that is refused leaves the shared device as it was; one that gets it is one user
more, of the device that was shared if there was one. -/
theorem decoderInitAlone_cases (sound : Sound s) (fresh : (s.decoders id).stage = .fresh)
    (deviceId : Int) (succeeds refGranted : Bool) :
    let after := decoderInitAlone s id deviceId succeeds refGranted
    (after.decoders id).stage = .ready ∧
      (after.decoders id).usesShared = grants s.shared deviceId succeeds refGranted ∧
      (grants s.shared deviceId succeeds refGranted = false → after.shared = s.shared) ∧
      (grants s.shared deviceId succeeds refGranted = true →
        after.users = s.users + 1 ∧ (s.master.isSome → after.shared = s.shared)) := by
  intro after
  cases master : s.master with
  | some context =>
    by_cases same : s.deviceId = deviceId
    · cases refGranted with
      | true =>
        simp [after, decoderInitAlone, decoderInit, fresh, acquireSharedCudaDevice, master, same,
          State.use, decoderInitNext, Decoder.acquire, grants, State.shared]
      | false =>
        simp [after, decoderInitAlone, decoderInit, fresh, acquireSharedCudaDevice, master, same,
          State.giveUp, State.setStage, decoderInitNext, grants, State.shared]
    · simp [after, decoderInitAlone, decoderInit, fresh, acquireSharedCudaDevice, master, same,
        State.giveUp, State.setStage, decoderInitNext, grants, State.shared]
  | none =>
    have unused := sound.unused master
    cases succeeds with
    | false =>
      simp [after, decoderInitAlone, decoderInit, fresh, acquireSharedCudaDevice, master,
        State.giveUp, State.setStage, decoderInitNext, hwdeviceCtxCreate, grants, State.shared]
    | true =>
      cases refGranted with
      | false =>
        simp [after, decoderInitAlone, decoderInit, fresh, acquireSharedCudaDevice, master,
          State.giveUp, State.setStage, decoderInitNext, hwdeviceCtxCreate, installCreated,
          State.dropUnused, unused, grants, State.shared]
      | true =>
        simp [after, decoderInitAlone, decoderInit, fresh, acquireSharedCudaDevice, master,
          State.use, State.setStage, decoderInitNext, hwdeviceCtxCreate, installCreated,
          Decoder.acquire, unused, grants, State.shared]

/-- A decoder without a share only goes; with the last share the device goes too. -/
theorem decoderDestroyAlone_cases (sound : Sound s) (ready : (s.decoders id).stage = .ready) :
    let after := decoderDestroyAlone s id
    (after.decoders id).stage = .destroyed ∧
      after.shared = if (s.decoders id).usesShared ∧ s.users = 1 then none else s.shared := by
  intro after
  have valid := sound.decoders id
  simp only [State.Valid, ready] at valid
  cases shared : (s.decoders id).usesShared with
  | false =>
    have gone : after = s.put id {s.decoders id with hwDevice := none, stage := .destroyed} := by
      simp [after, decoderDestroyAlone, decoderDestroy, ready, shared]
    rw [gone]
    simp [State.shared]
  | true =>
    have held : (s.decoders id).holds = true := by
      rcases valid with holding | plain
      · exact holding.held
      · simp [plain.2.1] at shared
    have present : s.master.isSome := by
      obtain ⟨context, master, -⟩ := sound.counted.shared id held
      simp [master]
    have users := sound.master.mp present
    have gone : after = State.dropUnused {s.put id (Decoder.release
        {s.decoders id with hwDevice := none, stage := .releasing}) with users := s.users - 1} := by
      simp [after, decoderDestroyAlone, decoderDestroy, ready, shared, releaseSharedCudaDevice,
        State.put]
    rw [gone]
    refine ⟨by simp [dropUnused_decoders, State.put, Decoder.release], ?_⟩
    by_cases last : s.users = 1
    · simp [State.dropUnused, last, present, State.shared]
    · have more : s.users - 1 ≠ 0 := by omega
      simp [State.dropUnused, last, more, State.shared]

theorem shared_eq_none : s.shared = none ↔ s.master = none := Option.map_eq_none_iff

/-- A decoder that is destroyed as soon as it is there leaves no trace in the shared device. -/
theorem decoderDestroyAlone_init (sound : Sound s) (fresh : (s.decoders id).stage = .fresh)
    (deviceId : Int) (succeeds refGranted : Bool) :
    (decoderDestroyAlone (decoderInitAlone s id deviceId succeeds refGranted) id).shared =
      s.shared := by
  obtain ⟨ready, uses, refused, granted⟩ :=
    decoderInitAlone_cases sound fresh deviceId succeeds refGranted
  obtain ⟨-, left⟩ :=
    decoderDestroyAlone_cases (decoderInitAlone_sound sound id deviceId succeeds refGranted) ready
  rw [left, uses]
  cases outcome : grants s.shared deviceId succeeds refGranted with
  | false => simpa using refused outcome
  | true =>
    obtain ⟨users, kept⟩ := granted outcome
    rw [users]
    cases master : s.master with
    | none => simp [sound.unused master, shared_eq_none.mpr master]
    | some context =>
      have used := sound.present master
      simpa [used] using kept (by simp [master])

end StreamRelay.Server.Cuda
