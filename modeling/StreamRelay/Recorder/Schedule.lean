import StreamRelay.Phase
import StreamRelay.Recorder.Idr

/-! The times of periodic requests. Each stream has a phase of the interval, and both loops
that move its next time along end at the least time of the phase they look for. -/
namespace StreamRelay.Recorder

/-- The interval of periodic requests. -/
def Config.intervalNs (cfg : Config) : Nat := cfg.idrIntervalSec.toNat * 1000000000

def Config.phaseNs (cfg : Config) (stream : Nat) : Nat :=
  Phase.offset cfg.intervalNs cfg.maxStreams (stream - 1)

/-- The 64-bit sums and products of the schedule do not wrap around at this time. -/
structure Fits (cfg : Config) (stream : Nat) (nowNs : UInt64) : Prop where
  offset : (stream - 1) * cfg.intervalNs < 2 ^ 64
  next : nowNs.toNat + 2000000000 + cfg.intervalNs < 2 ^ 64

section Loops
variable {intervalNs bound nextNs : UInt64}

theorem add_toNat {a b : UInt64} (fits : a.toNat + b.toNat < 2 ^ 64) :
    (a + b).toNat = a.toNat + b.toNat := by
  rw [UInt64.toNat_add, Nat.mod_eq_of_lt fits]

/-- The loop steps over less than an interval, in which the first time of the phase is. -/
theorem raiseWhileBelow_some (positive : 0 < intervalNs.toNat)
    (fits : bound.toNat + intervalNs.toNat ≤ 2 ^ 64) (fuel : Nat) (nextNs : UInt64)
    (enough : bound.toNat - nextNs.toNat < fuel) :
    ∃ t, raiseWhileBelow intervalNs bound fuel nextNs = some t ∧
      t.toNat ≡ nextNs.toNat [MOD intervalNs.toNat] ∧ bound.toNat ≤ t.toNat ∧
      (t = nextNs ∨ t.toNat < bound.toNat + intervalNs.toNat) := by
  induction fuel generalizing nextNs with
  | zero => exact absurd enough (Nat.not_lt_zero _)
  | succ fuel ih =>
    rw [raiseWhileBelow]
    by_cases below : nextNs < bound
    · have less : nextNs.toNat < bound.toNat := UInt64.lt_iff_toNat_lt.mp below
      have raised : (nextNs + intervalNs).toNat = nextNs.toNat + intervalNs.toNat :=
        add_toNat (by omega)
      obtain ⟨t, found, phase, reached, near⟩ := ih (nextNs + intervalNs) (by omega)
      refine ⟨t, by rw [if_pos below, found], ?_, reached, .inr ?_⟩
      · rw [raised] at phase
        exact phase.trans (Nat.add_modEq_right ..)
      · rcases near with rfl | near
        · omega
        · exact near
    · refine ⟨nextNs, if_neg below, .rfl, ?_, .inl rfl⟩
      exact Nat.not_lt.mp fun less => below (UInt64.lt_iff_toNat_lt.mpr less)

theorem raisePast_some {nowNs : UInt64} (positive : 0 < intervalNs.toNat)
    (fits : nowNs.toNat + intervalNs.toNat < 2 ^ 64) (fuel : Nat) (nextNs : UInt64)
    (due : nextNs.toNat ≤ nowNs.toNat) (enough : nowNs.toNat - nextNs.toNat < fuel) :
    ∃ t, raisePast intervalNs nowNs fuel nextNs = some t ∧
      t.toNat ≡ nextNs.toNat [MOD intervalNs.toNat] ∧ nowNs.toNat < t.toNat ∧
      t.toNat ≤ nowNs.toNat + intervalNs.toNat := by
  induction fuel generalizing nextNs with
  | zero => exact absurd enough (Nat.not_lt_zero _)
  | succ fuel ih =>
    have raised : (nextNs + intervalNs).toNat = nextNs.toNat + intervalNs.toNat :=
      add_toNat (by omega)
    have phase : (nextNs + intervalNs).toNat ≡ nextNs.toNat [MOD intervalNs.toNat] := by
      rw [raised]
      exact Nat.add_modEq_right ..
    rw [raisePast]
    by_cases again : nextNs + intervalNs ≤ nowNs
    · have still : (nextNs + intervalNs).toNat ≤ nowNs.toNat := UInt64.le_iff_toNat_le.mp again
      obtain ⟨t, found, same, past, near⟩ := ih (nextNs + intervalNs) still (by omega)
      exact ⟨t, by rw [if_pos again, found], same.trans phase, past, near⟩
    · refine ⟨nextNs + intervalNs, if_neg again, phase, ?_, by omega⟩
      exact Nat.not_le.mp fun still => again (UInt64.le_iff_toNat_le.mpr still)

end Loops

variable {cfg : Config} {nowNs : UInt64}

theorem intervalNs_toNat (cfg : Config) : (recorderIdrIntervalNs cfg).toNat = cfg.intervalNs := by
  have small := cfg.idrIntervalSec.toNat_lt
  simp only [recorderIdrIntervalNs, UInt64.toNat_mul, UInt32.toNat_toUInt64, UInt64.reduceToNat,
    Config.intervalNs]
  omega

theorem intervalNs_ge (on : 0 < cfg.idrIntervalSec.toNat) : 1000000000 ≤ cfg.intervalNs := by
  unfold Config.intervalNs
  omega

theorem recorderIdrIntervalNs_ne (on : 0 < cfg.idrIntervalSec.toNat) :
    recorderIdrIntervalNs cfg ≠ 0 := by
  intro zero
  have least := intervalNs_ge on
  rw [← intervalNs_toNat, zero] at least
  exact absurd least (by decide)

/-- The offset that is computed is the phase. -/
theorem recorderPeriodicIdrOffsetNs_toNat (on : 0 < cfg.idrIntervalSec.toNat) (s : RecorderStream)
    (valid : 1 ≤ s.streamId ∧ s.streamId ≤ cfg.maxStreams)
    (fits : (s.streamId - 1) * cfg.intervalNs < 2 ^ 64) :
    (recorderPeriodicIdrOffsetNs cfg s).toNat = cfg.phaseNs s.streamId := by
  have limit : cfg.maxStreams ≤ 256 := cfg.maxStreams_le
  have word {n : Nat} (few : n ≤ 256) : (UInt64.ofNat n).toNat = n :=
    UInt64.toNat_ofNat_of_lt' (Nat.lt_of_le_of_lt few (by decide))
  unfold recorderPeriodicIdrOffsetNs
  rw [if_neg (recorderIdrIntervalNs_ne on), if_pos cfg.maxStreams_pos, if_pos (by omega)]
  rw [UInt64.toNat_div, UInt64.toNat_mul, intervalNs_toNat, word (by omega), word limit,
    Nat.mod_eq_of_lt fits]
  rfl

theorem phaseNs_lt (on : 0 < cfg.idrIntervalSec.toNat) {stream : Nat}
    (valid : 1 ≤ stream ∧ stream ≤ cfg.maxStreams) : cfg.phaseNs stream < cfg.intervalNs := by
  have least := intervalNs_ge on
  exact Phase.offset_lt (by omega) (by omega)

/-- No two streams have one phase. -/
theorem phaseNs_injective (on : 0 < cfg.idrIntervalSec.toNat) {stream other : Nat}
    (valid : 1 ≤ stream ∧ stream ≤ cfg.maxStreams) (otherValid : 1 ≤ other ∧ other ≤ cfg.maxStreams)
    (same : cfg.phaseNs stream ≡ cfg.phaseNs other [MOD cfg.intervalNs]) : stream = other := by
  have least := intervalNs_ge on
  have limit : cfg.maxStreams ≤ 256 := cfg.maxStreams_le
  have equal : cfg.phaseNs stream = cfg.phaseNs other :=
    Nat.ModEq.eq_of_lt_of_lt same (phaseNs_lt on valid) (phaseNs_lt on otherValid)
  have index := Phase.offset_injective (by omega) cfg.maxStreams_pos equal
  omega

/-- The times at which the stream may next have a request. -/
def periodicTimes (cfg : Config) (stream : Nat) (nowNs : UInt64) : Set Nat :=
  {t | nowNs.toNat + 2000000000 ≤ t ∧ t ≡ cfg.phaseNs stream [MOD cfg.intervalNs]}

/-- The loop ends, with the least of these times. -/
theorem recorderNextPeriodicIdrNs_isLeast (on : 0 < cfg.idrIntervalSec.toNat) (s : RecorderStream)
    (valid : 1 ≤ s.streamId ∧ s.streamId ≤ cfg.maxStreams) (fits : Fits cfg s.streamId nowNs) :
    raiseWhileBelow (recorderIdrIntervalNs cfg) (nowNs + periodicIdrMinGapNs) counterValues
        (nowNs / recorderIdrIntervalNs cfg * recorderIdrIntervalNs cfg +
          recorderPeriodicIdrOffsetNs cfg s) = some (recorderNextPeriodicIdrNs cfg s nowNs) ∧
      IsLeast (periodicTimes cfg s.streamId nowNs) (recorderNextPeriodicIdrNs cfg s nowNs).toNat := by
  have interval := intervalNs_toNat cfg
  have positive := intervalNs_ge on
  have room := fits.next
  have offset := recorderPeriodicIdrOffsetNs_toNat on s valid fits.offset
  have inside := phaseNs_lt on valid
  have whole : nowNs.toNat / cfg.intervalNs * cfg.intervalNs ≤ nowNs.toNat := Nat.div_mul_le_self ..
  have base : (nowNs / recorderIdrIntervalNs cfg * recorderIdrIntervalNs cfg).toNat =
      nowNs.toNat / cfg.intervalNs * cfg.intervalNs := by
    rw [UInt64.toNat_mul, UInt64.toNat_div, interval, Nat.mod_eq_of_lt (by omega)]
  have first : (nowNs / recorderIdrIntervalNs cfg * recorderIdrIntervalNs cfg +
      recorderPeriodicIdrOffsetNs cfg s).toNat =
      nowNs.toNat / cfg.intervalNs * cfg.intervalNs + cfg.phaseNs s.streamId := by
    rw [add_toNat (by omega), base, offset]
  have gap : periodicIdrMinGapNs.toNat = 2000000000 := by decide
  have bound : (nowNs + periodicIdrMinGapNs).toNat = nowNs.toNat + 2000000000 := by
    rw [add_toNat (by omega), gap]
  have all := (nowNs + periodicIdrMinGapNs).toNat_lt
  have loop := @raiseWhileBelow_some (recorderIdrIntervalNs cfg) (nowNs + periodicIdrMinGapNs)
    (by omega) (by omega) counterValues
    (nowNs / recorderIdrIntervalNs cfg * recorderIdrIntervalNs cfg +
      recorderPeriodicIdrOffsetNs cfg s) (by unfold counterValues; omega)
  obtain ⟨t, found, phase, reached, near⟩ := loop
  have next : recorderNextPeriodicIdrNs cfg s nowNs = t := by
    rw [recorderNextPeriodicIdrNs, if_neg (recorderIdrIntervalNs_ne on)]
    dsimp only
    rw [found]
    rfl
  have own : t.toNat ≡ cfg.phaseNs s.streamId [MOD cfg.intervalNs] := by
    rw [first, interval] at phase
    exact phase.trans (Nat.modEq_mul_modulus_add_iff.mpr .rfl).symm
  have least : IsLeast {u | nowNs.toNat + 2000000000 ≤ u ∧
      u ≡ cfg.phaseNs s.streamId [MOD cfg.intervalNs]} t.toNat := by
    refine Phase.isLeast_times own (by omega) ?_
    rcases near with rfl | near <;> omega
  rw [next]
  exact ⟨found, least⟩

end StreamRelay.Recorder
