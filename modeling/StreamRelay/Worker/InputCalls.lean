import StreamRelay.Narrowing
import StreamRelay.Worker.ControlSocket

/-! What the arguments of a command become in the calls of the input library, whose types are
narrower. Relative moves are cut to the nearest value; a place is cut to its reference first
and then converted, and a scroll amount is only converted. -/
namespace StreamRelay.Worker
open Narrowing

/-- The reference of an axis, from the command or else the worker's. -/
def reference (own given : Int32) : Int32 := if given > 0 then given else own

/-- A place on an axis and the size of the axis, as the library gets them. -/
structure Placed (wanted size : Int32) (place axis : Int16) : Prop where
  inside : 0 ≤ place.toInt ∧ place.toInt < axis.toInt
  whole : size.toInt ≤ 32767 →
    axis.toInt = size.toInt ∧ place.toInt = (clampInt wanted 0 (size - 1)).toInt

/-- A call means what the command asks for. -/
def Meant (referenceWidth referenceHeight : Int32) (cmd : MlControlCmd) : LiCall → Prop
  | .sendMousePosition x y refW refH =>
    Placed cmd.a (reference referenceWidth cmd.c) x refW ∧
      Placed cmd.b (reference referenceHeight cmd.d) y refH
  | .sendMouseMove deltaX deltaY =>
    deltaX.toInt = saturate 32768 cmd.a.toInt ∧ deltaY.toInt = saturate 32768 cmd.b.toInt
  | .sendScroll clicks | .sendHScroll clicks =>
    clicks.toInt.sign = cmd.a.toInt.sign ∧ clicks.toInt = saturate 128 cmd.a.toInt
  | _ => True

/-- A reference of 16 bits, or one whose low digits happen to lie right. -/
def FitsAxis (wanted size : Int32) : Prop :=
  size.toInt ≤ 32767 ∨
    ((clampInt wanted 0 (size - 1)).toInt % 65536 < size.toInt % 65536 ∧ size.toInt % 65536 < 32768)

/-- An amount of 8 bits, or one whose low digits are those of the nearest such amount. -/
def FitsAmount (amount : Int32) : Prop :=
  (-128 ≤ amount.toInt ∧ amount.toInt ≤ 127) ∨ (127 < amount.toInt ∧ amount.toInt % 256 = 127) ∨
    (amount.toInt < -128 ∧ amount.toInt % 256 = 128)

/-- The arguments that are converted fit. -/
def Fits (referenceWidth referenceHeight : Int32) (cmd : MlControlCmd) : Prop :=
  (cmd.type = cmdMouseAbs → 0 < (reference referenceWidth cmd.c).toInt →
    0 < (reference referenceHeight cmd.d).toInt →
    FitsAxis cmd.a (reference referenceWidth cmd.c) ∧
      FitsAxis cmd.b (reference referenceHeight cmd.d)) ∧
  (cmd.type = cmdMouseScroll ∨ cmd.type = cmdMouseHscroll → FitsAmount cmd.a)

theorem clampShortSigned_toInt (v : Int32) :
    (clampShortSigned v).toInt = saturate 32768 v.toInt := by
  have low : (-32768 : Int32).toInt = -32768 := by decide
  have high : (32767 : Int32).toInt = 32767 := by decide
  unfold clampShortSigned
  split
  · next below =>
    rw [Int32.lt_iff_toInt_lt, low] at below
    have least : saturate 32768 v.toInt = -32768 := by
      unfold saturate
      omega
    rw [least]
    rfl
  · next above =>
    rw [Int32.lt_iff_toInt_lt, low] at above
    split
    · next beyond =>
      rw [gt_iff_lt, Int32.lt_iff_toInt_lt, high] at beyond
      have most : saturate 32768 v.toInt = 32767 := by
        unfold saturate
        omega
      rw [most]
      rfl
    · next below =>
      rw [gt_iff_lt, Int32.lt_iff_toInt_lt, high] at below
      rw [Int32.toInt_toInt16, saturate_inside 32768 (by omega) (by omega)]
      exact wrap_inside 32768 (by omega) (by omega)

/-- A place is cut to its reference. -/
theorem clampInt_place (wanted : Int32) {size : Int32} (positive : 0 < size.toInt) :
    0 ≤ (clampInt wanted 0 (size - 1)).toInt ∧ (clampInt wanted 0 (size - 1)).toInt < size.toInt := by
  have zero : (0 : Int32).toInt = 0 := rfl
  have one : (1 : Int32).toInt = 1 := rfl
  have top := size.toInt_lt
  have last : (size - 1).toInt = size.toInt - 1 := by
    rw [Int32.toInt_sub, one]
    exact Int.bmod_eq_of_le_mul_two (by omega) (by omega)
  unfold clampInt
  split
  · rw [zero]
    exact ⟨le_rfl, positive⟩
  · next above =>
    rw [Int32.lt_iff_toInt_lt, zero] at above
    split
    · rw [last]
      omega
    · next below =>
      rw [gt_iff_lt, Int32.lt_iff_toInt_lt, last] at below
      omega

theorem placed_iff (wanted : Int32) {size : Int32} (positive : 0 < size.toInt) :
    Placed wanted size (clampInt wanted 0 (size - 1)).toInt16 size.toInt16 ↔
      FitsAxis wanted size := by
  obtain ⟨least, inside⟩ := clampInt_place wanted positive
  have digits := wrap_place_iff 32768 (by decide)
    (clampInt wanted 0 (size - 1)).toInt size.toInt
  constructor
  · rintro ⟨place, -⟩
    rw [Int32.toInt_toInt16, Int32.toInt_toInt16] at place
    exact .inr (digits.mp place)
  · intro fits
    by_cases small : size.toInt ≤ 32767
    · have whole : size.toInt16.toInt = size.toInt := by
        rw [Int32.toInt_toInt16]
        exact wrap_inside 32768 (by omega) (by omega)
      have kept : (clampInt wanted 0 (size - 1)).toInt16.toInt =
          (clampInt wanted 0 (size - 1)).toInt := by
        rw [Int32.toInt_toInt16]
        exact wrap_inside 32768 (by omega) (by omega)
      refine ⟨?_, fun _ => ⟨whole, kept⟩⟩
      rw [whole, kept]
      exact ⟨least, inside⟩
    · refine ⟨?_, fun small' => absurd small' small⟩
      rw [Int32.toInt_toInt16, Int32.toInt_toInt16]
      exact digits.mpr (fits.resolve_left small)

theorem amount_iff (amount : Int32) :
    (amount.toInt8.toInt.sign = amount.toInt.sign ∧
      amount.toInt8.toInt = saturate 128 amount.toInt) ↔ FitsAmount amount := by
  have narrowed : amount.toInt8.toInt = wrap 128 amount.toInt := Int32.toInt_toInt8 amount
  have saturates : wrap 128 amount.toInt = saturate 128 amount.toInt ↔ FitsAmount amount := by
    rw [wrap_eq_saturate_iff 128 (by decide), FitsAmount]
    push_cast
    omega
  rw [narrowed, saturates]
  refine ⟨And.right, fun fits => ⟨?_, fits⟩⟩
  rw [saturates.mpr fits]
  exact saturate_sign 128 (by decide) _

section Dispatch
variable (li : LiCall → Int) (referenceWidth referenceHeight : Int32)

theorem mouseAbs_meant_iff {cmd : MlControlCmd} (payload : Bytes) (type : cmd.type = cmdMouseAbs) :
    (∀ call ∈ (dispatchCmd li referenceWidth referenceHeight cmd payload).1,
      Meant referenceWidth referenceHeight cmd call) ↔
      (0 < (reference referenceWidth cmd.c).toInt → 0 < (reference referenceHeight cmd.d).toInt →
        FitsAxis cmd.a (reference referenceWidth cmd.c) ∧
          FitsAxis cmd.b (reference referenceHeight cmd.d)) := by
  have zero : (0 : Int32).toInt = 0 := rfl
  rw [dispatchCmd, if_pos type]
  change (∀ call ∈ (if reference referenceWidth cmd.c ≤ 0 || reference referenceHeight cmd.d ≤ 0
    then ([], -1) else _).1, _) ↔ _
  by_cases width : 0 < (reference referenceWidth cmd.c).toInt
  · by_cases height : 0 < (reference referenceHeight cmd.d).toInt
    · have valid : ¬(reference referenceWidth cmd.c ≤ 0 || reference referenceHeight cmd.d ≤ 0) := by
        simp only [Bool.or_eq_true, decide_eq_true_eq, Int32.le_iff_toInt_le, zero]
        omega
      rw [if_neg valid]
      simp only [List.mem_singleton, forall_eq, Meant, width, height, true_imp_iff]
      exact and_congr (placed_iff cmd.a width) (placed_iff cmd.b height)
    · have invalid : reference referenceHeight cmd.d ≤ 0 :=
        Int32.le_iff_toInt_le.mpr (Int.not_lt.mp height)
      simp [invalid, height]
  · have invalid : reference referenceWidth cmd.c ≤ 0 :=
      Int32.le_iff_toInt_le.mpr (Int.not_lt.mp width)
    simp [invalid, width]

/-- The amount of a scroll is all that is converted without care. -/
theorem scroll_meant_iff {cmd : MlControlCmd} (payload : Bytes)
    (type : cmd.type = cmdMouseScroll ∨ cmd.type = cmdMouseHscroll) :
    (∀ call ∈ (dispatchCmd li referenceWidth referenceHeight cmd payload).1,
      Meant referenceWidth referenceHeight cmd call) ↔ FitsAmount cmd.a := by
  rw [← amount_iff]
  rcases type with type | type
  · have calls : (dispatchCmd li referenceWidth referenceHeight cmd payload).1 =
        [.sendScroll cmd.a.toInt8] := by
      simp [dispatchCmd, type, cmdMouseAbs, cmdMouseRel, cmdMouseButton, cmdMouseClick,
        cmdMouseScroll]
    simp only [calls, List.mem_singleton, forall_eq, Meant]
  · have calls : (dispatchCmd li referenceWidth referenceHeight cmd payload).1 =
        [.sendHScroll cmd.a.toInt8] := by
      simp [dispatchCmd, type, cmdMouseAbs, cmdMouseRel, cmdMouseButton, cmdMouseClick,
        cmdMouseScroll, cmdMouseHscroll]
    simp only [calls, List.mem_singleton, forall_eq, Meant]

/-- The other commands pass their moves on as near as they can. -/
theorem other_meant {cmd : MlControlCmd} (payload : Bytes) (abs : cmd.type ≠ cmdMouseAbs)
    (scroll : ¬(cmd.type = cmdMouseScroll ∨ cmd.type = cmdMouseHscroll)) :
    ∀ call ∈ (dispatchCmd li referenceWidth referenceHeight cmd payload).1,
      Meant referenceWidth referenceHeight cmd call := by
  obtain ⟨vertical, horizontal⟩ := not_or.mp scroll
  have pair (first second : LiCall)
      (meant : Meant referenceWidth referenceHeight cmd first)
      (later : Meant referenceWidth referenceHeight cmd second) :
      ∀ call ∈ (both li first second).1, Meant referenceWidth referenceHeight cmd call := by
    unfold both
    split <;> simp [meant, later]
  rw [dispatchCmd, if_neg abs, if_neg vertical, if_neg horizontal]
  split
  · simp [Meant, clampShortSigned_toInt]
  split
  · simp [Meant]
  split
  · exact pair _ _ trivial trivial
  split
  · simp [Meant]
  split
  · exact pair _ _ trivial trivial
  split
  · split
    · simp
    · split <;> simp [Meant]
  split <;> simp [Meant]

/-- Every call that a command makes means what it asks for, just when its arguments fit. -/
theorem dispatchCmd_meant_iff (cmd : MlControlCmd) (payload : Bytes) :
    (∀ call ∈ (dispatchCmd li referenceWidth referenceHeight cmd payload).1,
      Meant referenceWidth referenceHeight cmd call) ↔
      Fits referenceWidth referenceHeight cmd := by
  by_cases abs : cmd.type = cmdMouseAbs
  · rw [mouseAbs_meant_iff li referenceWidth referenceHeight payload abs, Fits, abs]
    simp [cmdMouseAbs, cmdMouseScroll, cmdMouseHscroll]
  by_cases scroll : cmd.type = cmdMouseScroll ∨ cmd.type = cmdMouseHscroll
  · rw [scroll_meant_iff li referenceWidth referenceHeight payload scroll, Fits]
    simp [abs, scroll]
  · refine iff_of_true (other_meant li referenceWidth referenceHeight payload abs scroll) ?_
    simp [Fits, abs, scroll]

end Dispatch

section Samples

def sampleScroll : MlControlCmd := ⟨mlCtrlMagic, mlCtrlVersion, cmdMouseScroll, 128, 0, 0, 0, 1⟩

/-- Scrolling up by 128 scrolls down. -/
theorem scroll_reversed : (dispatchCmd (fun _ => 0) 1920 1080 sampleScroll []).1 = [.sendScroll (-128)] ∧
    ¬∀ call ∈ (dispatchCmd (fun _ => 0) 1920 1080 sampleScroll []).1, Meant 1920 1080 sampleScroll call := by
  have calls : (dispatchCmd (fun _ => 0) 1920 1080 sampleScroll []).1 = [.sendScroll (-128)] := by
    decide
  refine ⟨calls, fun meant => ?_⟩
  rw [calls] at meant
  have sign := (meant _ (List.mem_singleton_self _)).1
  revert sign
  decide

end Samples

end StreamRelay.Worker
