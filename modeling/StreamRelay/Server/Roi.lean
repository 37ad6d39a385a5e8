import Mathlib.Data.Set.Prod
import Mathlib.Order.Interval.Set.Defs
import StreamRelay.Buffer
import StreamRelay.Checked
import StreamRelay.Server.Request

/-! Resolving and cropping a rectangle in the machine's integers and memory. A run without
a result has overflowed one or left the bytes of the image or of the block it fills; with
the sizes of an image there is none, and the rectangle is what both have in common. -/
namespace StreamRelay.Server.Roi
open Buffer Checked

variable {Picture : Type*}

/-- An inner `none` is the result -1. -/
def resolveBgrRoi (frame : BgrFrame Picture) (req : RoiRequest) : Option (Option ResolvedRoi) :=
  if frame.width ≤ 0 || frame.height ≤ 0 then some none
  else do
    let needed ← int32 (frame.width * 3)
    if frame.image.stride < needed then some none
    else if !req.requested then
      some (some ⟨0, 0, frame.width, frame.height, frame.width, frame.height, false⟩)
    else if req.w ≤ 0 || req.h ≤ 0 then some none
    else
      let x := req.x
      let y := req.y
      let right ← int64 (x + req.w)
      let bottom ← int64 (y + req.h)
      let x := if x < 0 then 0 else x
      let y := if y < 0 then 0 else y
      let right := if right > frame.width then frame.width else right
      let bottom := if bottom > frame.height then frame.height else bottom
      if right ≤ x || bottom ≤ y then some none
      else
        let w ← int64 (right - x)
        let h ← int64 (bottom - y)
        let x ← int32 x
        let y ← int32 y
        let w ← int32 w
        let h ← int32 h
        some (some ⟨x, y, w, h, frame.width, frame.height,
          !(x = 0 && y = 0 && w = frame.width && h = frame.height)⟩)

/-- One row of the copying loop. -/
def cropRow (src : Image) (roi : ResolvedRoi) (dstStride bgrSz : Nat) (bgr : Memory) (row : Nat) :
    Option Memory := do
  let line ← int32 (roi.y + row)
  let line ← size64 line
  let stride ← size64 src.stride
  let skipped ← size64 (line * stride)
  let x ← size64 roi.x
  let columns ← size64 (x * 3)
  let source ← size64 (skipped + columns)
  let target ← size64 (row * dstStride)
  memcpy bgrSz bgr target src.bgr source dstStride

/-- crop_bgr_frame up to the new frame. `malloc` is the memory that is granted, with the
bytes it happens to hold, and `calloc` says whether there is memory for the frame. -/
def cropImage (src : BgrFrame Picture) (roi : ResolvedRoi) (malloc : Option Memory) (calloc : Bool) :
    Option (Option Image) :=
  if roi.w ≤ 0 || roi.h ≤ 0 then some none
  else do
    let needed ← int32 (src.width * 3)
    if src.image.stride < needed then some none
    else
      let dstStride ← int32 (roi.w * 3)
      let rowSz ← size64 dstStride
      let bgrSz ← size64 (rowSz * roi.h)
      match malloc with
      | none => some none
      | some fresh =>
        let bgr ← (List.range roi.h.toNat).foldlM (cropRow src.image roi rowSz bgrSz) fresh
        if calloc then some (some ⟨dstStride, contents bgrSz bgr⟩) else some none

def cropBgrFrame (src : BgrFrame Picture) (roi : ResolvedRoi) (malloc : Option Memory)
    (calloc : Bool) : Option (Option (BgrFrame Picture)) :=
  (cropImage src roi malloc calloc).map fun image => image.map fun image =>
    {src with
      width := roi.w, height := roi.h, image := image
      sourceWidth := roi.sourceWidth, sourceHeight := roi.sourceHeight, roiX := roi.x, roiY := roi.y}

/-- The sizes of an image; the fields of the frame are 32-bit integers. -/
structure Sized (frame : BgrFrame Picture) : Prop where
  width : 1 ≤ frame.width
  height : 1 ≤ frame.height ∧ frame.height ≤ intMax
  stride : 3 * frame.width ≤ frame.image.stride ∧ frame.image.stride ≤ intMax
  bgr : (frame.image.bgr.length : Int) = frame.image.stride * frame.height

/-- The pixels of a rectangle. -/
def area (x y w h : Int) : Set (Int × Int) := Set.Ico x (x + w) ×ˢ Set.Ico y (y + h)

/-- A byte of a pixel. -/
def channel (image : Image) (i j k : Nat) : Option UInt8 :=
  image.bgr[j * image.stride.toNat + 3 * i + k]?

/-- The rectangle is what the request and the frame have in common. -/
structure Resolved (frame : BgrFrame Picture) (request : Set (Int × Int)) (roi : ResolvedRoi) :
    Prop where
  area : area roi.x roi.y roi.w roi.h = request ∩ Roi.area 0 0 frame.width frame.height
  source : roi.sourceWidth = frame.width ∧ roi.sourceHeight = frame.height
  applied : roi.applied = false ↔
    request ∩ Roi.area 0 0 frame.width frame.height = Roi.area 0 0 frame.width frame.height

/-- The pixels of the rectangle, and nothing behind them. -/
structure Cropped (src : BgrFrame Picture) (roi : ResolvedRoi) (dst : BgrFrame Picture) : Prop where
  size : dst.width = roi.w ∧ dst.height = roi.h ∧ dst.image.stride = 3 * roi.w
  length : (dst.image.bgr.length : Int) = 3 * roi.w * roi.h
  origin : dst.roiX = roi.x ∧ dst.roiY = roi.y
  pixels : ∀ i j k : Nat, (i : Int) < roi.w → (j : Int) < roi.h → k < 3 →
    ∃ byte, channel dst.image i j k = some byte ∧
      channel src.image (roi.x.toNat + i) (roi.y.toNat + j) k = some byte

/-- The integers of a request are of 32 bits. -/
structure Ints (req : RoiRequest) : Prop where
  x : intMin ≤ req.x ∧ req.x ≤ intMax
  y : intMin ≤ req.y ∧ req.y ≤ intMax
  w : intMin ≤ req.w ∧ req.w ≤ intMax
  h : intMin ≤ req.h ∧ req.h ≤ intMax

variable {frame : BgrFrame Picture} {req : RoiRequest} {roi : ResolvedRoi}

/-- Resolving in the machine's integers is resolving. -/
theorem resolveBgrRoi_eq (sized : Sized frame) (ints : Ints req) :
    resolveBgrRoi frame req = some (Server.resolveBgrRoi frame req) := by
  have width := sized.width
  obtain ⟨height, high⟩ := sized.height
  obtain ⟨stride, wide⟩ := sized.stride
  obtain ⟨⟨xLow, xHigh⟩, ⟨yLow, yHigh⟩, ⟨wLow, wHigh⟩, ⟨hLow, hHigh⟩⟩ := ints
  simp only [intMin, intMax] at *
  have kept : ¬ (frame.width ≤ 0 || frame.height ≤ 0 ||
      frame.image.stride < frame.width * 3) = true := by
    simp only [Bool.or_eq_true, decide_eq_true_eq]
    omega
  rw [Server.resolveBgrRoi, if_neg kept, resolveBgrRoi, if_neg (by simp; omega)]
  refine (proceed (int32_some (by omega) (by omega)) _).trans ?_
  rw [if_neg (by omega)]
  split
  · rfl
  · split
    · rfl
    · next positive =>
      simp only [Bool.or_eq_true, decide_eq_true_eq, not_or, Int.not_le] at positive
      refine (proceed (int64_some (by omega) (by omega)) _).trans ?_
      refine (proceed (int64_some (by omega) (by omega)) _).trans ?_
      have left (a : Int) : (if a < 0 then 0 else a) = max a 0 := by omega
      have right (a b : Int) : (if a > b then b else a) = min a b := by omega
      simp only [left, right]
      split
      · rfl
      · next overlap =>
        simp only [Bool.or_eq_true, decide_eq_true_eq, not_or, Int.not_le] at overlap
        refine (proceed (int64_some (by omega) (by omega)) _).trans ?_
        refine (proceed (int64_some (by omega) (by omega)) _).trans ?_
        refine (proceed (int32_some (by omega) (by omega)) _).trans ?_
        refine (proceed (int32_some (by omega) (by omega)) _).trans ?_
        refine (proceed (int32_some (by omega) (by omega)) _).trans ?_
        exact proceed (int32_some (by omega) (by omega)) _

/-- A rectangle of pixels of the frame. -/
structure Inside (frame : BgrFrame Picture) (roi : ResolvedRoi) : Prop where
  left : 0 ≤ roi.x
  top : 0 ≤ roi.y
  width : 0 < roi.w
  height : 0 < roi.h
  right : roi.x + roi.w ≤ frame.width
  bottom : roi.y + roi.h ≤ frame.height

section
variable {x y w h : Int}

theorem mem_area {pixel : Int × Int} :
    pixel ∈ area x y w h ↔ (x ≤ pixel.1 ∧ pixel.1 < x + w) ∧ y ≤ pixel.2 ∧ pixel.2 < y + h :=
  Iff.rfl

/-- A rectangle meets the frame when it begins before its end and ends behind its origin. -/
theorem area_inter_nonempty {width height : Int} :
    (area x y w h ∩ area 0 0 width height).Nonempty ↔
      max x 0 < min (x + w) width ∧ max y 0 < min (y + h) height := by
  constructor
  · rintro ⟨pixel, own, whole⟩
    rw [mem_area] at own whole
    omega
  · intro overlap
    refine ⟨(max x 0, max y 0), mem_area.mpr ?_, mem_area.mpr ?_⟩ <;> dsimp only <;> omega

/-- The rectangle has all pixels of the frame when it has its first and its last. -/
theorem area_inter_eq {width height : Int} (wide : 0 < width) (high : 0 < height) :
    area x y w h ∩ area 0 0 width height = area 0 0 width height ↔
      (x ≤ 0 ∧ width ≤ x + w) ∧ y ≤ 0 ∧ height ≤ y + h := by
  constructor
  · intro same
    have corners (pixel : Int × Int) (whole : pixel ∈ area 0 0 width height) :
        pixel ∈ area x y w h := Set.inter_eq_right.mp same whole
    have first := mem_area.mp (corners (0, 0) (mem_area.mpr (by dsimp only; omega)))
    have last := mem_area.mp
      (corners (width - 1, height - 1) (mem_area.mpr (by dsimp only; omega)))
    dsimp only at first last
    omega
  · intro covers
    refine Set.inter_eq_right.mpr fun pixel whole => ?_
    rw [mem_area] at whole ⊢
    omega

end

/-- Whether there is a rectangle, and which it is. -/
theorem resolveBgrRoi_requested (sized : Sized frame) (requested : req.requested = true) :
    ((Server.resolveBgrRoi frame req).isSome ↔ 0 < req.w ∧ 0 < req.h ∧
      (area req.x req.y req.w req.h ∩ area 0 0 frame.width frame.height).Nonempty) ∧
    ∀ roi, Server.resolveBgrRoi frame req = some roi →
      Resolved frame (area req.x req.y req.w req.h) roi ∧ Inside frame roi := by
  have width := sized.width
  have height := sized.height.1
  have stride := sized.stride.1
  rw [area_inter_nonempty, Server.resolveBgrRoi, if_neg (by simp; omega), if_neg (by simp [requested])]
  by_cases positive : 0 < req.w ∧ 0 < req.h
  · rw [if_neg (by simp; omega)]
    dsimp only
    by_cases overlap : max req.x 0 < min (req.x + req.w) frame.width ∧
        max req.y 0 < min (req.y + req.h) frame.height
    · rw [if_neg (by simp only [Bool.or_eq_true, decide_eq_true_eq]; omega)]
      refine ⟨iff_of_true rfl ⟨positive.1, positive.2, overlap⟩, ?_⟩
      rintro _ ⟨⟩
      refine ⟨⟨?_, ⟨rfl, rfl⟩, ?_⟩, by constructor <;> dsimp only <;> omega⟩
      · ext pixel
        rw [Set.mem_inter_iff, mem_area, mem_area, mem_area]
        dsimp only
        omega
      · rw [area_inter_eq width height]
        simp only [Bool.not_eq_false', Bool.and_eq_true, decide_eq_true_eq]
        omega
    · rw [if_pos (by simp only [Bool.or_eq_true, decide_eq_true_eq]; omega)]
      exact ⟨iff_of_false nofun fun all => overlap all.2.2, nofun⟩
  · rw [if_pos (by simp only [Bool.or_eq_true, decide_eq_true_eq]; omega)]
    exact ⟨iff_of_false nofun fun all => positive ⟨all.1, all.2.1⟩, nofun⟩

/-- Where a row of the rectangle begins in the image. -/
def rowStart (src : Image) (roi : ResolvedRoi) (row : Nat) : Nat :=
  (roi.y.toNat + row) * src.stride.toNat + roi.x.toNat * 3

/-- A row of the rectangle is part of a row of the image. -/
theorem rowStart_inside (sized : Sized frame) (inside : Inside frame roi) {row : Nat}
    (within : (row : Int) < roi.h) :
    rowStart frame.image roi row + roi.w.toNat * 3 ≤ frame.image.bgr.length ∧
      frame.image.bgr.length < 4611686018427387904 := by
  obtain ⟨left, top, width, height, right, bottom⟩ := inside
  have high := sized.height.2
  obtain ⟨stride, wide⟩ := sized.stride
  have length : frame.image.bgr.length = frame.image.stride.toNat * frame.height.toNat := by
    have bytes := sized.bgr
    rw [← Int.toNat_of_nonneg (show 0 ≤ frame.image.stride by omega),
      ← Int.toNat_of_nonneg (show 0 ≤ frame.height by omega)] at bytes
    exact_mod_cast bytes
  simp only [intMax] at high wide
  have rows : (roi.y.toNat + row + 1) * frame.image.stride.toNat ≤ frame.image.bgr.length := by
    rw [length, Nat.mul_comm]
    exact Nat.mul_le_mul_left _ (by omega)
  constructor
  · rw [Nat.succ_mul] at rows
    unfold rowStart
    omega
  · rw [length]
    calc frame.image.stride.toNat * frame.height.toNat ≤ 2147483647 * 2147483647 :=
          Nat.mul_le_mul (by omega) (by omega)
      _ < 4611686018427387904 := by decide

theorem cropRow_eq (sized : Sized frame) (inside : Inside frame roi) {row : Nat}
    (within : (row : Int) < roi.h) (bgr : Memory) :
    cropRow frame.image roi (roi.w.toNat * 3) (roi.w.toNat * 3 * roi.h.toNat) bgr row =
      some (overlay (row * (roi.w.toNat * 3)) (roi.w.toNat * 3)
        (fun i => frame.image.bgr.getD (rowStart frame.image roi row + i) 0) bgr) := by
  obtain ⟨room, small⟩ := rowStart_inside sized inside within
  obtain ⟨left, top, width, height, right, bottom⟩ := inside
  have high := sized.height.2
  obtain ⟨stride, wide⟩ := sized.stride
  simp only [intMax] at high wide
  have start : rowStart frame.image roi row =
      (roi.y + row).toNat * frame.image.stride.toNat + roi.x.toNat * 3 := by
    rw [rowStart, show roi.y.toNat + row = (roi.y + row).toNat by omega]
  have target : (row + 1) * (roi.w.toNat * 3) ≤ roi.w.toNat * 3 * roi.h.toNat := by
    rw [Nat.mul_comm]
    exact Nat.mul_le_mul_left _ (by omega)
  have block : row * (roi.w.toNat * 3) ≤ 2147483647 * 2147483647 :=
    Nat.mul_le_mul (by omega) (by omega)
  rw [start] at room
  rw [Nat.succ_mul] at target
  rw [start]
  unfold cropRow
  refine (proceed (int32_some (by omega) (by omega)) _).trans ?_
  refine (proceed (size64_some (by omega) (by omega)) _).trans ?_
  refine (proceed (size64_some (by omega) (by omega)) _).trans ?_
  refine (proceed (size64_nat (n := (roi.y + row).toNat * frame.image.stride.toNat) (by omega)) _).trans ?_
  refine (proceed (size64_some (by omega) (by omega)) _).trans ?_
  refine (proceed (size64_nat (n := roi.x.toNat * 3) (by omega)) _).trans ?_
  refine (proceed (size64_nat (n := _ + _) (by omega)) _).trans ?_
  refine (proceed (size64_nat (n := row * (roi.w.toNat * 3)) (by omega)) _).trans ?_
  exact if_pos ⟨target, room⟩

/-- The rows that are done are those of the rectangle. -/
theorem cropRows_eq (sized : Sized frame) (inside : Inside frame roi) (rows : Nat)
    (within : (rows : Int) ≤ roi.h) (fresh : Memory) :
    ∃ bgr, (List.range rows).foldlM
        (cropRow frame.image roi (roi.w.toNat * 3) (roi.w.toNat * 3 * roi.h.toNat)) fresh = some bgr ∧
      contents (rows * (roi.w.toNat * 3)) bgr = (List.range rows).flatMap fun row =>
        (frame.image.bgr.drop (rowStart frame.image roi row)).take (roi.w.toNat * 3) := by
  induction rows with
  | zero => exact ⟨fresh, rfl, by rw [Nat.zero_mul]; rfl⟩
  | succ rows ih =>
    obtain ⟨bgr, done, same⟩ := ih (by omega)
    have below : (rows : Int) < roi.h := by omega
    have row := cropRow_eq sized inside below bgr
    refine ⟨overlay (rows * (roi.w.toNat * 3)) (roi.w.toNat * 3)
      (fun i => frame.image.bgr.getD (rowStart frame.image roi rows + i) 0) bgr, ?_, ?_⟩
    · rw [List.range_succ, List.foldlM_append]
      refine (proceed done _).trans ?_
      rw [List.foldlM_cons, row]
      rfl
    · rw [Nat.succ_mul, contents_append, same, List.range_succ, List.flatMap_append,
        List.flatMap_singleton, contents_slice _ _ _ (rowStart_inside sized inside below).1]

/-- Cropping in the machine's integers and memory is cropping. -/
theorem cropBgrFrame_eq (sized : Sized frame) (inside : Inside frame roi) (malloc : Option Memory)
    (calloc : Bool) :
    cropBgrFrame frame roi malloc calloc =
      some (Server.cropBgrFrame (malloc.isSome && calloc) frame roi) := by
  have ⟨left, top, width, height, right, bottom⟩ := inside
  have high := sized.height.2
  obtain ⟨stride, wide⟩ := sized.stride
  simp only [intMax] at high wide
  have size : (roi.w * 3).toNat * roi.h = ((roi.w.toNat * 3 * roi.h.toNat : Nat) : Int) := by
    rw [Nat.cast_mul, Int.toNat_of_nonneg (show 0 ≤ roi.h by omega),
      show (roi.w * 3).toNat = roi.w.toNat * 3 by omega]
  have small : roi.w.toNat * 3 * roi.h.toNat ≤ 2147483647 * 2147483647 :=
    Nat.mul_le_mul (by omega) (by omega)
  have image : cropImage frame roi malloc calloc =
      some (if malloc.isSome && calloc then
        some ⟨roi.w * 3, cropRows frame.image roi⟩ else none) := by
    rw [cropImage, if_neg (by simp; omega)]
    refine (proceed (int32_some (by omega) (by omega)) _).trans ?_
    rw [if_neg (by omega)]
    refine (proceed (int32_some (by omega) (by omega)) _).trans ?_
    refine (proceed (size64_some (by omega) (by omega)) _).trans ?_
    rw [size]
    refine (proceed (size64_nat (by omega)) _).trans ?_
    cases malloc with
    | none => rfl
    | some fresh =>
      obtain ⟨bgr, done, same⟩ := cropRows_eq sized inside roi.h.toNat (by omega) fresh
      dsimp only
      rw [show (roi.w * 3).toNat = roi.w.toNat * 3 by omega]
      refine (proceed done _).trans ?_
      rw [Nat.mul_comm (roi.w.toNat * 3), same]
      cases calloc <;> rfl
  have allowed : (roi.w ≤ 0 || roi.h ≤ 0 || frame.image.stride < frame.width * 3) = false := by
    simp only [Bool.or_eq_false_iff, decide_eq_false_iff_not]
    omega
  rw [cropBgrFrame, image, Server.cropBgrFrame, allowed]
  cases malloc.isSome && calloc <;> rfl

/-- What the rows of the rectangle have at each place. -/
theorem cropRows_get (sized : Sized frame) (inside : Inside frame roi) {i j k : Nat}
    (column : (i : Int) < roi.w) (row : (j : Int) < roi.h) (byte : k < 3) :
    (cropRows frame.image roi)[j * (roi.w.toNat * 3) + (3 * i + k)]? =
      frame.image.bgr[rowStart frame.image roi j + (3 * i + k)]? := by
  have even : ∀ row < roi.h.toNat,
      ((frame.image.bgr.drop (rowStart frame.image roi row)).take (roi.w.toNat * 3)).length =
        roi.w.toNat * 3 := by
    intro row below
    have room := (rowStart_inside sized inside (show (row : Int) < roi.h by omega)).1
    rw [List.length_take, List.length_drop]
    omega
  refine (flatMap_blocks _ _ even (by omega) (by omega)).trans ?_
  rw [List.getElem?_take_of_lt (by omega), List.getElem?_drop]

theorem cropRows_length (sized : Sized frame) (inside : Inside frame roi) :
    (cropRows frame.image roi).length = roi.h.toNat * (roi.w.toNat * 3) := by
  obtain ⟨bgr, -, same⟩ := cropRows_eq sized inside roi.h.toNat
    (by have := inside.height; omega) fun _ => 0
  rw [show cropRows frame.image roi = _ from same.symm, contents, List.length_map, List.length_range]

/-- The frame that cropping makes has the pixels of the rectangle. -/
theorem cropBgrFrame_cropped (sized : Sized frame) (inside : Inside frame roi) {alloc : Bool}
    {dst : BgrFrame Picture} (made : Server.cropBgrFrame alloc frame roi = some dst) :
    Cropped frame roi dst := by
  have ⟨left, top, width, height, right, bottom⟩ := inside
  have stride := sized.stride.1
  unfold Server.cropBgrFrame at made
  split at made
  · cases made
  · cases made
    refine ⟨⟨rfl, rfl, by dsimp only; omega⟩, ?_, ⟨rfl, rfl⟩, fun i j k column row byte => ?_⟩
    · rw [cropRows_length sized inside, Nat.cast_mul, Int.toNat_of_nonneg (by omega), Nat.cast_mul,
        Int.toNat_of_nonneg (by omega), Int.mul_comm, Int.mul_comm roi.w]
      rfl
    · have room := (rowStart_inside sized inside row).1
      have start : (roi.y.toNat + j) * frame.image.stride.toNat + 3 * (roi.x.toNat + i) + k =
          rowStart frame.image roi j + (3 * i + k) := by
        unfold rowStart
        omega
      have within : rowStart frame.image roi j + (3 * i + k) < frame.image.bgr.length := by omega
      refine ⟨frame.image.bgr[rowStart frame.image roi j + (3 * i + k)], ?_, ?_⟩
      · rw [channel, show (roi.w * 3).toNat = roi.w.toNat * 3 by omega, Nat.add_assoc,
          cropRows_get sized inside column row byte, List.getElem?_eq_getElem within]
      · rw [channel, start, List.getElem?_eq_getElem within]

theorem ints_rect (requested : Bool) (x y w h : Int32) :
    Ints ⟨requested, x.toInt, y.toInt, w.toInt, h.toInt⟩ := by
  have bounds (a : Int32) : intMin ≤ a.toInt ∧ a.toInt ≤ intMax :=
    ⟨a.le_toInt, Int.le_of_lt_add_one a.toInt_lt⟩
  exact ⟨bounds x, bounds y, bounds w, bounds h⟩

section Parse
variable {text json : Bytes} {v : Int}

theorem readInt_ints (found : readInt text = some v) : intMin ≤ v ∧ v ≤ intMax := by
  unfold readInt at found
  dsimp only at found
  split at found
  · cases found
  · obtain ⟨fits, same⟩ := Option.ite_none_left_eq_some.mp found
    obtain rfl := Option.some.inj same
    simpa only [Bool.or_eq_true, decide_eq_true_eq, not_or, Int.not_lt, gt_iff_lt] using fits

theorem parseJsonIntKey_ints {key : Bytes} (found : parseJsonIntKey key json = some v) :
    intMin ≤ v ∧ v ≤ intMax := by
  unfold parseJsonIntKey at found
  split at found
  · cases found
  · split at found
    · exact readInt_ints found
    · cases found

theorem parseRoiObject_ints (found : parseRoiObject text = some req) : Ints req := by
  have either {key other : Bytes} {v : Int}
      (found : (parseJsonIntKey key text).or (parseJsonIntKey other text) = some v) :
      intMin ≤ v ∧ v ≤ intMax := by
    rcases Option.or_eq_some_iff.mp found with first | ⟨-, second⟩
    exacts [parseJsonIntKey_ints first, parseJsonIntKey_ints second]
  unfold parseRoiObject at found
  split at found
  · next x y foundX foundY =>
    split at found
    · next w h foundW foundH =>
      cases found
      exact ⟨parseJsonIntKey_ints foundX, parseJsonIntKey_ints foundY, either foundW, either foundH⟩
    · cases found
  · cases found

theorem parseRoiFromJson_ints (parsed : parseRoiFromJson json = some req) : Ints req := by
  have zero : Ints .none := by constructor <;> decide
  unfold parseRoiFromJson at parsed
  split at parsed
  · cases parsed
    exact zero
  · split at parsed
    · dsimp only at parsed
      split at parsed
      · cases parsed
        exact zero
      · split at parsed
        · obtain ⟨inside, -, object⟩ := Option.bind_eq_some_iff.mp parsed
          exact parseRoiObject_ints object
        · cases parsed
    · cases parsed

/-- No request that the bridge parses makes resolving overflow. -/
theorem resolveBgrRoi_parsed (sized : Sized frame) (parsed : parseRoiFromJson json = some req) :
    resolveBgrRoi frame req = some (Server.resolveBgrRoi frame req) :=
  resolveBgrRoi_eq sized (parseRoiFromJson_ints parsed)

end Parse

/-- A rectangle is resolved exactly if it has pixels of the frame, to these; they are all
that is read, and what a new frame has. -/
theorem resolve_crop (sized : Sized frame) (x y w h : Int32) :
    ∃ resolved, resolveBgrRoi frame ⟨true, x.toInt, y.toInt, w.toInt, h.toInt⟩ = some resolved ∧
      (resolved.isSome ↔ 0 < w.toInt ∧ 0 < h.toInt ∧
        (area x.toInt y.toInt w.toInt h.toInt ∩ area 0 0 frame.width frame.height).Nonempty) ∧
      ∀ roi, resolved = some roi →
        Resolved frame (area x.toInt y.toInt w.toInt h.toInt) roi ∧
        ∀ malloc calloc, ∃ made, cropBgrFrame frame roi malloc calloc = some made ∧
          (made.isSome ↔ malloc.isSome ∧ calloc = true) ∧
          ∀ dst, made = some dst → Cropped frame roi dst := by
  have rect : (RoiRequest.mk true x.toInt y.toInt w.toInt h.toInt).requested = true := rfl
  obtain ⟨succeeds, found⟩ := resolveBgrRoi_requested sized rect
  refine ⟨_, resolveBgrRoi_eq sized (ints_rect true x y w h), succeeds, fun roi same => ?_⟩
  obtain ⟨resolved, inside⟩ := found roi same
  refine ⟨resolved, fun malloc calloc => ⟨_, cropBgrFrame_eq sized inside malloc calloc, ?_,
    fun dst => cropBgrFrame_cropped sized inside⟩⟩
  have allowed : (roi.w ≤ 0 || roi.h ≤ 0 || frame.image.stride < frame.width * 3) = false := by
    have := inside.width
    have := inside.height
    have := sized.stride.1
    simp only [Bool.or_eq_false_iff, decide_eq_false_iff_not]
    omega
  rw [Server.cropBgrFrame, allowed]
  cases malloc <;> cases calloc <;> simp

/-- Two rows of two pixels, each row with two more bytes. -/
def paddedFrame : BgrFrame Unit where
  streamId := 1
  width := 2
  height := 2
  image := ⟨8, (List.range 16).map UInt8.ofNat⟩
  sourceWidth := 2
  sourceHeight := 2
  roiX := 0
  roiY := 0
  pts := 0
  keyFrame := true
  monoNs := 0
  colorSpace := 1
  colorRange := 0
  sourceFormat := .nv12
  source := ⟨⟨2, 2, .nv12, true, ()⟩, 0, 0⟩

theorem paddedFrame_sized : Sized paddedFrame := by
  constructor <;> decide

/-- A rectangle from above the frame to far behind it has one pixel of it. -/
theorem resolve_crop_padded :
    resolveBgrRoi paddedFrame ⟨true, 1, -1, 2147483647, 2⟩ = some (some ⟨1, 0, 1, 1, 2, 2, true⟩) ∧
      ∀ malloc calloc, ∃ made, cropBgrFrame paddedFrame ⟨1, 0, 1, 1, 2, 2, true⟩ malloc calloc =
        some made ∧ ∀ dst, made = some dst → Cropped paddedFrame ⟨1, 0, 1, 1, 2, 2, true⟩ dst := by
  obtain ⟨resolved, same, -, found⟩ := resolve_crop paddedFrame_sized 1 (-1) 2147483647 2
  have resolves : resolveBgrRoi paddedFrame ⟨true, 1, -1, 2147483647, 2⟩ =
      some (some ⟨1, 0, 1, 1, 2, 2, true⟩) := by decide
  obtain rfl := Option.some.inj (same.symm.trans resolves)
  refine ⟨resolves, fun malloc calloc => ?_⟩
  obtain ⟨made, crops, -, cropped⟩ := (found _ rfl).2 malloc calloc
  exact ⟨made, crops, cropped⟩

end StreamRelay.Server.Roi
