import StreamRelay.Buffer
import StreamRelay.Protocol
import StreamRelay.Simd

/-! The conversion of packed VUYX frames to BGR24, eight pixels at a time where the CPU has
AVX2 and one at a time for the rest. A run without a result has overflowed an integer or
left the pixels of a row or the bytes of the image. -/
namespace StreamRelay.Server.Vuyx
open Buffer Checked Simd

structure VuyxBgrCoeffs where
  yOffset : Int
  yMul : Int
  vrMul : Int
  guMul : Int
  gvMul : Int
  buMul : Int
  deriving DecidableEq, Repr

/-- STREAM_COLORSPACE_REC_601 -/
def rec601 : UInt32 := 0

/-- STREAM_COLORSPACE_REC_709 -/
def rec709 : UInt32 := 1

/-- STREAM_COLOR_RANGE_LIMITED -/
def rangeLimited : UInt32 := 0

/-- STREAM_COLOR_RANGE_FULL -/
def rangeFull : UInt32 := 1

def vuyxBgrCoeffsFromInfo (info : Option StreamInfo) : VuyxBgrCoeffs :=
  let colorSpace := info.elim rec709 StreamInfo.colorSpace
  let colorRange := info.elim rangeLimited StreamInfo.colorRange
  if colorSpace = rec601 then
    if colorRange = rangeFull then ⟨0, 256, 359, 88, 183, 454⟩ else ⟨16, 298, 409, 100, 208, 516⟩
  else if colorRange = rangeFull then ⟨0, 256, 403, 48, 120, 475⟩
  else ⟨16, 298, 459, 55, 136, 541⟩

structure Bgr where
  b : UInt8
  g : UInt8
  r : UInt8
  deriving DecidableEq, Repr

def clampU8FromInt (value : Int) : UInt8 :=
  if value < 0 then 0 else if 255 < value then 255 else UInt8.ofNat value.toNat

/-- The body of the scalar loop for one pixel. -/
def pixel (c : VuyxBgrCoeffs) (v u y : UInt8) : Option Bgr := do
  let ySample ← int32 (y.toNat - c.yOffset)
  let du ← int32 (u.toNat - 128)
  let dv ← int32 (v.toNat - 128)
  let ySample := if ySample < 0 then 0 else ySample
  let yTerm ← int32 (c.yMul * ySample)
  let bu ← int32 (c.buMul * du)
  let b ← int32 (yTerm + bu)
  let b ← int32 (b + 128)
  let gu ← int32 (c.guMul * du)
  let gv ← int32 (c.gvMul * dv)
  let g ← int32 (yTerm - gu)
  let g ← int32 (g - gv)
  let g ← int32 (g + 128)
  let vr ← int32 (c.vrMul * dv)
  let r ← int32 (yTerm + vr)
  let r ← int32 (r + 128)
  some ⟨clampU8FromInt (b >>> (8 : Nat)), clampU8FromInt (g >>> (8 : Nat)), clampU8FromInt (r >>> (8 : Nat))⟩

/-- _mm256_setr_epi8 of a pattern that is the same in both halves. -/
def setrEpi8 (half : List Int) : Fin 32 → Int := fun i => half.getD (i % 16) (-1)

def pickV : Fin 32 → Int :=
  setrEpi8 [0, 4, 8, 12, -1, -1, -1, -1, -1, -1, -1, -1, -1, -1, -1, -1]

def pickU : Fin 32 → Int :=
  setrEpi8 [1, 5, 9, 13, -1, -1, -1, -1, -1, -1, -1, -1, -1, -1, -1, -1]

def pickY : Fin 32 → Int :=
  setrEpi8 [2, 6, 10, 14, -1, -1, -1, -1, -1, -1, -1, -1, -1, -1, -1, -1]

/-- The shuffle and the unpacking for one of the three samples. -/
def pickBytes (raw : Fin (16 + 16) → UInt8) (pick : Fin 32 → Int) : Fin 16 → UInt8 :=
  let shuf : Fin (16 + 16) → UInt8 := shuffleEpi8 raw pick
  unpackloEpi32 (low shuf) (high shuf)

/-- Clamping to a byte and the two packs. -/
def packBytes (x : Fin (4 + 4) → Int) : Fin 8 → UInt8 :=
  let clamped : Fin (4 + 4) → Int := minEpi32 (maxEpi32 x (set1 0)) (set1 255)
  let x16 := packusEpi32 (low clamped) (high clamped)
  storelEpi64 (packusEpi16 x16 x16)

/-- The body of the vector loop up to the stores. -/
def block (c : VuyxBgrCoeffs) (raw : Fin 32 → UInt8) : Option (Fin 8 → Bgr) := do
  let v32 ← subEpi32 (cvtepu8Epi32 (pickBytes raw pickV)) (set1 128)
  let u32 ← subEpi32 (cvtepu8Epi32 (pickBytes raw pickU)) (set1 128)
  let y32 ← subEpi32 (cvtepu8Epi32 (pickBytes raw pickY)) (set1 c.yOffset)
  let y32 := maxEpi32 y32 (set1 0)
  let yTerm ← mulloEpi32 y32 (set1 c.yMul)
  let bu ← mulloEpi32 u32 (set1 c.buMul)
  let b ← addEpi32 yTerm bu
  let b ← addEpi32 b (set1 128)
  let gu ← mulloEpi32 u32 (set1 c.guMul)
  let g ← subEpi32 yTerm gu
  let gv ← mulloEpi32 v32 (set1 c.gvMul)
  let g ← subEpi32 g gv
  let g ← addEpi32 g (set1 128)
  let vr ← mulloEpi32 v32 (set1 c.vrMul)
  let r ← addEpi32 yTerm vr
  let r ← addEpi32 r (set1 128)
  let bBytes := packBytes (sraiEpi32 b 8)
  let gBytes := packBytes (sraiEpi32 g 8)
  let rBytes := packBytes (sraiEpi32 r 8)
  some fun i => ⟨bBytes i, gBytes i, rBytes i⟩

/-- The fields of DecodedFrame that are read; `data` is `data[0]`. -/
structure Frame where
  width : Int
  height : Int
  linesize : Int
  data : Option (Nat → UInt8)

/-- A row of the source: where it begins and how many bytes of pixels it has. -/
structure Row where
  data : Memory
  start : Nat
  length : Nat

def Row.read (row : Row) (offset : Nat) : Option UInt8 :=
  if offset < row.length then some (row.data (row.start + offset)) else none

def writePixel (size : Nat) (dst : Memory) (dstRow : Nat) (p : Bgr) : Option Memory := do
  let dst ← write size dst dstRow p.b
  let dst ← write size dst (dstRow + 1) p.g
  write size dst (dstRow + 2) p.r

/-- The scalar loop, with the pixels left and the two moving pointers. -/
def scalarLoop (c : VuyxBgrCoeffs) (row : Row) (size : Nat) :
    Nat → (srcRow dstRow : Nat) → Memory → Option Memory
  | 0, _, _, dst => some dst
  | left + 1, srcRow, dstRow, dst => do
    let v ← row.read srcRow
    let u ← row.read (srcRow + 1)
    let y ← row.read (srcRow + 2)
    let p ← pixel c v u y
    let dst ← writePixel size dst dstRow p
    scalarLoop c row size left (srcRow + 4) (dstRow + 3) dst

/-- The inner loop that stores eight pixels. -/
def writePixels (size : Nat) : List Bgr → Nat → Memory → Option Memory
  | [], _, dst => some dst
  | p :: rest, dstRow, dst => do
    let dst ← writePixel size dst dstRow p
    writePixels size rest (dstRow + 3) dst

/-- decoder_fast_convert_vuyx_to_bgr24_row_avx2 from the pixel `x` on. Every round has eight
pixels, so the width is fuel enough. -/
def rowAvx2 (c : VuyxBgrCoeffs) (row : Row) (width : Nat) (size : Nat) :
    Nat → (x dstRow : Nat) → Memory → Option (Nat × Memory)
  | 0, x, _, dst => some (x, dst)
  | fuel + 1, x, dstRow, dst => do
    let next ← int32 (x + 8)
    if next ≤ width then
      let raw ← collect fun i : Fin 32 => row.read (4 * x + i)
      let pixels ← block c raw
      let dst ← writePixels size (List.ofFn pixels) dstRow dst
      rowAvx2 c row width size fuel (x + 8) (dstRow + 24) dst
    else some (x, dst)

/-- One row; the caller moves its own two pointers by the pixels that are done. -/
def convertRow (avx2 : Bool) (c : VuyxBgrCoeffs) (row : Row) (width : Nat) (size : Nat)
    (dstRow : Nat) (dst : Memory) : Option Memory :=
  if avx2 then do
    let done ← rowAvx2 c row width size width 0 dstRow dst
    scalarLoop c row size (width - done.1) (4 * done.1) (dstRow + 3 * done.1) done.2
  else scalarLoop c row size width 0 dstRow dst

structure Image where
  width : Int
  height : Int
  linesize : Int
  bytes : List UInt8
  deriving DecidableEq, Repr

/-- decoder_fast_convert_vuyx_to_bgr24. An inner `none` is the result -1; `malloc` is the
memory that is granted, with the bytes it happens to hold. -/
def decoderFastConvertVuyxToBgr24 (avx2 : Bool) (src : Frame) (info : Option StreamInfo)
    (malloc : Option Memory) : Option (Option Image) :=
  match src.data with
  | none => some none
  | some data =>
    if src.width ≤ 0 ∨ src.height ≤ 0 then some none
    else do
      let needed ← int32 (src.width * 4)
      if src.linesize < needed then some none
      else
        let linesize ← int32 (src.width * 3)
        let size := linesize.toNat * src.height.toNat
        match malloc with
        | none => some none
        | some fresh =>
          let c := vuyxBgrCoeffsFromInfo info
          let dst ← (List.range src.height.toNat).foldlM (fun dst y =>
            convertRow avx2 c ⟨data, y * src.linesize.toNat, needed.toNat⟩ src.width.toNat size
              (y * linesize.toNat) dst) fresh
          some (some ⟨src.width, src.height, linesize, contents size dst⟩)

/-- The coefficients are small, so no sum of their products with bytes is large. -/
structure VuyxBgrCoeffs.Small (c : VuyxBgrCoeffs) : Prop where
  yOffset : 0 ≤ c.yOffset ∧ c.yOffset ≤ 16
  yMul : 0 ≤ c.yMul ∧ c.yMul ≤ 1024
  vrMul : 0 ≤ c.vrMul ∧ c.vrMul ≤ 1024
  guMul : 0 ≤ c.guMul ∧ c.guMul ≤ 1024
  gvMul : 0 ≤ c.gvMul ∧ c.gvMul ≤ 1024
  buMul : 0 ≤ c.buMul ∧ c.buMul ≤ 1024

theorem vuyxBgrCoeffs_small (info : Option StreamInfo) : (vuyxBgrCoeffsFromInfo info).Small := by
  unfold vuyxBgrCoeffsFromInfo
  dsimp only
  split <;> split <;> constructor <;> decide

section
variable (c : VuyxBgrCoeffs) (v u y : UInt8)

def luma : Int := c.yMul * max (y.toNat - c.yOffset) 0

def blue : Int := luma c y + c.buMul * (u.toNat - 128) + 128

def green : Int := luma c y - c.guMul * (u.toNat - 128) - c.gvMul * (v.toNat - 128) + 128

def red : Int := luma c y + c.vrMul * (v.toNat - 128) + 128

def bgr : Bgr :=
  ⟨clampU8FromInt (blue c u y >>> (8 : Nat)), clampU8FromInt (green c v u y >>> (8 : Nat)),
    clampU8FromInt (red c v y >>> (8 : Nat))⟩

end

variable {c : VuyxBgrCoeffs}

theorem mul_small {m d : Int} (multiplier : 0 ≤ m ∧ m ≤ 1024) (difference : -128 ≤ d ∧ d ≤ 255) :
    -131072 ≤ m * d ∧ m * d ≤ 261120 := by
  constructor <;> nlinarith [multiplier.1, multiplier.2, difference.1, difference.2]

/-- The products of one pixel. -/
structure Bounded (c : VuyxBgrCoeffs) (v u y : UInt8) : Prop where
  luma : 0 ≤ Vuyx.luma c y ∧ Vuyx.luma c y ≤ 261120
  bu : -131072 ≤ c.buMul * (u.toNat - 128) ∧ c.buMul * (u.toNat - 128) ≤ 261120
  gu : -131072 ≤ c.guMul * (u.toNat - 128) ∧ c.guMul * (u.toNat - 128) ≤ 261120
  gv : -131072 ≤ c.gvMul * (v.toNat - 128) ∧ c.gvMul * (v.toNat - 128) ≤ 261120
  vr : -131072 ≤ c.vrMul * (v.toNat - 128) ∧ c.vrMul * (v.toNat - 128) ≤ 261120

theorem VuyxBgrCoeffs.Small.bounded (small : c.Small) (v u y : UInt8) : Bounded c v u y := by
  have byte (x : UInt8) : (-128 : Int) ≤ x.toNat - 128 ∧ (x.toNat : Int) - 128 ≤ 255 := by
    have := x.toNat_lt
    omega
  have luma : (0 : Int) ≤ max (y.toNat - c.yOffset) 0 ∧ max (y.toNat - c.yOffset) 0 ≤ 255 := by
    have := y.toNat_lt
    have := small.yOffset
    omega
  refine ⟨⟨Int.mul_nonneg small.yMul.1 luma.1, (mul_small small.yMul ⟨by omega, luma.2⟩).2⟩,
    mul_small small.buMul (byte u), mul_small small.guMul (byte u), mul_small small.gvMul (byte v),
    mul_small small.vrMul (byte v)⟩

/-- The sums of one pixel, each a step of both loops. -/
structure Sums (l blueU greenU greenV redV : Int) : Prop where
  luma : int32 l = some l
  bu : int32 blueU = some blueU
  gu : int32 greenU = some greenU
  gv : int32 greenV = some greenV
  vr : int32 redV = some redV
  b : int32 (l + blueU) = some (l + blueU)
  bRounded : int32 (l + blueU + 128) = some (l + blueU + 128)
  g : int32 (l - greenU) = some (l - greenU)
  gBoth : int32 (l - greenU - greenV) = some (l - greenU - greenV)
  gRounded : int32 (l - greenU - greenV + 128) = some (l - greenU - greenV + 128)
  r : int32 (l + redV) = some (l + redV)
  rRounded : int32 (l + redV + 128) = some (l + redV + 128)

theorem sums {l bu gu gv vr : Int} (luma : 0 ≤ l ∧ l ≤ 261120) (hbu : -131072 ≤ bu ∧ bu ≤ 261120)
    (hgu : -131072 ≤ gu ∧ gu ≤ 261120) (hgv : -131072 ≤ gv ∧ gv ≤ 261120)
    (hvr : -131072 ≤ vr ∧ vr ≤ 261120) : Sums l bu gu gv vr := by
  constructor <;> exact int32_some (by omega) (by omega)

theorem Bounded.sums {v u y : UInt8} (bounded : Bounded c v u y) :
    Sums (Vuyx.luma c y) (c.buMul * (u.toNat - 128)) (c.guMul * (u.toNat - 128))
      (c.gvMul * (v.toNat - 128)) (c.vrMul * (v.toNat - 128)) :=
  Vuyx.sums bounded.luma bounded.bu bounded.gu bounded.gv bounded.vr

/-- The differences of one pixel. -/
structure Differences (c : VuyxBgrCoeffs) (v u y : UInt8) : Prop where
  ySample : int32 (y.toNat - c.yOffset) = some ((y.toNat : Int) - c.yOffset)
  du : int32 (u.toNat - 128) = some ((u.toNat : Int) - 128)
  dv : int32 (v.toNat - 128) = some ((v.toNat : Int) - 128)

theorem VuyxBgrCoeffs.Small.differences (small : c.Small) (v u y : UInt8) :
    Differences c v u y := by
  have offset := small.yOffset
  have byte (x : UInt8) := x.toNat_lt
  have hy := byte y
  have hu := byte u
  have hv := byte v
  constructor <;> refine int32_some ?_ ?_ <;> omega

/-- The scalar body has no overflow. -/
theorem pixel_eq (small : c.Small) (v u y : UInt8) : pixel c v u y = some (bgr c v u y) := by
  have sums := (small.bounded v u y).sums
  have differences := small.differences v u y
  have clamped : c.yMul * (if (y.toNat : Int) - c.yOffset < 0 then 0 else y.toNat - c.yOffset) =
      luma c y := by
    refine congrArg (c.yMul * ·) ?_
    omega
  unfold pixel
  refine (proceed differences.ySample _).trans ?_
  refine (proceed differences.du _).trans ?_
  refine (proceed differences.dv _).trans ?_
  dsimp only
  rw [clamped]
  refine (proceed sums.luma _).trans ?_
  refine (proceed sums.bu _).trans ?_
  refine (proceed sums.b _).trans ?_
  refine (proceed sums.bRounded _).trans ?_
  refine (proceed sums.gu _).trans ?_
  refine (proceed sums.gv _).trans ?_
  refine (proceed sums.g _).trans ?_
  refine (proceed sums.gBoth _).trans ?_
  refine (proceed sums.gRounded _).trans ?_
  refine (proceed sums.vr _).trans ?_
  refine (proceed sums.r _).trans ?_
  exact proceed sums.rRounded _

section
variable (raw : Fin 32 → UInt8)

def vAt (i : Fin 8) : UInt8 := raw ⟨4 * i, by omega⟩

def uAt (i : Fin 8) : UInt8 := raw ⟨4 * i + 1, by omega⟩

def yAt (i : Fin 8) : UInt8 := raw ⟨4 * i + 2, by omega⟩

/-- The shuffles gather one sample of each pixel. -/
theorem pickBytes_v (i : Fin 8) : cvtepu8Epi32 (pickBytes raw pickV) i = (vAt raw i).toNat := by
  match i with
  | 0 | 1 | 2 | 3 | 4 | 5 | 6 | 7 => rfl

theorem pickBytes_u (i : Fin 8) : cvtepu8Epi32 (pickBytes raw pickU) i = (uAt raw i).toNat := by
  match i with
  | 0 | 1 | 2 | 3 | 4 | 5 | 6 | 7 => rfl

theorem pickBytes_y (i : Fin 8) : cvtepu8Epi32 (pickBytes raw pickY) i = (yAt raw i).toNat := by
  match i with
  | 0 | 1 | 2 | 3 | 4 | 5 | 6 | 7 => rfl

end

theorem packBytes_get (x : Fin 8 → Int) (i : Fin 8) : packBytes x i = clampU8FromInt (x i) := by
  have bytes (i : Fin 8) : 0 ≤ min (max (x i) 0) 255 ∧ min (max (x i) 0) 255 ≤ 255 := by omega
  refine (packus_bytes (fun i => min (max (x i) 0) 255) bytes i).trans ?_
  unfold clampU8FromInt
  split
  · next below => simp [show min (max (x i) 0) 255 = 0 by omega]
  · split
    · next above => simp [show min (max (x i) 0) 255 = 255 by omega]
    · rw [show min (max (x i) 0) 255 = x i by omega]

/-- The vector body gives every lane what the scalar body gives its pixel. -/
theorem block_eq (small : c.Small) (raw : Fin 32 → UInt8) :
    block c raw = some fun i => bgr c (vAt raw i) (uAt raw i) (yAt raw i) := by
  have sums (i : Fin 8) := (small.bounded (vAt raw i) (uAt raw i) (yAt raw i)).sums
  have differences (i : Fin 8) := small.differences (vAt raw i) (uAt raw i) (yAt raw i)
  have v32 : subEpi32 (cvtepu8Epi32 (pickBytes raw pickV)) (set1 128) =
      some fun i => ((vAt raw i).toNat : Int) - 128 := collect_some fun i => by
    rw [pickBytes_v]
    exact (differences i).dv
  have u32 : subEpi32 (cvtepu8Epi32 (pickBytes raw pickU)) (set1 128) =
      some fun i => ((uAt raw i).toNat : Int) - 128 := collect_some fun i => by
    rw [pickBytes_u]
    exact (differences i).du
  have y32 : subEpi32 (cvtepu8Epi32 (pickBytes raw pickY)) (set1 c.yOffset) =
      some fun i => ((yAt raw i).toNat : Int) - c.yOffset := collect_some fun i => by
    rw [pickBytes_y]
    exact (differences i).ySample
  have swapped (m : Int) (x : Fin 8 → Int) :
      mulloEpi32 x (set1 m) = collect fun i => int32 (m * x i) :=
    congrArg collect (funext fun i => congrArg int32 (Int.mul_comm ..))
  unfold block
  refine (proceed v32 _).trans ?_
  refine (proceed u32 _).trans ?_
  refine (proceed y32 _).trans ?_
  dsimp only
  simp only [swapped]
  refine (proceed (collect_some fun i => (sums i).luma) _).trans ?_
  refine (proceed (collect_some fun i => (sums i).bu) _).trans ?_
  refine (proceed (collect_some fun i => (sums i).b) _).trans ?_
  refine (proceed (collect_some fun i => (sums i).bRounded) _).trans ?_
  refine (proceed (collect_some fun i => (sums i).gu) _).trans ?_
  refine (proceed (collect_some fun i => (sums i).g) _).trans ?_
  refine (proceed (collect_some fun i => (sums i).gv) _).trans ?_
  refine (proceed (collect_some fun i => (sums i).gBoth) _).trans ?_
  refine (proceed (collect_some fun i => (sums i).gRounded) _).trans ?_
  refine (proceed (collect_some fun i => (sums i).vr) _).trans ?_
  refine (proceed (collect_some fun i => (sums i).r) _).trans ?_
  refine (proceed (collect_some fun i => (sums i).rRounded) _).trans ?_
  simp only [packBytes_get]
  rfl

section Loops
variable {row : Row} {size width : Nat}

/-- The scalar loop in two parts, the pointers handed over in between. -/
theorem scalarLoop_add (m n srcRow dstRow : Nat) (dst : Memory) :
    scalarLoop c row size (m + n) srcRow dstRow dst = (do
      let dst ← scalarLoop c row size m srcRow dstRow dst
      scalarLoop c row size n (srcRow + 4 * m) (dstRow + 3 * m) dst) := by
  induction m generalizing srcRow dstRow dst with
  | zero => simp [scalarLoop]
  | succ m ih =>
    rw [Nat.succ_add, scalarLoop, scalarLoop]
    simp only [ih, Option.bind_eq_bind, Option.bind_assoc, Nat.mul_succ, Nat.add_assoc,
      Nat.add_comm 4, Nat.add_comm 3]

/-- What the scalar loop reads and computes for one pixel. -/
def pixelAt (c : VuyxBgrCoeffs) (row : Row) (srcRow : Nat) : Bgr :=
  let sample (offset : Nat) : UInt8 := row.data (row.start + (srcRow + offset))
  bgr c (sample 0) (sample 1) (sample 2)

theorem scalarLoop_succ (small : c.Small) (left srcRow dstRow : Nat) (dst : Memory)
    (inside : srcRow + 2 < row.length) :
    scalarLoop c row size (left + 1) srcRow dstRow dst = (do
      let dst ← writePixel size dst dstRow (pixelAt c row srcRow)
      scalarLoop c row size left (srcRow + 4) (dstRow + 3) dst) := by
  have read (offset : Nat) (near : offset ≤ 2) :
      row.read (srcRow + offset) = some (row.data (row.start + (srcRow + offset))) :=
    if_pos (by omega)
  rw [scalarLoop]
  refine (proceed (read 0 (by omega)) _).trans ?_
  refine (proceed (read 1 (by omega)) _).trans ?_
  refine (proceed (read 2 (by omega)) _).trans ?_
  exact proceed (pixel_eq small ..) _

theorem scalarLoop_eq (small : c.Small) (count srcRow dstRow : Nat) (dst : Memory)
    (inside : srcRow + 4 * count ≤ row.length) :
    scalarLoop c row size count srcRow dstRow dst =
      writePixels size ((List.range count).map fun i => pixelAt c row (srcRow + 4 * i)) dstRow dst := by
  induction count generalizing srcRow dstRow dst with
  | zero => rfl
  | succ count ih =>
    rw [scalarLoop_succ small _ _ _ _ (by omega), List.range_succ_eq_map, List.map_cons, List.map_map,
      writePixels]
    refine congrArg (writePixel size dst dstRow (pixelAt c row srcRow) >>= ·) (funext fun dst => ?_)
    rw [ih (srcRow + 4) (dstRow + 3) dst (by omega)]
    refine congrArg (writePixels size · (dstRow + 3) dst) (List.map_congr_left fun i _ => ?_)
    exact congrArg (pixelAt c row) (by omega)

/-- Loading and computing eight pixels. -/
theorem load_block (row : Row) (small : c.Small) (x : Nat) (inside : 4 * (x + 8) ≤ row.length) :
    (collect fun i : Fin 32 => row.read (4 * x + i)) =
        some (fun i : Fin 32 => row.data (row.start + (4 * x + i))) ∧
      (block c fun i : Fin 32 => row.data (row.start + (4 * x + i))) =
        some fun i : Fin 8 => pixelAt c row (4 * x + 4 * i) := by
  constructor
  · exact collect_some fun i => if_pos (by omega)
  · rw [block_eq small]
    rfl

theorem rowAvx2_eq (small : c.Small) (fuel x dstRow : Nat) (dst : Memory)
    (length : row.length = 4 * width) (narrow : row.length < 2147483648) (within : x ≤ width)
    (enough : (width - x) / 8 < fuel) :
    rowAvx2 c row width size fuel x dstRow dst =
      (scalarLoop c row size (8 * ((width - x) / 8)) (4 * x) dstRow dst).map fun dst =>
        (x + 8 * ((width - x) / 8), dst) := by
  induction fuel generalizing x dstRow dst with
  | zero => omega
  | succ fuel ih =>
    rw [rowAvx2]
    refine (proceed (int32_some (x := (x : Int) + 8) (by omega) (by omega)) _).trans ?_
    by_cases more : x + 8 ≤ width
    · obtain ⟨load, pixels⟩ := load_block row small x (by omega)
      rw [if_pos (by omega)]
      refine (proceed load _).trans ?_
      refine (proceed pixels _).trans ?_
      have rest : 8 * ((width - x) / 8) = 8 + 8 * ((width - (x + 8)) / 8) := by omega
      have written : List.ofFn (fun i : Fin 8 => pixelAt c row (4 * x + 4 * i)) =
          (List.range 8).map fun i => pixelAt c row (4 * x + 4 * i) := rfl
      rw [rest, scalarLoop_add, scalarLoop_eq small 8 _ _ _ (by omega), written]
      cases writePixels size ((List.range 8).map fun i => pixelAt c row (4 * x + 4 * i)) dstRow dst with
      | none => rfl
      | some dst =>
        refine (ih (x + 8) (dstRow + 24) dst (by omega) (by omega)).trans ?_
        rw [show x + (8 + 8 * ((width - (x + 8)) / 8)) = x + 8 + 8 * ((width - (x + 8)) / 8) by omega]
        rfl
    · have none_left : (width - x) / 8 = 0 := by omega
      rw [if_neg (by omega), none_left]
      rfl

/-- A row with the vector part is the row without. -/
theorem convertRow_avx2 (small : c.Small) (dstRow : Nat) (dst : Memory)
    (length : row.length = 4 * width) (narrow : row.length < 2147483648) (some_pixel : 0 < width) :
    convertRow true c row width size dstRow dst = convertRow false c row width size dstRow dst := by
  have whole : width = 8 * (width / 8) + (width - 8 * (width / 8)) := by omega
  have vector : rowAvx2 c row width size width 0 dstRow dst = _ :=
    rowAvx2_eq small width 0 dstRow dst length narrow (Nat.zero_le _) (by omega)
  simp only [Nat.sub_zero, Nat.zero_add, Nat.mul_zero] at vector
  simp only [convertRow, if_true, Bool.false_eq_true, if_false, vector]
  conv_rhs => rw [whole, scalarLoop_add]
  cases scalarLoop c row size (8 * (width / 8)) 0 dstRow dst with
  | none => rfl
  | some dst =>
    rw [Nat.zero_add]
    rfl

/-- The byte of one of the three channels. -/
def Bgr.channel (p : Bgr) : Nat → UInt8
  | 0 => p.b
  | 1 => p.g
  | _ => p.r

theorem writePixel_eq (dst : Memory) (dstRow : Nat) (p : Bgr) (inside : dstRow + 3 ≤ size) :
    writePixel size dst dstRow p = some (overlay dstRow 3 p.channel dst) := by
  unfold writePixel
  refine (proceed (if_pos (by omega)) _).trans ?_
  refine (proceed (if_pos (by omega)) _).trans ?_
  refine (if_pos (by omega)).trans (congrArg some (funext fun offset => ?_))
  unfold overlay
  by_cases first : offset = dstRow
  · simp [first, Bgr.channel]
  · by_cases second : offset = dstRow + 1
    · simp [second, Bgr.channel]
    · by_cases third : offset = dstRow + 2
      · simp [third, Bgr.channel]
      · rw [if_neg (by omega)]
        simp [first, second, third]

/-- The scalar loop writes the pixels' channels one after the other and nothing else. -/
theorem scalarLoop_pixels (small : c.Small) (count srcRow dstRow : Nat) (dst : Memory)
    (inside : srcRow + 4 * count ≤ row.length) (room : dstRow + 3 * count ≤ size) :
    scalarLoop c row size count srcRow dstRow dst = some (overlay dstRow (3 * count)
      (fun i => (pixelAt c row (srcRow + 4 * (i / 3))).channel (i % 3)) dst) := by
  induction count generalizing srcRow dstRow dst with
  | zero => rw [Nat.mul_zero, overlay_nothing, scalarLoop]
  | succ count ih =>
    rw [scalarLoop_succ small _ _ _ _ (by omega)]
    refine (proceed (writePixel_eq dst dstRow _ (by omega)) _).trans ?_
    rw [ih (srcRow + 4) (dstRow + 3) _ (by omega) (by omega), Nat.mul_succ, Nat.add_comm (3 * count)]
    refine congrArg some (overlay_adjacent _ _ _ _ _ _ _ (fun i below => ?_) fun i _ => ?_)
    · rw [show srcRow + 4 * (i / 3) = srcRow by omega, show i % 3 = i by omega]
    · rw [show srcRow + 4 + 4 * (i / 3) = srcRow + 4 * ((3 + i) / 3) by omega,
        show (3 + i) % 3 = i % 3 by omega]

/-- A row with or without the vector part. -/
theorem convertRow_pixels (avx2 : Bool) (small : c.Small) (dstRow : Nat) (dst : Memory)
    (length : row.length = 4 * width) (narrow : row.length < 2147483648) (some_pixel : 0 < width)
    (room : dstRow + 3 * width ≤ size) :
    convertRow avx2 c row width size dstRow dst = some (overlay dstRow (3 * width)
      (fun i => (pixelAt c row (4 * (i / 3))).channel (i % 3)) dst) := by
  have scalar : scalarLoop c row size width 0 dstRow dst = _ :=
    scalarLoop_pixels small width 0 dstRow dst (by omega) room
  simp only [Nat.zero_add] at scalar
  cases avx2 with
  | false => exact scalar
  | true => exact (convertRow_avx2 small dstRow dst length narrow some_pixel).trans scalar

end Loops

/-- The scalar formula for a byte of the image. -/
def formula (c : VuyxBgrCoeffs) (data : Memory) (linesize width : Nat) (offset : Nat) : UInt8 :=
  let row : Row := ⟨data, offset / (3 * width) * linesize, 4 * width⟩
  let column := offset % (3 * width)
  (pixelAt c row (4 * (column / 3))).channel (column % 3)

/-- The image that the scalar formula gives. -/
def formulaImage (src : Frame) (data : Memory) (info : Option StreamInfo) : Image :=
  let width := src.width.toNat
  let size := 3 * width * src.height.toNat
  ⟨src.width, src.height, src.width * 3, contents size
    (formula (vuyxBgrCoeffsFromInfo info) data src.linesize.toNat width)⟩

/-- The first rows of the image are done, one after the other. -/
theorem rows_eq {c : VuyxBgrCoeffs} (avx2 : Bool) (small : c.Small) (data : Memory)
    (linesize width size rows : Nat) (fresh : Memory) (some_pixel : 0 < width)
    (narrow : 4 * width < 2147483648) (room : 3 * width * rows ≤ size) :
    (List.range rows).foldlM (fun dst y =>
        convertRow avx2 c ⟨data, y * linesize, 4 * width⟩ width size (y * (3 * width)) dst) fresh =
      some (overlay 0 (3 * width * rows) (formula c data linesize width) fresh) := by
  induction rows with
  | zero => exact congrArg some (overlay_nothing ..).symm
  | succ rows ih =>
    rw [Nat.mul_succ] at room
    rw [List.range_succ, List.foldlM_append]
    refine (proceed (ih (by omega)) _).trans ?_
    have row (dst : Memory) :
        convertRow avx2 c ⟨data, rows * linesize, 4 * width⟩ width size (3 * width * rows) dst = _ :=
      convertRow_pixels avx2 small (3 * width * rows) dst rfl narrow some_pixel room
    simp only [List.foldlM_cons, List.foldlM_nil, bind_pure]
    rw [Nat.mul_comm rows (3 * width), row, Nat.mul_succ]
    refine congrArg some ?_
    have joined := overlay_adjacent 0 (3 * width * rows) (3 * width) (formula c data linesize width)
      (fun i => (pixelAt c ⟨data, rows * linesize, 4 * width⟩ (4 * (i / 3))).channel (i % 3))
      (formula c data linesize width) fresh (fun _ _ => rfl) fun i below => by
        have nonzero : 0 < 3 * width := by omega
        simp only [formula]
        rw [Nat.mul_add_div nonzero, Nat.div_eq_of_lt below, Nat.mul_add_mod, Nat.mod_eq_of_lt below]
        rfl
    rwa [Nat.zero_add] at joined

/-- With the vector loop and without it the image is that of the scalar formula; no sum has
overflowed and every byte was read from its row and written inside the image. -/
theorem convert_formula (avx2 : Bool) (src : Frame) (data : Memory) (info : Option StreamInfo)
    (malloc : Option Memory) (present : src.data = some data) (width : 1 ≤ src.width)
    (height : 1 ≤ src.height) (stride : 4 * src.width ≤ src.linesize)
    (int : src.linesize ≤ 2147483647) :
    decoderFastConvertVuyxToBgr24 avx2 src info malloc =
      some (malloc.map fun _ => formulaImage src data info) := by
  have needed : int32 (src.width * 4) = some (src.width * 4) :=
    int32_some (by omega) (by omega)
  have linesize : int32 (src.width * 3) = some (src.width * 3) :=
    int32_some (by omega) (by omega)
  have sourceRow : (src.width * 4).toNat = 4 * src.width.toNat := by omega
  have imageRow : (src.width * 3).toNat = 3 * src.width.toNat := by omega
  unfold decoderFastConvertVuyxToBgr24
  rw [present]
  dsimp only
  rw [if_neg (by omega)]
  refine (proceed needed _).trans ?_
  rw [if_neg (by omega)]
  refine (proceed linesize _).trans ?_
  cases malloc with
  | none => rfl
  | some fresh =>
    have rows := rows_eq avx2 (vuyxBgrCoeffs_small info) data src.linesize.toNat src.width.toNat
      (3 * src.width.toNat * src.height.toNat) src.height.toNat fresh (by omega) (by omega) le_rfl
    dsimp only
    rw [sourceRow, imageRow]
    refine (proceed rows _).trans (congrArg some (congrArg some ?_))
    exact congrArg (Image.mk src.width src.height (src.width * 3)) (contents_overlay ..)

/-- One row of nine red pixels, the last one behind the vector. -/
theorem convert_red : decoderFastConvertVuyxToBgr24 true
    ⟨9, 1, 40, some fun i => if i % 4 = 0 then 240 else if i % 4 = 1 then 102 else 63⟩ none
    (some fun _ => 7) = some (some ⟨9, 1, 27, (List.replicate 9 [0, 1, 255]).flatten⟩) :=
  (convert_formula true _ _ none _ rfl (by decide) (by decide) (by decide) (by decide)).trans
    (by decide)

end StreamRelay.Server.Vuyx
