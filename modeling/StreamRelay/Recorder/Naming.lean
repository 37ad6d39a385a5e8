import StreamRelay.Recorder.Segment

/-! Segment names. The stream, the local second and the codec can be read back
from a final path, and streams write below disjoint directories; nothing else
goes into a path. -/
namespace StreamRelay.Recorder

theorem split_unique {α : Type*} {mark : α} {a b x y : List α} (left : mark ∉ a) (right : mark ∉ b)
    (same : a ++ mark :: x = b ++ mark :: y) : a = b ∧ x = y := by
  induction a generalizing b with
  | nil =>
    cases b with
    | nil => simpa using same
    | cons c b =>
      obtain rfl := (List.cons.inj same).1
      simp at right
  | cons c a ih =>
    cases b with
    | nil =>
      obtain rfl := (List.cons.inj same).1
      simp at left
    | cons d b =>
      obtain ⟨rfl, tail⟩ := List.cons.inj same
      obtain ⟨rfl, rfl⟩ := ih (fun member => left (by simp [member]))
        (fun member => right (by simp [member])) tail
      exact ⟨rfl, rfl⟩

theorem padded_digits (n : Nat) : ∀ c ∈ padded n, c.isDigit := by
  intro c member
  unfold padded at member
  split at member
  · rcases List.mem_cons.mp member with rfl | member
    · rfl
    · exact Nat.isDigit_of_mem_toDigits (by decide) (by decide) member
  · exact Nat.isDigit_of_mem_toDigits (by decide) (by decide) member

theorem padded_value (n : Nat) : Nat.ofDigitChars 10 (padded n) 0 = n := by
  unfold padded
  split <;> simp [Nat.ofDigitChars_cons]

theorem padded_injective {a b : Nat} (same : padded a = padded b) : a = b := by
  rw [← padded_value a, same, padded_value]

theorem padded_length (n digits : Nat) (positive : 0 < digits) (bound : n < 10 ^ digits) :
    (padded n).length ≤ digits + 1 := by
  have := (Nat.length_toDigits_le_iff (b := 10) (n := n) (by decide) positive).mpr bound
  unfold padded
  split <;> simp <;> omega

theorem segmentStamp_chars (tm : Tm) : ∀ c ∈ segmentStamp tm, c.isDigit ∨ c = '_' := by
  intro c member
  simp only [segmentStamp, List.mem_append, List.mem_cons, or_assoc] at member
  rcases member with year | mon | mday | rfl | hour | min | sec
  · exact .inl (Nat.isDigit_of_mem_toDigits (by decide) (by decide) year)
  · exact .inl (padded_digits _ c mon)
  · exact .inl (padded_digits _ c mday)
  · exact .inr rfl
  · exact .inl (padded_digits _ c hour)
  · exact .inl (padded_digits _ c min)
  · exact .inl (padded_digits _ c sec)

theorem segmentStamp_length (tm : Tm) : (segmentStamp tm).length ≤ 66 := by
  have word (n : UInt32) : n.toNat < 2 ^ 32 := n.toNat_lt
  have year := (Nat.length_toDigits_le_iff (b := 10) (n := tm.year.toNat + 1900) (k := 10)
    (by decide) (by decide)).mpr (by have := word tm.year; omega)
  have field (n : UInt32) : (padded n.toNat).length ≤ 11 :=
    padded_length _ 10 (by decide) (by have := word n; omega)
  have month : (padded (tm.mon.toNat + 1)).length ≤ 11 :=
    padded_length _ 10 (by decide) (by have := word tm.mon; omega)
  have := field tm.mday
  have := field tm.hour
  have := field tm.min
  have := field tm.sec
  simp only [segmentStamp, List.length_append, List.length_cons]
  omega

variable (cfg : Config)

def segmentStampAt (wallMs : UInt64) : CString := segmentStamp (cfg.localtime (wallMs.toNat / 1000))

/-- The names below the directory of a stream. -/
def InDir (stream : Nat) (name : CString) : Prop := ∃ rest, name = segmentDir cfg stream ++ '/' :: rest

theorem inDir_disjoint {a b : Nat} {name : CString} (left : InDir cfg a name)
    (right : InDir cfg b name) : a = b := by
  obtain ⟨x, rfl⟩ := left
  obtain ⟨y, same⟩ := right
  have digits (n : Nat) : '/' ∉ padded n := fun member => by simpa using padded_digits n _ member
  simp only [segmentDir, List.append_assoc, List.append_cancel_left_eq] at same
  exact padded_injective (split_unique (digits a) (digits b) same).1

theorem segmentName_eq (stream : Nat) (ext : CString) (wallMs : UInt64) :
    segmentName cfg stream ext wallMs =
      segmentDir cfg stream ++ '/' :: (segmentStampAt cfg wallMs ++ '.' :: ext) := by
  simp [segmentName, segmentStampAt]

theorem inDir_final (stream : Nat) (ext : CString) (wallMs : UInt64) :
    InDir cfg stream (segmentName cfg stream ext wallMs) := ⟨_, segmentName_eq ..⟩

theorem inDir_tmp (stream : Nat) (ext : CString) (wallMs : UInt64) :
    InDir cfg stream (segmentName cfg stream ext wallMs ++ tmpSuffix) :=
  ⟨segmentStampAt cfg wallMs ++ '.' :: ext ++ tmpSuffix, by simp [segmentName_eq]⟩

theorem codecExt_injective {a b : UInt32} (left : codecSupported a) (right : codecSupported b)
    (same : codecExt a = codecExt b) : a = b := by
  simp only [codecSupported, Bool.or_eq_true, decide_eq_true_eq] at left right
  rcases left with rfl | rfl <;> rcases right with rfl | rfl <;> first | rfl | simp [codecExt] at same

/-- A final path holds its stream, its local second and its codec, and no more. -/
theorem segmentName_eq_iff (stream stream' : Nat) (codec codec' : UInt32) (wallMs wallMs' : UInt64)
    (supported : codecSupported codec) (supported' : codecSupported codec') :
    segmentName cfg stream (codecExt codec) wallMs =
        segmentName cfg stream' (codecExt codec') wallMs' ↔
      stream = stream' ∧ codec = codec' ∧ segmentStampAt cfg wallMs = segmentStampAt cfg wallMs' := by
  constructor
  · intro same
    have streams : stream = stream' :=
      inDir_disjoint cfg (inDir_final cfg stream _ _) (same ▸ inDir_final cfg stream' _ _)
    subst streams
    have dot (tm : Tm) : '.' ∉ segmentStamp tm := fun member => by
      simpa using segmentStamp_chars tm _ member
    simp only [segmentName_eq, List.append_cancel_left_eq, List.cons.injEq, true_and] at same
    obtain ⟨stamps, exts⟩ := split_unique (dot _) (dot _) same
    exact ⟨rfl, codecExt_injective supported supported' exts, stamps⟩
  · rintro ⟨rfl, rfl, stamps⟩
    rw [segmentName_eq, segmentName_eq, stamps]

/-- The path buffers always suffice. -/
theorem segmentName_fits (stream : Nat) (codec : UInt32) (wallMs : UInt64)
    (valid : stream ≤ maxStreamsLimit) :
    (segmentName cfg stream (codecExt codec) wallMs ++ tmpSuffix).length < pathMax := by
  have raw : cfg.rawDir.length < 512 := by
    simpa [Config.rawDir] using cfg.recordDir_fits
  have digits : (padded stream).length ≤ 4 :=
    padded_length stream 3 (by decide) (by simp only [maxStreamsLimit] at valid; omega)
  have stamp := segmentStamp_length (cfg.localtime (wallMs.toNat / 1000))
  have ext : (codecExt codec).length ≤ 4 := by
    unfold codecExt
    split
    · decide
    split <;> decide
  have suffix : tmpSuffix.length = 4 := rfl
  have slash : "/s".toList.length = 2 := rfl
  simp only [segmentName, segmentDir, List.length_append, List.length_cons, pathMax]
  omega

theorem segmentName_ne_nil (stream : Nat) (ext : CString) (wallMs : UInt64) :
    segmentName cfg stream ext wallMs ≠ [] := by
  simp [segmentName]

end StreamRelay.Recorder
