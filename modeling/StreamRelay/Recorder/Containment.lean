import StreamRelay.Recorder.Mount
import Mathlib.Data.List.DropRight

/-! Which paths are under a mount point, as texts without trailing slashes. -/
namespace StreamRelay.Recorder

/-- The text without trailing slashes, of which a lone one stays. -/
def trimmed (text : CString) : CString :=
  if text.rdropWhile (· = '/') = [] then text.take 1 else text.rdropWhile (· = '/')

def Absolute (path : CString) : Prop := path.head? = some '/'

/-- The mount point is the root, or the path itself, or the path goes on behind a slash. -/
def Contains (mountpoint path : CString) : Prop :=
  (trimmed mountpoint = ['/'] ∧ Absolute path) ∨ trimmed path = trimmed mountpoint ∨
    ∃ rest, trimmed path = trimmed mountpoint ++ '/' :: rest

theorem trimmed_concat_slash {text : CString} (some : text ≠ []) :
    trimmed (text ++ ['/']) = trimmed text := by
  have same : (text ++ ['/']).rdropWhile (· = '/') = text.rdropWhile (· = '/') := by
    rw [List.rdropWhile_concat]
    rfl
  have first : (text ++ ['/']).take 1 = text.take 1 := by
    cases text with
    | nil => exact absurd rfl some
    | cons x rest => rfl
  rw [trimmed, same, first, trimmed]

theorem trimmed_concat {text : CString} {last : Char} (other : last ≠ '/') :
    trimmed (text ++ [last]) = text ++ [last] := by
  have kept : (text ++ [last]).rdropWhile (· = '/') = text ++ [last] := by
    rw [List.rdropWhile_concat]
    simp [other]
  rw [trimmed, kept, if_neg (by simp)]

theorem trimmed_single (only : Char) : trimmed [only] = [only] := by
  by_cases slash : only = '/'
  · rw [slash]
    decide
  · exact @trimmed_concat [] only slash

theorem trimmedLength_le (text : CString) (n : Nat) : trimmedLength text n ≤ n := by
  induction n with
  | zero => rfl
  | succ n ih =>
    rw [trimmedLength]
    split
    · omega
    · rfl

/-- The length that is counted down to is that of the trimmed text. -/
theorem take_trimmedLength (text : CString) (n : Nat) (inside : n ≤ text.length) :
    text.take (trimmedLength text n) = trimmed (text.take n) := by
  induction n with
  | zero => rfl
  | succ n ih =>
    have last : text.take (n + 1) = text.take n ++ [text.getD n '\x00'] := by
      rw [List.take_add_one, List.getD_eq_getElem?_getD, List.getElem?_eq_getElem (by omega)]
      rfl
    rw [trimmedLength]
    split
    · next more =>
      have some : text.take n ≠ [] := by
        rw [← List.length_pos_iff, List.length_take]
        omega
      rw [ih (by omega), last, more.2, trimmed_concat_slash some]
    · next done =>
      by_cases slash : text.getD n '\x00' = '/'
      · have first : n = 0 := by
          by_contra later
          exact done ⟨by omega, slash⟩
        subst first
        rw [last, List.take_zero, List.nil_append, trimmed_single]
      · rw [last, trimmed_concat slash]

theorem trimmed_eq_take (text : CString) :
    trimmed text = text.take (trimmedLength text text.length) := by
  rw [take_trimmedLength text _ le_rfl, List.take_length]

theorem trimmed_length (text : CString) :
    (trimmed text).length = trimmedLength text text.length := by
  rw [trimmed_eq_take, List.length_take]
  exact Nat.min_eq_left (trimmedLength_le ..)

theorem trimmedLength_pos (text : CString) {n : Nat} (some : 0 < n) : 0 < trimmedLength text n := by
  induction n with
  | zero => exact absurd some (Nat.lt_irrefl 0)
  | succ n ih =>
    rw [trimmedLength]
    split
    · next more => exact ih (by omega)
    · exact Nat.succ_pos n

theorem trimmed_head (text : CString) : (trimmed text).head? = text.head? := by
  cases text with
  | nil => rfl
  | cons first rest =>
    have positive : 0 < trimmedLength (first :: rest) (first :: rest).length :=
      trimmedLength_pos _ (Nat.succ_pos rest.length)
    rw [trimmed_eq_take, List.head?_take, if_neg (Nat.ne_of_gt positive)]

theorem trimmed_ne_nil {text : CString} (some : text ≠ []) : trimmed text ≠ [] := by
  rw [ne_eq, ← List.head?_eq_none_iff, trimmed_head, List.head?_eq_none_iff]
  exact some

/-- The case of the source for the root. -/
theorem root_iff (mountpoint : CString) : trimmed mountpoint = ['/'] ↔
    trimmedLength mountpoint mountpoint.length = 1 ∧ mountpoint.getD 0 '\x00' = '/' := by
  have first : mountpoint.getD 0 '\x00' = '/' ↔ (trimmed mountpoint).head? = some '/' := by
    rw [trimmed_head]
    cases mountpoint <;> simp
  rw [first, ← trimmed_length]
  match trimmed mountpoint with
  | [] => simp
  | [only] => simp
  | _ :: _ :: _ => simp

/-- A text is longer than its beginning, which it has behind it, or equal to it. -/
theorem extends_iff (path mountpoint : CString) :
    (trimmed path = trimmed mountpoint ∨ ∃ rest, trimmed path = trimmed mountpoint ++ '/' :: rest) ↔
      ¬trimmedLength path path.length < trimmedLength mountpoint mountpoint.length ∧
        path.take (trimmedLength mountpoint mountpoint.length) =
          mountpoint.take (trimmedLength mountpoint mountpoint.length) ∧
        (trimmedLength path path.length = trimmedLength mountpoint mountpoint.length ∨
          path.getD (trimmedLength mountpoint mountpoint.length) '\x00' = '/') := by
  have pathLength := trimmed_length path
  have mountLength := trimmed_length mountpoint
  have inside := trimmedLength_le path path.length
  rw [← trimmed_eq_take mountpoint, ← pathLength, ← mountLength]
  have taken : trimmed path = path.take (trimmed path).length := by
    rw [pathLength]
    exact trimmed_eq_take path
  rw [← pathLength] at inside
  generalize trimmed mountpoint = mount
  constructor
  · rintro (same | ⟨rest, longer⟩)
    · refine ⟨by rw [same]; exact Nat.lt_irrefl _, ?_, .inl (by rw [same])⟩
      rw [← same]
      exact taken.symm
    · have length : (trimmed path).length = mount.length + (rest.length + 1) := by
        rw [longer]
        simp
      have beginning : path.take mount.length = mount := by
        calc path.take mount.length = (path.take (trimmed path).length).take mount.length := by
              rw [List.take_take, Nat.min_eq_left (by omega)]
          _ = mount := by rw [← taken, longer, List.take_left']; rfl
      refine ⟨by omega, beginning, .inr ?_⟩
      have slash : (trimmed path)[mount.length]? = some '/' := by
        rw [longer, List.getElem?_append_right le_rfl]
        simp
      rw [taken, List.getElem?_take_of_lt (by omega)] at slash
      rw [List.getD_eq_getElem?_getD, slash]
      rfl
  · rintro ⟨long, beginning, ends⟩
    by_cases same : (trimmed path).length = mount.length
    · rw [same, beginning] at taken
      exact .inl taken
    · have slash := ends.resolve_left same
      rw [List.getD_eq_getElem?_getD, List.getElem?_eq_getElem (by omega)] at slash
      refine .inr ⟨(path.drop (mount.length + 1)).take ((trimmed path).length - (mount.length + 1)), ?_⟩
      have behind : path.drop mount.length = '/' :: path.drop (mount.length + 1) := by
        rw [List.drop_eq_getElem_cons (by omega)]
        exact congrArg (· :: _) slash
      have split : (trimmed path).length = mount.length + ((trimmed path).length - mount.length) := by
        omega
      calc trimmed path = path.take (mount.length + ((trimmed path).length - mount.length)) := by
            rw [← split]
            exact taken
        _ = mount ++ (path.drop mount.length).take ((trimmed path).length - mount.length) := by
            rw [List.take_add, beginning]
        _ = _ := by
            rw [behind, show (trimmed path).length - mount.length =
              (trimmed path).length - (mount.length + 1) + 1 by omega, List.take_succ_cons]

/-- The function computes containment. -/
theorem pathIsUnderMountpoint_iff {path mountpoint : CString} (some : path ≠ [])
    (given : mountpoint ≠ []) :
    pathIsUnderMountpoint path mountpoint = true ↔ Contains mountpoint path := by
  have absolute : path.getD 0 '\x00' = '/' ↔ Absolute path := by
    unfold Absolute
    cases path <;> simp
  unfold pathIsUnderMountpoint Contains
  rw [if_neg (by simp [some, given])]
  dsimp only
  rw [extends_iff]
  split
  next root =>
    have lone := (root_iff mountpoint).mpr root
    rw [decide_eq_true_iff, absolute]
    refine ⟨fun under => .inl ⟨lone, under⟩, ?_⟩
    rintro (⟨-, under⟩ | ⟨-, beginning, -⟩)
    · exact under
    · rw [← trimmed_eq_take mountpoint, lone, root.1] at beginning
      cases path with
      | nil => exact absurd rfl some
      | cons first rest => simpa [Absolute] using beginning
  next other =>
    have apart : trimmed mountpoint ≠ ['/'] := fun lone => other ((root_iff mountpoint).mp lone)
    simp only [apart, false_and, false_or]
    split
    · next short => simp [short]
    · next long =>
      split
      · next differs => simp [differs]
      · next same => simp [long, not_not.mp same]

theorem Contains.trans {a b c : CString} (absolute : Absolute a) (some : c ≠ [])
    (first : Contains b a) (second : Contains c b) : Contains c a := by
  rcases second with ⟨root, -⟩ | same | ⟨rest, longer⟩
  · exact .inl ⟨root, absolute⟩
  · rwa [Contains, ← same]
  · have inner : trimmed b ≠ ['/'] := by
      rw [longer]
      intro root
      have nothing := (List.append_eq_singleton_iff.mp root).resolve_right (by simp)
      exact trimmed_ne_nil some nothing.1
    rcases first with ⟨root, -⟩ | equal | ⟨further, beyond⟩
    · exact absurd root inner
    · exact .inr (.inr ⟨rest, equal.trans longer⟩)
    · exact .inr (.inr ⟨rest ++ '/' :: further, by rw [beyond, longer]; simp⟩)

/-- Containment: which paths are under a mount point, and how it orders absolute paths. -/
theorem containment :
    (∀ path mountpoint, path ≠ [] → mountpoint ≠ [] →
      (pathIsUnderMountpoint path mountpoint = true ↔ Contains mountpoint path)) ∧
    (∀ path mountpoint next rest, path ≠ [] → mountpoint ≠ [] → trimmed mountpoint ≠ ['/'] →
      trimmed path = trimmed mountpoint ++ next :: rest → next ≠ '/' →
      pathIsUnderMountpoint path mountpoint = false) ∧
    (∀ path, Absolute path → pathIsUnderMountpoint path path = true) ∧
    ∀ a b c, Absolute a → Absolute b → Absolute c → pathIsUnderMountpoint a b = true →
      pathIsUnderMountpoint b c = true → pathIsUnderMountpoint a c = true := by
  have some {path : CString} (absolute : Absolute path) : path ≠ [] := by
    rintro rfl
    cases absolute
  refine ⟨fun path mountpoint => pathIsUnderMountpoint_iff, ?_, ?_, ?_⟩
  · intro path mountpoint next rest pathSome mountSome inner sibling other
    rw [← Bool.not_eq_true, pathIsUnderMountpoint_iff pathSome mountSome]
    rintro (⟨root, -⟩ | same | ⟨further, longer⟩)
    · exact inner root
    · rw [same] at sibling
      exact absurd sibling (by simp)
    · rw [longer] at sibling
      exact other (List.cons.inj (List.append_cancel_left sibling)).1.symm
  · intro path absolute
    exact (pathIsUnderMountpoint_iff (some absolute) (some absolute)).mpr (.inr (.inl rfl))
  · intro a b c first second third under further
    rw [pathIsUnderMountpoint_iff (some first) (some second)] at under
    rw [pathIsUnderMountpoint_iff (some second) (some third)] at further
    exact (pathIsUnderMountpoint_iff (some first) (some third)).mpr
      (under.trans first (some third) further)

/-- A sibling with a common beginning, and a path with slashes to spare. -/
theorem containment_siblings :
    pathIsUnderMountpoint "/mnt/nfs2/rec".toList "/mnt/nfs".toList = false ∧
      pathIsUnderMountpoint "/mnt/nfs/rec/".toList "/mnt//nfs/rec".toList = false ∧
      pathIsUnderMountpoint "/mnt/nfs/rec".toList "/".toList = true := by
  obtain ⟨-, sibling, -, transitive⟩ := containment
  refine ⟨sibling _ _ '2' "/rec".toList (by decide) (by decide) (by decide) (by decide) (by decide),
    by decide, transitive _ "/mnt/nfs/".toList _ rfl rfl rfl (by decide) (by decide)⟩

end StreamRelay.Recorder
