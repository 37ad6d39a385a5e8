import Mathlib.Data.List.Nodup

/-! Dictionaries that keep the order in which their keys came. A key that is given again keeps its
place. -/
namespace StreamRelay

@[ext] structure Dict (Key Value : Type*) where
  items : List (Key × Value)
  distinct : (items.map Prod.fst).Nodup

namespace Dict

variable {Key Value : Type*}

theorem append_distinct {key : Key} {d : Dict Key Value} (absent : key ∉ d.items.map Prod.fst)
    (value : Value) : ((d.items ++ [(key, value)]).map Prod.fst).Nodup := by
  rw [List.map_append, List.map_singleton, List.nodup_append_comm]
  exact List.nodup_cons.mpr ⟨absent, d.distinct⟩

variable [DecidableEq Key]

def empty : Dict Key Value := ⟨[], List.nodup_nil⟩

def get (key : Key) (d : Dict Key Value) : Option Value :=
  (d.items.find? (·.1 = key)).map Prod.snd

def pop (key : Key) (d : Dict Key Value) : Dict Key Value :=
  ⟨d.items.filter (·.1 ≠ key), d.distinct.sublist (List.filter_sublist.map _)⟩

def replaced (key : Key) (value : Value) (items : List (Key × Value)) : List (Key × Value) :=
  items.map fun item => if item.1 = key then (key, value) else item

theorem replaced_keys (key : Key) (value : Value) (items : List (Key × Value)) :
    (replaced key value items).map Prod.fst = items.map Prod.fst := by
  rw [replaced, List.map_map]
  apply List.map_congr_left
  intro item _
  simp only [Function.comp]
  split
  · rename_i same
    exact same.symm
  · rfl

def set (key : Key) (value : Value) (d : Dict Key Value) : Dict Key Value :=
  if absent : key ∉ d.items.map Prod.fst then
    ⟨d.items ++ [(key, value)], append_distinct absent value⟩
  else ⟨replaced key value d.items, by rw [replaced_keys]; exact d.distinct⟩

variable {d : Dict Key Value} {key other : Key} {value : Value}

theorem get_eq_some : d.get key = some value ↔ (key, value) ∈ d.items := by
  rw [get, Option.map_eq_some_iff]
  constructor
  · rintro ⟨⟨key', value'⟩, found, rfl⟩
    obtain rfl : key' = key := by simpa using List.find?_some found
    exact List.mem_of_find?_eq_some found
  · intro member
    cases found : d.items.find? (·.1 = key) with
    | none =>
      rw [List.find?_eq_none] at found
      simpa using found (key, value) member
    | some item =>
      have same : item.1 = key := by simpa using List.find?_some found
      have unique := List.inj_on_of_nodup_map d.distinct (List.mem_of_find?_eq_some found) member same
      exact ⟨item, rfl, by rw [unique]⟩

theorem get_eq_none : d.get key = none ↔ key ∉ d.items.map Prod.fst := by
  rw [Option.eq_none_iff_forall_ne_some]
  constructor
  · intro absent member
    obtain ⟨⟨key', value⟩, inside, rfl⟩ := List.mem_map.mp member
    exact absent value (get_eq_some.mpr inside)
  · intro absent value found
    exact absent (List.mem_map_of_mem (get_eq_some.mp found))

@[simp] theorem get_empty (key : Key) : (empty : Dict Key Value).get key = none := rfl

@[simp] theorem get_pop_self : (d.pop key).get key = none := by
  rw [get_eq_none]
  intro member
  obtain ⟨item, member, same⟩ := List.mem_map.mp member
  rw [pop, List.mem_filter, decide_eq_true_eq] at member
  exact member.2 same

theorem get_pop_other (apart : other ≠ key) : (d.pop key).get other = d.get other := by
  apply Option.ext
  intro value
  rw [get_eq_some, get_eq_some, pop, List.mem_filter]
  simp [apart]

@[simp] theorem get_set_self : (d.set key value).get key = some value := by
  rw [get_eq_some, set]
  split
  · exact List.mem_append_right _ (List.mem_singleton_self _)
  · rename_i present
    obtain ⟨item, member, same⟩ := List.mem_map.mp (not_not.mp present)
    exact List.mem_map.mpr ⟨item, member, if_pos same⟩

theorem get_set_other (apart : other ≠ key) : (d.set key value).get other = d.get other := by
  apply Option.ext
  intro value'
  rw [get_eq_some, get_eq_some, set]
  split
  · rw [List.mem_append, List.mem_singleton]
    constructor
    · rintro (member | same)
      · exact member
      · exact absurd (congrArg Prod.fst same) apart
    · exact Or.inl
  · simp only [replaced, List.mem_map]
    constructor
    · rintro ⟨item, member, same⟩
      split at same
      · exact absurd (congrArg Prod.fst same).symm apart
      · rw [← same]
        exact member
    · intro member
      exact ⟨(other, value'), member, if_neg apart⟩

theorem get_mono_pop (found : (d.pop key).get other = some value) : d.get other = some value := by
  by_cases same : other = key
  · rw [same, get_pop_self] at found
    cases found
  · rw [← found, get_pop_other same]

theorem pop_items {before after : List (Key × Value)}
    (split : d.items = before ++ (key, value) :: after) : (d.pop key).items = before ++ after := by
  have distinct := d.distinct
  rw [split, List.map_append, List.map_cons, List.nodup_middle, List.nodup_cons,
    ← List.map_append] at distinct
  have others : ∀ item ∈ before ++ after, decide (item.1 ≠ key) = true := by
    intro item member
    apply decide_eq_true
    intro same
    exact distinct.1 (List.mem_map.mpr ⟨item, member, same⟩)
  change d.items.filter (fun item => item.1 ≠ key) = before ++ after
  rw [split, List.filter_append, List.filter_cons_of_neg (by simp), ← List.filter_append]
  exact List.filter_eq_self.mpr others

/-- Those of the listed items go whose value is so. -/
def popWhere (expired : Value → Bool) : List (Key × Value) → Dict Key Value → Dict Key Value
  | [], d => d
  | (key, value) :: listed, d =>
    popWhere expired listed (if expired value then d.pop key else d)

/-- The first items are listed, and the others stay. -/
theorem popWhere_items (expired : Value → Bool) (rest : List (Key × Value)) :
    ∀ listed kept (d : Dict Key Value), d.items = kept ++ (listed ++ rest) →
      (popWhere expired listed d).items =
        kept ++ (listed.filter (fun item => !expired item.2) ++ rest) := by
  intro listed
  induction listed with
  | nil => exact fun _ _ split => split
  | cons item listed ih =>
    obtain ⟨key, value⟩ := item
    intro kept d split
    rw [popWhere]
    by_cases goes : expired value = true
    · rw [if_pos goes, List.filter_cons_of_neg (by simp [goes])]
      exact ih kept (d.pop key) (pop_items split)
    · rw [if_neg goes, List.filter_cons_of_pos (by simp [goes])]
      have split : d.items = (kept ++ [(key, value)]) ++ (listed ++ rest) := by
        rw [split, List.append_assoc]
        rfl
      rw [ih (kept ++ [(key, value)]) d split, List.append_assoc]
      rfl

end Dict

end StreamRelay
