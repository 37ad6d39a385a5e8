import Mathlib.Data.List.Chain
import Mathlib.Data.List.Induction
import Mathlib.Data.List.ModifyLast

/-! A line carries frames one after the other, and of each frame as many of its bytes as
were sent before the next one was begun. Which frame may be begun is a rule over the frame
before it and how much of that was sent. -/
namespace StreamRelay.Wire

variable {Frame Byte : Type*}

/-- The frames begun on the line, oldest first, each with the number of its bytes sent. -/
abbrev Line (Frame : Type*) := List (Frame × Nat)

def Line.start (line : Line Frame) (frame : Frame) : Line Frame := line ++ [(frame, 0)]

def Line.grow (line : Line Frame) (count : Nat) : Line Frame :=
  line.modifyLast fun u => (u.1, u.2 + count)

/-- The frames of which at least one byte was sent. -/
def Line.sent (line : Line Frame) : Line Frame := line.filter fun u => 0 < u.2

def Line.frames (line : Line Frame) : List Frame := line.map Prod.fst

@[simp] theorem start_last (line : Line Frame) (frame : Frame) :
    (line.start frame).getLast? = some (frame, 0) := by
  simp [Line.start]

@[simp] theorem grow_nil (count : Nat) : Line.grow ([] : Line Frame) count = [] := rfl

@[simp] theorem grow_snoc (line : Line Frame) (frame : Frame) (sent count : Nat) :
    Line.grow (line ++ [(frame, sent)]) count = line ++ [(frame, sent + count)] :=
  List.modifyLast_concat ..

@[simp] theorem frames_snoc (line : Line Frame) (u : Frame × Nat) :
    Line.frames (line ++ [u]) = line.frames ++ [u.1] := by
  simp [Line.frames]

@[simp] theorem frames_start (line : Line Frame) (frame : Frame) :
    (line.start frame).frames = line.frames ++ [frame] := by
  simp [Line.start]

@[simp] theorem frames_grow (line : Line Frame) (count : Nat) :
    (line.grow count).frames = line.frames := by
  rcases List.eq_nil_or_concat line with rfl | ⟨past, ⟨frame, sent⟩, rfl⟩
  · rfl
  · simp

theorem grow_last {line : Line Frame} {frame : Frame} {sent : Nat}
    (last : line.getLast? = some (frame, sent)) (count : Nat) :
    (line.grow count).getLast? = some (frame, sent + count) := by
  obtain ⟨past, rfl⟩ := List.getLast?_eq_some_iff.mp last
  simp

@[simp] theorem grow_zero (line : Line Frame) : line.grow 0 = line := by
  rcases List.eq_nil_or_concat line with rfl | ⟨past, ⟨frame, sent⟩, rfl⟩
  · rfl
  · simp

section
variable (data : Frame → List Byte)

/-- What the other end of the line has received. -/
def bytes (line : Line Frame) : List Byte := line.flatMap fun u => (data u.1).take u.2

def Whole (u : Frame × Nat) : Prop := u.2 = (data u.1).length

@[simp] theorem bytes_nil : bytes data [] = [] := rfl

@[simp] theorem bytes_snoc (line : Line Frame) (u : Frame × Nat) :
    bytes data (line ++ [u]) = bytes data line ++ (data u.1).take u.2 := by
  simp [bytes]

@[simp] theorem bytes_start (line : Line Frame) (frame : Frame) :
    bytes data (line.start frame) = bytes data line := by
  simp [Line.start]

theorem bytes_grow {line : Line Frame} {frame : Frame} {sent : Nat}
    (last : line.getLast? = some (frame, sent)) (count : Nat) :
    bytes data (line.grow count) =
      bytes data line ++ ((data frame).drop sent).take count := by
  obtain ⟨past, rfl⟩ := List.getLast?_eq_some_iff.mp last
  simp [List.take_add]

theorem frames_sent (line : Line Frame) : line.sent.frames.Sublist line.frames :=
  List.filter_sublist.map _

theorem bytes_sent (line : Line Frame) : bytes data line.sent = bytes data line := by
  induction line with
  | nil => rfl
  | cons u line ih =>
    rcases Nat.eq_zero_or_pos u.2 with none | some
    · simp only [Line.sent, bytes, List.filter_cons, none, List.flatMap_cons] at ih ⊢
      simpa using ih
    · simp only [Line.sent, bytes, List.filter_cons, some, List.flatMap_cons] at ih ⊢
      simpa using ih

/-- No frame is sent beyond its end, and each one was begun where the rule lets it. -/
inductive Orderly (after : Option (Frame × Nat) → Frame → Prop) : Line Frame → Prop
  | nil : Orderly after []
  | snoc {line : Line Frame} {frame : Frame} {sent : Nat} :
      Orderly after line → after line.getLast? frame → sent ≤ (data frame).length →
      Orderly after (line ++ [(frame, sent)])

variable {data} {after after' : Option (Frame × Nat) → Frame → Prop} {line : Line Frame}

namespace Orderly

theorem init {frame : Frame} {sent : Nat} (orderly : Orderly data after (line ++ [(frame, sent)])) :
    Orderly data after line ∧ after line.getLast? frame ∧ sent ≤ (data frame).length := by
  generalize whole : line ++ [(frame, sent)] = all at orderly
  cases orderly with
  | nil => simp at whole
  | snoc before may within =>
    obtain ⟨rfl, same⟩ := List.append_inj' whole rfl
    obtain ⟨rfl, rfl⟩ := Prod.mk.inj (List.cons.inj same).1
    exact ⟨before, may, within⟩

theorem start {frame : Frame} (orderly : Orderly data after line)
    (may : after line.getLast? frame) : Orderly data after (line.start frame) :=
  orderly.snoc may (Nat.zero_le _)

theorem grow {frame : Frame} {sent count : Nat} (orderly : Orderly data after line)
    (last : line.getLast? = some (frame, sent)) (within : sent + count ≤ (data frame).length) :
    Orderly data after (line.grow count) := by
  obtain ⟨past, rfl⟩ := List.getLast?_eq_some_iff.mp last
  obtain ⟨before, may, -⟩ := orderly.init
  rw [grow_snoc]
  exact before.snoc may within

theorem mono (weaker : ∀ u frame, after u frame → after' u frame)
    (orderly : Orderly data after line) : Orderly data after' line := by
  induction orderly with
  | nil => exact .nil
  | snoc _ may within ih => exact ih.snoc (weaker _ _ may) within

theorem within (orderly : Orderly data after line) :
    ∀ u ∈ line, u.2 ≤ (data u.1).length := by
  induction orderly with
  | nil => simp
  | snoc _ _ within ih =>
    intro u member
    rcases List.mem_append.mp member with member | member
    · exact ih u member
    · obtain rfl := List.mem_singleton.mp member
      exact within

theorem all {property : Frame → Prop} (each : ∀ u frame, after u frame → property frame)
    (orderly : Orderly data after line) : ∀ u ∈ line, property u.1 := by
  induction orderly with
  | nil => simp
  | snoc _ may _ ih =>
    intro u member
    rcases List.mem_append.mp member with member | member
    · exact ih u member
    · obtain rfl := List.mem_singleton.mp member
      exact each _ _ may

/-- After a frame cut short comes a frame that resumes. -/
def Resumes (data : Frame → List Byte) (cut : Frame × Nat → Prop) (resume : Frame → Prop)
    (o : Option (Frame × Nat)) (frame : Frame) : Prop :=
  ∀ u ∈ o, Whole data u ∨ (cut u ∧ resume frame)

variable {cut : Frame × Nat → Prop} {resume : Frame → Prop}

theorem sent_snoc (line : Line Frame) (u : Frame × Nat) :
    Line.sent (line ++ [u]) = if 0 < u.2 then line.sent ++ [u] else line.sent := by
  by_cases some : 0 < u.2 <;> simp [Line.sent, some]

theorem sent_last (orderly : Orderly data (Resumes data cut resume) line) :
    ∀ u ∈ line.sent.getLast?, line.getLast? = some u ∨
      ((Whole data u ∨ cut u) ∧ ∃ frame, line.getLast? = some (frame, 0)) := by
  induction orderly with
  | nil => simp [Line.sent]
  | @snoc line frame count _ may _ ih =>
    intro u last
    rw [sent_snoc] at last
    by_cases some : 0 < count
    · rw [if_pos some] at last
      exact Or.inl (by simpa using last)
    · rw [if_neg some] at last
      obtain rfl : count = 0 := by omega
      refine Or.inr ⟨?_, frame, by simp⟩
      rcases ih u last with same | ⟨known, -⟩
      · exact (may u same).imp_right And.left
      · exact known

/-- The frames of which nothing was sent can be left out: the one behind them resumes too. -/
theorem sent (orderly : Orderly data (Resumes data cut resume) line)
    (nonempty : ∀ u ∈ line, data u.1 ≠ []) :
    Orderly data (Resumes data cut resume) line.sent := by
  induction orderly with
  | nil => exact .nil
  | @snoc line frame count before may within ih =>
    have nonempty : ∀ u ∈ line, data u.1 ≠ [] := fun u member => nonempty u (by simp [member])
    rw [sent_snoc]
    split
    · refine (ih nonempty).snoc ?_ within
      intro u last
      rcases before.sent_last u last with same | ⟨known, idle, final⟩
      · exact may u same
      · rcases may _ final with whole | ⟨-, resume⟩
        · exact absurd (List.length_eq_zero_iff.mp whole.symm)
            (nonempty _ (List.mem_of_getLast? final))
        · exact known.imp_right fun cut => ⟨cut, resume⟩
    · exact ih nonempty

theorem chain (orderly : Orderly data (Resumes data cut resume) line) :
    line.IsChain fun u v => Whole data u ∨ (cut u ∧ resume v.1) := by
  induction orderly with
  | nil => exact .nil
  | snoc _ may _ ih =>
    refine ih.append (.singleton _) ?_
    rintro u last v first
    obtain rfl : _ = v := by simpa using first
    exact may u last

end Orderly
end
end StreamRelay.Wire
