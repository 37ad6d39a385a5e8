import StreamRelay.Run

/-! Since when something holds in a run: the input that made it hold, after which it has not
ceased to. There is one such input at most, and one at least where nothing holds at first. -/
namespace StreamRelay.Run

variable {State Input : Type*} (step : State → Input → State) (start : State) (holds : State → Prop)

def Since (past : List Input) (input : Input) : Prop :=
  ∃ before after, past = before ++ input :: after ∧ ¬holds (run step start before) ∧
    ∀ taken rest, after = taken ++ rest → holds (run step start (before ++ input :: taken))

variable {step start holds} {past : List Input} {input : Input}

theorem Since.begins (not : ¬holds (run step start past))
    (now : holds (run step start (past ++ [input]))) :
    Since step start holds (past ++ [input]) input := by
  refine ⟨past, [], rfl, not, fun taken rest split => ?_⟩
  obtain ⟨rfl, -⟩ := List.append_eq_nil_iff.mp split.symm
  exact now

theorem Since.continues {next : Input} (since : Since step start holds past input)
    (still : holds (run step start (past ++ [next]))) :
    Since step start holds (past ++ [next]) input := by
  obtain ⟨before, after, rfl, not, held⟩ := since
  refine ⟨before, after ++ [next], by simp, not, fun taken rest split => ?_⟩
  rcases List.eq_nil_or_concat rest with rfl | ⟨rest, last, rfl⟩
  · rw [List.append_nil] at split
    subst split
    simpa using still
  · rw [List.concat_eq_append, ← List.append_assoc] at split
    exact held taken rest (List.append_inj' split rfl).1

theorem Since.now (since : Since step start holds past input) : holds (run step start past) := by
  obtain ⟨before, after, rfl, -, held⟩ := since
  exact held after [] (List.append_nil _).symm

theorem Since.unique {other : Input} (since : Since step start holds past input)
    (again : Since step start holds past other) : input = other := by
  obtain ⟨before, after, rfl, not, held⟩ := since
  obtain ⟨before', after', split, not', held'⟩ := again
  rcases List.append_eq_append_iff.mp split with ⟨more, rfl, same⟩ | ⟨more, rfl, same⟩
  · rcases more with - | ⟨first, more⟩
    · exact (List.cons.inj same).1
    · obtain ⟨rfl, rest⟩ := List.cons.inj same
      exact absurd (held more _ rest) not'
  · rcases more with - | ⟨first, more⟩
    · exact (List.cons.inj same).1.symm
    · obtain ⟨rfl, rest⟩ := List.cons.inj same
      exact absurd (held' more _ rest) not

end StreamRelay.Run
