import StreamRelay.Deploy.ControlPlane
import StreamRelay.PyText

/-! How a gate finds the worker of a stream. It does not source the configurations, it looks for a
line in their text. -/
namespace StreamRelay.Mlctl

open PyText

/-- str.strip of one character. -/
def stripOf (c : Char) (text : Text) : Text := (text.dropWhile (· = c)).rdropWhile (· = c)

section Read

variable (unicode : Unicode)

/-- What the first line that names a stream says. -/
def streamIdLine : List Text → Option Int
  | [] => none
  | line :: later =>
    let line := strip unicode line
    if line = [] ∨ line.head? = some '#' then streamIdLine later
    else
      match afterPrefix "STREAM_ID=".toList line with
      | some rhs => int unicode (stripOf '\'' (stripOf '"' (strip unicode rhs)))
      | none => streamIdLine later

def readStreamIdFromConf (text : Text) : Option Int :=
  streamIdLine unicode (text.splitOnP fun c => c = '\n' || c = '\r')

/-- The files of the directory, by their names, with their texts. -/
def findWorkerForStreamId (entries : List (Value × Text)) (streamId : Int) : Option Value :=
  (entries.find? fun entry => readStreamIdFromConf unicode entry.2 = some streamId).map Prod.fst

end Read

/-- What is relied on of the tables: the ten digits, and that no letter, digit or quotation mark
is a blank. -/
structure Plain (unicode : Unicode) : Prop where
  digit : ∀ c : Char, c.isDigit = true → unicode.decimal c = some (c.toNat - '0'.toNat)
  dark : ∀ c : Char, c.isAlphanum = true ∨ c = '"' → unicode.space c = false

variable {unicode : Unicode}

theorem trim_dark {dark : Char → Bool} {text : Text} (none_ : ∀ c ∈ text, dark c = false) :
    (text.dropWhile dark).rdropWhile dark = text := by
  cases text with
  | nil => rfl
  | cons first later =>
    have sound : ∀ c ∈ first :: later, ¬dark c = true := by
      intro c member
      rw [none_ c member]
      nofun
    rw [List.dropWhile_cons_of_neg (sound first List.mem_cons_self), List.rdropWhile_eq_self_iff]
    exact fun some_ => sound _ (List.getLast_mem some_)

/-- Nothing is stripped from a text with such ends. -/
theorem strip_ends (plain : Plain unicode) {first : Char} {middle : Text}
    (letter : first.isAlphanum = true ∨ first = '"') :
    strip unicode (first :: middle ++ ['"']) = first :: middle ++ ['"'] := by
  have front : (first :: middle ++ ['"']).dropWhile unicode.space = first :: middle ++ ['"'] := by
    rw [List.cons_append, List.dropWhile_cons_of_neg]
    rw [plain.dark first letter]
    nofun
  rw [strip, front, List.rdropWhile_concat_neg]
  rw [plain.dark '"' (Or.inr rfl)]
  nofun

theorem digits_read (plain : Plain unicode) {text : Text} (all : ∀ c ∈ text, c.isDigit = true)
    (value : Nat) :
    digits unicode true value text = some (Nat.ofDigitChars 10 text value) := by
  induction text generalizing value with
  | nil => rfl
  | cons c text ih =>
    have digit := all c List.mem_cons_self
    have other : c ≠ '_' := by
      rintro rfl
      cases digit
    rw [digits, if_neg other, plain.digit c digit, Nat.ofDigitChars_cons]
    exact ih (fun c member => all c (List.mem_cons_of_mem _ member)) _

/-- A number without quotation marks is read as it was written. -/
theorem int_digits (plain : Plain unicode) (n : Nat) :
    int unicode (Nat.toDigits 10 n) = some (n : Int) := by
  have all : ∀ c ∈ Nat.toDigits 10 n, c.isDigit = true := fun c member =>
    Nat.isDigit_of_mem_toDigits (by decide) (by decide) member
  have whole : strip unicode (Nat.toDigits 10 n) = Nat.toDigits 10 n := by
    apply trim_dark
    intro c member
    apply plain.dark c
    rw [Char.isAlphanum, all c member, Bool.or_true]
    exact Or.inl rfl
  have value := Nat.ofDigitChars_ten_toDigits (n := n)
  unfold int
  rw [whole]
  split
  · rename_i later minus
    rw [minus] at all
    cases all '-' List.mem_cons_self
  · rename_i later plus
    rw [plus] at all
    cases all '+' List.mem_cons_self
  · obtain ⟨first, later, split⟩ := List.exists_cons_of_ne_nil
      (show Nat.toDigits 10 n ≠ [] from Nat.toDigits_ne_nil)
    rw [split] at all value ⊢
    have digit := all first List.mem_cons_self
    have other : first ≠ '_' := by
      rintro rfl
      cases digit
    rw [digits, if_neg other, plain.digit first digit]
    dsimp only
    rw [Nat.ofDigitChars_cons] at value
    rw [digits_read plain fun c member => all c (List.mem_cons_of_mem _ member), value]
    rfl

theorem text_shape (v : Var) : ∃ first rest, v.text = first :: rest ∧ first.isAlphanum = true ∧
    ∀ c ∈ v.text, ordinary c = true := by
  cases v <;> exact ⟨_, _, rfl, rfl, List.all_eq_true.mp rfl⟩

/-- A line is one line, and nothing is stripped from it. -/
theorem line_whole (plain : Plain unicode) (said : Var × Word) :
    (∀ c ∈ WorkerConfig.line said, (c = '\n' || c = '\r') = false) ∧
      strip unicode (WorkerConfig.line said) = WorkerConfig.line said ∧
      ¬(WorkerConfig.line said = [] ∨ (WorkerConfig.line said).head? = some '#') := by
  obtain ⟨first, rest, text, letter, named⟩ := text_shape said.1
  refine ⟨?_, ?_, ?_⟩
  · intro c member
    have clean {c : Char} (usual : ordinary c = true) : (c = '\n' || c = '\r') = false := by
      rw [ordinary, decide_eq_true_eq] at usual
      simp only [List.mem_cons, List.not_mem_nil, or_false, not_or] at usual
      simp [usual.2.2.2.2]
    rw [WorkerConfig.line, List.mem_append, List.mem_append, List.mem_append] at member
    rcases member with ((name | opening) | inside) | closing
    · exact clean (named c name)
    · have marks : ∀ c ∈ "=\"".toList, (c = '\n' || c = '\r') = false := by simp
      exact marks c opening
    · exact clean (said.2.2 c inside)
    · obtain rfl := List.mem_singleton.mp closing
      rfl
  · rw [WorkerConfig.line, text, List.cons_append, List.cons_append]
    exact strip_ends plain (Or.inl letter)
  · rw [WorkerConfig.line, text]
    rintro (empty | comment)
    · cases empty
    · obtain rfl := Option.some.inj comment
      cases letter

theorem text_lines (plain : Plain unicode) (config : WorkerConfig) :
    config.text.splitOnP (fun c => c = '\n' || c = '\r') =
      config.lines.map WorkerConfig.line ++ [[]] := by
  rw [WorkerConfig.text]
  induction config.lines with
  | nil => rfl
  | cons said lines ih =>
    rw [List.flatMap_cons, List.append_assoc, List.singleton_append,
      List.splitOnP_append_cons_of_forall_mem (line_whole plain said).1 '\n' rfl, ih]
    rfl

/-- A line for another variable is passed over. -/
theorem streamIdLine_other (plain : Plain unicode) {said : Var × Word} (later : List Text)
    (other : afterPrefix "STREAM_ID=".toList (WorkerConfig.line said) = none) :
    streamIdLine unicode (WorkerConfig.line said :: later) = streamIdLine unicode later := by
  obtain ⟨-, whole, spoken⟩ := line_whole plain said
  rw [streamIdLine, whole, if_neg spoken, other]

/-- Quotation marks around a number go. -/
theorem stripOf_quotes (n : Nat) :
    stripOf '\'' (stripOf '"' ('"' :: (Nat.toDigits 10 n ++ ['"']))) = Nat.toDigits 10 n := by
  have other (mark : Char) (apart : mark.isDigit = false) :
      ∀ c ∈ Nat.toDigits 10 n, decide (c = mark) = false := by
    intro c member
    have digit := Nat.isDigit_of_mem_toDigits (b := 10) (by decide) (by decide) member
    apply decide_eq_false
    rintro rfl
    rw [apart] at digit
    cases digit
  have quoted : stripOf '"' ('"' :: (Nat.toDigits 10 n ++ ['"'])) = Nat.toDigits 10 n := by
    obtain ⟨first, later, split⟩ := List.exists_cons_of_ne_nil
      (show Nat.toDigits 10 n ≠ [] from Nat.toDigits_ne_nil)
    have marks := other '"' rfl
    have inside := trim_dark marks
    rw [split] at marks inside ⊢
    have stays (rest : Text) :
        (first :: rest).dropWhile (fun c => decide (c = '"')) = first :: rest := by
      apply List.dropWhile_cons_of_neg
      rw [marks first List.mem_cons_self]
      nofun
    rw [stays] at inside
    rw [stripOf, List.dropWhile_cons_of_pos rfl, List.cons_append, stays, ← List.cons_append,
      List.rdropWhile_concat_pos _ _ _ rfl, inside]
  rw [quoted]
  exact trim_dark (other '\'' rfl)

theorem readStreamId_assigned (plain : Plain unicode) {env : Environment} {config : WorkerConfig}
    {n : Nat} (assigned : Assigned env config n) :
    readStreamIdFromConf unicode config.text = some (n : Int) := by
  have other (v : Var) (word : Word) (apart : "STREAM_ID=".toList.isPrefixOf
      (v.text ++ "=\"".toList ++ word.val ++ ['"']) = false) :
      afterPrefix "STREAM_ID=".toList (WorkerConfig.line (v, word)) = none := by
    rw [afterPrefix, WorkerConfig.line, apart]
    rfl
  have digits : config.streamId.val = Nat.toDigits 10 n := by
    rw [assigned.streamId, number_val, arithmetic_nat assigned.fits]
  have own : afterPrefix "STREAM_ID=".toList (WorkerConfig.line (.streamId, config.streamId)) =
      some ('"' :: (Nat.toDigits 10 n ++ ['"'])) := by
    rw [← digits]
    rfl
  have quoted : strip unicode ('"' :: (Nat.toDigits 10 n ++ ['"'])) =
      '"' :: (Nat.toDigits 10 n ++ ['"']) := strip_ends plain (Or.inr rfl)
  obtain ⟨-, whole, spoken⟩ := line_whole plain (.streamId, config.streamId)
  rw [readStreamIdFromConf, text_lines plain]
  simp only [WorkerConfig.lines, List.map_cons, List.cons_append]
  rw [streamIdLine_other plain _ (other .host _ rfl), streamIdLine_other plain _ (other .app _ rfl),
    streamIdLine_other plain _ (other .image _ rfl), streamIdLine_other plain _ (other .workerBin _ rfl),
    streamIdLine_other plain _ (other .tcpHost _ rfl), streamIdLine_other plain _ (other .tcpPort _ rfl),
    streamIdLine, whole, if_neg spoken, own]
  dsimp only
  rw [quoted, stripOf_quotes, int_digits plain]

/-- What a gate finds in the directory. -/
def entriesOf (files : Files) (names : List Value) : List (Value × Text) :=
  names.filterMap fun name => (files name).map fun config => (name, config.text)

/-- The worker that a gate brings up for a stream sends that stream, and one is found if there is
one. -/
structure GateFinds (unicode : Unicode) (keyDir : CText.Text) (env : Environment) (files : Files)
    (names : List Value) : Prop where
  right : ∀ (streamId : UInt16) name s o,
    findWorkerForStreamId unicode (entriesOf files names) streamId.toNat = some name →
      upWorker keyDir env files name s = some o → o.streamId = streamId
  found : ∀ (n : Nat) name config, files name = some config → Assigned env config n →
    ∃ other, findWorkerForStreamId unicode (entriesOf files names) n = some other

/-- In whatever order the files are listed. -/
theorem gate_finds_worker (plain : Plain unicode) (keyDir : CText.Text) (env : Environment)
    (commands : List Command) (regular : ∀ c ∈ commands, c.Regular env) (names : List Value)
    (listed : ∀ name, name ∈ names ↔ (managed env commands name).isSome = true) :
    GateFinds unicode keyDir env (managed env commands) names := by
  have consistent : Consistent env (managed env commands) := commands_keep commands regular nofun
  generalize managed env commands = files at *
  constructor
  · intro streamId name s o found up
    obtain ⟨n, started⟩ := upWorker_started consistent up
    obtain ⟨config, there, assigned⟩ := started.configured
    obtain ⟨entry, first, rfl⟩ := Option.map_eq_some_iff.mp found
    obtain ⟨other, -, entry_eq⟩ := List.mem_filterMap.mp (List.mem_of_find?_eq_some first)
    obtain ⟨otherConfig, otherThere, rfl⟩ := Option.map_eq_some_iff.mp entry_eq
    rw [there] at otherThere
    obtain rfl := Option.some.inj otherThere
    have read := List.find?_some first
    rw [decide_eq_true_eq, readStreamId_assigned plain assigned] at read
    have same : n = streamId.toNat := Int.ofNat.inj (Option.some.inj read)
    apply UInt16.toNat_inj.mp
    have small := streamId.toNat_lt
    rw [← started.stream, streamKey_toNat started.fits, same]
    omega
  · intro n name config there assigned
    have member : name ∈ names := (listed name).mpr (by rw [there]; rfl)
    have among : (name, config.text) ∈ entriesOf files names := by
      apply List.mem_filterMap.mpr
      exact ⟨name, member, by rw [there]; rfl⟩
    have some_ : ((entriesOf files names).find? fun entry =>
        readStreamIdFromConf unicode entry.2 = some (n : Int)).isSome = true := by
      rw [List.find?_isSome]
      exact ⟨_, among, decide_eq_true (readStreamId_assigned plain assigned)⟩
    obtain ⟨entry, first⟩ := Option.isSome_iff_exists.mp some_
    exact ⟨entry.1, Option.map_eq_some_iff.mpr ⟨entry, first, rfl⟩⟩

theorem ascii_plain : Plain ascii := by
  constructor
  · intro c digit
    exact if_pos digit
  · intro c letter
    have dark : ¬(c = ' ' ∨ c = '\t' ∨ c = '\r' ∨ c = '\n') := by
      rintro (rfl | rfl | rfl | rfl) <;> revert letter <;> decide
    rw [← Bool.not_eq_true]
    intro blank
    simp only [ascii, Char.isWhitespace, Bool.or_eq_true, decide_eq_true_eq, or_assoc] at blank
    exact dark blank

/-- Two workers of one batch, and the tables of ASCII. -/
theorem gate_finds_worker_batch :
    GateFinds ascii [] emptyEnvironment (managed emptyEnvironment sampleCommands)
      ["worker_s1".toList, "worker_s2".toList] :=
  gate_finds_worker ascii_plain [] emptyEnvironment sampleCommands
    (by simp [sampleCommands, Command.Regular]) _ sample_listed

end StreamRelay.Mlctl
