import StreamRelay.Agent.Control

/-! The AUTH line of a control connection: when the loop that waits for it comes to an end, and which
lines are right for it and for a video connection. -/
namespace StreamRelay.Agent.Control

open Arrival
open CText (newline inLine trimEnd)

variable {token sent line : Bytes} {s : Sock}

/-- What begins with a complete line has one. -/
theorem splitLine_take {text : Bytes} {n : Nat} (unfinished : CText.splitLine text = none) :
    CText.splitLine (text.take n) = none := by
  cases found : CText.splitLine (text.take n) with
  | none => rfl
  | some split =>
    obtain ⟨line, later⟩ := split
    obtain ⟨whole, clean⟩ := CText.splitLine_some found
    have same : text = line ++ newline :: (later ++ text.drop n) := by
      rw [← List.cons_append, ← List.append_assoc, ← whole, List.take_append_drop]
    rw [same, CText.splitLine_append clean] at unfinished
    cases unfinished

theorem peek_ready (n : Nat) (ready : s.wait.1 = true) :
    s.peek n = (some (s.rest.take (min n s.wait.2.arrived)), s.wait.2) := by
  rw [Sock.peek, if_pos ready, Sock.wait_rest]

theorem peek_silent (n : Nat) (silent : s.wait.1 = false) : s.peek n = (none, s.wait.2) := by
  rw [Sock.peek, if_neg (by simp [silent])]

/-- A part of a line that has come is looked at again and again, and no call waits. -/
theorem authLoop_spins (token : Bytes) (rounds : Nat) (sound : s.Sound) (ready : s.wait.1 = true)
    (unfinished : CText.splitLine s.rest = none) (few : s.rest.length < authPeekSize) :
    authLoop token rounds s = none := by
  induction rounds generalizing s with
  | zero => rfl
  | succ rounds ih =>
    obtain ⟨there, present, -⟩ := Sock.wait_ready sound ready
    have shorter : ¬ (s.rest.take (min authPeekSize s.wait.2.arrived)).length ≥ authPeekSize := by
      rw [List.length_take]
      omega
    rw [authLoop, peek_ready authPeekSize ready]
    dsimp only
    rw [splitLine_take unfinished]
    dsimp only
    rw [if_neg shorter]
    apply ih (Sock.wait_sound sound)
    · apply Sock.wait_patient
      · rw [Sock.wait_rest]
        exact there
      · exact Or.inr present
    · rw [Sock.wait_rest]
      exact unfinished
    · rw [Sock.wait_rest]
      exact few

/-- A round is the last one, or all that it has seen is a part of a line. -/
theorem authLoop_round (token : Bytes) (rounds : Nat) (s : Sock) :
    (authLoop token (rounds + 1) s).isSome = true ∨
      (CText.splitLine (s.rest.take (min authPeekSize s.wait.2.arrived)) = none ∧
        (s.rest.take (min authPeekSize s.wait.2.arrived)).length < authPeekSize ∧
          authLoop token (rounds + 1) s = authLoop token rounds s.wait.2) := by
  rw [authLoop]
  cases ready : s.wait.1 with
  | false =>
    rw [peek_silent authPeekSize ready]
    exact Or.inl rfl
  | true =>
    rw [peek_ready authPeekSize ready]
    dsimp only
    cases CText.splitLine (s.rest.take (min authPeekSize s.wait.2.arrived)) with
    | none =>
      dsimp only
      split
      · exact Or.inl rfl
      · rename_i few
        exact Or.inr ⟨rfl, Nat.lt_of_not_le few, rfl⟩
    | some split =>
      obtain ⟨line, later⟩ := split
      left
      dsimp only
      split
      · rfl
      · split <;> rfl

/-- With a line or a full buffer to come, the loop ends when all has come. -/
theorem authLoop_returns (token : Bytes) (events : List Event) (s : Sock) (left : s.events = events)
    (comes : (CText.splitLine (s.rest.take authPeekSize)).isSome = true ∨ authPeekSize ≤ s.rest.length) :
    (authLoop token (events.length + 1) s).isSome = true := by
  induction events generalizing s with
  | nil =>
    obtain returned | ⟨unfinished, few, -⟩ := authLoop_round token 0 s
    · exact returned
    · have whole : s.rest.take (min authPeekSize s.wait.2.arrived) = s.rest.take authPeekSize := by
        rw [Sock.wait_all left, ← List.take_take, List.take_of_length_le (Nat.le_refl s.rest.length)]
      rw [whole] at unfinished few
      rw [List.length_take] at few
      rcases comes with line | full
      · rw [unfinished] at line
        cases line
      · omega
  | cons event events ih =>
    obtain returned | ⟨-, -, next⟩ := authLoop_round token (events.length + 1) s
    · exact returned
    · rw [List.length_cons, next]
      apply ih s.wait.2
      · rw [Sock.wait_events, left]
        rfl
      · rw [Sock.wait_rest]
        exact comes

/-- The loop ends, whatever comes, exactly if nothing comes in time, or a line, or as much as the
buffer holds. -/
theorem auth_returns_iff (token sent : Bytes) (events : List Event) :
    (∃ rounds, (authLoop token rounds ⟨sent, 0, true, events⟩).isSome = true) ↔
      sent = [] ∨ events.head? = some .timeout ∨
        (CText.splitLine (sent.take authPeekSize)).isSome = true ∨ authPeekSize ≤ sent.length := by
  have first : (⟨sent, 0, true, events⟩ : Sock).wait.1 = true ↔
      sent ≠ [] ∧ events.head? ≠ some .timeout := by
    cases events with
    | nil => simp [Sock.wait]
    | cons event events =>
      cases event with
      | more count => simp [Sock.wait]
      | timeout => simp [Sock.wait]
  constructor
  · rintro ⟨rounds, returned⟩
    by_contra never
    obtain ⟨there, never⟩ := not_or.mp never
    obtain ⟨intime, never⟩ := not_or.mp never
    obtain ⟨unfinished, few⟩ := not_or.mp never
    have few := Nat.lt_of_not_le few
    rw [List.take_of_length_le (Nat.le_of_lt few), Option.not_isSome_iff_eq_none] at unfinished
    have ready := first.mpr ⟨there, intime⟩
    rw [authLoop_spins token rounds (Nat.zero_le _) ready unfinished few] at returned
    cases returned
  · intro ends
    by_cases comes : (CText.splitLine (sent.take authPeekSize)).isSome = true ∨ authPeekSize ≤ sent.length
    · exact ⟨_, authLoop_returns token events _ rfl comes⟩
    · have silent : (⟨sent, 0, true, events⟩ : Sock).wait.1 = false := by
        apply Bool.eq_false_iff.mpr
        intro ready
        obtain ⟨there, intime⟩ := first.mp ready
        rcases ends with empty | late | comes'
        · exact there empty
        · exact intime late
        · exact comes comes'
      refine ⟨1, ?_⟩
      rw [authLoop, peek_silent authPeekSize silent]
      rfl

/-- The client sends the letter A, and then nothing more. -/
theorem letter_never_returns : ¬ ∃ rounds, (authLoop [116] rounds ⟨[65], 0, true, []⟩).isSome = true := by
  rintro ⟨rounds, returned⟩
  rw [authLoop_spins [116] rounds (Nat.zero_le _) rfl rfl (by decide)] at returned
  cases returned

/-- The AUTH line alone, as the first bytes of a video connection, is accepted. -/
def VideoAccepts (token line : Bytes) : Prop :=
  ((Handshake.begin token).round token false (.data (line ++ [newline]))).1 = .waiting ⟨true, []⟩

/-- The line has come whole to a control connection; 0 is returned. -/
def ControlAccepts (token line : Bytes) (limited : Bool) (events : List Event) : Prop :=
  (agentAuthReadAndCheck token ⟨line ++ [newline], line.length + 1, limited, events⟩).map Prod.fst =
    some true

instance (token line : Bytes) : Decidable (VideoAccepts token line) :=
  inferInstanceAs (Decidable (_ = _))

instance (token line : Bytes) (limited : Bool) (events : List Event) :
    Decidable (ControlAccepts token line limited events) :=
  inferInstanceAs (Decidable (_ = _))

/-- A configured token. -/
structure PlainToken (token : Bytes) : Prop where
  some : token ≠ []
  short : token.length ≤ gotSize - 1
  clean : ∀ byte ∈ token, CText.isSpace byte = false ∧ byte ≠ 0

/-- What trimEnd takes away. -/
def trims (byte : UInt8) : Bool := byte = 13 || byte = 32 || byte = 9

/-- Nothing stands before the AUTH line's word, and only what is trimmed behind the token. -/
def Trimmed (lead after : Bytes) : Prop := lead = [] ∧ ∀ byte ∈ after, trims byte = true

/-- Here the token's buffer is full, or the token ends. -/
def Ends (token after : Bytes) : Prop :=
  after = [] ∨ after.head? = some 13 ∨ token.length = gotSize - 1

theorem isSpace_of_trims {byte : UInt8} (trimmed : trims byte = true) : CText.isSpace byte = true := by
  simp only [trims, Bool.or_eq_true, decide_eq_true_eq] at trimmed
  rcases trimmed with (rfl | rfl) | rfl <;> rfl

theorem trimEnd_eq (line : Bytes) : trimEnd line = line.rdropWhile trims := rfl

/-- A line is trimmed to something that does not end in what is trimmed. -/
theorem trimEnd_iff {text : Bytes} (nonempty : text ≠ []) (last : trims (text.getLast nonempty) = false) :
    trimEnd line = text ↔ ∃ after, line = text ++ after ∧ ∀ byte ∈ after, trims byte = true := by
  rw [trimEnd_eq]
  constructor
  · rintro rfl
    refine ⟨line.rtakeWhile trims, ?_, fun byte member => List.mem_rtakeWhile_imp member⟩
    rw [List.rdropWhile_append_rtakeWhile]
  · rintro ⟨after, rfl, trimmed⟩
    have cut : (text ++ after).rdropWhile trims = text.rdropWhile trims := by
      rw [List.rdropWhile, List.reverse_append, List.dropWhile_append_of_pos]
      · rfl
      · exact fun byte member => trimmed byte (List.mem_reverse.mp member)
    rw [cut]
    exact List.rdropWhile_eq_self_iff.mpr fun _ => by simpa using last

theorem word_split {text : Bytes} : text.take 5 = authWord ∧ text.drop 5 = token ↔ text = authWord ++ token := by
  constructor
  · rintro ⟨word, rest⟩
    rw [← List.take_append_drop 5 text, word, rest]
  · rintro rfl
    exact ⟨rfl, rfl⟩

theorem videoAccepts_trimEnd (some : token ≠ []) (clean : ∀ byte ∈ line, inLine byte = true)
    (short : line.length + 1 ≤ 500) : VideoAccepts token line ↔ trimEnd line = authWord ++ token := by
  have room : (Handshake.begin token).room = 1023 := rfl
  have taken : (line ++ [newline]).take 1023 = line ++ [newline] := by
    apply List.take_of_length_le
    rw [List.length_append, List.length_singleton]
    omega
  have later : ∀ rounds, lineLoop token rounds true [] = .rest true [] := by
    intro rounds
    cases rounds <;> rfl
  have kept : ([] : Bytes).length ≠ (line ++ [newline]).length := by simp
  rw [VideoAccepts, Handshake.round, if_neg Bool.false_ne_true]
  dsimp only
  rw [room, taken, if_neg (by simp), Handshake.readLines, ← word_split]
  simp only [Handshake.begin, List.nil_append, some, decide_false, lineLoop,
    CText.splitLine_append clean, Bool.not_false, if_true, later, ne_eq]
  by_cases word : (trimEnd line).take 5 = authWord
  · by_cases same : (trimEnd line).drop 5 = token
    · simp only [word, same, not_true_eq_false, if_false, if_neg kept, true_and]
      exact ⟨fun _ => trivial, fun _ => rfl⟩
    · simp [word, same]
  · simp [word]

theorem videoAccepts_iff (fit : PlainToken token) (clean : ∀ byte ∈ line, inLine byte = true)
    (short : line.length + 1 ≤ 500) :
    VideoAccepts token line ↔
      ∃ after, line = authWord ++ token ++ after ∧ ∀ byte ∈ after, trims byte = true := by
  have nonempty : authWord ++ token ≠ [] := by simp [fit.some]
  rw [videoAccepts_trimEnd fit.some clean short]
  apply trimEnd_iff nonempty
  rw [List.getLast_append_of_ne_nil _ fit.some]
  cases trimmed : trims (token.getLast fit.some) with
  | false => rfl
  | true =>
    have plain := (fit.clean _ (List.getLast_mem fit.some)).1
    rw [isSpace_of_trims trimmed] at plain
    cases plain

/-- The blanks before the word and what comes after the token are those of the line. -/
theorem parts_unique {lead after lead' after' : Bytes} (blank : ∀ byte ∈ lead, isBlank byte = true)
    (too : ∀ byte ∈ lead', isBlank byte = true)
    (same : lead ++ (authWord ++ token ++ after) = lead' ++ (authWord ++ token ++ after')) :
    lead = lead' ∧ after = after' := by
  have stops : ∀ after : Bytes, (authWord ++ token ++ after).dropWhile isBlank = authWord ++ token ++ after := by
    intro after
    exact List.dropWhile_cons_of_neg nofun
  have begins := congrArg (List.dropWhile isBlank) same
  rw [List.dropWhile_append_of_pos blank, List.dropWhile_append_of_pos too, stops, stops] at begins
  obtain rfl := List.append_cancel_left begins
  exact ⟨List.append_cancel_right same, rfl⟩

/-- The line that has come is read in one round. -/
theorem controlAccepts_token (some : token ≠ []) (clean : ∀ byte ∈ line, inLine byte = true)
    (short : line.length + 1 ≤ 500) (limited : Bool) (events : List Event) :
    ControlAccepts token line limited events ↔ presentedToken line = Option.some token := by
  rw [ControlAccepts, agentAuthReadAndCheck, if_neg some]
  dsimp only
  generalize start : (⟨line ++ [newline], line.length + 1, true, events⟩ : Sock) = s
  have rest : s.rest = line ++ [newline] := by rw [← start]
  have arrived : s.arrived = line.length + 1 := by rw [← start]
  have length : s.rest.length = line.length + 1 := by rw [rest, List.length_append, List.length_singleton]
  have sound : s.Sound := by rw [Sock.Sound, arrived, length]
  have there : s.rest ≠ [] := by simp [rest]
  have ready : s.wait.1 = true := Sock.wait_patient there (Or.inr (by omega))
  obtain ⟨-, -, come⟩ := Sock.wait_ready sound ready
  rw [arrived] at come
  have whole : s.rest.take (min authPeekSize s.wait.2.arrived) = line ++ [newline] := by
    have size : authPeekSize = 511 := rfl
    rw [List.take_of_length_le (by omega), rest]
  obtain ⟨taken, -⟩ := Sock.recv_come (Nat.succ_pos line.length) come (Sock.wait_sound sound)
  rw [Sock.wait_rest, List.take_of_length_le (Nat.le_of_eq length), rest] at taken
  rw [authLoop, peek_ready authPeekSize ready, whole]
  dsimp only
  rw [CText.splitLine_append clean]
  dsimp only
  rcases received : s.wait.2.recv (line.length + 1) with ⟨got, after⟩
  rw [received] at taken
  obtain rfl : got = Option.some (line ++ [newline]) := taken
  dsimp only
  rw [if_neg (by simp)]
  simp

/-- The bytes that a token may have in its line. -/
def inToken (byte : UInt8) : Bool := inLine byte && byte ≠ 13

theorem token_inToken (fit : PlainToken token) : ∀ byte ∈ token, inToken byte = true := by
  intro byte member
  obtain ⟨plain, nonzero⟩ := fit.clean byte member
  have not_newline : byte ≠ newline := by
    rintro rfl
    cases plain
  have not_return : byte ≠ 13 := by
    rintro rfl
    cases plain
  simp [inToken, inLine, not_newline, not_return, nonzero]

theorem takeWhile_inToken (text : Bytes) :
    (text ++ [newline]).takeWhile inToken = text.takeWhile inToken := by
  have stops : [newline].takeWhile inToken = [] := rfl
  rw [List.takeWhile_append, stops, List.append_nil]
  split
  · rename_i full
    exact (List.takeWhile_prefix inToken).eq_of_length full |>.symm
  · rfl

theorem presentedToken_word (lead : Bytes) (text : Bytes) (blank : ∀ byte ∈ lead, isBlank byte = true) :
    presentedToken (lead ++ (authWord ++ text)) = some ((text.takeWhile inToken).take (gotSize - 1)) := by
  have skipped : (lead ++ (authWord ++ text) ++ [newline]).dropWhile isBlank =
      authWord ++ (text ++ [newline]) := by
    rw [List.append_assoc, List.dropWhile_append_of_pos blank, List.append_assoc]
    exact List.dropWhile_cons_of_neg nofun
  rw [presentedToken, skipped]
  have word : (authWord ++ (text ++ [newline])).take 5 = authWord := rfl
  have rest : (authWord ++ (text ++ [newline])).drop 5 = text ++ [newline] := rfl
  rw [word, rest, if_neg (fun differs => differs rfl)]
  exact congrArg (fun found => some (found.take (gotSize - 1))) (takeWhile_inToken text)

/-- A line that presents a token has the word behind its blanks. -/
theorem word_of_presentedToken (presented : presentedToken line = some token) :
    ∃ lead text, line = lead ++ (authWord ++ text) ∧ ∀ byte ∈ lead, isBlank byte = true := by
  have blank : ∀ byte ∈ line.takeWhile isBlank, isBlank byte = true :=
    fun byte member => List.mem_takeWhile_imp member
  have word : ((line ++ [newline]).dropWhile isBlank).take 5 = authWord := by
    by_contra other
    rw [presentedToken, if_pos other] at presented
    cases presented
  rw [List.dropWhile_append] at word
  split at word
  · cases word
  · have enough : 5 ≤ (line.dropWhile isBlank).length := by
      by_contra few
      have whole : (line.dropWhile isBlank ++ [newline]).length ≤ 5 := by
        rw [List.length_append, List.length_singleton]
        omega
      rw [List.take_of_length_le whole] at word
      have member : newline ∈ authWord := by simp [← word]
      exact absurd member (by decide)
    rw [List.take_append_of_le_length enough] at word
    refine ⟨line.takeWhile isBlank, (line.dropWhile isBlank).drop 5, ?_, blank⟩
    rw [← word, List.take_append_drop, List.takeWhile_append_dropWhile]

/-- The token ends where the line's does, at a CR, or where its buffer is full. -/
theorem taken_iff (fit : PlainToken token) {text : Bytes} (clean : ∀ byte ∈ text, inLine byte = true) :
    (text.takeWhile inToken).take (gotSize - 1) = token ↔
      ∃ after, text = token ++ after ∧ Ends token after := by
  have short := fit.short
  constructor
  · intro same
    have begins : token <+: text :=
      same ▸ (List.take_prefix _ _).trans (List.takeWhile_prefix inToken)
    obtain ⟨after, rfl⟩ := begins
    refine ⟨after, rfl, ?_⟩
    rw [List.takeWhile_append_of_pos (token_inToken fit)] at same
    by_cases full : token.length = gotSize - 1
    · exact Or.inr (Or.inr full)
    · have none : after.takeWhile inToken = [] := by
        have length := congrArg List.length same
        rw [List.length_take, List.length_append] at length
        exact List.eq_nil_of_length_eq_zero (by omega)
      cases after with
      | nil => exact Or.inl rfl
      | cons byte after =>
        right
        left
        have here : inLine byte = true := clean byte (by simp)
        by_contra other
        rw [List.head?_cons, Option.some.injEq] at other
        rw [List.takeWhile_cons_of_pos (by simp [inToken, here, other])] at none
        cases none
  · rintro ⟨after, rfl, ends⟩
    rw [List.takeWhile_append_of_pos (token_inToken fit)]
    rcases ends with rfl | cr | full
    · rw [List.takeWhile_nil, List.append_nil, List.take_of_length_le short]
    · cases after with
      | nil => cases cr
      | cons byte after =>
        obtain rfl := Option.some.inj cr
        have stops : ((13 : UInt8) :: after).takeWhile inToken = [] := rfl
        rw [stops, List.append_nil, List.take_of_length_le short]
    · exact List.take_left' full

theorem controlAccepts_iff (fit : PlainToken token) (clean : ∀ byte ∈ line, inLine byte = true)
    (short : line.length + 1 ≤ 500) (limited : Bool) (events : List Event) :
    ControlAccepts token line limited events ↔
      ∃ lead after, line = lead ++ (authWord ++ token ++ after) ∧ (∀ byte ∈ lead, isBlank byte = true) ∧
        Ends token after := by
  rw [controlAccepts_token fit.some clean short]
  constructor
  · intro presented
    obtain ⟨lead, text, rfl, blank⟩ := word_of_presentedToken presented
    rw [presentedToken_word lead text blank] at presented
    have within : ∀ byte ∈ text, inLine byte = true := by
      intro byte member
      exact clean byte (List.mem_append_right _ (List.mem_append_right _ member))
    obtain ⟨after, rfl, ends⟩ := (taken_iff fit within).mp (Option.some.inj presented)
    exact ⟨lead, after, by rw [List.append_assoc authWord], blank, ends⟩
  · rintro ⟨lead, after, rfl, blank, ends⟩
    have within : ∀ byte ∈ token ++ after, inLine byte = true := by
      intro byte member
      apply clean byte
      rw [List.append_assoc authWord]
      exact List.mem_append_right _ (List.mem_append_right _ member)
    rw [List.append_assoc authWord, presentedToken_word lead _ blank]
    exact congrArg some ((taken_iff fit within).mpr ⟨after, rfl, ends⟩)

/-- The two accept the same line exactly if, around the word and the token, both or neither find what
they allow. -/
theorem auth_agree_iff (fit : PlainToken token) (clean : ∀ byte ∈ line, inLine byte = true)
    (short : line.length + 1 ≤ 500) (limited : Bool) (events : List Event) :
    (VideoAccepts token line ↔ ControlAccepts token line limited events) ↔
      ∀ lead after, line = lead ++ (authWord ++ token ++ after) → (∀ byte ∈ lead, isBlank byte = true) →
        (Trimmed lead after ↔ Ends token after) := by
  rw [videoAccepts_iff fit clean short, controlAccepts_iff fit clean short]
  constructor
  · rintro agree lead after rfl blank
    constructor
    · rintro ⟨rfl, trimmed⟩
      obtain ⟨lead', after', same, blank', ends⟩ := agree.mp ⟨after, rfl, trimmed⟩
      obtain ⟨rfl, rfl⟩ := parts_unique blank blank' same
      exact ends
    · intro ends
      obtain ⟨after', same, trimmed⟩ := agree.mpr ⟨lead, after, rfl, blank, ends⟩
      obtain ⟨rfl, rfl⟩ := parts_unique blank (fun _ none => absurd none List.not_mem_nil) same
      exact ⟨rfl, trimmed⟩
  · intro alike
    constructor
    · rintro ⟨after, rfl, trimmed⟩
      have blank : ∀ byte ∈ ([] : Bytes), isBlank byte = true := fun _ none => absurd none List.not_mem_nil
      exact ⟨[], after, rfl, blank, (alike [] after rfl blank).mp ⟨rfl, trimmed⟩⟩
    · rintro ⟨lead, after, rfl, blank, ends⟩
      obtain ⟨rfl, trimmed⟩ := (alike lead after rfl blank).mpr ends
      exact ⟨after, rfl, trimmed⟩

/-- "AUTH t" with a blank at its end. -/
theorem blank_end_disagree :
    ¬ (VideoAccepts [116] [65, 85, 84, 72, 32, 116, 32] ↔
      ControlAccepts [116] [65, 85, 84, 72, 32, 116, 32] false []) := by
  decide

/-- "AUTH t" with a CR at its end. -/
theorem return_end_agree :
    (VideoAccepts [116] [65, 85, 84, 72, 32, 116, 13] ∧
      ControlAccepts [116] [65, 85, 84, 72, 32, 116, 13] false []) ∧
    ∀ lead after, ([65, 85, 84, 72, 32, 116, 13] : Bytes) = lead ++ (authWord ++ [116] ++ after) →
      (∀ byte ∈ lead, isBlank byte = true) → (Trimmed lead after ↔ Ends [116] after) := by
  have fit : PlainToken [116] := ⟨by decide, by decide, by simp [CText.isSpace]⟩
  have clean : ∀ byte ∈ ([65, 85, 84, 72, 32, 116, 13] : Bytes), inLine byte = true :=
    List.all_eq_true.mp rfl
  have both : VideoAccepts [116] [65, 85, 84, 72, 32, 116, 13] ∧
      ControlAccepts [116] [65, 85, 84, 72, 32, 116, 13] false [] := by decide
  refine ⟨both, (auth_agree_iff fit clean (by decide) false []).mp ?_⟩
  exact ⟨fun _ => both.2, fun _ => both.1⟩

end StreamRelay.Agent.Control
