import Mathlib.Data.Nat.Basic
import StreamRelay.Agent.Handshake

/-! What a video connection is subscribed to is read off the bytes that its client sends, in whatever
pieces they come before the deadline. -/
namespace StreamRelay.Agent

open CText (newline inLine trimEnd)

/-- A recv finds one byte more than this, or as many as are left, or it is interrupted or told to come
again. -/
abbrev Piece := Option Nat

def Piece.answer (sent : Bytes) : Piece → RecvAnswer
  | some count => if sent = [] then .again else .data (sent.take (count + 1))
  | none => .again

/-- The rounds before the deadline, with the bytes sent that have not been taken. -/
def handshakeLoop (token : Bytes) : List Piece → Handshake → Bytes → Shaken × Bytes
  | [], handshake, sent => (.waiting handshake, sent)
  | piece :: later, handshake, sent =>
    match handshake.round token false (piece.answer sent) with
    | (.waiting handshake, taken) => handshakeLoop token later handshake (sent.drop taken.length)
    | (.refused, taken) => (.refused, sent.drop taken.length)
    | (.subscribed sid, taken) => (.subscribed sid, sent.drop taken.length)

/-- At the deadline who is still waiting is refused. -/
def Shaken.sid : Shaken → Option UInt16
  | .subscribed sid => some sid
  | .refused | .waiting _ => none

def doHandshake (token : Bytes) (pieces : List Piece) (sent : Bytes) : Option UInt16 :=
  (handshakeLoop token pieces (.begin token) sent).1.sid

/-- A handshake that goes on until the deadline has taken all that was sent. -/
def InTime (token : Bytes) (pieces : List Piece) (handshake : Handshake) (sent : Bytes) : Prop :=
  ∀ last left, handshakeLoop token pieces handshake sent = (.waiting last, left) → left = []

/-- A line, without its newline, that the buffer has room for. -/
def Line (line : Bytes) : Prop :=
  (∀ byte ∈ line, inLine byte = true) ∧ line.length + 1 ≤ handshakeBufSize - 1

/-- What stands before the SUB line: nothing, or the AUTH line if there is a token. -/
def Head (token head : Bytes) : Prop :=
  (token = [] ∧ head = []) ∨
    (token ≠ [] ∧ ∃ line, head = line ++ [newline] ∧ Line line ∧ trimEnd line = authWord ++ token)

def Subscribes (token sent : Bytes) (sid : UInt16) : Prop :=
  ∃ head line rest, sent = head ++ (line ++ newline :: rest) ∧ Head token head ∧ Line line ∧
    parseSubLine (trimEnd line) = some sid

/-- Where a handshake stands that has taken these bytes: before the SUB line, or before the AUTH
line. -/
def Handshake.At (token : Bytes) (handshake : Handshake) (got : Bytes) : Prop :=
  (handshake.authed = false ∧ token ≠ [] ∧ got = handshake.buf) ∨
    (handshake.authed = true ∧ ∃ head, Head token head ∧ got = head ++ handshake.buf)

/-- It keeps a part of a line. -/
structure Handshake.Midline (token : Bytes) (handshake : Handshake) (got : Bytes) : Prop where
  at_ : handshake.At token got
  few : handshake.buf.length ≤ handshakeBufSize - 1
  clean : ∀ byte ∈ handshake.buf, inLine byte = true

variable {token got sent line other rest more head : Bytes} {sid : UInt16}

theorem line_unique (clean : ∀ byte ∈ line, inLine byte = true)
    (too : ∀ byte ∈ other, inLine byte = true)
    (same : line ++ newline :: rest = other ++ newline :: more) : line = other ∧ rest = more := by
  have split := CText.splitLine_append clean rest
  rw [same, CText.splitLine_append too more] at split
  exact ⟨(Prod.mk.inj (Option.some.inj split)).1.symm, (Prod.mk.inj (Option.some.inj split)).2.symm⟩

theorem Head.unique {other : Bytes} (head_ : Head token head) (too : Head token other)
    (same : head ++ rest = other ++ more) : head = other ∧ rest = more := by
  rcases head_ with ⟨none, rfl⟩ | ⟨some, line, rfl, clean, -⟩
  · rcases too with ⟨-, rfl⟩ | ⟨some, -⟩
    · exact ⟨rfl, same⟩
    · exact absurd none some
  · rcases too with ⟨none, -⟩ | ⟨-, line', rfl, clean', -⟩
    · exact absurd none some
    · rw [List.append_assoc, List.append_assoc] at same
      obtain ⟨rfl, rest⟩ := line_unique clean.1 clean'.1 same
      exact ⟨rfl, rest⟩

theorem Subscribes.append (subscribes : Subscribes token sent sid) (more : Bytes) :
    Subscribes token (sent ++ more) sid := by
  obtain ⟨head, line, rest, rfl, rest_⟩ := subscribes
  exact ⟨head, line, rest ++ more, by simp, rest_⟩

theorem Subscribes.unique {too : UInt16} (subscribes : Subscribes token sent sid)
    (also : Subscribes token sent too) : sid = too := by
  obtain ⟨head, line, rest, rfl, head_, line_, parsed⟩ := subscribes
  obtain ⟨head', line', rest', same, head'_, line'_, parsed'⟩ := also
  obtain ⟨-, same⟩ := head_.unique head'_ same
  obtain ⟨rfl, -⟩ := line_unique line_.1 line'_.1 same
  exact Option.some.inj (parsed.symm.trans parsed')

/-- Without a newline there is no complete line. -/
theorem not_newline (clean : ∀ byte ∈ got, inLine byte = true) : got ≠ line ++ newline :: rest := by
  rintro rfl
  have here := clean newline (by simp)
  cases here

theorem splitLine_none (nulFree : ∀ byte ∈ got, byte ≠ 0) (none : CText.splitLine got = none) :
    ∀ byte ∈ got, inLine byte = true := by
  unfold CText.splitLine at none
  split at none
  · rename_i byte later dropped
    split at none
    · cases none
    · rename_i differs
      have stops : ¬ inLine byte = true := by
        have head := List.head?_dropWhile_not inLine got
        rw [dropped] at head
        simpa using head
      have member : byte ∈ got := (List.dropWhile_sublist inLine).subset (dropped ▸ List.mem_cons_self)
      exact absurd (by simp [inLine, differs, nulFree byte member]) stops
  · rename_i dropped
    exact List.dropWhile_eq_nil_iff.mp dropped

/-- Nor is there one that fits when a part of a line has filled the buffer. -/
theorem no_room (clean : ∀ byte ∈ got, inLine byte = true) (full : handshakeBufSize - 1 ≤ got.length)
    (fits : Line line) : got ++ more ≠ line ++ newline :: rest := by
  intro same
  have shorter : line.length + 1 ≤ got.length := Nat.le_trans fits.2 full
  have begins : got.take (line.length + 1) = line ++ [newline] := by
    have cut := congrArg (List.take (line.length + 1)) same
    rw [List.take_append_of_le_length shorter, List.append_cons, List.take_left' (by simp)] at cut
    exact cut
  have member : newline ∈ got.take (line.length + 1) := by
    rw [begins]
    simp
  cases clean newline (List.mem_of_mem_take member)

namespace Handshake

variable {handshake : Handshake}

/-- The bytes that are kept, with those that follow, begin with the next line. -/
theorem At.next (at_ : handshake.At token got) (subscribes : Subscribes token (got ++ more) sid) :
    ∃ line rest, handshake.buf ++ more = line ++ newline :: rest ∧ Line line ∧
      (handshake.authed = false → trimEnd line = authWord ++ token) ∧
      (handshake.authed = true → parseSubLine (trimEnd line) = some sid) := by
  obtain ⟨head, line, rest, same, head_, line_, parsed⟩ := subscribes
  rcases at_ with ⟨unread, some, rfl⟩ | ⟨authed, before, before_, rfl⟩
  · obtain ⟨none, -⟩ | ⟨-, first, rfl, first_, right⟩ := head_
    · exact absurd none some
    · refine ⟨first, line ++ newline :: rest, by simpa using same, first_, fun _ => right, ?_⟩
      intro authed
      rw [unread] at authed
      cases authed
  · rw [List.append_assoc] at same
    obtain ⟨rfl, after⟩ := before_.unique head_ same
    refine ⟨line, rest, after, line_, ?_, fun _ => parsed⟩
    intro unread
    rw [authed] at unread
    cases unread

theorem Midline.silent (midline : handshake.Midline token got) : ¬ Subscribes token got sid := by
  intro subscribes
  rw [← List.append_nil got] at subscribes
  obtain ⟨line, rest, same, -⟩ := midline.at_.next subscribes
  rw [List.append_nil] at same
  exact not_newline midline.clean same

theorem Midline.full (midline : handshake.Midline token got) (full : handshake.room = 0) :
    ¬ Subscribes token (got ++ more) sid := by
  intro subscribes
  obtain ⟨line, rest, same, fits, -⟩ := midline.at_.next subscribes
  rw [room] at full
  exact no_room midline.clean (Nat.le_of_sub_eq_zero full) fits same

end Handshake

/-- What the end of a round says of the bytes that have come, and of all that may follow. -/
def Shaken.Meets (token got : Bytes) : Shaken → Prop
  | .refused => ∀ more sid, ¬ Subscribes token (got ++ more) sid
  | .subscribed sid => Subscribes token got sid
  | .waiting handshake => handshake.Midline token got

/-- The lines after the AUTH line. -/
theorem subLine_meets (rounds : Nat) {buf : Bytes} (head_ : Head token head)
    (few : buf.length ≤ handshakeBufSize - 1) (nulFree : ∀ byte ∈ buf, byte ≠ 0) :
    match lineLoop token (rounds + 1) true buf with
    | .refused => ∀ more sid, ¬ Subscribes token (head ++ buf ++ more) sid
    | .subscribed sid => Subscribes token (head ++ buf) sid
    | .rest authed start => authed = true ∧ start = buf ∧ ∀ byte ∈ buf, inLine byte = true := by
  rw [lineLoop]
  cases found : CText.splitLine buf with
  | none => exact ⟨rfl, rfl, splitLine_none nulFree found⟩
  | some split =>
    obtain ⟨line, later⟩ := split
    obtain ⟨rfl, clean⟩ := CText.splitLine_some found
    have fits : Line line := by
      rw [List.length_append, List.length_cons] at few
      exact ⟨clean, by omega⟩
    simp only [Bool.not_true, Bool.false_eq_true, if_false]
    cases parsed : parseSubLine (trimEnd line) with
    | none =>
      rintro more sid ⟨head', line', rest, same, head'_, fits', parsed'⟩
      rw [List.append_assoc] at same
      obtain ⟨-, same⟩ := head_.unique head'_ same
      rw [List.append_assoc, List.cons_append] at same
      obtain ⟨rfl, -⟩ := line_unique clean fits'.1 same
      rw [parsed] at parsed'
      cases parsed'
    | some sid => exact ⟨head, line, later, rfl, head_, fits, parsed⟩

/-- The first line is not the AUTH line. -/
theorem not_auth {buf later : Bytes} (some : token ≠ []) (whole : buf = line ++ newline :: later)
    (clean : ∀ byte ∈ line, inLine byte = true) (wrong : trimEnd line ≠ authWord ++ token) :
    ¬ Subscribes token (buf ++ more) sid := by
  intro subscribes
  have here : (⟨false, buf⟩ : Handshake).At token buf := Or.inl ⟨rfl, some, rfl⟩
  obtain ⟨line', rest, same, fits, right, -⟩ := here.next subscribes
  rw [whole, List.append_assoc, List.cons_append] at same
  obtain ⟨rfl, -⟩ := line_unique clean fits.1 same
  exact wrong (right rfl)

/-- All lines of a buffer that begins with the AUTH line, or is to begin with it. -/
theorem authLine_meets (some : token ≠ []) {buf : Bytes} (few : buf.length ≤ handshakeBufSize - 1)
    (nulFree : ∀ byte ∈ buf, byte ≠ 0) :
    match lineLoop token (buf.length + 1) false buf with
    | .refused => ∀ more sid, ¬ Subscribes token (buf ++ more) sid
    | .subscribed sid => Subscribes token buf sid
    | .rest authed start => (∀ byte ∈ start, inLine byte = true) ∧
        ((authed = false ∧ start = buf) ∨
          (authed = true ∧ ∃ head, Head token head ∧ head ≠ [] ∧ buf = head ++ start)) := by
  rw [lineLoop]
  cases found : CText.splitLine buf with
  | none => exact ⟨splitLine_none nulFree found, Or.inl ⟨rfl, rfl⟩⟩
  | some split =>
    obtain ⟨line, later⟩ := split
    obtain ⟨whole, clean⟩ := CText.splitLine_some found
    simp only [Bool.not_false, if_true, ne_eq]
    by_cases word : (trimEnd line).take 5 = authWord
    · by_cases same : (trimEnd line).drop 5 = token
      · have right : trimEnd line = authWord ++ token := by
          rw [← List.take_append_drop 5 (trimEnd line), word, same]
        have length : buf.length = line.length + 1 + later.length := by
          rw [whole, List.length_append, List.length_cons]
          omega
        obtain ⟨rounds, count⟩ : ∃ rounds, buf.length = rounds + 1 :=
          ⟨line.length + later.length, by omega⟩
        have head_ : Head token (line ++ [newline]) :=
          Or.inr ⟨some, line, rfl, ⟨clean, by omega⟩, right⟩
        have free : ∀ byte ∈ later, byte ≠ 0 := by
          intro byte member
          apply nulFree byte
          rw [whole]
          exact List.mem_append_right _ (List.mem_cons_of_mem _ member)
        have meets := subLine_meets rounds head_ (by omega : later.length ≤ handshakeBufSize - 1) free
        rw [← List.append_cons, ← whole] at meets
        simp only [word, same, not_true_eq_false, if_false, count]
        cases ended : lineLoop token (rounds + 1) true later with
        | refused =>
          rw [ended] at meets
          exact meets
        | subscribed sid =>
          rw [ended] at meets
          exact meets
        | rest authed start =>
          rw [ended] at meets
          obtain ⟨rfl, rfl, clean⟩ := meets
          refine ⟨clean, Or.inr ⟨rfl, _, head_, by simp, ?_⟩⟩
          rw [← List.append_cons, ← whole]
      · simp only [word, same, not_true_eq_false, if_false, not_false_eq_true, if_true]
        refine fun more sid => not_auth some whole clean fun right => same ?_
        rw [right]
        exact List.drop_left' rfl
    · simp only [word, not_false_eq_true, if_true]
      refine fun more sid => not_auth some whole clean fun right => word ?_
      rw [right]
      exact List.take_left' rfl

theorem cString_clean (clean : ∀ byte ∈ got, inLine byte = true) : CText.cString got = got := by
  rw [CText.cString, List.takeWhile_eq_self_iff]
  intro byte member
  have inside := clean byte member
  simp only [inLine, Bool.and_eq_true] at inside
  exact inside.2

theorem Handshake.readLines_meets {handshake : Handshake} (at_ : handshake.At token got)
    (few : handshake.buf.length ≤ handshakeBufSize - 1) (nulFree : ∀ byte ∈ handshake.buf, byte ≠ 0) :
    (handshake.readLines token).Meets token got := by
  rw [readLines]
  rcases at_ with ⟨unread, some, rfl⟩ | ⟨authed, head, head_, rfl⟩
  · have meets := authLine_meets some few nulFree
    rw [unread]
    cases ended : lineLoop token (handshake.buf.length + 1) false handshake.buf with
    | refused =>
      rw [ended] at meets
      exact meets
    | subscribed sid =>
      rw [ended] at meets
      exact meets
    | rest authed start =>
      rw [ended] at meets
      obtain ⟨clean, ⟨rfl, rfl⟩ | ⟨rfl, head, head_, positive, whole⟩⟩ := meets
      · simp only [if_true]
        exact ⟨Or.inl ⟨rfl, some, rfl⟩, few, clean⟩
      · have length := congrArg List.length whole
        have positive := List.length_pos_iff.mpr positive
        rw [List.length_append] at length
        dsimp only
        rw [if_neg (by omega), cString_clean clean]
        exact ⟨Or.inr ⟨rfl, head, head_, whole⟩, by dsimp only; omega, clean⟩
  · have meets := subLine_meets handshake.buf.length head_ few nulFree
    rw [authed]
    cases ended : lineLoop token (handshake.buf.length + 1) true handshake.buf with
    | refused =>
      rw [ended] at meets
      exact meets
    | subscribed sid =>
      rw [ended] at meets
      exact meets
    | rest authed start =>
      rw [ended] at meets
      obtain ⟨rfl, rfl, clean⟩ := meets
      simp only [if_true]
      exact ⟨Or.inr ⟨rfl, head, head_, rfl⟩, few, clean⟩

/-- What a round takes is the beginning of what is left. -/
theorem Handshake.piece_meets {handshake : Handshake} (midline : handshake.Midline token got)
    (nulFree : ∀ byte ∈ sent, byte ≠ 0) (piece : Piece) :
    let round := handshake.round token false (piece.answer sent)
    round.1.Meets token (got ++ round.2) ∧ round.2 <+: sent := by
  have idle : (Shaken.waiting handshake).Meets token (got ++ []) := by
    rw [List.append_nil]
    exact midline
  cases piece with
  | none => exact ⟨idle, List.nil_prefix⟩
  | some count =>
    rw [Piece.answer]
    by_cases nothing : sent = []
    · rw [if_pos nothing]
      exact ⟨idle, List.nil_prefix⟩
    · rw [if_neg nothing, Handshake.round, if_neg Bool.false_ne_true]
      have taken : (sent.take (count + 1)).take handshake.room <+: sent :=
        (List.take_prefix _ _).trans (List.take_prefix _ _)
      by_cases none : (sent.take (count + 1)).take handshake.room = []
      · simp only [none, if_true]
        refine ⟨fun more sid => ?_, List.nil_prefix⟩
        rw [List.append_nil]
        apply midline.full
        -- The bytes are there, so it is the buffer that has no room.
        rcases List.take_eq_nil_iff.mp none with full | empty
        · exact full
        · rcases List.take_eq_nil_iff.mp empty with zero | empty
          · cases zero
          · exact absurd empty nothing
      · simp only [none, if_false]
        refine ⟨?_, taken⟩
        apply readLines_meets
        · rcases midline.at_ with ⟨unread, some, same⟩ | ⟨authed, head, head_, same⟩
          · exact Or.inl ⟨unread, some, by rw [same]⟩
          · exact Or.inr ⟨authed, head, head_, by rw [same, List.append_assoc]⟩
        · have few := midline.few
          have room : handshake.room = handshakeBufSize - 1 - handshake.buf.length := rfl
          rw [List.length_append, List.length_take]
          omega
        · intro byte member
          rcases List.mem_append.mp member with kept | new
          · rintro rfl
            have clean := midline.clean 0 kept
            cases clean
          · exact nulFree byte (taken.subset new)

theorem handshakeLoop_iff (pieces : List Piece) (handshake : Handshake)
    (midline : handshake.Midline token got) (nulFree : ∀ byte ∈ sent, byte ≠ 0)
    (inTime : InTime token pieces handshake sent) :
    (handshakeLoop token pieces handshake sent).1.sid = some sid ↔
      Subscribes token (got ++ sent) sid := by
  induction pieces generalizing handshake got sent with
  | nil =>
    obtain rfl : sent = [] := inTime handshake sent rfl
    rw [List.append_nil]
    exact ⟨nofun, fun subscribes => absurd subscribes midline.silent⟩
  | cons piece later ih =>
    obtain ⟨meets, begins⟩ := handshake.piece_meets midline nulFree piece
    rw [InTime, handshakeLoop] at inTime
    rw [handshakeLoop]
    rcases ended : handshake.round token false (piece.answer sent) with ⟨shaken, taken⟩
    rw [ended] at meets begins inTime
    obtain ⟨left, rfl⟩ := begins
    rw [← List.append_assoc]
    cases shaken with
    | refused => exact ⟨nofun, fun subscribes => absurd subscribes (meets left sid)⟩
    | subscribed other =>
      constructor
      · intro same
        exact Option.some.inj same ▸ meets.append left
      · intro subscribes
        rw [subscribes.unique (meets.append left)]
        rfl
    | waiting next =>
      dsimp only at inTime ⊢
      rw [List.drop_left] at inTime ⊢
      exact ih next meets (fun byte member => nulFree byte (List.mem_append_right _ member)) inTime

theorem parseSubLine_range (parsed : parseSubLine line = some sid) :
    1 ≤ sid.toNat ∧ sid.toNat ≤ maxStreams := by
  obtain ⟨number, -, rfl⟩ := Option.map_eq_some_iff.mp parsed
  have bound : maxStreams = 20 := rfl
  rw [UInt16.toNat_ofNat', bound]
  omega

/-- Whatever the pieces are, the stream is the one that the bytes ask for. -/
theorem handshake_stream (token sent : Bytes) (nulFree : ∀ byte ∈ sent, byte ≠ 0) (pieces : List Piece)
    (inTime : InTime token pieces (.begin token) sent) (sid : UInt16) :
    (doHandshake token pieces sent = some sid ↔ Subscribes token sent sid) ∧
      (Subscribes token sent sid → 1 ≤ sid.toNat ∧ sid.toNat ≤ maxStreams) := by
  constructor
  · have begins : (Handshake.begin token).Midline token [] := by
      refine ⟨?_, Nat.zero_le _, fun byte none => absurd none List.not_mem_nil⟩
      by_cases none : token = []
      · exact Or.inr ⟨decide_eq_true none, [], Or.inl ⟨none, rfl⟩, rfl⟩
      · exact Or.inl ⟨decide_eq_false none, none, rfl⟩
    exact handshakeLoop_iff pieces _ begins nulFree inTime
  · rintro ⟨head, line, rest, same, head_, fits, parsed⟩
    exact parseSubLine_range parsed

/-- The lines "AUTH t" and "SUB 3", with a blank and a CR after the token. -/
def authAndSub : Bytes := [65, 85, 84, 72, 32, 116, 32, 13, 10, 83, 85, 66, 32, 51, 10]

/-- Four bytes at a time, the second time after an interruption. -/
def byFour : List Piece := [some 3, none, some 3, some 3, some 3]

theorem authAndSub_subscribes :
    doHandshake [116] byFour authAndSub = some 3 ∧ Subscribes [116] authAndSub 3 := by
  have nulFree : ∀ byte ∈ authAndSub, byte ≠ 0 := by simp [authAndSub]
  have result : doHandshake [116] byFour authAndSub = some 3 := by decide
  have inTime : InTime [116] byFour (.begin [116]) authAndSub := by
    intro last left waiting
    rw [doHandshake, waiting] at result
    cases result
  exact ⟨result, (handshake_stream [116] authAndSub nulFree byFour inTime 3).1.mp result⟩

end StreamRelay.Agent
