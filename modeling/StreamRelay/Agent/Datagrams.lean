import StreamRelay.Agent.Control
import StreamRelay.Agent.Tap

/-! What a control connection forwards of a stream made of an AUTH line, a SUB line and frames,
when the stream comes bit by bit. -/
namespace StreamRelay.Agent.Control

open Arrival

/-- A token that fits AgentCfg.token and a line. -/
structure Token where
  text : Bytes
  short : text.length < Tap.tokenSize
  line : ∀ byte ∈ text, CText.inLine byte = true

structure Frame where
  payload : Bytes
  some_ : payload ≠ []
  most : payload.length ≤ maxFrame

def Frame.bytes (frame : Frame) : Bytes :=
  BigEndian.bytes32 frame.payload.length ++ frame.payload

/-- A line that begins with SUB; the text is what follows. -/
structure SubLine where
  text : Bytes
  line : ∀ byte ∈ text, CText.inLine byte = true

def SubLine.bytes (sub : SubLine) : Bytes := subWord ++ sub.text ++ [CText.newline]

/-- What a client sends; its AUTH line may end with a CR. -/
structure Stream where
  token : Token
  cr : Bool
  sub : Option SubLine
  frames : List Frame

def Stream.authText (stream : Stream) : Bytes :=
  authWord ++ stream.token.text ++ if stream.cr then [13] else []

def Stream.authLine (stream : Stream) : Bytes :=
  if stream.token.text = [] then [] else stream.authText ++ [CText.newline]

def Stream.subLine (stream : Stream) : Bytes := (stream.sub.map SubLine.bytes).getD []

def Stream.bytes (stream : Stream) : Bytes :=
  stream.authLine ++ stream.subLine ++ stream.frames.flatMap Frame.bytes

/-- The connection as the stream begins. -/
def Stream.sock (stream : Stream) (events : List Event) : Sock := ⟨stream.bytes, 0, false, events⟩

theorem Frame.word (frame : Frame) (more : Bytes) :
    (BigEndian.wordAt ((frame.bytes ++ more).take 4) 0).toNat = frame.payload.length := by
  have small : frame.payload.length < 2 ^ 32 := by
    have := frame.most
    simp only [maxFrame] at this
    omega
  have word := BigEndian.word32_bytes frame.payload.length
  have read : BigEndian.wordAt ((frame.bytes ++ more).take 4) 0 =
      UInt32.ofNat frame.payload.length := word
  rw [read]
  exact UInt32.toNat_ofNat_of_lt' small

theorem Frame.positive (frame : Frame) : 0 < frame.payload.length :=
  List.length_pos_iff.mpr frame.some_

@[simp] theorem Frame.bytes_length (frame : Frame) :
    frame.bytes.length = 4 + frame.payload.length := by
  simp [Frame.bytes, BigEndian.bytes32]
  omega

/-- Frames are forwarded whole and in order, however they come. -/
theorem frameLoop_frames (frames : List Frame) :
    ∀ (rounds : Nat) (s : Sock), s.Sound → s.limited = false →
      s.rest = frames.flatMap Frame.bytes → s.rest.length < rounds →
      frameLoop rounds s = some (frames.map Frame.payload)
  | rounds, s, sound, free, come, enough => by
    obtain ⟨rounds, rfl⟩ := Nat.exists_eq_succ_of_ne_zero (Nat.ne_zero_of_lt enough)
    cases frames with
    | nil =>
      have short : s.rest.length < 4 := by
        rw [come]
        decide
      have nothing := (Sock.recvExact_spec 4 sound free).2 short
      simp only [frameLoop]
      split
      · rfl
      · rename_i received
        rw [received] at nothing
        cases nothing
    | cons frame later =>
      rw [List.flatMap_cons] at come
      have length : s.rest.length =
          4 + frame.payload.length + (later.flatMap Frame.bytes).length := by
        rw [come, List.length_append, frame.bytes_length]
      obtain ⟨lenb, left, sound₁, free₁⟩ := (Sock.recvExact_spec 4 sound free).1 (by omega)
      have dropped : (frame.bytes ++ later.flatMap Frame.bytes).drop 4 =
          frame.payload ++ later.flatMap Frame.bytes := rfl
      rw [come, dropped] at left
      simp only [frameLoop]
      split
      · rename_i received
        rw [received] at lenb
        cases lenb
      · rename_i head next received
        rw [received] at lenb left sound₁ free₁
        obtain rfl := Option.some.inj lenb
        rw [come, frame.word]
        have some_ := frame.positive
        have most := frame.most
        rw [if_neg (by simp only [Bool.or_eq_true, decide_eq_true_eq]; omega)]
        have enough₁ : frame.payload.length ≤ next.rest.length := by
          rw [left, List.length_append]
          exact Nat.le_add_right _ _
        obtain ⟨buf, left₂, sound₂, free₂⟩ :=
          (Sock.recvExact_spec frame.payload.length sound₁ free₁).1 enough₁
        dsimp only at left
        rw [left, List.take_left] at buf
        rw [left, List.drop_left] at left₂
        split
        · rename_i received₂
          rw [received₂] at buf
          cases buf
        · rename_i payload last received₂
          rw [received₂] at buf left₂ sound₂ free₂
          obtain rfl := Option.some.inj buf
          dsimp only at left₂
          rw [frameLoop_frames later rounds last sound₂ free₂ left₂
            (by rw [left₂]; omega)]
          rfl

/-- What begins like text is not a frame. -/
theorem frameLoop_text {s : Sock} (sound : s.Sound) (free : s.limited = false) {byte : UInt8}
    {more : Bytes} (come : s.rest = byte :: more) (text : byte ≠ 0) (rounds : Nat) :
    frameLoop (rounds + 1) s = some [] := by
  obtain ⟨all, short⟩ := Sock.recvExact_spec 4 sound free
  simp only [frameLoop]
  split
  · rfl
  · rename_i lenb next received
    rw [received] at all short
    have enough : 4 ≤ s.rest.length := by
      by_contra lacking
      cases short (Nat.not_le.mp lacking)
    obtain rfl := Option.some.inj (all enough).1
    have large : (BigEndian.wordAt (s.rest.take 4) 0).toNat > maxFrame := by
      have positive : 0 < byte.toNat := Nat.pos_of_ne_zero fun zero =>
        text (UInt8.toNat_inj.mp zero)
      have first : (s.rest.take 4).getD 0 0 = byte := by
        rw [come]
        rfl
      rw [BigEndian.wordAt, BigEndian.word32_toNat, first]
      simp only [maxFrame]
      omega
    rw [if_pos (by simp only [Bool.or_eq_true, decide_eq_true_eq]; exact Or.inr large)]

/-- A line is read whole if it fits and its bytes come in time; else a part of it is left. -/
theorem readLine_spec (text : Bytes) (clean : ∀ byte ∈ text, CText.inLine byte = true)
    (more : Bytes) (room : Nat) (line : Bytes) {s : Sock} (sound : s.Sound)
    (come : s.rest = text ++ CText.newline :: more) :
    (readLine room line s).2.Sound ∧
      (text.length < room → s.steady (text.length + 1) = true →
        (readLine room line s).2.rest = more) ∧
      (¬(text.length < room ∧ s.steady (text.length + 1) = true) →
        ∃ byte left, byte ≠ 0 ∧ (readLine room line s).2.rest = byte :: left) := by
  have first : ∃ byte later, byte ≠ 0 ∧ s.rest = byte :: later := by
    rw [come]
    rcases text with - | ⟨byte, text⟩
    · exact ⟨_, _, by decide, rfl⟩
    · have kept := clean byte List.mem_cons_self
      refine ⟨byte, _, ?_, rfl⟩
      rintro rfl
      cases kept
  induction text generalizing room line s with
  | nil =>
    cases room with
    | zero => exact ⟨sound, fun fits => absurd fits (Nat.not_lt_zero _), fun _ => first⟩
    | succ room =>
      cases ready : s.wait.1 with
      | false =>
        have silent := Sock.recv_silent 1 ready
        simp only [readLine, silent, Sock.steady, ready, Bool.false_and, Sock.wait_rest]
        exact ⟨Sock.wait_sound sound, nofun, fun _ => first⟩
      | true =>
        obtain ⟨got, left, after, -⟩ := Sock.recv_one sound ready come
        simp only [readLine]
        split
        · rename_i received
          rw [received] at got
          cases got
        · rename_i c next received
          rw [received] at got left after
          obtain rfl := Option.some.inj got
          rw [if_pos rfl]
          refine ⟨after, fun _ _ => left, fun not_read => ?_⟩
          exact absurd ⟨Nat.succ_pos room, by simp [Sock.steady, ready]⟩ not_read
  | cons byte text ih =>
    cases room with
    | zero => exact ⟨sound, fun fits => absurd fits (Nat.not_lt_zero _), fun _ => first⟩
    | succ room =>
      cases ready : s.wait.1 with
      | false =>
        have silent := Sock.recv_silent 1 ready
        simp only [readLine, silent, Sock.steady, ready, Bool.false_and, Sock.wait_rest]
        exact ⟨Sock.wait_sound sound, nofun, fun _ => first⟩
      | true =>
        obtain ⟨got, left, after, -⟩ := Sock.recv_one sound ready come
        have kept := clean byte List.mem_cons_self
        have later := fun b member => clean b (List.mem_cons_of_mem byte member)
        simp only [readLine]
        split
        · rename_i received
          rw [received] at got
          cases got
        · rename_i c next received
          have next_eq : (s.recv 1).2 = next := by rw [received]
          rw [received] at got left after
          obtain rfl := Option.some.inj got
          have apart : [byte] ≠ [CText.newline] := by
            rintro same
            rw [(List.cons.inj same).1] at kept
            cases kept
          rw [if_neg apart]
          have begins : ∃ byte later, byte ≠ 0 ∧ next.rest = byte :: later := by
            dsimp only at left
            rw [left]
            rcases text with - | ⟨b, text⟩
            · exact ⟨_, _, by decide, rfl⟩
            · have kept := later b List.mem_cons_self
              refine ⟨b, _, ?_, rfl⟩
              rintro rfl
              cases kept
          obtain ⟨still, all, part⟩ := ih later room (line ++ [byte]) after left begins
          have steady : s.steady (text.length + 1 + 1) = next.steady (text.length + 1) := by
            rw [Sock.steady, ready, Bool.true_and, next_eq]
          rw [List.length_cons, steady, Nat.succ_lt_succ_iff]
          exact ⟨still, all, part⟩

/-- A SUB line is looked for in four bytes that have come. -/
theorem optionalSub_state {s : Sock} (sound : s.Sound) :
    (ctrlReadOptionalSub s).2 =
      if s.wait.1 = true ∧ 4 ≤ s.wait.2.arrived ∧ s.rest.take 3 = subWord then
        (readLine subLineSize [] s.wait.2).2
      else s.wait.2 := by
  have bound : s.wait.2.arrived ≤ s.rest.length := by
    rw [← Sock.wait_rest s]
    exact Sock.wait_sound sound
  cases ready : s.wait.1 with
  | false => simp [ctrlReadOptionalSub, Sock.peek, ready]
  | true =>
    have length : (s.rest.take (min 4 s.wait.2.arrived)).length = min 4 s.wait.2.arrived := by
      rw [List.length_take]
      omega
    simp only [ctrlReadOptionalSub, Sock.peek, ready, if_true, Sock.wait_rest, length, true_and]
    by_cases few : min 4 s.wait.2.arrived < 4
    · rw [if_pos few, if_neg]
      omega
    · have four : min 4 s.wait.2.arrived = 4 := by omega
      have arrived : 4 ≤ s.wait.2.arrived := by omega
      rw [if_neg few, four, List.take_take, show min 3 4 = 3 from rfl]
      by_cases word : s.rest.take 3 = subWord
      · rw [if_neg (not_not.mpr word), if_pos ⟨arrived, word⟩]
        split
        · rename_i read
          rw [read]
        · rename_i read
          rw [read]
          split <;> rfl
      · rw [if_pos word, if_neg fun both => word both.2]

/-- The SUB line is seen as such, fits its buffer and comes in time. -/
structure Seen (sub : SubLine) (s : Sock) : Prop where
  ready : s.wait.1 = true
  four : 4 ≤ s.wait.2.arrived
  fits : sub.bytes.length ≤ subLineSize
  steady : s.wait.2.steady sub.bytes.length = true

theorem SubLine.bytes_length (sub : SubLine) :
    sub.bytes.length = (subWord ++ sub.text).length + 1 := by
  rw [SubLine.bytes, List.length_append]
  rfl

theorem SubLine.bytes_append (sub : SubLine) (later : Bytes) :
    sub.bytes ++ later = (subWord ++ sub.text) ++ CText.newline :: later := by
  rw [SubLine.bytes, List.append_assoc]
  rfl

theorem SubLine.clean (sub : SubLine) :
    ∀ byte ∈ subWord ++ sub.text, CText.inLine byte = true := by
  have word : ∀ byte ∈ subWord, CText.inLine byte = true := List.all_eq_true.mp rfl
  intro byte member
  rcases List.mem_append.mp member with before | after
  · exact word byte before
  · exact sub.line byte after

/-- Behind the AUTH line the frames are forwarded if the SUB line is seen. -/
theorem sub_forwarded {s : Sock} (sound : s.Sound) {sub : Option SubLine} (frames : List Frame)
    (come : s.rest = (sub.map SubLine.bytes).getD [] ++ frames.flatMap Frame.bytes)
    (seen : ∀ line ∈ sub, Seen line s) :
    frameLoop ((ctrlReadOptionalSub s).2.rest.length + 1)
      {(ctrlReadOptionalSub s).2 with limited := false} = some (frames.map Frame.payload) := by
  have state := optionalSub_state sound
  have waited := Sock.wait_sound sound
  cases sub with
  | none =>
    have apart : ¬(s.wait.1 = true ∧ 4 ≤ s.wait.2.arrived ∧ s.rest.take 3 = subWord) := by
      rintro ⟨-, -, word⟩
      rw [come] at word
      rcases frames with - | ⟨frame, later⟩
      · cases word
      · have first := congrArg (fun bytes : Bytes => bytes.getD 0 0) word
        have high : UInt8.ofNat (frame.payload.length >>> 24) = 83 := first
        have most := frame.most
        have small : frame.payload.length >>> 24 = 0 := by
          rw [Nat.shiftRight_eq_div_pow]
          simp only [maxFrame] at most
          omega
        rw [small] at high
        cases high
    rw [state, if_neg apart]
    apply frameLoop_frames
    · exact waited
    · rfl
    · exact (Sock.wait_rest s).trans come
    · exact Nat.lt_succ_self _
  | some sub =>
    have word : s.rest.take 3 = subWord := by
      rw [come]
      rfl
    have seen := seen sub rfl
    have length := sub.bytes_length
    obtain ⟨after, all, -⟩ := readLine_spec (subWord ++ sub.text) sub.clean
      (frames.flatMap Frame.bytes) subLineSize [] waited
      ((Sock.wait_rest s).trans (come.trans (sub.bytes_append _)))
    have read := all (by have := seen.fits; omega) (by rw [← length]; exact seen.steady)
    rw [state, if_pos ⟨seen.ready, seen.four, word⟩]
    apply frameLoop_frames
    · exact after
    · rfl
    · exact read
    · exact Nat.lt_succ_self _

/-- A SUB line that is not seen ends the connection. -/
theorem sub_silent {s : Sock} (sound : s.Sound) (sub : SubLine) (frames : List Frame)
    (come : s.rest = sub.bytes ++ frames.flatMap Frame.bytes) (unseen : ¬Seen sub s) :
    frameLoop ((ctrlReadOptionalSub s).2.rest.length + 1)
      {(ctrlReadOptionalSub s).2 with limited := false} = some [] := by
  have state := optionalSub_state sound
  have waited := Sock.wait_sound sound
  have line := come.trans (sub.bytes_append (frames.flatMap Frame.bytes))
  have length := sub.bytes_length
  obtain ⟨after, -, part⟩ := readLine_spec (subWord ++ sub.text) sub.clean
    (frames.flatMap Frame.bytes) subLineSize [] waited ((Sock.wait_rest s).trans line)
  have silent {t : Sock} (byte : UInt8) {left : Bytes} (sound : t.Sound) (text : byte ≠ 0)
      (come : t.rest = byte :: left) :
      frameLoop (t.rest.length + 1) {t with limited := false} = some [] :=
    frameLoop_text (s := {t with limited := false}) sound rfl come text _
  rw [state]
  split
  · rename_i looked
    obtain ⟨byte, left, text, rest⟩ := part fun ⟨fits, steady⟩ =>
      unseen ⟨looked.1, looked.2.1, by omega, by rw [length]; exact steady⟩
    exact silent byte after text rest
  · exact silent 83 waited (by decide) ((Sock.wait_rest s).trans line)

/-- A line that is looked at until it is there is then taken, and only that. -/
theorem authLoop_spec (token line : Bytes) (clean : ∀ byte ∈ line, CText.inLine byte = true)
    (short : line.length + 1 ≤ authPeekSize) (more : Bytes) :
    ∀ (rounds : Nat) (s : Sock), s.Sound → s.rest = line ++ CText.newline :: more →
      s.events.length < rounds →
      (s.untilArrived (line.length + 1) rounds = none →
        ∃ t, authLoop token rounds s = some (false, t)) ∧
      ∀ t, s.untilArrived (line.length + 1) rounds = some t →
        authLoop token rounds s =
          some (decide (presentedToken line = some token), (t.recv (line.length + 1)).2) ∧
        (t.recv (line.length + 1)).2.rest = more ∧ (t.recv (line.length + 1)).2.Sound
  | 0, s, _, _, enough => absurd enough (Nat.not_lt_zero _)
  | rounds + 1, s, sound, come, enough => by
    have waited := Sock.wait_sound sound
    have rest : s.wait.2.rest = line ++ CText.newline :: more := (Sock.wait_rest s).trans come
    have length : s.wait.2.rest.length = line.length + 1 + more.length := by
      rw [rest, List.length_append, List.length_cons]
      omega
    cases ready : s.wait.1 with
    | false =>
      simp only [authLoop, Sock.peek, Sock.untilArrived, ready, Bool.false_eq_true, if_false]
      exact ⟨fun _ => ⟨_, rfl⟩, nofun⟩
    | true =>
      have bound : s.wait.2.arrived ≤ line.length + 1 + more.length := by
        rw [← length]
        exact waited
      simp only [authLoop, Sock.peek, Sock.untilArrived, ready, if_true]
      by_cases there : line.length + 1 ≤ s.wait.2.arrived
      · obtain ⟨seen, found⟩ : ∃ seen, s.wait.2.rest.take (min authPeekSize s.wait.2.arrived) =
            line ++ CText.newline :: seen := by
          refine ⟨more.take (min authPeekSize s.wait.2.arrived - (line.length + 1)), ?_⟩
          have parts : min authPeekSize s.wait.2.arrived - line.length =
              min authPeekSize s.wait.2.arrived - (line.length + 1) + 1 := by omega
          rw [rest, List.take_append, List.take_of_length_le (by omega), parts,
            List.take_succ_cons]
        obtain ⟨taken, left, after, -⟩ := Sock.recv_come (Nat.succ_pos _) there waited
        rw [if_pos there, found, CText.splitLine_append clean]
        refine ⟨nofun, fun t same => ?_⟩
        obtain rfl := Option.some.inj same
        have all : (s.wait.2.rest.take (line.length + 1)).length = line.length + 1 := by
          rw [List.length_take]
          omega
        refine ⟨?_, ?_, after⟩
        · dsimp only
          split
          · rename_i received
            rw [received] at taken
            cases taken
          · rename_i got next received
            rw [received] at taken
            obtain rfl := Option.some.inj taken
            rw [if_neg (not_not.mpr all), received]
        · rw [left, rest, List.drop_append, List.drop_of_length_le (by omega)]
          simp
      · have few : min authPeekSize s.wait.2.arrived = s.wait.2.arrived := by omega
        have part : s.wait.2.rest.take s.wait.2.arrived = line.take s.wait.2.arrived := by
          rw [rest, List.take_append_of_le_length (by omega)]
        have unfinished : CText.splitLine (line.take s.wait.2.arrived) = none := by
          cases found : CText.splitLine (line.take s.wait.2.arrived) with
          | none => rfl
          | some split =>
            obtain ⟨same, -⟩ := CText.splitLine_some found
            have member : CText.newline ∈ line.take s.wait.2.arrived := by
              rw [same]
              simp
            have kept := clean _ (List.mem_of_mem_take member)
            cases kept
        have left_over : s.wait.2.events.length < rounds := by
          rw [Sock.wait_events, List.length_tail]
          rcases events : s.events with - | ⟨event, later⟩
          · exact absurd (by rw [Sock.wait_all events, come, List.length_append, List.length_cons]
                             omega) there
          · rw [events, List.length_cons] at enough
            rw [List.length_cons]
            omega
        rw [if_neg there, few, part, unfinished, List.length_take, if_neg (by omega)]
        exact authLoop_spec token line clean short more rounds s.wait.2 waited rest left_over

theorem authText_clean (stream : Stream) :
    ∀ byte ∈ stream.authText, CText.inLine byte = true := by
  have word : ∀ byte ∈ authWord, CText.inLine byte = true := List.all_eq_true.mp rfl
  intro byte member
  rcases List.mem_append.mp member with member | cr
  · rcases List.mem_append.mp member with before | after
    · exact word byte before
    · exact stream.token.line byte after
  · split at cr
    · obtain rfl := List.mem_singleton.mp cr
      decide
    · cases cr

theorem authText_length (stream : Stream) : stream.authText.length + 1 ≤ authPeekSize := by
  have short := stream.token.short
  have word : authWord.length = 5 := rfl
  simp only [Tap.tokenSize] at short
  simp only [Stream.authText, List.length_append, word, authPeekSize]
  split
  · rw [List.length_singleton]
    omega
  · rw [List.length_nil]
    omega

/-- The line presents the token unless a CR in the token ends it early. -/
theorem presentedToken_iff (stream : Stream) :
    presentedToken stream.authText = some stream.token.text ↔ 13 ∉ stream.token.text := by
  have begins : (stream.authText ++ [CText.newline]).dropWhile isBlank =
      authWord ++ (stream.token.text ++ ((if stream.cr then [13] else []) ++ [CText.newline])) := by
    rw [Stream.authText, List.append_assoc, List.append_assoc]
    rfl
  have presented : presentedToken stream.authText =
      some (((stream.token.text ++ ((if stream.cr then [13] else []) ++ [CText.newline])).takeWhile
        fun byte => CText.inLine byte && byte ≠ 13).take (gotSize - 1)) := by
    rw [presentedToken, begins]
    rfl
  rw [presented, Option.some.injEq]
  constructor
  · intro same cr
    rw [← same] at cr
    have kept := List.mem_takeWhile_imp (List.mem_of_mem_take cr)
    simp at kept
  · intro absent
    have kept : ∀ byte ∈ stream.token.text, (CText.inLine byte && byte ≠ 13) = true := by
      intro byte member
      have apart : byte ≠ 13 := by
        rintro rfl
        exact absent member
      simp [stream.token.line byte member, apart]
    have stops : ((if stream.cr then [13] else []) ++ [CText.newline]).takeWhile
        (fun byte => CText.inLine byte && byte ≠ 13) = [] := by
      cases stream.cr <;> rfl
    rw [List.takeWhile_append_of_pos kept, stops, List.append_nil]
    exact List.take_of_length_le (Nat.le_pred_of_lt stream.token.short)

/-- The connection when a SUB line is looked for, if the AUTH line comes in time. -/
def Stream.look (stream : Stream) (events : List Event) : Option Sock :=
  if stream.token.text = [] then some (stream.sock events)
  else
    (Sock.untilArrived stream.authLine.length (events.length + 2)
      {stream.sock events with limited := true}).map fun s => (s.recv stream.authLine.length).2

/-- The AUTH line comes in time and no CR ends its token, and the SUB line is seen. -/
def Heard (stream : Stream) (events : List Event) : Prop :=
  ∃ s, stream.look events = some s ∧ 13 ∉ stream.token.text ∧ ∀ sub ∈ stream.sub, Seen sub s

/-- The connection behind the AUTH line: what it is to read is left, and it is looked for a SUB
line. -/
theorem agentAuth_look (stream : Stream) (events : List Event) :
    (∀ s, stream.look events = some s → 13 ∉ stream.token.text →
      agentAuthReadAndCheck stream.token.text (stream.sock events) = some (true, s) ∧ s.Sound ∧
        s.rest = stream.subLine ++ stream.frames.flatMap Frame.bytes) ∧
    (¬(∃ s, stream.look events = some s ∧ 13 ∉ stream.token.text) →
      ∃ s, agentAuthReadAndCheck stream.token.text (stream.sock events) = some (false, s)) := by
  have start : (stream.sock events).Sound := Nat.zero_le _
  by_cases open_ : stream.token.text = []
  · have authLine : stream.authLine = [] := if_pos open_
    have look : stream.look events = some (stream.sock events) := if_pos open_
    have absent : 13 ∉ stream.token.text := by
      rw [open_]
      nofun
    constructor
    · intro s found _
      obtain rfl := Option.some.inj (look.symm.trans found)
      refine ⟨if_pos open_, start, ?_⟩
      simp only [Stream.sock, Stream.bytes, authLine, List.nil_append]
    · intro unheard
      exact absurd ⟨_, look, absent⟩ unheard
  · have authLine : stream.authLine = stream.authText ++ [CText.newline] := if_neg open_
    have length : stream.authLine.length = stream.authText.length + 1 := by
      rw [authLine, List.length_append]
      rfl
    have rest : ({stream.sock events with limited := true} : Sock).rest =
        stream.authText ++ CText.newline ::
          (stream.subLine ++ stream.frames.flatMap Frame.bytes) := by
      simp only [Stream.sock, Stream.bytes, authLine, List.append_assoc]
      rfl
    obtain ⟨refused, taken⟩ := authLoop_spec stream.token.text stream.authText
      (authText_clean stream) (authText_length stream) _ (events.length + 2)
      {stream.sock events with limited := true} start rest (Nat.lt_add_of_pos_right (by decide))
    have look : stream.look events =
        (Sock.untilArrived (stream.authText.length + 1) (events.length + 2)
          {stream.sock events with limited := true}).map fun s =>
            (s.recv (stream.authText.length + 1)).2 := by
      rw [Stream.look, if_neg open_, length]
    have auth : agentAuthReadAndCheck stream.token.text (stream.sock events) =
        authLoop stream.token.text (events.length + 2) {stream.sock events with limited := true} :=
      if_neg open_
    rw [look, auth]
    cases waited : Sock.untilArrived (stream.authText.length + 1) (events.length + 2)
        {stream.sock events with limited := true} with
    | none => exact ⟨nofun, fun _ => refused waited⟩
    | some t =>
      obtain ⟨ended, left, sound⟩ := taken t waited
      rw [ended]
      constructor
      · intro s found absent
        obtain rfl := Option.some.inj found
        refine ⟨?_, sound, left⟩
        rw [decide_eq_true ((presentedToken_iff stream).mpr absent)]
      · intro unheard
        have wrong : presentedToken stream.authText ≠ some stream.token.text := fun same =>
          unheard ⟨(t.recv (stream.authText.length + 1)).2, rfl, (presentedToken_iff stream).mp same⟩
        refine ⟨(t.recv (stream.authText.length + 1)).2, ?_⟩
        rw [decide_eq_false wrong]

theorem heard_forwarded {stream : Stream} {events : List Event} (heard : Heard stream events) :
    ctrlClientThread stream.token.text (stream.sock events) =
      some (stream.frames.map Frame.payload) := by
  obtain ⟨s, found, absent, seen⟩ := heard
  obtain ⟨auth, sound, rest⟩ := (agentAuth_look stream events).1 s found absent
  simp only [ctrlClientThread, auth, Option.bind_some, if_true]
  exact sub_forwarded sound stream.frames rest seen

theorem unheard_silent {stream : Stream} {events : List Event}
    (unheard : ¬Heard stream events) :
    ctrlClientThread stream.token.text (stream.sock events) = some [] := by
  by_cases looked : ∃ s, stream.look events = some s ∧ 13 ∉ stream.token.text
  · obtain ⟨s, found, absent⟩ := looked
    obtain ⟨auth, sound, rest⟩ := (agentAuth_look stream events).1 s found absent
    simp only [ctrlClientThread, auth, Option.bind_some, if_true]
    have unseen : ¬∀ sub ∈ stream.sub, Seen sub s := fun seen => unheard ⟨s, found, absent, seen⟩
    cases line : stream.sub with
    | none =>
      rw [line] at unseen
      exact absurd nofun unseen
    | some sub =>
      rw [Stream.subLine, line] at rest
      refine sub_silent sound sub stream.frames rest fun seen => unseen ?_
      rw [line]
      rintro other same
      cases same
      exact seen
  · obtain ⟨s, auth⟩ := (agentAuth_look stream events).2 looked
    simp only [ctrlClientThread, auth, Option.bind_some, Bool.false_eq_true, if_false]

/-- The frames of a stream become the worker's datagrams, as they are and in order, just if
there are none or the lines before them are heard. -/
theorem ctrlClientThread_iff (stream : Stream) (events : List Event) :
    ctrlClientThread stream.token.text (stream.sock events) =
        some (stream.frames.map Frame.payload) ↔
      stream.frames = [] ∨ Heard stream events := by
  by_cases heard : Heard stream events
  · exact iff_of_true (heard_forwarded heard) (Or.inr heard)
  · rw [unheard_silent heard, Option.some.injEq, eq_comm, List.map_eq_nil_iff,
      or_iff_left heard]

def noToken : Token := ⟨[], by decide, List.all_eq_true.mp rfl⟩

/-- No token, "SUB 1" and one frame. -/
def sampleStream : Stream where
  token := noToken
  cr := false
  sub := some ⟨[32, 49], List.all_eq_true.mp rfl⟩
  frames := [⟨[7], by decide, by decide⟩]

/-- The same stream, of which two bytes have come when the SUB line is looked for, and all. -/
theorem not_forwarded_early :
    ctrlClientThread sampleStream.token.text (sampleStream.sock [.more 2]) = some [] ∧
      ctrlClientThread sampleStream.token.text (sampleStream.sock []) = some [[7]] := by
  decide

end StreamRelay.Agent.Control
