import Mathlib.Data.List.Basic
import Mathlib.Data.Nat.Basic

/-! A connection as its receiver sees it: the bytes come in their order, some of them have come,
and a receive call waits for the first one, for so long as its time limit allows. -/
namespace StreamRelay.Arrival

/-- What happens before a receive call returns: so many more bytes come, or its time runs out. -/
inductive Event where
  | more (count : Nat)
  | timeout
  deriving DecidableEq, Repr

/-- The bytes not yet taken and how many of these have come. When the events end, all come; after
the last byte the peer closes. -/
structure Sock where
  rest : List UInt8
  arrived : Nat
  limited : Bool
  events : List Event
  deriving DecidableEq, Repr

namespace Sock

def bring (count : Nat) (s : Sock) : Sock :=
  {s with arrived := min s.rest.length (max 1 (s.arrived + count))}

/-- A call waits, and whether there is a byte for it then. The time limit matters only while
none has come. -/
def wait (s : Sock) : Bool × Sock :=
  match s.events with
  | [] => (s.rest ≠ [], {s with arrived := s.rest.length})
  | .more count :: later => (s.rest ≠ [], {s with events := later}.bring count)
  | .timeout :: later =>
    if s.limited && s.arrived = 0 then (false, {s with events := later})
    else (s.rest ≠ [], {s with events := later}.bring 0)

def take (n : Nat) (s : Sock) : Sock :=
  {s with rest := s.rest.drop n, arrived := s.arrived - n}

/-- A receive call that leaves the bytes where they are. -/
def peek (n : Nat) (s : Sock) : Option (List UInt8) × Sock :=
  let ready := s.wait
  if ready.1 then (some (ready.2.rest.take (min n ready.2.arrived)), ready.2) else (none, ready.2)

def recv (n : Nat) (s : Sock) : Option (List UInt8) × Sock :=
  let ready := s.wait
  if ready.1 then
    let count := min n ready.2.arrived
    (some (ready.2.rest.take count), ready.2.take count)
  else (none, ready.2)

/-- The loop that receives as many bytes as are wanted, for so many rounds. -/
def recvLoop (wanted : Nat) : Nat → List UInt8 → Sock → Option (List UInt8) × Sock
  | 0, _, s => (none, s)
  | rounds + 1, got, s =>
    if wanted ≤ got.length then (some got, s)
    else
      match s.recv (wanted - got.length) with
      | (none, s) => (none, s)
      | (some chunk, s) => recvLoop wanted rounds (got ++ chunk) s

/-- Each round brings a byte. -/
def recvExact (n : Nat) (s : Sock) : Option (List UInt8) × Sock := s.recvLoop n (n + 1) []

/-- No more have come than there are. -/
def Sound (s : Sock) : Prop := s.arrived ≤ s.rest.length

variable {s : Sock}

@[simp] theorem wait_rest (s : Sock) : s.wait.2.rest = s.rest := by
  simp only [wait]
  split
  · rfl
  · rfl
  · split <;> rfl

@[simp] theorem wait_limited (s : Sock) : s.wait.2.limited = s.limited := by
  simp only [wait]
  split
  · rfl
  · rfl
  · split <;> rfl

theorem wait_events (s : Sock) : s.wait.2.events = s.events.tail := by
  simp only [wait]
  split
  · rename_i none_left
    simp [none_left]
  · rename_i some_left
    simp [some_left, bring]
  · rename_i some_left
    split <;> simp [some_left, bring]

theorem wait_sound (sound : s.Sound) : s.wait.2.Sound := by
  simp only [wait]
  split
  · exact le_rfl
  · exact Nat.min_le_left _ _
  · split
    · exact sound
    · exact Nat.min_le_left _ _

/-- A call that returns bytes has a first one, and what had come is still there. -/
theorem wait_ready (sound : s.Sound) (ready : s.wait.1 = true) :
    s.rest ≠ [] ∧ 0 < s.wait.2.arrived ∧ s.arrived ≤ s.wait.2.arrived := by
  have there : s.rest ≠ [] := by
    revert ready
    simp only [wait]
    split
    · simp
    · simp
    · split <;> simp
  have positive := List.length_pos_iff.mpr there
  refine ⟨there, ?_⟩
  revert ready
  simp only [wait]
  split
  · exact fun _ => ⟨positive, sound⟩
  · intro _
    simp only [Sound] at sound
    simp only [bring]
    omega
  · split
    · nofun
    · intro _
      simp only [Sound] at sound
      simp only [bring]
      omega

/-- Without a limit, or with a byte there, a call returns bytes as long as there are any. -/
theorem wait_patient (there : s.rest ≠ []) (patient : s.limited = false ∨ 0 < s.arrived) :
    s.wait.1 = true := by
  simp only [wait]
  split
  · simp [there]
  · simp [there]
  · rw [if_neg]
    · simp [there]
    · rcases patient with free | present
      · simp [free]
      · simp [Nat.ne_of_gt present]

theorem wait_all (none_left : s.events = []) : s.wait.2.arrived = s.rest.length := by
  simp only [wait, none_left]

theorem take_sound {n : Nat} (sound : s.Sound) : (s.take n).Sound := by
  simp only [Sound] at sound
  simp only [take, Sound, List.length_drop]
  omega

theorem recv_closed (n : Nat) (closed : s.rest = []) : (s.recv n).1 = none := by
  have silent : s.wait.1 = false := by
    simp only [wait]
    split
    · simp [closed]
    · simp [closed]
    · split <;> simp [closed]
  simp [recv, silent]

/-- A call without a limit takes some of the bytes wanted. -/
theorem recv_some {n : Nat} (positive : 0 < n) (sound : s.Sound) (free : s.limited = false)
    (there : s.rest ≠ []) :
    ∃ count, 0 < count ∧ count ≤ n ∧ count ≤ s.rest.length ∧
      (s.recv n).1 = some (s.rest.take count) ∧ (s.recv n).2.rest = s.rest.drop count ∧
      (s.recv n).2.Sound ∧ (s.recv n).2.limited = false := by
  have ready := wait_patient there (Or.inl free)
  obtain ⟨-, present, -⟩ := wait_ready sound ready
  have after := wait_sound sound
  have bound : s.wait.2.arrived ≤ s.rest.length := by
    rw [← wait_rest s]
    exact after
  refine ⟨min n s.wait.2.arrived, by omega, Nat.min_le_left _ _, by omega, ?_, ?_, ?_, ?_⟩
  · simp only [recv, ready, if_true, wait_rest]
  · simp only [recv, ready, if_true, take, wait_rest]
  · simp only [recv, ready, if_true]
    exact take_sound after
  · simp only [recv, ready, if_true, take, wait_limited, free]

theorem recv_silent (n : Nat) (silent : s.wait.1 = false) : s.recv n = (none, s.wait.2) := by
  simp [recv, silent]

theorem recv_one (sound : s.Sound) (ready : s.wait.1 = true) {byte : UInt8} {more : List UInt8}
    (come : s.rest = byte :: more) :
    (s.recv 1).1 = some [byte] ∧ (s.recv 1).2.rest = more ∧ (s.recv 1).2.Sound ∧
      (s.recv 1).2.limited = s.limited := by
  obtain ⟨-, present, -⟩ := wait_ready sound ready
  have count : min 1 s.wait.2.arrived = 1 := Nat.min_eq_left present
  simp only [recv, ready, if_true, count, take, wait_rest, wait_limited, come]
  refine ⟨rfl, rfl, ?_, trivial⟩
  have after := take_sound (n := 1) (wait_sound sound)
  simp only [take, wait_rest, wait_limited, come] at after
  exact after

/-- So many bytes can be received one by one before the time runs out. -/
def steady : Nat → Sock → Bool
  | 0, _ => true
  | n + 1, s => s.wait.1 && steady n (s.recv 1).2

/-- The connection when so many bytes have come, looked at once for each event at most. -/
def untilArrived (n : Nat) : Nat → Sock → Option Sock
  | 0, _ => none
  | rounds + 1, s =>
    if s.wait.1 then
      if n ≤ s.wait.2.arrived then some s.wait.2 else untilArrived n rounds s.wait.2
    else none

/-- What has come can be received at once. -/
theorem recv_come {n : Nat} (positive : 0 < n) (come : n ≤ s.arrived) (sound : s.Sound) :
    (s.recv n).1 = some (s.rest.take n) ∧ (s.recv n).2.rest = s.rest.drop n ∧
      (s.recv n).2.Sound ∧ (s.recv n).2.limited = s.limited := by
  have there : s.rest ≠ [] := by
    intro empty
    simp only [Sound, empty, List.length_nil] at sound
    omega
  have ready := wait_patient there (Or.inr (Nat.lt_of_lt_of_le positive come))
  obtain ⟨-, -, more⟩ := wait_ready sound ready
  have count : min n s.wait.2.arrived = n := Nat.min_eq_left (Nat.le_trans come more)
  have after := take_sound (n := n) (wait_sound sound)
  simp only [recv, ready, if_true, count, wait_rest]
  refine ⟨trivial, ?_, after, ?_⟩
  · simp only [take, wait_rest]
  · simp only [take, wait_limited]

theorem recvLoop_spec (wanted : Nat) :
    ∀ (rounds : Nat) (got : List UInt8) (s : Sock), s.Sound → s.limited = false →
      wanted < got.length + rounds →
      (wanted ≤ got.length + s.rest.length → got.length ≤ wanted →
        (s.recvLoop wanted rounds got).1 = some (got ++ s.rest.take (wanted - got.length)) ∧
        (s.recvLoop wanted rounds got).2.rest = s.rest.drop (wanted - got.length) ∧
        (s.recvLoop wanted rounds got).2.Sound ∧
        (s.recvLoop wanted rounds got).2.limited = false) ∧
      (got.length + s.rest.length < wanted → (s.recvLoop wanted rounds got).1 = none)
  | 0, got, s, _, _, enough => by
    refine ⟨fun _ within => ?_, fun _ => rfl⟩
    omega
  | rounds + 1, got, s, sound, free, enough => by
    simp only [recvLoop]
    split
    · rename_i done
      refine ⟨fun _ within => ?_, fun short => by omega⟩
      have same : wanted - got.length = 0 := by omega
      rw [same]
      exact ⟨by simp, by simp, sound, free⟩
    · rename_i wanting
      by_cases closed : s.rest = []
      · have absent := recv_closed (wanted - got.length) closed
        have short : ¬wanted ≤ got.length + s.rest.length := by
          rw [closed, List.length_nil]
          omega
        refine ⟨fun enough => absurd enough short, fun _ => ?_⟩
        split
        · rfl
        · rename_i received
          rw [received] at absent
          cases absent
      · obtain ⟨count, positive, asked, there, took, left, after, still⟩ :=
          recv_some (show 0 < wanted - got.length by omega) sound free closed
        split
        · rename_i received
          rw [received] at took
          cases took
        · rename_i chunk next received
          rw [received] at took left after still
          obtain rfl := Option.some.inj took
          have length : (s.rest.take count).length = count := by
            rw [List.length_take, Nat.min_eq_left there]
          obtain ⟨all, short⟩ := recvLoop_spec wanted rounds (got ++ s.rest.take count) next after still
            (by rw [List.length_append, length]; omega)
          dsimp only at left
          rw [List.length_append, length, left, List.length_drop] at all short
          constructor
          · intro sufficient within
            obtain ⟨result, behind, sounds, frees⟩ := all (by omega) (by omega)
            have parts : wanted - got.length = count + (wanted - (got.length + count)) := by omega
            refine ⟨?_, ?_, sounds, frees⟩
            · rw [result, List.append_assoc, parts, List.take_add]
            · rw [behind, List.drop_drop, parts]
          · intro lacking
            exact short (by omega)

/-- Without a limit all the bytes are received, or the connection ends before. -/
theorem recvExact_spec (n : Nat) (sound : s.Sound) (free : s.limited = false) :
    (n ≤ s.rest.length → (s.recvExact n).1 = some (s.rest.take n) ∧
      (s.recvExact n).2.rest = s.rest.drop n ∧ (s.recvExact n).2.Sound ∧
      (s.recvExact n).2.limited = false) ∧
    (s.rest.length < n → (s.recvExact n).1 = none) := by
  obtain ⟨all, short⟩ := recvLoop_spec n (n + 1) [] s sound free (by simp)
  simp only [List.length_nil, Nat.zero_add, Nat.sub_zero, List.nil_append] at all short
  exact ⟨fun enough => all enough (Nat.zero_le n), short⟩

end Sock

end StreamRelay.Arrival
