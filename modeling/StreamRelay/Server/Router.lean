import StreamRelay.Run
import StreamRelay.Server.Request

/-! The frames of requests. Messages come whole, and the bridge takes their frames one
by one; only before the second frame and the JSON does it ask whether there are more. -/
namespace StreamRelay.Server

/-- A frame, with the number of its message and its place there, which the program
does not see. -/
structure Part where
  bytes : Bytes
  message : Nat
  position : Nat
  deriving DecidableEq

/-- What a reply is made for. -/
structure RoutedRequest where
  identity : Part
  delimited : Bool
  cmd : Part
  json : Option Part
  deriving DecidableEq

/-- The receive that the bridge is in, with the frames it has. -/
inductive Receive where
  | identity
  | first (sender : Part)
  | command (sender : Part)
  | json (sender : Part) (delimited : Bool) (cmd : Part)

structure Router where
  receive : Receive
  received : Nat
  requests : List RoutedRequest

/-- A message of frames, or a receive that fails while it waits for one. -/
inductive Arrival where
  | message (frames : List Bytes)
  | interrupted

/-- One frame of the loop; `more` is ZMQ_RCVMORE after it. -/
def Receive.take (part : Part) (more : Bool) : Receive → Receive × Option RoutedRequest
  | .identity => (if more then .first part else .identity, none)
  | .first sender =>
    if part.bytes = [] then (.command sender, none)
    else if more then (.json sender false part, none)
    else (.identity, some ⟨sender, false, part, none⟩)
  | .command sender =>
    if more then (.json sender true part, none)
    else (.identity, some ⟨sender, true, part, none⟩)
  | .json sender delimited cmd => (.identity, some ⟨sender, delimited, cmd, some part⟩)

def Receive.takeAll (receive : Receive) : List Part → Receive × List RoutedRequest
  | [] => (receive, [])
  | part :: rest =>
    let next := receive.take part (rest ≠ [])
    let later := next.1.takeAll rest
    (later.1, next.2.toList ++ later.2)

/-- The frames from the `position`-th place on. -/
def partsFrom (message position : Nat) : List Bytes → List Part
  | [] => []
  | bytes :: rest => ⟨bytes, message, position⟩ :: partsFrom message (position + 1) rest

namespace Router

def start : Router := ⟨.identity, 0, []⟩

def step (s : Router) : Arrival → Router
  | .message frames =>
    let taken := s.receive.takeAll (partsFrom s.received 0 frames)
    ⟨taken.1, s.received + 1, s.requests ++ taken.2⟩
  | .interrupted => {s with receive := .identity}

def run (arrivals : List Arrival) : Router := Run.run step start arrivals

end Router

namespace RoutedRequest

/-- The JSON of a request without one. -/
def jsonBytes (r : RoutedRequest) : Bytes := r.json.elim (ascii ['{', '}']) Part.bytes

/-- A reply goes to the identity, with the delimiter if there was one. -/
def replyFrames (r : RoutedRequest) (body : List Bytes) : List Bytes :=
  r.identity.bytes :: (if r.delimited then [[]] else []) ++ body

end RoutedRequest

section Framing

/-- The request that a message asks for. -/
def intended : List Part → Option RoutedRequest
  | identity :: second :: rest =>
    if second.bytes = [] then
      match rest with
      | [] => none
      | cmd :: rest => some ⟨identity, true, cmd, rest.head?⟩
    else some ⟨identity, false, second, rest.head?⟩
  | _ => none

/-- The frames that are left when the request of a message is complete. -/
def leftover : List Bytes → List Bytes
  | _ :: [] :: rest => rest.drop 2
  | frames => frames.drop 3

/-- Frames from which the bridge makes no request. -/
def Harmless : List Bytes → Prop
  | [] | [_] | [_, []] => True
  | _ => False

/-- A message comes while the bridge waits for an identity, and has no frames that make
another request. -/
def Whole (s : Router) : Arrival → Prop
  | .message [] => True
  | .message frames => s.receive = .identity ∧ Harmless (leftover frames)
  | .interrupted => True

/-- All frames of a request are of one message, whose first is the identity. -/
structure Framed (r : RoutedRequest) : Prop where
  identity : r.identity.position = 0
  cmd : r.cmd.message = r.identity.message ∧ r.cmd.position = if r.delimited then 2 else 1
  json : ∀ json, r.json = some json →
    json.message = r.identity.message ∧ json.position = r.cmd.position + 1

def Arrival.frames : Arrival → Option (List Bytes)
  | .message frames => some frames
  | .interrupted => none

def messages (arrivals : List Arrival) : List (List Bytes) := arrivals.filterMap Arrival.frames

/-- Each message has at most one reply, which goes to its first frame. -/
structure ByMessage (messages : List (List Bytes)) (requests : List RoutedRequest) : Prop where
  framed : ∀ r ∈ requests, Framed r
  once : (requests.map fun r => r.cmd.message).Nodup
  addressed : ∀ r ∈ requests, ∀ body, ∃ frames, messages[r.cmd.message]? = some frames ∧
    frames.head? = (r.replyFrames body).head?

def partsOf (messages : List (List Bytes)) : List (List Part) :=
  messages.mapIdx fun message frames => partsFrom message 0 frames

/-- The requests that the messages ask for. -/
def expected (arrivals : List Arrival) : List RoutedRequest :=
  (partsOf (messages arrivals)).filterMap intended

end Framing

section Frames

variable (message position : Nat)

/-- Frames that no request comes of leave the bridge waiting for a sender or a command. -/
theorem takeAll_harmless {frames : List Bytes} (harmless : Harmless frames) :
    (Receive.identity.takeAll (partsFrom message position frames)).2 = [] := by
  match frames, harmless with
  | [], _ => rfl
  | [_], _ => rfl
  | [_, []], _ => rfl

theorem intended_harmful {frames : List Bytes} (harmful : ¬ Harmless frames) :
    ∃ r, intended (partsFrom message position frames) = some r ∧ r.identity.message = message ∧
      r.identity.position = position := by
  match frames with
  | [] => exact (harmful trivial).elim
  | [_] => exact (harmful trivial).elim
  | [_, []] => exact (harmful trivial).elim
  | _ :: (_ :: _) :: _ => exact ⟨_, rfl, rfl, rfl⟩
  | _ :: [] :: _ :: _ => exact ⟨_, rfl, rfl, rfl⟩

/-- The bridge makes the intended request and goes on with the frames that are left. -/
theorem takeAll_requests (frames : List Bytes) :
    ∃ k, (leftover frames ≠ [] → 0 < k) ∧
      (Receive.identity.takeAll (partsFrom message position frames)).2 =
        (intended (partsFrom message position frames)).toList ++
          (Receive.identity.takeAll (partsFrom message (position + k) (leftover frames))).2 := by
  match frames with
  | [] => exact ⟨0, fun more => (more rfl).elim, rfl⟩
  | [_] => exact ⟨0, fun more => (more rfl).elim, rfl⟩
  | [_, []] => exact ⟨0, fun more => (more rfl).elim, rfl⟩
  | [_, _ :: _] => exact ⟨0, fun more => (more rfl).elim, rfl⟩
  | _ :: (_ :: _) :: _ :: rest => exact ⟨3, fun _ => by omega, rfl⟩
  | [_, [], _] => exact ⟨0, fun more => (more rfl).elim, rfl⟩
  | _ :: [] :: _ :: _ :: rest => exact ⟨4, fun _ => by omega, rfl⟩

/-- After a message the bridge waits for a sender, or for a command of this one's. -/
theorem takeAll_receive (receive : Receive) (parts : List Part)
    (between : parts = [] → receive = .identity ∨ ∃ sender, receive = .command sender) :
    (receive.takeAll parts).1 = .identity ∨
      ∃ sender, (receive.takeAll parts).1 = .command sender := by
  induction parts generalizing receive with
  | nil => exact between rfl
  | cons part rest ih =>
    refine ih _ fun last => ?_
    subst last
    cases receive with
    | identity => exact .inl rfl
    | first sender =>
      rw [Receive.take]
      split
      · exact .inr ⟨sender, rfl⟩
      · exact .inl rfl
    | command sender => exact .inl rfl
    | json sender delimited cmd => exact .inl rfl

/-- The sender that a receive is for. -/
def Receive.sender : Receive → Option Part
  | .identity => none
  | .first sender | .command sender | .json sender _ _ => some sender

theorem takeAll_sender {property : Part → Prop} (receive : Receive) (parts : List Part)
    (held : ∀ sender, receive.sender = some sender → property sender)
    (all : ∀ part ∈ parts, property part) (sender : Part)
    (left : (receive.takeAll parts).1.sender = some sender) : property sender := by
  induction parts generalizing receive with
  | nil => exact held sender left
  | cons part rest ih =>
    refine ih _ (fun next same => ?_) (fun other member => all other (by simp [member])) left
    cases receive with
    | identity =>
      rw [Receive.take] at same
      split at same
      · cases same
        exact all part (by simp)
      · cases same
    | first own =>
      rw [Receive.take] at same
      split at same
      · exact held next same
      · split at same
        · exact held next same
        · cases same
    | command own =>
      rw [Receive.take] at same
      split at same
      · exact held next same
      · cases same
    | json own delimited cmd => cases same

theorem takeAll_command (sender part : Part) (rest : List Part) :
    ∃ r ∈ ((Receive.command sender).takeAll (part :: rest)).2,
      r.identity = sender ∧ r.cmd = part := by
  cases rest with
  | nil => exact ⟨⟨sender, true, part, none⟩, List.mem_singleton_self _, rfl, rfl⟩
  | cons json rest => exact ⟨⟨sender, true, part, some json⟩, by simp [Receive.takeAll, Receive.take], rfl, rfl⟩

theorem partsFrom_message (frames : List Bytes) :
    ∀ part ∈ partsFrom message position frames, part.message = message := by
  induction frames generalizing position with
  | nil => simp [partsFrom]
  | cons bytes rest ih => simpa [partsFrom] using ih (position + 1)

end Frames

namespace Router

/-- Between messages the bridge waits for a sender, or for the command of an earlier one. -/
structure Between (s : Router) : Prop where
  receive : s.receive = .identity ∨ ∃ sender, s.receive = .command sender
  earlier : ∀ sender, s.receive.sender = some sender → sender.message < s.received

theorem Between.step {s : Router} (between : s.Between) (arrival : Arrival) :
    (s.step arrival).Between := by
  cases arrival with
  | interrupted => exact ⟨.inl rfl, nofun⟩
  | message frames =>
    refine ⟨takeAll_receive _ _ fun _ => between.receive, fun sender left => ?_⟩
    have held : ∀ sender, s.receive.sender = some sender → sender.message < s.received + 1 :=
      fun sender held => Nat.lt_succ_of_lt (between.earlier sender held)
    have all : ∀ part ∈ partsFrom s.received 0 frames, part.message < s.received + 1 := by
      intro part member
      rw [partsFrom_message _ _ frames part member]
      exact Nat.lt_succ_self _
    exact takeAll_sender s.receive _ held all sender left

theorem between_run (arrivals : List Arrival) : (run arrivals).Between :=
  Run.invariant step start Between ⟨.inl rfl, nofun⟩ (fun _ arrival kept => kept.step arrival) arrivals

theorem step_requests (s : Router) (arrival : Arrival) :
    ∃ more, (s.step arrival).requests = s.requests ++ more := by
  cases arrival with
  | message frames => exact ⟨_, rfl⟩
  | interrupted => exact ⟨[], (List.append_nil _).symm⟩

theorem messages_snoc (past : List Arrival) (arrival : Arrival) :
    messages (past ++ [arrival]) = messages past ++ arrival.frames.toList := by
  cases arrival <;> simp [messages, Arrival.frames, List.filterMap_cons]

theorem received_run (arrivals : List Arrival) :
    (run arrivals).received = (messages arrivals).length := by
  refine Run.history step start (fun past s => s.received = (messages past).length) rfl
    (fun past arrival same => ?_) arrivals
  rw [messages_snoc, List.length_append, ← same]
  cases arrival <;> rfl

theorem expected_snoc (past : List Arrival) (frames : List Bytes) :
    expected (past ++ [.message frames]) =
      expected past ++ (intended (partsFrom (messages past).length 0 frames)).toList := by
  rw [expected, messages_snoc, partsOf, List.mapIdx_append, List.filterMap_append]
  congr 1
  cases made : intended (partsFrom (messages past).length 0 frames) <;>
    simp [Arrival.frames, made]

/-- A message that comes as it should makes the request it asks for, if any. -/
theorem step_whole {s : Router} {frames : List Bytes} (whole : Whole s (.message frames)) :
    (s.step (.message frames)).requests =
      s.requests ++ (intended (partsFrom s.received 0 frames)).toList := by
  cases frames with
  | nil => rfl
  | cons bytes rest =>
    obtain ⟨receive, harmless⟩ := whole
    obtain ⟨k, -, requests⟩ := takeAll_requests s.received 0 (bytes :: rest)
    rw [step, receive]
    dsimp only
    rw [requests, takeAll_harmless _ _ harmless, List.append_nil]

theorem requests_expected (arrivals : List Arrival) (whole : Run.Always step start Whole arrivals) :
    (run arrivals).requests = expected arrivals := by
  refine Run.history_while step start Whole (fun past s => s.requests = expected past) rfl
    (fun past arrival same may => ?_) arrivals whole
  cases arrival with
  | message frames =>
    rw [step_whole may, same, expected_snoc, ← received_run]
    rfl
  | interrupted =>
    have kept : messages (past ++ [.interrupted]) = messages past := by
      rw [messages_snoc]
      exact List.append_nil _
    rw [expected, kept]
    exact same

/-- Another arrival makes a request out of frames that are not one message. -/
theorem step_broken {s : Router} (between : s.Between) {arrival : Arrival}
    (broken : ¬ Whole s arrival) : ∃ r ∈ (s.step arrival).requests, ¬ Framed r := by
  cases arrival with
  | interrupted => exact (broken trivial).elim
  | message frames =>
    cases frames with
    | nil => exact (broken trivial).elim
    | cons bytes rest =>
      rcases between.receive with identity | ⟨sender, command⟩
      · have harmful : ¬ Harmless (leftover (bytes :: rest)) := fun harmless =>
          broken ⟨identity, harmless⟩
        have remain : leftover (bytes :: rest) ≠ [] := by
          intro none
          rw [none] at harmful
          exact harmful trivial
        obtain ⟨k, positive, requests⟩ := takeAll_requests s.received 0 (bytes :: rest)
        obtain ⟨k', -, later⟩ := takeAll_requests s.received (0 + k) (leftover (bytes :: rest))
        obtain ⟨r, made, -, position⟩ := intended_harmful s.received (0 + k) harmful
        refine ⟨r, ?_, fun framed => ?_⟩
        · rw [step, identity]
          dsimp only
          rw [requests, later, made]
          simp
        · have zero := framed.identity
          have more := positive remain
          omega
      · obtain ⟨r, member, identity, cmd⟩ := takeAll_command sender ⟨bytes, s.received, 0⟩
          (partsFrom s.received 1 rest)
        refine ⟨r, ?_, fun framed => ?_⟩
        · rw [step, command]
          exact List.mem_append_right _ member
        · have same := framed.cmd.1
          rw [identity, cmd] at same
          have before := between.earlier sender (by rw [command]; rfl)
          exact absurd same before.ne'

theorem intended_framed {message : Nat} {frames : List Bytes} {r : RoutedRequest}
    (made : intended (partsFrom message 0 frames) = some r) :
    Framed r ∧ r.cmd.message = message ∧ frames.head? = some r.identity.bytes := by
  match frames, made with
  | _ :: (_ :: _) :: [], rfl => exact ⟨⟨rfl, ⟨rfl, rfl⟩, nofun⟩, rfl, rfl⟩
  | _ :: (_ :: _) :: _ :: _, rfl =>
    exact ⟨⟨rfl, ⟨rfl, rfl⟩, fun _ same => by cases same; exact ⟨rfl, rfl⟩⟩, rfl, rfl⟩
  | _ :: [] :: _ :: [], rfl => exact ⟨⟨rfl, ⟨rfl, rfl⟩, nofun⟩, rfl, rfl⟩
  | _ :: [] :: _ :: _ :: _, rfl =>
    exact ⟨⟨rfl, ⟨rfl, rfl⟩, fun _ same => by cases same; exact ⟨rfl, rfl⟩⟩, rfl, rfl⟩

/-- What the messages ask for is one request a message at most. -/
theorem expected_byMessage (arrivals : List Arrival) :
    ByMessage (messages arrivals) (expected arrivals) ∧
      ∀ r ∈ expected arrivals, r.cmd.message < (messages arrivals).length := by
  induction arrivals using List.reverseRecOn with
  | nil => exact ⟨⟨nofun, List.nodup_nil, nofun⟩, nofun⟩
  | append_singleton past arrival ih =>
    obtain ⟨⟨framed, once, addressed⟩, known⟩ := ih
    cases arrival with
    | interrupted =>
      have kept : messages (past ++ [.interrupted]) = messages past := by
        rw [messages_snoc]
        exact List.append_nil _
      rw [expected, kept]
      exact ⟨⟨framed, once, addressed⟩, known⟩
    | message frames =>
      have longer : messages (past ++ [.message frames]) = messages past ++ [frames] := messages_snoc ..
      rw [expected_snoc, longer]
      cases made : intended (partsFrom (messages past).length 0 frames) with
      | none =>
        rw [Option.toList_none, List.append_nil]
        refine ⟨⟨framed, once, fun r member body => ?_⟩, fun r member => ?_⟩
        · obtain ⟨own, found, same⟩ := addressed r member body
          exact ⟨own, by rw [List.getElem?_append_left (known r member)]; exact found, same⟩
        · have less := known r member
          rw [List.length_append]
          omega
      | some r =>
        obtain ⟨whole, message, head⟩ := intended_framed made
        rw [Option.toList_some]
        refine ⟨⟨fun other member => ?_, ?_, fun other member body => ?_⟩, fun other member => ?_⟩
        · rcases List.mem_append.mp member with earlier | last
          · exact framed other earlier
          · obtain rfl := List.mem_singleton.mp last
            exact whole
        · rw [List.map_append, List.map_singleton, List.nodup_append]
          refine ⟨once, List.nodup_singleton _, fun earlier inside last same => ?_⟩
          obtain ⟨other, member, rfl⟩ := List.mem_map.mp inside
          rw [List.mem_singleton.mp same, message]
          exact (known other member).ne
        · rcases List.mem_append.mp member with earlier | last
          · obtain ⟨own, found, same⟩ := addressed other earlier body
            exact ⟨own, by rw [List.getElem?_append_left (known other earlier)]; exact found, same⟩
          · obtain rfl := List.mem_singleton.mp last
            refine ⟨frames, by rw [message]; simp, head.trans ?_⟩
            simp [RoutedRequest.replyFrames]
        · rw [List.length_append, List.length_singleton]
          rcases List.mem_append.mp member with earlier | last
          · exact Nat.lt_succ_of_lt (known other earlier)
          · rw [List.mem_singleton.mp last, message]
            exact Nat.lt_succ_self _

theorem requests_prefix (past rest : List Arrival) :
    ∃ more, (run (past ++ rest)).requests = (run past).requests ++ more := by
  induction rest using List.reverseRecOn with
  | nil => exact ⟨[], by rw [List.append_nil, List.append_nil]⟩
  | append_singleton rest arrival ih =>
    obtain ⟨more, same⟩ := ih
    obtain ⟨last, step⟩ := step_requests (run (past ++ rest)) arrival
    refine ⟨more ++ last, ?_⟩
    rw [← List.append_assoc, run, Run.run_snoc, ← run, step, same, List.append_assoc]

/-- The replies go by message exactly if each message comes while the bridge waits for a
sender and ends where its request does. -/
theorem byMessage_iff (arrivals : List Arrival) :
    ByMessage (messages arrivals) (run arrivals).requests ↔
      Run.Always step start Whole arrivals := by
  constructor
  · rintro byMessage past arrival rest rfl
    by_contra broken
    obtain ⟨r, member, not⟩ := step_broken (between_run past) broken
    obtain ⟨more, same⟩ := requests_prefix (past ++ [arrival]) rest
    rw [List.append_assoc, List.singleton_append] at same
    refine not (byMessage.framed r ?_)
    rw [same, run, Run.run_snoc]
    exact List.mem_append_left _ member
  · intro whole
    rw [requests_expected arrivals whole]
    exact (expected_byMessage arrivals).1

/-- A client sends an empty frame alone, and the next message's sender is its command. -/
theorem not_byMessage_empty :
    (run [.message [[1], []], .message [[2], ascii ['P', 'I', 'N', 'G']]]).requests =
      [⟨⟨[1], 0, 0⟩, true, ⟨[2], 1, 0⟩, some ⟨ascii ['P', 'I', 'N', 'G'], 1, 1⟩⟩] ∧
    ¬ ByMessage [[[1], []], [[2], ascii ['P', 'I', 'N', 'G']]]
      (run [.message [[1], []], .message [[2], ascii ['P', 'I', 'N', 'G']]]).requests := by
  refine ⟨by rfl, fun byMessage => ?_⟩
  have framed := byMessage.framed
    ⟨⟨[1], 0, 0⟩, true, ⟨[2], 1, 0⟩, some ⟨ascii ['P', 'I', 'N', 'G'], 1, 1⟩⟩ (List.mem_singleton_self _)
  exact absurd framed.cmd.1 (by decide)

end Router

end StreamRelay.Server
