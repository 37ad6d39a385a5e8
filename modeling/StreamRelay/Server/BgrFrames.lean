import StreamRelay.Census
import StreamRelay.Refcount
import StreamRelay.Server.Request

/-! Who holds the images of the bridge. The cache, the request and the messages on their
way share them by counting; the messages let go from another thread, at any time. -/
namespace StreamRelay.Server.BgrFrames
open Refcount

variable {Picture : Type*}

/-- Where the bridge thread is, with the images in its local variables. -/
inductive Stage where
  | receiving
  | converting (streamId : Nat) (roi : RoiRequest)
  | made (streamId : Nat) (roi : RoiRequest) (frame : Nat)
  | replacing (roi : RoiRequest) (frame old : Nat)
  | holding (roi : RoiRequest) (frame : Nat)
  | cropped (frame replyFrame : Nat)
  | replying (replyFrame : Nat)
  | refused (frame : Nat)
  | sending (frame : Nat)
  | clearing (next : Nat)
  | finished
  deriving DecidableEq

structure State (Picture : Type*) where
  heap : Heap (BgrFrame Picture)
  cache : Nat → Option Nat
  stage : Stage
  messages : List Nat

/-- What an attempt at a stream's last frame comes upon; `pixels` says whether the
conversion that succeeds has made some. -/
structure Attempt (Picture : Type*) where
  lastFrame : Option (DecodedFrame Picture)
  info : StreamInfo
  answers : ConvertAnswers
  pixels : Bool

/-- What happens next: a request for a frame, an attempt that may be the last if it fails,
a step of the thread, ZeroMQ freeing a message, or the end of the loop. -/
inductive Event (Picture : Type*) where
  | request (streamId : Nat) (roi : RoiRequest)
  | attempt (attempt : Attempt Picture) (last : Bool)
  | proceed (granted : Bool)
  | callback (frame : Nat)
  | stop

section
variable (cacheCount : Nat) (convert : Conversion Picture)

def start : State Picture := ⟨.empty, fun _ => none, .receiving, []⟩

def Attempt.snapshot (attempt : Attempt Picture) : Option (DecodedFrame Picture) :=
  attempt.lastFrame.filter fun frame =>
    0 < frame.av.width && 0 < frame.av.height && attempt.answers.refOk

def cacheHit (s : State Picture) (streamId : Nat) (snapshot : DecodedFrame Picture)
    (info : StreamInfo) : Option Nat :=
  if streamId < cacheCount then
    (s.cache streamId).filter fun cached => (s.heap.cells cached).any fun cell =>
      Bridge.cachedBgrFrameMatches cell.object streamId snapshot info
  else none

/-- convert_last_frame_to_bgr up to the reference of a new image; without a stage the
result is -1. -/
def convertLastFrameToBgr (s : State Picture) (streamId : Nat) (roi : RoiRequest)
    (attempt : Attempt Picture) : State Picture × Option Stage :=
  match attempt.snapshot with
  | none => (s, none)
  | some snapshot =>
    match cacheHit cacheCount s streamId snapshot attempt.info with
    | some cached => ({s with heap := s.heap.retain cached}, some (.holding roi cached))
    | none =>
      if !attempt.answers.convertOk || !attempt.answers.allocOk then (s, none)
      else
        let frame := Bridge.bgrFrame convert streamId snapshot attempt.info attempt.answers.monoNs
        if attempt.pixels then
          ({s with heap := s.heap.create frame}, some (.made streamId roi s.heap.known))
        else ({s with heap := s.heap.discard frame}, none)

/-- free_bgr_frame_msg -/
def freeBgrFrameMsg (s : State Picture) (frame : Nat) : State Picture :=
  if s.messages.contains frame then
    {s with heap := s.heap.release frame, messages := s.messages.erase frame}
  else s

/-- A step of the thread; `granted` says whether there is memory for it, or whether the
message is sent. -/
def proceed (s : State Picture) (granted : Bool) : State Picture :=
  match s.stage with
  | .made streamId roi frame =>
    if streamId < cacheCount then
      {s with
        cache := Function.update s.cache streamId (some frame)
        heap := s.heap.retain frame
        stage := (s.cache streamId).elim (.holding roi frame) (.replacing roi frame)}
    else {s with stage := .holding roi frame}
  | .replacing roi frame old => {s with heap := s.heap.release old, stage := .holding roi frame}
  | .holding roi frame =>
    match s.heap.cells frame with
    | none => s
    | some cell =>
      match resolveBgrRoi cell.object roi with
      | none => {s with stage := .refused frame}
      | some roi =>
        if roi.applied then
          match cropBgrFrame granted cell.object roi with
          | none => {s with stage := .refused frame}
          | some cropped =>
            {s with heap := s.heap.create cropped, stage := .cropped frame s.heap.known}
        else {s with stage := .replying frame}
  | .cropped frame replyFrame =>
    {s with heap := s.heap.release frame, stage := .replying replyFrame}
  | .replying replyFrame =>
    if granted then {s with messages := replyFrame :: s.messages, stage := .sending replyFrame}
    else {s with stage := .refused replyFrame}
  | .refused frame => {s with heap := s.heap.release frame, stage := .receiving}
  | .sending frame =>
    -- closing a message that was not sent frees it at once
    if granted then {s with stage := .receiving}
    else freeBgrFrameMsg {s with stage := .receiving} frame
  | .clearing next =>
    if next < cacheCount then
      {s with
        cache := Function.update s.cache next none
        heap := (s.cache next).elim s.heap s.heap.release
        stage := .clearing (next + 1)}
    else {s with stage := .finished}
  | .receiving | .converting .. | .finished => s

def step (s : State Picture) : Event Picture → State Picture
  | .request streamId roi =>
    match s.stage with
    | .receiving => {s with stage := .converting streamId roi}
    | _ => s
  | .attempt attempt last =>
    match s.stage with
    | .converting streamId roi =>
      let (next, found) := convertLastFrameToBgr cacheCount convert s streamId roi attempt
      {next with stage := found.getD (if last then .receiving else .converting streamId roi)}
    | _ => s
  | .proceed granted => proceed cacheCount s granted
  | .callback frame => freeBgrFrameMsg s frame
  | .stop =>
    match s.stage with
    | .receiving => {s with stage := .clearing 0}
    | _ => s

def run (events : List (Event Picture)) : State Picture :=
  Run.run (step cacheCount convert) start events

/-- The images that the local variables hold. -/
def Stage.holders : Stage → Nat → Nat
  | .made _ _ frame | .holding _ frame | .replying frame | .refused frame => hold frame
  | .replacing _ frame old => fun id => hold frame id + hold old id
  | .cropped frame replyFrame => fun id => hold frame id + hold replyFrame id
  | .receiving | .converting .. | .sending _ | .clearing _ | .finished => fun _ => 0

def slots (cache : Nat → Option Nat) (id : Nat) : Nat :=
  Census.count (fun slot => slot == some id) cache cacheCount

/-- The holders of an image: cache slots, the request, and messages in flight. -/
def State.holders (s : State Picture) (id : Nat) : Nat :=
  slots cacheCount s.cache id + s.stage.holders id + s.messages.count id

/-- The slots that clearing has been through are empty. -/
def Cleared (cache : Nat → Option Nat) : Stage → Prop
  | .clearing next => ∀ slot < next, cache slot = none
  | .finished => ∀ slot < cacheCount, cache slot = none
  | _ => True

/-- Every image has as many references as holders while it has some, and is freed once. -/
structure Kept (s : State Picture) : Prop where
  owned : Owned s.heap (s.holders cacheCount)
  cleared : Cleared cacheCount s.cache s.stage

/-- When the thread has shut down and all messages were freed, so was every image. -/
def Released (s : State Picture) : Prop :=
  s.stage = .finished → s.messages = [] →
    ∀ id cell, s.heap.cells id = some cell → cell.freed = 1

end

section Counting
variable {cacheCount : Nat} {cache : Nat → Option Nat}

theorem slot_toNat (slot : Option Nat) (id : Nat) :
    (slot == some id).toNat = slot.elim 0 fun frame => hold frame id := by
  cases slot with
  | none => rfl
  | some frame =>
    by_cases same : frame = id
    · simp [same]
    · simp [hold, same, Ne.symm same]

/-- A slot lets go of its image when it takes another. -/
theorem slots_update (cache : Nat → Option Nat) {slot : Nat} (inside : slot < cacheCount) (entry : Option Nat) (id : Nat) :
    slots cacheCount (Function.update cache slot entry) id +
        (cache slot).elim 0 (fun frame => hold frame id) =
      slots cacheCount cache id + entry.elim 0 fun frame => hold frame id := by
  rw [← slot_toNat, ← slot_toNat]
  exact Census.count_update _ cache inside entry

theorem slots_held {slot frame : Nat} (inside : slot < cacheCount) (stored : cache slot = some frame) :
    0 < slots cacheCount cache frame := by
  rw [Nat.pos_iff_ne_zero]
  intro none
  have empty := Census.count_eq_zero.mp none slot inside
  rw [stored, beq_self_eq_true] at empty
  cases empty

theorem count_cons (messages : List Nat) (frame id : Nat) :
    (frame :: messages).count id = messages.count id + hold frame id := by
  by_cases same : id = frame
  · rw [same, List.count_cons_self, hold_self]
  · rw [List.count_cons_of_ne (Ne.symm same), hold_other same, Nat.add_zero]

theorem count_erase {messages : List Nat} {frame : Nat} (inFlight : frame ∈ messages) (id : Nat) :
    messages.count id = (messages.erase frame).count id + hold frame id := by
  rw [← count_cons]
  exact (List.perm_cons_erase inFlight).count_eq id

end Counting

section
variable {cacheCount : Nat} {convert : Conversion Picture} {s : State Picture}

/-- ZeroMQ lets go of an image, whatever the thread does. -/
theorem freeBgrFrameMsg_kept (kept : Kept cacheCount s) (frame : Nat) :
    Kept cacheCount (freeBgrFrameMsg s frame) := by
  unfold freeBgrFrameMsg
  split
  · next inFlight =>
    refine ⟨kept.owned.release fun id => ?_, kept.cleared⟩
    have counted := count_erase (List.contains_iff_mem.mp inFlight) id
    simp only [State.holders]
    omega
  · exact kept

/-- The thread moves on without a change to what is held. -/
theorem Kept.move (kept : Kept cacheCount s) {stage : Stage}
    (same : ∀ id, stage.holders id = s.stage.holders id) (cleared : Cleared cacheCount s.cache stage) :
    Kept cacheCount {s with stage := stage} := by
  refine ⟨kept.owned.congr fun id => ?_, cleared⟩
  simp only [State.holders, same]

theorem cacheHit_stored {streamId : Nat} {snapshot : DecodedFrame Picture} {info : StreamInfo}
    {cached : Nat} (hit : cacheHit cacheCount s streamId snapshot info = some cached) :
    streamId < cacheCount ∧ s.cache streamId = some cached := by
  unfold cacheHit at hit
  split at hit
  · next inside => exact ⟨inside, (Option.filter_eq_some_iff.mp hit).1⟩
  · cases hit

/-- An attempt fails, finds an image in the cache or makes one. -/
theorem convertLastFrameToBgr_kept (kept : Kept cacheCount s) {streamId : Nat} {roi : RoiRequest}
    (converting : s.stage = .converting streamId roi) (attempt : Attempt Picture) (last : Bool) :
    Kept cacheCount (step cacheCount convert s (.attempt attempt last)) := by
  have fails (heap : Heap (BgrFrame Picture)) (owned : Owned heap (s.holders cacheCount)) :
      Kept cacheCount {s with
        heap := heap, stage := if last then .receiving else .converting streamId roi} := by
    refine ⟨owned.congr fun id => ?_, ?_⟩
    · cases last <;> simp [State.holders, converting, Stage.holders]
    · cases last <;> exact trivial
  simp only [step, converting, convertLastFrameToBgr]
  cases attempt.snapshot with
  | none => exact fails _ kept.owned
  | some snapshot =>
    dsimp only
    cases hit : cacheHit cacheCount s streamId snapshot attempt.info with
    | some cached =>
      obtain ⟨inside, stored⟩ := cacheHit_stored hit
      have held : 0 < s.holders cacheCount cached := by
        have slot := slots_held inside stored
        unfold State.holders
        omega
      refine ⟨kept.owned.retain held fun id => ?_, trivial⟩
      simp only [State.holders, converting, Stage.holders, Option.getD_some]
      omega
    | none =>
      dsimp only
      split
      · exact fails _ kept.owned
      · split
        · refine ⟨kept.owned.create _ fun id => ?_, trivial⟩
          simp only [State.holders, converting, Stage.holders, Option.getD_some]
          omega
        · exact fails _ (kept.owned.discard _)

theorem proceed_kept (kept : Kept cacheCount s) (granted : Bool) :
    Kept cacheCount (proceed cacheCount s granted) := by
  have local_holder {stage : Stage} (same : s.stage = stage) {frame : Nat}
      (holds : 0 < stage.holders frame) : 0 < s.holders cacheCount frame := by
    rw [State.holders, same]
    omega
  unfold proceed
  split
  case h_1 streamId roi frame stage =>
    split
    · next inside =>
      refine ⟨kept.owned.retain (local_holder stage (by simp [Stage.holders])) fun id => ?_, ?_⟩
      · have stored := slots_update s.cache inside (some frame) id
        cases old : s.cache streamId <;>
          simp only [State.holders, stage, Stage.holders, old, Option.elim] at stored ⊢ <;> omega
      · cases s.cache streamId <;> exact trivial
    · exact kept.move (fun id => by simp [stage, Stage.holders]) trivial
  case h_2 roi frame old stage =>
    refine ⟨kept.owned.release fun id => ?_, trivial⟩
    simp only [State.holders, stage, Stage.holders]
    omega
  case h_3 roi frame stage =>
    split
    · exact kept
    · split
      · exact kept.move (fun id => by simp [stage, Stage.holders]) trivial
      · split
        · split
          · exact kept.move (fun id => by simp [stage, Stage.holders]) trivial
          · refine ⟨kept.owned.create _ fun id => ?_, trivial⟩
            simp only [State.holders, stage, Stage.holders]
            omega
        · exact kept.move (fun id => by simp [stage, Stage.holders]) trivial
  case h_4 frame replyFrame stage =>
    refine ⟨kept.owned.release fun id => ?_, trivial⟩
    simp only [State.holders, stage, Stage.holders]
    omega
  case h_5 replyFrame stage =>
    split
    · refine ⟨kept.owned.congr fun id => ?_, trivial⟩
      simp only [State.holders, stage, Stage.holders, count_cons]
      omega
    · exact kept.move (fun id => by simp [stage, Stage.holders]) trivial
  case h_6 frame stage =>
    refine ⟨kept.owned.release fun id => ?_, trivial⟩
    simp only [State.holders, stage, Stage.holders]
    omega
  case h_7 frame stage =>
    have received : Kept cacheCount {s with stage := .receiving} :=
      kept.move (fun id => by simp [stage, Stage.holders]) trivial
    split
    · exact received
    · exact freeBgrFrameMsg_kept received frame
  case h_8 next stage =>
    have cleared := kept.cleared
    rw [stage] at cleared
    split
    · next inside =>
      refine ⟨?_, fun slot before => ?_⟩
      · have emptied (id : Nat) := slots_update s.cache inside none id
        cases old : s.cache next with
        | none =>
          refine kept.owned.congr fun id => ?_
          have emptied := emptied id
          simp only [State.holders, stage, Stage.holders, old, Option.elim] at emptied ⊢
          omega
        | some frame =>
          refine kept.owned.release fun id => ?_
          have emptied := emptied id
          simp only [State.holders, stage, Stage.holders, old, Option.elim] at emptied ⊢
          omega
      · by_cases same : slot = next
        · rw [same]
          exact Function.update_self ..
        · exact (Function.update_of_ne same ..).trans (cleared slot (by omega))
    · next outside =>
      exact kept.move (fun id => by simp [stage, Stage.holders])
        fun slot inside => cleared slot (by omega)
  all_goals exact kept

theorem step_kept (kept : Kept cacheCount s) (event : Event Picture) :
    Kept cacheCount (step cacheCount convert s event) := by
  cases event with
  | request streamId roi =>
    cases stage : s.stage
    case receiving =>
      simp only [step, stage]
      exact kept.move (fun id => by simp [stage, Stage.holders]) trivial
    all_goals simpa only [step, stage] using kept
  | attempt attempt last =>
    cases stage : s.stage
    case converting streamId roi => exact convertLastFrameToBgr_kept kept stage attempt last
    all_goals simpa only [step, stage] using kept
  | proceed granted => exact proceed_kept kept granted
  | callback frame => exact freeBgrFrameMsg_kept kept frame
  | stop =>
    cases stage : s.stage
    case receiving =>
      simp only [step, stage]
      exact kept.move (fun id => by simp [stage, Stage.holders])
        fun slot before => absurd before (Nat.not_lt_zero slot)
    all_goals simpa only [step, stage] using kept

theorem Kept.released (kept : Kept cacheCount s) : Released s := by
  intro finished none id cell found
  refine kept.owned.freed (fun id => ?_) id found
  have cleared := kept.cleared
  rw [finished] at cleared
  have empty : slots cacheCount s.cache id = 0 :=
    Census.count_eq_zero.mpr fun slot inside => by
      rw [cleared slot inside]
      rfl
  rw [State.holders, empty, finished, none]
  rfl

end

end StreamRelay.Server.BgrFrames
