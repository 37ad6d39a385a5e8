import StreamRelay.Server.Bridge
import StreamRelay.Server.Coherence
import StreamRelay.Server.Streams

/-! When a served image is that of the last frame. The cache compares metadata, and
these tell apart the frames of one decoder only: the pts of the next decoder start
again from zero. -/
namespace StreamRelay.Server

variable {Picture : Type*}

section Frames

variable (codec : Codec Picture)

def DecodedFrame.FromCodec (frame : DecodedFrame Picture) : Prop :=
  frame = frameOf codec frame.decoder frame.pts

/-- The frame a stream shows is one the codec made. -/
def StreamContext.FromCodec (stream : StreamContext Picture) : Prop :=
  ∀ frame, stream.lastFrame = some frame → frame.FromCodec codec

theorem receiveFrames_fromCodec (ctx : DecoderCtx) (received : List ReceiveAnswer)
    (decoding : Decoding Picture)
    (before : ∀ frame, decoding.lastFrame = some frame → frame.FromCodec codec) :
    ∀ frame, (receiveFrames codec ctx received decoding).lastFrame = some frame →
      frame.FromCodec codec := by
  unfold receiveFrames
  induction received generalizing decoding with
  | nil => exact before
  | cons answer received ih =>
    rw [List.foldl_cons]
    refine ih _ ?_
    split
    · intro frame shown
      dsimp only at shown
      split at shown
      · obtain rfl := Option.some.inj shown
        rfl
      · cases shown
    · exact before

theorem decodeRounds_fromCodec (rounds : List ParseAnswer) (ctx : DecoderCtx)
    (decoding : Decoding Picture)
    (before : ∀ frame, decoding.lastFrame = some frame → frame.FromCodec codec) :
    ∀ frame, (decodeRounds codec rounds ctx decoding).2.lastFrame = some frame →
      frame.FromCodec codec := by
  induction rounds generalizing ctx decoding with
  | nil => exact before
  | cons round rest ih =>
    cases round with
    | failed => exact before
    | consumed => exact ih ctx decoding before
    | packet sent received =>
      rw [decodeRounds]
      refine ih _ _ ?_
      split
      · exact receiveFrames_fromCodec codec _ received decoding before
      · exact before

theorem decoderDecode_fromCodec (rounds : List ParseAnswer) (ctx : DecoderCtx)
    (frame : DecodedFrame Picture) (decoded : (decoderDecode codec rounds ctx).2 = .frame frame) :
    frame.FromCodec codec := by
  unfold decoderDecode at decoded
  split at decoded
  · cases decoded
  · dsimp only at decoded
    split at decoded
    case h_1 last same =>
      cases decoded
      exact decodeRounds_fromCodec codec rounds ctx ⟨none, 0⟩ nofun frame same
    case h_2 => split at decoded <;> cases decoded

theorem decodeVideo_fromCodec (rounds : List ParseAnswer) (stream : StreamContext Picture)
    (before : stream.FromCodec codec) : (stream.decodeVideo codec rounds).FromCodec codec := by
  unfold StreamContext.decodeVideo
  split
  case h_2 => exact before
  case h_1 ctx _ _ =>
    dsimp only
    split
    case h_1 frame decoded =>
      intro last same
      obtain rfl := Option.some.inj same
      exact decoderDecode_fromCodec codec rounds ctx _ decoded
    case h_2 => exact before
    case h_3 => exact before

theorem stable_fromCodec : Stable codec (StreamContext.FromCodec codec) where
  announce _ _ _ before := before
  copy _ _ before := before
  init id backend answers stream before := by
    unfold StreamContext.initDecoder
    split
    · exact before
    · dsimp only
      split <;> exact before
  close _ _ := nofun
  count _ _ _ before := before
  decode := decodeVideo_fromCodec codec
  request nowNs stream before := by
    unfold StreamContext.requestIdr
    split <;> exact before
  stall nowNs stream before := by
    unfold StreamContext.decodeStall
    split
    · exact before
    · split
      · exact before
      · split
        · exact before
        · dsimp only
          split <;> exact before

end Frames

namespace Bridge

variable (cfg : ServerConfig) (codec : Codec Picture) (convert : Conversion Picture)

/-- An image in the cache is the conversion of a frame of some decoder, with its pts. -/
def Faithful (cached : BgrFrame Picture) : Prop :=
  cached.source.FromCodec codec ∧ cached.pts = cached.source.pts ∧
    cached.image = convert cached.source.av cached.colorSpace cached.colorRange

structure Kept (b : Bridge Picture) : Prop where
  frames : b.server.All (StreamContext.FromCodec codec)
  cached : ∀ streamId cached, b.cache streamId = some cached → Faithful codec convert cached

theorem bgrFrame_faithful (streamId : Nat) (frame : DecodedFrame Picture) (info : StreamInfo)
    (monoNs : UInt64) (made : frame.FromCodec codec) :
    Faithful codec convert (bgrFrame convert streamId frame info monoNs) := ⟨made, rfl, rfl⟩

variable {cfg codec convert} {b : Bridge Picture}

theorem Kept.step (kept : Kept codec convert b) (input : Input) :
    Kept codec convert (step cfg codec convert b input) := by
  cases input with
  | server input => exact ⟨stable_fromCodec codec |>.step kept.frames input, kept.cached⟩
  | convert streamId answers =>
    dsimp only [Bridge.step]
    split
    case isFalse => exact kept
    case isTrue =>
      unfold convertLastFrameToBgr
      cases found : b.snapshot streamId answers with
      | none => exact kept
      | some frame =>
        have made : frame.FromCodec codec :=
          kept.frames streamId frame (Option.filter_eq_some_iff.mp found).1
        dsimp only
        split
        · exact kept
        · split
          · exact kept
          · dsimp only
            split
            · refine ⟨kept.frames, fun other cached stored => ?_⟩
              dsimp only at stored
              by_cases same : other = streamId
              · subst same
                rw [Function.update_self] at stored
                obtain rfl := Option.some.inj stored
                exact bgrFrame_faithful codec convert other frame _ _ made
              · rw [Function.update_of_ne same] at stored
                exact kept.cached other cached stored
            · exact kept

theorem kept_run (inputs : List Input) : Kept codec convert (run cfg codec convert inputs) :=
  Run.invariant (Bridge.step cfg codec convert) start (Kept codec convert)
    ⟨fun _ _ none => (nomatch none), fun _ _ none => (nomatch none)⟩
    (fun _ input kept => kept.step input) inputs

/-- What a request gives out is the conversion of the stream's last frame, under the
colours of its metadata. -/
def Fresh (cfg : ServerConfig) (convert : Conversion Picture) (b : Bridge Picture) : Input → Prop
  | .server _ => True
  | .convert streamId answers =>
    State.hasStream cfg streamId = true →
      ∀ frame, (b.convertLastFrameToBgr cfg convert streamId answers).2 = some frame →
        (b.server.streams streamId).lastFrame = some frame.source ∧
          frame.image = convert frame.source.av (b.server.streams streamId).info.colorSpace
            (b.server.streams streamId).info.colorRange

/-- A request finds a matching image in the cache, of a frame of another decoder. -/
def HitsOtherDecoder (cfg : ServerConfig) (b : Bridge Picture) : Input → Prop
  | .server _ => False
  | .convert streamId answers =>
    State.hasStream cfg streamId = true ∧
      ∃ frame cached, b.snapshot streamId answers = some frame ∧
        b.cacheHit cfg streamId frame = some cached ∧ cached.source.decoder ≠ frame.decoder

theorem cacheHit_matches {streamId : Nat} {frame : DecodedFrame Picture} {cached : BgrFrame Picture}
    (hit : b.cacheHit cfg streamId frame = some cached) :
    b.cache streamId = some cached ∧ cached.pts = frame.pts ∧
      cached.colorSpace = (b.server.streams streamId).info.colorSpace ∧
      cached.colorRange = (b.server.streams streamId).info.colorRange := by
  unfold cacheHit at hit
  split at hit
  · obtain ⟨stored, same⟩ := Option.filter_eq_some_iff.mp hit
    simp only [cachedBgrFrameMatches, Bool.and_eq_true, decide_eq_true_eq] at same
    exact ⟨stored, same.1.1.1.1.2, same.1.1.2, same.1.2⟩
  · cases hit

theorem Kept.allows_iff (kept : Kept codec convert b) (input : Input) :
    Fresh cfg convert b input ↔ ¬ HitsOtherDecoder cfg b input := by
  cases input with
  | server input => exact iff_of_true trivial id
  | convert streamId answers =>
    constructor
    · rintro fresh ⟨known, frame, cached, found, hit, other⟩
      have given : (b.convertLastFrameToBgr cfg convert streamId answers).2 = some cached := by
        rw [convertLastFrameToBgr, found]
        dsimp only
        rw [hit]
      have shown := (fresh known cached given).1
      have last := (Option.filter_eq_some_iff.mp found).1
      rw [shown] at last
      obtain rfl := Option.some.inj last
      exact other rfl
    · intro none known frame given
      unfold convertLastFrameToBgr at given
      cases found : b.snapshot streamId answers with
      | none =>
        rw [found] at given
        cases given
      | some snapshot =>
        have last := (Option.filter_eq_some_iff.mp found).1
        rw [found] at given
        dsimp only at given
        cases hit : b.cacheHit cfg streamId snapshot with
        | some cached =>
          rw [hit] at given
          obtain rfl := Option.some.inj given
          obtain ⟨stored, pts, space, range⟩ := cacheHit_matches hit
          obtain ⟨made, ownPts, image⟩ := kept.cached streamId cached stored
          have decoder : cached.source.decoder = snapshot.decoder := by
            by_contra other
            exact none ⟨known, snapshot, cached, found, hit, other⟩
          have source : cached.source = snapshot := by
            rw [made, kept.frames streamId snapshot last, decoder, ← ownPts, pts]
          exact ⟨by rw [last, source], by rw [image, space, range]⟩
        | none =>
          rw [hit] at given
          dsimp only at given
          split at given
          · cases given
          · obtain rfl := Option.some.inj given
            exact ⟨last, rfl⟩

/-- All that a run's requests give out is fresh exactly when none of them finds a
matching image of another decoder's frame. -/
theorem fresh_iff (inputs : List Input) :
    Run.Always (step cfg codec convert) start (Fresh cfg convert) inputs ↔
      Run.Always (step cfg codec convert) start (fun b input => ¬ HitsOtherDecoder cfg b input)
        inputs := by
  have each (past : List Input) (input : Input) :
      Fresh cfg convert (run cfg codec convert past) input ↔
        ¬ HitsOtherDecoder cfg (run cfg codec convert past) input :=
    (kept_run past).allows_iff input
  constructor
  · exact fun fresh past input rest split => (each past input).mp (fresh past input rest split)
  · exact fun none past input rest split => (each past input).mpr (none past input rest split)

section Samples

def goodConvert : ConvertAnswers := ⟨true, true, true, 1⟩

/-- A picture is the number of its decoder, and its image one byte with that. -/
def sampleCodec : Codec Nat := fun decoder _ => ⟨1280, 720, .nv12, true, decoder⟩

def sampleConvert : Conversion Nat := fun av _ _ => ⟨1280, [UInt8.ofNat av.picture]⟩

/-- A stream is stopped and started again, and its first picture asked for each time. -/
def restartingInputs : List Input :=
  [.server (.packet ⟨.streamStart, 1, announce 0⟩ (goodPacket 0)),
    .server (.packet ⟨.videoData, 1, [0, 0, 1, 0x65]⟩ (goodPacket 0)),
    .convert 1 goodConvert,
    .server (.packet ⟨.streamStop, 1, []⟩ (goodPacket 0)),
    .server (.packet ⟨.streamStart, 1, announce 0⟩ (goodPacket 0)),
    .server (.packet ⟨.videoData, 1, [0, 0, 1, 0x65]⟩ (goodPacket 0))]

theorem not_fresh_restarting :
    let b := run sampleServer sampleCodec sampleConvert restartingInputs
    ((b.convertLastFrameToBgr sampleServer sampleConvert 1 goodConvert).2.map fun frame =>
        frame.image) = some ⟨1280, [0]⟩ ∧
      ((b.server.streams 1).lastFrame.map fun frame => sampleConvert frame.av 0 0) =
        some ⟨1280, [1]⟩ ∧
      ¬ Fresh sampleServer sampleConvert b (.convert 1 goodConvert) := by
  refine ⟨by rfl, by rfl, fun fresh => ?_⟩
  have shown : ((run sampleServer sampleCodec sampleConvert restartingInputs).convertLastFrameToBgr
      sampleServer sampleConvert 1 goodConvert).2.map (fun frame => frame.source.decoder) = some 0 := by
    rfl
  have last : ((run sampleServer sampleCodec sampleConvert restartingInputs).server.streams
      1).lastFrame.map (fun frame => frame.decoder) = some 1 := by rfl
  obtain ⟨frame, given, zero⟩ := Option.map_eq_some_iff.mp shown
  have same := (fresh rfl frame given).1
  rw [same, Option.map_some, zero] at last
  cases last

end Samples

end Bridge

end StreamRelay.Server
