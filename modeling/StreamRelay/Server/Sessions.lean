import StreamRelay.Server.Packet

/-! What a stream's decoder was made for, against what its sender announced last.
Of all that a packet changes, only a few things matter here: they are a stream's
session. -/
namespace StreamRelay.Server

def DecoderConfig.Fits (config : DecoderConfig) (info : StreamInfo) : Prop :=
  config.codecId = codecIdFromStreamInfo info ∧ config.width = info.width ∧
    config.height = info.height

structure Session where
  info : StreamInfo
  received : Bool
  initialized : Bool
  decoder : Option DecoderConfig

/-- The decoder, when there is one, was made for such a stream. -/
def Session.Keeps (session : Session) (info : StreamInfo) : Prop :=
  session.initialized = true → ∃ config, session.decoder = some config ∧ config.Fits info

def Session.Coherent (session : Session) : Prop := session.Keeps session.info

section Decoder

theorem decoderInit_config {answers : AttemptAnswers} {ctx made : DecoderCtx}
    (done : decoderInit answers ctx = some made) :
    made.config.codecId = ctx.config.codecId ∧ made.config.width = ctx.config.width ∧
      made.config.height = ctx.config.height := by
  unfold decoderInit at done
  split at done
  · cases done
  · dsimp only at done
    split at done
    · obtain rfl := Option.some.inj done
      exact ⟨rfl, rfl, rfl⟩
    · cases done

theorem decoderCreate_config {id : Nat} {answers : AttemptAnswers} {config : DecoderConfig}
    {made : DecoderCtx} (done : decoderCreate id answers config = some made) :
    made.config.codecId = config.codecId ∧ made.config.width = config.width ∧
      made.config.height = config.height ∧ made.id = id := by
  unfold decoderCreate at done
  dsimp only at done
  split at done
  · obtain rfl := Option.some.inj done
    exact ⟨rfl, rfl, rfl, rfl⟩
  · cases done

/-- Whichever backend comes up, the decoder is for the stream that was asked for. -/
theorem tryBackends_config {id : Nat} {config : DecoderConfig} {answers : Nat → AttemptAnswers}
    {made : DecoderCtx} {i : Nat} {backends : List DecodeBackend}
    (done : tryBackends id config answers i backends = some made) :
    made.config.codecId = config.codecId ∧ made.config.width = config.width ∧
      made.config.height = config.height := by
  induction backends generalizing i with
  | nil => cases done
  | cons backend rest ih =>
    rw [tryBackends] at done
    split at done
    case h_1 ctx first =>
      obtain rfl := Option.some.inj done
      obtain ⟨created, create, init⟩ := Option.bind_eq_some_iff.mp first
      have made := decoderCreate_config create
      have kept := decoderInit_config init
      exact ⟨kept.1.trans made.1, kept.2.1.trans made.2.1, kept.2.2.trans made.2.2.1⟩
    case h_2 => exact ih done

variable {Picture : Type*} (codec : Codec Picture)

theorem decodeRounds_config (rounds : List ParseAnswer) (ctx : DecoderCtx)
    (decoding : Decoding Picture) : (decodeRounds codec rounds ctx decoding).1.config = ctx.config := by
  induction rounds generalizing ctx decoding with
  | nil => rfl
  | cons round rest ih =>
    cases round with
    | failed => rfl
    | consumed => exact ih ctx decoding
    | packet sent received => exact ih _ _

theorem decoderDecode_config (rounds : List ParseAnswer) (ctx : DecoderCtx) :
    (decoderDecode codec rounds ctx).1.config = ctx.config := by
  unfold decoderDecode
  split
  · rfl
  · exact decodeRounds_config codec rounds ctx _

end Decoder

namespace StreamContext

variable {Picture : Type*}

def session (stream : StreamContext Picture) : Session :=
  ⟨stream.info, stream.infoReceived, stream.decoderInitialized,
    stream.decoderCtx.map DecoderCtx.config⟩

theorem session_setState (state : StreamState) (stream : StreamContext Picture) :
    (stream.setState state).session = stream.session := rfl

theorem session_requestIdr (nowNs : UInt64) (stream : StreamContext Picture) :
    (stream.requestIdr nowNs).1.session = stream.session := by
  unfold requestIdr
  split <;> rfl

theorem session_decodeStall (nowNs : UInt64) (stream : StreamContext Picture) :
    (stream.decodeStall nowNs).1.session = stream.session := by
  unfold decodeStall
  split
  · rfl
  · split
    · rfl
    · split
      · rfl
      · dsimp only
        split <;> rfl

theorem session_decodeVideo (codec : Codec Picture) (rounds : List ParseAnswer)
    (stream : StreamContext Picture) : (stream.decodeVideo codec rounds).session = stream.session := by
  unfold decodeVideo
  split
  case h_2 => rfl
  case h_1 ctx _ held =>
    have config := decoderDecode_config codec rounds ctx
    dsimp only
    split <;> simp [session, held, config]

theorem session_closeDecoder (stream : StreamContext Picture) :
    stream.closeDecoder.session.Coherent := nofun

/-- A stream gets the decoder it asks for, or keeps the one it has. -/
theorem initDecoder_coherent (id : Nat) (backend : DecodeBackend) (answers : Nat → AttemptAnswers)
    (stream : StreamContext Picture) :
    (stream.initDecoder id backend answers).1.session.info = stream.info ∧
      (stream.initDecoder id backend answers).1.session.received = stream.infoReceived ∧
      ((stream.initDecoder id backend answers).1.session.Coherent ↔ stream.session.Coherent) := by
  unfold initDecoder
  cases had : stream.decoderInitialized with
  | true =>
    rw [if_pos rfl]
    exact ⟨rfl, rfl, Iff.rfl⟩
  | false =>
    rw [if_neg Bool.false_ne_true]
    have none : stream.session.Coherent := by
      intro initialized
      rw [session, had] at initialized
      cases initialized
    dsimp only
    split
    case h_1 => exact ⟨rfl, rfl, Iff.rfl⟩
    case h_2 ctx made =>
      exact ⟨rfl, rfl, iff_of_true (fun _ => ⟨ctx.config, rfl, tryBackends_config made⟩) none⟩

end StreamContext

end StreamRelay.Server
