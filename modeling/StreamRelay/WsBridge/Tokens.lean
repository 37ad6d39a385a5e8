import Mathlib.Data.Nat.Basic
import Mathlib.Logic.Function.Basic

/-! The settings of ws_ctrl_bridge, the tokens it gives out for an address, and the ban of an
address that tries wrong ones. Times are readings of Date.now(). -/
namespace StreamRelay.WsBridge

abbrev Text := List Char

structure Config where
  tokenRequired : Bool
  tokenIssueOnWsConnect : Bool
  tokenSingleUse : Bool
  singleSession : Bool
  ondemandEnable : Bool
  ondemandContainers : List Text
  tokenWebhookUrl : Text
  tokenIssueSecret : Text
  adminSecret : Text
  tokenTtlSec : Int
  tokenPerIpWindowSec : Int
  tokenWebhookRetryMinSec : Int
  badTokenWindowSec : Int
  badTokenMax : Int
  banSec : Int

namespace Config

def effectiveTokenRequired (cfg : Config) : Bool :=
  cfg.tokenRequired || cfg.tokenIssueOnWsConnect || cfg.ondemandEnable

def ttlMs (cfg : Config) : Nat := (max 10 cfg.tokenTtlSec).toNat * 1000

/-- The winMs of issueTokenForIp. -/
def issueWinMs (cfg : Config) : Nat := (max 1 cfg.tokenPerIpWindowSec).toNat * 1000

def retryMinMs (cfg : Config) : Nat := (max 1 cfg.tokenWebhookRetryMinSec).toNat * 1000

/-- The winMs of noteBadToken. -/
def badWinMs (cfg : Config) : Nat := (max 1 cfg.badTokenWindowSec).toNat * 1000

def maxBad (cfg : Config) : Nat := (max 1 cfg.badTokenMax).toNat

def banMs (cfg : Config) : Nat := (max 1 cfg.banSec).toNat * 1000

end Config

structure TokenRec where
  token : Text
  expMs : Nat
  issuedMs : Nat
  deriving DecidableEq, Repr

structure Tokens where
  tokenByIp : Text → Option TokenRec
  lastTokenIssueAttemptMsByIp : Text → Option Nat

/-- Four digits of a number below 10000. -/
def genToken (n : Nat) : Text :=
  let digits := Nat.toDigits 10 n
  List.replicate (4 - digits.length) '0' ++ digits

/-- What issueTokenForIp answers. -/
inductive Issued where
  | webhookNotConfigured
  | alreadyIssued (token : Text) (expMs : Nat)
  | retryLater (retryAfterMs : Nat)
  | webhookFailed
  | sent (token : Text) (expMs : Nat)
  deriving DecidableEq, Repr

def Issued.ok : Issued → Bool
  | .alreadyIssued _ _ | .sent _ _ => true
  | _ => false

/-- A call that waits for the webhook, with its own variables. -/
structure Push where
  ip : Text
  token : Text
  now : Nat
  expMs : Nat
  deriving DecidableEq, Repr

inductive Issuing where
  | done (issued : Issued)
  | pushing (push : Push)
  deriving DecidableEq, Repr

namespace Tokens

def empty : Tokens := ⟨fun _ => none, fun _ => none⟩

def delete (ip : Text) (tokens : Tokens) : Tokens :=
  {tokens with tokenByIp := Function.update tokens.tokenByIp ip none}

/-- The reading counts only when there is a record that can expire. -/
def tokenRec (nowMs : Nat) (ip : Text) (tokens : Tokens) : Option TokenRec × Tokens :=
  if ip = [] then (none, tokens)
  else
    match tokens.tokenByIp ip with
    | none => (none, tokens)
    | some record =>
      if record.expMs > 0 ∧ nowMs > record.expMs then (none, tokens.delete ip)
      else (some record, tokens)

def isTokenValid (cfg : Config) (nowMs : Nat) (tok ip : Text) (tokens : Tokens) : Bool × Tokens :=
  if !cfg.effectiveTokenRequired then (true, tokens)
  else if tok = [] then (false, tokens)
  else if ip = [] then (false, tokens)
  else
    let found := tokens.tokenRec nowMs ip
    match found.1 with
    | none => (false, found.2)
    | some record => (tok = record.token, found.2)

/-- issueTokenForIp up to the webhook: the first reading of the clock, and the one of tokenRec. -/
def issueTokenForIp (cfg : Config) (now nowMs drawn : Nat) (ip : Text) (tokens : Tokens) :
    Issuing × Tokens :=
  if cfg.tokenWebhookUrl = [] then (.done .webhookNotConfigured, tokens)
  else
    let existing := tokens.tokenRec nowMs ip
    match existing.1.filter fun record => now - record.issuedMs < cfg.issueWinMs with
    | some record => (.done (.alreadyIssued record.token record.expMs), existing.2)
    | none =>
      let tokens := existing.2
      let lastAttempt := (tokens.lastTokenIssueAttemptMsByIp ip).getD 0
      if lastAttempt ≠ 0 ∧ now - lastAttempt < cfg.retryMinMs then
        (.done (.retryLater (cfg.retryMinMs - (now - lastAttempt))), tokens)
      else
        (.pushing ⟨ip, genToken drawn, now, now + cfg.ttlMs⟩,
          { tokens with
            lastTokenIssueAttemptMsByIp :=
              Function.update tokens.lastTokenIssueAttemptMsByIp ip (some now) })

/-- The rest of it, when the webhook has answered. -/
def pushed (push : Push) (ok : Bool) (tokens : Tokens) : Issued × Tokens :=
  if ok then
    (.sent push.token push.expMs,
      { tokens with
        tokenByIp :=
          Function.update tokens.tokenByIp push.ip (some ⟨push.token, push.expMs, push.now⟩) })
  else (.webhookFailed, tokens)

end Tokens

structure Bans where
  badTokenTimesByIp : Text → Option (List Nat)
  bannedUntilMsByIp : Text → Option Nat

namespace Bans

def empty : Bans := ⟨fun _ => none, fun _ => none⟩

def isBanned (nowMs : Nat) (ip : Text) (bans : Bans) : Bool × Bans :=
  let till := (bans.bannedUntilMsByIp ip).getD 0
  if till = 0 then (false, bans)
  else if nowMs ≥ till then
    (false, {bans with bannedUntilMsByIp := Function.update bans.bannedUntilMsByIp ip none})
  else (true, bans)

/-- The times that are kept, the one of now among them. -/
def kept (cfg : Config) (now : Nat) (ip : Text) (bans : Bans) : List Nat :=
  ((bans.badTokenTimesByIp ip).getD []).filter (fun t => t ≥ now - cfg.badWinMs) ++ [now]

/-- True when the address is banned now. -/
def noteBadToken (cfg : Config) (now : Nat) (ip : Text) (bans : Bans) : Bool × Bans :=
  let kept := bans.kept cfg now ip
  if kept.length ≥ cfg.maxBad then
    (true,
      { badTokenTimesByIp := Function.update bans.badTokenTimesByIp ip none
        bannedUntilMsByIp := Function.update bans.bannedUntilMsByIp ip (some (now + cfg.banMs)) })
  else (false, {bans with badTokenTimesByIp := Function.update bans.badTokenTimesByIp ip (some kept)})

/-- POST /admin/unban, for one address and for all. -/
def unban (ip : Text) (bans : Bans) : Bans where
  badTokenTimesByIp := Function.update bans.badTokenTimesByIp ip none
  bannedUntilMsByIp := Function.update bans.bannedUntilMsByIp ip none

end Bans

end StreamRelay.WsBridge
