import StreamRelay.WsBridge.Server

/-! How far apart the tokens of an address are sent, over all overlapping calls of issueTokenForIp. -/
namespace StreamRelay.WsBridge

/-- TOKEN_PER_IP_WINDOW_SEC as it is set. -/
def Config.windowMs (cfg : Config) : Int := cfg.tokenPerIpWindowSec * 1000

/-- The token and the start of a call for the address that has returned "sent". -/
def Event.sentTo (ip : Text) : Event → Option (Text × Nat)
  | .sent other token started => if other = ip then some (token, started) else none
  | _ => none

def sents (ip : Text) (events : List Event) : List (Text × Nat) :=
  events.filterMap (Event.sentTo ip)

/-- A stored token is the one that was last reported as sent. -/
def StoredIsLast (s : State) : Prop :=
  ∀ ip record, s.tokens.tokenByIp ip = some record →
    (sents ip s.events).getLast? = some (record.token, record.issuedMs)

/-- Two calls were started at least the window apart. -/
def Apart (cfg : Config) (a b : Nat) : Prop := a + cfg.windowMs ≤ b ∨ b + cfg.windowMs ≤ a

/-- A record that a lookup drops as expired is older than the window. -/
def Lasting (cfg : Config) (start lookup : Nat) (ip : Text) (tokens : Tokens) : Prop :=
  ∀ record, tokens.tokenByIp ip = some record → 0 < record.expMs → record.expMs < lookup →
    record.issuedMs + cfg.windowMs ≤ start

/-- Neither a recent record nor a recent attempt stops the call. -/
def Tokens.Starts (cfg : Config) (start lookup : Nat) (ip : Text) (tokens : Tokens) : Prop :=
  (∀ record, tokens.tokenByIp ip = some record → (record.expMs = 0 ∨ lookup ≤ record.expMs) →
      cfg.issueWinMs ≤ start - record.issuedMs) ∧
    ∀ last, tokens.lastTokenIssueAttemptMsByIp ip = some last → last ≠ 0 →
      cfg.retryMinMs ≤ start - last

/-- No other call for the address that began less than a window ago waits for the webhook. -/
def Clear (cfg : Config) (start : Nat) (ip : Text) (stages : Nat → Stage) : Prop :=
  ∀ id caller push, stages id = .pushing caller push → push.ip = ip →
    push.now + cfg.windowMs ≤ start

/-- What a call needs that the code does not see to. -/
def InTurn (cfg : Config) (start lookup : Nat) (ip : Text) (s : State) : Prop :=
  Lasting cfg start lookup ip s.tokens ∧
    (s.tokens.Starts cfg start lookup ip → Clear cfg start ip s.stages)

/-- A record outlasts the window, calls for an address that both wait for the webhook began a window
apart, and none succeeds after one that began later. -/
def Timely (cfg : Config) (s : State) : Input → Prop
  | .connection _ ip tok _ waits => ((s.wait waits.ban).isBanned ip).1 = false →
      let valid := s.now + waits.ban + waits.valid
      if tok = [] then
        cfg.tokenIssueOnWsConnect = true →
          InTurn cfg (valid + waits.start) (valid + waits.start + waits.lookup) ip s
      else cfg.effectiveTokenRequired = true → Lasting cfg valid valid ip s.tokens
  | .token _ secret ip _ waits => (cfg.tokenIssueSecret = [] ∨ secret = cfg.tokenIssueSecret) →
      InTurn cfg (s.now + waits.start) (s.now + waits.start + waits.lookup) ip s
  | .webhook id ok => ok = true → ∀ caller push, s.stages id = .pushing caller push →
      ∀ earlier ∈ sents push.ip s.events, earlier.2 ≤ push.now
  | _ => True

/-- A step that sends no token and starts no call, and may drop records. -/
structure Quiet (s next : State) : Prop where
  now : s.now ≤ next.now
  flights : ∀ id caller push, next.stages id = .pushing caller push →
    s.stages id = .pushing caller push
  sent : ∀ ip, sents ip next.events = sents ip s.events
  records : ∀ ip, next.tokens.tokenByIp ip = s.tokens.tokenByIp ip ∨
    next.tokens.tokenByIp ip = none

/-- What the step drops is older than the window. -/
def Spares (cfg : Config) (ip : Text) (s next : State) : Prop :=
  ∀ record, s.tokens.tokenByIp ip = some record → next.tokens.tokenByIp ip = none →
    record.issuedMs + cfg.windowMs ≤ next.now

/-- All calls for the address: those that have sent a token, and those that wait. -/
structure Spread (cfg : Config) (ip : Text) (s : State) : Prop where
  past : ∀ sent ∈ sents ip s.events, sent.2 ≤ s.now
  spaced : (sents ip s.events).Pairwise fun a b => Apart cfg a.2 b.2
  newest : ∀ last, (sents ip s.events).getLast? = some last →
    ∀ sent ∈ sents ip s.events, sent.2 ≤ last.2
  record : ∀ last, (sents ip s.events).getLast? = some last →
    (∃ record, s.tokens.tokenByIp ip = some record ∧ record.issuedMs = last.2) ∨
      last.2 + cfg.windowMs ≤ s.now
  begun : ∀ id caller push, s.stages id = .pushing caller push → push.ip = ip → push.now ≤ s.now
  flights : ∀ id caller push, s.stages id = .pushing caller push → push.ip = ip →
    ∀ id' caller' push', s.stages id' = .pushing caller' push' → push'.ip = ip → id ≠ id' →
      Apart cfg push.now push'.now
  ahead : ∀ id caller push, s.stages id = .pushing caller push → push.ip = ip →
    ∀ sent ∈ sents ip s.events, sent.2 ≤ push.now → sent.2 + cfg.windowMs ≤ push.now

variable {cfg : Config} {ip : Text} {s next last : State}

theorem windowMs_le (cfg : Config) : cfg.windowMs ≤ cfg.issueWinMs := by
  simp only [Config.windowMs, Config.issueWinMs]
  omega

theorem Quiet.refl (s : State) : Quiet s s :=
  ⟨Nat.le_refl _, fun _ _ _ same => same, fun _ => rfl, fun _ => Or.inl rfl⟩

theorem Quiet.trans (first : Quiet s next) (second : Quiet next last) : Quiet s last := by
  refine ⟨Nat.le_trans first.now second.now,
    fun id caller push waits => first.flights id caller push (second.flights id caller push waits),
    fun ip => (second.sent ip).trans (first.sent ip), fun ip => ?_⟩
  rcases second.records ip with same | none
  · rw [same]
    exact first.records ip
  · exact Or.inr none

/-- Where the tokens stay as they are. -/
theorem Spares.of_eq (same : next.tokens.tokenByIp ip = s.tokens.tokenByIp ip) :
    Spares cfg ip s next := by
  intro record stored none
  rw [same, stored] at none
  cases none

theorem Spares.trans (spares : Spares cfg ip s next) (quiet : Quiet s next)
    (more : Spares cfg ip next last) (later : next.now ≤ last.now) : Spares cfg ip s last := by
  intro record stored none
  rcases quiet.records ip with same | dropped
  · exact more record (same.trans stored) none
  · have early := spares record stored dropped
    omega

theorem StoredIsLast.carry (stored : StoredIsLast s)
    (sent : ∀ ip, sents ip next.events = sents ip s.events)
    (records : ∀ ip, next.tokens.tokenByIp ip = s.tokens.tokenByIp ip ∨
      next.tokens.tokenByIp ip = none) : StoredIsLast next := by
  intro ip record found
  rw [sent ip]
  rcases records ip with same | none
  · exact stored ip record (same.symm.trans found)
  · rw [none] at found
    cases found

theorem Quiet.stored (quiet : Quiet s next) (stored : StoredIsLast s) : StoredIsLast next :=
  stored.carry quiet.sent quiet.records

theorem Spread.record_drop (spread : Spread cfg ip s) (now : s.now ≤ next.now)
    (records : next.tokens.tokenByIp ip = s.tokens.tokenByIp ip ∨ next.tokens.tokenByIp ip = none)
    (spares : Spares cfg ip s next) (last : Text × Nat)
    (newest : (sents ip s.events).getLast? = some last) :
    (∃ record, next.tokens.tokenByIp ip = some record ∧ record.issuedMs = last.2) ∨
      last.2 + cfg.windowMs ≤ next.now := by
  rcases spread.record last newest with ⟨record, stored, issued⟩ | old
  · rcases records with same | none
    · exact Or.inl ⟨record, same.trans stored, issued⟩
    · have dropped := spares record stored none
      rw [issued] at dropped
      exact Or.inr dropped
  · right
    omega

/-- The same calls, or fewer, and the record if it is not too old. -/
theorem Spread.drop (spread : Spread cfg ip s) (now : s.now ≤ next.now)
    (flights : ∀ id caller push, next.stages id = .pushing caller push →
      s.stages id = .pushing caller push)
    (sent : sents ip next.events = sents ip s.events)
    (records : next.tokens.tokenByIp ip = s.tokens.tokenByIp ip ∨ next.tokens.tokenByIp ip = none)
    (spares : Spares cfg ip s next) : Spread cfg ip next := by
  refine ⟨?_, ?_, ?_, ?_, ?_, ?_, ?_⟩
  · intro earlier member
    rw [sent] at member
    exact Nat.le_trans (spread.past earlier member) now
  · rw [sent]
    exact spread.spaced
  · rw [sent]
    exact spread.newest
  · rw [sent]
    exact spread.record_drop now records spares
  · intro id caller push waits here
    exact Nat.le_trans (spread.begun id caller push (flights _ _ _ waits) here) now
  · intro id caller push waits here id' caller' push' waits' here' differ
    exact spread.flights id caller push (flights _ _ _ waits) here id' caller' push'
      (flights _ _ _ waits') here' differ
  · intro id caller push waits here
    rw [sent]
    exact spread.ahead id caller push (flights _ _ _ waits) here

theorem Quiet.spread (quiet : Quiet s next) (spares : Spares cfg ip s next)
    (spread : Spread cfg ip s) : Spread cfg ip next :=
  spread.drop quiet.now quiet.flights (quiet.sent ip) (quiet.records ip) spares

/-- A step that keeps the tokens, and neither sends one nor begins a call. -/
structure Still (s next : State) : Prop where
  now : s.now ≤ next.now
  flights : ∀ id caller push, next.stages id = .pushing caller push →
    s.stages id = .pushing caller push
  sent : ∀ ip, sents ip next.events = sents ip s.events
  tokens : next.tokens = s.tokens

theorem Still.quiet (still : Still s next) : Quiet s next :=
  ⟨still.now, still.flights, still.sent, fun ip => Or.inl (by rw [still.tokens])⟩

theorem Still.spares (still : Still s next) : Spares cfg ip s next :=
  .of_eq (by rw [still.tokens])

theorem Still.refl (s : State) : Still s s :=
  ⟨Nat.le_refl _, fun _ _ _ same => same, fun _ => rfl, rfl⟩

theorem Still.trans (first : Still s next) (second : Still next last) : Still s last :=
  ⟨Nat.le_trans first.now second.now,
    fun id caller push waits => first.flights id caller push (second.flights id caller push waits),
    fun ip => (second.sent ip).trans (first.sent ip), second.tokens.trans first.tokens⟩

theorem Upkeep.still (upkeep : Upkeep s next) : Still s next := by
  obtain ⟨new, events, ofContainers⟩ := upkeep.events
  refine ⟨upkeep.now, upkeep.flights, fun ip => ?_, upkeep.tokens⟩
  have none : new.filterMap (Event.sentTo ip) = [] := by
    apply List.filterMap_eq_nil_iff.mpr
    intro event member
    have which := ofContainers event member
    cases event with
    | checked | banned | opened | sent => cases which
    | stopContainers | startRequest | stopRequest => rfl
  rw [sents, events, List.filterMap_append, none, List.append_nil, sents]

theorem Still.of_eq (now : s.now ≤ next.now) (stages : next.stages = s.stages)
    (events : next.events = s.events) (tokens : next.tokens = s.tokens) : Still s next :=
  ⟨now, fun id caller push waits => by rw [← stages]; exact waits, fun ip => by rw [events], tokens⟩

theorem Still.of_log {event : Event} (now : s.now ≤ next.now) (stages : next.stages = s.stages)
    (events : next.events = s.events ++ [event]) (tokens : next.tokens = s.tokens)
    (unsent : ∀ ip, event.sentTo ip = none) : Still s next := by
  refine ⟨now, fun id caller push waits => by rw [← stages]; exact waits, fun ip => ?_, tokens⟩
  rw [events, sents, List.filterMap_append, List.filterMap_cons, unsent, List.filterMap_nil,
    List.append_nil, sents]

section Handlers

variable (cfg) (s)

theorem still_isBanned (ip : Text) : Still s (s.isBanned ip).2 := by
  rw [State.isBanned]
  split
  · exact .refl s
  · exact .of_eq (Nat.le_refl _) rfl rfl rfl

theorem still_noteBadToken (ip : Text) : Still s (s.noteBadToken cfg ip) := by
  rw [State.noteBadToken]
  dsimp only
  split
  · exact .of_log (Nat.le_refl _) rfl rfl rfl fun _ => rfl
  · exact .of_eq (Nat.le_refl _) rfl rfl rfl

theorem still_unban (secret : Text) (target : Option Text) : Still s (s.unban cfg secret target) := by
  rw [State.unban.eq_def]
  split
  · exact .refl s
  · split
    · exact .of_eq (Nat.le_refl _) rfl rfl rfl
    · split
      · exact .refl s
      · exact .of_eq (Nat.le_refl _) rfl rfl rfl

end Handlers

namespace Tokens

variable {tokens : Tokens} {nowMs : Nat}

/-- A lookup finds the record, or there is none, or it drops it as expired. -/
theorem tokenRec_cases (nowMs : Nat) (ip : Text) (tokens : Tokens) :
    (∃ record, tokens.tokenByIp ip = some record ∧ (record.expMs = 0 ∨ nowMs ≤ record.expMs) ∧
        tokens.tokenRec nowMs ip = (some record, tokens)) ∨
      ((ip = [] ∨ tokens.tokenByIp ip = none) ∧ tokens.tokenRec nowMs ip = (none, tokens)) ∨
      (∃ record, tokens.tokenByIp ip = some record ∧ 0 < record.expMs ∧ record.expMs < nowMs ∧
        tokens.tokenRec nowMs ip = (none, tokens.delete ip)) := by
  rw [tokenRec]
  split
  · rename_i empty
    exact Or.inr (Or.inl ⟨Or.inl empty, rfl⟩)
  · cases stored : tokens.tokenByIp ip with
    | none => exact Or.inr (Or.inl ⟨Or.inr rfl, rfl⟩)
    | some record =>
      dsimp only
      split
      · rename_i expired
        exact Or.inr (Or.inr ⟨record, rfl, expired.1, expired.2, rfl⟩)
      · rename_i fresh
        refine Or.inl ⟨record, rfl, ?_, rfl⟩
        omega

theorem delete_self (ip : Text) (tokens : Tokens) : (tokens.delete ip).tokenByIp ip = none :=
  Function.update_self ..

theorem delete_other {ip other : Text} (apart : other ≠ ip) (tokens : Tokens) :
    (tokens.delete ip).tokenByIp other = tokens.tokenByIp other := Function.update_of_ne apart ..

theorem delete_cases (ip other : Text) (tokens : Tokens) :
    (tokens.delete ip).tokenByIp other = tokens.tokenByIp other ∨
      (tokens.delete ip).tokenByIp other = none := by
  by_cases same : other = ip
  · subst same
    exact Or.inr (delete_self other tokens)
  · exact Or.inl (delete_other same tokens)

/-- What a lookup leaves of the other records, and when it drops its own. -/
theorem tokenRec_records (nowMs : Nat) (ip other : Text) (tokens : Tokens) :
    (tokens.tokenRec nowMs ip).2.tokenByIp other = tokens.tokenByIp other ∨
      (tokens.tokenRec nowMs ip).2.tokenByIp other = none := by
  obtain ⟨record, -, -, after⟩ | ⟨-, after⟩ | ⟨record, -, -, -, after⟩ :=
    tokenRec_cases nowMs ip tokens
  · exact Or.inl (by rw [after])
  · exact Or.inl (by rw [after])
  · rw [after]
    exact delete_cases ip other tokens

theorem tokenRec_drops {other : Text} {record : TokenRec} (stored : tokens.tokenByIp other = some record)
    (dropped : (tokens.tokenRec nowMs ip).2.tokenByIp other = none) :
    other = ip ∧ 0 < record.expMs ∧ record.expMs < nowMs := by
  obtain ⟨found, -, -, after⟩ | ⟨-, after⟩ | ⟨found, here, positive, expired, after⟩ :=
    tokenRec_cases nowMs ip tokens
  · rw [after, stored] at dropped
    cases dropped
  · rw [after, stored] at dropped
    cases dropped
  · rw [after] at dropped
    by_cases same : other = ip
    · subst same
      obtain rfl := Option.some.inj (stored.symm.trans here)
      exact ⟨rfl, positive, expired⟩
    · rw [delete_other same, stored] at dropped
      cases dropped

/-- isTokenValid leaves the tokens alone, or makes one lookup. -/
theorem isTokenValid_tokens (cfg : Config) (nowMs : Nat) (tok ip : Text) (tokens : Tokens) :
    (tokens.isTokenValid cfg nowMs tok ip).2 = tokens ∨
      (cfg.effectiveTokenRequired = true ∧ tok ≠ [] ∧
        (tokens.isTokenValid cfg nowMs tok ip).2 = (tokens.tokenRec nowMs ip).2) := by
  rw [isTokenValid]
  split
  · exact Or.inl rfl
  · rename_i required
    split
    · exact Or.inl rfl
    · rename_i provided
      split
      · exact Or.inl rfl
      · right
        refine ⟨by simpa using required, provided, ?_⟩
        dsimp only
        split <;> rfl

/-- A call of issueTokenForIp answers at once, or gets past its checks and waits for the webhook. -/
theorem issueTokenForIp_cases (cfg : Config) (now nowMs drawn : Nat) (ip : Text) (tokens : Tokens) :
    let issuing := tokens.issueTokenForIp cfg now nowMs drawn ip
    (issuing.2 = tokens ∨ issuing.2.tokenByIp = (tokens.tokenRec nowMs ip).2.tokenByIp) ∧
      ((∃ issued, issuing.1 = .done issued) ∨
        ∃ push, issuing.1 = .pushing push ∧ push.ip = ip ∧ push.now = now ∧
          issuing.2.tokenByIp = (tokens.tokenRec nowMs ip).2.tokenByIp ∧
          (ip = [] ∨ tokens.Starts cfg now nowMs ip)) := by
  intro issuing
  simp only [issuing, issueTokenForIp]
  split
  · exact ⟨Or.inl rfl, Or.inl ⟨_, rfl⟩⟩
  · split
    · exact ⟨Or.inr rfl, Or.inl ⟨_, rfl⟩⟩
    · rename_i fresh
      split
      · exact ⟨Or.inr rfl, Or.inl ⟨_, rfl⟩⟩
      · rename_i recent
        refine ⟨Or.inr rfl, Or.inr ⟨_, rfl, rfl, rfl, rfl, ?_⟩⟩
        by_cases empty : ip = []
        · exact Or.inl empty
        · right
          have attempts : (tokens.tokenRec nowMs ip).2.lastTokenIssueAttemptMsByIp =
              tokens.lastTokenIssueAttemptMsByIp := by
            obtain ⟨_, -, -, after⟩ | ⟨-, after⟩ | ⟨_, -, -, -, after⟩ :=
              tokenRec_cases nowMs ip tokens
            · rw [after]
            · rw [after]
            · rw [after]
              rfl
          rw [attempts] at recent
          refine ⟨fun record stored valid => ?_, fun last attempt positive => ?_⟩
          · obtain ⟨found, here, -, after⟩ | ⟨absent | absent, -⟩ | ⟨found, here, positive, expired, -⟩ :=
              tokenRec_cases nowMs ip tokens
            · obtain rfl := Option.some.inj (stored.symm.trans here)
              rw [after, Option.filter_eq_none_iff] at fresh
              have old := fresh record rfl
              simp only [decide_eq_true_eq] at old
              omega
            · exact absurd absent empty
            · rw [stored] at absent
              cases absent
            · obtain rfl := Option.some.inj (stored.symm.trans here)
              omega
          · rw [attempt, Option.getD_some] at recent
            by_contra soon
            exact recent ⟨positive, by omega⟩

end Tokens

theorem Spread.still (spread : Spread cfg ip s) (still : Still s next) : Spread cfg ip next :=
  still.quiet.spread still.spares spread

theorem Spread.issued (spread : Spread cfg ip s) (stored : StoredIsLast s) {record : TokenRec}
    (found : s.tokens.tokenByIp ip = some record) : record.issuedMs ≤ s.now :=
  spread.past _ (List.mem_of_getLast? (stored ip record found))

/-- The wait for the webhook of a call that is in turn. -/
theorem Spread.begin (spread : Spread cfg ip s) (now : s.now ≤ next.now)
    (sent : sents ip next.events = sents ip s.events)
    (records : next.tokens.tokenByIp ip = s.tokens.tokenByIp ip ∨ next.tokens.tokenByIp ip = none)
    (spares : Spares cfg ip s next) {id : Nat} {caller : Caller} {push : Push}
    (stages : next.stages = Function.update s.stages id (.pushing caller push))
    (starts : push.now = s.now) (clear : push.ip = ip → Clear cfg s.now ip s.stages)
    (old : push.ip = ip → ∀ sent ∈ sents ip s.events, sent.2 + cfg.windowMs ≤ s.now) :
    Spread cfg ip next := by
  have stage : ∀ id' caller' push', next.stages id' = .pushing caller' push' →
      (id' = id ∧ push' = push) ∨ (id' ≠ id ∧ s.stages id' = .pushing caller' push') := by
    intro id' caller' push' waits
    rw [stages] at waits
    by_cases same : id' = id
    · rw [same, Function.update_self] at waits
      exact Or.inl ⟨same, (Stage.pushing.inj waits).2.symm⟩
    · rw [Function.update_of_ne same] at waits
      exact Or.inr ⟨same, waits⟩
  refine ⟨?_, ?_, ?_, ?_, ?_, ?_, ?_⟩
  · intro earlier member
    rw [sent] at member
    exact Nat.le_trans (spread.past earlier member) now
  · rw [sent]
    exact spread.spaced
  · rw [sent]
    exact spread.newest
  · rw [sent]
    exact spread.record_drop now records spares
  · intro id' caller' push' waits here
    rcases stage id' caller' push' waits with ⟨-, rfl⟩ | ⟨-, before⟩
    · omega
    · exact Nat.le_trans (spread.begun id' caller' push' before here) now
  · intro id₁ caller₁ push₁ waits₁ here₁ id₂ caller₂ push₂ waits₂ here₂ differ
    rcases stage id₁ caller₁ push₁ waits₁ with ⟨first, rfl⟩ | ⟨-, before₁⟩
    · rcases stage id₂ caller₂ push₂ waits₂ with ⟨second, -⟩ | ⟨-, before₂⟩
      · exact absurd (first.trans second.symm) differ
      · right
        rw [starts]
        exact clear here₁ id₂ caller₂ push₂ before₂ here₂
    · rcases stage id₂ caller₂ push₂ waits₂ with ⟨-, rfl⟩ | ⟨-, before₂⟩
      · left
        rw [starts]
        exact clear here₂ id₁ caller₁ push₁ before₁ here₁
      · exact spread.flights id₁ caller₁ push₁ before₁ here₁ id₂ caller₂ push₂ before₂ here₂ differ
  · intro id' caller' push' waits here earlier member before
    rw [sent] at member
    rcases stage id' caller' push' waits with ⟨-, rfl⟩ | ⟨-, waited⟩
    · rw [starts]
      exact old here earlier member
    · exact spread.ahead id' caller' push' waited here earlier member before

/-- When a call gets past its checks, all tokens of the address were sent a window before. -/
theorem Spread.old (spread : Spread cfg ip s) {lookup : Nat}
    (lasting : Lasting cfg s.now lookup ip s.tokens)
    (starts : s.tokens.Starts cfg s.now lookup ip) :
    ∀ sent ∈ sents ip s.events, sent.2 + cfg.windowMs ≤ s.now := by
  intro sent member
  obtain ⟨last, newest⟩ := List.getLast?_isSome.mpr (List.ne_nil_of_mem member) |> Option.isSome_iff_exists.mp
  have order := spread.newest last newest sent member
  have window := windowMs_le cfg
  rcases spread.record last newest with ⟨record, stored, issued⟩ | old
  · have past := spread.past last (List.mem_of_getLast? newest)
    by_cases fresh : record.expMs = 0 ∨ lookup ≤ record.expMs
    · have gone := starts.1 record stored fresh
      by_cases positive : 0 < cfg.issueWinMs
      · omega
      · omega
    · have dropped := lasting record stored (by omega) (by omega)
      omega
  · omega

/-- What a call of issueTokenForIp leaves of the records, and when it drops one. -/
theorem issue_records (cfg : Config) (id : Nat) (caller : Caller) (ip : Text) (drawn lookup : Nat)
    (s : State) :
    (s.issue cfg id caller ip drawn lookup).events = s.events ∧
      (∀ other, (s.issue cfg id caller ip drawn lookup).tokens.tokenByIp other =
          s.tokens.tokenByIp other ∨
        (s.issue cfg id caller ip drawn lookup).tokens.tokenByIp other = none) ∧
      ∀ other record, s.tokens.tokenByIp other = some record →
        (s.issue cfg id caller ip drawn lookup).tokens.tokenByIp other = none →
          other = ip ∧ 0 < record.expMs ∧ record.expMs < s.now + lookup := by
  have tokens : (s.issue cfg id caller ip drawn lookup).tokens =
      (s.tokens.issueTokenForIp cfg s.now (s.now + lookup) drawn ip).2 ∧
      (s.issue cfg id caller ip drawn lookup).events = s.events := by
    rw [State.issue]
    split <;> exact ⟨rfl, rfl⟩
  rw [tokens.1, tokens.2]
  obtain ⟨same | looked, -⟩ :=
    s.tokens.issueTokenForIp_cases cfg s.now (s.now + lookup) drawn ip
  · rw [same]
    refine ⟨rfl, fun _ => Or.inl rfl, fun other record stored none => ?_⟩
    rw [stored] at none
    cases none
  · rw [looked]
    exact ⟨rfl, fun other => s.tokens.tokenRec_records (s.now + lookup) ip other,
      fun other record stored none => s.tokens.tokenRec_drops stored none⟩

/-- It answers at once, or gets past its checks and waits for the webhook. -/
theorem issue_stages (cfg : Config) (id : Nat) (caller : Caller) (ip : Text) (drawn lookup : Nat)
    (s : State) :
    let after := s.issue cfg id caller ip drawn lookup
    after.now = s.now + lookup ∧
      ((∃ issued, after.stages = Function.update s.stages id (.answered caller issued)) ∨
        ∃ push, after.stages = Function.update s.stages id (.pushing caller push) ∧ push.ip = ip ∧
          push.now = s.now ∧ (ip = [] ∨ s.tokens.Starts cfg s.now (s.now + lookup) ip)) := by
  intro after
  simp only [after, State.issue]
  obtain ⟨-, ⟨issued, answer⟩ | ⟨push, answer, here, now, -, starts⟩⟩ :=
    s.tokens.issueTokenForIp_cases cfg s.now (s.now + lookup) drawn ip
  · simp only [State.wait, answer]
    exact ⟨rfl, Or.inl ⟨issued, rfl⟩⟩
  · simp only [State.wait, answer]
    exact ⟨rfl, Or.inr ⟨push, rfl, here, now, starts⟩⟩

theorem spread_issue (spread : Spread cfg ip s) (id : Nat) (caller : Caller) (other : Text)
    (known : other ≠ []) (drawn lookup : Nat)
    (inTurn : other = ip → InTurn cfg s.now (s.now + lookup) ip s) :
    Spread cfg ip (s.issue cfg id caller other drawn lookup) := by
  obtain ⟨events, records, drops⟩ := issue_records cfg id caller other drawn lookup s
  obtain ⟨now, stages⟩ := issue_stages cfg id caller other drawn lookup s
  have later : s.now ≤ (s.issue cfg id caller other drawn lookup).now := by omega
  have sent : ∀ ip, sents ip (s.issue cfg id caller other drawn lookup).events = sents ip s.events :=
    fun ip => by rw [events]
  have spares : Spares cfg ip s (s.issue cfg id caller other drawn lookup) := by
    intro record stored none
    obtain ⟨rfl, positive, expired⟩ := drops ip record stored none
    have early := (inTurn rfl).1 record stored positive expired
    omega
  rcases stages with ⟨issued, stages⟩ | ⟨push, stages, here, starts, checks⟩
  · refine Quiet.spread ⟨later, ?_, sent, records⟩ spares spread
    intro other caller' push' waits
    rw [stages] at waits
    by_cases same : other = id
    · rw [same, Function.update_self] at waits
      cases waits
    · rwa [Function.update_of_ne same] at waits
  · refine spread.begin later (sent ip) (records ip) spares stages starts ?_ ?_
    · intro same
      rw [here] at same
      subst same
      exact (inTurn rfl).2 (checks.resolve_left known)
    · intro same
      rw [here] at same
      subst same
      exact spread.old (inTurn rfl).1 (checks.resolve_left known)

theorem sents_snoc_sent (events : List Event) (ip token : Text) (started : Nat) :
    sents ip (events ++ [.sent ip token started]) = sents ip events ++ [(token, started)] := by
  rw [sents, List.filterMap_append, ← sents, List.filterMap_cons]
  simp [Event.sentTo]

theorem sents_snoc_other {ip other : Text} (apart : other ≠ ip) (events : List Event) (token : Text)
    (started : Nat) : sents ip (events ++ [.sent other token started]) = sents ip events := by
  rw [sents, List.filterMap_append, ← sents, List.filterMap_cons]
  simp [Event.sentTo, apart]

/-- The webhook's answer: nothing is sent, or the call's token is stored and reported as sent. -/
theorem webhook_cases (s : State) (id : Nat) (ok : Bool) :
    Still s (s.webhook id ok) ∨
      ∃ caller push, ok = true ∧ s.stages id = .pushing caller push ∧
        (s.webhook id ok).now = s.now ∧
        (s.webhook id ok).tokens.tokenByIp =
          Function.update s.tokens.tokenByIp push.ip (some ⟨push.token, push.expMs, push.now⟩) ∧
        (s.webhook id ok).stages =
          Function.update s.stages id (.answered caller (.sent push.token push.expMs)) ∧
        (s.webhook id ok).events = s.events ++ [.sent push.ip push.token push.now] := by
  rw [State.webhook]
  cases stage : s.stages id with
  | pushing caller push =>
    cases ok with
    | true => exact Or.inr ⟨caller, push, rfl, rfl, rfl, rfl, rfl, rfl⟩
    | false => exact Or.inl (upkeep_setStage s id fun _ _ same => by cases same).still
  | _ => exact Or.inl (.refl s)

theorem stored_webhook (stored : StoredIsLast s) (id : Nat) (ok : Bool) :
    StoredIsLast (s.webhook id ok) := by
  obtain still | ⟨caller, push, -, -, -, tokens, -, events⟩ := webhook_cases s id ok
  · exact still.quiet.stored stored
  · intro ip record found
    rw [tokens] at found
    rw [events]
    by_cases same : ip = push.ip
    · subst same
      rw [Function.update_self, Option.some.injEq] at found
      subst found
      rw [sents_snoc_sent, List.getLast?_append]
      rfl
    · rw [Function.update_of_ne same] at found
      rw [sents_snoc_other (Ne.symm same)]
      exact stored ip record found

/-- A call that succeeds after no later one for its address. -/
theorem spread_webhook (spread : Spread cfg ip s) (id : Nat) (ok : Bool)
    (ordered : ok = true → ∀ caller push, s.stages id = .pushing caller push →
      ∀ earlier ∈ sents push.ip s.events, earlier.2 ≤ push.now) :
    Spread cfg ip (s.webhook id ok) := by
  obtain still | ⟨caller, push, success, stage, now, tokens, answered, events⟩ :=
    webhook_cases s id ok
  · exact spread.still still
  · have latest := ordered success caller push stage
    have stages : ∀ id' caller' push', (s.webhook id ok).stages id' = .pushing caller' push' →
        id' ≠ id ∧ s.stages id' = .pushing caller' push' := by
      intro id' caller' push' waits
      rw [answered] at waits
      by_cases same : id' = id
      · rw [same, Function.update_self] at waits
        cases waits
      · rw [Function.update_of_ne same] at waits
        exact ⟨same, waits⟩
    by_cases here : push.ip = ip
    · subst here
      have sent : sents push.ip (s.webhook id ok).events =
          sents push.ip s.events ++ [(push.token, push.now)] := by
        rw [events, sents_snoc_sent]
      have last : ∀ final, (sents push.ip (s.webhook id ok).events).getLast? = some final →
          final = (push.token, push.now) := by
        intro final newest
        rw [sent, List.getLast?_append] at newest
        exact (Option.some.inj newest).symm
      refine ⟨?_, ?_, ?_, ?_, ?_, ?_, ?_⟩
      · intro earlier member
        rw [sent] at member
        rw [now]
        rcases List.mem_append.mp member with before | this
        · exact spread.past earlier before
        · rw [List.mem_singleton.mp this]
          exact spread.begun id caller push stage rfl
      · rw [sent, List.pairwise_append]
        refine ⟨spread.spaced, List.pairwise_singleton .., ?_⟩
        intro earlier before this fresh
        rw [List.mem_singleton.mp fresh]
        exact Or.inl (spread.ahead id caller push stage rfl earlier before (latest earlier before))
      · intro final newest earlier member
        rw [last final newest]
        rw [sent] at member
        rcases List.mem_append.mp member with before | this
        · exact latest earlier before
        · rw [List.mem_singleton.mp this]
      · intro final newest
        rw [last final newest]
        left
        rw [tokens]
        exact ⟨_, Function.update_self .., rfl⟩
      · intro id' caller' push' waits same
        rw [now]
        exact spread.begun id' caller' push' (stages id' caller' push' waits).2 same
      · intro id' caller' push' waits same id'' caller'' push'' waits' same' differ
        exact spread.flights id' caller' push' (stages id' caller' push' waits).2 same id'' caller''
          push'' (stages id'' caller'' push'' waits').2 same' differ
      · intro id' caller' push' waits same earlier member before
        obtain ⟨other, waited⟩ := stages id' caller' push' waits
        rw [sent] at member
        rcases List.mem_append.mp member with old | this
        · exact spread.ahead id' caller' push' waited same earlier old before
        · rw [List.mem_singleton.mp this] at before ⊢
          have apart := spread.flights id caller push stage rfl id' caller' push' waited same other.symm
          simp only [Apart] at apart
          simp only at before ⊢
          omega
    · have sent : sents ip (s.webhook id ok).events = sents ip s.events := by
        rw [events, sents_snoc_other here]
      have records : (s.webhook id ok).tokens.tokenByIp ip = s.tokens.tokenByIp ip := by
        rw [tokens, Function.update_of_ne (Ne.symm here)]
      exact spread.drop (Nat.le_of_eq now.symm)
        (fun id' caller' push' waits => (stages id' caller' push' waits).2) sent (Or.inl records)
        (Spares.of_eq records)

theorem quiet_isTokenValid (cfg : Config) (tok other : Text) : Quiet s (s.isTokenValid cfg tok other).2 := by
  refine ⟨Nat.le_refl _, fun _ _ _ waits => waits, fun ip => ?_, fun ip => ?_⟩
  · rw [sents, State.isTokenValid, State.log, List.filterMap_append]
    exact List.append_nil _
  · rcases s.tokens.isTokenValid_tokens cfg s.now tok other with same | ⟨-, -, looked⟩
    · exact Or.inl (by rw [State.isTokenValid, State.log, same])
    · simp only [State.isTokenValid, State.log, looked]
      exact s.tokens.tokenRec_records s.now other ip

/-- A token is checked with a lookup that drops no recent record. -/
theorem spread_isTokenValid (spread : Spread cfg ip s) (tok other : Text)
    (lasting : other = ip → cfg.effectiveTokenRequired = true → tok ≠ [] →
      Lasting cfg s.now s.now ip s.tokens) :
    Spread cfg ip (s.isTokenValid cfg tok other).2 := by
  refine (quiet_isTokenValid cfg tok other).spread (fun record stored none => ?_) spread
  rcases s.tokens.isTokenValid_tokens cfg s.now tok other with same | ⟨required, provided, looked⟩
  · simp only [State.isTokenValid, State.log, same, stored] at none
    cases none
  · simp only [State.isTokenValid, State.log, looked] at none
    obtain ⟨rfl, positive, expired⟩ := s.tokens.tokenRec_drops stored none
    exact lasting rfl required provided record stored positive expired

theorem InTurn.still {start lookup : Nat} (inTurn : InTurn cfg start lookup ip s)
    (still : Still s next) : InTurn cfg start lookup ip next := by
  obtain ⟨lasting, clear⟩ := inTurn
  rw [InTurn, still.tokens]
  exact ⟨lasting, fun starts id caller push waits =>
    clear starts id caller push (still.flights id caller push waits)⟩

/-- Only a token for a single use is dropped, and only where there is no window. -/
theorem accept_cases (cfg : Config) (id : Nat) (ip : Text) (s : State) :
    ∃ t, Still s t ∧ (s.accept cfg id ip = t ∨
      (cfg.tokenPerIpWindowSec ≤ 0 ∧ s.accept cfg id ip = {t with tokens := t.tokens.delete ip})) := by
  rw [State.accept]
  have replaced : Still s (if cfg.singleSession ∧ s.activeWs ≠ some id then s.closeActive else s) := by
    split
    · exact (upkeep_closeActive s).still
    · exact .refl s
  generalize (if cfg.singleSession ∧ s.activeWs ≠ some id then s.closeActive else s) = old at replaced ⊢
  have active : Still old {old with activeWs := some id, idleStopTimer := .none} :=
    .of_eq (Nat.le_refl _) rfl rfl rfl
  generalize {old with activeWs := some id, idleStopTimer := .none} = active' at active ⊢
  have running := (upkeep_ensureContainersRunning cfg active').still
  generalize active'.ensureContainersRunning cfg = ready at running ⊢
  have opened : Still ready (ready.log (.opened id ip ready.now)) :=
    .of_log (Nat.le_refl _) rfl rfl rfl fun _ => rfl
  have live : Still _ ((ready.log (.opened id ip ready.now)).setStage id .live) :=
    (upkeep_setStage _ id fun _ _ same => by cases same).still
  refine ⟨_, (((replaced.trans active).trans running).trans opened).trans live, ?_⟩
  split
  · rename_i single
    exact Or.inr ⟨single.2.2.1, rfl⟩
  · exact Or.inl rfl

theorem quiet_accept (id : Nat) (other : Text) : Quiet s (s.accept cfg id other) := by
  obtain ⟨t, still, after | ⟨-, after⟩⟩ := accept_cases cfg id other s
  · rw [after]
    exact still.quiet
  · rw [after]
    exact ⟨still.now, still.flights, still.sent, fun ip => by
      rw [← still.tokens]
      exact t.tokens.delete_cases other ip⟩

theorem spread_accept (spread : Spread cfg ip s) (stored : StoredIsLast s) (id : Nat) (other : Text) :
    Spread cfg ip (s.accept cfg id other) := by
  obtain ⟨t, still, after | ⟨none, after⟩⟩ := accept_cases cfg id other s
  · rw [after]
    exact spread.still still
  · refine (quiet_accept id other).spread (fun record found _ => ?_) spread
    have issued := spread.issued stored found
    have now : s.now ≤ (s.accept cfg id other).now := (quiet_accept id other).now
    simp only [Config.windowMs]
    omega

theorem isBanned_now (ip : Text) (s : State) : (s.isBanned ip).2.now = s.now := by
  rw [State.isBanned]
  split <;> rfl

/-- Without a token there is nothing to look up. -/
theorem still_isTokenValid (other : Text) : Still s (s.isTokenValid cfg [] other).2 := by
  refine .of_log (Nat.le_refl _) rfl rfl ?_ fun _ => rfl
  simp only [State.isTokenValid, State.log]
  rcases s.tokens.isTokenValid_tokens cfg s.now [] other with same | ⟨-, provided, -⟩
  · exact same
  · exact absurd rfl provided

/-- The invariant of all calls for all addresses. -/
structure Sending (cfg : Config) (s : State) : Prop where
  stored : StoredIsLast s
  spread : ∀ ip, Spread cfg ip s

theorem Sending.still (sending : Sending cfg s) (still : Still s next) : Sending cfg next :=
  ⟨still.quiet.stored sending.stored, fun ip => (sending.spread ip).still still⟩

theorem stored_issue (stored : StoredIsLast s) (id : Nat) (caller : Caller) (ip : Text)
    (drawn lookup : Nat) : StoredIsLast (s.issue cfg id caller ip drawn lookup) := by
  obtain ⟨events, records, -⟩ := issue_records cfg id caller ip drawn lookup s
  exact stored.carry (fun ip => by rw [events]) records

theorem Sending.issue (sending : Sending cfg s) (id : Nat) (caller : Caller) {ip : Text}
    (known : ip ≠ []) (drawn lookup : Nat) (inTurn : InTurn cfg s.now (s.now + lookup) ip s) :
    Sending cfg (s.issue cfg id caller ip drawn lookup) := by
  refine ⟨stored_issue sending.stored id caller ip drawn lookup, fun other => ?_⟩
  apply spread_issue (sending.spread other) id caller ip known drawn lookup
  rintro rfl
  exact inTurn

theorem Sending.token (sending : Sending cfg s) (id : Nat) (secret ip : Text) (drawn : Nat)
    (waits : Waits) (timely : Timely cfg s (.token id secret ip drawn waits)) :
    Sending cfg (s.token cfg id secret ip drawn waits) := by
  rw [State.token]
  split
  · exact sending.still (upkeep_finished s id).still
  · rename_i authorized
    split
    · exact sending.still (upkeep_finished s id).still
    · rename_i known
      have waited := (upkeep_wait s waits.start).still
      apply (sending.still waited).issue id .http known
      refine InTurn.still (timely ?_) waited
      rwa [not_and_or, not_not, not_not] at authorized

theorem Sending.connection (sending : Sending cfg s) (id : Nat) (ip tok : Text) (drawn : Nat)
    (waits : Waits) (timely : Timely cfg s (.connection id ip tok drawn waits)) :
    Sending cfg (s.connection cfg id ip tok drawn waits) := by
  have asked := (upkeep_wait s waits.ban).still.trans (still_isBanned (s.wait waits.ban) ip)
  obtain ⟨-, after⟩ | ⟨allowed, result⟩ := State.connection_cases cfg id ip tok drawn waits s
  · rw [after]
    exact sending.still (asked.trans (upkeep_finished _ id).still)
  · have timely := timely allowed
    have now : (((s.wait waits.ban).isBanned ip).2.wait waits.valid).now =
        s.now + waits.ban + waits.valid := by
      rw [State.wait, isBanned_now, State.wait]
    have valid := asked.trans (upkeep_wait ((s.wait waits.ban).isBanned ip).2 waits.valid).still
    generalize ((s.wait waits.ban).isBanned ip).2.wait waits.valid = t at result now valid
    have checked : Sending cfg (t.isTokenValid cfg tok ip).2 := by
      have before := sending.still valid
      have lasting : ∀ other, ip = other → cfg.effectiveTokenRequired = true → tok ≠ [] →
          Lasting cfg t.now t.now other t.tokens := by
        rintro other rfl required provided
        rw [if_neg provided] at timely
        rw [now, valid.tokens]
        exact timely required
      exact ⟨(quiet_isTokenValid cfg tok ip).stored before.stored,
        fun other => spread_isTokenValid (before.spread other) tok ip (lasting other)⟩
    obtain ⟨-, after⟩ | ⟨-, after⟩ := result
    · rw [after]
      exact ⟨(quiet_accept id ip).stored checked.stored,
        fun other => spread_accept (checked.spread other) checked.stored id ip⟩
    · rw [after]
      have started := checked.still (upkeep_wait _ waits.start).still
      rw [State.reject]
      split
      · rename_i issues
        obtain ⟨-, on, rfl⟩ := issues
        split
        · exact started.still (upkeep_finished _ id).still
        · rename_i known
          apply started.issue id .ws known
          rw [if_pos rfl] at timely
          have start : ((t.isTokenValid cfg [] ip).2.wait waits.start).now =
              s.now + waits.ban + waits.valid + waits.start := by
            rw [← now]
            rfl
          rw [start]
          apply (timely on).still
          exact (valid.trans (still_isTokenValid ip)).trans (upkeep_wait _ waits.start).still
      · split
        · exact started.still ((still_noteBadToken cfg _ ip).trans (upkeep_finished _ id).still)
        · exact started.still (upkeep_finished _ id).still

theorem stored_connection (stored : StoredIsLast s) (id : Nat) (ip tok : Text) (drawn : Nat)
    (waits : Waits) : StoredIsLast (s.connection cfg id ip tok drawn waits) := by
  have asked := (upkeep_wait s waits.ban).still.trans (still_isBanned (s.wait waits.ban) ip)
  obtain ⟨-, after⟩ | ⟨-, result⟩ := State.connection_cases cfg id ip tok drawn waits s
  · rw [after]
    exact (asked.trans (upkeep_finished _ id).still).quiet.stored stored
  · have valid := asked.trans (upkeep_wait ((s.wait waits.ban).isBanned ip).2 waits.valid).still
    have checked := (quiet_isTokenValid cfg tok ip).stored (valid.quiet.stored stored)
    obtain ⟨-, after⟩ | ⟨-, after⟩ := result
    · rw [after]
      exact (quiet_accept id ip).stored checked
    · rw [after]
      have started := (upkeep_wait _ waits.start).still.quiet.stored checked
      obtain ⟨-, -, after⟩ | ⟨-, -, after⟩ | ⟨-, after⟩ :=
        State.reject_cases cfg id ip tok drawn waits.lookup _
      · rw [after]
        exact stored_issue started id .ws ip drawn waits.lookup
      · rw [after]
        exact ((still_noteBadToken cfg _ ip).trans (upkeep_finished _ id).still).quiet.stored started
      · rw [after]
        exact (upkeep_finished _ id).still.quiet.stored started

theorem stored_token (stored : StoredIsLast s) (id : Nat) (secret ip : Text) (drawn : Nat)
    (waits : Waits) : StoredIsLast (s.token cfg id secret ip drawn waits) := by
  rw [State.token]
  split
  · exact (upkeep_finished s id).still.quiet.stored stored
  · split
    · exact (upkeep_finished s id).still.quiet.stored stored
    · exact stored_issue ((upkeep_wait s waits.start).still.quiet.stored stored) id .http ip drawn _

/-- The other steps leave the tokens alone. -/
theorem step_still (cfg : Config) (s : State) (input : Input)
    (other : match input with
      | .connection _ _ _ _ _ | .token _ _ _ _ _ | .webhook _ _ => False
      | _ => True) : Still s (step cfg s input) := by
  cases input with
  | connection _ _ _ _ _ => cases other
  | token _ _ _ _ _ => cases other
  | webhook _ _ => cases other
  | resume id => exact (upkeep_resume cfg s id).still
  | close id => exact (upkeep_close cfg s id).still
  | fire =>
    simp only [step]
    split
    · exact (upkeep_idleStop cfg s).still
    · exact .refl s
  | startDone i => exact (upkeep_startDone s i).still
  | stopDone i => exact (upkeep_stopDone s i).still
  | unban secret target => exact still_unban cfg s secret target

theorem stored_step (stored : StoredIsLast s) (input : Input) : StoredIsLast (step cfg s input) := by
  cases input with
  | connection id ip tok drawn waits =>
    simp only [step]
    split
    · exact stored_connection stored id ip tok drawn waits
    · exact stored
  | token id secret ip drawn waits =>
    simp only [step]
    split
    · exact stored_token stored id secret ip drawn waits
    · exact stored
  | webhook id ok => exact stored_webhook stored id ok
  | _ => exact (step_still cfg s _ trivial).quiet.stored stored

theorem Sending.step (sending : Sending cfg s) (input : Input) (timely : Timely cfg s input) :
    Sending cfg (step cfg s input) := by
  cases input with
  | connection id ip tok drawn waits =>
    simp only [WsBridge.step]
    split
    · exact sending.connection id ip tok drawn waits timely
    · exact sending
  | token id secret ip drawn waits =>
    simp only [WsBridge.step]
    split
    · exact sending.token id secret ip drawn waits timely
    · exact sending
  | webhook id ok =>
    exact ⟨stored_webhook sending.stored id ok,
      fun ip => spread_webhook (sending.spread ip) id ok timely⟩
  | _ => exact sending.still (step_still cfg s _ trivial)

theorem stored_start (now : Nat) : StoredIsLast (.start now) := by
  intro ip record found
  cases found

theorem Sending.start (cfg : Config) (now : Nat) : Sending cfg (.start now) := by
  refine ⟨stored_start now, fun ip => ⟨?_, List.Pairwise.nil, ?_, ?_, ?_, ?_, ?_⟩⟩
  · intro sent member
    cases member
  · intro last newest
    cases newest
  · intro last newest
    cases newest
  · intro id caller push waits
    cases waits
  · intro id caller push waits
    cases waits
  · intro id caller push waits
    cases waits

theorem sending_run (cfg : Config) (now : Nat) (inputs : List Input)
    (timely : Run.Always (step cfg) (.start now) (Timely cfg) inputs) :
    Sending cfg (run cfg now inputs) :=
  Run.history_while (step cfg) (.start now) (Timely cfg) (fun _ s => Sending cfg s)
    (.start cfg now) (fun _ input sending timely => sending.step input timely) inputs timely

/-- A stored token is always the last one reported as sent; and in a timely run the calls that have
sent a token to an address began a window apart. -/
theorem tokens_sent_apart (cfg : Config) (now : Nat) (inputs : List Input) :
    StoredIsLast (run cfg now inputs) ∧
      (Run.Always (step cfg) (.start now) (Timely cfg) inputs →
        ∀ ip, (sents ip (run cfg now inputs).events).Pairwise fun a b => Apart cfg a.2 b.2) := by
  constructor
  · apply Run.invariant (step cfg) (.start now) StoredIsLast (stored_start now)
    exact fun s input stored => stored_step stored input
  · exact fun timely ip => ((sending_run cfg now inputs timely).spread ip).spaced

def issueConfig (ttlSec retryMinSec : Int) : Config where
  tokenRequired := true
  tokenIssueOnWsConnect := false
  tokenSingleUse := false
  singleSession := false
  ondemandEnable := false
  ondemandContainers := []
  tokenWebhookUrl := ['u']
  tokenIssueSecret := []
  adminSecret := []
  tokenTtlSec := ttlSec
  tokenPerIpWindowSec := 300
  tokenWebhookRetryMinSec := retryMinSec
  badTokenWindowSec := 60
  badTokenMax := 10
  banSec := 600

/-- A second token is asked for when the first has been sent. -/
def oneByOne (between : Nat) : List Input :=
  [.token 0 [] ['a'] 7 ⟨0, 0, 0, 0⟩, .webhook 0 true, .token 1 [] ['a'] 8 ⟨0, 0, between, 0⟩,
    .webhook 1 true]

/-- A second token is asked for while the first call waits for the webhook. -/
def overlapping : List Input :=
  [.token 0 [] ['a'] 7 ⟨0, 0, 0, 0⟩, .token 1 [] ['a'] 8 ⟨0, 0, 1000, 0⟩, .webhook 0 true,
    .webhook 1 true]

theorem oneByOne_timely :
    Run.Always (step (issueConfig 300 5)) (.start 1) (Timely (issueConfig 300 5))
      (oneByOne 300000) := by
  simp only [oneByOne, Run.always_cons, Run.always_nil, and_true]
  refine ⟨fun _ => ⟨?_, fun _ => ?_⟩, fun _ => ?_, fun _ => ⟨?_, fun _ => ?_⟩, fun _ => ?_⟩
  · intro record stored
    cases stored
  · intro id caller push waits
    cases waits
  · intro caller push waits earlier member
    cases member
  · intro record stored
    obtain rfl := Option.some.inj stored
    decide
  · intro id caller push waits
    change Function.update (Function.update _ 0 _) 0 _ id = _ at waits
    by_cases first : id = 0
    · rw [first, Function.update_self] at waits
      cases waits
    · rw [Function.update_of_ne first, Function.update_of_ne first] at waits
      cases waits
  · intro caller push waits earlier member
    obtain rfl := (Stage.pushing.inj waits).2
    obtain rfl := List.mem_singleton.mp member
    decide

theorem oneByOne_apart :
    StoredIsLast (run (issueConfig 300 5) 1 (oneByOne 300000)) ∧
      ∀ ip, (sents ip (run (issueConfig 300 5) 1 (oneByOne 300000)).events).Pairwise
        fun a b => Apart (issueConfig 300 5) a.2 b.2 := by
  obtain ⟨stored, apart⟩ := tokens_sent_apart (issueConfig 300 5) 1 (oneByOne 300000)
  exact ⟨stored, apart oneByOne_timely⟩

/-- Two tokens within a second, both sent; and two within 61 seconds, where the first expires. -/
theorem sent_too_soon :
    (¬ (sents ['a'] (run (issueConfig 300 1) 1 overlapping).events).Pairwise
        fun a b => Apart (issueConfig 300 1) a.2 b.2) ∧
      ¬ (sents ['a'] (run (issueConfig 60 5) 1 (oneByOne 61000)).events).Pairwise
        fun a b => Apart (issueConfig 60 5) a.2 b.2 := by
  constructor
  · show ¬ List.Pairwise (fun a b => _ ∨ _) _
    decide
  · show ¬ List.Pairwise (fun a b => _ ∨ _) _
    decide

end StreamRelay.WsBridge
