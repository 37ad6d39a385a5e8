import StreamRelay.Run
import StreamRelay.TcpGate.TokenStore

/-! Runs of the token store: who may enter, told from the calls alone, and what the table answers. -/
namespace StreamRelay.TcpGate

open PyText

inductive Call where
  | issue (streamId : Int) (ip : Text) (issued : Issued)
  | validate (token ip : Text) (streamId : Int) (result : Bool)
  deriving DecidableEq

structure TokenState where
  store : TokenStore
  now : Int
  calls : List Call

/-- The next call that gets the lock, with the value that the generator draws if asked, and how much
later the clock is read first and then. -/
inductive TokenInput where
  | issue (streamId : Int) (ip reason : Text) (drawn : Fin 1000000) (wait gcWait : Nat)
  | validate (token ip : Text) (streamId : Int) (wait gcWait : Nat)

def TokenState.start (now : Int) : TokenState := ⟨.init, now, []⟩

def issueStep (cfg : TokenConfig) (streamId : Int) (ip reason : Text) (drawn : Fin 1000000)
    (wait gcWait : Nat) (s : TokenState) : Issued × TokenState :=
  let (issued, store) :=
    s.store.issue cfg streamId ip reason drawn (s.now + wait) (s.now + wait + gcWait)
  (issued, ⟨store, s.now + wait + gcWait, s.calls ++ [.issue streamId ip issued]⟩)

def validateStep (cfg : TokenConfig) (token ip : Text) (streamId : Int) (wait gcWait : Nat)
    (s : TokenState) : Bool × TokenState :=
  let (result, store) :=
    s.store.validate cfg token ip streamId (s.now + wait) (s.now + wait + gcWait)
  (result, ⟨store, s.now + wait + gcWait, s.calls ++ [.validate token ip streamId result]⟩)

def tokenStep (cfg : TokenConfig) (s : TokenState) : TokenInput → TokenState
  | .issue streamId ip reason drawn wait gcWait =>
    (issueStep cfg streamId ip reason drawn wait gcWait s).2
  | .validate token ip streamId wait gcWait => (validateStep cfg token ip streamId wait gcWait s).2

def tokenRun (cfg : TokenConfig) (start : Int) (inputs : List TokenInput) : TokenState :=
  Run.run (tokenStep cfg) (.start start) inputs

def Call.uses (token : Text) : Call → Bool
  | .issue _ _ _ => false
  | .validate token' _ _ result => token' = token && result

/-- An earlier call for the stream returned the token; its time has not passed; the address is the
same if that matters; and the token has not been used since if that matters. -/
def Entitled (cfg : TokenConfig) (calls : List Call) (token ip : Text) (streamId now : Int) : Prop :=
  ∃ earlier ip' issued later, calls = earlier ++ .issue streamId ip' issued :: later ∧
    issued.token = token ∧ now < issued.expMs ∧ (cfg.bindToIp = true → ip' = ip) ∧
      (cfg.singleUse = true → ∀ call ∈ later, call.uses token = false)

/-- A call that returns the token so. -/
def Call.grants (cfg : TokenConfig) (token ip : Text) (streamId now : Int) : Call → Prop
  | .issue streamId' ip' issued => streamId' = streamId ∧ issued.token = token ∧
      now < issued.expMs ∧ (cfg.bindToIp = true → ip' = ip)
  | .validate _ _ _ _ => False

variable {cfg : TokenConfig} {calls : List Call} {token ip : Text} {streamId now : Int}

theorem entitled_snoc (call : Call) : Entitled cfg (calls ++ [call]) token ip streamId now ↔
    call.grants cfg token ip streamId now ∨
      (Entitled cfg calls token ip streamId now ∧
        (cfg.singleUse = true → call.uses token = false)) := by
  constructor
  · rintro ⟨earlier, ip', issued, later, split, same, standing, address, unused⟩
    rcases List.eq_nil_or_concat later with rfl | ⟨later, last, rfl⟩
    · obtain ⟨-, here⟩ := List.append_inj' split rfl
      rw [(List.cons.inj here).1]
      exact Or.inl ⟨rfl, same, standing, address⟩
    · rw [List.concat_eq_append] at split unused
      have split : calls ++ [call] = (earlier ++ .issue streamId ip' issued :: later) ++ [last] := by
        simpa using split
      obtain ⟨before, here⟩ := List.append_inj' split rfl
      obtain rfl := (List.cons.inj here).1
      refine Or.inr ⟨⟨earlier, ip', issued, later, before, same, standing, address, ?_⟩, ?_⟩
      · exact fun single call member => unused single call (List.mem_append_left _ member)
      · exact fun single => unused single call (List.mem_append_right _ (List.mem_singleton_self _))
  · rintro (granted | ⟨⟨earlier, ip', issued, later, rfl, same, standing, address, unused⟩, kept⟩)
    · cases call with
      | validate => exact granted.elim
      | issue streamId' ip' issued =>
        obtain ⟨rfl, same, standing, address⟩ := granted
        exact ⟨calls, ip', issued, [], rfl, same, standing, address, fun _ _ => nofun⟩
    · refine ⟨earlier, ip', issued, later ++ [call], by simp, same, standing, address, ?_⟩
      intro single other member
      rcases List.mem_append.mp member with inside | last
      · exact unused single other inside
      · rw [List.mem_singleton.mp last]
        exact kept single

/-- What the table answers. -/
structure Record.Admits (cfg : TokenConfig) (rec : Record) (ip : Text) (streamId now : Int) :
    Prop where
  standing : now < rec.expMs
  stream : rec.streamId = streamId
  address : cfg.bindToIp = true → rec.ip = ip

/-- The calls and the table tell the same from now on, and where addresses matter a token that an
address was told last is its own. -/
structure Kept (cfg : TokenConfig) (s : TokenState) : Prop where
  answers : ∀ token ip streamId now, s.now ≤ now →
    (Entitled cfg s.calls token ip streamId now ↔
      ∃ rec, s.store.byToken.get token = some rec ∧ rec.Admits cfg ip streamId now)
  addressed : cfg.bindToIp = true → ∀ token rec, s.store.byToken.get token = some rec → rec.ip ≠ []
  owned : cfg.bindToIp = true → ∀ ip token, s.store.byIp.get ip = some token →
    ∃ rec, s.store.byToken.get token = some rec ∧ rec.ip = ip

/-- The draw meets no record that is still in the table, and where addresses matter the client has
one. -/
def FreshDraw (cfg : TokenConfig) (s : TokenState) : TokenInput → Prop
  | .issue streamId ip _ drawn wait gcWait =>
    let store := s.store.gcLocked (s.now + wait)
    (cfg.bindToIp = true → ip ≠ []) ∧
      (store.existing cfg streamId ip (s.now + wait + gcWait) = none →
        store.byToken.get (TokenStore.draw drawn) = none)
  | .validate _ _ _ _ _ => True

variable {s t : TokenState}

theorem Kept.later (kept : Kept cfg s) (wait : Nat) : Kept cfg {s with now := s.now + wait} :=
  ⟨fun token ip streamId now after =>
    kept.answers token ip streamId now
      (Int.le_trans (Int.le_add_of_nonneg_right (Int.natCast_nonneg wait)) after),
    kept.addressed, kept.owned⟩

/-- A record goes of which nobody is told any more. -/
theorem Kept.drop (kept : Kept cfg s) {tok : Text} {rec : Record}
    (found : s.store.byToken.get tok = some rec) (store : t.store = s.store.drop tok rec)
    (now : t.now = s.now)
    (others : ∀ token ip streamId now, token ≠ tok →
      (Entitled cfg t.calls token ip streamId now ↔ Entitled cfg s.calls token ip streamId now))
    (gone : ∀ ip streamId now, s.now ≤ now → ¬Entitled cfg t.calls tok ip streamId now) :
    Kept cfg t := by
  have mono {token : Text} {other : Record} (stays : t.store.byToken.get token = some other) :
      token ≠ tok ∧ s.store.byToken.get token = some other := by
    rw [store] at stays
    refine ⟨?_, Dict.get_mono_pop stays⟩
    rintro rfl
    rw [TokenStore.drop, Dict.get_pop_self] at stays
    cases stays
  have untouched {token : Text} (apart : token ≠ tok) :
      t.store.byToken.get token = s.store.byToken.get token := by
    rw [store]
    exact Dict.get_pop_other apart
  refine ⟨?_, ?_, ?_⟩
  · intro token ip streamId time after
    rw [now] at after
    by_cases same : token = tok
    · subst same
      constructor
      · exact fun entitled => (gone ip streamId time after entitled).elim
      · rintro ⟨other, stays, -⟩
        exact ((mono stays).1 rfl).elim
    · rw [others token ip streamId time same, untouched same]
      exact kept.answers token ip streamId time after
  · exact fun binds token other stays => kept.addressed binds token other (mono stays).2
  · intro binds ip token told
    have told_before : s.store.byIp.get ip = some token ∧ token ≠ tok := by
      rw [store] at told
      simp only [TokenStore.drop] at told
      split at told
      · rename_i popped
        have before := Dict.get_mono_pop told
        refine ⟨before, ?_⟩
        rintro rfl
        obtain ⟨other, mine, address⟩ := kept.owned binds ip token before
        rw [found] at mine
        rw [← address, ← Option.some.inj mine, Dict.get_pop_self] at told
        cases told
      · rename_i left
        refine ⟨told, ?_⟩
        rintro rfl
        obtain ⟨other, mine, address⟩ := kept.owned binds ip token told
        rw [found] at mine
        apply left
        rw [Option.some.inj mine, address]
        exact ⟨by rw [← address]; exact kept.addressed binds token other (by rw [found, mine]), told⟩
    obtain ⟨before, apart⟩ := told_before
    rw [untouched apart]
    exact kept.owned binds ip token before

/-- The clean-up takes records that admit nobody any more. -/
theorem Kept.gcLocked (kept : Kept cfg s) :
    Kept cfg {s with store := s.store.gcLocked s.now} := by
  apply TokenStore.gcLocked_induct (fun store => Kept cfg {s with store := store}) _ kept
  intro store tok rec held found expired
  apply held.drop (t := {s with store := store.drop tok rec}) found rfl rfl
  · exact fun _ _ _ _ _ => Iff.rfl
  · intro ip streamId now after entitled
    obtain ⟨other, mine, admits⟩ := (held.answers tok ip streamId now after).mp entitled
    rw [found] at mine
    rw [← Option.some.inj mine] at admits
    exact absurd admits.standing (Int.not_lt.mpr (Int.le_trans expired after))

theorem TokenStore.existing_spec {store : TokenStore} {t : Int} {tok : Text} {rec : Record}
    (found : store.existing cfg streamId ip t = some (tok, rec)) :
    store.byIp.get ip = some tok ∧ store.byToken.get tok = some rec ∧ t < rec.expMs ∧
      rec.streamId = streamId := by
  simp only [existing] at found
  split at found
  · split at found
    · rename_i named
      split at found
      · rename_i other known
        split at found
        · rename_i standing
          obtain ⟨rfl, rfl⟩ := Prod.mk.inj (Option.some.inj found)
          refine ⟨?_, known, standing⟩
          cases told : store.byIp.get ip with
          | none =>
            rw [told] at named
            exact (named rfl).elim
          | some tok => rfl
        · cases found
      · cases found
    · cases found
  · cases found

/-- An address is told again what it was told. -/
theorem Kept.again (kept : Kept cfg s) {tok reason : Text} {rec : Record}
    (found : s.store.existing cfg streamId ip s.now = some (tok, rec)) :
    Kept cfg
      {s with calls := s.calls ++ [.issue streamId ip ⟨.alreadyIssued, tok, rec.expMs, reason⟩]} := by
  obtain ⟨told, known, standing, stream⟩ := TokenStore.existing_spec found
  refine ⟨?_, kept.addressed, kept.owned⟩
  intro token ip' streamId' now after
  rw [entitled_snoc, kept.answers token ip' streamId' now after]
  constructor
  · rintro (⟨rfl, rfl, later, address⟩ | ⟨answer, -⟩)
    · refine ⟨rec, known, later, stream, ?_⟩
      intro binds
      obtain ⟨other, mine, own⟩ := kept.owned binds ip tok told
      rw [known] at mine
      rw [Option.some.inj mine, own, address binds]
    · exact answer
  · exact fun answer => Or.inr ⟨answer, fun _ => rfl⟩

/-- A token that the table has not goes into it. -/
theorem Kept.put (kept : Kept cfg s) {reason : Text} (drawn : Fin 1000000)
    (addressed : cfg.bindToIp = true → ip ≠ [])
    (fresh : s.store.byToken.get (TokenStore.draw drawn) = none) :
    let new := TokenStore.record cfg streamId ip drawn s.now
    Kept cfg {s with
      store := s.store.put cfg ip new
      calls := s.calls ++ [.issue streamId ip ⟨.issued, new.token, new.expMs, reason⟩]} := by
  intro new
  have own (binds : cfg.bindToIp = true) : new.ip = ip := if_pos binds
  have here : (s.store.put cfg ip new).byToken.get new.token = some new := Dict.get_set_self
  have other {token : Text} (apart : token ≠ new.token) :
      (s.store.put cfg ip new).byToken.get token = s.store.byToken.get token :=
    Dict.get_set_other apart
  refine ⟨?_, ?_, ?_⟩
  · intro token ip' streamId' now after
    rw [entitled_snoc, kept.answers token ip' streamId' now after]
    by_cases same : token = new.token
    · subst same
      rw [here, show s.store.byToken.get new.token = none from fresh]
      constructor
      · rintro (⟨rfl, -, standing, address⟩ | ⟨⟨other, absent, -⟩, -⟩)
        · exact ⟨new, rfl, standing, rfl, fun binds => (own binds).trans (address binds)⟩
        · cases absent
      · rintro ⟨found, mine, admits⟩
        obtain rfl := Option.some.inj mine
        refine Or.inl ⟨admits.stream, rfl, admits.standing, ?_⟩
        exact fun binds => (own binds).symm.trans (admits.address binds)
    · rw [other same]
      constructor
      · rintro (⟨-, mine, -⟩ | ⟨answer, -⟩)
        · exact absurd mine.symm same
        · exact answer
      · exact fun answer => Or.inr ⟨answer, fun _ => rfl⟩
  · intro binds token found known
    by_cases same : token = new.token
    · rw [same, here] at known
      rw [← Option.some.inj known, own binds]
      exact addressed binds
    · rw [other same] at known
      exact kept.addressed binds token found known
  · intro binds ip' token told
    have which : (ip' = ip ∧ token = new.token) ∨ s.store.byIp.get ip' = some token := by
      simp only [TokenStore.put] at told
      split at told
      · by_cases same : ip' = ip
        · rw [same, Dict.get_set_self] at told
          exact Or.inl ⟨same, (Option.some.inj told).symm⟩
        · rw [Dict.get_set_other same] at told
          exact Or.inr told
      · exact Or.inr told
    rcases which with ⟨rfl, rfl⟩ | before
    · exact ⟨new, here, own binds⟩
    · obtain ⟨found, known, address⟩ := kept.owned binds ip' token before
      have apart : token ≠ new.token := by
        rintro rfl
        rw [show s.store.byToken.get new.token = none from fresh] at known
        cases known
      exact ⟨found, by rw [other apart, known], address⟩

/-- A call to validate finds a record that admits, or none. -/
theorem TokenStore.validate_cases (token ip : Text) (streamId t : Int) {store : TokenStore}
    {gcAt : Int}
    (addressed : cfg.bindToIp = true → ∀ token rec,
      (store.gcLocked gcAt).byToken.get token = some rec → rec.ip ≠ []) :
    (∃ rec, (store.gcLocked gcAt).byToken.get token = some rec ∧ rec.Admits cfg ip streamId t ∧
      store.validate cfg token ip streamId gcAt t =
        (true, if cfg.singleUse then (store.gcLocked gcAt).drop token rec
          else store.gcLocked gcAt)) ∨
    ((¬∃ rec, (store.gcLocked gcAt).byToken.get token = some rec ∧
        rec.Admits cfg ip streamId t) ∧
      store.validate cfg token ip streamId gcAt t = (false, store.gcLocked gcAt)) := by
  cases found : (store.gcLocked gcAt).byToken.get token with
  | none =>
    refine Or.inr ⟨?_, by simp only [validate, found]⟩
    rintro ⟨rec, absent, -⟩
    cases absent
  | some rec =>
    simp only [validate, found, Option.some.injEq, exists_eq_left']
    by_cases expired : rec.expMs ≤ t
    · rw [if_pos expired]
      exact Or.inr ⟨fun admits => Int.not_lt.mpr expired admits.standing, rfl⟩
    · rw [if_neg expired]
      by_cases stream : rec.streamId = streamId
      · rw [if_neg (not_not.mpr stream)]
        by_cases address : cfg.bindToIp = true → rec.ip = ip
        · rw [if_neg]
          · refine Or.inl ⟨⟨Int.not_le.mp expired, stream, address⟩, ?_⟩
            split <;> rfl
          · exact fun elsewhere => elsewhere.2.2 (address elsewhere.1)
        · rw [if_pos]
          · exact Or.inr ⟨fun admits => address admits.address, rfl⟩
          · obtain ⟨binds, apart⟩ := Classical.not_imp.mp address
            exact ⟨binds, addressed binds token rec found, apart⟩
      · rw [if_pos stream]
        exact Or.inr ⟨fun admits => stream admits.stream, rfl⟩

theorem Kept.cleaned (kept : Kept cfg s) (wait gcWait : Nat) :
    Kept cfg {s with
      store := s.store.gcLocked (s.now + wait)
      now := s.now + wait + gcWait} :=
  ((kept.later wait).gcLocked).later gcWait

/-- A token goes as it is used. -/
theorem Kept.use (kept : Kept cfg s) {rec : Record} (found : s.store.byToken.get token = some rec)
    (single : cfg.singleUse = true) :
    Kept cfg {s with
      store := s.store.drop token rec
      calls := s.calls ++ [.validate token ip streamId true]} := by
  apply kept.drop (t := {s with
    store := s.store.drop token rec
    calls := s.calls ++ [.validate token ip streamId true]}) found rfl rfl
  · intro other ip' streamId' now apart
    have unused : Call.uses other (.validate token ip streamId true) = false := by
      simp [Call.uses, Ne.symm apart]
    rw [entitled_snoc]
    exact ⟨fun either => (either.resolve_left id).1, fun old => Or.inr ⟨old, fun _ => unused⟩⟩
  · intro ip' streamId' now _ entitled
    obtain ⟨-, unused⟩ := ((entitled_snoc _).mp entitled).resolve_left id
    simpa [Call.uses] using unused single

/-- A call that uses no token leaves the table. -/
theorem Kept.look (kept : Kept cfg s) {result : Bool} (unused : cfg.singleUse = true → result = false) :
    Kept cfg {s with calls := s.calls ++ [.validate token ip streamId result]} := by
  refine ⟨?_, kept.addressed, kept.owned⟩
  intro other ip' streamId' now after
  rw [← kept.answers other ip' streamId' now after, entitled_snoc]
  have spared (single : cfg.singleUse = true) :
      Call.uses other (.validate token ip streamId result) = false := by
    rw [unused single]
    simp [Call.uses]
  exact ⟨fun either => (either.resolve_left id).1, fun old => Or.inr ⟨old, spared⟩⟩

theorem Kept.validate (kept : Kept cfg s) (wait gcWait : Nat) :
    ((validateStep cfg token ip streamId wait gcWait s).1 = true ↔
      Entitled cfg s.calls token ip streamId (s.now + wait + gcWait)) ∧
    Kept cfg (validateStep cfg token ip streamId wait gcWait s).2 := by
  have cleaned := kept.cleaned wait gcWait
  have answer := cleaned.answers token ip streamId _ (Int.le_refl _)
  rcases TokenStore.validate_cases token ip streamId (s.now + wait + gcWait) cleaned.addressed with
    ⟨rec, found, admits, same⟩ | ⟨nobody, same⟩
  · have entitled := answer.mpr ⟨rec, found, admits⟩
    simp only [validateStep, same]
    refine ⟨iff_of_true trivial entitled, ?_⟩
    by_cases single : cfg.singleUse = true
    · rw [if_pos single]
      exact cleaned.use found single
    · rw [if_neg single]
      exact cleaned.look fun used => absurd used single
  · simp only [validateStep, same]
    refine ⟨iff_of_false nofun fun entitled => nobody (answer.mp entitled), ?_⟩
    exact cleaned.look fun _ => rfl

theorem start_kept (cfg : TokenConfig) (now : Int) : Kept cfg (.start now) := by
  refine ⟨?_, fun _ _ _ => nofun, fun _ _ _ => nofun⟩
  intro token ip streamId now _
  constructor
  · rintro ⟨earlier, ip', issued, later, split, -⟩
    simp [TokenState.start] at split
  · rintro ⟨rec, found, -⟩
    cases found

theorem step_kept (input : TokenInput) (kept : Kept cfg s) (fresh : FreshDraw cfg s input) :
    Kept cfg (tokenStep cfg s input) := by
  cases input with
  | validate token ip streamId wait gcWait => exact (kept.validate wait gcWait).2
  | issue streamId ip reason drawn wait gcWait =>
    have cleaned := kept.cleaned wait gcWait
    obtain ⟨addressed, free⟩ := fresh
    simp only [tokenStep, issueStep, TokenStore.issue]
    cases found : (s.store.gcLocked (s.now + wait)).existing cfg streamId ip
        (s.now + wait + gcWait) with
    | some old => exact cleaned.again found
    | none => exact cleaned.put drawn addressed (free found)

theorem run_kept (cfg : TokenConfig) (start : Int) (inputs : List TokenInput)
    (always : Run.Always (tokenStep cfg) (.start start) (FreshDraw cfg) inputs) :
    Kept cfg (tokenRun cfg start inputs) :=
  Run.history_while (tokenStep cfg) (.start start) (FreshDraw cfg) (fun _ s => Kept cfg s)
    (start_kept cfg start) (fun _ input kept fresh => step_kept input kept fresh) inputs always

/-- Whoever is entitled is let in, and nobody else. -/
def LetsIn (cfg : TokenConfig) (start : Int) (inputs : List TokenInput) : Prop :=
  ∀ past token ip streamId wait gcWait later,
    inputs = past ++ .validate token ip streamId wait gcWait :: later →
      let s := tokenRun cfg start past
      (validateStep cfg token ip streamId wait gcWait s).1 = true ↔
        Entitled cfg s.calls token ip streamId (s.now + wait + gcWait)

theorem run_letsIn (cfg : TokenConfig) (start : Int) (inputs : List TokenInput)
    (always : Run.Always (tokenStep cfg) (.start start) (FreshDraw cfg) inputs) :
    LetsIn cfg start inputs := by
  rintro past token ip streamId wait gcWait later rfl
  have kept := run_kept cfg start past (Run.always_before (tokenStep cfg) (.start start) always)
  exact (kept.validate wait gcWait).1

instance (cfg : TokenConfig) (s : TokenState) :
    (input : TokenInput) → Decidable (FreshDraw cfg s input)
  | .issue _ _ _ _ _ _ => inferInstanceAs (Decidable (_ ∧ _))
  | .validate _ _ _ _ _ => isTrue trivial

/-- Five minutes, no window, tokens used once. -/
def singleConfig : TokenConfig := ⟨300, 0, false, true⟩

def firstAddress : Text := ['1', '0', '.', '0', '.', '0', '.', '1']

def secondAddress : Text := ['1', '0', '.', '0', '.', '0', '.', '2']

/-- Two clients ask for different streams, and the first one's token comes. -/
def twoClients (first second : Fin 1000000) : List TokenInput :=
  [.issue 1 firstAddress [] first 0 0, .issue 2 secondAddress [] second 5 0,
    .validate (TokenStore.draw first) firstAddress 1 5 0]

theorem run_letsIn_two : LetsIn singleConfig 1000 (twoClients 5 6) :=
  run_letsIn singleConfig 1000 (twoClients 5 6) (by decide)

/-- The generator draws the same value twice. -/
theorem not_letsIn_twice : ¬LetsIn singleConfig 1000 (twoClients 5 5) := by
  intro letsIn
  have refused := letsIn [.issue 1 firstAddress [] 5 0 0, .issue 2 secondAddress [] 5 5 0]
    (TokenStore.draw 5) firstAddress 1 5 0 [] rfl
  have entitled : Entitled singleConfig
      (tokenRun singleConfig 1000
        [.issue 1 firstAddress [] 5 0 0, .issue 2 secondAddress [] 5 5 0]).calls
      (TokenStore.draw 5) firstAddress 1 (1000 + 0 + 0 + 5 + 0 + 5 + 0) :=
    ⟨[], firstAddress, ⟨.issued, TokenStore.draw 5, 301000, []⟩, _, rfl, rfl, by decide,
      fun _ => rfl, fun _ call member => by rw [List.mem_singleton.mp member]; rfl⟩
  exact absurd (refused.mpr entitled) (by decide)

end StreamRelay.TcpGate
