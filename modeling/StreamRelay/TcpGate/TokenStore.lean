import StreamRelay.Dict
import StreamRelay.PyText

/-! The token store of stream_service_tcp_gate. Its clock is in milliseconds; a call reads it once
as it cleans up, and once more. -/
namespace StreamRelay.TcpGate

open PyText

structure TokenConfig where
  ttlSec : Int
  perIpWindowSec : Int
  bindToIp : Bool
  singleUse : Bool

def TokenConfig.ttlMs (cfg : TokenConfig) : Int := max 1 cfg.ttlSec * 1000

def TokenConfig.perIpWindowMs (cfg : TokenConfig) : Int := max 0 cfg.perIpWindowSec * 1000

structure Record where
  token : Text
  streamId : Int
  ip : Text
  issuedMs : Int
  expMs : Int
  deriving DecidableEq

inductive Status where
  | issued
  | alreadyIssued
  deriving DecidableEq, Repr

/-- What a client that asked for a token is told. -/
structure Issued where
  status : Status
  token : Text
  expMs : Int
  reason : Text
  deriving DecidableEq

structure TokenStore where
  byToken : Dict Text Record
  byIp : Dict Text Text

namespace TokenStore

def init : TokenStore := ⟨.empty, .empty⟩

/-- A record goes, and what its address was told last if that was its token. -/
def drop (tok : Text) (rec : Record) (store : TokenStore) : TokenStore :=
  {store with
    byToken := store.byToken.pop tok
    byIp :=
      if rec.ip ≠ [] ∧ store.byIp.get rec.ip = some tok then store.byIp.pop rec.ip else store.byIp}

def gcLoop (n : Nat) (t : Int) : List (Text × Record) → (killed : Nat) → TokenStore → TokenStore
  | [], _, store => store
  | (tok, rec) :: items, killed, store =>
    if rec.expMs ≤ t then
      if killed + 1 ≥ n then store.drop tok rec
      else gcLoop n t items (killed + 1) (store.drop tok rec)
    else gcLoop n t items killed store

def gcLocked (t : Int) (store : TokenStore) : TokenStore :=
  gcLoop 64 t store.byToken.items 0 store

/-- The token that the address was told last, if it still does for the stream. -/
def existing (cfg : TokenConfig) (streamId : Int) (ip : Text) (t : Int) (store : TokenStore) :
    Option (Text × Record) :=
  if cfg.perIpWindowMs > 0 then
    let existingTok := (store.byIp.get ip).getD []
    if existingTok ≠ [] then
      match store.byToken.get existingTok with
      | some rec =>
        if rec.expMs > t ∧ rec.streamId = streamId then some (existingTok, rec) else none
      | none => none
    else none
  else none

def draw (drawn : Fin 1000000) : Text := (Nat.toDigits 10 drawn).leftpad 6 '0'

def record (cfg : TokenConfig) (streamId : Int) (ip : Text) (drawn : Fin 1000000) (t : Int) :
    Record :=
  ⟨draw drawn, streamId, if cfg.bindToIp then ip else [], t, t + cfg.ttlMs⟩

def put (cfg : TokenConfig) (ip : Text) (rec : Record) (store : TokenStore) : TokenStore :=
  {store with
    byToken := store.byToken.set rec.token rec
    byIp := if cfg.perIpWindowMs > 0 then store.byIp.set ip rec.token else store.byIp}

def issue (cfg : TokenConfig) (streamId : Int) (ip reason : Text) (drawn : Fin 1000000)
    (gcAt t : Int) (store : TokenStore) : Issued × TokenStore :=
  let store := store.gcLocked gcAt
  match store.existing cfg streamId ip t with
  | some (existingTok, rec) => (⟨.alreadyIssued, existingTok, rec.expMs, reason⟩, store)
  | none =>
    let fresh := record cfg streamId ip drawn t
    (⟨.issued, fresh.token, fresh.expMs, reason⟩, store.put cfg ip fresh)

def validate (cfg : TokenConfig) (token ip : Text) (streamId gcAt t : Int) (store : TokenStore) :
    Bool × TokenStore :=
  let store := store.gcLocked gcAt
  match store.byToken.get token with
  | none => (false, store)
  | some rec =>
    if rec.expMs ≤ t then (false, store)
    else if rec.streamId ≠ streamId then (false, store)
    else if cfg.bindToIp ∧ rec.ip ≠ [] ∧ rec.ip ≠ ip then (false, store)
    else if cfg.singleUse then (true, store.drop token rec)
    else (true, store)

/-- What one more record cleaned up keeps, the clean-up keeps. -/
theorem gcLoop_induct {n : Nat} {t : Int} (property : TokenStore → Prop)
    (drop : ∀ store tok rec, property store → store.byToken.get tok = some rec → rec.expMs ≤ t →
      property (store.drop tok rec)) (items : List (Text × Record)) :
    (items.map Prod.fst).Nodup → ∀ killed store,
      (∀ item ∈ items, store.byToken.get item.1 = some item.2) → property store →
        property (gcLoop n t items killed store) := by
  induction items with
  | nil => exact fun _ _ _ _ held => held
  | cons item items ih =>
    obtain ⟨tok, rec⟩ := item
    intro distinct killed store known held
    rw [List.map_cons, List.nodup_cons] at distinct
    have here := known (tok, rec) List.mem_cons_self
    simp only [gcLoop]
    split
    · rename_i expired
      have dropped := drop store tok rec held here expired
      split
      · exact dropped
      · apply ih distinct.2 _ _ _ dropped
        intro item member
        have apart : item.1 ≠ tok := by
          intro same
          exact distinct.1 (List.mem_map.mpr ⟨item, member, same⟩)
        simp only [TokenStore.drop]
        rw [Dict.get_pop_other apart]
        exact known item (List.mem_cons_of_mem _ member)
    · exact ih distinct.2 killed store
        (fun item member => known item (List.mem_cons_of_mem _ member)) held

theorem gcLocked_induct {t : Int} (property : TokenStore → Prop)
    (drop : ∀ store tok rec, property store → store.byToken.get tok = some rec → rec.expMs ≤ t →
      property (store.drop tok rec)) {store : TokenStore} (held : property store) :
    property (store.gcLocked t) := by
  apply gcLoop_induct property drop store.byToken.items store.byToken.distinct 0 store _ held
  exact fun item member => Dict.get_eq_some.mpr member

end TokenStore

end StreamRelay.TcpGate
