import StreamRelay.Dict
import StreamRelay.PyText

/-! The signature check of startLink in agent_link_service. Its clock is read in milliseconds; seconds
are whole. -/
namespace StreamRelay.Link

open PyText

/-- The digest of a message under a key in hexadecimal, and str.lower, which leaves such a text. -/
structure Digest where
  lower : Text → Text
  hexdigest : (sk msg : Text) → Text
  lower_hexdigest : ∀ sk msg, lower (hexdigest sk msg) = hexdigest sk msg
  hexdigest_ne_nil : ∀ sk msg, hexdigest sk msg ≠ []

structure SigConfig where
  digest : Digest
  sk : Text
  sigSkewSec : Int
  nonceTtlSec : Int

structure Request where
  callName : Text
  streamId : Int
  ts : Int
  nonce : Text
  sigHex : Text
  deriving DecidableEq

def startLink : Text := "startLink".toList

abbrev Nonce := {nonce : Text // nonce ≠ []}

/-- When each nonce is forgotten. -/
abbrev Nonces := Dict Nonce Int

def decimal : Int → Text
  | .ofNat n => Nat.toDigits 10 n
  | .negSucc n => '-' :: Nat.toDigits 10 (n + 1)

/-- The canonical string. -/
def message (r : Request) : Text :=
  "call_name=".toList ++ r.callName ++ "&stream=".toList ++ decimal r.streamId ++
    "&ts=".toList ++ decimal r.ts ++ "&nonce=".toList ++ r.nonce

def seconds (now : Nat) : Int := (now / 1000 : Nat)

/-- The checks before the lock; the nonce of a request that passes. -/
def precheck (cfg : SigConfig) (now : Nat) (r : Request) : Option Nonce :=
  if r.callName ≠ startLink then none
  else if r.streamId ≤ 0 then none
  else if named : r.nonce = [] then none
  else if r.sigHex = [] then none
  else
    let tnow := seconds now
    if r.ts ≤ 0 ∨ ((tnow - r.ts).natAbs : Int) > cfg.sigSkewSec then none
    else some ⟨r.nonce, named⟩

def gcNoncesLocked (t : Nat) (nonces : Nonces) : Nonces :=
  Dict.popWhere (fun exp => exp ≤ (t : Int)) (nonces.items.take 256) nonces

def nonceTtlMs (cfg : SigConfig) : Int := max 1 cfg.nonceTtlSec * 1000

/-- What is done under the lock: whether the nonce is new, and the table. -/
def remember (cfg : SigConfig) (gcAt now : Nat) (nonce : Nonce) (nonces : Nonces) : Bool × Nonces :=
  let nonces := gcNoncesLocked gcAt nonces
  if nonces.get nonce ≠ none then (false, nonces)
  else (true, nonces.set nonce (now + nonceTtlMs cfg))

def signed (cfg : SigConfig) (r : Request) : Bool :=
  cfg.digest.hexdigest cfg.sk (message r) = cfg.digest.lower r.sigHex

/-- check_sig with the times at which it reads the clock: before the lock, as it cleans up, and as it
sets the new nonce. -/
def checkSig (cfg : SigConfig) (readAt gcAt now : Nat) (r : Request) (nonces : Nonces) :
    Bool × Nonces :=
  if cfg.sk = [] then (true, nonces)
  else
    match precheck cfg readAt r with
    | none => (false, nonces)
    | some nonce =>
      match remember cfg gcAt now nonce nonces with
      | (false, nonces) => (false, nonces)
      | (true, nonces) => (signed cfg r, nonces)

variable {cfg : SigConfig} {nonces : Nonces} {nonce other : Nonce} {exp : Int} {t : Nat}

theorem gcNoncesLocked_items (t : Nat) (nonces : Nonces) :
    (gcNoncesLocked t nonces).items =
      (nonces.items.take 256).filter (fun item => !decide (item.2 ≤ (t : Int))) ++
        nonces.items.drop 256 := by
  apply Dict.popWhere_items (fun exp => exp ≤ (t : Int)) (nonces.items.drop 256) _ []
  rw [List.nil_append, List.take_append_drop]

/-- What the clean-up leaves was there. -/
theorem get_gc (found : (gcNoncesLocked t nonces).get nonce = some exp) :
    nonces.get nonce = some exp := by
  rw [Dict.get_eq_some, gcNoncesLocked_items, List.mem_append] at found
  rw [Dict.get_eq_some]
  rcases found with first | later
  · exact List.mem_of_mem_take (List.mem_filter.mp first).1
  · exact List.mem_of_mem_drop later

/-- What has not expired is left. -/
theorem get_gc_of_standing (standing : (t : Int) < exp) (found : nonces.get nonce = some exp) :
    (gcNoncesLocked t nonces).get nonce = some exp := by
  rw [Dict.get_eq_some] at found
  rw [Dict.get_eq_some, gcNoncesLocked_items, List.mem_append]
  rw [← List.take_append_drop 256 nonces.items, List.mem_append] at found
  rcases found with first | later
  · refine Or.inl (List.mem_filter.mpr ⟨first, ?_⟩)
    simpa using standing
  · exact Or.inr later

/-- A request that passes names its nonce, and was sent within the skew. -/
theorem precheck_spec {now : Nat} {r : Request} (passes : precheck cfg now r = some nonce) :
    nonce.val = r.nonce ∧ 0 < r.ts ∧ r.ts ≤ seconds now + cfg.sigSkewSec ∧
      seconds now ≤ r.ts + cfg.sigSkewSec := by
  simp only [precheck] at passes
  split at passes
  · cases passes
  · split at passes
    · cases passes
    · split at passes
      · cases passes
      · split at passes
        · cases passes
        · split at passes
          · cases passes
          · rename_i timely
            rw [not_or] at timely
            obtain rfl := Option.some.inj passes
            refine ⟨rfl, ?_, ?_, ?_⟩
            · omega
            · omega
            · omega

theorem precheck_passes {now : Nat} {r : Request} (call : r.callName = startLink)
    (stream : 0 < r.streamId) (named : r.nonce ≠ []) (sig : r.sigHex ≠ []) (positive : 0 < r.ts)
    (early : r.ts ≤ seconds now + cfg.sigSkewSec) (late : seconds now ≤ r.ts + cfg.sigSkewSec) :
    precheck cfg now r = some ⟨r.nonce, named⟩ := by
  rw [precheck, if_neg (not_not.mpr call), if_neg (Int.not_le.mpr stream), dif_neg named, if_neg sig]
  exact if_neg (by omega)

theorem remember_known {gcAt now : Nat} (known : (gcNoncesLocked gcAt nonces).get nonce ≠ none) :
    remember cfg gcAt now nonce nonces = (false, gcNoncesLocked gcAt nonces) := if_pos known

theorem remember_new {gcAt now : Nat} (new : (gcNoncesLocked gcAt nonces).get nonce = none) :
    remember cfg gcAt now nonce nonces =
      (true, (gcNoncesLocked gcAt nonces).set nonce (now + nonceTtlMs cfg)) :=
  if_neg (not_not.mpr new)

end StreamRelay.Link
