import StreamRelay.Link.Replay

/-! What a rejected startLink request does to the calls that come later. -/
namespace StreamRelay.Link

open PyText

/-- A call that comes later, and how much later its clock is read each time. -/
structure Later where
  request : Request
  wait : Nat
  lockWait : Nat
  putWait : Nat

def laterResults (cfg : SigConfig) : List Later → Nat → Nonces → List Bool
  | [], _, _ => []
  | later :: laters, now, nonces =>
    let readAt := now + later.wait
    let gcAt := readAt + later.lockWait
    let (result, nonces) := checkSig cfg readAt gcAt (gcAt + later.putWait) later.request nonces
    result :: laterResults cfg laters (gcAt + later.putWait) nonces

/-- Whatever comes later, two tables answer the same. -/
def SameLater (cfg : SigConfig) (now : Nat) (nonces other : Nonces) : Prop :=
  ∀ laters, laterResults cfg laters now nonces = laterResults cfg laters now other

/-- The request is refused before the lock; or as a replay, where the clean-up before it removes
nothing or sees the whole table. -/
def Harmless (cfg : SigConfig) (readAt gcAt : Nat) (r : Request) (nonces : Nonces) : Prop :=
  match precheck cfg readAt r with
  | none => True
  | some nonce => (gcNoncesLocked gcAt nonces).get nonce ≠ none ∧
      ((∀ item ∈ nonces.items.take 256, (gcAt : Int) < item.2) ∨ nonces.items.length ≤ 256)

variable {cfg : SigConfig} {nonces : Nonces} {nonce : Nonce} {r : Request}

theorem checkSig_refused {readAt : Nat} (set : cfg.sk ≠ []) (refused : precheck cfg readAt r = none)
    (gcAt now : Nat) (nonces : Nonces) : checkSig cfg readAt gcAt now r nonces = (false, nonces) := by
  rw [checkSig, if_neg set, refused]

theorem checkSig_known {readAt gcAt now : Nat} (set : cfg.sk ≠ [])
    (passes : precheck cfg readAt r = some nonce)
    (known : (gcNoncesLocked gcAt nonces).get nonce ≠ none) :
    checkSig cfg readAt gcAt now r nonces = (false, gcNoncesLocked gcAt nonces) := by
  rw [checkSig, if_neg set, passes]
  dsimp only
  rw [remember_known known]

theorem checkSig_new {readAt gcAt now : Nat} (set : cfg.sk ≠ [])
    (passes : precheck cfg readAt r = some nonce)
    (new : (gcNoncesLocked gcAt nonces).get nonce = none) :
    checkSig cfg readAt gcAt now r nonces =
      (signed cfg r, (gcNoncesLocked gcAt nonces).set nonce (now + nonceTtlMs cfg)) := by
  rw [checkSig, if_neg set, passes]
  dsimp only
  rw [remember_new new]

/-- A later clean-up of a table that it sees whole takes what an earlier one would have. -/
theorem gc_gc {t later : Nat} (short : nonces.items.length ≤ 256) (ordered : t ≤ later) :
    gcNoncesLocked later (gcNoncesLocked t nonces) = gcNoncesLocked later nonces := by
  have whole (t : Nat) (nonces : Nonces) (short : nonces.items.length ≤ 256) :
      (gcNoncesLocked t nonces).items =
        nonces.items.filter fun item => !decide (item.2 ≤ (t : Int)) := by
    rw [gcNoncesLocked_items, List.take_of_length_le short, List.drop_of_length_le short,
      List.append_nil]
  apply Dict.ext
  rw [whole later nonces short, whole later, whole t nonces short, List.filter_filter]
  · apply List.filter_congr
    intro item _
    rw [Bool.eq_iff_iff]
    simp only [Bool.and_eq_true, Bool.not_eq_true', decide_eq_false_iff_not]
    omega
  · rw [whole t nonces short]
    exact (List.length_filter_le _ _).trans short

/-- Nothing is removed from a table without expired nonces among those that are seen. -/
theorem gc_of_standing {t : Nat}
    (standing : ∀ item ∈ nonces.items.take 256, (t : Int) < item.2) :
    gcNoncesLocked t nonces = nonces := by
  apply Dict.ext
  rw [gcNoncesLocked_items, List.filter_eq_self.mpr, List.take_append_drop]
  intro item member
  simpa using standing item member

/-- A nonce that is seen when it has expired goes. -/
theorem get_gc_seen {t : Nat} (item : Nonce × Int) (seen : item ∈ nonces.items.take 256)
    (stale : item.2 ≤ (t : Int)) : (gcNoncesLocked t nonces).get item.1 = none := by
  cases found : (gcNoncesLocked t nonces).get item.1 with
  | none => rfl
  | some exp =>
    have here : nonces.get item.1 = some item.2 := Dict.get_eq_some.mpr (List.mem_of_mem_take seen)
    obtain rfl : item.2 = exp := by
      rw [get_gc found] at here
      exact (Option.some.inj here).symm
    rw [Dict.get_eq_some, gcNoncesLocked_items, List.mem_append] at found
    rcases found with first | last
    · have standing := (List.mem_filter.mp first).2
      simp only [Bool.not_eq_true', decide_eq_false_iff_not] at standing
      exact absurd stale standing
    · have once : nonces.items.Nodup := List.Nodup.of_map _ nonces.distinct
      exact (List.disjoint_take_drop once le_rfl seen last).elim

theorem get_gc_earlier {t later : Nat} {exp : Int} (ordered : t ≤ later)
    (found : (gcNoncesLocked later nonces).get nonce = some exp) :
    (gcNoncesLocked t nonces).get nonce = some exp := by
  rw [Dict.get_eq_some, gcNoncesLocked_items, List.mem_append] at found
  rw [Dict.get_eq_some, gcNoncesLocked_items, List.mem_append]
  rcases found with first | last
  · obtain ⟨member, standing⟩ := List.mem_filter.mp first
    refine Or.inl (List.mem_filter.mpr ⟨member, ?_⟩)
    simp only [Bool.not_eq_true', decide_eq_false_iff_not] at standing ⊢
    omega
  · exact Or.inr last

/-- An earlier clean-up is no matter to a table that is seen whole. -/
theorem sameLater_gc (set : cfg.sk ≠ []) {t : Nat} (short : nonces.items.length ≤ 256) {now : Nat}
    (ordered : t ≤ now) : SameLater cfg now (gcNoncesLocked t nonces) nonces := by
  intro laters
  induction laters generalizing now with
  | nil => rfl
  | cons later laters ih =>
    simp only [laterResults]
    cases passes : precheck cfg (now + later.wait) later.request with
    | none =>
      rw [checkSig_refused set passes, checkSig_refused set passes]
      dsimp only
      rw [ih (by omega)]
    | some nonce =>
      have same : gcNoncesLocked (now + later.wait + later.lockWait) (gcNoncesLocked t nonces) =
          gcNoncesLocked (now + later.wait + later.lockWait) nonces := gc_gc short (by omega)
      simp only [checkSig, if_neg set, passes, remember, same]

/-- A request that somebody with the key makes. -/
def signedRequest (cfg : SigConfig) (ts : Int) (nonce : Nonce) : Request :=
  let unsigned : Request := ⟨startLink, 1, ts, nonce.val, []⟩
  {unsigned with sigHex := cfg.digest.hexdigest cfg.sk (message unsigned)}

theorem signed_signedRequest (cfg : SigConfig) (ts : Int) (nonce : Nonce) :
    signed cfg (signedRequest cfg ts nonce) = true := by
  simp only [signed, signedRequest]
  apply decide_eq_true
  exact (cfg.digest.lower_hexdigest ..).symm

theorem precheck_signedRequest {now : Nat} {ts : Int} (positive : 0 < ts)
    (early : ts ≤ seconds now + cfg.sigSkewSec) (late : seconds now ≤ ts + cfg.sigSkewSec)
    (nonce : Nonce) : precheck cfg now (signedRequest cfg ts nonce) = some nonce := by
  apply precheck_passes rfl (Int.zero_lt_one) nonce.property _ positive early late
  exact cfg.digest.hexdigest_ne_nil _ _

/-- Where one request was in time, another can be later. -/
theorem in_time {readAt : Nat} (now : Nat) (ordered : readAt ≤ now)
    (passes : precheck cfg readAt r = some nonce) :
    ∃ ts, 0 < ts ∧ ts ≤ seconds now + cfg.sigSkewSec ∧ seconds now ≤ ts + cfg.sigSkewSec := by
  obtain ⟨-, positive, early, late⟩ := precheck_spec passes
  have forward : seconds readAt ≤ seconds now := by
    simp only [seconds]
    omega
  by_cases started : 0 < seconds now
  · exact ⟨seconds now, started, by omega, by omega⟩
  · exact ⟨r.ts, positive, by omega, by omega⟩

/-- Somebody with the key is granted exactly what is new. -/
theorem checkSig_signedRequest (set : cfg.sk ≠ []) {readAt : Nat} {ts : Int}
    (passes : precheck cfg readAt (signedRequest cfg ts nonce) = some nonce) (gcAt now : Nat)
    (nonces : Nonces) :
    (checkSig cfg readAt gcAt now (signedRequest cfg ts nonce) nonces).1 = true ↔
      (gcNoncesLocked gcAt nonces).get nonce = none := by
  cases found : (gcNoncesLocked gcAt nonces).get nonce with
  | none =>
    rw [checkSig_new set passes found]
    exact iff_of_true (signed_signedRequest cfg ts nonce) rfl
  | some exp =>
    rw [checkSig_known set passes (by rw [found]; nofun)]
    exact iff_of_false nofun nofun

/-- Whoever is granted from one table is granted from the other. -/
theorem SameLater.granted (set : cfg.sk ≠ []) {now : Nat} {other : Nonces}
    (same : SameLater cfg now nonces other) (wait : Nat) {ts : Int}
    (passes : precheck cfg (now + wait) (signedRequest cfg ts nonce) = some nonce) :
    (gcNoncesLocked (now + wait) nonces).get nonce = none ↔
      (gcNoncesLocked (now + wait) other).get nonce = none := by
  rw [← checkSig_signedRequest set passes (now + wait) (now + wait) nonces,
    ← checkSig_signedRequest set passes (now + wait) (now + wait) other]
  have answer := same [⟨signedRequest cfg ts nonce, wait, 0, 0⟩]
  simp only [laterResults, Nat.add_zero, List.cons.injEq, and_true] at answer
  rw [answer]

/-- A forged request takes its nonce from everybody. -/
theorem not_sameLater_new (set : cfg.sk ≠ []) {readAt wait gcWait : Nat}
    (passes : precheck cfg readAt r = some nonce)
    (new : (gcNoncesLocked (readAt + wait) nonces).get nonce = none) :
    ¬SameLater cfg (readAt + wait + gcWait)
      ((gcNoncesLocked (readAt + wait) nonces).set nonce
        ((readAt + wait + gcWait : Nat) + nonceTtlMs cfg)) nonces := by
  intro same
  obtain ⟨ts, positive, early, late⟩ := in_time (readAt + wait + gcWait) (by omega) passes
  have granted := same.granted set 0 (precheck_signedRequest positive early late nonce)
  have absent : (gcNoncesLocked (readAt + wait + gcWait) nonces).get nonce = none := by
    cases found : (gcNoncesLocked (readAt + wait + gcWait) nonces).get nonce with
    | none => rfl
    | some exp =>
      rw [get_gc_earlier (by omega) found] at new
      cases new
  have taken := granted.mpr absent
  rw [get_gc_of_standing _ Dict.get_set_self] at taken
  · cases taken
  · simp only [nonceTtlMs]
    omega

/-- A clean-up that removes something from a table that it does not see whole lets a later one see
more. -/
theorem not_sameLater_long (set : cfg.sk ≠ []) {readAt wait gcWait : Nat}
    (passes : precheck cfg readAt r = some nonce) (long : 256 < nonces.items.length)
    {item : Nonce × Int} (seen : item ∈ nonces.items.take 256)
    (stale : item.2 ≤ (readAt + wait : Nat)) :
    ¬SameLater cfg (readAt + wait + gcWait) (gcNoncesLocked (readAt + wait) nonces) nonces := by
  intro same
  -- The first nonce that the clean-up does not see, and a time when it has expired.
  let next := nonces.items.get ⟨256, long⟩
  let later := next.2.toNat
  obtain ⟨ts, positive, early, late⟩ :=
    in_time (readAt + wait + gcWait + later) (by omega) passes
  have granted := same.granted set later (precheck_signedRequest positive early late next.1)
  have unseen : nonces.items.drop 256 = next :: nonces.items.drop 257 :=
    List.drop_eq_getElem_cons long
  have stays : (gcNoncesLocked (readAt + wait + gcWait + later) nonces).get next.1 =
      some next.2 := by
    rw [Dict.get_eq_some, gcNoncesLocked_items, unseen]
    exact List.mem_append_right _ List.mem_cons_self
  rw [get_gc_seen next, stays] at granted
  · exact absurd (granted.mp rfl) nofun
  · have removed : ((nonces.items.take 256).filter
        fun item => !decide (item.2 ≤ ((readAt + wait : Nat) : Int))).length < 256 := by
      apply Nat.lt_of_lt_of_le _ (List.length_take_le 256 nonces.items)
      apply List.length_filter_lt_length_iff_exists.mpr
      exact ⟨item, seen, by simpa using stale⟩
    obtain ⟨left, room⟩ := Nat.exists_eq_add_of_lt removed
    rw [gcNoncesLocked_items, unseen, List.take_append, List.mem_append]
    refine Or.inr ?_
    rw [show 256 - _ = left + 1 by omega]
    exact List.mem_cons_self
  · omega

/-- A rejected request changes nothing for the others exactly if it is harmless. -/
theorem sameLater_iff (cfg : SigConfig) (readAt wait gcWait : Nat) (r : Request) (nonces : Nonces)
    (rejected :
      (checkSig cfg readAt (readAt + wait) (readAt + wait + gcWait) r nonces).1 = false) :
    SameLater cfg (readAt + wait + gcWait)
        (checkSig cfg readAt (readAt + wait) (readAt + wait + gcWait) r nonces).2 nonces ↔
      Harmless cfg readAt (readAt + wait) r nonces := by
  have set : cfg.sk ≠ [] := by
    intro unset
    rw [checkSig, if_pos unset] at rejected
    cases rejected
  rw [Harmless]
  cases passes : precheck cfg readAt r with
  | none =>
    rw [checkSig_refused set passes]
    exact iff_of_true (fun _ => rfl) trivial
  | some nonce =>
    dsimp only
    by_cases new : (gcNoncesLocked (readAt + wait) nonces).get nonce = none
    · rw [checkSig_new set passes new]
      exact iff_of_false (not_sameLater_new set passes new) fun harmless => harmless.1 new
    · rw [checkSig_known set passes new]
      constructor
      · intro same
        refine ⟨new, ?_⟩
        by_contra neither
        rw [not_or, Classical.not_forall] at neither
        obtain ⟨⟨item, stale⟩, long⟩ := neither
        obtain ⟨seen, stale⟩ := Classical.not_imp.mp stale
        exact not_sameLater_long set passes (Nat.not_le.mp long) seen (Int.not_lt.mp stale) same
      · rintro ⟨-, standing | short⟩
        · rw [gc_of_standing standing]
          exact fun _ => rfl
        · exact sameLater_gc set short (Nat.le_add_right _ _)

/-- Somebody without the key has seen the nonce of the sample request. -/
def forgedRequest : Request := {sampleRequest with sigHex := ['0']}

def usedNonces : Nonces := Dict.empty.set ⟨"abc123".toList, by decide⟩ 1700000300000

/-- A replay, while the nonce is remembered. -/
theorem sameLater_replay : SameLater (sigConfig 300) 1700000001000
    (checkSig (sigConfig 300) 1700000001000 1700000001000 1700000001000 sampleRequest usedNonces).2
    usedNonces :=
  (sameLater_iff (sigConfig 300) 1700000001000 0 0 sampleRequest usedNonces (by decide)).mpr
    ⟨by decide, Or.inr (by decide)⟩

theorem not_sameLater_forged :
    (checkSig (sigConfig 300) 1700000000000 1700000000000 1700000000000 forgedRequest .empty).1 =
      false ∧
    ¬SameLater (sigConfig 300) 1700000000000
      (checkSig (sigConfig 300) 1700000000000 1700000000000 1700000000000 forgedRequest .empty).2
      .empty := by
  refine ⟨by decide, ?_⟩
  intro same
  have answer := same [⟨sampleRequest, 0, 0, 0⟩]
  exact absurd answer (by decide)

end StreamRelay.Link
