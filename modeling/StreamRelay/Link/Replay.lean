import StreamRelay.Link.Signature
import StreamRelay.Run

/-! The life of the startLink server: calls of check_sig in any order of their locks, and how often one
request is granted. -/
namespace StreamRelay.Link

open PyText

/-- A call that has passed the checks before the lock waits for it. -/
inductive CallStage where
  | waiting (request : Request) (nonce : Nonce) (readAt : Nat)
  | answered
  deriving DecidableEq

/-- Calls that come to the lock are numbered. -/
structure ReplayState where
  nonces : Nonces
  now : Nat
  calls : Nat → CallStage
  made : Nat
  granted : List Request

def ReplayState.start (now : Nat) : ReplayState := ⟨.empty, now, fun _ => .answered, 0, []⟩

/-- A call comes, or one gets the lock; and how much later the clock is read then. -/
inductive ReplayInput where
  | call (request : Request) (wait : Nat)
  | enter (id : Nat) (wait gcWait : Nat)

def replayStep (cfg : SigConfig) (s : ReplayState) : ReplayInput → ReplayState
  | .call request wait =>
    let s := {s with now := s.now + wait}
    if cfg.sk = [] then {s with granted := s.granted ++ [request]}
    else
      match precheck cfg s.now request with
      | none => s
      | some nonce =>
        {s with
          calls := Function.update s.calls s.made (.waiting request nonce s.now)
          made := s.made + 1}
  | .enter id wait gcWait =>
    match s.calls id with
    | .answered => s
    | .waiting request nonce _ =>
      let (new, nonces) :=
        remember cfg (s.now + wait) (s.now + wait + gcWait) nonce s.nonces
      {s with
        nonces := nonces
        now := s.now + wait + gcWait
        calls := Function.update s.calls id .answered
        granted := if new && signed cfg request then s.granted ++ [request] else s.granted}

def replayRun (cfg : SigConfig) (start : Nat) (inputs : List ReplayInput) : ReplayState :=
  Run.run (replayStep cfg) (.start start) inputs

/-- What a replay repeats. -/
def Request.Repeats (r other : Request) : Prop :=
  r.streamId = other.streamId ∧ r.ts = other.ts ∧ r.nonce = other.nonce ∧ r.sigHex = other.sigHex

def OnceEach (s : ReplayState) : Prop := s.granted.Pairwise fun r other => ¬r.Repeats other

/-- A nonce is kept for longer than a request can be in time, with the time for which a call that is
in time has waited for the lock. -/
def Prompt (cfg : SigConfig) (s : ReplayState) : ReplayInput → Prop
  | .call _ _ => True
  | .enter id wait _ =>
    match s.calls id with
    | .answered => True
    | .waiting _ _ readAt =>
      1000 * (2 * cfg.sigSkewSec + 1) + ((s.now + wait : Nat) - readAt : Int) ≤ nonceTtlMs cfg

/-- A granted request is still remembered, unless it is time to forget it. -/
def Remembered (cfg : SigConfig) (s : ReplayState) (r : Request) : Prop :=
  ∃ nonce readAt exp, precheck cfg readAt r = some nonce ∧ (readAt + nonceTtlMs cfg : Int) ≤ exp ∧
    (exp ≤ s.now ∨ s.nonces.get nonce = some exp)

structure Guarded (cfg : SigConfig) (s : ReplayState) : Prop where
  waits : ∀ id request nonce readAt, s.calls id = .waiting request nonce readAt →
    readAt ≤ s.now ∧ precheck cfg readAt request = some nonce
  past : ∀ r ∈ s.granted, Remembered cfg s r
  once : OnceEach s

variable {cfg : SigConfig} {s t : ReplayState}

/-- A call that nobody comes between answers as check_sig. -/
theorem call_enter (cfg : SigConfig) (r : Request) (wait lockWait gcWait : Nat)
    (unused : s.calls s.made = .answered) :
    let t := replayStep cfg (replayStep cfg s (.call r wait)) (.enter s.made lockWait gcWait)
    let answer := checkSig cfg (s.now + wait) (s.now + wait + lockWait)
      (s.now + wait + lockWait + gcWait) r s.nonces
    t.granted = (if answer.1 then s.granted ++ [r] else s.granted) ∧ t.nonces = answer.2 := by
  by_cases set : cfg.sk = []
  · simp only [replayStep, checkSig, if_pos set, unused, if_true, and_self]
  · cases passes : precheck cfg (s.now + wait) r with
    | none =>
      simp only [replayStep, checkSig, if_neg set, passes, unused, Bool.false_eq_true, if_false,
        and_self]
    | some nonce =>
      simp only [replayStep, checkSig, if_neg set, passes, Function.update_self]
      cases remembered : remember cfg (s.now + wait + lockWait)
        (s.now + wait + lockWait + gcWait) nonce s.nonces with
      | mk new nonces =>
        cases new with
        | false => exact ⟨rfl, rfl⟩
        | true => exact ⟨rfl, rfl⟩

/-- Time goes by, other nonces go, and others come. -/
theorem Remembered.later {r : Request} (remembered : Remembered cfg s r) (now : s.now ≤ t.now)
    (kept : ∀ nonce exp, (t.now : Int) < exp → s.nonces.get nonce = some exp →
      t.nonces.get nonce = some exp) : Remembered cfg t r := by
  obtain ⟨nonce, readAt, exp, passes, long, known⟩ := remembered
  refine ⟨nonce, readAt, exp, passes, long, ?_⟩
  by_cases expired : exp ≤ t.now
  · exact Or.inl expired
  · refine Or.inr (kept nonce exp (Int.not_le.mp expired) (known.resolve_left ?_))
    omega

/-- Who is granted a request that was granted comes too late. -/
theorem Remembered.repeated {r other : Request} {gcAt readAt : Nat} {nonce : Nonce}
    (remembered : Remembered cfg s other) (now : s.now ≤ gcAt)
    (passes : precheck cfg readAt r = some nonce)
    (prompt : 1000 * (2 * cfg.sigSkewSec + 1) + ((gcAt : Int) - readAt) ≤ nonceTtlMs cfg)
    (new : (gcNoncesLocked gcAt s.nonces).get nonce = none) : ¬other.Repeats r := by
  rintro ⟨-, ts, named, -⟩
  obtain ⟨nonce', readAt', exp, passes', long, known⟩ := remembered
  obtain ⟨name, -, -, old⟩ := precheck_spec passes
  obtain ⟨name', -, early, -⟩ := precheck_spec passes'
  obtain rfl : nonce' = nonce := Subtype.ext (by rw [name, name', named])
  have expired : exp ≤ gcAt := by
    by_contra standing
    have there : s.nonces.get nonce' = some exp := known.resolve_left (by omega)
    rw [get_gc_of_standing (Int.not_le.mp standing) there] at new
    cases new
  rw [ts] at early
  simp only [seconds] at early old
  omega

/-- A nonce that stands is not forgotten for another. -/
theorem remember_keeps {gcAt now : Nat} {nonce other : Nonce} {nonces : Nonces} {exp : Int}
    (standing : (gcAt : Int) < exp) (found : nonces.get other = some exp) :
    (remember cfg gcAt now nonce nonces).2.get other = some exp := by
  have stays := get_gc_of_standing standing found
  cases known : (gcNoncesLocked gcAt nonces).get nonce with
  | some exp' =>
    rw [remember_known (by rw [known]; nofun)]
    exact stays
  | none =>
    have apart : other ≠ nonce := by
      rintro rfl
      rw [known] at stays
      cases stays
    rw [remember_new known, Dict.get_set_other apart]
    exact stays

theorem start_guarded (cfg : SigConfig) (now : Nat) : Guarded cfg (.start now) :=
  ⟨fun _ _ _ _ => nofun, fun _ => nofun, List.Pairwise.nil⟩

theorem Guarded.call (guarded : Guarded cfg s) (set : cfg.sk ≠ []) (request : Request)
    (wait : Nat) : Guarded cfg (replayStep cfg s (.call request wait)) := by
  have later {r : Request} (t : ReplayState) (nonces : t.nonces = s.nonces)
      (now : t.now = s.now + wait) (granted : r ∈ s.granted) : Remembered cfg t r := by
    apply (guarded.past r granted).later (by omega)
    intro nonce exp _ found
    rw [nonces]
    exact found
  have waits {id : Nat} {r : Request} {nonce : Nonce} {readAt : Nat}
      (stands : s.calls id = .waiting r nonce readAt) :
      readAt ≤ s.now + wait ∧ precheck cfg readAt r = some nonce := by
    obtain ⟨before, passes⟩ := guarded.waits id r nonce readAt stands
    exact ⟨by omega, passes⟩
  simp only [replayStep, if_neg set]
  split
  · exact ⟨fun _ _ _ _ => waits, fun r => later _ rfl rfl, guarded.once⟩
  · rename_i nonce passes
    refine ⟨?_, fun r => later _ rfl rfl, guarded.once⟩
    apply (Function.forall_update_iff s.calls fun _ stage => ∀ r nonce readAt,
      stage = .waiting r nonce readAt →
        readAt ≤ s.now + wait ∧ precheck cfg readAt r = some nonce).mpr
    refine ⟨?_, fun _ _ _ _ _ => waits⟩
    intro r nonce' readAt stands
    obtain ⟨rfl, rfl, rfl⟩ := CallStage.waiting.inj stands
    exact ⟨le_rfl, passes⟩

theorem Guarded.enter (guarded : Guarded cfg s) {id wait : Nat} (gcWait : Nat)
    (prompt : Prompt cfg s (.enter id wait gcWait)) :
    Guarded cfg (replayStep cfg s (.enter id wait gcWait)) := by
  cases stands : s.calls id with
  | answered =>
    simp only [replayStep, stands]
    exact guarded
  | waiting request nonce readAt =>
    obtain ⟨before, passes⟩ := guarded.waits id request nonce readAt stands
    simp only [Prompt, stands] at prompt
    have keeps (t : ReplayState) (now : t.now = s.now + wait + gcWait)
        (nonces : t.nonces =
          (remember cfg (s.now + wait) (s.now + wait + gcWait) nonce s.nonces).2)
        {r : Request} (granted : r ∈ s.granted) : Remembered cfg t r := by
      apply (guarded.past r granted).later (by omega)
      intro other exp standing found
      rw [nonces]
      apply remember_keeps _ found
      omega
    have waits : ∀ other r nonce' readAt',
        Function.update s.calls id .answered other = .waiting r nonce' readAt' →
          readAt' ≤ s.now + wait + gcWait ∧ precheck cfg readAt' r = some nonce' := by
      apply (Function.forall_update_iff s.calls fun _ stage => ∀ r nonce' readAt',
        stage = .waiting r nonce' readAt' →
          readAt' ≤ s.now + wait + gcWait ∧ precheck cfg readAt' r = some nonce').mpr
      refine ⟨fun _ _ _ => nofun, ?_⟩
      intro other _ r nonce' readAt' waiting
      obtain ⟨before, passes⟩ := guarded.waits other r nonce' readAt' waiting
      exact ⟨by omega, passes⟩
    simp only [replayStep, stands]
    cases granted :
        (remember cfg (s.now + wait) (s.now + wait + gcWait) nonce s.nonces).1 && signed cfg request with
    | false =>
      refine ⟨waits, ?_, ?_⟩
      · exact fun r => keeps _ rfl rfl
      · exact guarded.once
    | true =>
      have new : (gcNoncesLocked (s.now + wait) s.nonces).get nonce = none := by
        by_contra known
        rw [remember_known known] at granted
        cases granted
      refine ⟨waits, ?_, ?_⟩
      · intro r member
        rcases List.mem_append.mp member with old | last
        · exact keeps _ rfl rfl old
        · rw [List.mem_singleton.mp last]
          let exp : Int := (s.now + wait + gcWait : Nat) + nonceTtlMs cfg
          refine ⟨nonce, readAt, exp, passes, by omega, Or.inr ?_⟩
          change (remember cfg _ _ nonce s.nonces).2.get nonce = some exp
          rw [remember_new new, Dict.get_set_self]
      · apply List.pairwise_append.mpr
        refine ⟨guarded.once, List.pairwise_singleton _ _, ?_⟩
        intro other old r last
        rw [List.mem_singleton.mp last]
        exact (guarded.past other old).repeated (Nat.le_add_right _ _) passes prompt new

theorem step_guarded (set : cfg.sk ≠ []) (input : ReplayInput) (guarded : Guarded cfg s)
    (prompt : Prompt cfg s input) : Guarded cfg (replayStep cfg s input) := by
  cases input with
  | call request wait => exact guarded.call set request wait
  | enter id wait gcWait => exact guarded.enter gcWait prompt

theorem run_guarded (set : cfg.sk ≠ []) (start : Nat) (inputs : List ReplayInput)
    (always : Run.Always (replayStep cfg) (.start start) (Prompt cfg) inputs) :
    Guarded cfg (replayRun cfg start inputs) :=
  Run.history_while (replayStep cfg) (.start start) (Prompt cfg) (fun _ s => Guarded cfg s)
    (start_guarded cfg start) (fun _ input guarded prompt => step_guarded set input guarded prompt)
    inputs always

theorem run_once (cfg : SigConfig) (set : cfg.sk ≠ []) (start : Nat) (inputs : List ReplayInput)
    (always : Run.Always (replayStep cfg) (.start start) (Prompt cfg) inputs) :
    OnceEach (replayRun cfg start inputs) :=
  (run_guarded set start inputs always).once

instance (cfg : SigConfig) (s : ReplayState) : (input : ReplayInput) → Decidable (Prompt cfg s input)
  | .call _ _ => isTrue trivial
  | .enter id wait _ =>
    match stands : s.calls id with
    | .answered => isTrue (by simp only [Prompt, stands])
    | .waiting _ _ readAt =>
      decidable_of_iff
        (1000 * (2 * cfg.sigSkewSec + 1) + ((s.now + wait : Nat) - readAt : Int) ≤ nonceTtlMs cfg)
        (by simp only [Prompt, stands])

/-- The digest of the sample request under the key "k". -/
def sampleHex : Text :=
  "49d458b2ce9f47759726c2287fe2b51e06e3c60d008f786adb480b39f62dafcd".toList

def sampleDigest : Digest where
  lower := List.map Char.toLower
  hexdigest _ _ := sampleHex
  lower_hexdigest _ _ := by decide
  hexdigest_ne_nil _ _ := by decide

def sigConfig (nonceTtlSec : Int) : SigConfig := ⟨sampleDigest, ['k'], 60, nonceTtlSec⟩

/-- A client whose clock is a minute ahead of the server's. -/
def sampleRequest : Request :=
  ⟨startLink, 1, 1700000060, "abc123".toList, sampleHex⟩

/-- The request comes, and again after so many milliseconds. -/
def twice (between : Nat) : List ReplayInput :=
  [.call sampleRequest 0, .enter 0 0 0, .call sampleRequest between, .enter 1 0 0]

theorem run_once_default : OnceEach (replayRun (sigConfig 300) 1700000000000 (twice 60000)) :=
  run_once (sigConfig 300) (by decide) 1700000000000 (twice 60000) (by decide)

/-- Nonces are kept for as long as the skew. -/
theorem not_once_short : ¬OnceEach (replayRun (sigConfig 60) 1700000000000 (twice 60000)) := by
  have granted : (replayRun (sigConfig 60) 1700000000000 (twice 60000)).granted =
      [sampleRequest, sampleRequest] := by
    decide
  rw [OnceEach, granted]
  intro once
  exact (List.pairwise_cons.mp once).1 sampleRequest List.mem_cons_self ⟨rfl, rfl, rfl, rfl⟩

end StreamRelay.Link
