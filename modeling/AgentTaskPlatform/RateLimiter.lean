import AgentTaskPlatform.Arrivals
import AgentTaskPlatform.KeyedTable
import Mathlib.Data.List.Induction
import Mathlib.Data.Rat.Floor

/-!
The rate limiter of the HTTP interface: a token bucket for each caller, filled by the time
between two readings of the clock. Reads for the metrics fill the buckets as well.
-/

namespace AgentTaskPlatform.RateLimiting

open KeyedTable Arrivals

structure TokenBucket where
  capacity : ℚ
  fillRate : ℚ
  tokens : ℚ
  lastRefill : ℚ
  deriving DecidableEq

namespace TokenBucket

def create (capacity fillRate now : ℚ) : TokenBucket := ⟨capacity, fillRate, capacity, now⟩

def refill (bucket : TokenBucket) (now : ℚ) : TokenBucket :=
  let elapsed := now - bucket.lastRefill
  { bucket with
    tokens := min bucket.capacity (bucket.tokens + elapsed * bucket.fillRate)
    lastRefill := now }

def consume (bucket : TokenBucket) (now : ℚ) (tokens : ℚ := 1) : Bool × TokenBucket :=
  let refilled := bucket.refill now
  if tokens ≤ refilled.tokens then
    (true, { refilled with tokens := refilled.tokens - tokens })
  else (false, refilled)

def available (bucket : TokenBucket) (now : ℚ) : ℚ × TokenBucket :=
  let refilled := bucket.refill now
  (refilled.tokens, refilled)

end TokenBucket

structure Limits where
  capacity : ℚ := 100
  fillRate : ℚ := 10

structure Settings where
  enabled : Bool := false
  default : Limits := {}
  callers : List (String × Limits) := []

def Settings.limits (settings : Settings) (caller : String) : Limits :=
  (settings.callers.lookup caller).getD settings.default

abbrev Buckets := Table (String × TokenBucket) String Prod.fst

structure RateLimiter where
  settings : Settings := {}
  buckets : Buckets := Table.empty

namespace RateLimiter

def reconfigure (_ : RateLimiter) (settings : Settings) : RateLimiter where
  settings := settings
  buckets := Table.empty

def bucket (limiter : RateLimiter) (caller : String) : Option TokenBucket :=
  (limiter.buckets.find caller).map Prod.snd

def getBucket (limiter : RateLimiter) (caller : String) (now : ℚ) : TokenBucket :=
  (limiter.bucket caller).getD
    (TokenBucket.create (limiter.settings.limits caller).capacity
      (limiter.settings.limits caller).fillRate now)

/-- `is_allowed`, whose call of `_get_bucket` may read the clock before the refill does. -/
def isAllowed (limiter : RateLimiter) (caller : String) (created now : ℚ) : Bool × RateLimiter :=
  if !limiter.settings.enabled then (true, limiter)
  else
    let (allowed, bucket) := (limiter.getBucket caller created).consume now
    (allowed, { limiter with buckets := limiter.buckets.upsert (caller, bucket) })

def read (now : String → ℚ) : Table.Change (Prod.fst : String × TokenBucket → String) where
  apply row := (row.1, (row.2.available (now row.1)).2)
  keeps _ := rfl

def metrics (limiter : RateLimiter) (now : String → ℚ) :
    List (String × ℚ × ℚ) × RateLimiter :=
  (limiter.buckets.rows.map fun row =>
      (row.1, (row.2.available (now row.1)).1, row.2.capacity),
    { limiter with buckets := limiter.buckets.updateWhere (fun _ => true) (read now) })

end RateLimiter

inductive Call where
  | isAllowed (caller : String) (created now : ℚ)
  | metrics (now : String → ℚ) (returned : ℚ)

namespace Call

def perform (limiter : RateLimiter) : Call → RateLimiter
  | .isAllowed caller created now => (limiter.isAllowed caller created now).2
  | .metrics now _ => (limiter.metrics now).2

def returns : Call → ℚ
  | .isAllowed _ _ now => now
  | .metrics _ returned => returned

def follows (last : ℚ) : Call → Prop
  | .isAllowed _ created now => last ≤ created ∧ created ≤ now
  | .metrics now returned => ∀ caller, last ≤ now caller ∧ now caller ≤ returned

def decision (limiter : RateLimiter) (wanted : String) : Call → Option (ℚ × Bool)
  | .isAllowed caller created now =>
      if caller = wanted then some (now, (limiter.isAllowed caller created now).1) else none
  | .metrics _ _ => none

end Call

def after (limiter : RateLimiter) (calls : List Call) : RateLimiter :=
  calls.foldl Call.perform limiter

def Monotone (last : ℚ) : List Call → Prop
  | [] => True
  | call :: rest => call.follows last ∧ Monotone call.returns rest

def decisions (limiter : RateLimiter) (caller : String) : List Call → List (ℚ × Bool)
  | [] => []
  | call :: rest =>
      decisions (call.perform limiter) caller rest ++ (call.decision limiter caller).toList

def allowedTimes (limiter : RateLimiter) (caller : String) (calls : List Call) : List ℚ :=
  ((decisions limiter caller calls).filter Prod.snd).map Prod.fst

section Calls

variable {limiter : RateLimiter} {caller : String} {call : Call} {last : ℚ}

theorem after_snoc (limiter : RateLimiter) (past : List Call) (call : Call) :
    after limiter (past ++ [call]) = call.perform (after limiter past) := by
  simp [after]

theorem decisions_append (limiter : RateLimiter) (caller : String) (past later : List Call) :
    decisions limiter caller (past ++ later) =
      decisions (after limiter past) caller later ++ decisions limiter caller past := by
  induction past generalizing limiter with
  | nil => simp [decisions, after]
  | cons call rest ih =>
      rw [List.cons_append, decisions, ih, decisions, List.append_assoc]
      rfl

theorem allowedTimes_snoc (limiter : RateLimiter) (caller : String) (past : List Call)
    (call : Call) : allowedTimes limiter caller (past ++ [call]) =
      (((call.decision (after limiter past) caller).toList.filter Prod.snd).map Prod.fst) ++
        allowedTimes limiter caller past := by
  simp [allowedTimes, decisions_append, decisions]

def reading (last : ℚ) (calls : List Call) : ℚ :=
  calls.foldl (fun _ call => call.returns) last

theorem monotone_snoc (past : List Call) (call : Call) :
    Monotone last (past ++ [call]) ↔ Monotone last past ∧ call.follows (reading last past) := by
  induction past generalizing last with
  | nil => simp [Monotone, reading]
  | cons first rest ih =>
      rw [List.cons_append, Monotone, ih, Monotone, and_assoc]
      rfl

theorem perform_settings (limiter : RateLimiter) (call : Call) :
    (call.perform limiter).settings = limiter.settings := by
  cases call with
  | isAllowed other created now =>
      simp only [Call.perform, RateLimiter.isAllowed]
      split <;> rfl
  | metrics now returned => rfl

theorem after_settings (limiter : RateLimiter) (calls : List Call) :
    (after limiter calls).settings = limiter.settings := by
  induction calls using List.reverseRecOn with
  | nil => rfl
  | append_singleton past call ih => rw [after_snoc, perform_settings, ih]

end Calls

section Bound

structure Sound (limiter : RateLimiter) (caller : String) (grants : List ℚ) (last : ℚ) :
    Prop where
  fresh : limiter.bucket caller = none → grants = []
  kept : ∀ bucket, limiter.bucket caller = some bucket →
    bucket.capacity = (limiter.settings.limits caller).capacity ∧
      bucket.fillRate = (limiter.settings.limits caller).fillRate ∧ bucket.lastRefill ≤ last ∧
        Account bucket.capacity bucket.fillRate grants bucket.tokens bucket.lastRefill

variable {limiter : RateLimiter} {caller : String} {call : Call} {last now : ℚ}
  {grants : List ℚ}

/-- What the bucket of a request holds, newly created or not, when its tokens are counted. -/
theorem Sound.refilled (sound : Sound limiter caller grants last)
    (room : 0 ≤ (limiter.settings.limits caller).capacity)
    (fills : 0 ≤ (limiter.settings.limits caller).fillRate) {created : ℚ}
    (after : last ≤ created) (ordered : created ≤ now) :
    ∃ level, (limiter.getBucket caller created).refill now =
        ⟨(limiter.settings.limits caller).capacity, (limiter.settings.limits caller).fillRate,
          level, now⟩ ∧
      Account (limiter.settings.limits caller).capacity
        (limiter.settings.limits caller).fillRate grants level now := by
  cases found : limiter.bucket caller with
  | none =>
      rw [sound.fresh found]
      refine ⟨_, ?_, (Account.opened _ _ created room fills).refill fills ordered⟩
      simp only [RateLimiter.getBucket, found, Option.getD_none, TokenBucket.refill,
        TokenBucket.create]
  | some bucket =>
      obtain ⟨capacity, fillRate, before, account⟩ := sound.kept bucket found
      rw [capacity, fillRate] at account
      refine ⟨_, ?_, account.refill fills (before.trans (after.trans ordered))⟩
      simp only [RateLimiter.getBucket, found, Option.getD_some, TokenBucket.refill, capacity,
        fillRate]

theorem bucket_upsert_self (limiter : RateLimiter) (caller : String) (bucket : TokenBucket) :
    RateLimiter.bucket { limiter with buckets := limiter.buckets.upsert (caller, bucket) } caller =
      some bucket := by
  simp only [RateLimiter.bucket]
  rw [Table.find_upsert_self limiter.buckets (caller, bucket)]
  rfl

theorem bucket_upsert_other {other : String} (bucket : TokenBucket) (different : caller ≠ other) :
    RateLimiter.bucket { limiter with buckets := limiter.buckets.upsert (other, bucket) } caller =
      limiter.bucket caller := by
  simp only [RateLimiter.bucket]
  rw [Table.find_upsert_other limiter.buckets different]

theorem bucket_metrics (limiter : RateLimiter) (caller : String) (readings : String → ℚ) :
    (limiter.metrics readings).2.bucket caller =
      (limiter.bucket caller).map fun bucket => bucket.refill (readings caller) := by
  simp only [RateLimiter.bucket, RateLimiter.metrics, Table.find_updateWhere, Option.map_map]
  cases found : limiter.buckets.find caller with
  | none => rfl
  | some row =>
      have key : row.1 = caller := Table.find_key found
      simp [RateLimiter.read, TokenBucket.available, key]

def granted (limiter : RateLimiter) (caller : String) (call : Call) (grants : List ℚ) : List ℚ :=
  (((call.decision limiter caller).toList.filter Prod.snd).map Prod.fst) ++ grants

theorem Sound.step (sound : Sound limiter caller grants last)
    (enabled : limiter.settings.enabled = true)
    (room : 0 ≤ (limiter.settings.limits caller).capacity)
    (fills : 0 ≤ (limiter.settings.limits caller).fillRate) (follows : call.follows last) :
    Sound (call.perform limiter) caller (granted limiter caller call grants) call.returns := by
  cases call with
  | isAllowed other created now =>
      obtain ⟨began, ended⟩ := follows
      simp only [Call.perform, granted, Call.decision, RateLimiter.isAllowed, enabled,
        Bool.not_true, Bool.false_eq_true, if_false, Call.returns]
      by_cases own : other = caller
      · subst own
        obtain ⟨level, refilled, account⟩ := sound.refilled room fills began ended
        constructor
        · intro missing
          rw [bucket_upsert_self] at missing
          cases missing
        · intro bucket found
          rw [bucket_upsert_self] at found
          cases found
          simp only [TokenBucket.consume, refilled]
          by_cases enough : 1 ≤ level
          · simp only [enough, if_true, Option.toList_some, List.filter_cons_of_pos,
              List.filter_nil, List.map_cons, List.map_nil, List.cons_append, List.nil_append]
            exact ⟨trivial, trivial, le_refl now, account.spend fills enough⟩
          · simp only [enough, if_false, if_true, Option.toList_some, Bool.false_eq_true,
              not_false_eq_true, List.filter_cons_of_neg, List.filter_nil, List.map_nil,
              List.nil_append]
            exact ⟨trivial, trivial, le_refl now, account⟩
      · have different : caller ≠ other := fun same => own same.symm
        simp only [own, if_false, Option.toList_none, List.filter_nil, List.map_nil,
          List.nil_append]
        constructor
        · intro missing
          rw [bucket_upsert_other _ different] at missing
          exact sound.fresh missing
        · intro bucket found
          rw [bucket_upsert_other _ different] at found
          obtain ⟨capacity, fillRate, before, account⟩ := sound.kept bucket found
          exact ⟨capacity, fillRate, before.trans (began.trans ended), account⟩
  | metrics readings returned =>
      obtain ⟨began, ended⟩ := follows caller
      simp only [Call.perform, granted, Call.decision, Option.toList_none, List.filter_nil,
        List.map_nil, List.nil_append, Call.returns]
      constructor
      · intro missing
        rw [bucket_metrics, Option.map_eq_none_iff] at missing
        exact sound.fresh missing
      · intro bucket found
        rw [bucket_metrics, Option.map_eq_some_iff] at found
        obtain ⟨earlier, present, rfl⟩ := found
        obtain ⟨capacity, fillRate, before, account⟩ := sound.kept earlier present
        refine ⟨capacity, fillRate, ended, ?_⟩
        rw [← fillRate] at fills
        exact account.refill fills (before.trans began)

theorem sound_after (enabled : limiter.settings.enabled = true)
    (room : 0 ≤ (limiter.settings.limits caller).capacity)
    (fills : 0 ≤ (limiter.settings.limits caller).fillRate) {calls : List Call}
    (monotone : Monotone last calls) (empty : limiter.buckets = Table.empty) :
    Sound (after limiter calls) caller (allowedTimes limiter caller calls)
      (reading last calls) := by
  induction calls using List.reverseRecOn with
  | nil =>
      have missing : limiter.bucket caller = none := by
        rw [RateLimiter.bucket, empty]
        rfl
      constructor
      · intro _
        rfl
      · intro bucket found
        change limiter.bucket caller = some bucket at found
        rw [missing] at found
        cases found
  | append_singleton past call ih =>
      obtain ⟨earlier, follows⟩ := (monotone_snoc past call).mp monotone
      have settings := after_settings limiter past
      have next := (ih earlier).step (settings ▸ enabled) (settings ▸ room) (settings ▸ fills)
        follows
      rw [after_snoc, allowedTimes_snoc]
      have clock : reading last (past ++ [call]) = call.returns := by simp [reading]
      rw [clock]
      exact next

structure Bounded (limiter : RateLimiter) (caller : String) (calls : List Call) : Prop where
  tokens : ∀ past, past <+: calls → ∀ bucket, (after limiter past).bucket caller = some bucket →
    0 ≤ bucket.tokens ∧ bucket.tokens ≤ (limiter.settings.limits caller).capacity
  allowed : ∀ start stop, start ≤ stop →
    (within (allowedTimes limiter caller calls) start stop : ℚ) ≤
      (limiter.settings.limits caller).capacity +
        (stop - start) * (limiter.settings.limits caller).fillRate
  /-- One more request would have been too much for an interval that ends now. -/
  refused : ∀ past call now, past ++ [call] <+: calls →
    call.decision (after limiter past) caller = some (now, false) →
      ∃ start, start ≤ now ∧ (limiter.settings.limits caller).capacity +
          (now - start) * (limiter.settings.limits caller).fillRate -
        within (allowedTimes limiter caller past) start now < 1

theorem monotone_initial {past calls : List Call} (inside : past <+: calls)
    (monotone : Monotone last calls) : Monotone last past := by
  obtain ⟨later, rfl⟩ := inside
  induction later using List.reverseRecOn with
  | nil => simpa using monotone
  | append_singleton later call ih =>
      rw [← List.append_assoc] at monotone
      exact ih ((monotone_snoc _ call).mp monotone).1

section Empty

variable {calls : List Call} (enabled : limiter.settings.enabled = true)
  (room : 0 < (limiter.settings.limits caller).capacity)
  (fills : 0 ≤ (limiter.settings.limits caller).fillRate) (monotone : Monotone last calls)
  (empty : limiter.buckets = Table.empty)

include enabled room fills monotone empty

theorem tokens_after {bucket : TokenBucket}
    (found : (after limiter calls).bucket caller = some bucket) :
    0 ≤ bucket.tokens ∧ bucket.tokens ≤ (limiter.settings.limits caller).capacity := by
  have sound := sound_after enabled room.le fills monotone empty
  obtain ⟨capacity, _, _, account⟩ := sound.kept bucket found
  rw [after_settings] at capacity
  rw [← capacity]
  exact ⟨account.nonneg, account.level_le⟩

theorem allowed_within {start stop : ℚ} (ordered : start ≤ stop) :
    (within (allowedTimes limiter caller calls) start stop : ℚ) ≤
      (limiter.settings.limits caller).capacity +
        (stop - start) * (limiter.settings.limits caller).fillRate := by
  have sound := sound_after enabled room.le fills monotone empty
  cases found : (after limiter calls).bucket caller with
  | none =>
      have gained := mul_nonneg (sub_nonneg.mpr ordered) fills
      rw [sound.fresh found, within_nil, Nat.cast_zero]
      exact add_nonneg room.le gained
  | some bucket =>
      obtain ⟨capacity, fillRate, _, account⟩ := sound.kept bucket found
      rw [after_settings] at capacity fillRate
      rw [capacity, fillRate] at account
      exact account.bounded start stop ordered

/-- A refusal has found less than one token, and the account that leaves no more. -/
theorem refused_exhausted {now : ℚ} (follows : call.follows (reading last calls))
    (refused : call.decision (after limiter calls) caller = some (now, false)) :
    ∃ start, start ≤ now ∧ (limiter.settings.limits caller).capacity +
        (now - start) * (limiter.settings.limits caller).fillRate -
      within (allowedTimes limiter caller calls) start now < 1 := by
  have sound := sound_after enabled room.le fills monotone empty
  have same := after_settings limiter calls
  cases call with
  | metrics readings returned => cases refused
  | isAllowed other created asked =>
      obtain ⟨began, ended⟩ := follows
      simp only [Call.decision] at refused
      split at refused
      · next own =>
          subst own
          obtain ⟨level, refilled, account⟩ := sound.refilled
            (by rw [same]; exact room.le) (by rw [same]; exact fills) began ended
          simp only [RateLimiter.isAllowed, same, enabled, Bool.not_true, Bool.false_eq_true,
            if_false, TokenBucket.consume, refilled, Option.some.injEq, Prod.mk.injEq] at refused
          obtain ⟨rfl, answer⟩ := refused
          have short : level < 1 := by
            by_contra enough
            rw [if_pos (not_lt.mp enough)] at answer
            cases answer
          obtain ⟨start, before, spent⟩ := account.exhausted short
          rw [same] at spent
          exact ⟨start, before, by linarith⟩
      · cases refused

end Empty

/-- A limiter that is switched on keeps the limits of a caller between two reconfigurations. -/
theorem token_bucket_bound (limiter : RateLimiter) (settings : Settings) (caller : String)
    (calls : List Call) (last : ℚ) (enabled : settings.enabled = true)
    (room : 0 < (settings.limits caller).capacity)
    (fills : 0 ≤ (settings.limits caller).fillRate) (monotone : Monotone last calls) :
    Bounded (limiter.reconfigure settings) caller calls := by
  have empty : (limiter.reconfigure settings).buckets = Table.empty := rfl
  have same : (limiter.reconfigure settings).settings = settings := rfl
  rw [← same] at enabled room fills
  constructor
  · intro past inside bucket found
    exact tokens_after enabled room fills (monotone_initial inside monotone) empty found
  · intro start stop ordered
    exact allowed_within enabled room fills monotone empty ordered
  · intro past call now inside refused
    obtain ⟨earlier, follows⟩ :=
      (monotone_snoc past call).mp (monotone_initial inside monotone)
    exact refused_exhausted enabled room fills earlier empty follows refused

end Bound

def single : Settings := { enabled := true, default := { capacity := 1, fillRate := 1 / 2 } }

def busy : List Call :=
  [.isAllowed "team" 0 0, .metrics (fun _ => 1) 1, .isAllowed "team" 1 1, .isAllowed "team" 2 2]

theorem token_bucket_bound_busy : Bounded (RateLimiter.reconfigure {} single) "team" busy ∧
    decisions (RateLimiter.reconfigure {} single) "team" busy =
      [(2, true), (1, false), (0, true)] := by
  refine ⟨token_bucket_bound {} single "team" busy 0 rfl (by decide +kernel) (by decide +kernel)
    ?_, by decide +kernel⟩
  simp only [busy, Monotone, Call.follows, Call.returns]
  norm_num

/-- The limits of a limiter that is switched off bind nobody. -/
theorem switched_off_unbounded : ∃ (settings : Settings) (calls : List Call),
    0 < (settings.limits "team").capacity ∧ 0 ≤ (settings.limits "team").fillRate ∧
      Monotone 0 calls ∧ ¬ Bounded (RateLimiter.reconfigure {} settings) "team" calls := by
  refine ⟨{ default := { capacity := 1, fillRate := 0 } },
    [.isAllowed "team" 0 0, .isAllowed "team" 0 0], by decide +kernel, by decide +kernel, ?_, ?_⟩
  · simp [Monotone, Call.follows, Call.returns]
  · intro bounded
    have allowed := bounded.allowed 0 0 (le_refl 0)
    revert allowed
    decide +kernel

end AgentTaskPlatform.RateLimiting
