import GridProof.Lib.Cut
import GridProof.Lib.Keyed
import GridProof.Limiter.RateLimit

/-!
# What passes in a bucket

* `bucketKey_inj`   the counters of two buckets are never shared;
* `local_part`      the counters of a bucket are moved by its requests only;
* `passed_iff`      at most the limit passes in a bucket iff no more requests come, or one counter counts them all
                    and still stands when the last of them is counted.

A bucket whose first requests were counted by Redis and a later one in memory is counted from zero again.
-/

namespace RateLimit

/-! ## keys -/

theorem name_no_colon (limiter : Limiter) : ':' ∉ limiter.name.toList := by
  cases limiter <;> decide

theorem bucket_no_colon (bucket : ℕ) : ':' ∉ (toString bucket).toList := by
  intro h
  have hmem : ':' ∈ Nat.toDigits 10 bucket := by simpa using h
  exact absurd (Nat.isDigit_of_mem_toDigits (by decide) (by decide) hmem) (by decide)

theorem bucket_text_inj {bucket bucket' : ℕ} (h : (toString bucket).toList = (toString bucket').toList) :
    bucket = bucket' := by
  have hdigits : Nat.toDigits 10 bucket = Nat.toDigits 10 bucket' := by simpa using h
  have hread := congrArg (fun t => Nat.ofDigitChars 10 t 0) hdigits
  simpa only [Nat.ofDigitChars_toDigits (b := 10) (by decide) (by decide)] using hread

theorem name_inj {limiter limiter' : Limiter} (h : limiter.name.toList = limiter'.name.toList) :
    limiter = limiter' := by
  revert h
  cases limiter <;> cases limiter' <;> decide

theorem bucketKey_toList (limiter : Limiter) (identity : String) (bucket : ℕ) :
    (bucketKey limiter identity bucket).toList = "gridproof:rate-limit:".toList ++
      (limiter.name.toList ++ ':' :: (identity.toList ++ ':' :: (toString bucket).toList)) := by
  unfold bucketKey
  simp [String.toList_append]

theorem bucketKey_inj {limiter limiter' : Limiter} {identity identity' : String} {bucket bucket' : ℕ} :
    bucketKey limiter identity bucket = bucketKey limiter' identity' bucket' ↔
      limiter = limiter' ∧ identity = identity' ∧ bucket = bucket' := by
  constructor
  · intro h
    have htext := congrArg String.toList h
    rw [bucketKey_toList, bucketKey_toList] at htext
    have hrest := List.append_cancel_left htext
    obtain ⟨hname, hrest⟩ := Cut.cut_first (name_no_colon _) (name_no_colon _) hrest
    obtain ⟨hbucket, hidentity⟩ := Cut.cut_last (bucket_no_colon _) (bucket_no_colon _) hrest
    exact ⟨(name_inj hname).symm, String.toList_inj.mp hidentity, (bucket_text_inj hbucket).symm⟩
  · rintro ⟨rfl, rfl, rfl⟩
    rfl

/-! ## the counters of one bucket -/

/-- what is held for one key -/
structure Part where
  redis : Option RedisEntry
  fallback : Bool
  memory : Option MemoryEntry

def Counters.part (s : Counters) (key : String) : Part :=
  ⟨s.redis.get? key, decide (key ∈ s.redisFallbackKeys), s.memoryCounters.get? key⟩

def Part.empty : Part := ⟨none, false, none⟩

theorem empty_part (key : String) : Counters.empty.part key = Part.empty := rfl

/-- Redis answers the request -/
def Part.byRedis (env : Env) (p : Part) (r : Request) : Prop :=
  env.redis = true ∧ p.fallback = false ∧ r.attempt = .answered

instance (env : Env) (p : Part) (r : Request) : Decidable (p.byRedis env r) :=
  inferInstanceAs (Decidable (_ ∧ _ ∧ _))

/-- `incrementRateLimit`, on what is held for the request's key -/
def Part.count (env : Env) (p : Part) (r : Request) : Part × Counted :=
  if p.byRedis env r then
    let entry := expire (incr p.redis r.clock.incr) env.window r.clock.pexpire
    ({ p with redis := some entry }, ⟨entry.count, bucketResetFor env.window r.clock.settled⟩)
  else
    let entry := nextMemoryEntry p.memory env.window r.clock
    let tried := env.redis = true ∧ p.fallback = false
    (⟨if tried then nextRedisEntry p.redis env.window r.clock r.attempt else p.redis,
      p.fallback || decide tried, some entry⟩, ⟨entry.count, entry.resetAt⟩)

/-- `rateLimit`, on what is held for the request's key -/
def Part.reply (env : Env) (p : Part) (r : Request) : Part × Reply :=
  ((p.count env r).1, RateLimit.reply (env.limit r.limiter) (p.count env r).2 r.clock.replied)

section
variable (s : Counters) (key : String) {key' : String} (windowMs : ℕ) (clock : Clock)

theorem incrementMemoryCounter_part :
    (incrementMemoryCounter s key windowMs clock).1.part key =
      { s.part key with memory := some (nextMemoryEntry (s.part key).memory windowMs clock) } := by
  show Part.mk _ _ ((s.memoryCounters.set key _).get? key) = _
  rw [OrderedMap.get?_set_self]
  rfl

theorem incrementMemoryCounter_other (h : key' ≠ key) :
    (incrementMemoryCounter s key windowMs clock).1.part key' = s.part key' := by
  show Part.mk _ _ ((s.memoryCounters.set key _).get? key') = _
  rw [OrderedMap.get?_set_of_ne h]
  rfl

theorem incrementRedisCounter_part (attempt : Attempt) :
    (incrementRedisCounter s key windowMs clock attempt).1.part key =
      { s.part key with redis := nextRedisEntry (s.part key).redis windowMs clock attempt } := by
  show _ = Part.mk (nextRedisEntry (s.redis.get? key) windowMs clock attempt) _ _
  unfold incrementRedisCounter
  cases hnext : nextRedisEntry (s.redis.get? key) windowMs clock attempt with
  | none =>
    show Part.mk (s.redis.get? key) _ _ = _
    cases attempt with
    | lost => rw [show s.redis.get? key = none from hnext]; rfl
    | _ => cases hnext
  | some entry =>
    show Part.mk ((s.redis.set key entry).get? key) _ _ = _
    rw [OrderedMap.get?_set_self]
    rfl

theorem incrementRedisCounter_other (attempt : Attempt) (h : key' ≠ key) :
    (incrementRedisCounter s key windowMs clock attempt).1.part key' = s.part key' := by
  unfold incrementRedisCounter
  cases nextRedisEntry (s.redis.get? key) windowMs clock attempt with
  | none => rfl
  | some entry =>
    show Part.mk ((s.redis.set key entry).get? key') _ _ = _
    rw [OrderedMap.get?_set_of_ne h]
    rfl

theorem incrementRedisCounter_failed {attempt : Attempt} (h : attempt ≠ .answered) :
    incrementRedisCounter s key windowMs clock attempt =
      ((incrementRedisCounter s key windowMs clock attempt).1, none) := by
  refine Prod.ext rfl ?_
  show (incrementRedisCounter s key windowMs clock attempt).2 = none
  unfold incrementRedisCounter
  cases nextRedisEntry (s.redis.get? key) windowMs clock attempt with
  | none => rfl
  | some entry => exact if_neg h

end

/-! ## one request -/

section
variable {env : Env} {s : Counters} {key key' : String} {r : Request}

theorem Part.count_redis {p : Part} (h : p.byRedis env r) : p.count env r =
    ({ p with redis := some (expire (incr p.redis r.clock.incr) env.window r.clock.pexpire) },
      ⟨(expire (incr p.redis r.clock.incr) env.window r.clock.pexpire).count,
        bucketResetFor env.window r.clock.settled⟩) := if_pos h

theorem Part.count_memory {p : Part} (h : ¬ p.byRedis env r) : p.count env r =
    (⟨if env.redis = true ∧ p.fallback = false then
          nextRedisEntry p.redis env.window r.clock r.attempt else p.redis,
        p.fallback || decide (env.redis = true ∧ p.fallback = false),
        some (nextMemoryEntry p.memory env.window r.clock)⟩,
      ⟨(nextMemoryEntry p.memory env.window r.clock).count,
        (nextMemoryEntry p.memory env.window r.clock).resetAt⟩) := if_neg h

theorem part_fallback_false : (s.part key).fallback = false ↔ key ∉ s.redisFallbackKeys := decide_eq_false_iff_not

/-- the counters of a key are counted as their part says -/
theorem incrementRateLimit_part :
    (incrementRateLimit env s key r.clock r.attempt).1.part key = ((s.part key).count env r).1 ∧
      (incrementRateLimit env s key r.clock r.attempt).2 = ((s.part key).count env r).2 := by
  unfold incrementRateLimit
  by_cases htry : env.redis = true ∧ key ∉ s.redisFallbackKeys
  · rw [if_pos htry]
    have hfallback := part_fallback_false.mpr htry.2
    have hpart := incrementRedisCounter_part s key env.window r.clock r.attempt
    by_cases hattempt : r.attempt = .answered
    · rw [Part.count_redis ⟨htry.1, hfallback, hattempt⟩]
      rw [hattempt] at hpart ⊢
      exact ⟨hpart, rfl⟩
    · have hmemory : ¬ (s.part key).byRedis env r := fun h => hattempt h.2.2
      rw [Part.count_memory hmemory, if_pos ⟨htry.1, hfallback⟩,
        incrementRedisCounter_failed s key env.window r.clock hattempt]
      generalize (incrementRedisCounter s key env.window r.clock r.attempt).1 = t at hpart
      have hcount := incrementMemoryCounter_part { t with redisFallbackKeys := key :: t.redisFallbackKeys }
        key env.window r.clock
      have hmemory : t.memoryCounters.get? key = (s.part key).memory := congrArg Part.memory hpart
      have hredis : t.redis.get? key = nextRedisEntry (s.part key).redis env.window r.clock r.attempt :=
        congrArg Part.redis hpart
      constructor
      · refine hcount.trans ?_
        show Part.mk (t.redis.get? key) (decide (key ∈ key :: t.redisFallbackKeys))
          (some (nextMemoryEntry (t.memoryCounters.get? key) _ _)) = _
        rw [hredis, hmemory, hfallback]
        simp [htry.1]
      · show Counted.mk (nextMemoryEntry (t.memoryCounters.get? key) _ _).count _ = _
        rw [hmemory]
  · rw [if_neg htry, incrementMemoryCounter_part]
    have hmemory : ¬ (s.part key).byRedis env r := fun h => htry ⟨h.1, part_fallback_false.mp h.2.1⟩
    have htry' : ¬ (env.redis = true ∧ (s.part key).fallback = false) :=
      fun h => htry ⟨h.1, part_fallback_false.mp h.2⟩
    rw [Part.count_memory hmemory, if_neg htry', decide_eq_false htry', Bool.or_false]
    exact ⟨rfl, rfl⟩

theorem incrementRateLimit_other (h : key' ≠ key) :
    (incrementRateLimit env s key r.clock r.attempt).1.part key' = s.part key' := by
  unfold incrementRateLimit
  by_cases htry : env.redis = true ∧ key ∉ s.redisFallbackKeys
  · rw [if_pos htry]
    have hpart := incrementRedisCounter_other s key env.window r.clock r.attempt h
    by_cases hattempt : r.attempt = .answered
    · rw [hattempt] at hpart ⊢
      exact hpart
    · rw [incrementRedisCounter_failed s key env.window r.clock hattempt]
      refine (incrementMemoryCounter_other _ key env.window r.clock h).trans ?_
      rw [← hpart]
      refine congrArg (fun fallback => Part.mk _ fallback _) (decide_eq_decide.mpr ?_)
      rw [List.mem_cons, or_iff_right h]
  · rw [if_neg htry]
    exact incrementMemoryCounter_other s key env.window r.clock h

end

section
variable [JsText.Runtime] (env : Env)

/-- **the counters of a bucket are moved by its requests only**, and decide alone what they are answered -/
theorem local_part : Keyed.Local (rateLimit env) (fun r => r.counterKey env.window) Counters.part
    (Part.reply env) where
  answer _ _ := congrArg (fun c => RateLimit.reply _ c _) incrementRateLimit_part.2
  own _ _ := incrementRateLimit_part.1
  other _ _ _ h := incrementRateLimit_other h

end

/-! ## runs of requests of one bucket -/

theorem reply_error_none {limit : ℕ} {result : Counted} {now : ℕ} :
    (RateLimit.reply limit result now).error = none ↔ result.count ≤ limit := by
  unfold RateLimit.reply
  by_cases h : limit < result.count
  · rw [if_pos h]
    exact iff_of_false nofun (by omega)
  · rw [if_neg h]
    exact iff_of_true rfl (by omega)

/-- the number of requests that pass -/
def passed (answered : List (Request × Reply)) : ℕ := answered.countP fun e => e.2.error = none

theorem passed_append (as bs : List (Request × Reply)) : passed (as ++ bs) = passed as + passed bs :=
  List.countP_append

theorem passed_le_length (as : List (Request × Reply)) : passed as ≤ as.length := List.countP_le_length

theorem passed_cons (e : Request × Reply) (as : List (Request × Reply)) :
    passed (e :: as) = passed as + if e.2.error = none then 1 else 0 := by
  unfold passed
  rw [List.countP_cons]
  simp

/-- a run that goes on in memory -/
def Part.InMemory (env : Env) (p : Part) : Prop := env.redis = true → p.fallback = true

theorem Part.InMemory.not_byRedis {env : Env} {p : Part} {r : Request} (h : p.InMemory env) : ¬ p.byRedis env r := by
  rintro ⟨hredis, hfallback, -⟩
  rw [h hredis] at hfallback
  cases hfallback

/-- a request that Redis does not answer is counted in memory, and so are those after it -/
theorem Part.inMemory_count {env : Env} {p : Part} {r : Request} (h : ¬ p.byRedis env r) :
    (p.count env r).1.InMemory env := by
  intro hredis
  rw [Part.count_memory h]
  cases hfallback : p.fallback with
  | true => simp
  | false => simp [hredis]

section
variable {env : Env} {limit : ℕ}

/-- the requests of a run find the same limit -/
def Limited (env : Env) (limit : ℕ) (rs : List Request) : Prop := ∀ r ∈ rs, env.limit r.limiter = limit

theorem passed_reply {p : Part} {r : Request} {rs : List Request} (hlimit : env.limit r.limiter = limit) :
    passed (Keyed.answers (Part.reply env) p (r :: rs)) =
      passed (Keyed.answers (Part.reply env) (p.count env r).1 rs) +
        if (p.count env r).2.count ≤ limit then 1 else 0 := by
  rw [Keyed.answers_cons, passed_cons, ← hlimit]
  have hiff : (p.reply env r).2.error = none ↔ (p.count env r).2.count ≤ env.limit r.limiter := reply_error_none
  simp only [hiff]
  rfl

/-- the memory counter goes on while it stands -/
theorem memory_run {resetAt : ℕ} {rs : List Request} (hlimit : Limited env limit rs)
    (htime : ∀ r ∈ rs, r.clock.counted < resetAt) {p : Part} {count : ℕ} (hp : p.InMemory env)
    (hmemory : p.memory = some ⟨count, resetAt⟩) :
    passed (Keyed.answers (Part.reply env) p rs) = min rs.length (limit - count) ∧
      (Keyed.final (Part.reply env) p rs).InMemory env ∧
      (Keyed.final (Part.reply env) p rs).memory = some ⟨count + rs.length, resetAt⟩ := by
  induction rs generalizing p count with
  | nil => exact ⟨by simp [Keyed.answers, passed], hp, hmemory⟩
  | cons r rs ih =>
    obtain ⟨hr, hrs⟩ := List.forall_mem_cons.mp hlimit
    obtain ⟨htr, htrs⟩ := List.forall_mem_cons.mp htime
    have hentry : nextMemoryEntry p.memory env.window r.clock = ⟨count + 1, resetAt⟩ := by
      rw [hmemory]
      exact if_neg (Nat.not_le.mpr htr)
    have hcount := Part.count_memory hp.not_byRedis (r := r)
    rw [hentry] at hcount
    have hnext : (p.count env r).1.memory = some ⟨count + 1, resetAt⟩ := by rw [hcount]
    have hthis : (p.count env r).2.count = count + 1 := by rw [hcount]
    obtain ⟨hpassed, hin, hfinal⟩ := ih hrs htrs (Part.inMemory_count hp.not_byRedis) hnext
    refine ⟨?_, hin, ?_⟩
    · rw [passed_reply hr, hpassed, hthis, List.length_cons]
      split <;> omega
    · refine hfinal.trans ?_
      rw [List.length_cons, Nat.add_right_comm, Nat.add_assoc]

/-- Redis's counter goes on while it stands -/
theorem redis_run {expiresAt : ℕ} {rs : List Request} (hlimit : Limited env limit rs)
    (htime : ∀ r ∈ rs, r.attempt = .answered ∧ r.clock.incr < expiresAt) (henv : env.redis = true) {p : Part}
    {count : ℕ} (hp : p.fallback = false) (hpos : 0 < count) (hredis : p.redis = some ⟨count, some expiresAt⟩) :
    passed (Keyed.answers (Part.reply env) p rs) = min rs.length (limit - count) ∧
      (Keyed.final (Part.reply env) p rs).fallback = false ∧
      (Keyed.final (Part.reply env) p rs).redis = some ⟨count + rs.length, some expiresAt⟩ ∧
      (Keyed.final (Part.reply env) p rs).memory = p.memory := by
  induction rs generalizing p count with
  | nil => exact ⟨by simp [Keyed.answers, passed], hp, hredis, rfl⟩
  | cons r rs ih =>
    obtain ⟨hr, hrs⟩ := List.forall_mem_cons.mp hlimit
    obtain ⟨⟨hanswered, htr⟩, htrs⟩ := List.forall_mem_cons.mp htime
    have hentry : expire (incr p.redis r.clock.incr) env.window r.clock.pexpire = ⟨count + 1, some expiresAt⟩ := by
      have hstands : incr p.redis r.clock.incr = ⟨count + 1, some expiresAt⟩ := by
        rw [hredis]
        exact if_neg (by simpa using htr)
      rw [hstands]
      exact if_neg (by show ¬ count + 1 = 1; omega)
    have hcount := Part.count_redis (p := p) (r := r) ⟨henv, hp, hanswered⟩
    rw [hentry] at hcount
    have hfallback : (p.count env r).1.fallback = false := by rw [hcount]; exact hp
    have hnext : (p.count env r).1.redis = some ⟨count + 1, some expiresAt⟩ := by rw [hcount]
    have hthis : (p.count env r).2.count = count + 1 := by rw [hcount]
    have hmemory : (p.count env r).1.memory = p.memory := by rw [hcount]
    obtain ⟨hpassed, hin, hfinal, hsame⟩ := ih hrs htrs hfallback (by omega) hnext
    refine ⟨?_, hin, ?_, hsame.trans hmemory⟩
    · rw [passed_reply hr, hpassed, hthis, List.length_cons]
      split <;> omega
    · refine hfinal.trans ?_
      rw [List.length_cons, Nat.add_right_comm, Nat.add_assoc]

/-- the first request of a bucket, counted in memory -/
theorem memory_first {r : Request} {p : Part} (hp : p.memory = none) (hr : ¬ p.byRedis env r) :
    (p.count env r).2.count = 1 ∧ (p.count env r).1.InMemory env ∧
      (p.count env r).1.memory = some ⟨1, bucketResetFor env.window r.clock.settled⟩ := by
  have hentry : nextMemoryEntry p.memory env.window r.clock = ⟨1, bucketResetFor env.window r.clock.settled⟩ := by
    rw [hp]
    rfl
  have hcount := Part.count_memory hr
  rw [hentry] at hcount
  refine ⟨by rw [hcount], Part.inMemory_count hr, by rw [hcount]⟩

/-- a run of a bucket in memory, from its first request on -/
theorem memory_passed {resetAt : ℕ} {r : Request} {rs : List Request} (hlimit : Limited env limit (r :: rs))
    (hreset : bucketResetFor env.window r.clock.settled = resetAt)
    (htime : ∀ q ∈ rs, q.clock.counted < resetAt) {p : Part} (hp : p.memory = none) (hr : ¬ p.byRedis env r)
    (hpos : 0 < limit) :
    passed (Keyed.answers (Part.reply env) p (r :: rs)) = min (rs.length + 1) limit ∧
      (Keyed.final (Part.reply env) p (r :: rs)).InMemory env ∧
      (Keyed.final (Part.reply env) p (r :: rs)).memory = some ⟨rs.length + 1, resetAt⟩ := by
  obtain ⟨hlimitr, hlimits⟩ := List.forall_mem_cons.mp hlimit
  obtain ⟨hone, hin, hmemory⟩ := memory_first hp hr
  rw [hreset] at hmemory
  obtain ⟨hpassed, hfinal, hentry⟩ := memory_run hlimits htime hin hmemory
  refine ⟨?_, hfinal, ?_⟩
  · rw [passed_reply hlimitr, hpassed, hone, if_pos (by omega)]
    omega
  · refine hentry.trans ?_
    rw [Nat.add_comm]

/-- a run of a bucket that Redis answers, from its first request on -/
theorem redis_passed {r : Request} {rs : List Request} (hlimit : Limited env limit (r :: rs))
    (henv : env.redis = true) (hanswered : ∀ q ∈ r :: rs, q.attempt = .answered)
    (htime : ∀ q ∈ rs, q.clock.incr < r.clock.pexpire + env.window) (hpos : 0 < limit) :
    passed (Keyed.answers (Part.reply env) Part.empty (r :: rs)) = min (rs.length + 1) limit ∧
      (Keyed.final (Part.reply env) Part.empty (r :: rs)).fallback = false ∧
      (Keyed.final (Part.reply env) Part.empty (r :: rs)).redis =
        some ⟨rs.length + 1, some (r.clock.pexpire + env.window)⟩ ∧
      (Keyed.final (Part.reply env) Part.empty (r :: rs)).memory = none := by
  obtain ⟨hlimitr, hlimits⟩ := List.forall_mem_cons.mp hlimit
  obtain ⟨hr, hrs⟩ := List.forall_mem_cons.mp hanswered
  have hcount := Part.count_redis (p := Part.empty) (r := r) ⟨henv, rfl, hr⟩
  obtain ⟨hpassed, hfallback, hfinal, hmemory⟩ := redis_run hlimits (fun q hq => ⟨hrs q hq, htime q hq⟩) henv
    (p := (Part.empty.count env r).1) (by rw [hcount]; rfl) Nat.one_pos (by rw [hcount]; rfl)
  refine ⟨?_, hfallback, ?_, ?_⟩
  · rw [passed_reply hlimitr, hpassed, show (Part.empty.count env r).2.count = 1 by rw [hcount]; rfl,
      if_pos (by omega)]
    omega
  · refine hfinal.trans ?_
    rw [Nat.add_comm]
  · refine hmemory.trans ?_
    rw [hcount]
    rfl

end

/-! ## time -/

/-- the readings of one request follow each other -/
structure Clock.InOrder (c : Clock) : Prop where
  incr : c.arrived ≤ c.incr
  pexpire : c.incr ≤ c.pexpire
  counted : c.pexpire ≤ c.counted
  settled : c.counted ≤ c.settled
  replied : c.settled ≤ c.replied

/-- one request is answered before the next one comes -/
def Chronological (rs : List Request) : Prop :=
  (∀ r ∈ rs, r.clock.InOrder) ∧ rs.Pairwise fun r q => r.clock.replied ≤ q.clock.arrived

theorem Chronological.filter {rs : List Request} (h : Chronological rs) (keep : Request → Bool) :
    Chronological (rs.filter keep) :=
  ⟨fun r hr => h.1 r (List.mem_of_mem_filter hr), h.2.filter keep⟩

/-- the end of the bucket -/
def bucketEnd (env : Env) (bucket : ℕ) : ℕ := (bucket + 1) * env.window

section
variable {env : Env} {bucket : ℕ} {c : Clock}

theorem arrived_before_end (h : c.arrived / env.window = bucket) :
    bucket * env.window ≤ c.arrived ∧ c.arrived < bucketEnd env bucket := by
  obtain rfl := h
  refine ⟨Nat.div_mul_le_self _ _, ?_⟩
  exact (Nat.div_lt_iff_lt_mul env.window_pos).mp (Nat.lt_succ_self _)

theorem reset_of_settled (hc : c.InOrder) (h : c.arrived / env.window = bucket)
    (hend : c.settled < bucketEnd env bucket) :
    bucketResetFor env.window c.settled = bucketEnd env bucket := by
  have hle : bucket ≤ c.settled / env.window := by
    rw [← h]
    exact Nat.div_le_div_right (by have := hc.incr; have := hc.pexpire; have := hc.counted; have := hc.settled; omega)
  have hlt : c.settled / env.window < bucket + 1 := (Nat.div_lt_iff_lt_mul env.window_pos).mpr hend
  unfold bucketResetFor bucketEnd
  rw [show c.settled / env.window = bucket by omega]

end

/-! ## what passes -/

/-- one counter counts all requests of the bucket, and stands when the last of them is counted: Redis answers all
of them, or none because it fails on the first -/
def OneCounter (env : Env) (bucket : ℕ) (rs : List Request) : Prop :=
  (env.redis = true ∧ (∀ r ∈ rs, r.attempt = .answered) ∧ ∀ first ∈ rs.head?, ∀ last ∈ rs.getLast?,
    last.clock.incr < first.clock.pexpire + env.window) ∨
  (env.redis = true → ∀ first ∈ rs.head?, first.attempt ≠ .answered) ∧
    ∀ last ∈ rs.getLast?, last.clock.counted < bucketEnd env bucket

section
variable {env : Env} {limit : ℕ}

theorem memory_next {p : Part} {r : Request} {count resetAt : ℕ} (hp : p.InMemory env)
    (hmemory : p.memory = some ⟨count, resetAt⟩) : (p.count env r).2.count =
      if resetAt ≤ r.clock.counted then 1 else count + 1 := by
  rw [Part.count_memory hp.not_byRedis]
  show (nextMemoryEntry p.memory env.window r.clock).count = _
  rw [hmemory]
  show (if resetAt ≤ r.clock.counted then _ else _ : MemoryEntry).count = _
  split <;> rfl

theorem redis_next {p : Part} {r : Request} {count expiresAt : ℕ} (hr : p.byRedis env r) (hpos : 0 < count)
    (hredis : p.redis = some ⟨count, some expiresAt⟩) : (p.count env r).2.count =
      if expiresAt ≤ r.clock.incr then 1 else count + 1 := by
  rw [Part.count_redis hr]
  show (expire (incr p.redis r.clock.incr) env.window r.clock.pexpire).count = _
  rw [hredis]
  show (expire (if (some expiresAt).any (· ≤ r.clock.incr) then _ else _) _ _).count = _
  by_cases h : expiresAt ≤ r.clock.incr
  · rw [if_pos h, if_pos (by simpa using h)]
    rfl
  · rw [if_neg h, if_neg (by simpa using h)]
    show (if count + 1 = 1 then _ else _ : RedisEntry).count = _
    rw [if_neg (by omega)]

theorem exists_first {rs : List Request} {P : Request → Prop} (h : ¬ ∀ r ∈ rs, P r) :
    ∃ before r after, rs = before ++ r :: after ∧ (∀ q ∈ before, P q) ∧ ¬ P r := by
  induction rs with
  | nil => exact absurd (fun r hr => absurd hr List.not_mem_nil) h
  | cons r rs ih =>
    by_cases hr : P r
    · have hrs : ¬ ∀ q ∈ rs, P q := fun hall => h (List.forall_mem_cons.mpr ⟨hr, hall⟩)
      obtain ⟨before, q, after, rfl, hbefore, hq⟩ := ih hrs
      exact ⟨r :: before, q, after, rfl, List.forall_mem_cons.mpr ⟨hr, hbefore⟩, hq⟩
    · exact ⟨[], r, rs, rfl, fun q hq => absurd hq List.not_mem_nil, hr⟩

theorem passed_snoc {p : Part} {rs : List Request} {last : Request} (h : env.limit last.limiter = limit) :
    passed (Keyed.answers (Part.reply env) p (rs ++ [last])) = passed (Keyed.answers (Part.reply env) p rs) +
      if ((Keyed.final (Part.reply env) p rs).count env last).2.count ≤ limit then 1 else 0 := by
  rw [Keyed.answers_append, passed_append, passed_reply h]
  show _ + (passed [] + _) = _
  rw [show passed [] = 0 from rfl, Nat.zero_add]

section
variable {bucket : ℕ} {first last : Request} {mid : List Request}
  (hlimit : Limited env limit (first :: mid ++ [last])) (hpos : 0 < limit) (hlen : limit ≤ mid.length + 1)
include hlimit hpos hlen

/-- more requests than the limit, all counted in memory: the last passes if the counter does not stand -/
theorem passed_memory_iff (hreset : bucketResetFor env.window first.clock.settled = bucketEnd env bucket)
    (htime : ∀ q ∈ mid, q.clock.counted < bucketEnd env bucket) (hfirst : ¬ Part.empty.byRedis env first) :
    passed (Keyed.answers (Part.reply env) Part.empty (first :: mid ++ [last])) ≤ limit ↔
      last.clock.counted < bucketEnd env bucket := by
  obtain ⟨hlimits, hlimitlast⟩ := List.forall_mem_append.mp hlimit
  obtain ⟨hpassed, hin, hmemory⟩ := memory_passed hlimits hreset htime rfl hfirst hpos
  rw [passed_snoc (hlimitlast last List.mem_cons_self), hpassed, memory_next hin hmemory]
  by_cases h : bucketEnd env bucket ≤ last.clock.counted
  · rw [if_pos h, if_pos (by omega)]
    omega
  · rw [if_neg h, if_neg (by omega)]
    omega

/-- more requests than the limit, and Redis answers all but perhaps the last -/
theorem passed_redis_iff (henv : env.redis = true) (hanswered : ∀ q ∈ first :: mid, q.attempt = .answered)
    (htime : ∀ q ∈ mid, q.clock.incr < first.clock.pexpire + env.window) :
    passed (Keyed.answers (Part.reply env) Part.empty (first :: mid ++ [last])) ≤ limit ↔
      last.attempt = .answered ∧ last.clock.incr < first.clock.pexpire + env.window := by
  obtain ⟨hlimits, hlimitlast⟩ := List.forall_mem_append.mp hlimit
  obtain ⟨hpassed, hfallback, hredis, hmemory⟩ := redis_passed hlimits henv hanswered htime hpos
  rw [passed_snoc (hlimitlast last List.mem_cons_self), hpassed]
  by_cases hlast : last.attempt = .answered
  · rw [redis_next ⟨henv, hfallback, hlast⟩ (Nat.succ_pos _) hredis]
    by_cases h : first.clock.pexpire + env.window ≤ last.clock.incr
    · rw [if_pos h, if_pos (by omega)]
      refine iff_of_false (by omega) fun hall => absurd hall.2 (by omega)
    · rw [if_neg h, if_neg (by omega)]
      exact iff_of_true (by omega) ⟨hlast, by omega⟩
  · rw [(memory_first hmemory fun h => hlast h.2.2).1, if_pos (by omega)]
    exact iff_of_false (by omega) fun hall => hlast hall.1

/-- more requests than the limit, and Redis fails between the first and the last -/
theorem passed_switch (hend : ∀ q ∈ mid, bucketResetFor env.window q.clock.settled = bucketEnd env bucket)
    (hcounted : ∀ q ∈ mid, q.clock.counted < bucketEnd env bucket)
    (hincr : ∀ q ∈ mid, q.clock.incr < first.clock.pexpire + env.window) (henv : env.redis = true)
    (hfirst : first.attempt = .answered) (hmid : ¬ ∀ q ∈ mid, q.attempt = .answered) :
    limit < passed (Keyed.answers (Part.reply env) Part.empty (first :: mid ++ [last])) := by
  obtain ⟨hlimits, hlimitlast⟩ := List.forall_mem_append.mp hlimit
  obtain ⟨before, r, after, rfl, hbefore, hr⟩ := exists_first hmid
  rw [← List.cons_append] at hlimits
  obtain ⟨hlimitbefore, hlimitafter⟩ := List.forall_mem_append.mp hlimits
  obtain ⟨hone, hfallback, -, hnone⟩ := redis_passed hlimitbefore henv (List.forall_mem_cons.mpr ⟨hfirst, hbefore⟩)
    (fun q hq => hincr q (List.mem_append_left _ hq)) hpos
  obtain ⟨htwo, hin, hmemory⟩ := memory_passed hlimitafter
    (hend r (List.mem_append_right _ List.mem_cons_self))
    (fun q hq => hcounted q (List.mem_append_right _ (List.mem_cons_of_mem r hq))) hnone (fun h => hr h.2.2) hpos
  rw [List.length_append, List.length_cons] at hlen
  rw [passed_snoc (hlimitlast last List.mem_cons_self), ← List.cons_append, Keyed.answers_append, passed_append,
    hone, htwo, Keyed.final_append, memory_next hin hmemory]
  split <;> split <;> omega

end

end

/-! ## the last request of a bucket -/

section
variable {env : Env} {bucket : ℕ} {first last : Request} {rs mid : List Request}

/-- the requests before the last one are settled within the bucket -/
theorem settled_before_end (hchron : Chronological (rs ++ [last]))
    (hbucket : ∀ r ∈ rs ++ [last], r.clock.arrived / env.window = bucket) {r : Request} (hr : r ∈ rs) :
    r.clock.settled < bucketEnd env bucket := by
  have hnext := (List.pairwise_append.mp hchron.2).2.2 r hr last List.mem_cons_self
  have hreplied := (hchron.1 r (List.mem_append_left _ hr)).replied
  have hlast := (arrived_before_end (hbucket last (by simp))).2
  omega

theorem counted_before_end (hchron : Chronological (rs ++ [last]))
    (hbucket : ∀ r ∈ rs ++ [last], r.clock.arrived / env.window = bucket) {r : Request} (hr : r ∈ rs) :
    r.clock.counted < bucketEnd env bucket := by
  have hend := settled_before_end hchron hbucket hr
  have hsettled := (hchron.1 r (List.mem_append_left _ hr)).settled
  omega

theorem reset_at_end (hchron : Chronological (rs ++ [last]))
    (hbucket : ∀ r ∈ rs ++ [last], r.clock.arrived / env.window = bucket) {r : Request} (hr : r ∈ rs) :
    bucketResetFor env.window r.clock.settled = bucketEnd env bucket :=
  reset_of_settled (hchron.1 r (List.mem_append_left _ hr)) (hbucket r (List.mem_append_left _ hr))
    (settled_before_end hchron hbucket hr)

/-- Redis keeps a counter that begins in the bucket until its end -/
theorem incr_before_expiry (hchron : Chronological (first :: mid ++ [last]))
    (hbucket : ∀ r ∈ first :: mid ++ [last], r.clock.arrived / env.window = bucket) {r : Request}
    (hr : r ∈ first :: mid) : r.clock.incr < first.clock.pexpire + env.window := by
  have hend := counted_before_end hchron hbucket hr
  have hr' := hchron.1 r (List.mem_append_left _ hr)
  have hfirst := hchron.1 first (by simp)
  have hstart := (arrived_before_end (hbucket first (by simp))).1
  have hpexpire := hr'.pexpire
  have hcounted := hr'.counted
  have hincr := hfirst.incr
  have hexpire := hfirst.pexpire
  unfold bucketEnd at hend
  rw [Nat.add_mul, Nat.one_mul] at hend
  omega

theorem oneCounter_iff : OneCounter env bucket (first :: mid ++ [last]) ↔
    (env.redis = true ∧ (∀ r ∈ first :: mid ++ [last], r.attempt = .answered) ∧
      last.clock.incr < first.clock.pexpire + env.window) ∨
    (env.redis = true → first.attempt ≠ .answered) ∧ last.clock.counted < bucketEnd env bucket := by
  unfold OneCounter
  have hhead : (first :: mid ++ [last]).head? = some first := rfl
  have htail : (first :: mid ++ [last]).getLast? = some last := List.getLast?_concat
  simp only [hhead, htail, Option.mem_some_iff, forall_eq']

/-- more requests than the limit -/
theorem passed_long_iff {limit : ℕ} (hlimit : Limited env limit (first :: mid ++ [last])) (hpos : 0 < limit)
    (hlen : limit ≤ mid.length + 1) (hchron : Chronological (first :: mid ++ [last]))
    (hbucket : ∀ r ∈ first :: mid ++ [last], r.clock.arrived / env.window = bucket) :
    passed (Keyed.answers (Part.reply env) Part.empty (first :: mid ++ [last])) ≤ limit ↔
      OneCounter env bucket (first :: mid ++ [last]) := by
  have hcounted : ∀ q ∈ mid, q.clock.counted < bucketEnd env bucket :=
    fun q hq => counted_before_end hchron hbucket (List.mem_cons_of_mem first hq)
  have hreset : ∀ q ∈ first :: mid, bucketResetFor env.window q.clock.settled = bucketEnd env bucket :=
    fun q hq => reset_at_end hchron hbucket hq
  have hincr : ∀ q ∈ mid, q.clock.incr < first.clock.pexpire + env.window :=
    fun q hq => incr_before_expiry hchron hbucket (List.mem_cons_of_mem first hq)
  rw [oneCounter_iff]
  by_cases hfirst : env.redis = true ∧ first.attempt = .answered
  · have hno : ¬ (env.redis = true → first.attempt ≠ .answered) := fun h => h hfirst.1 hfirst.2
    rw [or_iff_left fun h => hno h.1]
    by_cases hmid : ∀ q ∈ mid, q.attempt = .answered
    · have hbefore : ∀ q ∈ first :: mid, q.attempt = .answered := List.forall_mem_cons.mpr ⟨hfirst.2, hmid⟩
      rw [passed_redis_iff hlimit hpos hlen hfirst.1 hbefore hincr, List.forall_mem_append,
        List.forall_mem_singleton]
      exact ⟨fun h => ⟨hfirst.1, ⟨hbefore, h.1⟩, h.2⟩, fun h => ⟨h.2.1.2, h.2.2⟩⟩
    · have hswitch := passed_switch hlimit hpos hlen (fun q hq => hreset q (List.mem_cons_of_mem first hq)) hcounted
        hincr hfirst.1 hfirst.2 hmid
      refine iff_of_false (by omega) fun hall => hmid fun q hq => ?_
      exact hall.2.1 q (List.mem_append_left _ (List.mem_cons_of_mem first hq))
  · have hmemory : ¬ Part.empty.byRedis env first := fun h => hfirst ⟨h.1, h.2.2⟩
    rw [passed_memory_iff hlimit hpos hlen (hreset first List.mem_cons_self) hcounted hmemory]
    constructor
    · exact fun h => .inr ⟨fun henv hattempt => hfirst ⟨henv, hattempt⟩, h⟩
    · rintro (h | h)
      · exact absurd ⟨h.1, h.2.1 first (by simp)⟩ hfirst
      · exact h.2

/-- the requests of one bucket, from nothing held for it -/
theorem passed_part_iff {limit : ℕ} (hlimit : Limited env limit rs) (hpos : 0 < limit) (hchron : Chronological rs)
    (hbucket : ∀ r ∈ rs, r.clock.arrived / env.window = bucket) :
    passed (Keyed.answers (Part.reply env) Part.empty rs) ≤ limit ↔ rs.length ≤ limit ∨ OneCounter env bucket rs := by
  by_cases hlen : rs.length ≤ limit
  · refine iff_of_true ?_ (.inl hlen)
    refine (passed_le_length _).trans ?_
    rw [Keyed.answers_length]
    exact hlen
  rw [or_iff_right hlen]
  cases rs with
  | nil => exact absurd (Nat.zero_le limit) hlen
  | cons first rest =>
    rcases List.eq_nil_or_concat rest with rfl | ⟨mid, last, rfl⟩
    · rw [List.length_singleton] at hlen
      omega
    · rw [List.concat_eq_append, ← List.cons_append] at *
      rw [List.length_append, List.length_cons, List.length_singleton] at hlen
      exact passed_long_iff hlimit hpos (by omega) hchron hbucket

end

section
variable [JsText.Runtime] (env : Env) (rs : List Request) (limiter : Limiter) (identity : String) (bucket : ℕ)

/-- the request is counted in the bucket of the limiter and the identity -/
def Request.InBucket (r : Request) : Prop :=
  r.limiter = limiter ∧ r.identity = identity ∧ r.bucket env.window = bucket

instance (r : Request) : Decidable (r.InBucket env limiter identity bucket) :=
  inferInstanceAs (Decidable (_ ∧ _ ∧ _))

/-- the requests of the bucket, in their order -/
def inBucket : List Request := rs.filter fun r => r.InBucket env limiter identity bucket

/-- how many requests of the bucket pass, from an instance that has counted nothing -/
def passes : ℕ :=
  passed ((Keyed.answers (rateLimit env) Counters.empty rs).filter fun e =>
    e.1.InBucket env limiter identity bucket)

variable {rs}

/-- **at most the limit passes in a bucket** iff no more requests come in it, or one counter counts all of them -/
theorem passed_iff (h : Chronological rs) : passes env rs limiter identity bucket ≤ env.limit limiter ↔
    (inBucket env rs limiter identity bucket).length ≤ env.limit limiter ∨
      OneCounter env bucket (inBucket env rs limiter identity bucket) := by
  have hkey : ∀ r : Request, r.InBucket env limiter identity bucket ↔
      r.counterKey env.window = bucketKey limiter identity bucket := fun r => bucketKey_inj.symm
  have hpasses : passes env rs limiter identity bucket =
      passed (Keyed.answers (Part.reply env) Part.empty (inBucket env rs limiter identity bucket)) := by
    unfold passes inBucket
    simp only [hkey]
    rw [(local_part env).answers_filter, empty_part]
  rw [hpasses]
  have hmem : ∀ r ∈ inBucket env rs limiter identity bucket, r.InBucket env limiter identity bucket :=
    fun r hr => of_decide_eq_true (List.mem_filter.mp hr).2
  refine passed_part_iff (fun r hr => ?_) (env.limit_pos limiter) (h.filter _) fun r hr => (hmem r hr).2.2
  rw [(hmem r hr).1]

end

/-! ## few requests -/

/-- no counter of the part stands above `n` -/
structure Part.AtMost (p : Part) (n : ℕ) : Prop where
  redis : ∀ entry ∈ p.redis, entry.count ≤ n
  memory : ∀ entry ∈ p.memory, entry.count ≤ n

theorem incr_le {current : Option RedisEntry} {n : ℕ} (h : ∀ entry ∈ current, entry.count ≤ n) (windowMs now now' : ℕ) :
    (expire (incr current now) windowMs now').count ≤ n + 1 := by
  have hincr : (incr current now).count ≤ n + 1 := by
    unfold incr
    cases current with
    | none => exact Nat.le_add_left 1 n
    | some entry =>
      have hentry := h entry rfl
      show (if _ then _ else _ : RedisEntry).count ≤ n + 1
      split
      · exact Nat.le_add_left 1 n
      · exact Nat.succ_le_succ hentry
  unfold expire
  split
  · exact hincr
  · exact hincr

theorem nextMemoryEntry_le {current : Option MemoryEntry} {n : ℕ} (h : ∀ entry ∈ current, entry.count ≤ n)
    (windowMs : ℕ) (clock : Clock) : (nextMemoryEntry current windowMs clock).count ≤ n + 1 := by
  unfold nextMemoryEntry
  cases current with
  | none => exact Nat.le_add_left 1 n
  | some entry =>
    have hentry := h entry rfl
    show (if _ then _ else _ : MemoryEntry).count ≤ n + 1
    split
    · exact Nat.le_add_left 1 n
    · exact Nat.succ_le_succ hentry

theorem nextRedisEntry_le {current : Option RedisEntry} {n : ℕ} (h : ∀ entry ∈ current, entry.count ≤ n)
    (windowMs : ℕ) (clock : Clock) (attempt : Attempt) :
    ∀ entry ∈ nextRedisEntry current windowMs clock attempt, entry.count ≤ n + 1 := by
  have hexpire := incr_le h windowMs clock.incr clock.pexpire
  intro entry hentry
  cases attempt with
  | lost => exact (h entry hentry).trans (Nat.le_succ n)
  | incremented =>
    obtain rfl := Option.mem_some_iff.mp hentry
    refine le_trans (le_of_eq ?_) hexpire
    unfold expire
    split <;> rfl
  | _ =>
    obtain rfl := Option.mem_some_iff.mp hentry
    exact hexpire

/-- a request raises the counters by one at most -/
theorem Part.AtMost.count {p : Part} {n : ℕ} (h : p.AtMost n) (env : Env) (r : Request) :
    (p.count env r).1.AtMost (n + 1) ∧ (p.count env r).2.count ≤ n + 1 := by
  have hmemory := nextMemoryEntry_le h.memory env.window r.clock
  have hexpire := incr_le h.redis env.window r.clock.incr r.clock.pexpire
  by_cases hr : p.byRedis env r
  · rw [Part.count_redis hr]
    refine ⟨⟨fun entry he => ?_, fun entry he => (h.memory entry he).trans (Nat.le_succ n)⟩, hexpire⟩
    obtain rfl := Option.mem_some_iff.mp he
    exact hexpire
  · rw [Part.count_memory hr]
    refine ⟨⟨fun entry he => ?_, fun entry he => ?_⟩, hmemory⟩
    · by_cases htry : env.redis = true ∧ p.fallback = false
      · rw [if_pos htry] at he
        exact nextRedisEntry_le h.redis _ _ _ entry he
      · rw [if_neg htry] at he
        exact (h.redis entry he).trans (Nat.le_succ n)
    · obtain rfl := Option.mem_some_iff.mp he
      exact hmemory

theorem Part.AtMost.all_pass {env : Env} {limit : ℕ} {rs : List Request} (hlimit : Limited env limit rs) {p : Part}
    {n : ℕ} (h : p.AtMost n) (hfew : n + rs.length ≤ limit) :
    ∀ e ∈ Keyed.answers (Part.reply env) p rs, e.2.error = none := by
  induction rs generalizing p n with
  | nil => exact fun e he => absurd he List.not_mem_nil
  | cons r rs ih =>
    obtain ⟨hr, hrs⟩ := List.forall_mem_cons.mp hlimit
    obtain ⟨hnext, hcount⟩ := h.count env r
    rw [List.length_cons] at hfew
    rw [Keyed.answers_cons]
    refine List.forall_mem_cons.mpr ⟨reply_error_none.mpr ?_, ih hrs hnext (by omega)⟩
    rw [hr]
    omega

section
variable [JsText.Runtime] {env : Env} {rs : List Request}

/-- **a request passes** if no more than the limit come in its bucket, whatever Redis does -/
theorem passes_of_few {e : Request × Reply} (he : e ∈ Keyed.answers (rateLimit env) Counters.empty rs)
    (hfew : (inBucket env rs e.1.limiter e.1.identity (e.1.bucket env.window)).length ≤ env.limit e.1.limiter) :
    e.2.error = none := by
  have hkey : ∀ r : Request, r.InBucket env e.1.limiter e.1.identity (e.1.bucket env.window) ↔
      r.counterKey env.window = e.1.counterKey env.window := fun r => bucketKey_inj.symm
  have hmem : ∀ r ∈ inBucket env rs e.1.limiter e.1.identity (e.1.bucket env.window), r.limiter = e.1.limiter :=
    fun r hr => (of_decide_eq_true (List.mem_filter.mp hr).2).1
  have hpart : e ∈ Keyed.answers (Part.reply env) Part.empty
      (inBucket env rs e.1.limiter e.1.identity (e.1.bucket env.window)) := by
    unfold inBucket
    simp only [hkey]
    rw [← empty_part (e.1.counterKey env.window), ← (local_part env).answers_filter]
    exact List.mem_filter.mpr ⟨he, decide_eq_true rfl⟩
  have hempty : Part.empty.AtMost 0 :=
    ⟨fun entry h => absurd h (Option.not_mem_none entry), fun entry h => absurd h (Option.not_mem_none entry)⟩
  have hlimit : Limited env (env.limit e.1.limiter)
      (inBucket env rs e.1.limiter e.1.identity (e.1.bucket env.window)) := by
    intro r hr
    rw [hmem r hr]
  exact hempty.all_pass hlimit (by rw [Nat.zero_add]; exact hfew) e hpart

end

/-! ## an outage in the middle of a bucket -/

/-- one request a minute, counted by Redis -/
def sampleEnv : Env where
  windowMs := none
  maxRequests := some 1
  redis := true

/-- a reading of one device, answered within six milliseconds -/
def sampleRequest (start : ℕ) (attempt : Attempt) : Request where
  limiter := .telemetry
  key := some "esp32-ogb-a"
  ip := none
  remoteAddress := none
  clock := ⟨start, start + 1, start + 2, start + 3, start + 4, start + 5⟩
  attempt := attempt

theorem sampleRequest_inOrder (start : ℕ) (attempt : Attempt) : (sampleRequest start attempt).clock.InOrder where
  incr := Nat.le_succ _
  pexpire := Nat.le_succ _
  counted := Nat.le_succ _
  settled := Nat.le_succ _
  replied := Nat.le_succ _

theorem sampleRequests_chronological (attempt attempt' : Attempt) :
    Chronological [sampleRequest 120000 attempt, sampleRequest 130000 attempt'] := by
  refine ⟨?_, by simp [sampleRequest]⟩
  intro r hr
  rcases List.mem_pair.mp hr with rfl | rfl
  · exact sampleRequest_inOrder _ _
  · exact sampleRequest_inOrder _ _

/-- Redis fails on the second request of a bucket: both pass where one may -/
theorem passes_outage : letI := JsText.asciiRuntime
    Chronological [sampleRequest 120000 .answered, sampleRequest 130000 .lost] ∧
      ¬ passes sampleEnv [sampleRequest 120000 .answered, sampleRequest 130000 .lost] .telemetry "esp32-ogb-a" 2 ≤
        sampleEnv.limit .telemetry :=
  letI := JsText.asciiRuntime
  ⟨sampleRequests_chronological _ _, by decide +kernel⟩

/-- Redis fails on the first request of a bucket -/
theorem passed_iff_early : letI := JsText.asciiRuntime
    passes sampleEnv [sampleRequest 120000 .lost, sampleRequest 130000 .answered] .telemetry "esp32-ogb-a" 2 ≤
        sampleEnv.limit .telemetry ∧
      (inBucket sampleEnv [sampleRequest 120000 .lost, sampleRequest 130000 .answered] .telemetry "esp32-ogb-a"
        2).length = 2 :=
  letI := JsText.asciiRuntime
  ⟨(passed_iff sampleEnv .telemetry "esp32-ogb-a" 2 (sampleRequests_chronological _ _)).mpr
    (.inr (.inr (by decide +kernel))), by decide +kernel⟩

end RateLimit
