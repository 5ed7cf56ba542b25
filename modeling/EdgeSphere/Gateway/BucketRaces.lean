import EdgeSphere.Gateway.TokenBucket
import EdgeSphere.Library.Interference

/-!
# The token bucket, command by command

`tokenBucket` reads the hash, computes what is left, and writes the hash; between these commands Redis runs those of
other calls, of this gateway and of others, with clocks of their own.

* `tokenBucketProgram` — one call as the program of its three commands; alone it is `tokenBucket`
  (`exec_tokenBucketProgram`);
* `Owed` — the invariant: the tokens, refilled up to the latest clock, are none below zero;
* `bucket_bounds` — **in every interleaving the stored tokens are at most the capacity**, and below zero by no more than
  the clocks are apart;
* `all_admitted` — **and yet no number of calls is too many**: so many calls at one instant are all admitted, and the
  bucket has lost one token.
-/

namespace EdgeSphere.Gateway

open EdgeSphere.Library
open EdgeSphere.Library.Expiry
open EdgeSphere.Library.Program
open EdgeSphere.Library.Runs

variable {K : Type} [Field K] [LinearOrder K] [FloorRing K]

/-! ### One call -/

/-- The commands on the hash of one identifier. -/
inductive BucketCommand (K : Type) where
  | hmget
  | hmset (bucket : Bucket K)
  | expire (seconds : ℤ)

abbrev BucketAnswer : BucketCommand K → Type
  | .hmget => Option (Bucket K)
  | .hmset _ | .expire _ => Unit

/-- Redis is healthy: nothing is thrown. -/
abbrev BucketProgram (K α : Type) := Program (BucketCommand K) BucketAnswer Empty α

abbrev sendBucket (c : BucketCommand K) : BucketProgram K (BucketAnswer c) := command c

abbrev BucketKey (K : Type) := Option (Cell (Bucket K))

omit [Field K] [LinearOrder K] [FloorRing K] in
/-- Redis executes one command at the reading `t` of its clock. -/
def executeBucket (t : ℕ) (key : BucketKey K) :
    (c : BucketCommand K) → BucketKey K × Except Empty (BucketAnswer c)
  | .hmget => (key, .ok (read t key))
  | .hmset bucket => (modify t (fun _ => bucket) key, .ok ())
  | .expire seconds => (expire t seconds key, .ok ())

/-- The reply of a call that has found so many tokens. -/
def bucketReply (refillRatePerSec : K) (now : ℕ) (found : K) : TokenBucketReply :=
  { allowed := decide (1 ≤ found)
    remaining := ⌊spend found⌋
    resetAt := now + 1000 * ⌈(1 - spend found) / refillRatePerSec⌉ }

/-- `RateLimitService.tokenBucket`, with the clock of the call. -/
def tokenBucketProgram (capacity refillRatePerSec : K) (now : ℕ) : BucketProgram K TokenBucketReply := do
  let stored : Option (Bucket K) ← sendBucket .hmget
  let found := refilled capacity refillRatePerSec now stored
  sendBucket (.hmset ⟨spend found, now⟩)
  sendBucket (.expire 60)
  return bucketReply refillRatePerSec now found

/-- **Alone, the program is the call** executed as a whole. -/
theorem exec_tokenBucketProgram (identifier : String) (capacity rate : K) (now : ℕ) (redis : Redis K) :
    let key := tokenBucketKey identifier
    let out := tokenBucket identifier capacity rate now redis
    exec (executeBucket now) (redis.hashes key) (tokenBucketProgram capacity rate now)
      = (out.1.hashes key, .ok out.2) := by
  simp only [tokenBucket, Function.update_self]
  rfl

/-! ### Bounds -/

/-- What a bucket holds, refilled up to `latest`, is nothing below zero, and no more than the capacity is in it. -/
structure Owed (capacity rate : K) (earliest latest : ℕ) (b : Bucket K) : Prop where
  stamp : earliest ≤ b.lastRefill
  most : b.tokens ≤ capacity
  least : 0 ≤ b.tokens + ((latest : K) - b.lastRefill) / 1000 * rate

section Bounds

variable [IsStrictOrderedRing K] {capacity rate : K} {now earliest latest : ℕ} {stored : Option (Bucket K)}

/-- A call that finds such a bucket, or none, writes such a bucket. -/
theorem owed_after (hcap : 0 ≤ capacity) (hrate : 0 ≤ rate) (hnow : earliest ≤ now ∧ now ≤ latest)
    (h : ∀ b ∈ stored, Owed capacity rate earliest latest b) :
    Owed capacity rate earliest latest ⟨spend (refilled capacity rate now stored), now⟩ := by
  have hahead : 0 ≤ ((latest : K) - now) / 1000 * rate :=
    mul_nonneg (div_nonneg (sub_nonneg.mpr (Nat.cast_le.mpr hnow.2)) (by norm_num)) hrate
  have hfound : refilled capacity rate now stored ≤ capacity ∧
      0 ≤ refilled capacity rate now stored + ((latest : K) - now) / 1000 * rate := by
    cases stored with
    | none => exact ⟨le_rfl, add_nonneg hcap hahead⟩
    | some b =>
      obtain ⟨-, -, hleast⟩ := h b rfl
      refine ⟨min_le_left _ _, ?_⟩
      rw [refilled, min_add]
      refine le_min (add_nonneg hcap hahead) ?_
      calc (0 : K) ≤ b.tokens + ((latest : K) - b.lastRefill) / 1000 * rate := hleast
        _ = b.tokens + ((now : K) - b.lastRefill) / 1000 * rate + ((latest : K) - now) / 1000 * rate := by ring
  refine ⟨hnow.1, spend_le.trans hfound.1, ?_⟩
  show 0 ≤ spend (refilled capacity rate now stored) + ((latest : K) - now) / 1000 * rate
  unfold spend
  split_ifs with hone
  · exact add_nonneg (sub_nonneg.mpr hone) hahead
  · exact hfound.2

end Bounds

/-- So is the bucket that a key holds, if it holds one. -/
def OwedKey (capacity rate : K) (earliest latest : ℕ) (key : BucketKey K) : Prop :=
  ∀ cell, key = some cell → Owed capacity rate earliest latest cell.value

section Keys

variable {capacity rate : K} {earliest latest t : ℕ} {key : BucketKey K}

omit [FloorRing K] in
theorem OwedKey.read (h : OwedKey capacity rate earliest latest key) : ∀ b ∈ read t key, Owed capacity rate earliest latest b := by
  intro b hb
  cases key with
  | none => cases hb
  | some cell =>
    rw [← value_of_read hb]
    exact h cell rfl

omit [FloorRing K] in
theorem OwedKey.modify {b : Bucket K} (h : Owed capacity rate earliest latest b) :
    OwedKey capacity rate earliest latest (modify t (fun _ => b) key) := by
  rintro cell hcell
  unfold Expiry.modify at hcell
  split at hcell
  · cases hcell
    exact h
  · split at hcell <;> cases hcell <;> exact h

omit [FloorRing K] in
theorem OwedKey.expire (h : OwedKey capacity rate earliest latest key) (seconds : ℤ) :
    OwedKey capacity rate earliest latest (expire t seconds key) := by
  rintro cell hcell
  cases key with
  | none => cases hcell
  | some old =>
    unfold Expiry.expire at hcell
    simp only at hcell
    split_ifs at hcell
    cases hcell
    exact h old rfl

end Keys

/-! ### Interleavings -/

/-- The calls keep the bucket owed nothing, and nothing else is asked of them. -/
def bucketProtocol (capacity rate : K) (earliest latest : ℕ) : Protocol (BucketKey K) ℕ (BucketCommand K) BucketAnswer Empty where
  handle := executeBucket
  allowed _ _ _ := True
  inv := OwedKey capacity rate earliest latest
  later _ _ := True
  refl _ := trivial
  trans _ _ := trivial

/-- What a call replies. -/
def FairReply (capacity : K) (reply : TokenBucketReply) : Prop :=
  reply.remaining ≤ ⌊capacity⌋ ∧ (reply.allowed = true → 0 ≤ reply.remaining)

section Runs

variable [IsStrictOrderedRing K] {capacity rate : K} {earliest latest : ℕ} {key : BucketKey K}

theorem fairReply (now : ℕ) {found : K} (h : spend found ≤ capacity) :
    FairReply capacity (bucketReply rate now found) := by
  refine ⟨Int.floor_le_floor h, fun hallowed => ?_⟩
  have hone : 1 ≤ found := of_decide_eq_true hallowed
  show 0 ≤ ⌊spend found⌋
  rw [spend, if_pos hone]
  exact Int.floor_nonneg.mpr (sub_nonneg.mpr hone)

/-- **One call** among others, with any reading of its clock up to the latest one. -/
theorem tokenBucketProgram_keeps (hcap : 0 ≤ capacity) (hrate : 0 ≤ rate) {now : ℕ}
    (hnow : earliest ≤ now ∧ now ≤ latest) :
    (tokenBucketProgram capacity rate now).Keeps (bucketProtocol capacity rate earliest latest)
      (fun _ reply => FairReply capacity reply) (fun _ _ => True) key := by
  refine Keeps.bind (Q := fun _ stored => ∀ b ∈ stored, Owed capacity rate earliest latest b)
    (keeps_command fun key' _ hinv t _ => ⟨hinv, trivial, fun stored heq => ?_, fun _ _ => trivial⟩)
    fun _ stored hstored => ?_
  · cases heq
    exact hinv.read
  · have howed := owed_after hcap hrate hnow hstored
    refine Keeps.bind (Q := fun _ _ => True)
      (keeps_command fun _ _ _ t _ => ⟨OwedKey.modify howed, trivial, fun _ _ => trivial, fun _ _ => trivial⟩)
      fun _ _ _ => ?_
    refine Keeps.bind (Q := fun _ _ => True)
      (keeps_command fun _ _ hinv t _ => ⟨hinv.expire 60, trivial, fun _ _ => trivial, fun _ _ => trivial⟩)
      fun _ _ _ => ?_
    exact fairReply now howed.most

/-- The calls of a run, each with the reading of its clock. -/
def bucketPool {ι : Type*} (capacity rate : K) (now : ι → ℕ) :
    Pool (BucketKey K) ι (BucketCommand K) BucketAnswer Empty TokenBucketReply :=
  ⟨none, fun i => tokenBucketProgram capacity rate (now i)⟩

variable {ι : Type*} [DecidableEq ι] {now : ι → ℕ} {es : List (ι × ℕ)}
  {pool : Pool (BucketKey K) ι (BucketCommand K) BucketAnswer Empty TokenBucketReply}

/-- **Bounds.**  Whatever calls run between each other's commands, the stored tokens are at most the capacity, and below
zero by no more than is refilled in the time that the clocks of the calls are apart; what a call replies is so too. -/
theorem bucket_bounds (hcap : 0 ≤ capacity) (hrate : 0 ≤ rate)
    (hnow : ∀ i, earliest ≤ now i ∧ now i ≤ latest)
    (hrun : run (Pool.step executeBucket) (bucketPool capacity rate now) es = some pool) :
    (∀ t, ∀ b ∈ read t pool.state,
      b.tokens ≤ capacity ∧ -(((latest : K) - earliest) / 1000 * rate) ≤ b.tokens) ∧
    ∀ i reply, pool.procs i = .ret reply →
      reply.remaining ≤ ⌊capacity⌋ ∧ (reply.allowed = true → 0 ≤ reply.remaining) := by
  have hinvariant := run_induction (Pool.step executeBucket) (bucketPool capacity rate now)
    (fun _ pool => pool.Steady (bucketProtocol capacity rate earliest latest) (fun _ _ reply => FairReply capacity reply)
        (fun _ _ _ => True) ∧ ∀ i reply, pool.procs i = .ret reply → FairReply capacity reply)
    ⟨⟨(fun _ h => by cases h), fun i c next hi => hi ▸ tokenBucketProgram_keeps hcap hrate (hnow i)⟩,
      (fun _ _ h => by cases h)⟩ (by
    intro es pool ⟨i, t⟩ pool' _ ⟨hsteady, hended⟩ hstep
    obtain ⟨hsteady', -, hret, -⟩ := hsteady.step hstep fun _ _ _ => trivial
    obtain ⟨-, -, -, -, -, hothers⟩ := Pool.step_cases hstep
    refine ⟨hsteady', fun j reply hj => ?_⟩
    by_cases hji : j = i
    · exact hret reply (hji ▸ hj)
    · exact hended j reply (hothers j hji ▸ hj)) es pool hrun
  refine ⟨fun t b hb => ?_, hinvariant.2⟩
  obtain ⟨hstamp, hmost, hleast⟩ := hinvariant.1.inv.read b hb
  refine ⟨hmost, ?_⟩
  have hapart : ((latest : K) - b.lastRefill) / 1000 * rate ≤ ((latest : K) - earliest) / 1000 * rate :=
    mul_le_mul_of_nonneg_right (div_le_div_of_nonneg_right (sub_le_sub_left (Nat.cast_le.mpr hstamp) _) (by norm_num)) hrate
  linarith

end Runs

/-- Two calls of gateways whose clocks are a second apart. -/
theorem bucket_bounds_two : ∃ pool, run (Pool.step executeBucket)
      (bucketPool (5 : ℚ) 10 fun later : Bool => if later then 1000 else 0)
      [(true, 7), (true, 7), (true, 7), (false, 8), (false, 8)] = some pool ∧
    (∀ t, ∀ b ∈ read t pool.state, b.tokens ≤ 5 ∧ -((((1000 : ℕ) : ℚ) - ((0 : ℕ) : ℚ)) / 1000 * 10) ≤ b.tokens) ∧
    read 8 pool.state = some ⟨-6, 0⟩ := by
  have hrun : run (Pool.step executeBucket) (bucketPool (5 : ℚ) 10 fun later : Bool => if later then 1000 else 0)
    [(true, 7), (true, 7), (true, 7), (false, 8), (false, 8)] = some _ := rfl
  refine ⟨_, hrun, (bucket_bounds (by norm_num) (by norm_num) (by decide) hrun).1, by decide +kernel⟩

/-! ### Lost updates -/

section Lost

variable {ι : Type*} [DecidableEq ι] {capacity rate : K} {t : ℕ}

/-- What is left of a call after its read. -/
def writing (rate : K) (now : ℕ) (found : K) : BucketProgram K TokenBucketReply := do
  sendBucket (.hmset ⟨spend found, now⟩)
  sendBucket (.expire 60)
  return bucketReply rate now found

/-- So many reads of a key that is not there, one after another. -/
theorem run_reads {l : List ι} (hl : l.Nodup) {procs : ι → BucketProgram K TokenBucketReply}
    (hprocs : ∀ i ∈ l, procs i = tokenBucketProgram capacity rate t) :
    run (Pool.step executeBucket) ⟨none, procs⟩ (l.map fun i => (i, t))
      = some ⟨none, fun i => if i ∈ l then writing rate t capacity else procs i⟩ := by
  induction l generalizing procs with
  | nil => simp
  | cons i l ih =>
    rw [List.nodup_cons] at hl
    have hstep : Pool.step executeBucket ⟨none, procs⟩ (i, t)
        = some ⟨none, Function.update procs i (writing rate t capacity)⟩ :=
      Pool.step_eq_some.mpr ⟨.hmget, _, hprocs i List.mem_cons_self, rfl⟩
    rw [List.map_cons, run_cons, hstep, Option.bind_some, ih hl.2]
    · refine congrArg (fun procs => some (Pool.mk none procs)) (funext fun j => ?_)
      by_cases hji : j = i
      · rw [hji, if_neg hl.1, if_pos List.mem_cons_self, Function.update_self]
      · simp only [List.mem_cons, hji, false_or]
        rw [Function.update_of_ne hji]
    · intro j hj
      have hji : j ≠ i := fun heq => hl.1 (heq ▸ hj)
      rw [Function.update_of_ne hji]
      exact hprocs j (List.mem_cons_of_mem _ hj)

/-- So many writes, one call after another. -/
theorem run_writes {found : K} {l : List ι} (hl : l.Nodup) {key : BucketKey K}
    {procs : ι → BucketProgram K TokenBucketReply} (hprocs : ∀ i ∈ l, procs i = writing rate t found) :
    run (Pool.step executeBucket) ⟨key, procs⟩ (l.flatMap fun i => [(i, t), (i, t)])
      = some ⟨if l = [] then key else put t 60 ⟨spend found, t⟩,
          fun i => if i ∈ l then .ret (bucketReply rate t found) else procs i⟩ := by
  induction l generalizing key procs with
  | nil => simp
  | cons i l ih =>
    rw [List.nodup_cons] at hl
    have hwrite : run (Pool.step executeBucket) ⟨key, procs⟩ [(i, t), (i, t)]
        = some ⟨put t 60 ⟨spend found, t⟩, Function.update procs i (.ret (bucketReply rate t found))⟩ := by
      have hset : Pool.step executeBucket ⟨key, procs⟩ (i, t)
          = some ⟨modify t (fun _ => ⟨spend found, t⟩) key, Function.update procs i
              (sendBucket (.expire 60) >>= fun _ => pure (bucketReply rate t found))⟩ :=
        Pool.step_eq_some.mpr ⟨.hmset ⟨spend found, t⟩, _, hprocs i List.mem_cons_self, rfl⟩
      rw [run_cons, hset, Option.bind_some, run_cons,
        Pool.step_eq_some.mpr ⟨.expire 60, _, Function.update_self i _ _, rfl⟩, Option.bind_some, run_nil,
        Function.update_idem]
      have hkey : expire t 60 (modify t (fun _ => (⟨spend found, t⟩ : Bucket K)) key) = put t 60 ⟨spend found, t⟩ :=
        expire_of_read (by norm_num) (read_modify _ _ _)
      exact congrArg (fun key => some (Pool.mk key _)) hkey
    rw [List.flatMap_cons, run_append, hwrite, Option.bind_some, ih hl.2]
    · refine congrArg some (congrArg₂ Pool.mk ?_ (funext fun j => ?_))
      · rw [if_neg (List.cons_ne_nil i l), ite_self]
      · by_cases hji : j = i
        · rw [hji, if_neg hl.1, if_pos List.mem_cons_self, Function.update_self]
        · simp only [List.mem_cons, hji, false_or]
          rw [Function.update_of_ne hji]
    · intro j hj
      have hji : j ≠ i := fun heq => hl.1 (heq ▸ hj)
      rw [Function.update_of_ne hji]
      exact hprocs j (List.mem_cons_of_mem _ hj)

/-- **No number of calls is too many**: one schedule admits them all at one instant, and takes one token. -/
theorem all_admitted (hcap : 1 ≤ capacity) (rate : K) (t n : ℕ) : ∃ es pool, (∀ e ∈ es, e.2 = t) ∧
    run (Pool.step executeBucket) (bucketPool capacity rate fun _ : Fin (n + 1) => t) es = some pool ∧
    (∀ i, ∃ reply, pool.procs i = .ret reply ∧ reply.allowed = true) ∧
    read t pool.state = some ⟨capacity - 1, t⟩ := by
  have hall : ∀ i : Fin (n + 1), i ∈ List.finRange (n + 1) := List.mem_finRange
  have hnodup := List.nodup_finRange (n + 1)
  -- all of them read, and then all of them write
  refine ⟨(List.finRange (n + 1)).map (fun i => (i, t)) ++ (List.finRange (n + 1)).flatMap fun i => [(i, t), (i, t)],
    ⟨put t 60 ⟨spend capacity, t⟩, fun _ => .ret (bucketReply rate t capacity)⟩, fun e he => ?_, ?_, fun i => ?_, ?_⟩
  · rcases List.mem_append.mp he with he | he
    · obtain ⟨i, -, rfl⟩ := List.mem_map.mp he
      rfl
    · obtain ⟨i, -, he⟩ := List.mem_flatMap.mp he
      rcases List.mem_cons.mp he with rfl | he
      · rfl
      · rw [List.mem_singleton.mp he]
  · rw [run_append, bucketPool, run_reads hnodup fun _ _ => (rfl : tokenBucketProgram capacity rate t = _),
      Option.bind_some,
      run_writes hnodup fun i hi => if_pos hi, if_neg (List.ne_nil_of_mem (hall 0))]
    exact congrArg (fun procs => some (Pool.mk _ procs)) (funext fun i => if_pos (hall i))
  · exact ⟨_, rfl, decide_eq_true hcap⟩
  · rw [read_put_self, spend, if_pos hcap]

end Lost

/-- A hundred calls at one instant, of a bucket for one. -/
theorem all_admitted_hundred : ∃ es pool, (∀ e ∈ es, e.2 = 7) ∧
    run (Pool.step executeBucket) (bucketPool (1 : ℚ) 10 fun _ : Fin (99 + 1) => 7) es = some pool ∧
    (∀ i, ∃ reply, pool.procs i = .ret reply ∧ reply.allowed = true) ∧ read 7 pool.state = some ⟨1 - 1, 7⟩ :=
  all_admitted le_rfl 10 7 99

end EdgeSphere.Gateway
