import NebLite.Iam.SingleUse
import NebLite.Iam.Sessions

/-! Every credential is used once, where a check deletes only what it has read. -/

namespace NebLite

open Atomic

/-- Entries that are used up by a check. -/
def CacheKey.Spendable : CacheKey → Prop
  | .accessToken _ _ => False
  | _ => True

/-- The value under a key has been made already. -/
def IamWorld.Old (w : IamWorld) : Credential → Prop
  | ⟨.otp _, hashed⟩ => hashed.salt < w.nextSalt
  | ⟨.refreshToken _ _, u⟩ => u < w.nextUuid
  | ⟨.accessToken _ _, _⟩ => True

variable {ι : Type} {ops : ι → AuthOp} {labels : ι → AuthLabel} {w w' : IamWorld}
  {reads reads' : ι → Option Credential}

/-- What the labels of all processes, the cache and the reads have to do with each other. -/
structure Spent (ops : ι → AuthOp) (labels : ι → AuthLabel) (w : IamWorld)
    (reads : ι → Option Credential) : Prop where
  cached : ∀ key v, key.Spendable → w.cache key = some v → w.Old ⟨key, v⟩
  made : ∀ i key v, (labels i).makes = some ⟨key, v⟩ → key.Spendable ∧ w.Old ⟨key, v⟩ ∧
    w.cache key ≠ some v
  apart : ∀ i j x, (labels i).makes = some x → (labels j).makes = some x → i = j
  used : ∀ i key v, (labels i).used = some ⟨key, v⟩ → key.Spendable ∧ w.Old ⟨key, v⟩ ∧
    w.cache key ≠ some v ∧ ∀ j, (labels j).makes ≠ some ⟨key, v⟩
  once : ∀ i j x, (labels i).used = some x → (labels j).used = some x → i = j
  read : ∀ i x, (labels i).seen = some x ∨ (labels i).used = some x → reads i = some x
  straight : ∀ i, (labels i).stray = false
  verified : ∀ i token, (ops i).presents = some token → (labels i).verified = true → token ∈ w.signed

/-- A change of the world that puts no spendable entry into the cache. -/
structure IamWorld.Ages (w w' : IamWorld) : Prop where
  cache : ∀ key, key.Spendable → w'.cache key = w.cache key ∨ w'.cache key = none
  salts : w.nextSalt ≤ w'.nextSalt
  uuids : w.nextUuid ≤ w'.nextUuid
  signed : ∀ token ∈ w.signed, token ∈ w'.signed

theorem IamWorld.Ages.old (h : w.Ages w') {x : Credential} (hx : w.Old x) : w'.Old x := by
  obtain ⟨key, v⟩ := x
  cases key with
  | otp => exact Nat.lt_of_lt_of_le hx h.salts
  | refreshToken => exact Nat.lt_of_lt_of_le hx h.uuids
  | accessToken => trivial

theorem IamWorld.Ages.gone (h : w.Ages w') {key : CacheKey} {v : key.Value} (hk : key.Spendable)
    (hv : w.cache key ≠ some v) : w'.cache key ≠ some v := by
  rcases h.cache key hk with he | he
  · rwa [he]
  · rw [he]
    simp

theorem ages_refl (w : IamWorld) : w.Ages w := ⟨fun _ _ => .inl rfl, le_rfl, le_rfl, fun _ h => h⟩

theorem IamCall.Aside.ages {call : IamCall} (h : call.Aside) (w : IamWorld) :
    w.Ages (iamHandle call w).2 := by
  have hset (role : EClientType) (id : Id) (v : Option Uuid) (key : CacheKey) (hk : key.Spendable) :
      Function.update w.cache (.accessToken role id) v key = w.cache key := by
    have hne : key ≠ .accessToken role id := by
      rintro rfl
      exact hk
    exact Function.update_of_ne hne v w.cache
  cases call with
  | cacheSet key v ttl =>
    cases key with
    | accessToken role id =>
      exact ⟨fun key hk => .inl (hset role id (some v) key hk), le_rfl, le_rfl, fun _ h => h⟩
    | _ => exact h.elim
  | cacheDel key =>
    cases key with
    | accessToken role id =>
      exact ⟨fun key hk => .inl (hset role id none key hk), le_rfl, le_rfl, fun _ h => h⟩
    | _ => exact h.elim
  | randomUUID => exact ⟨fun _ _ => .inl rfl, le_rfl, Nat.le_succ _, fun _ h => h⟩
  | signToken => exact ⟨fun _ _ => .inl rfl, le_rfl, le_rfl, fun _ h => List.mem_cons_of_mem _ h⟩
  | findClient | verifyToken | emitOtp | addOtpJob => exact ages_refl w
  | _ => exact h.elim

theorem ages_cacheDel (w : IamWorld) (key : CacheKey) :
    w.Ages { w with cache := Function.update w.cache key none } := by
  refine ⟨fun key' _ => ?_, le_rfl, le_rfl, fun _ h => h⟩
  by_cases hk : key' = key
  · subst hk
    exact .inr (Function.update_self _ _ _)
  · exact .inl (Function.update_of_ne hk _ _)

variable [DecidableEq ι]

/-- A step of process `i` that puts no spendable entry into the cache. -/
theorem Spent.move (h : Spent ops labels w reads) (hw : w.Ages w') {i : ι} {l : AuthLabel}
    (hmakes : ∀ key v, l.makes = some ⟨key, v⟩ → (labels i).makes = some ⟨key, v⟩ ∨
      (key.Spendable ∧ ¬ w.Old ⟨key, v⟩ ∧ w'.Old ⟨key, v⟩))
    (hused : ∀ key v, l.used = some ⟨key, v⟩ → (labels i).used = some ⟨key, v⟩ ∨
      (key.Spendable ∧ w.cache key = some v ∧ w'.cache key ≠ some v))
    (hseen : ∀ x, l.seen = some x ∨ l.used = some x → reads' i = some x)
    (hreads : ∀ j, j ≠ i → reads' j = reads j) (hstray : l.stray = false)
    (hverified : ∀ token, (ops i).presents = some token → l.verified = true → token ∈ w'.signed) :
    Spent ops (Function.update labels i l) w' reads' := by
  have hmk (j : ι) (key : CacheKey) (v : key.Value)
      (hj : (Function.update labels i l j).makes = some ⟨key, v⟩) :
      (labels j).makes = some ⟨key, v⟩ ∨
        (j = i ∧ key.Spendable ∧ ¬ w.Old ⟨key, v⟩ ∧ w'.Old ⟨key, v⟩) := by
    by_cases hji : j = i
    · subst hji
      rw [Function.update_self] at hj
      exact (hmakes key v hj).imp_right fun h => ⟨rfl, h⟩
    · rw [Function.update_of_ne hji] at hj
      exact .inl hj
  have hus (j : ι) (key : CacheKey) (v : key.Value)
      (hj : (Function.update labels i l j).used = some ⟨key, v⟩) :
      (labels j).used = some ⟨key, v⟩ ∨
        (j = i ∧ key.Spendable ∧ w.cache key = some v ∧ w'.cache key ≠ some v) := by
    by_cases hji : j = i
    · subst hji
      rw [Function.update_self] at hj
      exact (hused key v hj).imp_right fun h => ⟨rfl, h⟩
    · rw [Function.update_of_ne hji] at hj
      exact .inl hj
  refine ⟨fun key v hk hv => ?_, fun j key v hj => ?_, fun j k ⟨key, v⟩ hj hk => ?_,
    fun j key v hj => ?_, fun j k ⟨key, v⟩ hj hk => ?_, fun j x hj => ?_, fun j => ?_,
    fun j token hp hj => ?_⟩
  · rcases hw.cache key hk with he | he
    · exact hw.old (h.cached key v hk (he ▸ hv))
    · rw [he] at hv
      cases hv
  · obtain hj | ⟨-, hk, hnew, hold⟩ := hmk j key v hj
    · obtain ⟨hk, hold, hgone⟩ := h.made j key v hj
      exact ⟨hk, hw.old hold, hw.gone hk hgone⟩
    · have hgone : w.cache key ≠ some v := fun hv => hnew (h.cached key v hk hv)
      exact ⟨hk, hold, hw.gone hk hgone⟩
  · obtain hj' | ⟨hji, -, hnew, -⟩ := hmk j key v hj <;>
      obtain hk' | ⟨hki, -, hnew', -⟩ := hmk k key v hk
    · exact h.apart j k _ hj' hk'
    · exact absurd (h.made j key v hj').2.1 hnew'
    · exact absurd (h.made k key v hk').2.1 hnew
    · exact hji.trans hki.symm
  · obtain hj | ⟨-, hk, hv, hgone⟩ := hus j key v hj
    · obtain ⟨hk, hold, hgone, hmade⟩ := h.used j key v hj
      refine ⟨hk, hw.old hold, hw.gone hk hgone, fun k hm => ?_⟩
      obtain hm | ⟨-, -, hnew, -⟩ := hmk k key v hm
      · exact hmade k hm
      · exact hnew hold
    · have hold := h.cached key v hk hv
      refine ⟨hk, hw.old hold, hgone, fun k hm => ?_⟩
      obtain hm | ⟨-, -, hnew, -⟩ := hmk k key v hm
      · exact (h.made k key v hm).2.2 hv
      · exact hnew hold
  · obtain hj' | ⟨hji, -, hv, -⟩ := hus j key v hj <;> obtain hk' | ⟨hki, -, hv', -⟩ := hus k key v hk
    · exact h.once j k _ hj' hk'
    · exact absurd hv' (h.used j key v hj').2.2.1
    · exact absurd hv (h.used k key v hk').2.2.1
    · exact hji.trans hki.symm
  · by_cases hji : j = i
    · subst hji
      rw [Function.update_self] at hj
      exact hseen x hj
    · rw [Function.update_of_ne hji] at hj
      rw [hreads j hji]
      exact h.read j x hj
  · by_cases hji : j = i
    · subst hji
      rwa [Function.update_self]
    · rw [Function.update_of_ne hji]
      exact h.straight j
  · by_cases hji : j = i
    · subst hji
      rw [Function.update_self] at hj
      exact hverified token hp hj
    · rw [Function.update_of_ne hji] at hj
      exact hw.signed token (h.verified j token hp hj)

/-- Process `i` puts what it has made into the cache. -/
theorem Spent.put (h : Spent ops labels w reads) {i : ι} {key : CacheKey} {v : key.Value}
    (hi : (labels i).makes = some ⟨key, v⟩) :
    Spent ops (Function.update labels i { labels i with makes := none })
      { w with cache := Function.update w.cache key (some v) } reads := by
  have hcache (key' : CacheKey) (v' : key'.Value)
      (hv : Function.update w.cache key (some v) key' = some v') :
      w.cache key' = some v' ∨ (⟨key', v'⟩ : Credential) = ⟨key, v⟩ := by
    by_cases hk : key' = key
    · subst hk
      rw [Function.update_self] at hv
      cases hv
      exact .inr rfl
    · rw [Function.update_of_ne hk] at hv
      exact .inl hv
  have hmk (j : ι) (x : Credential)
      (hj : (Function.update labels i { labels i with makes := none } j).makes = some x) :
      j ≠ i ∧ (labels j).makes = some x := by
    by_cases hji : j = i
    · subst hji
      rw [Function.update_self] at hj
      cases hj
    · rw [Function.update_of_ne hji] at hj
      exact ⟨hji, hj⟩
  have hrest (j : ι) : (Function.update labels i { labels i with makes := none } j).used = (labels j).used ∧
      (Function.update labels i { labels i with makes := none } j).seen = (labels j).seen ∧
      (Function.update labels i { labels i with makes := none } j).stray = (labels j).stray ∧
      (Function.update labels i { labels i with makes := none } j).verified = (labels j).verified := by
    by_cases hji : j = i
    · subst hji
      simp
    · simp [hji]
  obtain ⟨hkey, hold, -⟩ := h.made i key v hi
  refine ⟨fun key' v' hk hv => ?_, fun j key' v' hj => ?_, fun j k x hj hk => ?_,
    fun j key' v' hj => ?_, fun j k x hj hk => ?_, fun j x hj => ?_, fun j => ?_,
    fun j token hp hj => ?_⟩
  · rcases hcache key' v' hv with hv | he
    · exact h.cached key' v' hk hv
    · rw [he]
      exact hold
  · obtain ⟨hji, hj⟩ := hmk j _ hj
    obtain ⟨hk, hold', hgone⟩ := h.made j key' v' hj
    refine ⟨hk, hold', fun hv => ?_⟩
    rcases hcache key' v' hv with hv | he
    · exact hgone hv
    · exact hji (h.apart j i _ (he ▸ hj) hi)
  · exact h.apart j k x (hmk j x hj).2 (hmk k x hk).2
  · rw [(hrest j).1] at hj
    obtain ⟨hk, hold', hgone, hmade⟩ := h.used j key' v' hj
    refine ⟨hk, hold', fun hv => ?_, fun k hm => hmade k (hmk k _ hm).2⟩
    rcases hcache key' v' hv with hv | he
    · exact hgone hv
    · exact hmade i (he ▸ hi)
  · rw [(hrest j).1] at hj
    rw [(hrest k).1] at hk
    exact h.once j k x hj hk
  · rw [(hrest j).1, (hrest j).2.1] at hj
    exact h.read j x hj
  · rw [(hrest j).2.2.1]
    exact h.straight j
  · rw [(hrest j).2.2.2] at hj
    exact h.verified j token hp hj

/-- What one executed call does to the credential that each process has read last. -/
theorem lastRead_step {c : AuthPool ι} {i : ι} {call : IamCall}
    {next : Except ServiceError call.Answer → IamService Unit} (hi : c.procs i = .call call next) (j : ι) :
    lastRead (c.step iamHandle i) j =
      if j = i then (readOf ⟨call, (iamHandle call c.store).1⟩).or (lastRead c i) else lastRead c j := by
  rw [Pool.step_call iamHandle hi]
  unfold lastRead
  rw [List.findSome?_cons]
  by_cases hj : j = i
  · subst hj
    simp only [if_true]
    cases readOf ⟨call, (iamHandle call c.store).1⟩ <;> rfl
  · simp [hj, Ne.symm hj]

/-- A call that reads no cache entry leaves what every process has read last. -/
theorem lastRead_unread {c : AuthPool ι} {i : ι} {call : IamCall}
    {next : Except ServiceError call.Answer → IamService Unit} (hi : c.procs i = .call call next)
    (hr : readOf ⟨call, (iamHandle call c.store).1⟩ = none) :
    lastRead (c.step iamHandle i) = lastRead c := by
  funext j
  rw [lastRead_step hi, hr]
  by_cases hj : j = i
  · simp [hj]
  · simp [hj]

theorem IamCall.Aside.unread {call : IamCall} (h : call.Aside) (w : IamWorld) :
    readOf ⟨call, (iamHandle call w).1⟩ = none := by
  cases call with
  | cacheGet => exact h.elim
  | _ => rfl

/-- The step lemma: a move of the outline that still finds what it has read. -/
theorem spent_step {c : AuthPool ι} {i : ι} {call : IamCall} {l : AuthLabel}
    {next : Except ServiceError call.Answer → IamService Unit}
    (h : Spent ops labels c.store (lastRead c)) (hok : StillHolds ops c i)
    (hi : c.procs i = .call call next) (hmv : AuthMove (ops i) c.store (labels i) call l) :
    Spent ops (Function.update labels i l) (c.step iamHandle i).store (lastRead (c.step iamHandle i)) := by
  have hstore : (c.step iamHandle i).store = (iamHandle call c.store).2 := by
    rw [Pool.step_call iamHandle hi]
  have hpend : (c.procs i).pending = some call := by
    rw [hi]
    rfl
  have hrest (j : ι) (hj : j ≠ i) : lastRead (c.step iamHandle i) j = lastRead c j := by
    rw [lastRead_step hi, if_neg hj]
  rw [hstore]
  unfold StillHolds at hok
  rw [hpend] at hok
  cases hmv with
  | aside ha =>
    rw [lastRead_unread hi (ha.unread _)]
    have hw := ha.ages c.store
    exact h.move hw (fun key v hv => .inl hv) (fun key v hv => .inl hv) (h.read i) (fun _ _ => rfl)
      (h.straight i) fun token hp hv => hw.signed token (h.verified i token hp hv)
  | verify hp hs =>
    rw [lastRead_unread hi rfl]
    refine h.move (ages_refl _) (fun key v hv => .inl hv) (fun key v hv => .inl hv) (h.read i)
      (fun _ _ => rfl) (h.straight i) fun token hp' _ => ?_
    rw [hp] at hp'
    cases hp'
    exact hs
  | miss hs hu =>
    refine h.move (ages_refl _) (fun key v hv => .inl hv) (fun key v hv => .inl hv) (fun x hx => ?_)
      hrest (h.straight i) (h.verified i)
    rw [hs, hu] at hx
    simp at hx
  | read hs hu hv =>
    refine h.move (ages_refl _) (fun key v hv => .inl hv) (fun key v hv => .inl hv) (fun x hx => ?_)
      hrest (h.straight i) (h.verified i)
    rw [lastRead_step hi, if_pos rfl]
    simp only [hu, Option.some.injEq, reduceCtorEq, or_false] at hx
    subst hx
    simp [iamHandle, readOf, hv]
  | undefined hp ht hn =>
    have hsome := hok hn
    rw [hp] at hsome
    exact absurd ht hsome
  | @consume key v hs hc =>
    rw [lastRead_unread hi rfl]
    obtain ⟨hne, he⟩ := hok hc
    have hread := h.read i ⟨key, v⟩ (.inl hs)
    have hv : c.store.cache key = some v := by
      obtain ⟨v', hv'⟩ := Option.ne_none_iff_exists'.mp hne
      rw [hv', hread] at he
      cases he
      exact hv'
    have hk : key.Spendable := by
      cases key with
      | accessToken => cases hop : ops i <;> simp [hop, AuthOp.consumes] at hc
      | _ => trivial
    refine h.move (ages_cacheDel c.store key) (fun key v hv => .inl hv) (fun key' v' hv' => ?_)
      (fun x hx => ?_) (fun _ _ => rfl) (h.straight i) (h.verified i)
    · cases hv'
      exact .inr ⟨hk, hv, by simp⟩
    · rcases hx with hx | hx
      · cases hx
      · cases hx
        exact hread
  | expire =>
    rw [lastRead_unread hi rfl]
    exact h.move (ages_cacheDel c.store _) (fun key v hv => .inl hv) (fun key v hv => .inl hv)
      (h.read i) (fun _ _ => rfl) (h.straight i) (h.verified i)
  | makeOtp hm =>
    rw [lastRead_unread hi rfl]
    have hw : c.store.Ages { c.store with nextSalt := c.store.nextSalt + 1 } :=
      ⟨fun _ _ => .inl rfl, Nat.le_succ _, le_rfl, fun _ h => h⟩
    refine h.move hw (fun key v hv => ?_)
      (fun key v hv => .inl hv) (h.read i) (fun _ _ => rfl) (h.straight i) (h.verified i)
    cases hv
    exact .inr ⟨trivial, Nat.lt_irrefl _, Nat.lt_succ_self _⟩
  | makeToken hm =>
    rw [lastRead_unread hi rfl]
    have hw : c.store.Ages { c.store with nextUuid := c.store.nextUuid + 1 } :=
      ⟨fun _ _ => .inl rfl, le_rfl, Nat.le_succ _, fun _ h => h⟩
    refine h.move hw (fun key v hv => ?_)
      (fun key v hv => .inl hv) (h.read i) (fun _ _ => rfl) (h.straight i) (h.verified i)
    cases hv
    exact .inr ⟨trivial, Nat.lt_irrefl _, Nat.lt_succ_self _⟩
  | put hm =>
    rw [lastRead_unread hi rfl]
    exact h.put hm
  | astray hs => exact absurd hs (by simp [h.straight i])

/-- Process `i` has returned. -/
def Succeeded (c : AuthPool ι) (i : ι) : Prop := (c.procs i).outcome = some (.ok ())

instance (c : AuthPool ι) (i : ι) : Decidable (Succeeded c i) :=
  inferInstanceAs (Decidable ((c.procs i).outcome = some (.ok ())))

/-- What single use means: of the calls that return, no two have read one password and
no two present one token, and the token a call presents is a signed refresh token
whose identifier the cache has held for its client when the call read it. -/
structure SingleUse (ops : ι → AuthOp) (c : AuthPool ι) : Prop where
  otp : ∀ i j dto dto', ops i = .verifyOtp dto → ops j = .verifyOtp dto' → Succeeded c i →
    Succeeded c j → lastRead c i = lastRead c j → i = j
  password : ∀ i dto, ops i = .verifyOtp dto → Succeeded c i →
    ∃ phone hashed, lastRead c i = some ⟨.otp phone, hashed⟩
  refresh : ∀ i j token, (ops i).presents = some token → (ops j).presents = some token →
    Succeeded c i → Succeeded c j → i = j
  issued : ∀ i token, (ops i).presents = some token → Succeeded c i → token ∈ c.store.signed ∧
    ∃ u, token.refreshTokenId = some u ∧
      lastRead c i = some ⟨.refreshToken token.role token.sub, u⟩

variable {labels : ι → AuthLabel} {c : AuthPool ι}

/-- What the labels say of the calls that have returned. -/
theorem Spent.singleUse (h : Spent ops labels c.store (lastRead c))
    (hdone : ∀ i, Succeeded c i → (ops i).Done (labels i)) : SingleUse ops c := by
  have hotp (i : ι) (dto : VerifyOtpDto) (hi : ops i = .verifyOtp dto) (hs : Succeeded c i) :
      ∃ phone hashed, (labels i).used = some ⟨.otp phone, hashed⟩ := by
    have hd := hdone i hs
    rw [hi] at hd
    exact hd
  have htoken (i : ι) (token : Jwt) (hi : (ops i).presents = some token) (hs : Succeeded c i) :
      (labels i).verified = true ∧ ∃ u, token.refreshTokenId = some u ∧
        (labels i).used = some ⟨.refreshToken token.role token.sub, u⟩ := by
    have hd := hdone i hs
    have hr : (labels i).Redeemed token := by
      cases hop : ops i <;> rw [hop] at hi hd <;> simp only [AuthOp.presents, reduceCtorEq, Option.some.injEq] at hi
      · exact hi ▸ hd
      · exact hi ▸ hd
    rcases hr with hr | hr
    · rw [h.straight i] at hr
      cases hr
    · exact hr
  refine ⟨fun i j dto dto' hi hj hsi hsj he => ?_, fun i dto hi hs => ?_,
    fun i j token hi hj hsi hsj => ?_, fun i token hi hs => ?_⟩
  · obtain ⟨phone, hashed, hui⟩ := hotp i dto hi hsi
    obtain ⟨phone', hashed', huj⟩ := hotp j dto' hj hsj
    rw [h.read i _ (.inr hui), h.read j _ (.inr huj)] at he
    exact h.once i j _ hui (he ▸ huj)
  · obtain ⟨phone, hashed, hu⟩ := hotp i dto hi hs
    exact ⟨phone, hashed, h.read i _ (.inr hu)⟩
  · obtain ⟨-, u, hu, hui⟩ := htoken i token hi hsi
    obtain ⟨-, u', hu', huj⟩ := htoken j token hj hsj
    rw [hu] at hu'
    cases hu'
    exact h.once i j _ hui huj
  · obtain ⟨hv, u, hu, hui⟩ := htoken i token hi hs
    exact ⟨h.verified i token hi hv, u, hu, h.read i _ (.inr hui)⟩

/-- All concurrent calls, before the first of them has been executed. -/
def authCalls (env : IamEnvironment) (profiles : EClientType → Table Profile) (ops : ι → AuthOp) :
    AuthPool ι :=
  Pool.start (fun i => (ops i).program env) (IamWorld.initial profiles)

omit [DecidableEq ι] in
theorem spent_start (profiles : EClientType → Table Profile) (ops : ι → AuthOp)
    (reads : ι → Option Credential) :
    Spent ops (fun _ => {}) (IamWorld.initial profiles) reads := by
  refine ⟨fun _ _ _ h => ?_, fun _ _ _ h => ?_, fun _ _ _ h => ?_, fun _ _ _ h => ?_,
    fun _ _ _ h => ?_, fun _ _ h => ?_, fun _ => rfl, fun _ _ _ h => ?_⟩
  · cases h
  · cases h
  · cases h
  · cases h
  · cases h
  · rcases h with h | h <;> cases h
  · cases h

/-- Every process follows its outline, and the labels fit the cache and the trace. -/
def AuthHolds (ops : ι → AuthOp) (c : AuthPool ι) : Prop :=
  Outline.Holds (fun i => authOutline (ops i)) iamHandle
    (fun i l r => ∀ a, r = .ok a → (ops i).Done l)
    (fun labels c => Spent ops labels c.store (lastRead c)) c

/-- In every run whose checks still hold when their entry is deleted, every
one-time password and every refresh token is used once. -/
theorem credentials_single_use (env : IamEnvironment) (profiles : EClientType → Table Profile)
    (ops : ι → AuthOp) (sched : List ι)
    (hm : Pool.Meets iamHandle (StillHolds ops) (authCalls env profiles ops) sched) :
    ∀ pre, pre <+: sched → SingleUse ops ((authCalls env profiles ops).exec iamHandle pre) := by
  intro pre hpre
  have hstart : AuthHolds ops (authCalls env profiles ops) :=
    ⟨fun _ => {}, spent_start profiles ops _, fun i => (ops i).spends env⟩
  have hrun : AuthHolds ops ((authCalls env profiles ops).exec iamHandle pre) := by
    apply Outline.exec_holds (fun _ _ _ _ => trivial) ?_ hstart (hm.initial hpre)
    intro labels c i call next l h hok hi hmv
    exact spent_step h hok hi hmv
  obtain ⟨labels, hJ, hdone⟩ := hrun.outcome
  exact hJ.singleUse fun i hs => hdone i _ hs () rfl

/-- Rider 1 asks for a password, logs in, refreshes and logs out. -/
def oneSession : Fin 4 → AuthOp
  | 0 => .getOtp 1 .rider "123456"
  | 1 => .verifyOtp ⟨1, "123456", .rider⟩
  | 2 => .getRefreshToken riderRefresh
  | 3 => .logout ⟨1, .rider, none, some 3, 8640000⟩

def sessionInTurn : List (Fin 4) := Pool.turns [(0, 4), (1, 9), (2, 10), (3, 5)]

theorem credentials_single_use_in_turn :
    SingleUse oneSession ((authCalls hourly oneRider oneSession).exec iamHandle sessionInTurn) ∧
      ∀ i, Succeeded ((authCalls hourly oneRider oneSession).exec iamHandle sessionInTurn) i :=
  ⟨credentials_single_use hourly oneRider oneSession sessionInTurn (by decide +kernel) sessionInTurn List.prefix_rfl,
    by decide +kernel⟩

/-- One password, presented twice. -/
def samePassword : Fin 3 → AuthOp
  | 0 => .getOtp 1 .rider "123456"
  | _ => .verifyOtp ⟨1, "123456", .rider⟩

/-- Both checks read the password before either of them deletes it. -/
def bothRead : List (Fin 3) := Pool.turns [(0, 4), (1, 2), (2, 2), (1, 7), (2, 7)]

theorem password_used_twice :
    ¬ SingleUse samePassword ((authCalls hourly oneRider samePassword).exec iamHandle bothRead) := by
  intro h
  have htwice := h.otp 1 2 _ _ rfl rfl (by decide +kernel) (by decide +kernel) (by decide +kernel)
  exact absurd htwice (by decide)

end NebLite
