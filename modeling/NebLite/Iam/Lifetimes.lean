import NebLite.Iam.Sessions
import NebLite.Atomic.Outcomes

/-! The lifetimes of tokens and codes. Each is given twice: to the token, which counts in
seconds, and to the cache, which counts in milliseconds. -/

namespace NebLite

open Atomic

/-- When an entry of the cache expires; one with a lifetime of zero never does. -/
def cacheDeadline (clock ttl : ℕ) : Option ℕ := if ttl = 0 then none else some (clock + ttl)

/-- The identity service with a clock in milliseconds; each entry of the cache has its deadline. -/
structure TimedIam where
  profiles : EClientType → Table Profile
  entries : (k : CacheKey) → Option (k.Value × Option ℕ)
  signed : List Jwt
  nextUuid : Uuid
  nextSalt : ℕ
  clock : ℕ

namespace TimedIam

/-- The entry is gone when the clock is past its deadline. -/
def get (w : TimedIam) (k : CacheKey) : Option k.Value :=
  (w.entries k).bind fun e => if e.2.all (w.clock ≤ ·) then some e.1 else none

/-- The time that tokens are compared with. -/
def seconds (w : TimedIam) : Time := w.clock / 1000

/-- What the service sees at its time. -/
def view (w : TimedIam) : IamWorld where
  profiles := w.profiles
  cache := w.get
  signed := w.signed
  nextUuid := w.nextUuid
  nextSalt := w.nextSalt
  now := w.seconds

end TimedIam

def timedHandle : Handler IamCall IamCall.Answer ServiceError TimedIam
  | .findClient clientType clientId, w => (.ok (w.view.findClient clientType clientId), w)
  | .cacheGet key, w => (.ok (w.get key), w)
  | .cacheSet key value ttl, w =>
    (.ok (), { w with entries := Function.update w.entries key (some (value, cacheDeadline w.clock ttl)) })
  | .cacheDel key, w => (.ok (), { w with entries := Function.update w.entries key none })
  | .randomUUID, w => (.ok w.nextUuid, { w with nextUuid := w.nextUuid + 1 })
  | .hash otpCode, w => (.ok ⟨otpCode, w.nextSalt⟩, { w with nextSalt := w.nextSalt + 1 })
  | .signToken sub role accessTokenId refreshTokenId expiresIn, w =>
    (.ok ⟨sub, role, accessTokenId, refreshTokenId, w.seconds + expiresIn⟩,
      { w with signed := ⟨sub, role, accessTokenId, refreshTokenId, w.seconds + expiresIn⟩ :: w.signed })
  | .verifyToken token, w => (w.view.verifyToken token, w)
  | .emitOtp _ _ _, w => (.ok (), w)
  | .addOtpJob _ _ _, w => (.ok (), w)

/-- The operations of the service, and the passing of time. -/
inductive TimedOp where
  | getOtp (clientId : Id) (clientType : EClientType) (otpCode : String)
  | verifyOtp (verifyOtpDto : VerifyOtpDto)
  | getRefreshToken (refreshToken : Jwt)
  | logout (refreshToken : Jwt)
  | canActivate (token : Option Jwt)
  | wait (milliseconds : ℕ)

/-- How the program answers, and what it leaves. -/
abbrev TimedIam.reply {α : Type} (w : TimedIam) (p : IamService α) : Except ServiceError α × TimedIam := p.run timedHandle w

def TimedOp.step (env : IamEnvironment) (w : TimedIam) : TimedOp → TimedIam
  | getOtp clientId clientType otpCode => (w.reply (NebLite.getOtp env clientId clientType otpCode)).2
  | verifyOtp dto => (w.reply (NebLite.verifyOtp env dto)).2
  | getRefreshToken token => (w.reply (NebLite.getRefreshToken env token)).2
  | logout token => (w.reply (NebLite.logout token)).2
  | canActivate token => (w.reply (NebLite.canActivate token)).2
  | wait milliseconds => { w with clock := w.clock + milliseconds }

def TimedIam.after (env : IamEnvironment) (w : TimedIam) (ops : List TimedOp) : TimedIam := ops.foldl (TimedOp.step env) w

/-- The program is answered. -/
def TimedIam.Succeeds {α : Type} (w : TimedIam) (p : IamService α) : Prop := ∃ a, (w.reply p).1 = .ok a

/-- The operation issues tokens to the client, refreshes them or logs it out. -/
def TimedOp.Renews (env : IamEnvironment) (client : Client) (w : TimedIam) : TimedOp → Prop
  | verifyOtp dto => dto.clientType = client.role ∧ dto.clientId = client.id ∧ w.Succeeds (NebLite.verifyOtp env dto)
  | getRefreshToken token =>
    token.role = client.role ∧ token.sub = client.id ∧ w.Succeeds (NebLite.getRefreshToken env token)
  | logout token => token.role = client.role ∧ token.sub = client.id ∧ w.Succeeds (NebLite.logout token)
  | _ => False

/-- The operation caches another code for the phone number, or spends the one that there is. -/
def TimedOp.Replaces (env : IamEnvironment) (phone : String) (w : TimedIam) : TimedOp → Prop
  | getOtp clientId clientType _ => ∃ client, w.view.findClient clientType clientId = some client ∧ client.msisdn = phone
  | verifyOtp dto => (∃ client, w.view.findClient dto.clientType dto.clientId = some client ∧ client.msisdn = phone) ∧
      w.Succeeds (NebLite.verifyOtp env dto)
  | _ => False

section View

variable {env : IamEnvironment} {w v : TimedIam} {α : Type}

theorem get_update {k : CacheKey} (entry : Option (k.Value × Option ℕ)) (j : CacheKey) :
    ({ w with entries := Function.update w.entries k entry } : TimedIam).get j =
      Function.update w.get k (entry.bind fun e => if e.2.all (w.clock ≤ ·) then some e.1 else none) j := by
  by_cases hj : j = k
  · subst hj
    simp [TimedIam.get]
  · simp [TimedIam.get, hj]

theorem cacheDeadline_ahead (clock ttl : ℕ) : (cacheDeadline clock ttl).all (clock ≤ ·) = true := by
  unfold cacheDeadline
  split <;> simp

theorem view_handle (op : IamCall) (w : TimedIam) : iamHandle op w.view = (timedHandle op w).map id TimedIam.view := by
  cases op with
  | cacheSet key value ttl =>
    have hcache : ({ w with entries := Function.update w.entries key (some (value, cacheDeadline w.clock ttl)) } :
        TimedIam).get = Function.update w.get key (some value) := by
      funext j
      rw [get_update, Option.bind_some, cacheDeadline_ahead, if_pos rfl]
    simp only [iamHandle, timedHandle, TimedIam.view, Prod.map, id, hcache]
    rfl
  | cacheDel key =>
    have hcache : ({ w with entries := Function.update w.entries key none } : TimedIam).get =
        Function.update w.get key none := by
      funext j
      rw [get_update, Option.bind_none]
    simp only [iamHandle, timedHandle, TimedIam.view, Prod.map, id, hcache]
    rfl
  | _ => rfl

theorem view_run (p : IamService α) (w : TimedIam) : p.run iamHandle w.view = (w.reply p).map id TimedIam.view :=
  Program.run_map view_handle p w

theorem succeeds_iff {p : IamService α} : w.Succeeds p ↔ ∃ a, (p.run iamHandle w.view).1 = .ok a := by
  rw [view_run]
  rfl

end View

/-- What the issue of tokens leaves. -/
def TimedIam.issue (env : IamEnvironment) (w : TimedIam) (client : Client) : TimedIam :=
  { w with
    nextUuid := w.nextUuid + 2
    signed := (w.view.tokens env client).refreshToken :: (w.view.tokens env client).accessToken :: w.signed
    entries := Function.update
      (Function.update w.entries (.refreshToken client.role client.id)
        (some (w.nextUuid + 1, cacheDeadline w.clock env.refreshTokenTtl)))
      (.accessToken client.role client.id) (some (w.nextUuid, cacheDeadline w.clock (env.accessTokenTtl * 1000))) }

/-- The call neither writes nor deletes the entry. -/
def IamCall.Spares (k : CacheKey) : IamCall → Prop
  | .cacheSet key _ _ => key ≠ k
  | .cacheDel key => key ≠ k
  | _ => True

section Entries

variable {env : IamEnvironment} {w v : TimedIam} {k : CacheKey} {α : Type}

theorem IamCall.Spares.entries {op : IamCall} (h : op.Spares k) (w : TimedIam) :
    (timedHandle op w).2.entries k = w.entries k := by
  cases op with
  | cacheSet key value ttl => exact Function.update_of_ne (Ne.symm h) _ _
  | cacheDel key => exact Function.update_of_ne (Ne.symm h) _ _
  | _ => rfl

theorem outcome_spares {p : IamService α} (hp : p.Calls (IamCall.Spares k)) (hw : v.entries k = w.entries k) :
    p.Outcome timedHandle v (fun _ u => u.entries k = w.entries k) fun _ u => u.entries k = w.entries k :=
  hp.outcome (fun _ hop u hu => (hop.entries u).trans hu) hw

theorem outcome_getClientData (clientId : Id) (clientType : EClientType) (w : TimedIam) :
    (getClientData clientId clientType).Outcome timedHandle w
      (fun client v => v = w ∧ w.view.findClient clientType clientId = some client) fun _ v => v = w := by
  unfold getClientData
  have hfound : (iamCall (.findClient clientType clientId)).run timedHandle w =
      (.ok (w.view.findClient clientType clientId), w) := rfl
  refine Program.outcome_after hfound ?_
  cases hc : w.view.findClient clientType clientId with
  | none => exact Program.outcome_throw rfl
  | some client => exact Program.outcome_ret ⟨rfl, rfl⟩

theorem run_generateTokens (w : TimedIam) (client : Client) :
    (generateTokens env client).run timedHandle w = (.ok (w.view.tokens env client), w.issue env client) := rfl

theorem issue_entries {client : Client} (hr : k ≠ .refreshToken client.role client.id)
    (ha : k ≠ .accessToken client.role client.id) : (w.issue env client).entries k = w.entries k :=
  (Function.update_of_ne ha _ _).trans (Function.update_of_ne hr _ _)

/-- `getOtp` only writes the code of the client's phone number. -/
theorem entries_getOtp {clientId : Id} {clientType : EClientType} {otpCode : String}
    (h : ∀ client, w.view.findClient clientType clientId = some client → k ≠ .otp client.msisdn) :
    (w.reply (getOtp env clientId clientType otpCode)).2.entries k = w.entries k := by
  have hkept : (getOtp env clientId clientType otpCode).Outcome timedHandle w (fun _ v => v.entries k = w.entries k)
      fun _ v => v.entries k = w.entries k := by
    unfold getOtp
    refine ((outcome_getClientData clientId clientType w).mono (fun _ _ hv => hv) ?_).bind ?_
    · rintro _ _ rfl
      rfl
    rintro client v ⟨rfl, hc⟩
    refine outcome_spares ?_ rfl
    unfold iamCall
    cases env.skipSmsNotif <;> simp [IamCall.Spares, (h client hc).symm]
  exact hkept.store (P := fun v : TimedIam => v.entries k = w.entries k)

/-- A refused `verifyOtp` leaves the entry, an answered one all but the entries of its client. -/
theorem outcome_verifyOtp (env : IamEnvironment) (dto : VerifyOtpDto) (w : TimedIam) (k : CacheKey) :
    (verifyOtp env dto).Outcome timedHandle w
      (fun _ v => v.entries k = w.entries k ∨ ∃ client, w.view.findClient dto.clientType dto.clientId = some client ∧
        (k = .otp client.msisdn ∨ k = .refreshToken client.role client.id ∨ k = .accessToken client.role client.id))
      fun _ v => v.entries k = w.entries k := by
  unfold verifyOtp
  refine ((outcome_getClientData dto.clientId dto.clientType w).mono (fun _ _ hv => hv) ?_).bind ?_
  · rintro _ _ rfl
    rfl
  rintro client v ⟨rfl, hc⟩
  have hread : (iamCall (.cacheGet (.otp client.msisdn))).run timedHandle v = (.ok (v.get (.otp client.msisdn)), v) := rfl
  refine Program.outcome_after hread ?_
  cases v.get (.otp client.msisdn) with
  | none => exact Program.outcome_throw rfl
  | some hashed =>
    simp only [↓Program.throw_seq]
    split
    · exact Program.outcome_throw rfl
    let dropped : TimedIam := { v with entries := Function.update v.entries (.otp client.msisdn) none }
    have hspent : (iamCall (.cacheDel (.otp client.msisdn))).run timedHandle v = (.ok (), dropped) := rfl
    refine Program.outcome_after hspent (Program.outcome_of_ok (run_generateTokens dropped client) ?_)
    by_cases hk : k = .otp client.msisdn ∨ k = .refreshToken client.role client.id ∨ k = .accessToken client.role client.id
    · exact .inr ⟨client, hc, hk⟩
    · obtain ⟨ho, hr, ha⟩ : k ≠ .otp client.msisdn ∧ k ≠ .refreshToken client.role client.id ∧
          k ≠ .accessToken client.role client.id := by tauto
      left
      rw [issue_entries hr ha]
      exact Function.update_of_ne ho _ _

theorem outcome_verifyToken (token : Jwt) (w : TimedIam) : (iamCall (.verifyToken token)).Outcome timedHandle w
    (fun payload v => v = w ∧ payload = token) fun _ v => v = w := by
  have hrun : (iamCall (.verifyToken token)).run timedHandle w = (w.view.verifyToken token, w) :=
    Program.run_perform timedHandle (.verifyToken token) w
  unfold Program.Outcome
  rw [hrun, IamWorld.verifyToken]
  by_cases hs : token ∈ w.view.signed
  · by_cases hn : w.view.now < token.exp
    · rw [if_pos hs, if_pos hn]
      exact ⟨rfl, rfl⟩
    · rw [if_pos hs, if_neg hn]
  · rw [if_neg hs]

theorem outcome_tokenInfo (token : Jwt) (w : TimedIam) : (getClientAndTokenIdInfo token).Outcome timedHandle w
    (fun a v => v = w ∧ a.1.role = token.role ∧ a.1.id = token.sub) fun _ v => v = w := by
  unfold getClientAndTokenIdInfo
  refine (outcome_verifyToken token w).bind ?_
  rintro payload v ⟨rfl, hpayload⟩
  rw [hpayload]
  refine (outcome_getClientData _ _ v).bind ?_
  rintro client v ⟨rfl, hc⟩
  exact Program.outcome_ret ⟨rfl, findClient_some hc⟩

/-- Only a valid refresh token is deleted. -/
theorem outcome_validateRefreshToken (client : Client) (refreshTokenId : Option Uuid) (w : TimedIam) :
    (validateRefreshToken client refreshTokenId).Outcome timedHandle w
      (fun valid v => if valid then
        v = { w with entries := Function.update w.entries (.refreshToken client.role client.id) none } else v = w)
      fun _ v => v = w := by
  have hread : (iamCall (.cacheGet (.refreshToken client.role client.id))).run timedHandle w =
      (.ok (w.get (.refreshToken client.role client.id)), w) := rfl
  unfold validateRefreshToken
  refine Program.outcome_after hread ?_
  split
  · exact rfl
  · exact rfl

/-- A refused `getRefreshToken` leaves the entry, an answered one all but those of the token's client. -/
theorem outcome_getRefreshToken (env : IamEnvironment) (token : Jwt) (w : TimedIam) (k : CacheKey) :
    (getRefreshToken env token).Outcome timedHandle w
      (fun _ v => v.entries k = w.entries k ∨ k = .refreshToken token.role token.sub ∨ k = .accessToken token.role token.sub)
      fun _ v => v.entries k = w.entries k := by
  unfold getRefreshToken
  refine Program.Outcome.bind (Q := fun client v => client.role = token.role ∧ client.id = token.sub ∧
      v = { w with entries := Function.update w.entries (.refreshToken client.role client.id) none })
    (Program.Outcome.catching (E := fun _ v => v = w) ?_
      fun _ _ hv => Program.outcome_throw (congrArg (·.entries k) hv)) ?_
  · refine (outcome_tokenInfo token w).bind ?_
    rintro ⟨client, refreshTokenId⟩ v ⟨rfl, hrole, hid⟩
    refine (outcome_validateRefreshToken client refreshTokenId v).bind fun valid u hu => ?_
    cases valid with
    | true => exact Program.outcome_ret ⟨hrole, hid, hu⟩
    | false => exact Program.outcome_throw hu
  rintro client v ⟨hrole, hid, rfl⟩
  refine Program.outcome_of_ok (run_generateTokens _ client) ?_
  rw [← hrole, ← hid]
  by_cases hk : k = .refreshToken client.role client.id ∨ k = .accessToken client.role client.id
  · exact .inr hk
  · obtain ⟨hr, ha⟩ := not_or.mp hk
    left
    rw [issue_entries hr ha]
    exact Function.update_of_ne hr _ _

theorem outcome_logout (token : Jwt) (w : TimedIam) (k : CacheKey) : (logout token).Outcome timedHandle w
      (fun _ v => v.entries k = w.entries k ∨ k = .refreshToken token.role token.sub ∨ k = .accessToken token.role token.sub)
      fun _ v => v.entries k = w.entries k := by
  unfold logout
  refine ((outcome_tokenInfo token w).mono (fun _ _ h => h) fun _ v hv => congrArg (·.entries k) hv).bind ?_
  rintro ⟨client, refreshTokenId⟩ v ⟨rfl, hrole, hid⟩
  refine ((outcome_validateRefreshToken client refreshTokenId v).mono (fun _ _ h => h)
    fun _ u hu => congrArg (·.entries k) hu).bind fun valid u hu => ?_
  cases valid with
  | false => exact Program.outcome_throw (congrArg (·.entries k) hu)
  | true =>
    have hout : (iamCall (.cacheDel (.accessToken client.role client.id))).run timedHandle u =
        (.ok (), { u with entries := Function.update u.entries (.accessToken client.role client.id) none }) := rfl
    refine Program.outcome_after hout (Program.outcome_ret ?_)
    rw [← hrole, ← hid]
    by_cases hk : k = .refreshToken client.role client.id ∨ k = .accessToken client.role client.id
    · exact .inr hk
    · obtain ⟨hr, ha⟩ := not_or.mp hk
      left
      change Function.update u.entries _ none k = v.entries k
      rw [Function.update_of_ne ha]
      obtain rfl : u = _ := hu
      exact Function.update_of_ne hr _ _

theorem entries_canActivate (token : Option Jwt) : (w.reply (canActivate token)).2.entries k = w.entries k := by
  have hclient (id : Id) (t : EClientType) : (getClientData id t).Calls (IamCall.Spares k) := by
    refine Program.Calls.bind ((Program.calls_perform _).mpr trivial) fun o => ?_
    cases o <;> trivial
  have hreads : (canActivate token).Calls (IamCall.Spares k) := by
    unfold canActivate
    cases token with
    | none => trivial
    | some token =>
      refine Program.Calls.catching ?_ fun _ => trivial
      refine Program.Calls.bind ((Program.calls_perform _).mpr trivial) fun payload => ?_
      refine (hclient _ _).bind fun client => ?_
      refine Program.Calls.bind ((Program.calls_perform _).mpr trivial) fun cached => ?_
      simp only [↓Program.throw_seq]
      split <;> trivial
  exact (outcome_spares hreads rfl).store (P := fun v : TimedIam => v.entries k = w.entries k)

end Entries

section Steps

variable {env : IamEnvironment} {w v : TimedIam} {client : Client} {k : CacheKey} {op : TimedOp}

theorem entries_of_not_renews (h : ¬ op.Renews env client w)
    (hk : k = .refreshToken client.role client.id ∨ k = .accessToken client.role client.id) :
    (op.step env w).entries k = w.entries k := by
  have hsame {role : EClientType} {id : Id} (hr : k = .refreshToken role id ∨ k = .accessToken role id) :
      role = client.role ∧ id = client.id := by
    rcases hk with rfl | rfl <;> rcases hr with hr | hr <;> cases hr <;> exact ⟨rfl, rfl⟩
  cases op with
  | getOtp clientId clientType otpCode =>
    refine entries_getOtp fun c _ => ?_
    rcases hk with rfl | rfl <;> simp
  | verifyOtp dto =>
    obtain ⟨a, ha, hkept | ⟨c, hc, ho | hr⟩⟩ | ⟨e, he, hkept⟩ := (outcome_verifyOtp env dto w k).cases
    · exact hkept
    · rcases hk with rfl | rfl <;> cases ho
    · obtain ⟨hrole, hid⟩ := findClient_some hc
      obtain ⟨hrole', hid'⟩ := hsame hr
      exact absurd ⟨hrole.symm.trans hrole', hid.symm.trans hid', a, ha⟩ h
    · exact hkept
  | getRefreshToken token =>
    obtain ⟨a, ha, hkept | hr⟩ | ⟨e, he, hkept⟩ := (outcome_getRefreshToken env token w k).cases
    · exact hkept
    · obtain ⟨hrole, hid⟩ := hsame hr
      exact absurd ⟨hrole, hid, a, ha⟩ h
    · exact hkept
  | logout token =>
    obtain ⟨a, ha, hkept | hr⟩ | ⟨e, he, hkept⟩ := (outcome_logout token w k).cases
    · exact hkept
    · obtain ⟨hrole, hid⟩ := hsame hr
      exact absurd ⟨hrole, hid, a, ha⟩ h
    · exact hkept
  | canActivate token => exact entries_canActivate token
  | wait milliseconds => rfl

theorem entries_of_not_replaces {phone : String} (h : ¬ op.Replaces env phone w) :
    (op.step env w).entries (.otp phone) = w.entries (.otp phone) := by
  cases op with
  | getOtp clientId clientType otpCode =>
    refine entries_getOtp fun c hc he => h ⟨c, hc, ?_⟩
    cases he
    rfl
  | verifyOtp dto =>
    obtain ⟨a, ha, hkept | ⟨c, hc, ho | ho | ho⟩⟩ | ⟨e, he, hkept⟩ := (outcome_verifyOtp env dto w (.otp phone)).cases
    · exact hkept
    · cases ho
      exact absurd ⟨⟨c, hc, rfl⟩, a, ha⟩ h
    · cases ho
    · cases ho
    · exact hkept
  | getRefreshToken token =>
    obtain ⟨a, ha, hkept | hr | hr⟩ | ⟨e, he, hkept⟩ := (outcome_getRefreshToken env token w (.otp phone)).cases
    · exact hkept
    · cases hr
    · cases hr
    · exact hkept
  | logout token =>
    obtain ⟨a, ha, hkept | hr | hr⟩ | ⟨e, he, hkept⟩ := (outcome_logout token w (.otp phone)).cases
    · exact hkept
    · cases hr
    · cases hr
    · exact hkept
  | canActivate token => exact entries_canActivate token
  | wait milliseconds => rfl

/-- Profiles stay, signed tokens stay signed, and the clock does not go back. -/
structure TimedIam.Goes (w v : TimedIam) : Prop where
  profiles : v.profiles = w.profiles
  signed : ∀ token ∈ w.signed, token ∈ v.signed
  clock : w.clock ≤ v.clock

theorem TimedIam.Goes.refl (w : TimedIam) : w.Goes w := ⟨rfl, fun _ h => h, le_rfl⟩

theorem TimedIam.Goes.trans {u : TimedIam} (h : w.Goes v) (h' : v.Goes u) : w.Goes u :=
  ⟨h'.profiles.trans h.profiles, fun token ht => h'.signed token (h.signed token ht), h.clock.trans h'.clock⟩

theorem goes_reply {α : Type} (p : IamService α) (w : TimedIam) : w.Goes (w.reply p).2 := by
  have hkeeps : Program.Keeps timedHandle TimedIam.Goes p := by
    refine Program.keeps_of_handler (fun w => .refl w) (fun _ _ _ h h' => h.trans h') (fun op w => ?_) p
    cases op with
    | signToken => exact ⟨rfl, fun _ h => List.mem_cons_of_mem _ h, le_rfl⟩
    | _ => exact ⟨rfl, fun _ h => h, le_rfl⟩
  exact hkeeps w

theorem goes_step (op : TimedOp) (w : TimedIam) : w.Goes (op.step env w) := by
  cases op with
  | wait milliseconds => exact ⟨rfl, fun _ h => h, Nat.le_add_right _ _⟩
  | _ => exact goes_reply _ w

theorem entries_after {ok : TimedIam → TimedOp → Prop} (hok : ∀ w op, ok w op → (op.step env w).entries k = w.entries k)
    {ops : List TimedOp} (hm : Runs.Meets (TimedOp.step env) ok w ops) :
    (w.after env ops).entries k = w.entries k ∧ w.Goes (w.after env ops) := by
  have hstep (v : TimedIam) (op : TimedOp) (hv : v.entries k = w.entries k ∧ w.Goes v) (hop : ok v op) :
      (op.step env v).entries k = w.entries k ∧ w.Goes (op.step env v) :=
    ⟨(hok v op hop).trans hv.1, hv.2.trans (goes_step op v)⟩
  exact Runs.invariant hstep ⟨rfl, .refl w⟩ hm

end Steps

/-- Both tokens are accepted exactly while they are unexpired. -/
structure TimedIam.Honours (env : IamEnvironment) (w : TimedIam) (tokens : Tokens) : Prop where
  refreshToken : w.Succeeds (getRefreshToken env tokens.refreshToken) ↔ w.seconds < tokens.refreshToken.exp
  accessToken : w.Succeeds (canActivate (some tokens.accessToken)) ↔ w.seconds < tokens.accessToken.exp

section Lifetimes

variable {env : IamEnvironment} {w v : TimedIam} {client : Client}

theorem get_entry {k : CacheKey} {value : k.Value} {clock ttl : ℕ} (h : w.entries k = some (value, cacheDeadline clock ttl)) :
    w.get k = if ttl = 0 ∨ w.clock ≤ clock + ttl then some value else none := by
  rw [TimedIam.get, h, Option.bind_some, cacheDeadline]
  by_cases ht : ttl = 0
  · simp [ht]
  · simp [ht]

theorem succeeds_refresh_iff {token : Jwt} : w.Succeeds (getRefreshToken env token) ↔
    token ∈ w.signed ∧ w.seconds < token.exp ∧ ∃ client, w.view.findClient token.role token.sub = some client ∧
      w.get (.refreshToken client.role client.id) = token.refreshTokenId := by
  rw [succeeds_iff]
  obtain ⟨c, ⟨⟨hs, hn⟩, hc, hcache⟩, hrun⟩ | ⟨hno, e, hrun⟩ := run_getRefreshToken env token w.view
  · rw [hrun]
    exact ⟨fun _ => ⟨hs, hn, c, hc, hcache⟩, fun _ => ⟨_, rfl⟩⟩
  · rw [hrun]
    constructor
    · rintro ⟨a, ha⟩
      cases ha
    · rintro ⟨hs, hn, c, hc, hcache⟩
      exact absurd ⟨c, ⟨hs, hn⟩, hc, hcache⟩ hno

theorem succeeds_guard_iff {token : Jwt} : w.Succeeds (canActivate (some token)) ↔
    token ∈ w.signed ∧ w.seconds < token.exp ∧ (w.view.findClient token.role token.sub).isSome ∧
      w.get (.accessToken token.role token.sub) = token.accessTokenId :=
  succeeds_iff.trans accepts_iff

/-- After an issue of tokens the guard and `getRefreshToken` honour them as long as the entry
of the refresh token does not expire before the token. -/
theorem honours_iff (hclient : w.view.findClient client.role client.id = some client) {ops : List TimedOp}
    (hops : Runs.Meets (TimedOp.step env) (fun v op => ¬ op.Renews env client v) (w.issue env client) ops) :
    ((w.issue env client).after env ops).Honours env (w.view.tokens env client) ↔
      ((w.issue env client).after env ops).clock ≤ w.clock + env.refreshTokenTtl ∨
        w.seconds + env.refreshTokenTtl ≤ ((w.issue env client).after env ops).seconds := by
  obtain ⟨hrefresh, hgoes⟩ := entries_after (k := .refreshToken client.role client.id)
    (fun _ _ hop => entries_of_not_renews hop (.inl rfl)) hops
  obtain ⟨haccess, -⟩ := entries_after (k := .accessToken client.role client.id)
    (fun _ _ hop => entries_of_not_renews hop (.inr rfl)) hops
  generalize (w.issue env client).after env ops = v at hrefresh haccess hgoes ⊢
  have hclock : w.clock ≤ v.clock := hgoes.clock
  have hfound : v.view.findClient client.role client.id = some client := by
    rw [← hclient]
    simp only [IamWorld.findClient, TimedIam.view, hgoes.profiles]
    rfl
  have hr : v.entries (.refreshToken client.role client.id) =
      some (w.nextUuid + 1, cacheDeadline w.clock env.refreshTokenTtl) := by
    have hne : CacheKey.refreshToken client.role client.id ≠ .accessToken client.role client.id := by simp
    rw [hrefresh, TimedIam.issue]
    simp only [Function.update_of_ne hne, Function.update_self]
  have ha : v.entries (.accessToken client.role client.id) =
      some (w.nextUuid, cacheDeadline w.clock (env.accessTokenTtl * 1000)) := haccess.trans (Function.update_self ..)
  have hrefreshed : v.Succeeds (getRefreshToken env (w.view.tokens env client).refreshToken) ↔
      v.seconds < w.seconds + env.refreshTokenTtl ∧
        (env.refreshTokenTtl = 0 ∨ v.clock ≤ w.clock + env.refreshTokenTtl) := by
    have hsigned := hgoes.signed (w.view.tokens env client).refreshToken List.mem_cons_self
    rw [succeeds_refresh_iff]
    constructor
    · rintro ⟨-, hn, c, hc, hcache⟩
      obtain rfl : client = c := Option.some.inj (hfound.symm.trans hc)
      refine ⟨hn, ?_⟩
      by_contra hlate
      rw [get_entry hr, if_neg hlate] at hcache
      cases hcache
    · rintro ⟨hn, hlive⟩
      refine ⟨hsigned, hn, client, hfound, ?_⟩
      rw [get_entry hr, if_pos hlive]
      rfl
  have hguarded : v.Succeeds (canActivate (some (w.view.tokens env client).accessToken)) ↔
      v.seconds < w.seconds + env.accessTokenTtl ∧
        (env.accessTokenTtl * 1000 = 0 ∨ v.clock ≤ w.clock + env.accessTokenTtl * 1000) := by
    have hsigned := hgoes.signed (w.view.tokens env client).accessToken (List.mem_cons_of_mem _ List.mem_cons_self)
    have hsome : (v.view.findClient client.role client.id).isSome := by rw [hfound]; rfl
    rw [succeeds_guard_iff]
    constructor
    · rintro ⟨-, hn, -, hcache⟩
      refine ⟨hn, ?_⟩
      by_contra hlate
      change v.get (.accessToken client.role client.id) = some w.nextUuid at hcache
      rw [get_entry ha, if_neg hlate] at hcache
      cases hcache
    · rintro ⟨hn, hlive⟩
      refine ⟨hsigned, hn, hsome, ?_⟩
      change v.get (.accessToken client.role client.id) = some w.nextUuid
      rw [get_entry ha, if_pos hlive]
  constructor
  · rintro ⟨hhonoured, -⟩
    have hlive (hn : v.seconds < w.seconds + env.refreshTokenTtl) := (hrefreshed.mp (hhonoured.mpr hn)).2
    by_cases hn : v.seconds < w.seconds + env.refreshTokenTtl
    · rcases hlive hn with hzero | hlive
      · have hback : w.seconds ≤ v.seconds := Nat.div_le_div_right hclock
        rw [hzero] at hn
        exact absurd hn (not_lt.mpr hback)
      · exact .inl hlive
    · exact .inr (not_lt.mp hn)
  · intro hlive
    refine ⟨hrefreshed.trans ⟨And.left, fun hn => ⟨hn, ?_⟩⟩, hguarded.trans ⟨And.left, fun hn => ⟨hn, ?_⟩⟩⟩
    · change v.seconds < w.seconds + env.refreshTokenTtl at hn
      exact .inr (hlive.resolve_right (not_le.mpr hn))
    · change v.seconds < w.seconds + env.accessTokenTtl at hn
      have hticks : v.clock / 1000 < w.clock / 1000 + env.accessTokenTtl := hn
      omega

/-- A code that has been cached under the client's phone number is verified while its entry is there. -/
theorem succeeds_verify_iff (hashed : HashedOtp) {clock ttl : ℕ} (hclient : w.view.findClient client.role client.id = some client)
    (h : w.entries (.otp client.msisdn) = some (hashed, cacheDeadline clock ttl)) :
    w.Succeeds (verifyOtp env ⟨client.id, hashed.code, client.role⟩) ↔ ttl = 0 ∨ w.clock ≤ clock + ttl := by
  have hcache : w.view.cache (.otp client.msisdn) = if ttl = 0 ∨ w.clock ≤ clock + ttl then some hashed else none :=
    get_entry h
  rw [succeeds_iff]
  unfold verifyOtp
  rw [run_client _ hclient, run_cacheGet, hcache]
  by_cases hlive : ttl = 0 ∨ w.clock ≤ clock + ttl
  · rw [if_pos hlive]
    have hsame : hashed.compare hashed.code = true := beq_self_eq_true hashed.code
    simp only [hsame, not_true_eq_false, if_false, hlive, iff_true]
    exact ⟨_, rfl⟩
  · rw [if_neg hlive]
    simp only [hlive, iff_false]
    rintro ⟨a, ha⟩
    cases ha

theorem entries_otp (env : IamEnvironment) (otpCode : String) (hclient : w.view.findClient client.role client.id = some client) :
    (w.reply (getOtp env client.id client.role otpCode)).2.entries (.otp client.msisdn) =
      some (⟨otpCode, w.nextSalt⟩, cacheDeadline w.clock env.otpTtlSec) := by
  have hdata : (getClientData client.id client.role).run timedHandle w = (.ok client, w) := by
    have hfound : (iamCall (.findClient client.role client.id)).run timedHandle w = (.ok (some client), w) := by
      rw [← hclient]
      rfl
    unfold getClientData
    rw [Program.run_bind_ok _ hfound]
    rfl
  unfold TimedIam.reply getOtp
  rw [Program.run_bind_ok _ hdata]
  cases env.skipSmsNotif with
  | true => exact Function.update_self (CacheKey.otp client.msisdn) _ w.entries
  | false => exact Function.update_self (CacheKey.otp client.msisdn) _ w.entries

/-- An issue of tokens is honoured, and a code can be verified, exactly while the times that
the code gives to the cache in milliseconds are not over before those that it means. -/
theorem lifetimes_agree_iff (env : IamEnvironment) (w : TimedIam) (client : Client)
    (hclient : w.view.findClient client.role client.id = some client) (otpCode : String) :
    (∀ tokens v ops, (generateTokens env client).run timedHandle w = (.ok tokens, v) →
      Runs.Meets (TimedOp.step env) (fun u op => ¬ op.Renews env client u) v ops →
      ((v.after env ops).Honours env tokens ↔
        (v.after env ops).clock ≤ w.clock + env.refreshTokenTtl ∨
          w.seconds + env.refreshTokenTtl ≤ (v.after env ops).seconds)) ∧
    (∀ answer v ops, (getOtp env client.id client.role otpCode).run timedHandle w = (.ok answer, v) →
      Runs.Meets (TimedOp.step env) (fun u op => ¬ op.Replaces env client.msisdn u) v ops →
      (((v.after env ops).Succeeds (verifyOtp env ⟨client.id, otpCode, client.role⟩) ↔
          (v.after env ops).clock < w.clock + 1000 * env.otpTtlSec) ↔
        0 < env.otpTtlSec ∧ ((v.after env ops).clock ≤ w.clock + env.otpTtlSec ∨
          w.clock + 1000 * env.otpTtlSec ≤ (v.after env ops).clock))) := by
  constructor
  · intro tokens v ops hrun hops
    rw [run_generateTokens] at hrun
    cases hrun
    exact honours_iff hclient hops
  · intro answer v ops hrun hops
    have hgoes : w.Goes v := by
      have hreply := goes_reply (getOtp env client.id client.role otpCode) w
      rwa [TimedIam.reply, hrun] at hreply
    have hcached : v.entries (.otp client.msisdn) = some (⟨otpCode, w.nextSalt⟩, cacheDeadline w.clock env.otpTtlSec) := by
      have hentry := entries_otp env otpCode hclient
      rwa [TimedIam.reply, hrun] at hentry
    obtain ⟨hkept, hlater⟩ := entries_after (fun _ _ hop => entries_of_not_replaces hop) hops
    have hfound : (v.after env ops).view.findClient client.role client.id = some client := by
      rw [← hclient]
      simp only [IamWorld.findClient, TimedIam.view, hlater.profiles, hgoes.profiles]
    have hclock : w.clock ≤ (v.after env ops).clock := hgoes.clock.trans hlater.clock
    rw [succeeds_verify_iff ⟨otpCode, w.nextSalt⟩ hfound (hkept.trans hcached)]
    omega

end Lifetimes

/-- The service of one rider when its clock starts. -/
def timedRider : TimedIam where
  profiles := oneRider
  entries := fun _ => none
  signed := []
  nextUuid := 0
  nextSalt := 0
  clock := 0

def riderClient : Client := ⟨1, "+628111", .rider⟩

/-- Two hours after the issue the tokens are honoured, and a code that has been sent for 200
milliseconds can be verified. -/
theorem lifetimes_agree_early :
    ((timedRider.issue hourly riderClient).after hourly [.wait 7200000]).Honours hourly
      (timedRider.view.tokens hourly riderClient) ∧
    (((timedRider.reply (getOtp hourly 1 .rider "123456")).2.after hourly [.wait 200]).Succeeds
      (verifyOtp hourly ⟨1, "123456", .rider⟩) ↔
        ((timedRider.reply (getOtp hourly 1 .rider "123456")).2.after hourly [.wait 200]).clock < 300000) := by
  have hwait (v : TimedIam) (n : ℕ) {ok : TimedIam → TimedOp → Prop} (hok : ∀ u, ok u (.wait n)) :
      Runs.Meets (TimedOp.step hourly) ok v [.wait n] := ⟨hok v, trivial⟩
  obtain ⟨hsession, hotp⟩ := lifetimes_agree_iff hourly timedRider riderClient (by decide +kernel) "123456"
  refine ⟨(hsession _ _ [.wait 7200000] rfl (hwait _ _ fun _ h => h)).mpr (by decide +kernel), ?_⟩
  exact (hotp "otp code sent" _ [.wait 200] rfl (hwait _ _ fun _ h => h)).mpr (by decide +kernel)

/-- Three hours after the issue the refresh token, which is signed for a hundred days, is
refused, and a code is refused after half a second, which is meant to live for five minutes. -/
theorem refresh_token_refused :
    ¬ ((timedRider.issue hourly riderClient).after hourly [.wait 10800000]).Honours hourly
      (timedRider.view.tokens hourly riderClient) ∧
    ¬ (((timedRider.reply (getOtp hourly 1 .rider "123456")).2.after hourly [.wait 500]).Succeeds
      (verifyOtp hourly ⟨1, "123456", .rider⟩) ↔
        ((timedRider.reply (getOtp hourly 1 .rider "123456")).2.after hourly [.wait 500]).clock < 300000) := by
  have hrefused : ¬ ((timedRider.issue hourly riderClient).after hourly [.wait 10800000]).Succeeds
      (getRefreshToken hourly (timedRider.view.tokens hourly riderClient).refreshToken) := by
    have hreply : (((timedRider.issue hourly riderClient).after hourly [.wait 10800000]).reply
        (getRefreshToken hourly (timedRider.view.tokens hourly riderClient).refreshToken)).1.isOk = false := by
      decide +kernel
    rintro ⟨a, ha⟩
    rw [ha] at hreply
    cases hreply
  have hunverified : ¬ ((timedRider.reply (getOtp hourly 1 .rider "123456")).2.after hourly [.wait 500]).Succeeds
      (verifyOtp hourly ⟨1, "123456", .rider⟩) := by
    have hreply : (((timedRider.reply (getOtp hourly 1 .rider "123456")).2.after hourly [.wait 500]).reply
        (verifyOtp hourly ⟨1, "123456", .rider⟩)).1.isOk = false := by decide +kernel
    rintro ⟨a, ha⟩
    rw [ha] at hreply
    cases hreply
  exact ⟨fun h => hrefused (h.refreshToken.mpr (by decide +kernel)), fun h => hunverified (h.mpr (by decide +kernel))⟩

end NebLite
