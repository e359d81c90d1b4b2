import NebLite.Gateway.GatewayRuns

/-! Nobody but its owner ends a session: what other clients ask of the gateway leaves an
accepted token accepted. -/

namespace NebLite

open Atomic

/-- The step is not a login, a refresh or a logout of the token's owner, and it does not
drop the cached identifier of the owner's access token. -/
def GatewayStep.SparesSession (genv : GatewayEnvironment) (token : Jwt) : GatewayStep → Prop
  | .request _ _ (.verifyOtp dto) => ¬ (dto.clientType = token.role ∧ dto.clientId = token.sub)
  | .request _ _ (.getRefreshToken text) | .request _ _ (.logout text) =>
    ∀ t, genv.decodeToken text = some t → ¬ (t.role = token.role ∧ t.sub = token.sub)
  | .expire key => key ≠ .accessToken token.role token.sub
  | _ => True

/-- `SparesSession`, for an operation of the identity service. -/
def SessionOp.Spares (token : Jwt) : SessionOp → Prop
  | .verifyOtp dto => ¬ (dto.clientType = token.role ∧ dto.clientId = token.sub)
  | .getRefreshToken t | .logout t => ¬ (t.role = token.role ∧ t.sub = token.sub)
  | .expire key => key ≠ .accessToken token.role token.sub
  | _ => True

/-- The token was signed, and the cache still holds its access token identifier. -/
def IamWorld.Remembers (w : IamWorld) (token : Jwt) : Prop :=
  token ∈ w.signed ∧ w.cache (.accessToken token.role token.sub) = token.accessTokenId

section Remembers

variable {genv : GatewayEnvironment} {env : IamEnvironment} {w : IamWorld} {token : Jwt} {sessions : Sessions}

theorem IamWorld.Remembers.drop (h : w.Remembers token) {key : CacheKey}
    (hkey : key ≠ .accessToken token.role token.sub) : (w.drop key).Remembers token := by
  have hkept : (w.drop key).cache (.accessToken token.role token.sub) =
      w.cache (.accessToken token.role token.sub) := Function.update_of_ne (Ne.symm hkey) ..
  exact ⟨h.1, hkept.trans h.2⟩

theorem IamWorld.Remembers.issue (h : w.Remembers token) {client : Client}
    (hne : ¬ (client.role = token.role ∧ client.id = token.sub)) : (w.issue env client).Remembers token := by
  refine ⟨List.mem_cons_of_mem _ (List.mem_cons_of_mem _ h.1), ?_⟩
  have haccess : CacheKey.accessToken token.role token.sub ≠ .accessToken client.role client.id := by
    simp only [ne_eq, CacheKey.accessToken.injEq]
    rintro ⟨hrole, hid⟩
    exact hne ⟨hrole.symm, hid.symm⟩
  have hrefresh : CacheKey.accessToken token.role token.sub ≠ .refreshToken client.role client.id := by simp
  simp only [IamWorld.issue]
  rw [Function.update_of_ne haccess, Function.update_of_ne hrefresh]
  exact h.2

theorem IamWorld.Remembers.sessionOp (h : w.Remembers token) {op : SessionOp} (hop : op.Spares token) :
    (op.step env ⟨w, sessions⟩).world.Remembers token := by
  cases op with
  | getOtp clientId clientType otpCode =>
    simp only [SessionOp.step]
    rcases run_getOtp env clientId clientType otpCode w with hw | ⟨phone, hashed, hw⟩
    · rw [hw]
      exact h
    · rw [hw]
      have hne : CacheKey.accessToken token.role token.sub ≠ .otp phone := by simp
      exact ⟨h.1, (Function.update_of_ne hne (some hashed) w.cache).trans h.2⟩
  | verifyOtp dto =>
    simp only [SessionOp.step]
    obtain ⟨e, hrun⟩ | ⟨client, -, hc, -, -, hrun⟩ := run_verifyOtp env dto w
    · rw [hrun]
      exact h
    · obtain ⟨hrole, hid⟩ := findClient_some hc
      rw [hrun]
      have hdropped : (w.drop (.otp client.msisdn)).Remembers token := h.drop (by simp)
      exact hdropped.issue fun hown => hop ⟨hrole.symm.trans hown.1, hid.symm.trans hown.2⟩
  | getRefreshToken t =>
    simp only [SessionOp.step]
    obtain ⟨client, ⟨-, hc, -⟩, hrun⟩ | ⟨-, e, hrun⟩ := run_getRefreshToken env t w
    · obtain ⟨hrole, hid⟩ := findClient_some hc
      rw [hrun]
      have hdropped : (w.drop (.refreshToken client.role client.id)).Remembers token := h.drop (by simp)
      exact hdropped.issue fun hown => hop ⟨hrole.symm.trans hown.1, hid.symm.trans hown.2⟩
    · rw [hrun]
      exact h
  | logout t =>
    simp only [SessionOp.step]
    obtain ⟨client, ⟨-, hc, -⟩, hrun⟩ | ⟨-, e, hrun⟩ := run_logout t w
    · obtain ⟨hrole, hid⟩ := findClient_some hc
      rw [hrun]
      have hdropped : (w.drop (.refreshToken client.role client.id)).Remembers token := h.drop (by simp)
      apply hdropped.drop
      simp only [ne_eq, CacheKey.accessToken.injEq]
      rintro ⟨hr, hs⟩
      exact hop ⟨hrole.symm.trans hr, hid.symm.trans hs⟩
    · rw [hrun]
      exact h
  | expire key => exact h.drop hop
  | tick => exact h

theorem IamWorld.Remembers.step {s : GatewayState} (h : s.iam.Remembers token) {st : GatewayStep}
    (hst : st.SparesSession genv token) : (st.step genv s).iam.Remembers token := by
  by_cases hprofiles : ∀ stored, st ≠ .profiles stored
  · have hiam := step_iam genv s (fun _ _ => none) hprofiles
    cases hop : st.sessionOp genv with
    | none =>
      rw [hop] at hiam
      exact hiam ▸ h
    | some op =>
      rw [hop] at hiam
      rw [hiam]
      apply h.sessionOp
      unfold GatewayStep.sessionOp at hop
      split at hop
      · cases hop
        trivial
      · cases hop
        exact hst
      · obtain ⟨t, ht, rfl⟩ := Option.map_eq_some_iff.mp hop
        exact hst t ht
      · obtain ⟨t, ht, rfl⟩ := Option.map_eq_some_iff.mp hop
        exact hst t ht
      · cases hop
        exact hst
      · cases hop
        trivial
      · cases hop
  · obtain ⟨stored, hstored⟩ := not_forall.mp hprofiles
    obtain rfl := not_not.mp hstored
    exact h

end Remembers

end NebLite
