import TokenAuthority.Authenticator.Token
import TokenAuthority.Proofs.KeyRing.Ledger

/-!
# What can happen to an authenticator

The requests to an authenticator of tokens as one type, its responses as another, and a
run of requests one after the other. Only three requests touch the ring: a renewal, a
revocation, and the issue of a token, which makes a key if there is none.
-/

namespace TokenAuthority

namespace TokenAuthenticator

/-- What is asked of an authenticator. -/
inductive Request where
  | issue (principal : String)
  | verify (data : String)
  | authenticate (c : Credential)
  | parse (data : String)
  | renew
  | revoke
  | setLifetime (lifetime : Duration)

/-- What an authenticator responds. -/
inductive Response where
  | issued (answer : Except AuthError IssuedToken)
  | verified (answer : Except Refusal String)
  | judged (answer : Except AuthError Verdict)
  | parsed (answer : Except Malformation Token)
  | renewed (answer : Except AuthError String)
  | revoked (answer : Except AuthError Unit)
  | done

namespace Response

/-- Whether a new current key was made on request. -/
def isRenewal : Response → Bool
  | renewed (.ok _) => true
  | _ => false

/-- Whether all keys were dropped. -/
def isRevocation : Response → Bool
  | revoked (.ok _) => true
  | _ => false

end Response

/-- How many renewals succeeded. -/
def renewals (answers : List Response) : Nat := answers.countP Response.isRenewal

/-- How many revocations succeeded. -/
def revocations (answers : List Response) : Nat := answers.countP Response.isRevocation

theorem renewals_cons (answer : Response) (answers : List Response) :
    renewals (answer :: answers) = (if answer.isRenewal then 1 else 0) + renewals answers := by
  rw [renewals, List.countP_cons, Nat.add_comm]
  rfl

theorem revocations_cons (answer : Response) (answers : List Response) :
    revocations (answer :: answers) =
      (if answer.isRevocation then 1 else 0) + revocations answers := by
  rw [revocations, List.countP_cons, Nat.add_comm]
  rfl

section

variable {m : Type → Type} [Monad m] (s : Surroundings m) (store : KeyStore m)

/-- Responds to a request. -/
def serve (t : TokenAuthenticator) : Request → m (Response × TokenAuthenticator)
  | .issue principal => do
    let (answer, t) ← t.issue s store principal
    return (.issued answer, t)
  | .verify data => do return (.verified (t.verify data (← s.now)), t)
  | .authenticate c => do return (.judged (← (t.toAuthenticator s).authenticate c), t)
  | .parse data => return (.parsed (Token.parse data), t)
  | .renew => do
    let (answer, t) ← t.renew s store
    return (.renewed answer, t)
  | .revoke => do
    let (answer, t) ← t.revoke store
    return (.revoked answer, t)
  | .setLifetime lifetime => return (.done, t.setLifetime lifetime)

/-- Responds to one request after the other, whether they fail or not. -/
def run : List Request → TokenAuthenticator → m (List Response × TokenAuthenticator)
  | [], t => return ([], t)
  | request :: requests, t => do
    let (answer, t) ← t.serve s store request
    let (answers, t) ← run requests t
    return (answer :: answers, t)

/-- An authenticator is made and serves requests, a token is issued, and more requests
follow. The result is the token, the responses after it, and the authenticator at the end. -/
def history (c : CheckedSettings) (before : List Request) (principal : String)
    (after : List Request) :
    m (Except AuthError (IssuedToken × List Response × TokenAuthenticator)) := do
  match ← start s store c with
  | .error e => return .error e
  | .ok t =>
    let (_, t) ← t.run s store before
    match ← t.issue s store principal with
    | (.error e, _) => return .error e
    | (.ok token, t) =>
      let (answers, t) ← t.run s store after
      return .ok (token, answers, t)

end

/-! ### The parts of a history -/

section

variable {σ : Type} (s : Surroundings (StateM σ)) (store : KeyStore (StateM σ))

theorem run_start (c : CheckedSettings) (w : σ) :
    (start s store c).run w =
      match (KeyRing.seeded s store c.algorithm c.capacity).run w with
      | (.ok ring, w₁) => (.ok ⟨ring, c.lifetime.cut⟩, w₁)
      | (.error e, w₁) => (.error e, w₁) := by
  rw [start, StateT.run_bind]
  obtain ⟨answer, w₁⟩ := (KeyRing.seeded s store c.algorithm c.capacity).run w
  cases answer <;> rfl

theorem run_issue (t : TokenAuthenticator) (principal : String) (w : σ) :
    (t.issue s store principal).run w =
      match (t.ring.current s store).run w with
      | ((.error e, ring), w₁) => ((.error e, { t with ring := ring }), w₁)
      | ((.ok k, ring), w₁) =>
        ((IssuedToken.issue k principal (s.now.run w₁).1 t.lifetime, { t with ring := ring }),
          (s.now.run w₁).2) := by
  rw [issue, StateT.run_bind]
  obtain ⟨⟨answer, ring⟩, w₁⟩ := (t.ring.current s store).run w
  cases answer <;> rfl

variable {s store}

theorem start_of_seeded {c : CheckedSettings} {r : KeyRing} {w w₁ : σ}
    (h : (KeyRing.seeded s store c.algorithm c.capacity).run w = (.ok r, w₁)) :
    (start s store c).run w = (.ok ⟨r, c.lifetime.cut⟩, w₁) := by
  rw [run_start, h]

/-- An authenticator is made with a ring that has one key. -/
theorem seeding_of_start {c : CheckedSettings} {t : TokenAuthenticator} {w w₁ : σ}
    (h : (start s store c).run w = (.ok t, w₁)) :
    KeyRing.Seeding s store c.algorithm c.capacity w (.ok t.ring) w₁ := by
  have hseeding := KeyRing.seeding_seeded s store c.algorithm c.capacity w
  rw [run_start] at h
  generalize (KeyRing.seeded s store c.algorithm c.capacity).run w = seeded at h hseeding
  obtain ⟨e | r, w'⟩ := seeded
  · cases h
  · cases h
    exact hseeding

/-- A token is issued with the newest key, and the ring stays as it is. -/
theorem run_issue_of_keys {t : TokenAuthenticator} {k : SigningKey} {older : List SigningKey}
    (hkeys : t.ring.keys = k :: older) (principal : String) (w : σ) :
    (t.issue s store principal).run w =
      ((IssuedToken.issue k principal (s.now.run w).1 t.lifetime, t), (s.now.run w).2) := by
  have hcurrent : t.ring.current s store = pure (.ok k, t.ring) := by
    rw [KeyRing.current, hkeys]
  rw [run_issue, hcurrent]
  rfl

theorem issue_of_newest {t : TokenAuthenticator} {k : SigningKey} {older : List SigningKey}
    (hkeys : t.ring.keys = k :: older) {principal : String} {token : IssuedToken} {w : σ}
    (h : IssuedToken.issue k principal (s.now.run w).1 t.lifetime = .ok token) :
    (t.issue s store principal).run w = ((.ok token, t), (s.now.run w).2) := by
  rw [run_issue_of_keys hkeys, h]

/-- A history in which a token is issued has four parts. -/
theorem parts_of_history {c : CheckedSettings} {before : List Request} {principal : String}
    {after : List Request} {w w₃ : σ} {token : IssuedToken} {answers : List Response}
    {t₃ : TokenAuthenticator}
    (h : (history s store c before principal after).run w = (.ok (token, answers, t₃), w₃)) :
    ∃ t₀ w₀ earlier t₁ w₁ t₂ w₂,
      (start s store c).run w = (.ok t₀, w₀) ∧
      (t₀.run s store before).run w₀ = ((earlier, t₁), w₁) ∧
      (t₁.issue s store principal).run w₁ = ((.ok token, t₂), w₂) ∧
      (t₂.run s store after).run w₂ = ((answers, t₃), w₃) := by
  rw [history, StateT.run_bind] at h
  cases hstart : (start s store c).run w with
  | mk made w₀ =>
    rw [hstart] at h
    cases made with
    | error e => cases h
    | ok t₀ =>
      change (t₀.run s store before >>= _).run w₀ = _ at h
      rw [StateT.run_bind] at h
      cases hbefore : (t₀.run s store before).run w₀ with
      | mk first w₁ =>
        obtain ⟨earlier, t₁⟩ := first
        rw [hbefore] at h
        change (t₁.issue s store principal >>= _).run w₁ = _ at h
        rw [StateT.run_bind] at h
        cases hissue : (t₁.issue s store principal).run w₁ with
        | mk outcome w₂ =>
          obtain ⟨answer, t₂⟩ := outcome
          rw [hissue] at h
          cases answer with
          | error e => cases h
          | ok token' =>
            change (t₂.run s store after >>= _).run w₂ = _ at h
            rw [StateT.run_bind] at h
            cases hafter : (t₂.run s store after).run w₂ with
            | mk last w₃' =>
              obtain ⟨answers', t₃'⟩ := last
              rw [hafter] at h
              cases h
              exact ⟨t₀, w₀, earlier, t₁, w₁, t₂, w₂, rfl, hbefore, hissue, hafter⟩

theorem history_of_parts {c : CheckedSettings} {before : List Request} {principal : String}
    {after : List Request} {w w₀ w₁ w₂ w₃ : σ} {token : IssuedToken}
    {earlier answers : List Response} {t₀ t₁ t₂ t₃ : TokenAuthenticator}
    (hstart : (start s store c).run w = (.ok t₀, w₀))
    (hbefore : (t₀.run s store before).run w₀ = ((earlier, t₁), w₁))
    (hissue : (t₁.issue s store principal).run w₁ = ((.ok token, t₂), w₂))
    (hafter : (t₂.run s store after).run w₂ = ((answers, t₃), w₃)) :
    (history s store c before principal after).run w = (.ok (token, answers, t₃), w₃) := by
  rw [history, StateT.run_bind, hstart]
  change (t₀.run s store before >>= _).run w₀ = _
  rw [StateT.run_bind, hbefore]
  change (t₁.issue s store principal >>= _).run w₁ = _
  rw [StateT.run_bind, hissue]
  change (t₂.run s store after >>= _).run w₂ = _
  rw [StateT.run_bind, hafter]
  rfl

end

/-! ### What every step keeps -/

section

variable {σ : Type} (s : Surroundings (StateM σ)) (store : KeyStore (StateM σ))
  {P : KeyRing → σ → Prop}

/-- What the steps of the ring keep, and the clock too, every response keeps. No key is given to
the ring. -/
theorem serve_induction
    (step : ∀ r w op answer r' w', (∀ k, op ≠ .push k) → P r w →
      KeyRing.Step s store r w op answer r' w' → P r' w')
    (now : ∀ r w, P r w → P r (s.now.run w).2) {t : TokenAuthenticator} {w : σ}
    (h : P t.ring w) (request : Request) :
    P ((t.serve s store request).run w).1.2.ring ((t.serve s store request).run w).2 := by
  cases request with
  | issue principal =>
      have hcurrent := step _ _ _ _ _ _ (by simp) h (KeyRing.step_current s store t.ring w)
      change P ((t.issue s store principal).run w).1.2.ring
        ((t.issue s store principal).run w).2
      rw [run_issue]
      generalize (t.ring.current s store).run w = outcome at hcurrent ⊢
      obtain ⟨⟨answer, ring⟩, w₁⟩ := outcome
      cases answer with
      | error e => exact hcurrent
      | ok k => exact now _ _ hcurrent
  | verify data => exact now _ _ h
  | authenticate c => exact now _ _ h
  | parse data => exact h
  | renew => exact step _ _ _ _ _ _ (by simp) h (KeyRing.step_perform s store t.ring .rotate w)
  | revoke => exact step _ _ _ _ _ _ (by simp) h (KeyRing.step_perform s store t.ring .clear w)
  | setLifetime lifetime => exact h

theorem run_induction
    (step : ∀ r w op answer r' w', (∀ k, op ≠ .push k) → P r w →
      KeyRing.Step s store r w op answer r' w' → P r' w')
    (now : ∀ r w, P r w → P r (s.now.run w).2) (requests : List Request) {t : TokenAuthenticator}
    {w : σ} (h : P t.ring w) :
    P ((t.run s store requests).run w).1.2.ring ((t.run s store requests).run w).2 := by
  induction requests generalizing t w with
  | nil => exact h
  | cons request requests ih => exact ih (serve_induction s store step now h request)

end

/-! ### Watching changes nothing -/

section

open Recorded

variable {σ : Type} (s : Surroundings (StateM σ)) (store : KeyStore (StateM σ))

theorem erases_now : Erases s.recorded.now s.now := .act _ _

theorem erases_start (c : CheckedSettings) :
    Erases (start s.recorded store.recorded c) (start s store c) := by
  refine (KeyRing.erases_seeded s store c.algorithm c.capacity).bind ?_
  intro answer
  cases answer with
  | ok ring => exact .pure _
  | error e => exact .pure _

theorem erases_issue (t : TokenAuthenticator) (principal : String) :
    Erases (t.issue s.recorded store.recorded principal) (t.issue s store principal) := by
  refine (KeyRing.erases_current s store t.ring).bind ?_
  intro outcome
  obtain ⟨e | k, ring⟩ := outcome
  · exact .pure _
  · exact (erases_now s).bind fun now => .pure _

theorem erases_serve (t : TokenAuthenticator) (request : Request) :
    Erases (t.serve s.recorded store.recorded request) (t.serve s store request) := by
  cases request with
  | issue principal => exact (erases_issue s store t principal).bind fun _ => .pure _
  | verify data => exact (erases_now s).bind fun now => .pure _
  | authenticate c =>
      exact ((erases_now s).bind fun now => .pure _).bind fun _ => .pure _
  | parse data => exact .pure _
  | renew =>
      exact ((KeyRing.erases_rotate s store t.ring).bind fun _ => .pure _).bind fun _ => .pure _
  | revoke =>
      exact ((KeyRing.erases_clear store t.ring).bind fun _ => .pure _).bind fun _ => .pure _
  | setLifetime lifetime => exact .pure _

theorem erases_run (requests : List Request) (t : TokenAuthenticator) :
    Erases (t.run s.recorded store.recorded requests) (t.run s store requests) := by
  induction requests generalizing t with
  | nil => exact .pure _
  | cons request requests ih =>
      refine (erases_serve s store t request).bind ?_
      intro first
      exact (ih first.2).bind fun _ => .pure _

/-- With the ledger left out, a watched history is the history itself. -/
theorem erases_history (c : CheckedSettings) (before : List Request) (principal : String)
    (after : List Request) :
    Erases (history s.recorded store.recorded c before principal after)
      (history s store c before principal after) := by
  refine (erases_start s store c).bind ?_
  intro made
  cases made with
  | error e => exact .pure _
  | ok t =>
      refine (erases_run s store before t).bind ?_
      intro earlier
      refine (erases_issue s store earlier.2 principal).bind ?_
      intro outcome
      obtain ⟨e | token, t'⟩ := outcome
      · exact .pure _
      · exact (erases_run s store after t').bind fun _ => .pure _

end

end TokenAuthenticator

end TokenAuthority
