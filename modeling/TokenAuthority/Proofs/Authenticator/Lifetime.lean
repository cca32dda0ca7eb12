import TokenAuthority.Proofs.Token.Expiry

/-!
# The lifetime that an authenticator is given

A lifetime is held in whole milliseconds, with the rest cut off, and is rounded up to whole
seconds when a token is issued. The cut is seen in the token exactly if the lifetime goes less
than a millisecond beyond whole seconds: then the token expires a second sooner than one that is
issued with the lifetime itself.
-/

namespace TokenAuthority

namespace Duration

variable (d : Duration)

/-- Whether cutting off the rest behind whole milliseconds takes away a second that rounding up
would have given: the rest behind whole seconds is above zero, but less than a millisecond. -/
def LosesSecond : Prop := 0 < d.subsecond ∧ d.subsecond < 1000000

instance : Decidable d.LosesSecond := inferInstanceAs (Decidable (_ ∧ _))

theorem nanoseconds_cut : d.cut.nanoseconds = d.nanoseconds - d.nanoseconds.tmod 1000000 := by
  have hsum := Int.mul_tdiv_add_tmod d.nanoseconds 1000000
  change d.nanoseconds.tdiv 1000000 * 1000000 = _
  rw [Int.mul_comm]
  omega

/-- What is held is a whole number of milliseconds, so that it is taken out as it was put in. -/
theorem ofNanoseconds?_milliseconds_cut :
    ofNanoseconds? (d.cut.milliseconds * 1000000) = some d.cut := by
  have hwhole : d.cut.milliseconds * 1000000 = d.cut.nanoseconds := by
    change (d.milliseconds * 1000000).tdiv 1000000 * 1000000 = d.milliseconds * 1000000
    rw [Int.mul_tdiv_cancel _ (by decide)]
  rw [hwhole, ofNanoseconds?, dif_pos ⟨d.cut.neg_le, d.cut.le_longest⟩]

theorem eq_of_nanoseconds_eq {d d' : Duration} (h : d.nanoseconds = d'.nanoseconds) : d = d' := by
  cases d
  cases d'
  subst h
  rfl

theorem cut_eq_self_iff : d.cut = d ↔ 1000000 ∣ d.nanoseconds := by
  have hcut := d.nanoseconds_cut
  rw [Int.dvd_iff_tmod_eq_zero]
  constructor
  · intro h
    rw [h] at hcut
    omega
  · intro h
    rw [h, Int.sub_zero] at hcut
    exact eq_of_nanoseconds_eq hcut

/-- Rounding up gives as many seconds after the cut as before, or one less. -/
theorem secondsUp_cut :
    d.cut.secondsUp = if d.LosesSecond then d.secondsUp - 1 else d.secondsUp := by
  have hcut := d.nanoseconds_cut
  have hsum := d.seconds_add_subsecond
  unfold secondsUp LosesSecond
  -- Below zero the rest is cut off towards zero, as rounding up does it.
  obtain h | h := Int.le_total 0 d.nanoseconds
  · have hrest := d.subsecond_of_nonneg h
    rw [Int.tmod_eq_emod_of_nonneg h] at hcut
    split_ifs <;> omega
  · have hrest := d.subsecond_of_nonpos h
    have hneg := Int.neg_tmod d.nanoseconds 1000000
    rw [Int.tmod_eq_emod_of_nonneg (by omega)] at hneg
    split_ifs <;> omega

theorem secondsUp_cut_pos_iff : 0 < d.cut.secondsUp ↔ 1000000 ≤ d.nanoseconds := by
  have hcut := d.nanoseconds_cut
  rw [secondsUp_pos_iff]
  obtain h | h := Int.le_total 0 d.nanoseconds
  · rw [Int.tmod_eq_emod_of_nonneg h] at hcut
    omega
  · have hneg := Int.neg_tmod d.nanoseconds 1000000
    rw [Int.tmod_eq_emod_of_nonneg (by omega)] at hneg
    omega

end Duration

/-- A lifetime counts for a token in whole seconds only. -/
theorem IssuedToken.issue_eq_of_secondsUp_eq {lifetime lifetime' : Duration}
    (h : lifetime.secondsUp = lifetime'.secondsUp) (k : SigningKey) (principal : String)
    (now : Instant) : issue k principal now lifetime = issue k principal now lifetime' := by
  by_cases hprincipal : principal = ""
  · rw [hprincipal, issue_of_empty, issue_of_empty]
  · rw [issue_of_ne hprincipal, issue_of_ne hprincipal, claims, claims, h]

namespace TokenAuthenticator

variable {σ : Type} {s : Surroundings (StateM σ)} {store : KeyStore (StateM σ)}
  {t t' : TokenAuthenticator} {w w' : σ}

/-- Only the request for another lifetime changes the lifetime. -/
theorem lifetime_serve {request : Request} (h : ∀ lifetime, request ≠ .setLifetime lifetime) :
    ((t.serve s store request).run w).1.2.lifetime = t.lifetime := by
  cases request with
  | issue principal =>
      change ((t.issue s store principal).run w).1.2.lifetime = t.lifetime
      rw [run_issue]
      obtain ⟨⟨e | k, r⟩, w₁⟩ := (t.ring.current s store).run w
      · rfl
      · rfl
  | verify data => rfl
  | authenticate c => rfl
  | parse data => rfl
  | renew => rfl
  | revoke => rfl
  | setLifetime lifetime => exact absurd rfl (h lifetime)

theorem lifetime_run {requests : List Request}
    (h : ∀ lifetime, .setLifetime lifetime ∉ requests) :
    ((t.run s store requests).run w).1.2.lifetime = t.lifetime := by
  induction requests generalizing t w with
  | nil => rfl
  | cons request requests ih =>
      have hfirst : ∀ lifetime, request ≠ .setLifetime lifetime := by
        rintro lifetime rfl
        exact h lifetime List.mem_cons_self
      refine (ih fun lifetime hmem => h lifetime (List.mem_cons_of_mem _ hmem)).trans ?_
      exact lifetime_serve hfirst

/-- What is issued is a token of the current key for the lifetime that is held. -/
theorem answer_issue {k : SigningKey} {r : KeyRing} {w₁ : σ}
    (h : (t.ring.current s store).run w = ((.ok k, r), w₁)) (principal : String) :
    ((t.issue s store principal).run w).1.1 =
      IssuedToken.issue k principal (s.now.run w₁).1 t.lifetime := by
  rw [run_issue, h]

/-- An authenticator in any state is given a lifetime, and serves requests that do not change
it. It holds the lifetime in whole milliseconds, which is the lifetime itself exactly if there is
no rest. A token that is issued then is as one that is issued with the lifetime itself, unless the
lifetime goes less than a millisecond beyond whole seconds: then it expires a second sooner. It is
good at the instant of its issue exactly if the lifetime is a millisecond or longer. -/
theorem issue_of_setLifetime {lifetime : Duration} {requests : List Request}
    {answers : List Response}
    (hrun : ((t.setLifetime lifetime).run s store requests).run w = ((answers, t'), w'))
    (hkept : ∀ other, .setLifetime other ∉ requests) :
    t'.lifetime.nanoseconds = lifetime.nanoseconds - lifetime.nanoseconds.tmod 1000000 ∧
    Duration.ofNanoseconds? (t'.lifetime.milliseconds * 1000000) = some t'.lifetime ∧
    (t'.lifetime = lifetime ↔ 1000000 ∣ lifetime.nanoseconds) ∧
    ∀ (k : SigningKey) (r : KeyRing) (w₁ : σ) (principal : String) (now : Instant),
      (t'.ring.current s store).run w' = ((.ok k, r), w₁) → (s.now.run w₁).1 = now →
      (¬lifetime.LosesSecond → ((t'.issue s store principal).run w').1.1 =
        IssuedToken.issue k principal now lifetime) ∧
      ((∃ message signature, k.material.sign k.algorithm message = .ok signature) →
        principal ≠ "" → firstSecond ≤ now.seconds + t'.lifetime.secondsUp →
        now.seconds + t'.lifetime.secondsUp ≤ lastSecond →
        ∃ token, ((t'.issue s store principal).run w').1.1 = .ok token) ∧
      ∀ token, ((t'.issue s store principal).run w').1.1 = .ok token →
        token.created.seconds = now.seconds ∧
        token.validBefore.seconds = now.seconds +
          (if lifetime.LosesSecond then lifetime.secondsUp - 1 else lifetime.secondsUp) ∧
        ∀ T, Token.parse token.data = .ok T →
          T.claims = ⟨principal, token.created.seconds, token.validBefore.seconds⟩ ∧
          (T.checkExpiry now = .ok () ↔ 1000000 ≤ lifetime.nanoseconds) ∧
          ∀ direct D, IssuedToken.issue k principal now lifetime = .ok direct →
            Token.parse direct.data = .ok D →
            D.claims = ⟨principal, now.seconds, now.seconds + lifetime.secondsUp⟩ ∧
            (D.claims.expiresAt = T.claims.expiresAt ↔ ¬lifetime.LosesSecond) := by
  have hheld : t'.lifetime = lifetime.cut := by
    calc t'.lifetime = (((t.setLifetime lifetime).run s store requests).run w).1.2.lifetime := by
          rw [hrun]
      _ = lifetime.cut := lifetime_run hkept
  have hcut := lifetime.secondsUp_cut
  rw [hheld]
  refine ⟨lifetime.nanoseconds_cut, lifetime.ofNanoseconds?_milliseconds_cut,
    lifetime.cut_eq_self_iff, ?_⟩
  rintro k r w₁ principal now hcurrent rfl
  rw [answer_issue hcurrent, hheld]
  refine ⟨fun hwhole => ?_, fun hsigns hprincipal hfirst hlast => ?_, fun token htoken => ?_⟩
  · rw [if_neg hwhole] at hcut
    exact IssuedToken.issue_eq_of_secondsUp_eq hcut k principal _
  · obtain ⟨message, signature, hsign⟩ := hsigns
    obtain ⟨expiry, hexpiry⟩ := IssuedToken.exists_expiry_iff.mpr ⟨hfirst, hlast⟩
    exact IssuedToken.exists_issue_of_signs (KeyMaterial.signs_of_sign k.suits hsign) hprincipal
      hexpiry
  · obtain ⟨⟨hcreated, -⟩, ⟨hbefore, -⟩, -⟩ := IssuedToken.instants_of_issue htoken
    refine ⟨hcreated, by rw [hbefore, hcut], fun T hT => ?_⟩
    obtain ⟨hclaims, -⟩ := IssuedToken.claims_of_parse htoken hT
    refine ⟨by rw [hclaims, hcreated, hbefore], ?_, fun direct D hdirect hD => ?_⟩
    · rw [Token.checkExpiry_eq_ok_iff, hclaims, ← lifetime.secondsUp_cut_pos_iff]
      exact lt_add_iff_pos_right _
    · obtain ⟨hclaims', -⟩ := IssuedToken.claims_of_parse hdirect hD
      rw [hclaims, hclaims']
      refine ⟨rfl, ?_⟩
      dsimp only
      split_ifs at hcut with hloses
      · simp only [hloses, not_true, iff_false]
        omega
      · simp only [hloses, not_false_iff, iff_true]
        omega

/-- With a lifetime of a nanosecond a token has expired when it is issued, where one that is
issued with the lifetime itself is good for a second. -/
theorem issue_of_setLifetime_nanosecond :
    ∃ (k : SigningKey) (store : KeyStore (StateM Unit)) (t : TokenAuthenticator)
      (lifetime : Duration) (token direct : IssuedToken) (T D : Token),
      (start Surroundings.still store singleKey).run () = (.ok t, ()) ∧ t.ring.keys = [k] ∧
      lifetime.nanoseconds = 1 ∧ (t.setLifetime lifetime).lifetime.nanoseconds = 0 ∧
      (((t.setLifetime lifetime).issue Surroundings.still store "a").run ()).1.1 = .ok token ∧
      Token.parse token.data = .ok T ∧ T.claims = ⟨"a", 0, 0⟩ ∧
      T.checkExpiry .epoch ≠ .ok () ∧
      IssuedToken.issue k "a" .epoch lifetime = .ok direct ∧
      Token.parse direct.data = .ok D ∧ D.claims = ⟨"a", 0, 1⟩ := by
  let k : SigningKey := ⟨"k", ⟨.hmac, .sha256⟩, .epoch, .secret [1], rfl⟩
  let store : KeyStore (StateM Unit) :=
    { KeyStore.inMemory with load := fun _ => pure (.ok (some k)) }
  let t : TokenAuthenticator := ⟨⟨k.algorithm, 1, [k], by decide, by decide⟩, singleKey.lifetime⟩
  let lifetime : Duration := ⟨1, by decide, by decide⟩
  have hstart : (start Surroundings.still store singleKey).run () = (.ok t, ()) := rfl
  have hsigns : ∃ message signature, k.material.sign k.algorithm message = .ok signature :=
    ⟨[], _, KeyMaterial.sign_secret k.suits []⟩
  have hrun : ((t.setLifetime lifetime).run Surroundings.still store []).run () =
      (([], t.setLifetime lifetime), ()) := rfl
  obtain ⟨hheld, -, -, hissues⟩ := issue_of_setLifetime hrun (by simp)
  obtain ⟨-, hissued, htokens⟩ := hissues k t.ring () "a" .epoch rfl rfl
  obtain ⟨token, htoken⟩ := hissued hsigns (by decide) (by decide) (by decide)
  have hbefore : IssuedToken.instant (Instant.epoch.seconds + lifetime.secondsUp) =
      .ok ⟨1, 0, by decide, by decide, by decide⟩ := rfl
  obtain ⟨direct, hdirect⟩ : ∃ direct, IssuedToken.issue k "a" .epoch lifetime = .ok direct :=
    exists_issue_of_secret rfl (by decide) rfl hbefore
  obtain ⟨T, hT⟩ : ∃ T, Token.parse token.data = .ok T := by
    rw [answer_issue (k := k) (r := t.ring) rfl] at htoken
    obtain ⟨_, -, -, hparse⟩ := IssuedToken.exists_parse_of_issue (by decide) htoken
    exact ⟨_, hparse⟩
  obtain ⟨_, -, -, hD⟩ := IssuedToken.exists_parse_of_issue (by decide) hdirect
  obtain ⟨hcreated, hbefore, hparsed⟩ := htokens token htoken
  obtain ⟨hclaims, hgood, -⟩ := hparsed T hT
  rw [hcreated, hbefore] at hclaims
  exact ⟨k, store, t, lifetime, token, direct, T, _, hstart, rfl, rfl, hheld, htoken, hT, hclaims,
    fun h => absurd (hgood.mp h) (by decide), hdirect, hD, rfl⟩

end TokenAuthenticator

end TokenAuthority
