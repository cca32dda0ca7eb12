import TokenAuthority.Proofs.Authenticator.Issuance
import TokenAuthority.Proofs.Time.Seconds

/-!
# The expiry of tokens

The second of expiry is the second of issue plus the lifetime, rounded up to whole seconds.
All numbers on the way to it have 64 binary digits, so that the sum never fails; a token is
issued exactly if there is an instant with that second. It expires at that instant: not
before, and for good.
-/

namespace TokenAuthority

/-- A token expires at the instant at which its second of expiry begins. -/
theorem Token.checkExpiry_eq_expired_iff {t : Token} {expiry : Instant}
    (h : t.expiry? = some expiry) (now : Instant) :
    t.checkExpiry now = .error .expired ↔ expiry ≤ now := by
  obtain ⟨hseconds, hnanos⟩ := Instant.ofSeconds?_eq_some_iff.mp h
  rw [checkExpiry_eq_error_iff, Instant.le_iff_of_nanos_eq_zero hnanos, hseconds]
  exact and_iff_left rfl

namespace IssuedToken

variable {k : SigningKey} {principal : String} {now : Instant} {lifetime : Duration}
  {token : IssuedToken} {t : Token}

/-- Every number on the way to the second of expiry has 64 binary digits: the second of issue,
the whole seconds of the lifetime, one more if there is a rest, and the sum. -/
theorem isWord_steps (now : Instant) (lifetime : Duration) :
    IsWord now.seconds ∧ IsWord lifetime.seconds ∧ IsWord (lifetime.seconds + 1) ∧
      IsWord (now.seconds + lifetime.secondsUp) := by
  have hfirst := now.first_le
  have hlast := now.le_last
  have hseconds := lifetime.seconds_bounds
  have hsum := isWord_expiresAt "" now lifetime
  rw [firstSecond] at hfirst
  rw [lastSecond] at hlast
  refine ⟨?_, ?_, ?_, hsum⟩
  all_goals
    rw [IsWord]
    omega

theorem exists_expiry_iff {n : Int} :
    (∃ expiry, Instant.ofSeconds? n = some expiry) ↔ firstSecond ≤ n ∧ n ≤ lastSecond := by
  have hnone := Instant.ofSeconds?_eq_none_iff n
  rw [← Option.isSome_iff_exists, Option.isSome_iff_ne_none, ne_eq, hnone]
  omega

/-- What the metadata and the parts of a token tell of its instants. -/
theorem instants_of_issue (h : issue k principal now lifetime = .ok token) :
    (token.created.seconds = now.seconds ∧ token.created.nanos = 0) ∧
      (token.validBefore.seconds = now.seconds + lifetime.secondsUp ∧
        token.validBefore.nanos = 0) ∧
      ∃ signature, token.data = text (Base64.url.encodeChars (header k).write)
        (Base64.url.encodeChars
          (Claims.mk principal now.seconds (now.seconds + lifetime.secondsUp)).write)
        (Base64.url.encodeChars signature) := by
  obtain ⟨-, signature, -, hcreated, hbefore, hdata⟩ := issue_eq_ok_iff.mp h
  exact ⟨Instant.ofSeconds?_eq_some_iff.mp (instant_eq_ok_iff.mp hcreated),
    Instant.ofSeconds?_eq_some_iff.mp (instant_eq_ok_iff.mp hbefore), signature, hdata⟩

/-- What is read from a token tells its claims, and the instant at which it expires. -/
theorem claims_of_parse (h : issue k principal now lifetime = .ok token)
    (hparse : Token.parse token.data = .ok t) :
    t.claims = ⟨principal, now.seconds, now.seconds + lifetime.secondsUp⟩ ∧
      t.expiry? = some token.validBefore := by
  obtain ⟨-, signature, -, -, hbefore, hdata⟩ := issue_eq_ok_iff.mp h
  by_cases hid : k.id = ""
  · have hmalformed : Token.parse token.data = .error .emptyKeyId := by
      rw [hdata]
      exact Token.parse_of_keyId_eq_empty hid (Base64.dot_not_mem_encodeChars _)
        (Base64.dot_not_mem_encodeChars _)
    cases hmalformed.symm.trans hparse
  · obtain ⟨_, -, -, hread⟩ := exists_parse_of_issue hid h
    cases hread.symm.trans hparse
    exact ⟨rfl, instant_eq_ok_iff.mp hbefore⟩

/-- For every key that can sign, every principal that is not empty, every instant of issue and
every lifetime: the second of issue is the instant rounded down, the lifetime counts rounded
up, and no number on the way to the second of expiry has more than 64 binary digits, so that
the overflow of a lifetime is no error that occurs. The token is issued with these seconds if
there is an instant with the second of expiry, and refused for that second otherwise. A token
that was issued expires at that instant, so that it is good at the instant of issue exactly if
the lifetime is positive; and once expired it stays so. -/
theorem issue_at_limits
    (hsigns : ∃ message signature, k.material.sign k.algorithm message = .ok signature)
    (hprincipal : principal ≠ "") (now : Instant) (lifetime : Duration) :
    (now.nanos < 1000000000 → now.seconds = ⌊(now.nanoseconds : ℚ) / (1000000000 : ℕ)⌋) ∧
    lifetime.secondsUp = ⌈(lifetime.nanoseconds : ℚ) / (1000000000 : ℕ)⌉ ∧
    lifetime.secondsUp =
      (if 0 < lifetime.subsecond then lifetime.seconds + 1 else lifetime.seconds) ∧
    (IsWord now.seconds ∧ IsWord lifetime.seconds ∧ IsWord (lifetime.seconds + 1) ∧
      IsWord (now.seconds + lifetime.secondsUp)) ∧
    (∀ d, issue k principal now lifetime ≠ .error (.conversion (.lifetimeOverflow d))) ∧
    (-8334601228800 ≤ now.seconds + lifetime.secondsUp ∧
        now.seconds + lifetime.secondsUp ≤ 8210266876799 →
      ∃ token, issue k principal now lifetime = .ok token ∧
        (token.created.seconds = now.seconds ∧ token.created.nanos = 0) ∧
        (token.validBefore.seconds = now.seconds + lifetime.secondsUp ∧
          token.validBefore.nanos = 0) ∧
        ∃ signature, token.data = text (Base64.url.encodeChars (header k).write)
          (Base64.url.encodeChars
            (Claims.mk principal now.seconds (now.seconds + lifetime.secondsUp)).write)
          (Base64.url.encodeChars signature)) ∧
    (¬(-8334601228800 ≤ now.seconds + lifetime.secondsUp ∧
        now.seconds + lifetime.secondsUp ≤ 8210266876799) →
      issue k principal now lifetime =
        .error (.conversion (.timestampOutOfRange (now.seconds + lifetime.secondsUp)))) ∧
    ∀ token, issue k principal now lifetime = .ok token →
      (k.id ≠ "" → ∃ t, Token.parse token.data = .ok t) ∧
      ∀ t, Token.parse token.data = .ok t →
        t.claims = ⟨principal, now.seconds, now.seconds + lifetime.secondsUp⟩ ∧
        (∀ u, t.checkExpiry u = .error .expired ↔ token.validBefore ≤ u) ∧
        (t.checkExpiry now = .ok () ↔ 0 < lifetime.nanoseconds) ∧
        ∀ u v, t.checkExpiry u = .error .expired → u ≤ v →
          t.checkExpiry v = .error .expired := by
  obtain ⟨message, signature, hsign⟩ := hsigns
  have hsigns := KeyMaterial.signs_of_sign k.suits hsign
  have hbounds := exists_expiry_iff (n := now.seconds + lifetime.secondsUp)
  refine ⟨Instant.seconds_eq_floor, lifetime.secondsUp_eq_ceil, lifetime.secondsUp_eq,
    isWord_steps now lifetime, ?_, ?_, ?_, ?_⟩
  · intro d hoverflow
    obtain ⟨-, herror⟩ | ⟨-, -, herror⟩ := (issue_eq_error_iff_of_signs hsigns).mp hoverflow
    · cases herror
    · cases herror
  · intro hrange
    obtain ⟨expiry, hexpiry⟩ := hbounds.mpr hrange
    obtain ⟨token, htoken⟩ := exists_issue_of_signs hsigns hprincipal hexpiry
    exact ⟨token, htoken, instants_of_issue htoken⟩
  · intro hrange
    refine issue_of_no_expiry hsigns hprincipal ?_
    rw [Option.eq_none_iff_forall_ne_some]
    exact fun expiry hexpiry => hrange (hbounds.mp ⟨expiry, hexpiry⟩)
  · intro token htoken
    refine ⟨fun hid => ?_, fun t hparse => ?_⟩
    · obtain ⟨_, -, -, hparse⟩ := exists_parse_of_issue hid htoken
      exact ⟨_, hparse⟩
    · obtain ⟨hclaims, hexpiry⟩ := claims_of_parse htoken hparse
      have hexpired := Token.checkExpiry_eq_expired_iff hexpiry
      refine ⟨hclaims, hexpired, ?_, ?_⟩
      · rw [Token.checkExpiry_eq_ok_iff, hclaims, ← lifetime.secondsUp_pos_iff]
        exact lt_add_iff_pos_right _
      · intro u v hu huv
        exact (hexpired v).mpr (((hexpired u).mp hu).trans huv)

/-- Half a second before 1970, with a lifetime of a second and a half. -/
theorem issue_at_limits_before_epoch :
    ∃ (k : SigningKey) (now : Instant) (lifetime : Duration) (token : IssuedToken) (t : Token),
      now.nanoseconds = -500000000 ∧ lifetime.nanoseconds = 1500000000 ∧
      issue k "a" now lifetime = .ok token ∧ Token.parse token.data = .ok t ∧
      t.claims = ⟨"a", -1, 1⟩ ∧ t.checkExpiry now = .ok () ∧
      t.checkExpiry token.validBefore = .error .expired := by
  let k : SigningKey := ⟨"k", ⟨.hmac, .sha256⟩, .epoch, .secret [1], rfl⟩
  let now : Instant := ⟨-1, 500000000, by decide, by decide, by decide⟩
  let lifetime : Duration := ⟨1500000000, by decide, by decide⟩
  have hsigns : ∃ message signature, k.material.sign k.algorithm message = .ok signature :=
    ⟨[], _, KeyMaterial.sign_secret k.suits []⟩
  obtain ⟨-, -, -, -, -, hissues, -, htokens⟩ :=
    issue_at_limits hsigns (by decide : "a" ≠ "") now lifetime
  obtain ⟨token, htoken, -⟩ := hissues (by decide)
  obtain ⟨hreads, hparsed⟩ := htokens token htoken
  obtain ⟨t, hparse⟩ := hreads (by decide)
  obtain ⟨hclaims, hexpired, hgood, -⟩ := hparsed t hparse
  exact ⟨k, now, lifetime, token, t, rfl, rfl, htoken, hparse, hclaims, hgood.mpr (by decide),
    (hexpired _).mpr le_rfl⟩

end IssuedToken

end TokenAuthority
