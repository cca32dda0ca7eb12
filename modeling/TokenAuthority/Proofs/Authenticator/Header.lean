import TokenAuthority.Proofs.Authenticator.Verdict
import TokenAuthority.Proofs.Credential.Header

/-!
# Tokens in authorization headers

An issued token has no blanks, so that a header gives it back as it was issued. To present the
header to an authenticator is to have the token verified.
-/

namespace TokenAuthority

/-! ### Issued tokens -/

theorem Base64.not_isBlank_of_mem_encodeChars {bs : Bytes} :
    ∀ c ∈ Base64.url.encodeChars bs, ¬Text.isBlank c := by
  have hsymbols : ∀ n < 64, ¬Text.isBlank (Char.ofNat (Base64.url.symbol n).toNat) := by decide
  intro c hc
  obtain ⟨n, hn, rfl⟩ := Base64.exists_symbol_of_mem_encodeChars hc
  exact hsymbols n hn

namespace IssuedToken

variable {key : SigningKey} {principal : String} {now : Instant} {lifetime : Duration}
  {token : IssuedToken}

theorem not_isBlank_of_mem_data (h : issue key principal now lifetime = .ok token) :
    ∀ c ∈ token.data.toList, ¬Text.isBlank c := by
  obtain ⟨-, signature, -, -, -, hdata⟩ := issue_eq_ok_iff.mp h
  have hdot : ¬Text.isBlank '.' := by decide
  rw [hdata, text, String.toList_ofList]
  simp only [List.forall_mem_append, List.forall_mem_cons]
  exact ⟨Base64.not_isBlank_of_mem_encodeChars, hdot, Base64.not_isBlank_of_mem_encodeChars,
    hdot, Base64.not_isBlank_of_mem_encodeChars⟩

theorem toList_data_ne_nil (h : issue key principal now lifetime = .ok token) :
    token.data.toList ≠ [] := by
  obtain ⟨-, signature, -, -, -, hdata⟩ := issue_eq_ok_iff.mp h
  rw [hdata, text, String.toList_ofList]
  simp

/-- A header gives an issued token back. -/
theorem ofHeader_data (h : issue key principal now lifetime = .ok token) :
    Credential.ofHeader ("Bearer " ++ token.data) = .ok (.bearer token.data) := by
  have htrimmed := Text.trimmed_of_forall (not_isBlank_of_mem_data h)
  have hheader := (Credential.Authorization.plain token.data.toList (toList_data_ne_nil h)
    htrimmed).ofHeader_text
  rw [Credential.Authorization.text_plain, String.ofList_toList] at hheader
  rw [hheader]
  exact congrArg (Except.ok ∘ Credential.bearer) String.ofList_toList

end IssuedToken

/-! ### Headers before an authenticator -/

namespace TokenAuthenticator

theorem judge_bearer_eq_rejected_iff_refused {t : TokenAuthenticator} {now : Instant}
    {data : String} :
    t.judge now (.bearer data) = .ok (.rejected notAuthenticated) ↔
      ∃ refusal, t.verify data now = .error refusal := by
  rw [judge_bearer]
  cases t.verify data now with
  | ok principal => simp
  | error refusal => simp

section

variable {σ : Type}

/-- What comes of the value of a header that is read and then presented to an authenticator, in
a world. -/
def verdictOnHeader (s : Surroundings (StateM σ)) (t : TokenAuthenticator) (w : σ)
    (value : String) : Except AuthError Verdict := do
  let c ← (Credential.ofHeader value).mapError AuthError.invalidRequest
  verdictOn s t w c

theorem verdictOnHeader_of_ok {s : Surroundings (StateM σ)} {t : TokenAuthenticator} {w : σ}
    {value : String} {c : Credential} (h : Credential.ofHeader value = .ok c) :
    verdictOnHeader s t w value = verdictOn s t w c := by
  rw [verdictOnHeader, h]
  rfl

/-- Authorization headers are read by one grammar. A value is read exactly if it is blanks, the
scheme in any case, a space, blanks, a token without blanks at its ends, and blanks; then the
token is what is read. No value has two readings, and what was read is read again behind the
plain scheme. Every other value is a bad request: one without a token if it is the scheme alone,
and else one of another scheme. An issued token comes back from its header as it was issued, and
whoever presents the header is accepted for the subject that the token is verified for, or is
rejected if the token is refused. -/
theorem ofHeader_by_grammar (s : Surroundings (StateM σ)) (t : TokenAuthenticator) (w : σ) :
    (∀ value c, Credential.ofHeader value = .ok c ↔
      ∃ a : Credential.Authorization, value = a.text ∧ c = .bearer (String.ofList a.token)) ∧
    (∀ a b : Credential.Authorization, a.text = b.text → a = b) ∧
    (∀ value token, Credential.ofHeader value = .ok (.bearer token) →
      Credential.ofHeader ("Bearer " ++ token) = .ok (.bearer token)) ∧
    (∀ value, (∀ a : Credential.Authorization, value ≠ a.text) →
      (Credential.IsBareScheme value →
        (Credential.ofHeader value).mapError AuthError.invalidRequest =
          .error (.invalidRequest .emptyToken)) ∧
      (¬Credential.IsBareScheme value →
        (Credential.ofHeader value).mapError AuthError.invalidRequest =
          .error (.invalidRequest .notBearer))) ∧
    (∀ key principal now lifetime token,
      IssuedToken.issue key principal now lifetime = .ok token →
        Credential.ofHeader ("Bearer " ++ token.data) = .ok (.bearer token.data) ∧
        (∀ subject,
          verdictOnHeader s t w ("Bearer " ++ token.data) = .ok (.accepted subject) ↔
            t.verify token.data (s.now.run w).1 = .ok subject) ∧
        (verdictOnHeader s t w ("Bearer " ++ token.data) =
            .ok (.rejected "invalid bearer token") ↔
          ∃ refusal, t.verify token.data (s.now.run w).1 = .error refusal)) := by
  refine ⟨?_, ?_, ?_, ?_, ?_⟩
  · intro value c
    exact Credential.ofHeader_eq_ok_iff
  · intro a b htext
    exact Credential.Authorization.text_injective htext
  · intro value token h
    exact Credential.ofHeader_plain h
  · intro value hnone
    constructor
    · intro hbare
      rw [Credential.ofHeader_of_isBareScheme hbare]
      rfl
    · intro hbare
      rw [Credential.ofHeader_of_other hbare hnone]
      rfl
  · intro key principal now lifetime token hissue
    have hheader := IssuedToken.ofHeader_data hissue
    refine ⟨hheader, ?_, ?_⟩
    · intro subject
      rw [verdictOnHeader_of_ok hheader]
      exact judge_bearer_eq_accepted_iff
    · rw [verdictOnHeader_of_ok hheader]
      exact judge_bearer_eq_rejected_iff_refused

end

/-- A header with blanks of several kinds, one with no space behind the scheme, and the header of
a token that is accepted. -/
theorem ofHeader_by_grammar_blanks :
    ∃ (t : TokenAuthenticator) (token : IssuedToken),
      IssuedToken.issue (KeyRing.namedKey "a" 1) "b" .epoch singleKey.lifetime = .ok token ∧
      Credential.ofHeader "\u3000bEARER \u00a0a\tb\n" = .ok (.bearer "a\tb") ∧
      Credential.ofHeader ("Bearer " ++ "a\tb") = .ok (.bearer "a\tb") ∧
      (Credential.ofHeader "Bearer\ta").mapError AuthError.invalidRequest =
        .error (.invalidRequest .notBearer) ∧
      verdictOnHeader Surroundings.still t () ("Bearer " ++ token.data) =
        .ok (.accepted "b") := by
  obtain ⟨r, hkeys⟩ : ∃ r : KeyRing, r.keys = [KeyRing.namedKey "a" 1] :=
    ⟨⟨⟨.hmac, .sha256⟩, 1, [KeyRing.namedKey "a" 1], by decide, Nat.le_refl 1⟩, rfl⟩
  obtain ⟨token, htoken, hverify⟩ : ∃ token, IssuedToken.issue (KeyRing.namedKey "a" 1) "b" .epoch
      singleKey.lifetime = .ok token ∧ r.verify token.data .epoch = .ok "b" := by
    have hbefore : IssuedToken.instant (Instant.epoch.seconds + singleKey.lifetime.secondsUp) =
        .ok ⟨60, 0, by decide, by decide, by decide⟩ := rfl
    exact exists_verified_of_secret hkeys rfl (by decide) (by decide) (by decide) rfl hbefore
  have hparts : ∃ a : Credential.Authorization, "\u3000bEARER \u00a0a\tb\n" = a.text ∧
      Credential.bearer "a\tb" = .bearer (String.ofList a.token) :=
    ⟨⟨['\u3000'], "bEARER".toList, ['\u00a0'], "a\tb".toList, ['\n'], by decide, by decide,
      by decide, by decide, by decide, by decide⟩, by decide, by decide⟩
  have hnone : ∀ a : Credential.Authorization, "Bearer\ta" ≠ a.text := by
    intro a heq
    have hspace : ' ' ∈ a.text.toList := by simp [Credential.Authorization.text]
    rw [← heq] at hspace
    exact absurd hspace (by decide)
  obtain ⟨hread, -, hagain, hother, hissued⟩ :=
    ofHeader_by_grammar Surroundings.still ⟨r, singleKey.lifetime⟩ ()
  have hspaced := (hread _ _).mpr hparts
  refine ⟨⟨r, singleKey.lifetime⟩, token, htoken, hspaced, hagain _ _ hspaced, ?_, ?_⟩
  · refine (hother _ hnone).2 fun hbare => ?_
    exact absurd (Credential.isBareScheme_iff.mp hbare) (by decide)
  · exact ((hissued _ _ _ _ _ htoken).2.1 "b").mpr hverify

end TokenAuthenticator

end TokenAuthority
