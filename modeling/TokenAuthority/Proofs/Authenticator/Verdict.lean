import TokenAuthority.Proofs.Authenticator.Usable
import TokenAuthority.Proofs.KeyRing.Queue
import TokenAuthority.Proofs.Token.Unique

/-!
# What an authenticator lets out

A text may be no good as a token for many reasons, and for several at once. A caller who
presents it learns that it was rejected, and nothing else: the verdict is the same for every
reason, every text, every instant and every state of the authenticator. Only a text that is
verified gets another verdict, which names its subject, and only a credential that is no text
at all is an error.
-/

namespace TokenAuthority

namespace TokenAuthenticator

/-- What is wrong with a text, for a ring at an instant: it spells no token, or the token has
no key, tells another algorithm than its key, was not signed with its key, or has expired. A
text may have several flaws. -/
inductive Flaw (r : KeyRing) (data : String) (now : Instant) : Prop
  | form (unspelled : ∀ T, ¬Token.Spells data T)
  | key {T : Token} (spells : Token.Spells data T)
    (absent : ∀ k ∈ r.keys, k.id ≠ T.header.keyId)
  | algorithm {T : Token} {k : SigningKey} (spells : Token.Spells data T)
    (newest : r.Newest T.header.keyId k) (other : T.header.algorithm ≠ k.algorithm)
  | signature {T : Token} {k : SigningKey} (spells : Token.Spells data T)
    (newest : r.Newest T.header.keyId k)
    (unsigned : k.material.verify k.algorithm T.signed T.signature ≠ .ok true)
  | expiry {T : Token} {k : SigningKey} (spells : Token.Spells data T)
    (newest : r.Newest T.header.keyId k) (ended : T.claims.expiresAt ≤ now.seconds)

/-- A text is verified exactly if it has no flaw. -/
theorem flaw_iff {r : KeyRing} {data : String} {now : Instant} :
    Flaw r data now ↔ ∀ subject, r.verify data now ≠ .ok subject := by
  constructor
  · intro hflaw subject hok
    obtain ⟨T, k, hspells, hnewest, ⟨halgorithm, hsigned⟩, hnow, -⟩ :=
      KeyRing.verify_eq_ok_iff.mp hok
    cases hflaw with
    | form unspelled => exact unspelled T hspells
    | key spells absent =>
        obtain rfl := spells.unique hspells
        have hmem := hnewest.mem
        obtain ⟨-, -, -, hid, -⟩ := hnewest
        exact absent k hmem hid
    | algorithm spells newest other =>
        obtain rfl := spells.unique hspells
        obtain rfl := newest.unique hnewest
        exact other halgorithm
    | signature spells newest unsigned =>
        obtain rfl := spells.unique hspells
        obtain rfl := newest.unique hnewest
        exact unsigned hsigned
    | expiry spells _ ended =>
        obtain rfl := spells.unique hspells
        exact absurd hnow (Int.not_lt.mpr ended)
  · intro hnever
    -- The questions are asked in their order, and the first wrong answer is the flaw.
    by_cases hform : ∃ T, Token.Spells data T
    · obtain ⟨T, hspells⟩ := hform
      cases hfind : r.find? T.header.keyId with
      | none => exact .key hspells (KeyRing.find?_eq_none_iff.mp hfind)
      | some k =>
          have hnewest := KeyRing.find?_eq_some_iff_newest.mp hfind
          by_cases halgorithm : T.header.algorithm = k.algorithm
          · by_cases hsigned : k.material.verify k.algorithm T.signed T.signature = .ok true
            · refine .expiry hspells hnewest (Int.not_lt.mp fun hnow => ?_)
              exact hnever T.claims.subject (KeyRing.verify_eq_ok_iff.mpr
                ⟨T, k, hspells, hnewest, ⟨halgorithm, hsigned⟩, hnow, rfl⟩)
            · exact .signature hspells hnewest hsigned
          · exact .algorithm hspells hnewest halgorithm
    · exact .form (not_exists.mp hform)

section

variable {t : TokenAuthenticator} {now : Instant} {data : String}

theorem judge_bearer : t.judge now (.bearer data) =
    match t.verify data now with
    | .ok principal => .ok (.accepted principal)
    | .error _ => .ok (.rejected notAuthenticated) := rfl

theorem judge_bearer_eq_accepted_iff {principal : String} :
    t.judge now (.bearer data) = .ok (.accepted principal) ↔
      t.verify data now = .ok principal := by
  rw [judge_bearer]
  cases t.verify data now with
  | ok subject => simp
  | error e => simp

/-- A text is rejected exactly if it has a flaw, and whatever flaw it has, the cause is the
same. -/
theorem judge_bearer_eq_rejected_iff {cause : String} :
    t.judge now (.bearer data) = .ok (.rejected cause) ↔
      notAuthenticated = cause ∧ Flaw t.ring data now := by
  have hverify : t.verify data now = t.ring.verify data now := rfl
  rw [flaw_iff, ← hverify, judge_bearer]
  cases t.verify data now with
  | ok subject => simp
  | error e => simp

/-- Only what exposes no token is an error. -/
theorem judge_eq_error_iff {c : Credential} {e : AuthError} :
    t.judge now c = .error e ↔ supports c = false ∧ needsToken = e := by
  cases c with
  | bearer data =>
      rw [judge_bearer]
      cases t.verify data now with
      | ok subject => simp [supports, Credential.bearer?]
      | error e => simp [supports, Credential.bearer?]
  | password username word => simp [judge, supports, Credential.bearer?]
  | bare => simp [judge, supports, Credential.bearer?]

end

/-! ### Runs -/

section

variable {σ σ' : Type}

/-- In some run an authenticator responds so to a credential. -/
def RespondsTo (s : Surroundings (StateM σ)) (store : KeyStore (StateM σ))
    (t : TokenAuthenticator) (w : σ) (c : Credential) (answer : Response) : Prop :=
  ∃ requests : List Request, (Request.authenticate c, answer) ∈
    requests.zip ((t.run s store requests).run w).1.1

/-- Whatever came before it in a run, a response to a credential is a verdict of an authenticator
at an instant. -/
theorem RespondsTo.exists_judge {s : Surroundings (StateM σ)} {store : KeyStore (StateM σ)}
    {t : TokenAuthenticator} {w : σ} {c : Credential} {answer : Response}
    (h : RespondsTo s store t w c answer) :
    ∃ (t' : TokenAuthenticator) (now : Instant), answer = .judged (t'.judge now c) := by
  obtain ⟨requests, hmem⟩ := h
  induction requests generalizing t w with
  | nil => cases hmem
  | cons request requests ih =>
      obtain hfirst | hlater := List.mem_cons.mp hmem
      · obtain ⟨rfl, hanswer⟩ := Prod.mk.inj hfirst
        exact ⟨t, (s.now.run w).1, hanswer⟩
      · exact ih hlater

theorem judge_bearer_of_not_accepted {t : TokenAuthenticator} {now : Instant} {data : String}
    (h : ∀ principal, t.judge now (.bearer data) ≠ .ok (.accepted principal)) :
    t.judge now (.bearer data) = .ok (.rejected notAuthenticated) := by
  refine judge_bearer_eq_rejected_iff.mpr ⟨rfl, flaw_iff.mpr ?_⟩
  intro subject hverify
  exact h subject (judge_bearer_eq_accepted_iff.mpr hverify)

/-- What an authenticator says to a credential in a world. -/
def verdictOn (s : Surroundings (StateM σ)) (t : TokenAuthenticator) (w : σ) (c : Credential) :
    Except AuthError Verdict :=
  (((t.toAuthenticator s).authenticate c).run w).1

/-- What authenticators say to texts, in all states and at all instants. A text is accepted
exactly if it is verified, for its subject, and it is rejected exactly if it has a flaw, with
one cause and for nobody. Two texts with flaws of any kinds are told the same by any two
authenticators, and so are any two texts that are not accepted in any two runs. It is an error
to present something else than a text, and only that. -/
theorem verdictOn_bearer (s : Surroundings (StateM σ)) (s' : Surroundings (StateM σ'))
    (t t' : TokenAuthenticator) (w : σ) (w' : σ') :
    (∀ data principal, verdictOn s t w (.bearer data) = .ok (.accepted principal) ↔
      t.verify data (s.now.run w).1 = .ok principal) ∧
    (∀ data cause, verdictOn s t w (.bearer data) = .ok (.rejected cause) ↔
      "invalid bearer token" = cause ∧ Flaw t.ring data (s.now.run w).1) ∧
    (∀ data e, verdictOn s t w (.bearer data) ≠ .error e) ∧
    (∀ data data', Flaw t.ring data (s.now.run w).1 → Flaw t'.ring data' (s'.now.run w').1 →
      verdictOn s t w (.bearer data) = verdictOn s' t' w' (.bearer data')) ∧
    (∀ store store' data data' answer answer',
      RespondsTo s store t w (.bearer data) answer →
      RespondsTo s' store' t' w' (.bearer data') answer' →
      (∀ principal, answer ≠ .judged (.ok (.accepted principal))) →
      (∀ principal, answer' ≠ .judged (.ok (.accepted principal))) → answer = answer') ∧
    (∀ c e, verdictOn s t w c = .error e ↔
      supports c = false ∧
        .unsupportedCredential "the token authenticator requires a bearer token" = e) := by
  have hrejected : ∀ data, Flaw t.ring data (s.now.run w).1 →
      verdictOn s t w (.bearer data) = .ok (.rejected notAuthenticated) :=
    fun data hflaw => judge_bearer_eq_rejected_iff.mpr ⟨rfl, hflaw⟩
  refine ⟨?_, ?_, ?_, ?_, ?_, ?_⟩
  · intro data principal
    exact judge_bearer_eq_accepted_iff
  · intro data cause
    exact judge_bearer_eq_rejected_iff
  · intro data e herror
    have hjudge : t.judge (s.now.run w).1 (.bearer data) = .error e := herror
    have hunsupported := (judge_eq_error_iff.mp hjudge).1
    cases hunsupported
  · intro data data' hflaw hflaw'
    rw [hrejected data hflaw]
    exact (judge_bearer_eq_rejected_iff.mpr ⟨rfl, hflaw'⟩).symm
  · intro store store' data data' answer answer' h h' hnever hnever'
    obtain ⟨t₁, now, rfl⟩ := h.exists_judge
    obtain ⟨t₂, now', rfl⟩ := h'.exists_judge
    have hfirst := judge_bearer_of_not_accepted fun principal heq =>
      hnever principal (congrArg Response.judged heq)
    have hsecond := judge_bearer_of_not_accepted fun principal heq =>
      hnever' principal (congrArg Response.judged heq)
    rw [hfirst, hsecond]
  · intro c e
    exact judge_eq_error_iff

end

/-- A token that is accepted until its key is revoked, and a text with a single dot. -/
theorem verdictOn_bearer_revoked :
    ∃ (t t' : TokenAuthenticator) (token : IssuedToken),
      (t.issue Surroundings.still .inMemory "a").run () = ((.ok token, t), ()) ∧
      (t.run Surroundings.still .inMemory [.revoke]).run () = (([.revoked (.ok ())], t'), ()) ∧
      verdictOn Surroundings.still t () (.bearer token.data) = .ok (.accepted "a") ∧
      verdictOn Surroundings.still t () (.bearer "a.b") =
        verdictOn Surroundings.still t' () (.bearer token.data) := by
  obtain ⟨r, hkeys⟩ : ∃ r : KeyRing, r.keys = [KeyRing.namedKey "a" 1] :=
    ⟨⟨⟨.hmac, .sha256⟩, 1, [KeyRing.namedKey "a" 1], by decide, Nat.le_refl 1⟩, rfl⟩
  have hmaterial : (KeyRing.namedKey "a" 1).material = .secret [1] := rfl
  have hbefore : IssuedToken.instant (Instant.epoch.seconds + singleKey.lifetime.secondsUp) =
      .ok ⟨60, 0, by decide, by decide, by decide⟩ := rfl
  have hpositive : 0 < singleKey.lifetime.nanoseconds := by decide
  obtain ⟨token, htoken, hverify⟩ := exists_verified_of_secret hkeys hmaterial (by decide)
    (by decide : "a" ≠ "") hpositive rfl hbefore
  have hissue : (issue Surroundings.still .inMemory ⟨r, singleKey.lifetime⟩ "a").run () =
      ((.ok token, ⟨r, singleKey.lifetime⟩), ()) := issue_of_newest hkeys htoken
  obtain ⟨_, -, -, hparse⟩ := IssuedToken.exists_parse_of_issue (by decide) htoken
  obtain ⟨haccepted, -, -, hsame, -⟩ := verdictOn_bearer Surroundings.still Surroundings.still
    ⟨r, singleKey.lifetime⟩ ⟨r.cleared, singleKey.lifetime⟩ () ()
  refine ⟨_, _, token, hissue, rfl, (haccepted _ _).mpr hverify, hsame _ _ ?_ ?_⟩
  · exact .form (Token.exists_parse_eq_error_iff.mp ⟨_, rfl⟩)
  · exact .key (Token.parse_eq_ok_iff.mp hparse) (List.forall_mem_nil _)

end TokenAuthenticator

end TokenAuthority
