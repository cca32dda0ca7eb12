import TokenAuthority.Proofs.Except
import TokenAuthority.Proofs.Text.Base64
import TokenAuthority.Proofs.Text.Split
import TokenAuthority.Proofs.Time.Seconds
import TokenAuthority.Proofs.Token.Contents
import TokenAuthority.Token.Issue

/-!
# Reading back issued tokens

A token has three parts with dots between them, and no part has a dot itself, so that the
reader finds the parts that were written. Each part is the base 64 of the octets it stands
for, and these are the written header, the written claims and the signature.
-/

namespace TokenAuthority

namespace Token

/-! ### Parts -/

theorem decodePart_encodeChars (part : TokenPart) (bs : Bytes) :
    decodePart part (Base64.url.encodeChars bs) = .ok bs := by
  rw [decodePart, Utf8.encode_ofList, Base64.Code.lawful_url.octets_encodeChars,
    Base64.Code.lawful_url.decode_encode]

theorem readPart_encodeChars {α : Type} (part : TokenPart) {read : Bytes → Except Json.Error α}
    {bs : Bytes} {a : α} (h : read bs = .ok a) :
    readPart part read (Base64.url.encodeChars bs) = .ok a := by
  rw [readPart, decodePart_encodeChars]
  simp only [bind, Except.bind, h]
  rfl

/-- A written header, written claims and a written signature are the parts of the token
that tells them. -/
theorem ofParts_encodeChars {h : Header} (hid : h.keyId ≠ "") {c : Claims}
    (hissued : -2 ^ 63 ≤ c.issuedAt ∧ c.issuedAt < 2 ^ 63)
    (hexpires : -2 ^ 63 ≤ c.expiresAt ∧ c.expiresAt < 2 ^ 63) (signature : Bytes) :
    ofParts (Base64.url.encodeChars h.write) (Base64.url.encodeChars c.write)
        (Base64.url.encodeChars signature) =
      .ok ⟨h, c, signedForm (Base64.url.encodeChars h.write) (Base64.url.encodeChars c.write),
        signature⟩ := by
  rw [ofParts, readPart_encodeChars .header h.read_write]
  simp only [bind, Except.bind]
  rw [if_neg hid, readPart_encodeChars .payload (Claims.read_write hissued hexpires)]
  simp only [pure, Except.pure, decodePart_encodeChars]

/-- Parts without dots are found in the text that they make up. -/
theorem parse_text {first second third : List Char} (hfirst : '.' ∉ first)
    (hsecond : '.' ∉ second) (hthird : '.' ∉ third) :
    parse (IssuedToken.text first second third) = ofParts first second third := by
  have hsplit : Text.split '.' (first ++ '.' :: (second ++ '.' :: third)) =
      [first, second, third] :=
    Text.split_eq_three_iff.mpr ⟨rfl, hfirst, hsecond, hthird⟩
  rw [parse, IssuedToken.text, String.toList_ofList, hsplit]

/-- A written header, written claims and a written signature, with dots between them, are
read back. -/
theorem parse_written {h : Header} (hid : h.keyId ≠ "") {c : Claims}
    (hissued : -2 ^ 63 ≤ c.issuedAt ∧ c.issuedAt < 2 ^ 63)
    (hexpires : -2 ^ 63 ≤ c.expiresAt ∧ c.expiresAt < 2 ^ 63) (signature : Bytes) :
    parse (IssuedToken.text (Base64.url.encodeChars h.write) (Base64.url.encodeChars c.write)
        (Base64.url.encodeChars signature)) =
      .ok ⟨h, c, signedForm (Base64.url.encodeChars h.write) (Base64.url.encodeChars c.write),
        signature⟩ := by
  rw [parse_text (Base64.dot_not_mem_encodeChars _) (Base64.dot_not_mem_encodeChars _)
    (Base64.dot_not_mem_encodeChars _)]
  exact ofParts_encodeChars hid hissued hexpires signature

end Token

namespace IssuedToken

/-! ### Issuing -/

theorem instant_eq_ok_iff {n : Int} {t : Instant} :
    instant n = .ok t ↔ Instant.ofSeconds? n = some t := by
  rw [instant]
  cases Instant.ofSeconds? n <;> simp

theorem bounds_of_instant {n : Int} {t : Instant} (h : instant n = .ok t) :
    -2 ^ 63 ≤ n ∧ n < 2 ^ 63 := by
  have hsome : Instant.ofSeconds? n ≠ none := by
    rw [instant_eq_ok_iff.mp h]
    exact Option.some_ne_none t
  rw [ne_eq, Instant.ofSeconds?_eq_none_iff, firstSecond, lastSecond] at hsome
  omega

/-- The second of expiry always has 64 binary digits: there are not so many seconds in a
lifetime. -/
theorem isWord_expiresAt (principal : String) (now : Instant) (lifetime : Duration) :
    IsWord (claims principal now lifetime).expiresAt := by
  have hfirst := now.first_le
  have hlast := now.le_last
  have hseconds := lifetime.seconds_bounds
  rw [firstSecond] at hfirst
  rw [lastSecond] at hlast
  change IsWord (now.seconds + lifetime.secondsUp)
  rw [IsWord, lifetime.secondsUp_eq]
  split_ifs <;> omega

/-- A token for a principal that is not empty is signed first, and then its instants are
looked up. -/
theorem issue_of_ne {key : SigningKey} {principal : String} (h : principal ≠ "") (now : Instant)
    (lifetime : Duration) :
    issue key principal now lifetime = do
      let first := Base64.url.encodeChars (header key).write
      let second := Base64.url.encodeChars (claims principal now lifetime).write
      let signature ← (key.material.sign key.algorithm
        (Token.signedForm first second)).mapError AuthError.cryptographic
      let created ← instant (claims principal now lifetime).issuedAt
      let validBefore ← instant (claims principal now lifetime).expiresAt
      return ⟨text first second (Base64.url.encodeChars signature), created, validBefore⟩ := by
  rw [issue, if_neg h]
  exact if_neg (not_not.mpr (isWord_expiresAt principal now lifetime))

/-- A token is issued exactly if its principal is not empty, its parts can be signed and its
instants exist. -/
theorem issue_eq_ok_iff {key : SigningKey} {principal : String} {now : Instant}
    {lifetime : Duration} {token : IssuedToken} :
    issue key principal now lifetime = .ok token ↔
      principal ≠ "" ∧ ∃ signature,
        key.material.sign key.algorithm
            (Token.signedForm (Base64.url.encodeChars (header key).write)
              (Base64.url.encodeChars (claims principal now lifetime).write)) =
          .ok signature ∧
        instant (claims principal now lifetime).issuedAt = .ok token.created ∧
        instant (claims principal now lifetime).expiresAt = .ok token.validBefore ∧
        token.data = text (Base64.url.encodeChars (header key).write)
          (Base64.url.encodeChars (claims principal now lifetime).write)
          (Base64.url.encodeChars signature) := by
  obtain ⟨data, created, validBefore⟩ := token
  by_cases hp : principal = ""
  · rw [issue, if_pos hp]
    constructor
    · intro h
      cases h
    · intro h
      exact absurd hp h.1
  · rw [issue_of_ne hp]
    simp only [bind_eq_ok_iff, mapError_eq_ok_iff, pure, Except.pure, Except.ok.injEq,
      IssuedToken.mk.injEq]
    constructor
    · rintro ⟨signature, hsign, t, hcreated, u, hbefore, hdata, rfl, rfl⟩
      exact ⟨hp, signature, hsign, hcreated, hbefore, hdata.symm⟩
    · rintro ⟨-, signature, hsign, hcreated, hbefore, hdata⟩
      exact ⟨signature, hsign, created, hcreated, validBefore, hbefore, hdata.symm, rfl, rfl⟩

/-- An issued token is read back with the header, the claims and the signature that it was
written with. -/
theorem exists_parse_of_issue {key : SigningKey} (hid : key.id ≠ "") {principal : String}
    {now : Instant} {lifetime : Duration} {token : IssuedToken}
    (h : issue key principal now lifetime = .ok token) :
    ∃ signature,
      key.material.sign key.algorithm
          (Token.signedForm (Base64.url.encodeChars (header key).write)
            (Base64.url.encodeChars (claims principal now lifetime).write)) = .ok signature ∧
        token.data = text (Base64.url.encodeChars (header key).write)
          (Base64.url.encodeChars (claims principal now lifetime).write)
          (Base64.url.encodeChars signature) ∧
        Token.parse token.data = .ok ⟨header key, claims principal now lifetime,
          Token.signedForm (Base64.url.encodeChars (header key).write)
            (Base64.url.encodeChars (claims principal now lifetime).write), signature⟩ := by
  obtain ⟨-, signature, hsign, hcreated, hbefore, hdata⟩ := issue_eq_ok_iff.mp h
  refine ⟨signature, hsign, hdata, ?_⟩
  rw [hdata]
  exact Token.parse_written hid (bounds_of_instant hcreated) (bounds_of_instant hbefore) signature

end IssuedToken

namespace Token

/-- A token is read back as it was issued: its header tells the algorithm and the identifier
of the key, its claims the principal and the seconds of issue and of expiry, the signed
octets are the first two parts with their dot, and the signature is the one that the key
made of them. -/
theorem parse_issue {key : SigningKey} (hid : key.id ≠ "") {principal : String} {now : Instant}
    {lifetime : Duration} {token : IssuedToken}
    (h : IssuedToken.issue key principal now lifetime = .ok token) :
    ∃ (first second third : List Char) (signature : Bytes) (t : Token),
      token.data.toList = first ++ '.' :: (second ++ '.' :: third) ∧
      '.' ∉ first ∧ '.' ∉ second ∧ '.' ∉ third ∧
      key.material.sign key.algorithm (Utf8.encode (String.ofList (first ++ '.' :: second))) =
        .ok signature ∧
      parse token.data = .ok t ∧
      t.header = ⟨key.algorithm, key.id, some "JWT"⟩ ∧
      t.claims = ⟨principal, now.seconds, now.seconds + lifetime.secondsUp⟩ ∧
      t.signed = Utf8.encode (String.ofList (first ++ '.' :: second)) ∧
      t.signature = signature ∧
      t.issued? = some token.created ∧ t.expiry? = some token.validBefore := by
  obtain ⟨signature, hsign, hdata, hparse⟩ := IssuedToken.exists_parse_of_issue hid h
  obtain ⟨-, -, -, hcreated, hbefore, -⟩ := IssuedToken.issue_eq_ok_iff.mp h
  generalize hfirst : Base64.url.encodeChars (IssuedToken.header key).write = first at *
  generalize hsecond :
    Base64.url.encodeChars (IssuedToken.claims principal now lifetime).write = second at *
  generalize hthird : Base64.url.encodeChars signature = third at *
  refine ⟨first, second, third, signature, _, ?_, ?_, ?_, ?_, hsign, hparse, rfl, rfl, rfl, rfl,
    IssuedToken.instant_eq_ok_iff.mp hcreated, IssuedToken.instant_eq_ok_iff.mp hbefore⟩
  · rw [hdata, IssuedToken.text, String.toList_ofList]
  · rw [← hfirst]
    exact Base64.dot_not_mem_encodeChars _
  · rw [← hsecond]
    exact Base64.dot_not_mem_encodeChars _
  · rw [← hthird]
    exact Base64.dot_not_mem_encodeChars _

/-- A lifetime of a second and a half, and texts with characters that are escaped. -/
theorem parse_issue_escaped :
    ∃ (token : IssuedToken) (t : Token),
      IssuedToken.issue ⟨"a\"b", ⟨.hmac, .sha256⟩, .epoch, .secret [1], rfl⟩ "c\\\nd" .epoch
          ⟨1500000000, by decide, by decide⟩ = .ok token ∧
        parse token.data = .ok t ∧ t.header.keyId = "a\"b" ∧ t.claims = ⟨"c\\\nd", 0, 2⟩ := by
  have hissue : ∃ token, IssuedToken.issue ⟨"a\"b", ⟨.hmac, .sha256⟩, .epoch, .secret [1], rfl⟩
      "c\\\nd" .epoch ⟨1500000000, by decide, by decide⟩ = .ok token :=
    ⟨⟨_, .epoch, ⟨2, 0, by decide, by decide, by decide⟩⟩,
      IssuedToken.issue_eq_ok_iff.mpr ⟨by decide, _, rfl, rfl, rfl, rfl⟩⟩
  obtain ⟨token, htoken⟩ := hissue
  obtain ⟨-, -, -, -, t, -, -, -, -, -, hparse, hheader, hclaims, -⟩ :=
    parse_issue (by decide) htoken
  refine ⟨token, t, htoken, hparse, ?_, hclaims⟩
  rw [hheader]

end Token

end TokenAuthority
