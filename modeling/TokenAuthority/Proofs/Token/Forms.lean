import TokenAuthority.Proofs.Text.Base64Strict
import TokenAuthority.Proofs.Token.RoundTrip
import TokenAuthority.Proofs.Token.Spelling
import TokenAuthority.Token.Verify

/-!
# Other forms of a token

A token does not change if its header or its claims are told by another object than the one that
is written. A token whose header or whose claims tell anything twice is malformed.
-/

namespace TokenAuthority

open Json

namespace Token

variable {part part' header claims signature : List Char} {bs : Bytes}

theorem readPart_of_read {α : Type} {side : TokenPart} {read : Bytes → Except Json.Error α} {a : α}
    (hpart : decodePart side part = .ok bs) (hread : read bs = .ok a) :
    readPart side read part = .ok a :=
  readPart_eq_ok_iff.mpr ⟨bs, decodePart_eq_ok_iff.mp hpart, hread⟩

/-- Base 64 has no dot. -/
theorem dot_not_mem_of_decodePart {side : TokenPart} (h : decodePart side part = .ok bs) :
    '.' ∉ part := by
  have hencode := Base64.Code.encode_of_decode (decodePart_eq_ok_iff.mp h)
  rw [← Base64.Code.lawful_url.octets_encodeChars, ← Utf8.encode_ofList, Utf8.encode_inj,
    String.ofList_inj] at hencode
  rw [← hencode]
  exact Base64.dot_not_mem_encodeChars bs

/-- A text whose parts have dots has too many of them. -/
theorem parse_text_of_mem (h : '.' ∈ header ∨ '.' ∈ claims ∨ '.' ∈ signature) :
    parse (IssuedToken.text header claims signature) = .error .notThreeParts := by
  have hcount : 0 < header.count '.' ∨ 0 < claims.count '.' ∨ 0 < signature.count '.' := by
    rwa [List.count_pos_iff, List.count_pos_iff, List.count_pos_iff]
  rw [parse, IssuedToken.text, String.toList_ofList]
  split
  · rename_i hsplit
    have hlength := Text.length_split '.' (header ++ '.' :: (claims ++ '.' :: signature))
    rw [hsplit, List.count_append, List.count_cons_self, List.count_append,
      List.count_cons_self] at hlength
    simp only [List.length_cons, List.length_nil] at hlength
    omega
  · rfl

/-- Which claims a token has depends on what is read from their part, and on nothing else
of it. -/
theorem parse_of_claims {c : Claims} (hpart : readPart .payload Claims.read part = .ok c)
    (hdot : '.' ∉ part) (hpart' : readPart .payload Claims.read part' = .ok c)
    (hdot' : '.' ∉ part') (header signature : List Char) :
    parse (IssuedToken.text header part signature) =
      (parse (IssuedToken.text header part' signature)).map
        fun t => { t with signed := signedForm header part } := by
  by_cases hheader : '.' ∈ header
  · rw [parse_text_of_mem (.inl hheader), parse_text_of_mem (.inl hheader)]
    rfl
  by_cases hsignature : '.' ∈ signature
  · rw [parse_text_of_mem (.inr (.inr hsignature)), parse_text_of_mem (.inr (.inr hsignature))]
    rfl
  rw [parse_text hheader hdot hsignature, parse_text hheader hdot' hsignature, ofParts, ofParts,
    hpart, hpart']
  cases readPart .header Header.read header with
  | error e => rfl
  | ok h =>
      simp only [bind, Except.bind]
      split_ifs with hid
      · rfl
      · cases decodePart .signature signature <;> rfl

theorem parse_of_header {h : Header} (hpart : readPart .header Header.read part = .ok h)
    (hdot : '.' ∉ part) (hpart' : readPart .header Header.read part' = .ok h)
    (hdot' : '.' ∉ part') (claims signature : List Char) :
    parse (IssuedToken.text part claims signature) =
      (parse (IssuedToken.text part' claims signature)).map
        fun t => { t with signed := signedForm part claims } := by
  by_cases hclaims : '.' ∈ claims
  · rw [parse_text_of_mem (.inr (.inl hclaims)), parse_text_of_mem (.inr (.inl hclaims))]
    rfl
  by_cases hsignature : '.' ∈ signature
  · rw [parse_text_of_mem (.inr (.inr hsignature)), parse_text_of_mem (.inr (.inr hsignature))]
    rfl
  rw [parse_text hdot hclaims hsignature, parse_text hdot' hclaims hsignature, ofParts, ofParts,
    hpart, hpart']
  simp only [bind, Except.bind]
  split_ifs with hid
  · rfl
  · cases readPart .payload Claims.read claims with
    | error e => rfl
    | ok c => cases decodePart .signature signature <;> rfl

theorem ofParts_of_parse_text {t : Token}
    (h : parse (IssuedToken.text header claims signature) = .ok t) :
    ofParts header claims signature = .ok t := by
  by_cases hdots : '.' ∈ header ∨ '.' ∈ claims ∨ '.' ∈ signature
  · rw [parse_text_of_mem hdots] at h
    cases h
  · push Not at hdots
    rwa [parse_text hdots.1 hdots.2.1 hdots.2.2] at h

/-- A text from which no token is read is malformed. -/
theorem exists_malformed {data : String} (h : ∀ t, parse data ≠ .ok t) :
    ∃ why, read data = .error (.malformed why) := by
  rw [read]
  cases hparse : parse data with
  | error why => exact ⟨why, rfl⟩
  | ok t => exact absurd hparse (h t)

theorem ne_ok_of_decodePart {α : Type} {side : TokenPart} {read : Bytes → Except Json.Error α}
    (hpart : decodePart side part = .ok bs) (hread : ∃ e, read bs = .error e) (a : α) :
    readPart side read part ≠ .ok a := by
  intro h
  obtain ⟨octets, hoctets, ha⟩ := readPart_eq_ok_iff.mp h
  rw [decodePart_eq_ok_iff.mp hpart, Except.ok.injEq] at hoctets
  obtain ⟨e, he⟩ := hread
  rw [hoctets, ha] at he
  cases he

/-- Every object that tells claims, or a header, stands for them: the token is the same, but for
the octets that were signed, as with the object that is written. A token whose claims or whose
header tell anything twice is malformed. -/
theorem parse_of_told :
    (∀ (part : List Char) (bs : Bytes) (ms : List (String × Bytes)) (c : Claims),
      decodePart .payload part = .ok bs → IsObject ms bs → c.ToldBy ms →
      ∀ header signature : List Char,
        parse (IssuedToken.text header part signature) =
            (parse (IssuedToken.text header (Base64.url.encodeChars c.write) signature)).map
              (fun t => { t with signed := signedForm header part }) ∧
          ∀ t, parse (IssuedToken.text header part signature) = .ok t → t.claims = c) ∧
    (∀ (part : List Char) (bs : Bytes) (ms : List (String × Bytes)) (h : Header),
      decodePart .header part = .ok bs → IsObject ms bs → h.ToldBy ms →
      ∀ claims signature : List Char,
        parse (IssuedToken.text part claims signature) =
            (parse (IssuedToken.text (Base64.url.encodeChars h.write) claims signature)).map
              (fun t => { t with signed := signedForm part claims }) ∧
          ∀ t, parse (IssuedToken.text part claims signature) = .ok t → t.header = h) ∧
    (∀ (part : List Char) (bs : Bytes) (ms : List (String × Bytes)) (name : String),
      decodePart .payload part = .ok bs → IsObject ms bs → name ∈ ["sub", "iat", "exp"] →
      2 ≤ (ms.map Prod.fst).count name → ∀ header signature : List Char,
        ∃ why, read (IssuedToken.text header part signature) = .error (.malformed why)) ∧
    (∀ (part : List Char) (bs : Bytes) (ms : List (String × Bytes)) (name : String),
      decodePart .header part = .ok bs → IsObject ms bs → name ∈ ["alg", "kid", "typ"] →
      2 ≤ (ms.map Prod.fst).count name → ∀ claims signature : List Char,
        ∃ why, read (IssuedToken.text part claims signature) = .error (.malformed why)) := by
  refine ⟨?claims, ?header, ?claimsTwice, ?headerTwice⟩
  case claims =>
    intro part bs ms c hpart hobject htold header signature
    have hread := readPart_of_read hpart (Claims.read_of_toldBy hobject htold)
    refine ⟨parse_of_claims hread (dot_not_mem_of_decodePart hpart)
      (readPart_encodeChars .payload (Claims.read_write htold.issuedBounds htold.expiresBounds))
      (Base64.dot_not_mem_encodeChars _) header signature, fun t ht => ?_⟩
    obtain ⟨-, -, hclaims, -⟩ := ofParts_eq_ok_iff.mp (ofParts_of_parse_text ht)
    exact Except.ok.inj (hclaims.symm.trans hread)
  case header =>
    intro part bs ms h hpart hobject htold claims signature
    have hread := readPart_of_read hpart (Header.read_of_toldBy hobject htold)
    refine ⟨parse_of_header hread (dot_not_mem_of_decodePart hpart)
      (readPart_encodeChars .header h.read_write)
      (Base64.dot_not_mem_encodeChars _) claims signature, fun t ht => ?_⟩
    obtain ⟨hheader, -⟩ := ofParts_eq_ok_iff.mp (ofParts_of_parse_text ht)
    exact Except.ok.inj (hheader.symm.trans hread)
  case claimsTwice =>
    intro part bs ms name hpart hobject hname htwice header signature
    refine exists_malformed fun t ht => ?_
    obtain ⟨-, -, hclaims, -⟩ := ofParts_eq_ok_iff.mp (ofParts_of_parse_text ht)
    exact ne_ok_of_decodePart hpart (Claims.exists_error_of_twice hobject hname htwice) _ hclaims
  case headerTwice =>
    intro part bs ms name hpart hobject hname htwice claims signature
    refine exists_malformed fun t ht => ?_
    obtain ⟨hheader, -⟩ := ofParts_eq_ok_iff.mp (ofParts_of_parse_text ht)
    exact ne_ok_of_decodePart hpart (Header.exists_error_of_twice hobject hname htwice) _ hheader

/-- Claims in another order, with a blank, another member that has a `sub` of its own, and a
name that is escaped; a header in another order, with a kind that is `null`, and a line break
behind it; claims that name the subject twice, once escaped; and a header that names the
identifier twice. -/
theorem parse_of_told_reordered :
    (∃ t, parse (IssuedToken.text
          (Base64.url.encodeChars (Header.write ⟨⟨.hmac, .sha256⟩, "k", none⟩))
          (Base64.url.encodeChars (Utf8.encode
          "\x7b\"exp\":9, \"x\":[\x7b\"sub\":null\x7d,1.5E+2],\"\\u0073ub\":\"frodo\",\"iat\":-3\x7d"))
          (Base64.url.encodeChars [])) = .ok t ∧ t.claims = ⟨"frodo", -3, 9⟩) ∧
    (∃ t, parse (IssuedToken.text
          (Base64.url.encodeChars (Utf8.encode
            "\x7b\"typ\":null,\"kid\":\"k\",\"alg\":\"HS256\"\x7d\n"))
          (Base64.url.encodeChars (Claims.write ⟨"frodo", -3, 9⟩))
          (Base64.url.encodeChars [])) = .ok t ∧ t.header = ⟨⟨.hmac, .sha256⟩, "k", none⟩) ∧
    (∃ why, read (IssuedToken.text [] (Base64.url.encodeChars (Utf8.encode
        "\x7b\"sub\":\"frodo\",\"\\u0073ub\":null\x7d")) []) = .error (.malformed why)) ∧
    (∃ why, read (IssuedToken.text (Base64.url.encodeChars (Utf8.encode
        "\x7b\"kid\":null,\"kid\":\"k\"\x7d")) [] []) = .error (.malformed why)) := by
  have hspace : IsBlank [0x20] := by simp [IsBlank, isSpace]
  have hline : IsBlank [0x0A] := by simp [IsBlank, isSpace]
  have hescaped : IsText "sub" (Utf8.encode "\"\\u0073ub\"") := by
    have hcode : IsHex 's'.toNat [0x30, 0x30, 0x37, 0x33] :=
      @IsHex.four 0 0 7 3 _ _ _ _ ⟨by decide, .inl rfl⟩ ⟨by decide, .inl rfl⟩ ⟨by decide, .inl rfl⟩
        ⟨by decide, .inl rfl⟩
    exact @IsText.mk "sub" _ (.escaped (.code hcode) (.quotedChar 'u' (.quotedChar 'b' .nil)))
  have hdigit : ∀ d : UInt8, isDigit d → IsWhole [d] := fun d hd => isWhole_singleton hd
  have hunsigned : ∀ d : UInt8, isDigit d → IsUnsigned [d] := fun d hd =>
    .mk (hdigit d hd) .none .none
  have hnine : IsInteger 9 [0x39] := .natural (hdigit 0x39 rfl)
  have hthree : IsInteger (-3) [0x2D, 0x33] := .negative (hdigit 0x33 rfl) (by decide)
  have hfloat := IsNumber.positive (.mk (hdigit 0x31 rfl) (.some (hdigit 0x35 rfl).1)
    (.some (.inr rfl) (.inr (.inl rfl)) (hdigit 0x32 rfl).1))
  have hlist := Form.list (.moreItems (.item isBlank_nil
    (.object (.lastMember (.closeMember (isText_quoted "sub") .null))) isBlank_nil)
    (.lastItem (.item isBlank_nil (.number hfloat) isBlank_nil)))
  have spelled : ∀ {ms : List (String × Bytes)} {bs : Bytes} (s : String), IsObject ms bs →
      bs = Utf8.encode s → IsObject ms (Utf8.encode s) := fun s h hs => hs ▸ h
  have hpayload := spelled
    "\x7b\"exp\":9, \"x\":[\x7b\"sub\":null\x7d,1.5E+2],\"\\u0073ub\":\"frodo\",\"iat\":-3\x7d"
    (.mk isBlank_nil
      (.moreMembers (.closeMember (isText_quoted "exp") (.number (.positive (hunsigned 0x39 rfl))))
      (.moreMembers (.member hspace (isText_quoted "x") isBlank_nil isBlank_nil hlist isBlank_nil)
      (.moreMembers (.closeMember hescaped (.text (isText_quoted "frodo")))
      (.lastMember
        (.closeMember (isText_quoted "iat") (.number (.negative (hunsigned 0x33 rfl))))))))
      isBlank_nil) (by decide +kernel)
  have hheader := spelled "\x7b\"typ\":null,\"kid\":\"k\",\"alg\":\"HS256\"\x7d\n"
    (.mk isBlank_nil (.moreMembers (.closeMember (isText_quoted "typ") .null)
      (.moreMembers (.closeMember (isText_quoted "kid") (.text (isText_quoted "k")))
      (.lastMember (.closeMember (isText_quoted "alg") (.text (isText_quoted "HS256"))))))
      hline) (by decide +kernel)
  have hpayloadTwice := spelled "\x7b\"sub\":\"frodo\",\"\\u0073ub\":null\x7d"
    (.mk isBlank_nil
      (.moreMembers (.closeMember (isText_quoted "sub") (.text (isText_quoted "frodo")))
      (.lastMember (.closeMember hescaped .null))) isBlank_nil) (by decide +kernel)
  have hheaderTwice := spelled "\x7b\"kid\":null,\"kid\":\"k\"\x7d"
    (.mk isBlank_nil (.moreMembers (.closeMember (isText_quoted "kid") .null)
      (.lastMember (.closeMember (isText_quoted "kid") (.text (isText_quoted "k"))))) isBlank_nil)
    (by decide +kernel)
  obtain ⟨hclaims, hhead, hclaimsTwice, hheadTwice⟩ := parse_of_told
  refine ⟨?_, ?_, ?_, ?_⟩
  · obtain ⟨hparse, htold⟩ := hclaims _ _ _ ⟨"frodo", -3, 9⟩
      (decodePart_encodeChars .payload _) hpayload
      ⟨⟨_, rfl, isText_quoted "frodo"⟩, ⟨_, rfl, hthree⟩, ⟨_, rfl, hnine⟩, by decide, by decide⟩
      (Base64.url.encodeChars (Header.write ⟨⟨.hmac, .sha256⟩, "k", none⟩))
      (Base64.url.encodeChars [])
    rw [parse_written (by decide) (by decide) (by decide)] at hparse
    exact ⟨_, hparse, rfl⟩
  · obtain ⟨hparse, htold⟩ := hhead _ _ _ ⟨⟨.hmac, .sha256⟩, "k", none⟩
      (decodePart_encodeChars .header _) hheader
      ⟨⟨_, rfl, isText_quoted "HS256"⟩, ⟨_, rfl, isText_quoted "k"⟩, .inr ⟨_, rfl, .null⟩⟩
      (Base64.url.encodeChars (Claims.write ⟨"frodo", -3, 9⟩)) (Base64.url.encodeChars [])
    rw [parse_written (by decide) (by decide) (by decide)] at hparse
    exact ⟨_, hparse, rfl⟩
  · exact hclaimsTwice _ _ _ "sub" (decodePart_encodeChars .payload _) hpayloadTwice (by decide)
      (by decide) [] []
  · exact hheadTwice _ _ _ "kid" (decodePart_encodeChars .header _) hheaderTwice (by decide)
      (by decide) [] []

end Token

end TokenAuthority
