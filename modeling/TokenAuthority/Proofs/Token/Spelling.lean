import TokenAuthority.Proofs.Except
import TokenAuthority.Proofs.Text.Split
import TokenAuthority.Token.Compact

/-!
# The texts that stand for a token

A text spells a token if it has exactly two dots, and the three parts between them are the
base 64 of a header with an identifier, of claims, and of a signature. The reader finds
every token that is spelled, and finds none where none is.
-/

namespace TokenAuthority

namespace Token

/-- A text spells a token. What is signed are the octets before the second dot. -/
def Spells (data : String) (t : Token) : Prop :=
  ∃ first second third : List Char,
    data.toList = first ++ '.' :: (second ++ '.' :: third) ∧
    ('.' ∉ first ∧ '.' ∉ second ∧ '.' ∉ third) ∧
    (∃ octets, Base64.url.decode (Utf8.encode (String.ofList first)) = .ok octets ∧
      Header.read octets = .ok t.header) ∧
    t.header.keyId ≠ "" ∧
    (∃ octets, Base64.url.decode (Utf8.encode (String.ofList second)) = .ok octets ∧
      Claims.read octets = .ok t.claims) ∧
    Base64.url.decode (Utf8.encode (String.ofList third)) = .ok t.signature ∧
    t.signed = Utf8.encode (String.ofList (first ++ '.' :: second))

theorem decodePart_eq_ok_iff {part : TokenPart} {cs : List Char} {octets : Bytes} :
    decodePart part cs = .ok octets ↔
      Base64.url.decode (Utf8.encode (String.ofList cs)) = .ok octets := by
  rw [decodePart]
  cases Base64.url.decode (Utf8.encode (String.ofList cs)) with
  | error e => simp
  | ok octets => simp

theorem readPart_eq_ok_iff {α : Type} {part : TokenPart} {read : Bytes → Except Json.Error α}
    {cs : List Char} {a : α} :
    readPart part read cs = .ok a ↔
      ∃ octets, Base64.url.decode (Utf8.encode (String.ofList cs)) = .ok octets ∧
        read octets = .ok a := by
  rw [readPart, bind_eq_ok_iff]
  refine exists_congr fun octets => ?_
  rw [decodePart_eq_ok_iff]
  cases read octets with
  | error e => simp
  | ok a => simp [pure, Except.pure]

theorem ofParts_eq_ok_iff {first second third : List Char} {t : Token} :
    ofParts first second third = .ok t ↔
      readPart .header Header.read first = .ok t.header ∧ t.header.keyId ≠ "" ∧
        readPart .payload Claims.read second = .ok t.claims ∧
        decodePart .signature third = .ok t.signature ∧
        t.signed = signedForm first second := by
  rw [ofParts, bind_eq_ok_iff]
  constructor
  · rintro ⟨h, hheader, hrest⟩
    by_cases hid : h.keyId = ""
    · rw [if_pos hid] at hrest
      cases hrest
    · rw [if_neg hid] at hrest
      obtain ⟨c, hclaims, hrest⟩ := bind_eq_ok_iff.mp hrest
      obtain ⟨signature, hsignature, hrest⟩ := bind_eq_ok_iff.mp hrest
      cases hrest
      exact ⟨hheader, hid, hclaims, hsignature, rfl⟩
  · rintro ⟨hheader, hid, hclaims, hsignature, hsigned⟩
    refine ⟨t.header, hheader, ?_⟩
    rw [if_neg hid]
    refine bind_eq_ok_iff.mpr ⟨t.claims, hclaims, ?_⟩
    refine bind_eq_ok_iff.mpr ⟨t.signature, hsignature, ?_⟩
    rw [← hsigned]
    rfl

theorem parse_eq_ok_iff_exists {data : String} {t : Token} :
    parse data = .ok t ↔
      ∃ first second third, Text.split '.' data.toList = [first, second, third] ∧
        ofParts first second third = .ok t := by
  rw [parse]
  split
  · rename_i first second third hsplit
    constructor
    · intro h
      exact ⟨first, second, third, hsplit, h⟩
    · rintro ⟨first', second', third', hsplit', h⟩
      rw [hsplit, List.cons.injEq, List.cons.injEq, List.cons.injEq] at hsplit'
      obtain ⟨rfl, rfl, rfl, -⟩ := hsplit'
      exact h
  · rename_i hother
    constructor
    · intro h
      cases h
    · rintro ⟨first, second, third, hsplit, -⟩
      exact absurd hsplit (hother first second third)

/-- The token that is read from a text is the one that the text spells. -/
theorem parse_eq_ok_iff {data : String} {t : Token} : parse data = .ok t ↔ Spells data t := by
  rw [parse_eq_ok_iff_exists]
  refine exists_congr fun first => exists_congr fun second => exists_congr fun third => ?_
  rw [Text.split_eq_three_iff, ofParts_eq_ok_iff, readPart_eq_ok_iff, readPart_eq_ok_iff,
    decodePart_eq_ok_iff, and_assoc]
  rfl

/-- A text spells one token at most. -/
theorem Spells.unique {data : String} {t t' : Token} (h : Spells data t) (h' : Spells data t') :
    t = t' := by
  rw [← parse_eq_ok_iff] at h h'
  exact Except.ok.inj (h.symm.trans h')

/-- No text is refused as malformed that spells a token, and all others are. -/
theorem exists_parse_eq_error_iff {data : String} :
    (∃ why, parse data = .error why) ↔ ∀ t, ¬Spells data t := by
  simp only [← parse_eq_ok_iff]
  cases parse data with
  | error why => simp
  | ok t => simp

end Token

end TokenAuthority
