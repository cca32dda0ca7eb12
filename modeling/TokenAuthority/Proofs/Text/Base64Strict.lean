import TokenAuthority.Proofs.Except
import TokenAuthority.Proofs.Text.Base64

/-!
# One written form in base 64

The reader takes nothing but what the writer writes: an octet that is no symbol, padding
that is missing or not wanted, and unused binary digits other than zero are all refused. So
`encode` undoes `decode`, and no two texts are read as the same octets.
-/

namespace TokenAuthority.Base64

namespace Code

variable {c : Code}

/-- Only the symbols of a code have numbers. -/
theorem symbol_of_value? {b : UInt8} {n : Nat} (h : c.value? b = some n) :
    n < 64 ∧ c.symbol n = b := by
  have hb : UInt8.ofNat b.toNat = b := UInt8.ofNat_toNat
  rw [value?] at h
  split at h
  · rename_i hrange
    have hlow := UInt8.le_iff_toNat_le.mp hrange.1
    have hhigh := UInt8.le_iff_toNat_le.mp hrange.2
    simp at h hlow hhigh
    refine ⟨by omega, ?_⟩
    rw [symbol, if_pos (by omega), show 65 + n = b.toNat by omega, hb]
  split at h
  · rename_i hrange
    have hlow := UInt8.le_iff_toNat_le.mp hrange.1
    have hhigh := UInt8.le_iff_toNat_le.mp hrange.2
    simp at h hlow hhigh
    refine ⟨by omega, ?_⟩
    rw [symbol, if_neg (by omega), if_pos (by omega), show 71 + n = b.toNat by omega, hb]
  split at h
  · rename_i hrange
    have hlow := UInt8.le_iff_toNat_le.mp hrange.1
    have hhigh := UInt8.le_iff_toNat_le.mp hrange.2
    simp at h hlow hhigh
    refine ⟨by omega, ?_⟩
    rw [symbol, if_neg (by omega), if_neg (by omega), if_pos (by omega),
      show n - 4 = b.toNat by omega, hb]
  split at h
  · rename_i hplus
    cases h
    exact ⟨by decide, hplus.symm⟩
  split at h
  · rename_i hslash
    cases h
    exact ⟨by decide, hslash.symm⟩
  · cases h

theorem of_value {place : Nat} {b : UInt8} {n : Nat} (h : c.value place b = .ok n) :
    n < 64 ∧ c.symbol n = b := by
  rw [value] at h
  split at h
  · rename_i m hm
    cases h
    exact symbol_of_value? hm
  · cases h

/-! ### The last group -/

/-- A group that is read consists of the symbols of its numbers and the padding. -/
theorem of_lastGroup {place seen : Nat} {bs : Bytes}
    {numbers : List Nat} {padding : Nat} (h : c.lastGroup place seen bs = .ok (numbers, padding)) :
    bs = numbers.map c.symbol ++ List.replicate padding pad ∧ ∀ n ∈ numbers, n < 64 := by
  induction bs generalizing seen numbers with
  | nil =>
      cases h
      simp
  | cons b rest ih =>
      rw [lastGroup] at h
      by_cases hb : b = pad
      · rw [if_pos hb] at h
        by_cases hseen : seen < 2
        · rw [if_pos hseen] at h
          cases h
        · rw [if_neg hseen] at h
          by_cases hall : rest.all (· == pad)
          · rw [if_pos hall] at h
            cases h
            have hrest : ∀ x ∈ rest, x = pad := by simpa using hall
            rw [hb, List.eq_replicate_of_mem hrest]
            simp [List.replicate_succ]
          · rw [if_neg hall] at h
            cases h
      · rw [if_neg hb] at h
        obtain ⟨n, hn, h⟩ := bind_eq_ok_iff.mp h
        obtain ⟨⟨others, k⟩, hothers, h⟩ := bind_eq_ok_iff.mp h
        cases h
        obtain ⟨hlt, hsymbol⟩ := of_value hn
        obtain ⟨hrest, hall⟩ := ih hothers
        constructor
        · rw [List.map_cons, List.cons_append, hsymbol, ← hrest]
        · exact List.forall_mem_cons.mpr ⟨hlt, hall⟩

theorem toNat_ofNat_lt {n : Nat} (h : n < 256) : (UInt8.ofNat n).toNat = n := by
  rw [UInt8.toNat_ofNat']
  exact Nat.mod_eq_of_lt h

/-- The numbers of a group of two symbols, without unused binary digits. -/
theorem encode_of_two {a b : Nat} (ha : a < 64) (hb : b < 64) (hunused : b % 16 = 0) :
    c.encode [UInt8.ofNat (a * 4 + b / 16)] = [a, b].map c.symbol ++ c.fill 2 := by
  have hx := toNat_ofNat_lt (n := a * 4 + b / 16) (by omega)
  have h1 : (a * 4 + b / 16) / 4 = a := by omega
  have h2 : (a * 4 + b / 16) % 4 * 16 = b := by omega
  rw [encode, hx, h1, h2]
  rfl

theorem encode_of_three {a b d : Nat} (ha : a < 64) (hb : b < 64) (hd : d < 64)
    (hunused : d % 4 = 0) :
    c.encode [UInt8.ofNat (a * 4 + b / 16), UInt8.ofNat (b % 16 * 16 + d / 4)] =
      [a, b, d].map c.symbol ++ c.fill 1 := by
  have hx := toNat_ofNat_lt (n := a * 4 + b / 16) (by omega)
  have hy := toNat_ofNat_lt (n := b % 16 * 16 + d / 4) (by omega)
  have h1 : (a * 4 + b / 16) / 4 = a := by omega
  have h2 : (a * 4 + b / 16) % 4 * 16 + (b % 16 * 16 + d / 4) / 16 = b := by omega
  have h3 : (b % 16 * 16 + d / 4) % 16 * 4 = d := by omega
  rw [encode, hx, hy, h1, h2, h3]
  rfl

theorem encode_of_four {a b d e : Nat} (ha : a < 64) (hb : b < 64) (hd : d < 64) (he : e < 64)
    (rest : Bytes) :
    c.encode (UInt8.ofNat (a * 4 + b / 16) :: UInt8.ofNat (b % 16 * 16 + d / 4) ::
        UInt8.ofNat (d % 4 * 64 + e) :: rest) =
      [a, b, d, e].map c.symbol ++ c.encode rest := by
  have hx := toNat_ofNat_lt (n := a * 4 + b / 16) (by omega)
  have hy := toNat_ofNat_lt (n := b % 16 * 16 + d / 4) (by omega)
  have hz := toNat_ofNat_lt (n := d % 4 * 64 + e) (by omega)
  have h1 : (a * 4 + b / 16) / 4 = a := by omega
  have h2 : (a * 4 + b / 16) % 4 * 16 + (b % 16 * 16 + d / 4) / 16 = b := by omega
  have h3 : (b % 16 * 16 + d / 4) % 16 * 4 + (d % 4 * 64 + e) / 64 = d := by omega
  have h4 : (d % 4 * 64 + e) % 64 = e := by omega
  rw [encode, hx, hy, hz, h1, h2, h3, h4]
  rfl

/-- The padding that is let through fills up the symbols as the code wants. -/
theorem fill_of_padding {n padding : Nat} (hlength : n + padding ≤ 4) (hn : 2 ≤ n)
    (hpadded : c.padded = true → (n + padding) % 4 = 0)
    (hplain : c.padded = false → padding = 0) :
    List.replicate padding pad = c.fill (4 - n) := by
  rw [fill_eq]
  cases hp : c.padded with
  | true =>
      have hsum := hpadded hp
      rw [if_pos rfl, show 4 - n = padding by omega]
  | false => rw [if_neg (by decide), hplain hp]

/-- What is checked of a last group, and the octets it is, by the number of its symbols. -/
theorem of_decodeLast {place : Nat} {bs out : Bytes} (h : c.decodeLast place bs = .ok out) :
    ∃ numbers padding, c.lastGroup place 0 bs = .ok (numbers, padding) ∧ 2 ≤ numbers.length ∧
      (c.padded = true → (numbers.length + padding) % 4 = 0) ∧
      (c.padded = false → padding = 0) ∧
      match numbers with
      | [a, b] => b % 16 = 0 ∧ out = [UInt8.ofNat (a * 4 + b / 16)]
      | [a, b, d] => d % 4 = 0 ∧
        out = [UInt8.ofNat (a * 4 + b / 16), UInt8.ofNat (b % 16 * 16 + d / 4)]
      | [a, b, d, e] => out = [UInt8.ofNat (a * 4 + b / 16), UInt8.ofNat (b % 16 * 16 + d / 4),
          UInt8.ofNat (d % 4 * 64 + e)]
      | _ => True := by
  rw [decodeLast] at h
  obtain ⟨⟨numbers, padding⟩, hgroup, h⟩ := bind_eq_ok_iff.mp h
  dsimp only at h
  obtain ⟨hlength, h⟩ := guard_eq_ok_iff.mp h
  refine ⟨numbers, padding, hgroup, Nat.not_lt.mp hlength, ?_⟩
  have hpadding : ∀ {x : PUnit → Except Error Bytes},
      (if c.padded then
        if (numbers.length + padding) % 4 ≠ 0 then (throw .padding : Except Error PUnit) >>= x
        else x ⟨⟩
      else if padding ≠ 0 then (throw .padding : Except Error PUnit) >>= x else x ⟨⟩) = .ok out →
      ((c.padded = true → (numbers.length + padding) % 4 = 0) ∧
        (c.padded = false → padding = 0)) ∧ x ⟨⟩ = .ok out := by
    intro x h
    cases hp : c.padded with
    | true =>
        rw [if_pos hp] at h
        obtain ⟨hmod, h⟩ := guard_eq_ok_iff.mp h
        exact ⟨⟨fun _ => not_not.mp hmod, fun hfalse => absurd hfalse (by decide)⟩, h⟩
    | false =>
        rw [if_neg (by rw [hp]; decide)] at h
        obtain ⟨hzero, h⟩ := guard_eq_ok_iff.mp h
        exact ⟨⟨fun htrue => absurd htrue (by decide), fun _ => not_not.mp hzero⟩, h⟩
  obtain ⟨⟨hpadded, hplain⟩, h⟩ := hpadding h
  refine ⟨hpadded, hplain, ?_⟩
  rcases numbers with _ | ⟨a, _ | ⟨b, _ | ⟨d, _ | ⟨e, _ | ⟨f, rest⟩⟩⟩⟩⟩
  · trivial
  · trivial
  · obtain ⟨hunused, h⟩ := guard_eq_ok_iff.mp h
    cases h
    exact ⟨not_not.mp hunused, rfl⟩
  · obtain ⟨hunused, h⟩ := guard_eq_ok_iff.mp h
    cases h
    exact ⟨not_not.mp hunused, rfl⟩
  · cases h
    rfl
  · trivial

/-- A last group that is read is the one that is written for its octets. -/
theorem encode_of_decodeLast {place : Nat} {bs out : Bytes} (hlength : bs.length ≤ 4)
    (h : c.decodeLast place bs = .ok out) : c.encode out = bs := by
  obtain ⟨numbers, padding, hgroup, htwo, hpadded, hplain, hout⟩ := of_decodeLast h
  obtain ⟨hbs, hlt⟩ := of_lastGroup hgroup
  rw [hbs, List.length_append, List.length_map, List.length_replicate] at hlength
  rw [hbs, fill_of_padding hlength htwo hpadded hplain]
  rcases numbers with _ | ⟨a, _ | ⟨b, _ | ⟨d, _ | ⟨e, _ | ⟨f, rest⟩⟩⟩⟩⟩
  · cases htwo
  · simp at htwo
  · obtain ⟨hunused, rfl⟩ := hout
    simp only [List.forall_mem_cons] at hlt
    exact encode_of_two hlt.1 hlt.2.1 hunused
  · obtain ⟨hunused, rfl⟩ := hout
    simp only [List.forall_mem_cons] at hlt
    exact encode_of_three hlt.1 hlt.2.1 hlt.2.2.1 hunused
  · obtain rfl := hout
    simp only [List.forall_mem_cons] at hlt
    rw [encode_of_four hlt.1 hlt.2.1 hlt.2.2.1 hlt.2.2.2.1]
    simp [encode, fill_eq]
  · simp at hlength
    omega

theorem encode_of_decodeFrom {place : Nat} {bs out : Bytes}
    (h : c.decodeFrom place bs = .ok out) : c.encode out = bs := by
  induction place, bs using decodeFrom.induct generalizing out with
  | case1 place x y z w v rest ih =>
      rw [decodeFrom] at h
      obtain ⟨a, ha, h⟩ := bind_eq_ok_iff.mp h
      obtain ⟨b, hb, h⟩ := bind_eq_ok_iff.mp h
      obtain ⟨d, hd, h⟩ := bind_eq_ok_iff.mp h
      obtain ⟨e, he, h⟩ := bind_eq_ok_iff.mp h
      obtain ⟨others, hothers, h⟩ := bind_eq_ok_iff.mp h
      cases h
      obtain ⟨hlt₁, rfl⟩ := of_value ha
      obtain ⟨hlt₂, rfl⟩ := of_value hb
      obtain ⟨hlt₃, rfl⟩ := of_value hd
      obtain ⟨hlt₄, rfl⟩ := of_value he
      rw [encode_of_four hlt₁ hlt₂ hlt₃ hlt₄, ih hothers]
      rfl
  | case2 place bs hshort =>
      have hlength : bs.length ≤ 4 := by
        rcases bs with _ | ⟨x, _ | ⟨y, _ | ⟨z, _ | ⟨w, _ | ⟨v, rest⟩⟩⟩⟩⟩
        · simp
        · simp
        · simp
        · simp
        · simp
        · exact absurd rfl (hshort x y z w v rest)
      rw [decodeFrom] at h
      · exact encode_of_decodeLast hlength h
      · exact hshort

/-- Symbols that are read are those that are written for their octets. -/
theorem encode_of_decode {bs out : Bytes} (h : c.decode bs = .ok out) : c.encode out = bs := by
  rw [decode] at h
  split at h
  · split at h
    · cases h
    · exact encode_of_decodeFrom h
  · rename_i hnone
    cases h
    rw [List.getLast?_eq_none_iff.mp hnone]
    rfl

end Code

end TokenAuthority.Base64
