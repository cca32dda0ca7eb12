import TokenAuthority.Text.Base64
import TokenAuthority.Proofs.Text.Utf8
import Mathlib.Tactic.Common

/-!
# Reading back base 64

An alphabet is lawful if every symbol has one number and none is the padding. A lawful
code reads back what it writes. Three octets are one group of four symbols; the last
group may be shorter, and the reader takes it apart from the others.
-/

namespace TokenAuthority.Base64

namespace Code

/-- An alphabet in which every symbol is one octet of a text and has one number, and none
is the padding. -/
structure Lawful (c : Code) : Prop where
  value?_symbol : ∀ n < 64, c.value? (c.symbol n) = some n
  symbol_ne_pad : ∀ n < 64, c.symbol n ≠ pad
  symbol_lt : ∀ n < 64, c.symbol n < 0x80

theorem lawful_url : url.Lawful where
  value?_symbol := by decide
  symbol_ne_pad := by decide
  symbol_lt := by decide

theorem lawful_standard : standard.Lawful where
  value?_symbol := by decide
  symbol_ne_pad := by decide
  symbol_lt := by decide

variable {c : Code}

theorem Lawful.value_symbol (hc : c.Lawful) (place : Nat) {n : Nat} (hn : n < 64) :
    c.value place (c.symbol n) = .ok n := by
  rw [value, hc.value?_symbol n hn]

theorem lastGroup_pad (place seen n : Nat) (hseen : n = 0 ∨ 2 ≤ seen) :
    c.lastGroup place seen (List.replicate n pad) = .ok ([], n) := by
  cases n with
  | zero => rfl
  | succ n =>
      have h2 : ¬seen < 2 := by omega
      have hall : (List.replicate n pad).all (· == pad) = true := by simp
      rw [List.replicate_succ, lastGroup, if_pos rfl, if_neg h2, if_pos hall,
        List.length_replicate]

theorem Lawful.lastGroup_symbols (hc : c.Lawful) (place n : Nat) :
    ∀ (seen : Nat) (numbers : List Nat), (∀ m ∈ numbers, m < 64) →
      (n = 0 ∨ 2 ≤ seen + numbers.length) →
      c.lastGroup place seen (numbers.map c.symbol ++ List.replicate n pad) =
        .ok (numbers, n)
  | seen, [], _, hseen => lastGroup_pad place seen n (by simpa using hseen)
  | seen, m :: numbers, hlt, hseen => by
      have hm : m < 64 := hlt m List.mem_cons_self
      have ih := hc.lastGroup_symbols place n (seen + 1) numbers
        (fun k hk => hlt k (List.mem_cons_of_mem m hk))
        (by rw [List.length_cons] at hseen; omega)
      rw [List.map_cons, List.cons_append, lastGroup, if_neg (hc.symbol_ne_pad m hm),
        hc.value_symbol _ hm, ih]
      rfl

theorem fill_eq (c : Code) (n : Nat) :
    c.fill n = List.replicate (if c.padded then n else 0) pad := by
  unfold fill
  split <;> rfl

/-- Four symbols, the padding counted, are a group that is filled up as its code wants. -/
theorem Lawful.lastGroup_filled (hc : c.Lawful) (place : Nat) {numbers : List Nat}
    (hlt : ∀ m ∈ numbers, m < 64) (hlen : 2 ≤ numbers.length) :
    c.lastGroup place 0 (numbers.map c.symbol ++ c.fill (4 - numbers.length)) =
      .ok (numbers, if c.padded then 4 - numbers.length else 0) := by
  rw [fill_eq]
  exact hc.lastGroup_symbols place _ 0 numbers hlt (by omega)

/-! ### A last group by the numbers of its symbols -/

theorem decodeLast_of_two {place a b : Nat} {bs : Bytes}
    (hg : c.lastGroup place 0 bs = .ok ([a, b], if c.padded then 2 else 0))
    (hb : b % 16 = 0) :
    c.decodeLast place bs = .ok [UInt8.ofNat (a * 4 + b / 16)] := by
  rw [decodeLast, hg]
  cases hp : c.padded <;> simp [hb, bind, Except.bind, pure, Except.pure]

theorem decodeLast_of_three {place a b d : Nat} {bs : Bytes}
    (hg : c.lastGroup place 0 bs = .ok ([a, b, d], if c.padded then 1 else 0))
    (hd : d % 4 = 0) :
    c.decodeLast place bs =
      .ok [UInt8.ofNat (a * 4 + b / 16), UInt8.ofNat (b % 16 * 16 + d / 4)] := by
  rw [decodeLast, hg]
  cases hp : c.padded <;> simp [hd, bind, Except.bind, pure, Except.pure]

theorem decodeLast_of_four {place a b d e : Nat} {bs : Bytes}
    (hg : c.lastGroup place 0 bs = .ok ([a, b, d, e], 0)) :
    c.decodeLast place bs =
      .ok [UInt8.ofNat (a * 4 + b / 16), UInt8.ofNat (b % 16 * 16 + d / 4),
        UInt8.ofNat (d % 4 * 64 + e)] := by
  rw [decodeLast, hg]
  cases hp : c.padded <;> simp [bind, Except.bind, pure, Except.pure]

/-! ### Octets from the numbers that stand for them -/

theorem first_octet (x : UInt8) {n : Nat} (hn : n < 16) :
    UInt8.ofNat (x.toNat / 4 * 4 + (x.toNat % 4 * 16 + n) / 16) = x := by
  rw [show x.toNat / 4 * 4 + (x.toNat % 4 * 16 + n) / 16 = x.toNat by omega,
    UInt8.ofNat_toNat]

theorem second_octet (y : UInt8) (m : Nat) {n : Nat} (hn : n < 4) :
    UInt8.ofNat ((m * 16 + y.toNat / 16) % 16 * 16 + (y.toNat % 16 * 4 + n) / 4) = y := by
  have hy := y.toNat_lt
  rw [show (m * 16 + y.toNat / 16) % 16 * 16 + (y.toNat % 16 * 4 + n) / 4 = y.toNat by omega,
    UInt8.ofNat_toNat]

theorem third_octet (z : UInt8) (m : Nat) :
    UInt8.ofNat ((m * 4 + z.toNat / 64) % 4 * 64 + z.toNat % 64) = z := by
  have hz := z.toNat_lt
  rw [show (m * 4 + z.toNat / 64) % 4 * 64 + z.toNat % 64 = z.toNat by omega,
    UInt8.ofNat_toNat]

theorem Lawful.decodeLast_encode_one (hc : c.Lawful) (place : Nat) (x : UInt8) :
    c.decodeLast place (c.encode [x]) = .ok [x] := by
  have hx := x.toNat_lt
  have hlt : ∀ m ∈ [x.toNat / 4, x.toNat % 4 * 16 + 0], m < 64 := by
    simp
    omega
  have hg := hc.lastGroup_filled place hlt (by simp)
  have hlast := decodeLast_of_two hg (by omega)
  rwa [first_octet x (by omega)] at hlast

theorem Lawful.decodeLast_encode_two (hc : c.Lawful) (place : Nat) (x y : UInt8) :
    c.decodeLast place (c.encode [x, y]) = .ok [x, y] := by
  have hx := x.toNat_lt
  have hy := y.toNat_lt
  have hlt : ∀ m ∈ [x.toNat / 4, x.toNat % 4 * 16 + y.toNat / 16, y.toNat % 16 * 4 + 0],
      m < 64 := by
    simp
    omega
  have hg := hc.lastGroup_filled place hlt (by simp)
  have hlast := decodeLast_of_three hg (by omega)
  rwa [first_octet x (by omega), second_octet y _ (by omega)] at hlast

theorem group_lt (x y z : UInt8) :
    ∀ m ∈ [x.toNat / 4, x.toNat % 4 * 16 + y.toNat / 16, y.toNat % 16 * 4 + z.toNat / 64,
      z.toNat % 64], m < 64 := by
  have hx := x.toNat_lt
  have hy := y.toNat_lt
  have hz := z.toNat_lt
  simp
  omega

theorem Lawful.decodeLast_encode_three (hc : c.Lawful) (place : Nat) (x y z : UInt8) :
    c.decodeLast place (c.encode [x, y, z]) = .ok [x, y, z] := by
  have hy := y.toNat_lt
  have hz := z.toNat_lt
  have hg := hc.lastGroup_symbols place 0 0 _ (group_lt x y z) (Or.inl rfl)
  have hlast := decodeLast_of_four hg
  rwa [first_octet x (by omega), second_octet y _ (by omega), third_octet z] at hlast

theorem encode_eq_nil_iff {bs : Bytes} : c.encode bs = [] ↔ bs = [] := by
  fun_cases encode c bs <;> simp

/-- A group in front of further symbols is read on its own. -/
theorem Lawful.decodeFrom_group (hc : c.Lawful) (place : Nat) (x y z : UInt8) {rest : Bytes}
    (hrest : rest ≠ []) :
    c.decodeFrom place (c.encode (x :: y :: z :: rest)) =
      (c.decodeFrom (place + 4) (c.encode rest)).map fun others => x :: y :: z :: others := by
  have hy := y.toNat_lt
  have hz := z.toNat_lt
  have hlt := group_lt x y z
  simp only [List.forall_mem_cons] at hlt
  obtain ⟨h1, h2, h3, h4, -⟩ := hlt
  obtain ⟨v, others, hv⟩ := List.exists_cons_of_ne_nil (mt encode_eq_nil_iff.mp hrest)
  rw [encode, hv, decodeFrom, hc.value_symbol _ h1, hc.value_symbol _ h2,
    hc.value_symbol _ h3, hc.value_symbol _ h4]
  simp only [bind, Except.bind, pure, Except.pure]
  rw [first_octet x (by omega), second_octet y _ (by omega), third_octet z]
  cases c.decodeFrom (place + 4) (v :: others) <;> rfl

/-- Group by group, the symbols for octets are read back. -/
theorem Lawful.decodeFrom_encode (hc : c.Lawful) (place : Nat) {bs : Bytes} (hbs : bs ≠ []) :
    c.decodeFrom place (c.encode bs) = .ok bs := by
  induction bs using Code.encode.induct generalizing place with
  | case1 => exact absurd rfl hbs
  | case2 x =>
      rw [← hc.decodeLast_encode_one place x]
      cases hp : c.padded <;> simp [encode, fill, hp, decodeFrom]
  | case3 x y =>
      rw [← hc.decodeLast_encode_two place x y]
      cases hp : c.padded <;> simp [encode, fill, hp, decodeFrom]
  | case4 x y z rest ih =>
      by_cases hrest : rest = []
      · subst hrest
        exact hc.decodeLast_encode_three place x y z
      · rw [hc.decodeFrom_group place x y z hrest, ih (place + 4) hrest]
        rfl

theorem mem_encode {bs : Bytes} {b : UInt8} (hb : b ∈ c.encode bs) :
    b = pad ∧ c.padded ∨ ∃ n < 64, b = c.symbol n := by
  have hfill : ∀ n, b ∈ c.fill n → b = pad ∧ c.padded := by
    intro n hmem
    rw [fill_eq, List.mem_replicate] at hmem
    refine ⟨hmem.2, ?_⟩
    by_contra hp
    exact hmem.1 (if_neg hp)
  induction bs using Code.encode.induct with
  | case1 => cases hb
  | case2 x =>
      have hx := x.toNat_lt
      simp only [encode, List.cons_append, List.nil_append, List.mem_cons] at hb
      obtain rfl | rfl | hb := hb
      · exact Or.inr ⟨_, by omega, rfl⟩
      · exact Or.inr ⟨_, by omega, rfl⟩
      · exact Or.inl (hfill 2 hb)
  | case3 x y =>
      have hx := x.toNat_lt
      have hy := y.toNat_lt
      simp only [encode, List.cons_append, List.nil_append, List.mem_cons] at hb
      obtain rfl | rfl | rfl | hb := hb
      · exact Or.inr ⟨_, by omega, rfl⟩
      · exact Or.inr ⟨_, by omega, rfl⟩
      · exact Or.inr ⟨_, by omega, rfl⟩
      · exact Or.inl (hfill 1 hb)
  | case4 x y z rest ih =>
      simp only [encode, List.mem_cons] at hb
      have hlt := group_lt x y z
      simp only [List.forall_mem_cons] at hlt
      obtain rfl | rfl | rfl | rfl | hb := hb
      · exact Or.inr ⟨_, hlt.1, rfl⟩
      · exact Or.inr ⟨_, hlt.2.1, rfl⟩
      · exact Or.inr ⟨_, hlt.2.2.1, rfl⟩
      · exact Or.inr ⟨_, hlt.2.2.2.1, rfl⟩
      · exact ih hb

theorem Lawful.decode_encode (hc : c.Lawful) (bs : Bytes) :
    c.decode (c.encode bs) = .ok bs := by
  rw [decode]
  split
  · rename_i b hb
    have hne : bs ≠ [] := by
      rintro rfl
      cases hb
    -- A last octet that is neither a symbol nor padding is refused before any group is read.
    rw [if_neg, hc.decodeFrom_encode 0 hne]
    rintro ⟨-, hpad, hnone⟩
    obtain ⟨rfl, -⟩ | ⟨n, hn, rfl⟩ := mem_encode (List.mem_of_getLast? hb)
    · exact hpad rfl
    · rw [hc.value?_symbol n hn] at hnone
      cases hnone
  · rename_i h
    rw [List.getLast?_eq_none_iff, encode_eq_nil_iff] at h
    rw [h]

/-! ### Symbols as characters -/

theorem toNat_ofNat_octet (b : UInt8) : (Char.ofNat b.toNat).toNat = b.toNat := by
  have hlt := b.toNat_lt
  have hvalid : b.toNat.isValidChar := Or.inl (by omega)
  rw [Char.ofNat, dif_pos hvalid]
  rfl

/-- The characters for octets are the symbols for them. -/
theorem Lawful.octets_encodeChars (hc : c.Lawful) (bs : Bytes) :
    (c.encodeChars bs).flatMap String.utf8EncodeChar = c.encode bs := by
  have hascii : ∀ d ∈ c.encodeChars bs, d.toNat < 0x80 := by
    intro d hd
    obtain ⟨b, hb, rfl⟩ := List.mem_map.mp hd
    rw [toNat_ofNat_octet]
    obtain ⟨rfl, -⟩ | ⟨n, hn, rfl⟩ := mem_encode hb
    · decide
    · exact UInt8.lt_iff_toNat_lt.mp (hc.symbol_lt n hn)
  rw [Utf8.flatMap_ascii hascii, encodeChars, List.map_map]
  simp [Function.comp_def, toNat_ofNat_octet]

/-- The octets of the text for them are read back. -/
theorem Lawful.decode_encodeText (hc : c.Lawful) (bs : Bytes) :
    c.decode (Utf8.encode (c.encodeText bs)) = .ok bs := by
  rw [encodeText, Utf8.encode_ofList, hc.octets_encodeChars, hc.decode_encode]

end Code

/-- What is written without padding are symbols. -/
theorem exists_symbol_of_mem_encodeChars {bs : Bytes} {d : Char} (hd : d ∈ url.encodeChars bs) :
    ∃ n < 64, d = Char.ofNat (url.symbol n).toNat := by
  obtain ⟨b, hb, rfl⟩ := List.mem_map.mp hd
  obtain ⟨-, hpadded⟩ | ⟨n, hn, rfl⟩ := Code.mem_encode hb
  · cases hpadded
  · exact ⟨n, hn, rfl⟩

/-- No written part has a dot. -/
theorem dot_not_mem_encodeChars (bs : Bytes) : '.' ∉ url.encodeChars bs := by
  have hdot : ∀ n < 64, '.' ≠ Char.ofNat (url.symbol n).toNat := by decide
  intro hmem
  obtain ⟨n, hn, hchar⟩ := exists_symbol_of_mem_encodeChars hmem
  exact hdot n hn hchar

end TokenAuthority.Base64
