import TokenAuthority.Text.Utf8

/-!
# Texts and their octets

Every text is read back from its octets. A character below 0x80 is one octet with its
number, and all octets of any other character are at least 0x80, so that an octet below
0x80 never lies inside a character.
-/

namespace TokenAuthority.Utf8

theorem mk_encode (s : String) :
    ByteArray.mk (encode s).toArray = s.toByteArray := by
  rw [← String.utf8Encode_toList, List.utf8Encode, encode]
  apply ByteArray.ext
  apply Array.toList_inj.mp
  rw [List.toList_data_toByteArray]

/-- Every text is read back from its octets. -/
@[simp] theorem decode?_encode (s : String) : decode? (encode s) = some s := by
  rw [decode?, mk_encode, String.fromUTF8?, dif_pos s.isValidUTF8]
  rfl

/-- No two texts have the same octets. -/
theorem encode_inj {s t : String} : encode s = encode t ↔ s = t := by
  constructor
  · intro h
    have hdecode := congrArg decode? h
    rwa [decode?_encode, decode?_encode, Option.some.injEq] at hdecode
  · intro h
    rw [h]

/-- A character below 0x80 is one octet. -/
theorem encodeChar_ascii {c : Char} (h : c.toNat < 0x80) :
    String.utf8EncodeChar c = [UInt8.ofNat c.toNat] := by
  have hle : c.val.toNat ≤ 0x7f := by
    change c.toNat ≤ 0x7f
    omega
  unfold String.utf8EncodeChar
  simp only
  rw [if_pos hle]
  rfl

theorem flatMap_ascii {cs : List Char} (h : ∀ c ∈ cs, c.toNat < 0x80) :
    cs.flatMap String.utf8EncodeChar = cs.map fun c => UInt8.ofNat c.toNat := by
  induction cs with
  | nil => rfl
  | cons c cs ih =>
      rw [List.flatMap_cons, encodeChar_ascii (h c List.mem_cons_self),
        ih fun d hd => h d (List.mem_cons_of_mem c hd)]
      rfl

/-- The octets of any other character are at least 0x80. -/
theorem le_of_mem_encodeChar {c : Char} (h : 0x80 ≤ c.toNat) {b : UInt8}
    (hb : b ∈ String.utf8EncodeChar c) : 0x80 ≤ b := by
  have hlt : ¬c.val.toNat ≤ 0x7f := by
    change ¬c.toNat ≤ 0x7f
    omega
  unfold String.utf8EncodeChar at hb
  simp only at hb
  rw [if_neg hlt] at hb
  rw [UInt8.le_iff_toNat_le]
  split at hb
  · simp at hb
    rcases hb with rfl | rfl <;> simp <;> omega
  · split at hb
    · simp at hb
      rcases hb with rfl | rfl | rfl <;> simp <;> omega
    · simp at hb
      rcases hb with rfl | rfl | rfl | rfl <;> simp <;> omega

end TokenAuthority.Utf8
