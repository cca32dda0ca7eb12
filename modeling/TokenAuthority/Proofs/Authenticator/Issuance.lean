import TokenAuthority.Proofs.Authenticator.Usable

/-!
# What keeps a token from being issued

A fresh key signs. So of the keys that a ring ever holds only one that was loaded may not. Then
four things stand in the way of a token: there is no key and a fresh one cannot be kept, the
principal is empty, the current key is a loaded one that does not sign, or the instant at which
the token would expire does not exist.
-/

namespace TokenAuthority

/-! ### Fresh keys sign -/

theorem Bytes.lt_width {w n : Nat} (h : 256 ^ w ≤ n) : w < width n := by
  induction w generalizing n with
  | zero =>
      rw [width, if_neg (by omega)]
      exact Nat.succ_pos _
  | succ w ih =>
      have hpos : 0 < 256 ^ (w + 1) := Nat.pow_pos (by decide)
      have hquotient : 256 ^ w ≤ n / 256 := by
        rwa [Nat.le_div_iff_mul_le (by decide), ← Nat.pow_succ]
      rw [width, if_neg (by omega)]
      exact Nat.succ_lt_succ (ih hquotient)

theorem Modular.lt_bits {w n : Nat} (h : 2 ^ w ≤ n) : w < bits n := by
  have hpos : 0 < 2 ^ w := Nat.two_pow_pos w
  have hn : n ≠ 0 := by omega
  rw [bits, if_neg hn, Nat.lt_succ_iff, Nat.le_log2 hn]
  exact h

theorem Modular.bits_le_bits {m n : Nat} (h : m ≤ n) : bits m ≤ bits n := by
  by_cases hm : m = 0
  · simp [bits, hm]
  · have hn : n ≠ 0 := by omega
    rw [bits, bits, if_neg hm, if_neg hn, Nat.succ_le_succ_iff, Nat.le_log2 hn]
    exact ((Nat.le_log2 hm).mp (Nat.le_refl _)).trans h

theorem Modular.inverse_lt {m : Nat} (hm : 0 < m) (a : Nat) : inverse m a < m := by
  rw [inverse, Int.toNat_lt_of_ne_zero (Nat.ne_of_gt hm)]
  exact Int.emod_lt_of_pos _ (Int.natCast_pos.mpr hm)

theorem Prime.search_mod_two {n : Nat} (h : n % 2 = 1) (fuel : Nat) : search fuel n % 2 = 1 := by
  induction fuel generalizing n with
  | zero => exact h
  | succ fuel ih =>
      rw [search]
      split_ifs
      · exact h
      · exact ih (by omega)

theorem Prime.le_search (fuel n : Nat) : n ≤ search fuel n := by
  induction fuel generalizing n with
  | zero => exact Nat.le_refl n
  | succ fuel ih =>
      rw [search]
      split_ifs
      · exact Nat.le_refl n
      · exact Nat.le_trans (Nat.le_add_right n 2) (ih (n + 2))

namespace Rsa

theorem le_makePrime (seed label : Bytes) : 3 <<< 1022 ≤ makePrime seed label := by
  have hfirst := Prime.le_search patience
    (3 <<< 1022 + expandBelow seed label (1 <<< 1021) / 2 * 2 + 1)
  unfold makePrime
  generalize expandBelow seed label (1 <<< 1021) / 2 * 2 = n at hfirst ⊢
  generalize 3 <<< 1022 = high at hfirst ⊢
  dsimp only
  split_ifs
  · have hnext := Prime.le_search patience (Prime.search patience (high + n + 1) + 2)
    omega
  · omega

theorem makePrime_mod_two (seed label : Bytes) : makePrime seed label % 2 = 1 := by
  have hstart : (3 <<< 1022 + expandBelow seed label (1 <<< 1021) / 2 * 2 + 1) % 2 = 1 := by
    have hhigh : 3 <<< 1022 % 2 = 0 := by decide +kernel
    generalize 3 <<< 1022 = high at hhigh ⊢
    omega
  have hfirst := Prime.search_mod_two hstart patience
  unfold makePrime
  generalize 3 <<< 1022 + expandBelow seed label (1 <<< 1021) / 2 * 2 + 1 = start at hfirst ⊢
  dsimp only
  split_ifs
  · exact Prime.search_mod_two ((Nat.add_mod_right _ 2).trans hfirst) patience
  · exact hfirst

theorem words_le_words {m n : Nat} (h : m ≤ n) : words m ≤ words n := by
  have hbits := Modular.bits_le_bits h
  rw [words, words]
  omega

/-- The private operation of a fresh key can be done. -/
theorem isWorkable_generate (seed : Bytes) : (generate seed).isWorkable := by
  have hfirst := makePrime_mod_two seed [1]
  have hsecond := makePrime_mod_two seed [2]
  rw [generate]
  generalize makePrime seed [1] = p at hfirst ⊢
  generalize makePrime seed [2] = q at hsecond ⊢
  have hmodulus : p * q % 2 = 1 := by
    rw [Nat.mul_mod, hfirst, hsecond]
  have hcoefficient := words_le_words (Nat.le_of_lt (Modular.inverse_lt (m := p) (by omega) q))
  simp only [PrivateKey.isWorkable, hfirst, hsecond, hmodulus, hcoefficient, beq_self_eq_true,
    decide_true, Bool.or_true, Bool.and_self]

/-- Two primes of 1024 binary digits, the two highest of them set, have a product of 2048. -/
theorem le_modulus_generate (seed : Bytes) : 2 ^ 2047 ≤ (generate seed).toPublic.modulus :=
  calc 2 ^ 2047 ≤ 3 <<< 1022 * 3 <<< 1022 := by decide +kernel
    _ ≤ makePrime seed [1] * makePrime seed [2] :=
      Nat.mul_le_mul (le_makePrime seed [1]) (le_makePrime seed [2])

theorem hasRoom_generate (seed : Bytes) (d : Digest) (f : Filling) :
    (generate seed).toPublic.HasRoom d f := by
  have hmodulus := le_modulus_generate seed
  generalize (generate seed).toPublic = k at hmodulus ⊢
  have hd : d.size ≤ 64 := by
    cases d <;> decide
  cases f with
  | fixed =>
      have hsize : 255 < k.size := by
        have hpow : 256 ^ 255 ≤ 2 ^ 2047 := by decide +kernel
        exact Bytes.lt_width (hpow.trans hmodulus)
      change d.size + 30 ≤ k.size
      omega
  | salted =>
      have hbits : 2047 < k.bits := Modular.lt_bits hmodulus
      change 2 * d.size + 2 ≤ (k.bits - 1 + 7) / 8
      omega

end Rsa

/-- Fresh material signs with the algorithm that it was made for. -/
theorem KeyMaterial.signs_generate (a : Algorithm) (seed : Bytes) : (generate a seed).Signs a := by
  unfold generate
  split
  · exact True.intro
  · exact True.intro
  · exact ⟨rfl, Rsa.isWorkable_generate seed, Rsa.hasRoom_generate seed _ _⟩

/-! ### Every key but a loaded one signs -/

namespace KeyRing

/-- All keys of a ring sign, but for one that was loaded. -/
def SignsBut (r : KeyRing) (loaded : Except AuthError (Option SigningKey)) : Prop :=
  ∀ k ∈ r.keys, k.material.Signs k.algorithm ∨ loaded = .ok (some k)

section

variable {σ : Type} {s : Surroundings (StateM σ)} {store : KeyStore (StateM σ)}
  {r r' : KeyRing} {w w₁ : σ} {loaded : Except AuthError (Option SigningKey)}

theorem signs_of_freshKey {a : Algorithm} {k : SigningKey}
    (h : (freshKey s a).run w = (.ok k, w₁)) : k.material.Signs k.algorithm := by
  rw [run_freshKey, Prod.mk.injEq, mapError_eq_ok_iff] at h
  obtain ⟨-, ha, -, hmaterial⟩ := SigningKey.parts_of_ofParts h.1
  rw [ha, hmaterial]
  exact KeyMaterial.signs_generate a _

theorem SignsBut.install (h : r.SignsBut loaded) {k : SigningKey}
    (hk : k.material.Signs k.algorithm ∨ loaded = .ok (some k)) : (r.install k).SignsBut loaded :=
  forall_mem_install h hk

theorem SignsBut.step (h : r.SignsBut loaded) {op : Operation} (hop : ∀ k, op ≠ .push k)
    {answer : Except AuthError Answer} (hstep : Step s store r w op answer r' w₁) :
    r'.SignsBut loaded := by
  cases hstep with
  | @kept _ k _ _ offer _ =>
      cases offer with
      | given _ => exact absurd rfl (hop k)
      | fresh made => exact h.install (Or.inl (signs_of_freshKey made))
      | first _ made => exact h.install (Or.inl (signs_of_freshKey made))
  | cleared _ => exact List.forall_mem_nil _
  | _ => exact h

theorem SignsBut.of_seeding {a : Algorithm} {n : Nat} (h : Seeding s store a n w (.ok r) w₁) :
    r.SignsBut ((store.load a).run w).1 := by
  cases h with
  | @loaded blank k _ hblank found =>
      have hnone : blank.SignsBut ((store.load a).run w).1 := by
        simp [SignsBut, (of_empty_eq_ok hblank).2.2]
      exact hnone.install (Or.inr (congrArg Prod.fst found))
  | @rotated blank _ _ _ _ hblank _ step =>
      have hnone : blank.SignsBut ((store.load a).run w).1 := by
        simp [SignsBut, (of_empty_eq_ok hblank).2.2]
      exact hnone.step (by simp) step

end

end KeyRing

/-! ### Four obstacles -/

namespace IssuedToken

variable {k : SigningKey} {principal : String} {now : Instant} {lifetime : Duration}

theorem issue_of_empty (k : SigningKey) (now : Instant) (lifetime : Duration) :
    issue k "" now lifetime = .error (.invalidRequest .emptyPrincipal) := rfl

theorem issue_of_no_expiry (hsigns : k.material.Signs k.algorithm) (hprincipal : principal ≠ "")
    (hexpiry : Instant.ofSeconds? (now.seconds + lifetime.secondsUp) = none) :
    issue k principal now lifetime =
      .error (.conversion (.timestampOutOfRange (now.seconds + lifetime.secondsUp))) := by
  have hcreated : instant (claims principal now lifetime).issuedAt = .ok _ :=
    instant_eq_ok_iff.mpr now.ofSeconds?_seconds
  have hbefore : instant (claims principal now lifetime).expiresAt =
      .error (.conversion (.timestampOutOfRange (now.seconds + lifetime.secondsUp))) := by
    change instant (now.seconds + lifetime.secondsUp) = _
    rw [instant, hexpiry]
  obtain ⟨signature, hsign⟩ := (KeyMaterial.sign_of_suits k.suits
    (Token.signedForm (Base64.url.encodeChars (header k).write)
      (Base64.url.encodeChars (claims principal now lifetime).write))).1 hsigns
  rw [issue_of_ne hprincipal]
  refine bind_eq_error_iff.mpr (Or.inr ⟨signature, mapError_eq_ok_iff.mpr hsign, ?_⟩)
  refine bind_eq_error_iff.mpr (Or.inr ⟨_, hcreated, ?_⟩)
  exact bind_eq_error_iff.mpr (Or.inl hbefore)

/-- With a key that signs, no token is issued exactly if the principal is empty or the instant of
expiry does not exist. -/
theorem issue_eq_error_iff_of_signs (hsigns : k.material.Signs k.algorithm) {e : AuthError} :
    issue k principal now lifetime = .error e ↔
      principal = "" ∧ .invalidRequest .emptyPrincipal = e ∨
      principal ≠ "" ∧ Instant.ofSeconds? (now.seconds + lifetime.secondsUp) = none ∧
        .conversion (.timestampOutOfRange (now.seconds + lifetime.secondsUp)) = e := by
  by_cases hprincipal : principal = ""
  · subst hprincipal
    simp [issue_of_empty]
  · cases hexpiry : Instant.ofSeconds? (now.seconds + lifetime.secondsUp) with
    | none => simp [issue_of_no_expiry hsigns hprincipal hexpiry, hprincipal]
    | some expiry =>
        obtain ⟨token, htoken⟩ := exists_issue_of_signs hsigns hprincipal hexpiry
        simp [htoken, hprincipal]

/-- No token is issued exactly if the principal is empty, or else the key does not sign, or else
the instant of expiry does not exist. -/
theorem issue_eq_error_iff {e : AuthError} :
    issue k principal now lifetime = .error e ↔
      principal = "" ∧ .invalidRequest .emptyPrincipal = e ∨
      principal ≠ "" ∧ ¬k.material.Signs k.algorithm ∧ .cryptographic .signingFailed = e ∨
      principal ≠ "" ∧ k.material.Signs k.algorithm ∧
        Instant.ofSeconds? (now.seconds + lifetime.secondsUp) = none ∧
        .conversion (.timestampOutOfRange (now.seconds + lifetime.secondsUp)) = e := by
  by_cases hsigns : k.material.Signs k.algorithm
  · simp [issue_eq_error_iff_of_signs hsigns, hsigns]
  · by_cases hprincipal : principal = ""
    · subst hprincipal
      simp [issue_of_empty]
    · simp [issue_of_not_signs hsigns hprincipal, hprincipal, hsigns]

end IssuedToken

namespace TokenAuthenticator

section

variable {σ : Type} (s : Surroundings (StateM σ)) (store : KeyStore (StateM σ))

/-- What stands in the way of a token for a principal. -/
inductive Obstacle (t : TokenAuthenticator) (principal : String) (w : σ) : AuthError → Prop
  | unkept {k : SigningKey} {e : AuthError} {w₁ w₂ : σ} (none : t.ring.keys = [])
    (made : (KeyRing.freshKey s t.ring.algorithm).run w = (.ok k, w₁))
    (refused : (store.activate k).run w₁ = (.error e, w₂)) : Obstacle t principal w e
  | noPrincipal {k : SigningKey} {r : KeyRing} {w₁ : σ}
    (current : (t.ring.current s store).run w = ((.ok k, r), w₁)) (empty : principal = "") :
    Obstacle t principal w (.invalidRequest .emptyPrincipal)
  | unsigned {k : SigningKey} {r : KeyRing} {w₁ : σ}
    (current : (t.ring.current s store).run w = ((.ok k, r), w₁)) (nonempty : principal ≠ "")
    (signless : ¬k.material.Signs k.algorithm) :
    Obstacle t principal w (.cryptographic .signingFailed)
  | noExpiry {k : SigningKey} {r : KeyRing} {w₁ : σ} {n : Int}
    (current : (t.ring.current s store).run w = ((.ok k, r), w₁)) (nonempty : principal ≠ "")
    (signs : k.material.Signs k.algorithm)
    (sum : n = (s.now.run w₁).1.seconds + t.lifetime.secondsUp)
    (outside : n < firstSecond ∨ lastSecond < n) :
    Obstacle t principal w (.conversion (.timestampOutOfRange n))

variable {s store} {t : TokenAuthenticator} {principal : String} {w w₁ : σ} {e : AuthError}

/-- There is no current key exactly if there was none and a fresh one is not kept. -/
theorem current_eq_error_iff {r : KeyRing} :
    (∃ r' w', (r.current s store).run w = ((.error e, r'), w')) ↔
      r.keys = [] ∧ ∃ k w₁ w₂, (KeyRing.freshKey s r.algorithm).run w = (.ok k, w₁) ∧
        (store.activate k).run w₁ = (.error e, w₂) := by
  constructor
  · rintro ⟨r', w', h⟩
    have hstep := KeyRing.step_current s store r w
    rw [h] at hstep
    cases hstep with
    | refused offer failed =>
        cases offer with
        | first none made => exact ⟨none, _, _, _, made, failed⟩
  · rintro ⟨none, k, w₁, w₂, made, refused⟩
    have hcurrent : r.current s store = r.rotate s store := by rw [KeyRing.current, none]
    refine ⟨r, w₂, ?_⟩
    rw [hcurrent, KeyRing.run_rotate, made]
    dsimp only
    rw [KeyRing.run_adopt, refused]

/-- The current key signs, if it is not one that was loaded. -/
theorem signs_of_current {r r' : KeyRing} {loaded : Except AuthError (Option SigningKey)}
    (h : r.SignsBut loaded) {k : SigningKey}
    (hcurrent : (r.current s store).run w = ((.ok k, r'), w₁)) :
    k.material.Signs k.algorithm ∨ loaded = .ok (some k) := by
  have hstep := KeyRing.step_current s store r w
  rw [hcurrent] at hstep
  cases hstep with
  | newest keys => exact h k (keys ▸ List.mem_cons_self)
  | kept offer _ =>
      cases offer with
      | first _ made => exact Or.inl (KeyRing.signs_of_freshKey made)

/-- A token is refused exactly if something stands in its way. -/
theorem issue_eq_error_iff_exists_obstacle :
    ((t.issue s store principal).run w).1.1 = .error e ↔ Obstacle s store t principal w e := by
  rw [run_issue]
  cases hcurrent : (t.ring.current s store).run w with
  | mk outcome w₁ =>
    obtain ⟨e' | k, r⟩ := outcome
    · constructor
      · rintro ⟨⟩
        obtain ⟨none, _, _, _, made, refused⟩ := current_eq_error_iff.mp ⟨r, w₁, hcurrent⟩
        exact .unkept none made refused
      · intro hobstacle
        cases hobstacle with
        | unkept none made refused =>
            obtain ⟨_, _, hcurrent'⟩ := current_eq_error_iff.mpr ⟨none, _, _, _, made, refused⟩
            cases hcurrent.symm.trans hcurrent'
            rfl
        | noPrincipal current _ => cases hcurrent.symm.trans current
        | unsigned current _ _ => cases hcurrent.symm.trans current
        | noExpiry current _ _ _ _ => cases hcurrent.symm.trans current
    · change IssuedToken.issue k principal (s.now.run w₁).1 t.lifetime = .error e ↔ _
      rw [IssuedToken.issue_eq_error_iff]
      constructor
      · rintro (⟨hprincipal, rfl⟩ | ⟨hprincipal, hsigns, rfl⟩ | ⟨hprincipal, hsigns, hexpiry, rfl⟩)
        · exact .noPrincipal hcurrent hprincipal
        · exact .unsigned hcurrent hprincipal hsigns
        · exact .noExpiry hcurrent hprincipal hsigns rfl
            ((Instant.ofSeconds?_eq_none_iff _).mp hexpiry)
      · intro hobstacle
        cases hobstacle with
        | unkept none made refused =>
            obtain ⟨_, _, hcurrent'⟩ := current_eq_error_iff.mpr ⟨none, _, _, _, made, refused⟩
            cases hcurrent.symm.trans hcurrent'
        | noPrincipal current empty => exact Or.inl ⟨empty, rfl⟩
        | unsigned current nonempty signless =>
            cases hcurrent.symm.trans current
            exact Or.inr (Or.inl ⟨nonempty, signless, rfl⟩)
        | noExpiry current nonempty signs sum outside =>
            cases hcurrent.symm.trans current
            subst sum
            exact Or.inr (Or.inr ⟨nonempty, signs,
              (Instant.ofSeconds?_eq_none_iff _).mpr outside, rfl⟩)

theorem exists_start_inMemory {c : CheckedSettings} (hcapacity : 0 < c.capacity) (w : σ) :
    ∃ r k, (start s .inMemory c).run w =
        (.ok ⟨r, c.lifetime.cut⟩, ((s.draw SigningKey.randomSize).run (s.now.run w).2).2) ∧
      r.keys = [k] ∧ k.material.Signs k.algorithm := by
  cases hfresh : (KeyRing.freshKey s c.algorithm).run w with
  | mk answer w₁ =>
    cases answer with
    | error e => exact absurd hfresh (KeyRing.freshKey_ne_error c.algorithm e)
    | ok k =>
      have hworld := congrArg Prod.snd (KeyRing.run_freshKey (s := s) (w := w) c.algorithm)
      rw [hfresh] at hworld
      obtain ⟨blank, hblank⟩ : ∃ r, KeyRing.empty c.algorithm c.capacity = .ok r :=
        ⟨_, KeyRing.empty_of_pos c.algorithm hcapacity⟩
      have hkeys := KeyRing.keys_install_of_nil (KeyRing.of_empty_eq_ok hblank).2.2 k
      refine ⟨blank.install k, k, ?_, hkeys, KeyRing.signs_of_freshKey hfresh⟩
      rw [← hworld]
      exact start_of_seeded (KeyRing.run_seeded_eq_ok hblank rfl hfresh rfl)

end

/-- Settings with a lifetime that ends behind the last second there is. -/
def endless : CheckedSettings :=
  ⟨⟨.hmac, .sha256⟩, .memory, 5, ⟨9000000000000000000000, by decide, by decide⟩⟩

theorem current_of_keys {σ : Type} {s : Surroundings (StateM σ)} {store : KeyStore (StateM σ)}
    {r : KeyRing} {k : SigningKey} (h : r.keys = [k]) (w : σ) :
    (r.current s store).run w = ((.ok k, r), w) := by
  rw [KeyRing.current, h]
  rfl

end TokenAuthenticator

end TokenAuthority
