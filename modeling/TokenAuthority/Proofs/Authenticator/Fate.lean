import TokenAuthority.Proofs.Authenticator.Effect
import TokenAuthority.Proofs.Token.RoundTrip
import TokenAuthority.Proofs.Token.Verification

/-!
# The fate of a token

A token is good as long as its key is in the ring and its second of expiry has not come.
The key enters the ring as the newest. Every renewal puts one more key before it, and
nothing else does until a revocation drops it, because keys are made without a renewal
only for an empty ring. So the key leaves the ring with a revocation, or with the renewal
that fills the ring with newer keys, and never comes back.
-/

namespace TokenAuthority

theorem Instant.seconds_of_ofSeconds? {n : Int} {t : Instant} (h : ofSeconds? n = some t) :
    t.seconds = n := by
  rw [ofSeconds?, of?] at h
  split at h
  · cases h
    rfl
  · cases h

namespace TokenAuthenticator

/-! ### The fate of a key -/

/-- What became of a key after so many renewals and revocations: it is behind as many newer
keys as there were renewals, or it was dropped. -/
inductive Fate (k : SigningKey) (r : KeyRing) (renewals revocations : Nat) : Prop
  | retained (newer older : List SigningKey) (keys : r.keys = newer ++ k :: older)
    (others : ∀ k' ∈ newer, k'.id ≠ k.id) (behind : newer.length = renewals)
    (none : revocations = 0) : Fate k r renewals revocations
  | dropped (gone : 0 < revocations ∨ r.capacity ≤ renewals)
    (absent : ∀ k' ∈ r.keys, k'.id ≠ k.id) : Fate k r renewals revocations

section

variable {k : SigningKey} {r r' : KeyRing} {l l' : Ledger} {n v : Nat}

theorem Fate.find? (h : Fate k r n v) :
    r.find? k.id = if 0 < v ∨ r.capacity ≤ n then none else some k := by
  cases h with
  | dropped gone absent =>
      rw [if_pos gone]
      exact KeyRing.find?_eq_none_iff.mpr absent
  | retained newer older keys others behind none =>
      have hlength := r.length_le
      rw [keys, List.length_append, List.length_cons] at hlength
      rw [if_neg (by omega)]
      exact KeyRing.find?_eq_some_iff_newest.mpr ⟨newer, older, keys, rfl, others⟩

/-- A renewal puts a key before the others, and the last of them has to go if there is no
room for it. -/
theorem Fate.install (h : Fate k r n v) {k' : SigningKey} (hk : k'.id ≠ k.id) :
    Fate k (r.install k') (n + 1) v := by
  cases h with
  | dropped gone absent =>
      exact .dropped (gone.imp id Nat.le_succ_of_le) (KeyRing.forall_mem_install absent hk)
  | retained newer older keys others behind none =>
      have hothers : ∀ k'' ∈ k' :: newer, k''.id ≠ k.id :=
        List.forall_mem_cons.mpr ⟨hk, others⟩
      have hlength : (k' :: newer).length = n + 1 := by rw [List.length_cons, behind]
      have hkeys : (r.install k').keys = ((k' :: newer) ++ k :: older).take r.capacity := by
        rw [KeyRing.keys_install, keys, List.cons_append]
      -- The key stays if there is a place behind all the newer ones.
      by_cases hroom : n + 1 < r.capacity
      · obtain ⟨room, hcapacity⟩ : ∃ room, r.capacity = (k' :: newer).length + (room + 1) :=
          ⟨r.capacity - (n + 2), by omega⟩
        refine .retained (k' :: newer) (older.take room) ?_ hothers hlength none
        rw [hkeys, hcapacity, List.take_append, List.take_of_length_le (Nat.le_add_right _ _),
          Nat.add_sub_cancel_left, List.take_succ_cons]
      · have hfull : r.capacity ≤ (k' :: newer).length := by omega
        refine .dropped (Or.inr (Nat.not_lt.mp hroom)) ?_
        intro k'' hmem
        rw [hkeys, List.take_append_of_le_length hfull] at hmem
        exact hothers k'' (List.mem_of_mem_take hmem)

theorem id_ne_of_nodup {k' : SigningKey} (hmem : k ∈ l.activated)
    (made : l'.activated = k' :: l.activated)
    (hdistinct : (l'.activated.map SigningKey.id).Nodup) : k'.id ≠ k.id := by
  rw [made, List.map_cons, List.nodup_cons] at hdistinct
  intro hid
  exact hdistinct.1 (hid ▸ List.mem_map_of_mem hmem)

/-- One response takes a key one step towards its end, and never back. -/
theorem Fate.effect (h : Fate k r n v) {answer : Response} (heffect : Effect r l answer r' l')
    (hmem : k ∈ l.activated) (hdistinct : (l'.activated.map SigningKey.id).Nodup) :
    Fate k r' (n + if answer.isRenewal then 1 else 0)
      (v + if answer.isRevocation then 1 else 0) := by
  cases heffect with
  | quiet renewal revocation _ =>
      rw [renewal, revocation]
      exact h
  | first renewal revocation none _ made =>
      rw [renewal, revocation]
      cases h with
      | retained newer older keys _ _ _ =>
          rw [none] at keys
          simp at keys
      | dropped gone absent =>
          exact .dropped gone (KeyRing.forall_mem_install absent
            (id_ne_of_nodup hmem made hdistinct))
  | renewed _ made => exact h.install (id_ne_of_nodup hmem made hdistinct)
  | revoked _ =>
      refine .dropped (Or.inl (Nat.succ_pos v)) ?_
      intro k' hk
      cases hk

/-- What became of a key, told by the responses of a whole run. -/
theorem Fate.effects {answers : List Response} (h : Fate k r n v)
    (heffects : Effects r l answers r' l') (hmem : k ∈ l.activated)
    (hdistinct : (l'.activated.map SigningKey.id).Nodup) :
    Fate k r' (n + renewals answers) (v + revocations answers) := by
  induction heffects generalizing n v with
  | nil => exact h
  | @cons _ _ _ _ _ _ answer answers first behind ih =>
      have hsuffix := behind.activated_suffix
      have hearlier := hdistinct.sublist (hsuffix.sublist.map SigningKey.id)
      rw [renewals_cons, revocations_cons, ← Nat.add_assoc, ← Nat.add_assoc]
      exact ih (h.effect first hmem hearlier) (first.activated_suffix.mem hmem) hdistinct

end

/-! ### The fate of a token -/

/-- An issued token tells its key and its principal, and its signature is one of the key if
all that the key signs are. -/
theorem exists_signedBy_of_issue {k : SigningKey} (hid : k.id ≠ "") {principal : String}
    {now : Instant} {lifetime : Duration} {token : IssuedToken}
    (h : IssuedToken.issue k principal now lifetime = .ok token)
    (hsigns : ∀ message signature, k.material.sign k.algorithm message = .ok signature →
      k.material.verify k.algorithm message signature = .ok true) :
    ∃ t, Token.parse token.data = .ok t ∧ t.header.keyId = k.id ∧
      t.claims.subject = principal ∧ t.expiry? = some token.validBefore ∧ t.SignedBy k := by
  obtain ⟨signature, hsign, -, hparse⟩ := IssuedToken.exists_parse_of_issue hid h
  obtain ⟨-, -, -, -, hexpiry, -⟩ := IssuedToken.issue_eq_ok_iff.mp h
  have hverify := hsigns _ _ hsign
  generalize Token.signedForm _ _ = signed at hparse hverify
  exact ⟨_, hparse, rfl, rfl, IssuedToken.instant_eq_ok_iff.mp hexpiry, rfl, hverify⟩

/-- What the fate of its key makes of a token with a good signature. -/
theorem Fate.verify {k : SigningKey} {r : KeyRing} {n v : Nat} (h : Fate k r n v)
    {data : String} {t : Token} (hparse : Token.parse data = .ok t)
    (hid : t.header.keyId = k.id) (hsigned : t.SignedBy k) (now : Instant) :
    r.verify data now =
      if 0 < v ∨ r.capacity ≤ n then .error (.unknownKey t.header.keyId)
      else if now.seconds < t.claims.expiresAt then .ok t.claims.subject
      else .error .expired := by
  have hspells := Token.parse_eq_ok_iff.mp hparse
  have hfind := h.find?
  rw [← hid] at hfind
  by_cases hgone : 0 < v ∨ r.capacity ≤ n
  · rw [if_pos hgone] at hfind ⊢
    exact KeyRing.verify_eq_error_iff.mpr
      (Or.inr ⟨t, hspells, Or.inl ⟨KeyRing.find?_eq_none_iff.mp hfind, rfl⟩⟩)
  · rw [if_neg hgone] at hfind ⊢
    have hnewest := KeyRing.find?_eq_some_iff_newest.mp hfind
    by_cases hnow : now.seconds < t.claims.expiresAt
    · rw [if_pos hnow]
      exact KeyRing.verify_eq_ok_iff.mpr ⟨t, k, hspells, hnewest, hsigned, hnow, rfl⟩
    · rw [if_neg hnow]
      exact KeyRing.verify_eq_error_iff.mpr (Or.inr ⟨t, hspells,
        Or.inr ⟨k, hnewest, Or.inr ⟨hsigned, Int.not_lt.mp hnow, rfl⟩⟩⟩)

/-- With a single key in the ring, the tokens of the key are good until they expire, and those
of other keys are unknown. -/
theorem verify_of_keys_eq {r : KeyRing} {k k' : SigningKey} (hkeys : r.keys = [k']) {data : String}
    {T : Token} (hparse : Token.parse data = .ok T) (hid : T.header.keyId = k.id)
    (hsigned : T.SignedBy k) (now : Instant) :
    (k = k' → r.verify data now =
      if now.seconds < T.claims.expiresAt then .ok T.claims.subject else .error .expired) ∧
    (k'.id ≠ k.id → r.verify data now = .error (.unknownKey k.id)) := by
  constructor
  · rintro rfl
    have hfate : Fate k r 0 0 := .retained [] [] hkeys (by simp) rfl rfl
    have hroom := r.capacity_pos
    rw [hfate.verify hparse hid hsigned now, if_neg (by omega)]
  · intro hother
    have hfate : Fate k r 0 1 := .dropped (Or.inl Nat.one_pos) (by simpa [hkeys] using hother)
    rw [hfate.verify hparse hid hsigned now, if_pos (Or.inl Nat.one_pos), hid]

/-- The keys that are activated in a history. -/
def keysOf {σ : Type} (s : Surroundings (StateM σ)) (store : KeyStore (StateM σ))
    (c : CheckedSettings) (before : List Request) (principal : String) (after : List Request)
    (w : σ) : List SigningKey :=
  ((history s.recorded store.recorded c before principal after).run ⟨w, []⟩).2.ledger.activated

/-- An authenticator is made where the store has no key to load, serves any requests, issues a
token, and serves any further requests. The identifiers of the keys are distinct, and what a
key signs is a signature to it. Then the token is unknown as soon as a revocation succeeded
after its issue, or as many renewals as the ring has places. Until then it tells its
principal before its second of expiry, and is expired from that second on. -/
theorem verify_of_history {σ : Type} {s : Surroundings (StateM σ)} {store : KeyStore (StateM σ)}
    {c : CheckedSettings} {before after : List Request} {principal : String} {w w' : σ}
    {token : IssuedToken} {answers : List Response} {t : TokenAuthenticator}
    (hload : ((store.load c.algorithm).run w).1 = .ok none)
    (h : (history s store c before principal after).run w = (.ok (token, answers, t), w'))
    (hdistinct : ((keysOf s store c before principal after w).map SigningKey.id).Nodup)
    (hsigns : ∀ k ∈ keysOf s store c before principal after w, ∀ message signature,
      k.material.sign k.algorithm message = .ok signature →
        k.material.verify k.algorithm message signature = .ok true) :
    ∃ T, Token.parse token.data = .ok T ∧ T.claims.subject = principal ∧
      T.expiry? = some token.validBefore ∧
      ∀ now, t.verify token.data now =
        if 0 < revocations answers ∨ c.capacity ≤ renewals answers then
          .error (.unknownKey T.header.keyId)
        else if now.seconds < T.claims.expiresAt then .ok principal
        else .error .expired := by
  -- The watched history has the same result, and its ledger tells the keys.
  have hwatched := erases_history s store c before principal after ⟨w, []⟩
  rw [h] at hwatched
  rw [keysOf] at hdistinct hsigns
  generalize hrecorded :
    (history s.recorded store.recorded c before principal after).run ⟨w, []⟩ = recorded
    at hwatched hdistinct hsigns
  obtain ⟨result, w₃⟩ := recorded
  obtain rfl : result = .ok (token, answers, t) := (Prod.mk.inj hwatched).1
  obtain ⟨t₀, w₀, earlier, t₁, w₁, t₂, w₂, hstart, hbefore, hissue, hafter⟩ :=
    parts_of_history hrecorded
  obtain ⟨hcapacity, hstocked⟩ := stocked_of_start hload hstart
  have hearlier := effects_run s store before t₀ w₀
  have hissued := effect_issue s store t₁ principal w₁
  have hlater := effects_run s store after t₂ w₂
  rw [hbefore] at hearlier
  rw [hissue] at hissued
  rw [hafter] at hlater
  have hcapacity₂ : t₂.ring.capacity = c.capacity := by
    rw [hissued.capacity_eq, hearlier.capacity_eq, hcapacity]
  have hcapacity₃ : t.ring.capacity = c.capacity := by
    rw [hlater.capacity_eq, hcapacity₂]
  obtain ⟨k, older, now₀, hkeys, htoken⟩ := key_of_issue hissue
  have hk := hissued.stocked (hearlier.stocked hstocked) k (by rw [hkeys]; exact List.mem_cons_self)
  -- The key is the newest when the token is issued; its fate is told by what follows.
  have hfate : Fate k t₂.ring 0 0 :=
    .retained [] older hkeys (by simp) rfl rfl
  have hfinal := hfate.effects hlater hk.1 hdistinct
  obtain ⟨T, hparse, hid, hsubject, hexpiry, hsigned⟩ :=
    exists_signedBy_of_issue hk.2 htoken (hsigns k (hlater.activated_suffix.mem hk.1))
  refine ⟨T, hparse, hsubject, hexpiry, ?_⟩
  intro now
  have hanswer := hfinal.verify hparse hid hsigned now
  rw [hcapacity₃, Nat.zero_add, Nat.zero_add, hsubject] at hanswer
  exact hanswer

/-- Settings for a ring with a single place and tokens that live for a minute. -/
def singleKey : CheckedSettings :=
  ⟨⟨.hmac, .sha256⟩, .memory, 1, ⟨60000000000, by decide, by decide⟩⟩

theorem exists_fresh_still (d : Digest) :
    ∃ (k : SigningKey) (octets : Bytes), k.material = .secret octets ∧
      ∀ l, (KeyRing.freshKey Surroundings.still.recorded ⟨.hmac, d⟩).run ⟨(), l⟩ =
        (.ok k, ⟨(), l⟩) := by
  obtain ⟨k, hk⟩ := SigningKey.exists_generate ⟨.hmac, d⟩ .epoch
    (List.replicate SigningKey.randomSize 0)
  obtain ⟨-, -, -, hmaterial⟩ := SigningKey.parts_of_ofParts hk
  refine ⟨k, _, hmaterial, ?_⟩
  intro l
  have hrun : (KeyRing.freshKey Surroundings.still.recorded ⟨.hmac, d⟩).run ⟨(), l⟩ =
      ((SigningKey.generate ⟨.hmac, d⟩ .epoch (List.replicate SigningKey.randomSize 0)).mapError
        .cryptographic, ⟨(), l⟩) := rfl
  rw [hrun, hk]
  rfl

theorem exists_issue_of_secret {k : SigningKey} {octets : Bytes}
    (hk : k.material = .secret octets) {principal : String} (hprincipal : principal ≠ "")
    {now created validBefore : Instant} {lifetime : Duration}
    (hcreated : IssuedToken.instant now.seconds = .ok created)
    (hbefore : IssuedToken.instant (now.seconds + lifetime.secondsUp) = .ok validBefore) :
    ∃ token, IssuedToken.issue k principal now lifetime = .ok token := by
  have hsign : ∀ message, ∃ signature, k.material.sign k.algorithm message = .ok signature := by
    intro message
    have hsuits := k.suits
    rw [hk] at hsuits ⊢
    exact ⟨_, KeyMaterial.sign_secret hsuits message⟩
  obtain ⟨signature, hsignature⟩ := hsign _
  exact ⟨⟨_, created, validBefore⟩,
    IssuedToken.issue_eq_ok_iff.mpr ⟨hprincipal, signature, hsignature, hcreated, hbefore, rfl⟩⟩

/-- A token whose key is revoked. -/
theorem verify_of_history_revoked :
    ∃ (token : IssuedToken) (answers : List Response) (t : TokenAuthenticator) (T : Token),
      (history Surroundings.still .inMemory singleKey [] "a" [.revoke]).run () =
        (.ok (token, answers, t), ()) ∧
      Token.parse token.data = .ok T ∧
      ∀ now, t.verify token.data now = .error (.unknownKey T.header.keyId) := by
  obtain ⟨k, octets, hmaterial, hfresh⟩ := exists_fresh_still .sha256
  obtain ⟨t, hring, hlifetime, hstart⟩ : ∃ t : TokenAuthenticator, t.ring.keys = [k] ∧
      t.lifetime = singleKey.lifetime ∧
      (start Surroundings.still.recorded KeyStore.inMemory.recorded singleKey).run ⟨(), []⟩ =
        (.ok t, ⟨(), [.activated k, .loaded none]⟩) :=
    ⟨_, rfl, rfl, start_of_seeded (KeyRing.run_seeded_eq_ok rfl rfl (hfresh _) rfl)⟩
  obtain ⟨token, htoken⟩ : ∃ token, IssuedToken.issue k "a" .epoch t.lifetime = .ok token := by
    rw [hlifetime]
    have hbefore : IssuedToken.instant (Instant.epoch.seconds + singleKey.lifetime.secondsUp) =
        .ok ⟨60, 0, by decide, by decide, by decide⟩ := rfl
    exact exists_issue_of_secret hmaterial (by decide) rfl hbefore
  have hissue : (t.issue Surroundings.still.recorded KeyStore.inMemory.recorded "a").run
      ⟨(), [.activated k, .loaded none]⟩ =
        ((.ok token, t), ⟨(), [.activated k, .loaded none]⟩) := issue_of_newest hring htoken
  have hrevoke : (t.run Surroundings.still.recorded KeyStore.inMemory.recorded [.revoke]).run
      ⟨(), [.activated k, .loaded none]⟩ =
        (([.revoked (.ok ())], ⟨t.ring.cleared, t.lifetime⟩),
          ⟨(), [.discarded, .activated k, .loaded none]⟩) := rfl
  have hnothing : (t.run Surroundings.still.recorded KeyStore.inMemory.recorded []).run
      ⟨(), [.activated k, .loaded none]⟩ = (([], t), ⟨(), [.activated k, .loaded none]⟩) := rfl
  have hrun := history_of_parts hstart hnothing hissue hrevoke
  have hkeys : keysOf Surroundings.still .inMemory singleKey [] "a" [.revoke] () = [k] := by
    rw [keysOf, hrun]
    rfl
  have herases := erases_history Surroundings.still .inMemory singleKey [] "a" [.revoke] ⟨(), []⟩
  rw [hrun] at herases
  have hdistinct : ([k].map SigningKey.id).Nodup := List.nodup_singleton _
  have hsigns : ∀ k' ∈ [k], ∀ message signature,
      k'.material.sign k'.algorithm message = .ok signature →
        k'.material.verify k'.algorithm message signature = .ok true := by
    intro k' hmem message signature
    rw [List.mem_singleton.mp hmem, hmaterial]
    exact KeyMaterial.verify_of_sign_secret
  rw [← hkeys] at hdistinct hsigns
  obtain ⟨T, hparse, -, -, hverify⟩ := verify_of_history rfl herases.symm hdistinct hsigns
  exact ⟨token, _, _, T, herases.symm, hparse, hverify⟩

end TokenAuthenticator

end TokenAuthority
