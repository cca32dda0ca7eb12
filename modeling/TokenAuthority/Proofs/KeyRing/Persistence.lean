import TokenAuthority.Proofs.KeyRing.Ledger

/-!
# The store keeps the newest key

A key is in the store before it enters the ring, and the store lets go of it before the
ring does. So the newest key of a ring is the one that its store keeps, after every
operation, and an operation that fails changes neither.
-/

namespace TokenAuthority

namespace KeyRing

variable {σ : Type} {s : Surroundings (StateM σ)} {store : KeyStore (StateM σ)}

/-- The newest key of a ring, if it has one, is the one that is kept, and no other is. -/
def Persisted (r : KeyRing) (w : Recorded σ) : Prop :=
  r.keys.head? = w.ledger.persisted

variable {r r' : KeyRing} {w w₁ w₂ : Recorded σ}

theorem persisted_install {k : SigningKey} {answer : Unit}
    (h : (store.recorded.activate k).run w = (.ok answer, w₁)) :
    Persisted (r.install k) w₁ := by
  rw [Persisted, KeyStore.ledger_activate h]
  rfl

theorem Persisted.of_ledger_eq (h : Persisted r w) (hw : w₁.ledger = w.ledger) :
    Persisted r w₁ := by
  rw [Persisted, hw]
  exact h

theorem ledger_eq_of_refused {op : Operation} {k : SigningKey} {e : AuthError}
    (offer : Offers s.recorded r w op k w₁)
    (failed : (store.recorded.activate k).run w₁ = (.error e, w₂)) :
    w₂.ledger = w.ledger := by
  rw [KeyStore.ledger_activate failed, Ledger.entries, List.nil_append, offer.ledger_eq]

/-- An operation that fails changes neither the ring nor the ledger. -/
theorem unchanged_of_error {op : Operation} {e : AuthError}
    (h : Step s.recorded store.recorded r w op (.error e) r' w₂) :
    r' = r ∧ w₂.ledger = w.ledger := by
  cases h with
  | foreign _ => exact ⟨rfl, rfl⟩
  | refused offer failed => exact ⟨rfl, ledger_eq_of_refused offer failed⟩
  | uncleared failed => exact ⟨rfl, KeyStore.ledger_discard failed⟩

/-- What an operation keeps: the newest key is the one in the store. -/
theorem Persisted.step (h : Persisted r w) {op : Operation} {answer : Except AuthError Answer}
    (hstep : Step s.recorded store.recorded r w op answer r' w₂) : Persisted r' w₂ := by
  cases hstep with
  | newest _ => exact h
  | found _ => exact h
  | counted => exact h
  | foreign _ => exact h
  | kept _ activated => exact persisted_install activated
  | refused offer failed => exact h.of_ledger_eq (ledger_eq_of_refused offer failed)
  | cleared discarded =>
      rw [Persisted, KeyStore.ledger_discard discarded]
      rfl
  | uncleared failed => exact h.of_ledger_eq (KeyStore.ledger_discard failed)

/-- Every key that is answered is kept at that moment. -/
theorem persisted_of_key (h : Persisted r w) {op : Operation} {k : SigningKey}
    (hstep : Step s.recorded store.recorded r w op (.ok (.key k)) r' w₂) :
    w₂.ledger.persisted = some k := by
  cases hstep with
  | newest keys =>
      rw [← h, keys]
      rfl
  | kept _ activated =>
      rw [KeyStore.ledger_activate activated]
      rfl

theorem exists_key_of_current {a : Answer}
    (hstep : Step s.recorded store.recorded r w .current (.ok a) r' w₂) : ∃ k, a = .key k := by
  cases hstep with
  | newest _ => exact ⟨_, rfl⟩
  | kept _ _ => exact ⟨_, rfl⟩

/-- A ring that is made with one key has the key that is kept; where none is made, none is
kept. -/
theorem persisted_of_seeding {a : Algorithm} {capacity : Nat} {answer : Except AuthError KeyRing}
    (hw : w.ledger = [])
    (h : Seeding s.recorded store.recorded a capacity w answer w₁) :
    (∀ e, answer = .error e → w₁.ledger.persisted = none) ∧
      ∀ r, answer = .ok r → Persisted r w₁ := by
  constructor
  · rintro e rfl
    cases h with
    | unsized _ =>
        rw [hw]
        rfl
    | unloaded _ failed =>
        rw [KeyStore.ledger_load failed, hw]
        rfl
    | unrotated _ absent step =>
        rw [(unchanged_of_error step).2, KeyStore.ledger_load absent]
        rfl
  · rintro r rfl
    cases h with
    | loaded _ found =>
        rw [Persisted, KeyStore.ledger_load found]
        rfl
    | rotated blank absent step =>
        refine Persisted.step ?_ step
        rw [Persisted, (of_empty_eq_ok blank).2.2, KeyStore.ledger_load absent]
        rfl

/-- A ring is made with one key, in a world where the store does as it likes, and then any
operations follow. At every moment the newest key of the ring is the one that the store
keeps, and the ring is empty if the store keeps none. An operation that fails leaves the ring
and what is kept as they were, and a key that is answered as the current one is kept at that
moment. Where no ring can be made, no key is kept. -/
theorem head?_keys_eq_persisted (s : Surroundings (StateM σ)) (store : KeyStore (StateM σ))
    (a : Algorithm) (capacity : Nat) (start : σ) :
    match (seeded s.recorded store.recorded a capacity).run ⟨start, []⟩ with
    | (.error _, w) => w.ledger.persisted = none
    | (.ok r₀, w₀) =>
      (seeded s store a capacity).run start = (.ok r₀, w₀.world) ∧
      ∀ ops r w, (after s.recorded store.recorded ops r₀).run w₀ = (r, w) →
        (after s store ops r₀).run w₀.world = (r, w.world) ∧
        r.keys.head? = w.ledger.persisted ∧
        ∀ op answer r' w', (r.perform s.recorded store.recorded op).run w = ((answer, r'), w') →
          (r.perform s store op).run w.world = ((answer, r'), w'.world) ∧
          (∀ e, answer = .error e → r' = r ∧ w'.ledger.persisted = w.ledger.persisted) ∧
          (op = .current → ∀ x, answer = .ok x →
            ∃ k, x = .key k ∧ w'.ledger.persisted = some k) := by
  have hseeding := seeding_seeded s.recorded store.recorded a capacity ⟨start, []⟩
  have hwatched := erases_seeded s store a capacity ⟨start, []⟩
  have hmade := persisted_of_seeding rfl hseeding
  generalize (seeded s.recorded store.recorded a capacity).run ⟨start, []⟩ = made at *
  obtain ⟨e | r₀, w₀⟩ := made
  · exact hmade.1 e rfl
  · refine ⟨hwatched.symm, ?_⟩
    intro ops r w hrun
    have hwatched := erases_after s store ops r₀ w₀
    have hkept := after_induction s.recorded store.recorded
      (fun _ _ _ _ _ _ h step => Persisted.step h step) ops (hmade.2 r₀ rfl)
    rw [hrun] at hwatched hkept
    refine ⟨hwatched.symm, hkept, ?_⟩
    intro op answer r' w' hop
    have hwatched := erases_perform s store r op w
    have hstep := step_perform s.recorded store.recorded r op w
    rw [hop] at hwatched hstep
    refine ⟨hwatched.symm, ?_, ?_⟩
    · rintro e rfl
      obtain ⟨hring, hledger⟩ := unchanged_of_error hstep
      exact ⟨hring, congrArg Ledger.persisted hledger⟩
    · rintro rfl x rfl
      obtain ⟨k, rfl⟩ := exists_key_of_current hstep
      exact ⟨k, rfl, persisted_of_key hkept hstep⟩

/-- A store that has a key, takes no other and does not let go of it. -/
def sealedStore (k : SigningKey) : KeyStore (StateM Unit) where
  kind := .memory
  file? := none
  load _ := return .ok (some k)
  activate _ := return .error (.keyStore (.stated "sealed"))
  discard := return .error (.keyStore (.stated "sealed"))

/-- With such a store a key that is given, a revocation and another key that is given all fail,
and the ring keeps its key. -/
theorem head?_keys_eq_persisted_sealed :
    ∃ (k k' : SigningKey) (r₀ r : KeyRing) (w₀ w w' : Recorded Unit) (e : AuthError),
      k.id ≠ k'.id ∧
      (seeded Surroundings.still.recorded (sealedStore k).recorded ⟨.hmac, .sha256⟩ 2).run
        ⟨(), []⟩ = (.ok r₀, w₀) ∧
      (after Surroundings.still.recorded (sealedStore k).recorded [.push k', .clear] r₀).run w₀ =
        (r, w) ∧
      r.keys.head? = some k ∧ w.ledger.persisted = some k ∧
      (r.perform Surroundings.still.recorded (sealedStore k).recorded (.push k')).run w =
        ((.error e, r), w') ∧ w'.ledger.persisted = some k := by
  let k : SigningKey := ⟨"a", ⟨.hmac, .sha256⟩, .epoch, .secret [1], rfl⟩
  let k' : SigningKey := ⟨"b", ⟨.hmac, .sha256⟩, .epoch, .secret [2], rfl⟩
  obtain ⟨r₀, r, w₀, w, w', hseeded, hrun, hpersisted, hpush⟩ :
      ∃ (r₀ r : KeyRing) (w₀ w w' : Recorded Unit),
        (seeded Surroundings.still.recorded (sealedStore k).recorded ⟨.hmac, .sha256⟩ 2).run
          ⟨(), []⟩ = (.ok r₀, w₀) ∧
        (after Surroundings.still.recorded (sealedStore k).recorded [.push k', .clear] r₀).run w₀ =
          (r, w) ∧
        w.ledger.persisted = some k ∧
        (r.perform Surroundings.still.recorded (sealedStore k).recorded (.push k')).run w =
          ((.error (.keyStore (.stated "sealed")), r), w') := ⟨_, _, _, _, _, rfl, rfl, rfl, rfl⟩
  have hkept := head?_keys_eq_persisted Surroundings.still (sealedStore k) ⟨.hmac, .sha256⟩ 2 ()
  rw [hseeded] at hkept
  obtain ⟨-, hhead, hnext⟩ := hkept.2 _ r w hrun
  obtain ⟨-, hfailed, -⟩ := hnext (.push k') _ _ _ hpush
  exact ⟨k, k', r₀, r, w₀, w, w', _, by decide, hseeded, hrun, hhead.trans hpersisted, hpersisted,
    hpush, (hfailed _ rfl).2.trans hpersisted⟩

end KeyRing

end TokenAuthority
