import TokenAuthority.KeyRing
import TokenAuthority.Proofs.Except
import TokenAuthority.Proofs.KeyMaterial

/-!
# What can happen to a ring

The operations of a ring as one type, their answers as another, and a run of operations
one after the other. The world around a ring is a state of any kind, so that the clock,
the octets at random and the store may behave in any way at all. `Step` lists everything
that an operation can do to the ring and to the world.
-/

namespace TokenAuthority

/-- Surroundings in which the clock stands still and all octets are zero. -/
def Surroundings.still : Surroundings (StateM Unit) where
  now := pure .epoch
  draw n := pure (List.replicate n 0)

namespace KeyRing

/-- What is asked of a ring. -/
inductive Operation where
  | current
  | rotate
  | push (k : SigningKey)
  | clear
  | find (id : String)
  | size

/-- What a ring answers. -/
inductive Answer where
  | key (k : SigningKey)
  | found (k? : Option SigningKey)
  | count (n : Nat)
  | done

section

variable {m : Type → Type} [Monad m] (s : Surroundings m) (store : KeyStore m)

/-- Does what is asked. -/
def perform (r : KeyRing) : Operation → m (Outcome Answer)
  | .current => do
    let (answer, r) ← r.current s store
    return (answer.map .key, r)
  | .rotate => do
    let (answer, r) ← r.rotate s store
    return (answer.map .key, r)
  | .push k => do
    let (answer, r) ← r.push store k
    return (answer.map .key, r)
  | .clear => do
    let (answer, r) ← r.clear store
    return (answer.map fun _ => .done, r)
  | .find id => return (.ok (.found (r.find? id)), r)
  | .size => return (.ok (.count r.size), r)

/-- The ring after one operation after the other, whether they fail or not. -/
def after : List Operation → KeyRing → m KeyRing
  | [], r => return r
  | op :: ops, r => do
    let (_, r) ← r.perform s store op
    after ops r

end

/-! ### One operation -/

section

variable {σ : Type} (s : Surroundings (StateM σ)) (store : KeyStore (StateM σ))

/-- An operation comes to offer a key to the store, in the given world. -/
inductive Offers (r : KeyRing) (w : σ) : Operation → SigningKey → σ → Prop
  | given {k : SigningKey} (own : k.algorithm = r.algorithm) : Offers r w (.push k) k w
  | fresh {k : SigningKey} {w₁ : σ} (made : (freshKey s r.algorithm).run w = (.ok k, w₁)) :
    Offers r w .rotate k w₁
  | first {k : SigningKey} {w₁ : σ} (none : r.keys = [])
    (made : (freshKey s r.algorithm).run w = (.ok k, w₁)) : Offers r w .current k w₁

/-- What an operation answers, and the ring and the world after it. -/
inductive Step (r : KeyRing) (w : σ) :
    Operation → Except AuthError Answer → KeyRing → σ → Prop
  | newest {k : SigningKey} {older : List SigningKey} (keys : r.keys = k :: older) :
    Step r w .current (.ok (.key k)) r w
  | found (id : String) : Step r w (.find id) (.ok (.found (r.find? id))) r w
  | counted : Step r w .size (.ok (.count r.size)) r w
  | foreign {k : SigningKey} (other : k.algorithm ≠ r.algorithm) :
    Step r w (.push k)
      (.error (.configuration (.wrongAlgorithm k.algorithm r.algorithm))) r w
  | kept {op : Operation} {k : SigningKey} {w₁ w₂ : σ} (offer : Offers s r w op k w₁)
    (activated : (store.activate k).run w₁ = (.ok (), w₂)) :
    Step r w op (.ok (.key k)) (r.install k) w₂
  | refused {op : Operation} {k : SigningKey} {e : AuthError} {w₁ w₂ : σ}
    (offer : Offers s r w op k w₁) (failed : (store.activate k).run w₁ = (.error e, w₂)) :
    Step r w op (.error e) r w₂
  | cleared {w₁ : σ} (discarded : store.discard.run w = (.ok (), w₁)) :
    Step r w .clear (.ok .done) r.cleared w₁
  | uncleared {e : AuthError} {w₁ : σ} (failed : store.discard.run w = (.error e, w₁)) :
    Step r w .clear (.error e) r w₁

/-- What comes of making a ring with one key. -/
inductive Seeding (a : Algorithm) (capacity : Nat) (w : σ) :
    Except AuthError KeyRing → σ → Prop
  | unsized {e : AuthError} (failed : empty a capacity = .error e) :
    Seeding a capacity w (.error e) w
  | unloaded {r : KeyRing} {e : AuthError} {w₁ : σ} (blank : empty a capacity = .ok r)
    (failed : (store.load a).run w = (.error e, w₁)) : Seeding a capacity w (.error e) w₁
  | loaded {r : KeyRing} {k : SigningKey} {w₁ : σ} (blank : empty a capacity = .ok r)
    (found : (store.load a).run w = (.ok (some k), w₁)) :
    Seeding a capacity w (.ok (r.install k)) w₁
  | rotated {r r' : KeyRing} {k : SigningKey} {w₁ w₂ : σ} (blank : empty a capacity = .ok r)
    (absent : (store.load a).run w = (.ok none, w₁))
    (step : Step s store r w₁ .rotate (.ok (.key k)) r' w₂) : Seeding a capacity w (.ok r') w₂
  | unrotated {r r' : KeyRing} {e : AuthError} {w₁ w₂ : σ} (blank : empty a capacity = .ok r)
    (absent : (store.load a).run w = (.ok none, w₁))
    (step : Step s store r w₁ .rotate (.error e) r' w₂) : Seeding a capacity w (.error e) w₂

variable {s store} {r : KeyRing} {w w₁ : σ}

theorem of_empty_eq_ok {a : Algorithm} {capacity : Nat} (h : empty a capacity = .ok r) :
    r.algorithm = a ∧ r.capacity = capacity ∧ r.keys = [] := by
  rw [empty] at h
  split at h
  · cases h
    exact ⟨rfl, rfl, rfl⟩
  · cases h

theorem empty_of_pos (a : Algorithm) {capacity : Nat} (h : 0 < capacity) :
    empty a capacity = .ok ⟨a, capacity, [], h, Nat.zero_le _⟩ := by
  rw [empty, dif_pos h]

theorem keys_install_of_nil (h : r.keys = []) (k : SigningKey) :
    (r.install k).keys = [k] := by
  change k :: r.keys.take (r.capacity - 1) = [k]
  rw [h, List.take_nil]

/-- It is for its places alone that a ring with keys cannot be allocated. -/
theorem isAllocated_iff_of_keys {k : SigningKey} {older : List SigningKey}
    (h : r.keys = k :: older) : r.isAllocated ↔ r.capacity ≤ mostPlaces := by
  simp [isAllocated, h]

/-- What a new key and the keys of a ring have in common, all keys have once it is installed. -/
theorem forall_mem_install {P : SigningKey → Prop} (h : ∀ k ∈ r.keys, P k) {k : SigningKey}
    (hk : P k) : ∀ k' ∈ (r.install k).keys, P k' := by
  intro k' hmem
  rw [keys_install] at hmem
  obtain rfl | hmem := List.mem_cons.mp (List.mem_of_mem_take hmem)
  · exact hk
  · exact h k' hmem

theorem run_freshKey (a : Algorithm) :
    (freshKey s a).run w =
      ((SigningKey.generate a (s.now.run w).1
          ((s.draw SigningKey.randomSize).run (s.now.run w).2).1).mapError
          AuthError.cryptographic,
        ((s.draw SigningKey.randomSize).run (s.now.run w).2).2) := rfl

/-- A fresh key is always there. -/
theorem freshKey_ne_error (a : Algorithm) (e : AuthError) :
    (freshKey s a).run w ≠ (.error e, w₁) := by
  intro h
  rw [run_freshKey, Prod.mk.injEq] at h
  obtain ⟨k, hk⟩ := SigningKey.exists_generate a (s.now.run w).1
    ((s.draw SigningKey.randomSize).run (s.now.run w).2).1
  rw [hk] at h
  cases h.1

theorem run_adopt (k : SigningKey) :
    (r.adopt store k).run w =
      match (store.activate k).run w with
      | (.ok (), w₁) => ((.ok k, r.install k), w₁)
      | (.error e, w₁) => ((.error e, r), w₁) := by
  rw [adopt, StateT.run_bind]
  obtain ⟨answer, w₁⟩ := (store.activate k).run w
  cases answer <;> rfl

theorem run_rotate :
    (r.rotate s store).run w =
      match (freshKey s r.algorithm).run w with
      | (.ok k, w₁) => (r.adopt store k).run w₁
      | (.error e, w₁) => ((.error e, r), w₁) := by
  rw [rotate, StateT.run_bind]
  obtain ⟨answer, w₁⟩ := (freshKey s r.algorithm).run w
  cases answer <;> rfl

theorem run_rotate_eq_ok {k : SigningKey} {w₂ : σ}
    (made : (freshKey s r.algorithm).run w = (.ok k, w₁))
    (activated : (store.activate k).run w₁ = (.ok (), w₂)) :
    (r.rotate s store).run w = ((.ok k, r.install k), w₂) := by
  rw [run_rotate, made]
  dsimp only
  rw [run_adopt, activated]

theorem run_clear :
    (r.clear store).run w =
      match store.discard.run w with
      | (.ok (), w₁) => ((.ok (), r.cleared), w₁)
      | (.error e, w₁) => ((.error e, r), w₁) := by
  rw [clear, StateT.run_bind]
  obtain ⟨answer, w₁⟩ := store.discard.run w
  cases answer <;> rfl

theorem step_of_offer {op : Operation} {k : SigningKey} (offer : Offers s r w op k w₁) :
    Step s store r w op (((r.adopt store k).run w₁).1.1.map .key)
      ((r.adopt store k).run w₁).1.2 ((r.adopt store k).run w₁).2 := by
  rw [run_adopt]
  cases h : (store.activate k).run w₁ with
  | mk answer w₂ =>
    cases answer with
    | ok _ => exact .kept offer h
    | error e => exact .refused offer h

theorem step_of_rotate {op : Operation} (asked : op = .rotate ∨ op = .current ∧ r.keys = []) :
    Step s store r w op (((r.rotate s store).run w).1.1.map .key)
      ((r.rotate s store).run w).1.2 ((r.rotate s store).run w).2 := by
  rw [run_rotate]
  cases h : (freshKey s r.algorithm).run w with
  | mk answer w₁ =>
    cases answer with
    | error e => exact absurd h (freshKey_ne_error r.algorithm e)
    | ok k =>
      obtain rfl | ⟨rfl, hkeys⟩ := asked
      · exact step_of_offer (.fresh h)
      · exact step_of_offer (.first hkeys h)

variable (s store) in
/-- Every operation makes one of the steps. -/
theorem step_perform (r : KeyRing) (op : Operation) (w : σ) :
    Step s store r w op ((r.perform s store op).run w).1.1 ((r.perform s store op).run w).1.2
      ((r.perform s store op).run w).2 := by
  cases op with
  | rotate => exact step_of_rotate (.inl rfl)
  | find id => exact .found id
  | size => exact .counted
  | current =>
      cases h : r.keys with
      | nil =>
          have hcurrent : r.current s store = r.rotate s store := by rw [current, h]
          have hstep : Step s store r w .current _ _ _ := step_of_rotate (.inr ⟨rfl, h⟩)
          rw [← hcurrent] at hstep
          exact hstep
      | cons k older =>
          have hcurrent : r.current s store = pure (.ok k, r) := by rw [current, h]
          rw [perform, hcurrent]
          exact .newest h
  | push k =>
      by_cases hk : k.algorithm = r.algorithm
      · have hpush : r.push store k = r.adopt store k := by rw [push, if_pos hk]
        have hstep : Step s store r w (.push k) _ _ _ := step_of_offer (.given hk)
        rw [← hpush] at hstep
        exact hstep
      · have hpush : r.push store k =
            pure (.error (.configuration (.wrongAlgorithm k.algorithm r.algorithm)), r) := by
          rw [push, if_neg hk]
        rw [perform, hpush]
        exact .foreign hk
  | clear =>
      rw [perform, StateT.run_bind, run_clear]
      cases h : store.discard.run w with
      | mk answer w₁ =>
        cases answer with
        | ok _ => exact .cleared h
        | error e => exact .uncleared h

/-- The algorithm of a ring never changes. -/
theorem Step.algorithm_eq {r' : KeyRing} {w' : σ} {op : Operation}
    {answer : Except AuthError Answer} (h : Step s store r w op answer r' w') :
    r'.algorithm = r.algorithm := by
  cases h <;> rfl

/-- The number of places never changes. -/
theorem Step.capacity_eq {r' : KeyRing} {w' : σ} {op : Operation}
    {answer : Except AuthError Answer} (h : Step s store r w op answer r' w') :
    r'.capacity = r.capacity := by
  cases h <;> rfl

variable (s store) in
theorem step_current (r : KeyRing) (w : σ) :
    Step s store r w .current (((r.current s store).run w).1.1.map .key)
      ((r.current s store).run w).1.2 ((r.current s store).run w).2 :=
  step_perform s store r .current w

theorem run_seeded_of_none {a : Algorithm} {capacity : Nat} (blank : empty a capacity = .ok r)
    (absent : (store.load a).run w = (.ok none, w₁)) :
    (seeded s store a capacity).run w =
      match (r.rotate s store).run w₁ with
      | ((.ok _, r), w₂) => (.ok r, w₂)
      | ((.error e, _), w₂) => (.error e, w₂) := by
  rw [seeded, blank]
  dsimp only
  rw [StateT.run_bind, absent]
  change (r.rotate s store >>= _).run w₁ = _
  rw [StateT.run_bind]
  obtain ⟨⟨answer, r'⟩, w₂⟩ := (r.rotate s store).run w₁
  cases answer <;> rfl

theorem run_seeded_eq_ok {a : Algorithm} {capacity : Nat} {k : SigningKey} {w₂ w₃ : σ}
    (blank : empty a capacity = .ok r) (absent : (store.load a).run w = (.ok none, w₁))
    (made : (freshKey s a).run w₁ = (.ok k, w₂))
    (activated : (store.activate k).run w₂ = (.ok (), w₃)) :
    (seeded s store a capacity).run w = (.ok (r.install k), w₃) := by
  rw [← (of_empty_eq_ok blank).1] at made
  rw [run_seeded_of_none blank absent, run_rotate_eq_ok made activated]

variable (s store) in
/-- Every ring with one key is made in one of these ways. -/
theorem seeding_seeded (a : Algorithm) (capacity : Nat) (w : σ) :
    Seeding s store a capacity w ((seeded s store a capacity).run w).1
      ((seeded s store a capacity).run w).2 := by
  cases hempty : empty a capacity with
  | error e =>
      rw [seeded, hempty]
      exact .unsized hempty
  | ok r =>
      cases hload : (store.load a).run w with
      | mk answer w₁ =>
        obtain e | k? := answer
        · rw [seeded, hempty]
          dsimp only
          rw [StateT.run_bind, hload]
          exact .unloaded hempty hload
        cases k? with
        | some k =>
          rw [seeded, hempty]
          dsimp only
          rw [StateT.run_bind, hload]
          exact .loaded hempty hload
        | none =>
          have hstep : Step s store r w₁ .rotate _ _ _ := step_of_rotate (.inl rfl)
          rw [run_seeded_of_none hempty hload]
          cases hrotate : (r.rotate s store).run w₁ with
          | mk outcome w₂ =>
            rw [hrotate] at hstep
            obtain ⟨e | k, r'⟩ := outcome
            · exact .unrotated hempty hload hstep
            · exact .rotated hempty hload hstep

/-! ### Keys on offer -/

/-- A fresh key is one for the algorithm, and has an identifier. -/
theorem of_freshKey {a : Algorithm} {k : SigningKey}
    (h : (freshKey s a).run w = (.ok k, w₁)) : k.algorithm = a ∧ k.id ≠ "" := by
  rw [run_freshKey, Prod.mk.injEq, mapError_eq_ok_iff] at h
  obtain ⟨hid, ha, -⟩ := SigningKey.parts_of_ofParts h.1
  refine ⟨ha, ?_⟩
  rw [hid]
  exact Uuid.timed_ne_empty _ _

theorem Offers.algorithm_eq {op : Operation} {k : SigningKey} (h : Offers s r w op k w₁) :
    k.algorithm = r.algorithm := by
  cases h with
  | given own => exact own
  | fresh made => exact (of_freshKey made).1
  | first _ made => exact (of_freshKey made).1

/-! ### Runs -/

variable (s store) in
/-- What every operation keeps, every run keeps. -/
theorem after_induction {P : KeyRing → σ → Prop}
    (step : ∀ r w op answer r' w', P r w → Step s store r w op answer r' w' → P r' w')
    (ops : List Operation) {r : KeyRing} {w : σ} (start : P r w) :
    P ((after s store ops r).run w).1 ((after s store ops r).run w).2 := by
  induction ops generalizing r w with
  | nil => exact start
  | cons op ops ih => exact ih (step r w op _ _ _ start (step_perform s store r op w))

end

end KeyRing

end TokenAuthority
