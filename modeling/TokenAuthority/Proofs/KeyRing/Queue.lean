import TokenAuthority.Proofs.KeyRing.OwnKeys
import TokenAuthority.Proofs.KeyRing.Persistence

/-!
# A ring is a bounded queue

The keys that came into a ring since it was emptied last make up a list without bound, the
newest first, which is read off the ledger of the store. A ring with `n` places has the first
`n` keys of that list and no others. So the oldest key is the one that has to go, and no key is
lost or doubled otherwise. `Turn` says what an operation does to the list, in terms of the list
alone. All this is so as long as memory can have the places; with more of them the first key
that comes in ends the program.
-/

namespace TokenAuthority

/-- The keys that came in since all were discarded, the latest first: one that was loaded, and
those that were activated. -/
def Ledger.installed : Ledger → List SigningKey
  | [] => []
  | .loaded k? :: earlier => k?.toList ++ installed earlier
  | .activated k :: earlier => k :: installed earlier
  | .discarded :: _ => []

theorem KeyStore.loadsOwn_recorded {σ : Type} {store : KeyStore (StateM σ)}
    (h : store.LoadsOwn) : store.recorded.LoadsOwn :=
  fun a w => h a w.world

namespace KeyRing

/-- Whether an operation has to ask the store, in a ring with these keys. -/
def Operation.AsksStore (keys : List SigningKey) : Operation → Prop
  | .current => keys = []
  | .rotate => True
  | .push _ => True
  | .clear => True
  | .find _ => False
  | .size => False

/-- What an operation answers when the keys of a list have come into a ring with `n` places,
and the list after it. -/
inductive Turn (n : Nat) :
    List SigningKey → Operation → Except AuthError Answer → List SigningKey → Prop
  | newest (k : SigningKey) (older : List SigningKey) :
    Turn n (k :: older) .current (.ok (.key k)) (k :: older)
  | first (k : SigningKey) : Turn n [] .current (.ok (.key k)) [k]
  | rotated (k : SigningKey) (l : List SigningKey) : Turn n l .rotate (.ok (.key k)) (k :: l)
  | pushed (k : SigningKey) (l : List SigningKey) : Turn n l (.push k) (.ok (.key k)) (k :: l)
  | cleared (l : List SigningKey) : Turn n l .clear (.ok .done) []
  | found (id : String) (l : List SigningKey) :
    Turn n l (.find id) (.ok (.found ((l.take n).find? fun k => k.id == id))) l
  | counted (l : List SigningKey) : Turn n l .size (.ok (.count (min n l.length))) l
  | failed {op : Operation} {l : List SigningKey} (asks : op.AsksStore l) (e : AuthError) :
    Turn n l op (.error e) l

/-- A ring has as many keys of a list as it has places, those in front. -/
structure Holds (a : Algorithm) (n : Nat) (l : List SigningKey) (r : KeyRing) : Prop where
  algorithm_eq : r.algorithm = a
  capacity_eq : r.capacity = n
  keys_eq : r.keys = l.take n
  homogeneous : Homogeneous r

section

variable {a : Algorithm} {n : Nat} {l : List SigningKey} {r r' : KeyRing}

theorem Holds.pos (h : Holds a n l r) : 0 < n := by
  rw [← h.capacity_eq]
  exact r.capacity_pos

theorem Holds.size_eq (h : Holds a n l r) : r.size = min n l.length := by
  rw [size, h.keys_eq, List.length_take]

theorem Holds.eq_nil_iff (h : Holds a n l r) : r.keys = [] ↔ l = [] := by
  rw [h.keys_eq, List.take_eq_nil_iff, or_iff_right (Nat.ne_of_gt h.pos)]

theorem Holds.find?_eq_none_iff (h : Holds a n l r) (id : String) :
    r.find? id = none ↔ ∀ k ∈ l.take n, k.id ≠ id := by
  simp [find?, h.keys_eq]

/-- A key that is installed comes in front of the list. -/
theorem Holds.install (h : Holds a n l r) {k : SigningKey} (hk : k.algorithm = r.algorithm) :
    Holds a n (k :: l) (r.install k) := by
  refine ⟨h.algorithm_eq, h.capacity_eq, ?_, h.homogeneous.install hk⟩
  obtain ⟨m, rfl⟩ := Nat.exists_eq_add_one.mpr h.pos
  simp [keys_install, h.capacity_eq, h.keys_eq, List.take_take]

theorem Holds.isAllocated (h : Holds a n l r) (hn : n ≤ mostPlaces) : r.isAllocated := by
  rw [KeyRing.isAllocated, h.capacity_eq]
  simp [hn]

theorem Holds.cleared (h : Holds a n l r) : Holds a n [] r.cleared :=
  ⟨h.algorithm_eq, h.capacity_eq, by simp [KeyRing.cleared], by simp [Homogeneous, KeyRing.cleared]⟩

end

/-! ### One operation -/

section

variable {σ : Type} {s : Surroundings (StateM σ)} {store : KeyStore (StateM σ)}
  {a : Algorithm} {n : Nat} {r r' : KeyRing} {w w' : Recorded σ}

theorem installed_eq_of_kept {op : Operation} {k : SigningKey} {w₁ : Recorded σ}
    (offer : Offers s.recorded r w op k w₁)
    (activated : (store.recorded.activate k).run w₁ = (.ok (), w')) :
    w'.ledger.installed = k :: w.ledger.installed := by
  rw [KeyStore.ledger_activate activated, offer.ledger_eq]
  rfl

/-- Only operations that ask the store can fail. -/
theorem asksStore_of_offer {op : Operation} {k : SigningKey} {w₁ : Recorded σ}
    (offer : Offers s.recorded r w op k w₁) : op.AsksStore r.keys := by
  cases offer with
  | given _ => exact True.intro
  | fresh _ => exact True.intro
  | first none _ => exact none

theorem asksStore_of_error {op : Operation} {e : AuthError}
    (h : Step s.recorded store.recorded r w op (.error e) r' w') : op.AsksStore r.keys := by
  cases h with
  | foreign _ => exact True.intro
  | refused offer _ => exact asksStore_of_offer offer
  | uncleared _ => exact True.intro

/-- A step of a ring is a turn of the list. -/
theorem Holds.step (h : Holds a n w.ledger.installed r) {op : Operation}
    {answer : Except AuthError Answer}
    (hstep : Step s.recorded store.recorded r w op answer r' w') :
    Holds a n w'.ledger.installed r' ∧
      Turn n w.ledger.installed op answer w'.ledger.installed := by
  cases answer with
  | error e =>
      obtain ⟨rfl, hledger⟩ := unchanged_of_error hstep
      have hasks := asksStore_of_error hstep
      rw [hledger]
      refine ⟨h, .failed ?_ e⟩
      cases op with
      | current => exact h.eq_nil_iff.mp hasks
      | _ => exact hasks
  | ok x =>
      cases hstep with
      | @newest k older keys =>
          obtain ⟨older', hl⟩ : ∃ older', w.ledger.installed = k :: older' := by
            have hkeys := h.keys_eq
            rw [keys] at hkeys
            cases hl : w.ledger.installed with
            | nil => simp [hl] at hkeys
            | cons k' older' =>
                obtain ⟨m, rfl⟩ := Nat.exists_eq_add_one.mpr h.pos
                rw [hl, List.take_succ_cons, List.cons.injEq] at hkeys
                exact ⟨older', by rw [hkeys.1]⟩
          rw [hl] at h ⊢
          exact ⟨h, .newest k older'⟩
      | found id =>
          refine ⟨h, ?_⟩
          rw [find?, h.keys_eq]
          exact .found id _
      | counted =>
          refine ⟨h, ?_⟩
          rw [h.size_eq]
          exact .counted _
      | @kept _ k _ _ offer activated =>
          have hinstall := h.install offer.algorithm_eq
          rw [installed_eq_of_kept offer activated]
          refine ⟨hinstall, ?_⟩
          cases offer with
          | given _ => exact .pushed k _
          | fresh _ => exact .rotated k _
          | first none _ =>
              rw [h.eq_nil_iff.mp none]
              exact .first k
      | cleared discarded =>
          rw [KeyStore.ledger_discard discarded]
          exact ⟨h.cleared, .cleared _⟩

theorem holds_of_empty (h : empty a n = .ok r) : Holds a n [] r := by
  obtain ⟨halgorithm, hcapacity, hkeys⟩ := of_empty_eq_ok h
  exact ⟨halgorithm, hcapacity, by simp [hkeys], homogeneous_of_empty h⟩

/-- A ring that is made with a key has that key, and no other has come in. -/
theorem holds_of_seeding (hstore : store.LoadsOwn) (hw : w.ledger = [])
    (h : Seeding s.recorded store.recorded a n w (.ok r) w') :
    Holds a n w'.ledger.installed r ∧ ∃ k, w'.ledger.installed = [k] := by
  cases h with
  | @loaded r₀ k _ blank found =>
      have hinstalled : w'.ledger.installed = [k] := by
        rw [KeyStore.ledger_load found, hw]
        rfl
      have hk := KeyStore.loadsOwn_recorded hstore a w k (congrArg Prod.fst found)
      rw [hinstalled]
      refine ⟨(holds_of_empty blank).install ?_, k, rfl⟩
      rw [hk, (of_empty_eq_ok blank).1]
  | @rotated r₀ _ k w₁ _ blank absent step =>
      have hnone : w₁.ledger.installed = [] := by
        rw [KeyStore.ledger_load absent, hw]
        rfl
      have hblank := holds_of_empty blank
      rw [← hnone] at hblank
      obtain ⟨hholds, hturn⟩ := hblank.step step
      refine ⟨hholds, ?_⟩
      rw [hnone] at hturn
      generalize w'.ledger.installed = l at hturn
      cases hturn with
      | rotated => exact ⟨k, rfl⟩

end

/-! ### Runs -/

section

variable {σ : Type}

/-- A ring was just made, without keys or with one, in a world without a ledger. -/
inductive Made (s : Surroundings (StateM σ)) (store : KeyStore (StateM σ)) (a : Algorithm)
    (n : Nat) (w : σ) : KeyRing → Recorded σ → Prop
  | blank {r : KeyRing} (h : empty a n = .ok r) : Made s store a n w r ⟨w, []⟩
  | seeded {r : KeyRing} {w₀ : Recorded σ}
    (h : (seeded s.recorded store.recorded a n).run ⟨w, []⟩ = (.ok r, w₀)) :
    Made s store a n w r w₀

variable {s : Surroundings (StateM σ)} {store : KeyStore (StateM σ)} {a : Algorithm} {n : Nat}
  {r r' : KeyRing}

theorem Made.holds (hstore : store.LoadsOwn) {w : σ} {w₀ : Recorded σ}
    (h : Made s store a n w r w₀) : Holds a n w₀.ledger.installed r := by
  cases h with
  | blank h => exact holds_of_empty h
  | seeded h =>
      have hseeding := seeding_seeded s.recorded store.recorded a n ⟨w, []⟩
      rw [h] at hseeding
      exact (holds_of_seeding hstore rfl hseeding).1

theorem exists_keys_of_seeded (hstore : store.LoadsOwn) (hn : 0 < n) {w : σ} {w₀ : Recorded σ}
    (h : (seeded s.recorded store.recorded a n).run ⟨w, []⟩ = (.ok r, w₀)) :
    ∃ k, r.keys = [k] := by
  have hseeding := seeding_seeded s.recorded store.recorded a n ⟨w, []⟩
  rw [h] at hseeding
  obtain ⟨hholds, k, hinstalled⟩ := holds_of_seeding hstore rfl hseeding
  obtain ⟨m, rfl⟩ := Nat.exists_eq_add_one.mpr hn
  exact ⟨k, by rw [hholds.keys_eq, hinstalled, List.take_succ_cons, List.take_nil]⟩

/-- The current key of a ring that has one is the newest, and to ask for it changes nothing. -/
theorem Step.eq_of_current {w w' : σ} {answer : Except AuthError Answer}
    (h : Step s store r w .current answer r' w') (hkeys : r.keys ≠ []) :
    (answer = .ok (.key (r.keys.head hkeys))) ∧ r' = r ∧ w' = w := by
  cases h with
  | newest keys => exact ⟨by simp [keys], rfl, rfl⟩
  | kept offer _ =>
      cases offer with
      | first none _ => exact absurd none hkeys
  | refused offer _ =>
      cases offer with
      | first none _ => exact absurd none hkeys

/-- An empty ring gets its first key when it is asked for the current one, unless the store
refuses the key. -/
theorem Step.of_current_of_nil {w w' : σ} {answer : Except AuthError Answer}
    (h : Step s store r w .current answer r' w') (hkeys : r.keys = []) :
    (∃ k, answer = .ok (.key k) ∧ r'.keys = [k]) ∨
      ∃ k w₁ e, (store.activate k).run w₁ = (.error e, w') ∧ answer = .error e ∧ r' = r := by
  cases h with
  | newest keys => simp [keys] at hkeys
  | @kept _ k _ _ _ _ => exact Or.inl ⟨k, rfl, keys_install_of_nil hkeys k⟩
  | refused _ failed => exact Or.inr ⟨_, _, _, failed, rfl, rfl⟩

variable (s) in
/-- The stores load keys for the algorithm that is asked for and no others. Over any store of
which this is true, whatever its calls do besides, a ring is made without keys or with exactly
one, and any operations follow. The ring has no more places than memory can have, so that none
of them ends the program. At every moment the ring has the first `n` keys of the list of those
that came in since it was emptied last. So its size is the length of the list up to `n`, a key is
found exactly if it is among the first `n` of the list, and every key is one for the algorithm
of the ring. A key that comes in finds its place, and if the ring is full one key leaves it. The
next operation is a turn of the list; the current key of a ring that has one is the newest, and
to ask for it changes nothing; and a ring without keys has exactly one afterwards unless the
store refuses it. -/
theorem keys_eq_take_installed :
    (KeyStore.inMemory : KeyStore (StateM σ)).LoadsOwn ∧
    (∀ (fs : FileSystem (StateM σ)) (f : KeyFile), (f.store s fs).LoadsOwn) ∧
    ∀ store : KeyStore (StateM σ), store.LoadsOwn → ∀ (a : Algorithm) (n : Nat), 0 < n →
      n ≤ mostPlaces →
      (∃ r, empty a n = .ok r) ∧
      (∀ w r₀ w₀, (seeded s.recorded store.recorded a n).run ⟨w, []⟩ = (.ok r₀, w₀) →
        ∃ k, r₀.keys = [k]) ∧
      ∀ w r₀ w₀, Made s store a n w r₀ w₀ →
        ∀ ops r w₁, (after s.recorded store.recorded ops r₀).run w₀ = (r, w₁) →
          (after s store ops r₀).run w₀.world = (r, w₁.world) ∧
          r.isAllocated ∧
          r.keys = w₁.ledger.installed.take n ∧
          r.size = min n w₁.ledger.installed.length ∧ r.size ≤ n ∧
          (∀ id, r.find? id = none ↔ ∀ k ∈ w₁.ledger.installed.take n, k.id ≠ id) ∧
          (∀ k ∈ r.keys, k.algorithm = a ∧ k.material.checkSuits a = .ok ()) ∧
          (r.capacity - 1 + 1 = n ∧ (r.capacity ≤ r.size → r.size + 1 - r.capacity = 1)) ∧
          ∀ op answer r' w₂,
            (r.perform s.recorded store.recorded op).run w₁ = ((answer, r'), w₂) →
              (r.perform s store op).run w₁.world = ((answer, r'), w₂.world) ∧
              r'.isAllocated ∧
              Turn n w₁.ledger.installed op answer w₂.ledger.installed ∧
              (∀ hkeys : r.keys ≠ [], op = .current →
                answer = .ok (.key (r.keys.head hkeys)) ∧ r' = r ∧ w₂ = w₁) ∧
              (r.keys = [] → op = .current →
                (∃ k, answer = .ok (.key k) ∧ r'.keys = [k]) ∨
                ∃ k w' e, (store.recorded.activate k).run w' = (.error e, w₂) ∧
                  answer = .error e ∧ r' = r) := by
  refine ⟨KeyStore.loadsOwn_inMemory, fun fs f => KeyFile.loadsOwn_store s fs f, ?_⟩
  intro store hstore a n hn hmost
  refine ⟨⟨_, empty_of_pos a hn⟩, fun w r₀ w₀ hrun => exists_keys_of_seeded hstore hn hrun, ?_⟩
  intro w r₀ w₀ hmade ops r w₁ hrun
  have hwatched := erases_after s store ops r₀ w₀
  have hholds := after_induction s.recorded store.recorded
    (P := fun r w => Holds a n w.ledger.installed r) (fun _ _ _ _ _ _ h step => (h.step step).1) ops
    (hmade.holds hstore)
  rw [hrun] at hwatched hholds
  have hsize : r.size ≤ n := by
    rw [hholds.size_eq]
    exact Nat.min_le_left n _
  refine ⟨hwatched.symm, hholds.isAllocated hmost, hholds.keys_eq, hholds.size_eq, hsize,
    hholds.find?_eq_none_iff, ?_, ?_, ?_⟩
  · intro k hk
    have ha := (hholds.homogeneous k hk).trans hholds.algorithm_eq
    exact ⟨ha, ha ▸ k.suits⟩
  · rw [hholds.capacity_eq]
    omega
  · intro op answer r' w₂ hop
    have hwatched := erases_perform s store r op w₁
    have hstep := step_perform s.recorded store.recorded r op w₁
    rw [hop] at hwatched hstep
    obtain ⟨hholds', hturn⟩ := hholds.step hstep
    refine ⟨hwatched.symm, hholds'.isAllocated hmost, hturn, ?_, ?_⟩
    · rintro hkeys rfl
      exact hstep.eq_of_current hkeys
    · rintro hkeys rfl
      exact hstep.of_current_of_nil hkeys

/-- A key with a name, for examples. -/
def namedKey (id : String) (secret : UInt8) : SigningKey :=
  ⟨id, ⟨.hmac, .sha256⟩, .epoch, .secret [secret], rfl⟩

/-- Three keys are given to a ring with two places. -/
theorem keys_eq_take_installed_full :
    ∃ (r₀ r : KeyRing) (w : Recorded Unit), empty ⟨.hmac, .sha256⟩ 2 = .ok r₀ ∧
      (after Surroundings.still.recorded KeyStore.inMemory.recorded
        [.push (namedKey "a" 1), .push (namedKey "b" 2), .push (namedKey "c" 3)] r₀).run ⟨(), []⟩ =
          (r, w) ∧
      w.ledger.installed = [namedKey "c" 3, namedKey "b" 2, namedKey "a" 1] ∧
      r.keys = [namedKey "c" 3, namedKey "b" 2] ∧ r.size = 2 ∧ r.find? "a" = none := by
  obtain ⟨hmemory, -, hqueue⟩ := keys_eq_take_installed Surroundings.still
  obtain ⟨⟨r₀, hblank⟩, -, hruns⟩ :=
    hqueue .inMemory hmemory ⟨.hmac, .sha256⟩ 2 (by decide) (by decide)
  have hblank' := hblank
  cases hblank'
  obtain ⟨-, -, hkeys, hsize, -, hfind, -⟩ := hruns () _ _ (.blank hblank)
    [.push (namedKey "a" 1), .push (namedKey "b" 2), .push (namedKey "c" 3)] _ _ rfl
  exact ⟨_, _, _, hblank, rfl, rfl, hkeys, hsize, (hfind "a").mpr (by decide)⟩

end

end KeyRing

end TokenAuthority
