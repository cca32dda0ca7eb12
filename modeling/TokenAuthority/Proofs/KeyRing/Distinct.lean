import TokenAuthority.Proofs.KeyRing.Queue
import TokenAuthority.Proofs.Token.Verification

/-!
# Identifiers of the keys in a ring

A key that is made gets an identifier that no other key has, but a key that is given brings its
own, and nobody looks whether the ring has it already. A ring is unambiguous if its keys have
distinct identifiers. It is at every moment of a run exactly if no key is given whose identifier
a key has that stays in the ring. Otherwise the newer of the two keys hides the older one.
-/

namespace TokenAuthority

namespace KeyRing

/-- The identifiers of the keys are distinct. So every key is found under its identifier, and a
token with the identifier is checked against that key. -/
structure Unambiguous (r : KeyRing) : Prop where
  nodup : (r.keys.map SigningKey.id).Nodup
  find?_eq : ∀ k ∈ r.keys, r.find? k.id = some k
  verify_eq : ∀ k ∈ r.keys, ∀ data t, Token.read data = .ok t → t.header.keyId = k.id →
    ∀ now, r.verify data now = do
      t.checkSignature k
      t.checkExpiry now
      return t.claims.subject

section

variable {r : KeyRing} {k : SigningKey}

theorem newest_of_nodup (h : (r.keys.map SigningKey.id).Nodup) (hk : k ∈ r.keys) :
    r.Newest k.id k := by
  obtain ⟨newer, older, hkeys⟩ := List.append_of_mem hk
  refine ⟨newer, older, hkeys, rfl, ?_⟩
  intro k' hk' hid
  rw [hkeys, List.map_append, List.map_cons, List.nodup_append] at h
  exact h.2.2 _ (List.mem_map_of_mem hk') _ List.mem_cons_self hid

theorem unambiguous_iff : r.Unambiguous ↔ (r.keys.map SigningKey.id).Nodup := by
  refine ⟨Unambiguous.nodup, fun h => ⟨h, ?_, ?_⟩⟩
  · intro k hk
    exact find?_eq_some_iff_newest.mpr (newest_of_nodup h hk)
  · intro k hk data t hread hid now
    have hkey : r.keyOf t = .ok k := by
      rw [keyOf_eq_ok_iff, hid]
      exact newest_of_nodup h hk
    rw [verify, hread]
    change (r.keyOf t >>= _) = _
    rw [hkey]
    rfl

theorem unambiguous_of_nil (h : r.keys = []) : r.Unambiguous := by
  rw [unambiguous_iff, h]
  exact List.nodup_nil

/-- A key keeps the identifiers distinct if it has none of those that stay. -/
theorem unambiguous_install_iff (h : r.Unambiguous) :
    (r.install k).Unambiguous ↔ ∀ k' ∈ r.keys.take (r.capacity - 1), k'.id ≠ k.id := by
  have hstay : ((r.keys.take (r.capacity - 1)).map SigningKey.id).Nodup :=
    h.nodup.sublist ((List.take_sublist _ _).map SigningKey.id)
  rw [unambiguous_iff, install, List.map_cons, List.nodup_cons, and_iff_left hstay, List.mem_map]
  simp

end

/-! ### One operation -/

/-- A key that is made has an identifier that no key of the ring has. -/
def MadeApart (r : KeyRing) (op : Operation) (answer : Except AuthError Answer)
    (_ : KeyRing) : Prop :=
  ∀ k, op = .rotate → answer = .ok (.key k) → ∀ k' ∈ r.keys, k'.id ≠ k.id

/-- A key that is given has an identifier that none of the keys has that stay in the ring. -/
def GivenApart (r : KeyRing) (op : Operation) (answer : Except AuthError Answer)
    (_ : KeyRing) : Prop :=
  ∀ k, op = .push k → answer = .ok (.key k) →
    ∀ k' ∈ r.keys.take (r.capacity - 1), k'.id ≠ k.id

section

variable {σ : Type} {s : Surroundings (StateM σ)} {store : KeyStore (StateM σ)}
  {r r' : KeyRing} {w w' : σ}

theorem givenApart_of_ne {op : Operation} {answer : Except AuthError Answer}
    (h : ∀ k, op = .push k → answer ≠ .ok (.key k)) : GivenApart r op answer r' :=
  fun k hop hanswer => absurd hanswer (h k hop)

/-- After a step the identifiers are distinct exactly if a given key did not bring one that was
there. -/
theorem Step.unambiguous_iff {op : Operation} {answer : Except AuthError Answer}
    (hstep : Step s store r w op answer r' w') (h : r.Unambiguous)
    (hmade : MadeApart r op answer r') : r'.Unambiguous ↔ GivenApart r op answer r' := by
  cases hstep with
  | @kept _ k _ _ offer _ =>
      rw [unambiguous_install_iff h]
      cases offer with
      | given _ =>
          constructor
          · rintro hstay _ ⟨⟩ _
            exact hstay
          · intro hgiven
            exact hgiven k rfl rfl
      | fresh _ =>
          refine iff_of_true ?_ (givenApart_of_ne (by simp))
          intro k' hk'
          exact hmade k rfl rfl k' (List.mem_of_mem_take hk')
      | first none _ =>
          refine iff_of_true ?_ (givenApart_of_ne (by simp))
          simp [none]
  | cleared _ => exact iff_of_true (unambiguous_of_nil rfl) (givenApart_of_ne (by simp))
  | _ => exact iff_of_true h (givenApart_of_ne (by simp))

/-- A ring that was just made has one key at most. -/
theorem unambiguous_of_start {a : Algorithm} {n : Nat}
    (h : empty a n = .ok r ∨ ∃ w, (seeded s store a n).run w = (.ok r, w')) :
    r.Unambiguous := by
  obtain hblank | ⟨w, hseeded⟩ := h
  · exact unambiguous_of_nil (of_empty_eq_ok hblank).2.2
  · have hseeding := seeding_seeded s store a n w
    rw [hseeded] at hseeding
    cases hseeding with
    | loaded blank _ =>
        have hkeys := (of_empty_eq_ok blank).2.2
        rw [unambiguous_install_iff (unambiguous_of_nil hkeys), hkeys]
        simp
    | rotated blank _ step =>
        have hkeys := (of_empty_eq_ok blank).2.2
        rw [step.unambiguous_iff (unambiguous_of_nil hkeys) (by simp [MadeApart, hkeys])]
        exact givenApart_of_ne (by simp)

end

/-! ### Runs -/

section

variable {σ : Type} (s : Surroundings (StateM σ)) (store : KeyStore (StateM σ))

/-- Every step of a run is as described: the ring, what is asked, the answer, and the ring after
it. -/
def EachStep (P : KeyRing → Operation → Except AuthError Answer → KeyRing → Prop) :
    List Operation → KeyRing → σ → Prop
  | [], _, _ => True
  | op :: ops, r, w =>
    P r op ((r.perform s store op).run w).1.1 ((r.perform s store op).run w).1.2 ∧
      EachStep P ops ((r.perform s store op).run w).1.2 ((r.perform s store op).run w).2

theorem eachStep_unambiguous_iff (ops : List Operation) {r : KeyRing} {w : σ}
    (h : r.Unambiguous) (hmade : EachStep s store MadeApart ops r w) :
    EachStep s store (fun _ _ _ r' => r'.Unambiguous) ops r w ↔
      EachStep s store GivenApart ops r w := by
  induction ops generalizing r w with
  | nil => exact Iff.rfl
  | cons op ops ih =>
      have hstep := (step_perform s store r op w).unambiguous_iff h hmade.1
      constructor
      · rintro ⟨hnext, hlater⟩
        exact ⟨hstep.mp hnext, (ih hnext hmade.2).mp hlater⟩
      · rintro ⟨hgiven, hlater⟩
        have hnext := hstep.mpr hgiven
        exact ⟨hnext, (ih hnext hmade.2).mpr hlater⟩

theorem unambiguous_after (ops : List Operation) {r : KeyRing} {w : σ} (h : r.Unambiguous)
    (hsteps : EachStep s store (fun _ _ _ r' => r'.Unambiguous) ops r w) :
    ((after s store ops r).run w).1.Unambiguous := by
  induction ops generalizing r w with
  | nil => exact h
  | cons op ops ih => exact ih hsteps.1 hsteps.2

/-- A ring is made without keys or with one, and any operations follow. The keys that are made
have identifiers of their own. Then the ring is unambiguous at the beginning; it stays so at
every step exactly if every key that is given has an identifier that none of the keys has that
stay; and then it is at the end. -/
theorem unambiguous_iff_givenApart {s : Surroundings (StateM σ)} {store : KeyStore (StateM σ)}
    {a : Algorithm} {n : Nat} {r₀ : KeyRing} {w₀ : σ}
    (hstart : empty a n = .ok r₀ ∨ ∃ w, (seeded s store a n).run w = (.ok r₀, w₀))
    {ops : List Operation} (hmade : EachStep s store MadeApart ops r₀ w₀) :
    r₀.Unambiguous ∧
      (EachStep s store (fun _ _ _ r => r.Unambiguous) ops r₀ w₀ ↔
        EachStep s store GivenApart ops r₀ w₀) ∧
      (EachStep s store GivenApart ops r₀ w₀ → ((after s store ops r₀).run w₀).1.Unambiguous) := by
  have hr := unambiguous_of_start hstart
  have hiff := eachStep_unambiguous_iff s store ops hr hmade
  exact ⟨hr, hiff, fun hgiven => unambiguous_after s store ops hr (hiff.mpr hgiven)⟩

/-- A key is given to a ring with two places that holds another one already. With an identifier
of its own it leaves the ring unambiguous. With that of the other both are in the ring, and only
the newer one is found. -/
theorem unambiguous_iff_givenApart_twice :
    ∃ r₀ : KeyRing, empty ⟨.hmac, .sha256⟩ 2 = .ok r₀ ∧
      ((after Surroundings.still .inMemory
        [.push (namedKey "a" 1), .push (namedKey "b" 2)] r₀).run ()).1.Unambiguous ∧
      (∃ r, (after Surroundings.still .inMemory
          [.push (namedKey "a" 1), .push (namedKey "a" 2)] r₀).run () = (r, ()) ∧
        r.keys = [namedKey "a" 2, namedKey "a" 1] ∧ r.find? "a" = some (namedKey "a" 2)) ∧
      ¬EachStep Surroundings.still .inMemory (fun _ _ _ r => r.Unambiguous)
        [.push (namedKey "a" 1), .push (namedKey "a" 2)] r₀ () := by
  have hblank := empty_of_pos ⟨.hmac, .sha256⟩ (by decide : 0 < 2)
  have hmade : ∀ k k' r,
      EachStep Surroundings.still .inMemory MadeApart [.push k, .push k'] r () := by
    simp [EachStep, MadeApart]
  refine ⟨_, hblank, ?_, ⟨_, rfl, rfl, rfl⟩, ?_⟩
  · refine (unambiguous_iff_givenApart (Or.inl hblank) (hmade _ _ _)).2.2 ?_
    refine ⟨?_, ?_, True.intro⟩
    · rintro _ _ _ k' ⟨⟩
    · rintro _ ⟨⟩ _ k' hk'
      rw [List.mem_singleton.mp hk']
      decide
  · rw [(unambiguous_iff_givenApart (Or.inl hblank) (hmade _ _ _)).2.1]
    rintro ⟨-, hgiven, -⟩
    exact hgiven (namedKey "a" 2) rfl rfl (namedKey "a" 1) List.mem_cons_self rfl

end

end KeyRing

end TokenAuthority
