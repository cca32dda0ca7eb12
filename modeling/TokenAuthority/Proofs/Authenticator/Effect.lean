import TokenAuthority.Proofs.Authenticator.Run
import TokenAuthority.Proofs.KeyRing.Persistence

/-!
# What a response tells about the ring

A response tells what became of the ring: nothing, a key before the others, the first key
of an empty ring, or no keys at all. The ledger tells which keys were activated, and each
of them has an identifier.
-/

namespace TokenAuthority

namespace TokenAuthenticator

/-! ### What a response tells -/

/-- What became of the ring and the ledger, as the response tells it. -/
inductive Effect (r : KeyRing) (l : Ledger) : Response → KeyRing → Ledger → Prop
  | quiet {answer : Response} {l' : Ledger} (renewal : answer.isRenewal = false)
    (revocation : answer.isRevocation = false) (same : l'.activated = l.activated) :
    Effect r l answer r l'
  | first {answer : Response} {k : SigningKey} {l' : Ledger}
    (renewal : answer.isRenewal = false) (revocation : answer.isRevocation = false)
    (none : r.keys = []) (named : k.id ≠ "") (made : l'.activated = k :: l.activated) :
    Effect r l answer (r.install k) l'
  | renewed {id : String} {k : SigningKey} {l' : Ledger} (named : k.id ≠ "")
    (made : l'.activated = k :: l.activated) :
    Effect r l (.renewed (.ok id)) (r.install k) l'
  | revoked {u : Unit} {l' : Ledger} (same : l'.activated = l.activated) :
    Effect r l (.revoked (.ok u)) r.cleared l'

/-- What became of them, response by response. -/
inductive Effects : KeyRing → Ledger → List Response → KeyRing → Ledger → Prop
  | nil (r : KeyRing) (l : Ledger) : Effects r l [] r l
  | cons {r₀ r₁ r₂ : KeyRing} {l₀ l₁ l₂ : Ledger} {answer : Response} {answers : List Response}
    (first : Effect r₀ l₀ answer r₁ l₁) (behind : Effects r₁ l₁ answers r₂ l₂) :
    Effects r₀ l₀ (answer :: answers) r₂ l₂

section

variable {σ : Type} {s : Surroundings (StateM σ)} {store : KeyStore (StateM σ)}
  {r r' : KeyRing} {w w' : Recorded σ}

theorem activated_eq_of_kept {k : SigningKey} {op : KeyRing.Operation} {w₁ : Recorded σ}
    (offer : KeyRing.Offers s.recorded r w op k w₁)
    (activated : (store.recorded.activate k).run w₁ = (.ok (), w')) :
    w'.ledger.activated = k :: w.ledger.activated := by
  rw [KeyStore.ledger_activate activated, offer.ledger_eq]
  rfl

theorem effect_of_current {answer : Except AuthError KeyRing.Answer}
    (h : KeyRing.Step s.recorded store.recorded r w .current answer r' w') {response : Response}
    (renewal : response.isRenewal = false) (revocation : response.isRevocation = false) :
    Effect r w.ledger response r' w'.ledger := by
  cases h with
  | newest _ => exact .quiet renewal revocation rfl
  | kept offer activated =>
      have hmade := activated_eq_of_kept offer activated
      cases offer with
      | first none fresh =>
          exact .first renewal revocation none (KeyRing.of_freshKey fresh).2 hmade
  | refused offer failed =>
      refine .quiet renewal revocation ?_
      rw [KeyRing.ledger_eq_of_refused offer failed]

theorem effect_of_rotate (answer : Except AuthError SigningKey)
    (h : KeyRing.Step s.recorded store.recorded r w .rotate (answer.map .key) r' w') :
    Effect r w.ledger (.renewed (answer.map SigningKey.id)) r' w'.ledger := by
  cases answer with
  | error e =>
      obtain ⟨rfl, hledger⟩ := KeyRing.unchanged_of_error h
      exact .quiet rfl rfl (congrArg Ledger.activated hledger)
  | ok k =>
      cases h with
      | kept offer activated =>
          have hmade := activated_eq_of_kept offer activated
          cases offer with
          | fresh made => exact .renewed (KeyRing.of_freshKey made).2 hmade

theorem effect_of_clear (answer : Except AuthError Unit)
    (h : KeyRing.Step s.recorded store.recorded r w .clear (answer.map fun _ => .done) r' w') :
    Effect r w.ledger (.revoked answer) r' w'.ledger := by
  cases answer with
  | error e =>
      obtain ⟨rfl, hledger⟩ := KeyRing.unchanged_of_error h
      exact .quiet rfl rfl (congrArg Ledger.activated hledger)
  | ok u =>
      cases h with
      | cleared discarded =>
          refine .revoked ?_
          rw [KeyStore.ledger_discard discarded]
          rfl

variable (s store)

theorem effect_issue (t : TokenAuthenticator) (principal : String) (w : Recorded σ) :
    Effect t.ring w.ledger
      (.issued ((t.issue s.recorded store.recorded principal).run w).1.1)
      ((t.issue s.recorded store.recorded principal).run w).1.2.ring
      ((t.issue s.recorded store.recorded principal).run w).2.ledger := by
  have hstep := KeyRing.step_current s.recorded store.recorded t.ring w
  rw [run_issue]
  generalize (t.ring.current s.recorded store.recorded).run w = outcome at hstep ⊢
  obtain ⟨⟨answer, ring⟩, w₁⟩ := outcome
  have hquiet : ∀ x : Except AuthError IssuedToken,
      Effect t.ring w.ledger (.issued x) ring w₁.ledger :=
    fun x => effect_of_current hstep rfl rfl
  cases answer with
  | error e => exact hquiet _
  | ok k => exact hquiet _

/-- Every response has its effect. -/
theorem effect_serve (t : TokenAuthenticator) (request : Request) (w : Recorded σ) :
    Effect t.ring w.ledger ((t.serve s.recorded store.recorded request).run w).1.1
      ((t.serve s.recorded store.recorded request).run w).1.2.ring
      ((t.serve s.recorded store.recorded request).run w).2.ledger := by
  cases request with
  | issue principal => exact effect_issue s store t principal w
  | verify data => exact .quiet rfl rfl rfl
  | authenticate c => exact .quiet rfl rfl rfl
  | parse data => exact .quiet rfl rfl rfl
  | renew =>
      exact effect_of_rotate _ (KeyRing.step_perform s.recorded store.recorded t.ring .rotate w)
  | revoke =>
      exact effect_of_clear _ (KeyRing.step_perform s.recorded store.recorded t.ring .clear w)
  | setLifetime lifetime => exact .quiet rfl rfl rfl

theorem effects_run (requests : List Request) (t : TokenAuthenticator) (w : Recorded σ) :
    Effects t.ring w.ledger ((t.run s.recorded store.recorded requests).run w).1.1
      ((t.run s.recorded store.recorded requests).run w).1.2.ring
      ((t.run s.recorded store.recorded requests).run w).2.ledger := by
  induction requests generalizing t w with
  | nil => exact .nil _ _
  | cons request requests ih => exact .cons (effect_serve s store t request w) (ih _ _)

end

/-! ### Keys of the ring and of the ledger -/

/-- Every key of a ring was activated and has an identifier. -/
def Stocked (r : KeyRing) (l : Ledger) : Prop :=
  ∀ k ∈ r.keys, k ∈ l.activated ∧ k.id ≠ ""

section

variable {r r' : KeyRing} {l l' : Ledger} {answer : Response} {answers : List Response}

theorem Stocked.install (h : Stocked r l) {k : SigningKey} (named : k.id ≠ "")
    (made : l'.activated = k :: l.activated) : Stocked (r.install k) l' := by
  rw [Stocked, made]
  refine KeyRing.forall_mem_install ?_ ⟨List.mem_cons_self, named⟩
  intro k' hmem
  exact ⟨List.mem_cons_of_mem k (h k' hmem).1, (h k' hmem).2⟩

theorem Effect.stocked (h : Effect r l answer r' l') (hr : Stocked r l) : Stocked r' l' := by
  cases h with
  | quiet _ _ same =>
      intro k hmem
      rw [same]
      exact hr k hmem
  | first _ _ _ named made => exact hr.install named made
  | renewed named made => exact hr.install named made
  | revoked _ =>
      intro k hmem
      cases hmem

theorem Effect.capacity_eq (h : Effect r l answer r' l') : r'.capacity = r.capacity := by
  cases h <;> rfl

theorem Effect.activated_suffix (h : Effect r l answer r' l') : l.activated <:+ l'.activated := by
  cases h with
  | quiet _ _ same => exact ⟨[], same.symm⟩
  | first _ _ _ _ made =>
      rw [made]
      exact List.suffix_cons _ _
  | renewed _ made =>
      rw [made]
      exact List.suffix_cons _ _
  | revoked same => exact ⟨[], same.symm⟩

theorem Effects.stocked (h : Effects r l answers r' l') (hr : Stocked r l) : Stocked r' l' := by
  induction h with
  | nil => exact hr
  | cons first _ ih => exact ih (first.stocked hr)

theorem Effects.capacity_eq (h : Effects r l answers r' l') : r'.capacity = r.capacity := by
  induction h with
  | nil => rfl
  | cons first _ ih => rw [ih, first.capacity_eq]

theorem Effects.activated_suffix (h : Effects r l answers r' l') :
    l.activated <:+ l'.activated := by
  induction h with
  | nil => exact List.suffix_rfl
  | cons first _ ih => exact first.activated_suffix.trans ih

end

/-! ### The ring at the beginning -/

section

variable {σ : Type} {s : Surroundings (StateM σ)} {store : KeyStore (StateM σ)}

theorem stocked_of_seeding {a : Algorithm} {capacity : Nat} {r : KeyRing} {w w' : Recorded σ}
    (hload : ((store.load a).run w.world).1 = .ok none)
    (h : KeyRing.Seeding s.recorded store.recorded a capacity w (.ok r) w') :
    r.capacity = capacity ∧ Stocked r w'.ledger := by
  cases h with
  | loaded _ found =>
      rw [KeyStore.answer_load found] at hload
      cases hload
  | @rotated r₀ _ k w₁ _ blank _ step =>
      obtain ⟨-, hcapacity, hkeys⟩ := KeyRing.of_empty_eq_ok blank
      have hstocked : Stocked r₀ w₁.ledger := by
        intro k' hmem
        rw [hkeys] at hmem
        cases hmem
      have heffect := effect_of_rotate (.ok k) step
      rw [← hcapacity]
      exact ⟨heffect.capacity_eq, heffect.stocked hstocked⟩

theorem stocked_of_start {c : CheckedSettings} {t : TokenAuthenticator} {w w' : Recorded σ}
    (hload : ((store.load c.algorithm).run w.world).1 = .ok none)
    (h : (start s.recorded store.recorded c).run w = (.ok t, w')) :
    t.ring.capacity = c.capacity ∧ Stocked t.ring w'.ledger :=
  stocked_of_seeding hload (seeding_of_start h)

/-- The key of an issued token is the newest of the ring from then on. -/
theorem key_of_issue {t t' : TokenAuthenticator} {principal : String} {token : IssuedToken}
    {w w' : Recorded σ}
    (h : (t.issue s.recorded store.recorded principal).run w = ((.ok token, t'), w')) :
    ∃ k older now, t'.ring.keys = k :: older ∧
      IssuedToken.issue k principal now t.lifetime = .ok token := by
  have hstep := KeyRing.step_current s.recorded store.recorded t.ring w
  rw [run_issue] at h
  generalize (t.ring.current s.recorded store.recorded).run w = outcome at h hstep
  obtain ⟨⟨answer, ring⟩, w₁⟩ := outcome
  cases answer with
  | error e => cases h
  | ok k =>
      obtain ⟨older, holder⟩ : ∃ older, ring.keys = k :: older := by
        cases hstep with
        | newest keys => exact ⟨_, keys⟩
        | kept _ _ => exact ⟨_, rfl⟩
      refine ⟨k, older, (s.recorded.now.run w₁).1, ?_, congrArg (·.1.1) h⟩
      rw [← holder]
      exact congrArg (·.1.2.ring.keys) h.symm

end

end TokenAuthenticator

end TokenAuthority
