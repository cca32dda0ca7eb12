import TokenAuthority.Proofs.Authenticator.Effect
import TokenAuthority.Proofs.Authenticator.Issuance
import TokenAuthority.Proofs.Authenticator.Restart
import TokenAuthority.Proofs.KeyFile.Activation
import TokenAuthority.Proofs.KeyFile.Ring
import TokenAuthority.Proofs.KeyRing.Persistence

/-!
# What a refused issue leaves behind

A token is signed with the current key, and that key is made and kept before anything else is
looked at. So a refusal that comes after it, for the principal or for the instant of expiry,
leaves the new key in a ring that was empty, and in the store. Every other refusal leaves the
authenticator and what is kept as they were.
-/

namespace TokenAuthority

namespace TokenAuthenticator

section

variable {σ : Type} (s : Surroundings (StateM σ)) (store : KeyStore (StateM σ))

/-- All that a refused issue can do to an authenticator and to the world. -/
inductive Refusal (t : TokenAuthenticator) (principal : String) (w : σ) :
    AuthError → TokenAuthenticator → σ → Prop
  /-- There is a key, and no token can be issued with it. -/
  | withKey {e : AuthError} {k : SigningKey} {older : List SigningKey}
    (keys : t.ring.keys = k :: older)
    (refused : IssuedToken.issue k principal (s.now.run w).1 t.lifetime = .error e) :
    Refusal t principal w e t (s.now.run w).2
  /-- There is no key, and the store does not keep a fresh one. -/
  | unkept {e : AuthError} {k : SigningKey} {w₁ w₂ : σ} (none : t.ring.keys = [])
    (made : (KeyRing.freshKey s t.ring.algorithm).run w = (.ok k, w₁))
    (failed : (store.activate k).run w₁ = (.error e, w₂)) : Refusal t principal w e t w₂
  /-- A fresh key is kept and installed, and no token can be issued with it. -/
  | madeFirst {e : AuthError} {k : SigningKey} {w₁ w₂ : σ} (none : t.ring.keys = [])
    (made : (KeyRing.freshKey s t.ring.algorithm).run w = (.ok k, w₁))
    (kept : (store.activate k).run w₁ = (.ok (), w₂))
    (refused : IssuedToken.issue k principal (s.now.run w₂).1 t.lifetime = .error e) :
    Refusal t principal w e ⟨t.ring.install k, t.lifetime⟩ (s.now.run w₂).2

variable {s store} {t t' : TokenAuthenticator} {principal : String} {e : AuthError} {w w' : σ}

theorem refusal_of_issue (h : (t.issue s store principal).run w = ((.error e, t'), w')) :
    Refusal s store t principal w e t' w' := by
  have hstep := KeyRing.step_current s store t.ring w
  rw [run_issue] at h
  generalize (t.ring.current s store).run w = outcome at h hstep
  obtain ⟨⟨answer, r⟩, w₁⟩ := outcome
  cases answer with
  | error e' =>
      cases h
      cases hstep with
      | refused offer failed =>
          cases offer with
          | first none made => exact .unkept none made failed
  | ok k =>
      obtain ⟨hissue, rfl⟩ := Prod.mk.inj h
      obtain ⟨hrefused, rfl⟩ := Prod.mk.inj hissue
      cases hstep with
      | newest keys => exact .withKey keys hrefused
      | kept offer activated =>
          cases offer with
          | first none made => exact .madeFirst none made activated hrefused

/-- The refusals that come when there is a key: for the principal, or for the instant of
expiry. -/
def IsLate (e : AuthError) : Prop :=
  e = .invalidRequest .emptyPrincipal ∨ ∃ n, e = .conversion (.timestampOutOfRange n)

/-- A fresh key fails to issue a token for no other reason. -/
theorem isLate_of_freshKey {a : Algorithm} {k : SigningKey} {now : Instant} {lifetime : Duration}
    (made : (KeyRing.freshKey s a).run w = (.ok k, w'))
    (refused : IssuedToken.issue k principal now lifetime = .error e) :
    IsLate e := by
  have hsigns := KeyRing.signs_of_freshKey made
  obtain ⟨-, rfl⟩ | ⟨-, -, rfl⟩ := (IssuedToken.issue_eq_error_iff_of_signs hsigns).mp refused
  · exact Or.inl rfl
  · exact Or.inr ⟨_, rfl⟩

/-- The newest key of an authenticator is the one that is kept, whatever was asked of it. -/
theorem persisted_of_run {c : CheckedSettings} {world : σ} {t₀ : TokenAuthenticator}
    {w₀ w₁ : Recorded σ} {requests : List Request} {answers : List Response}
    (hstart : (start s.recorded store.recorded c).run ⟨world, []⟩ = (.ok t₀, w₀))
    (hrun : (t₀.run s.recorded store.recorded requests).run w₀ = ((answers, t), w₁)) :
    t.ring.keys.head? = w₁.ledger.persisted := by
  have hstarted := (KeyRing.persisted_of_seeding rfl (seeding_of_start hstart)).2 _ rfl
  have hkept := run_induction s.recorded store.recorded (P := KeyRing.Persisted)
    (fun _ _ _ _ _ _ _ h step => h.step step) (fun _ _ h => h) requests hstarted
  rw [hrun] at hkept
  exact hkept

end

end TokenAuthenticator

theorem KeyStore.erases_activate {σ : Type} (store : KeyStore (StateM σ)) (k : SigningKey) :
    Recorded.Erases (store.recorded.activate k) (store.activate k) :=
  .act _ _

/-! ### The key file -/

namespace KeyFile

variable {f : KeyFile} {k : SigningKey} {m m' : Machine} {dir : Place}

/-- An activation that fails leaves what stands in the place of the key file. -/
theorem node?_of_activate_error (hsound : m.files.Sound) (hhere : m.files.HasFolder m.here)
    (hway : f.Apart m.files m.here) {e : AuthError}
    (h : (f.activate Machine.fileSystem k).run m = (.error e, m'))
    (hdir : m.files.folderOf m.here f.folder = .ok dir) :
    m'.files.node? (place dir) = m.files.node? (place dir) := by
  cases activation_of_run hsound hhere hway h with
  | unwritten why => rfl
  | unreplaced leads standing draft =>
      cases leads.symm.trans hdir
      rw [run_activate] at h
      cases hwrite : m.files.write m.here f.draftPath FileTree.privateMode (document k) with
      | error why =>
          rw [hwrite] at h
          cases h
      | ok t =>
          -- The document went to a place without a folder, so not to that of the key file.
          obtain ⟨folder, name, -, hfree, hdraft, -⟩ :=
            FileTree.exists_place_of_write hsound hhere hwrite
          cases hdraft.symm.trans draft
          rw [FileTree.place_under, FileTree.node?_put _ FileTree.place_ne_nil, if_neg]
          intro hplace
          rw [hplace] at standing
          exact hfree.not_hasFolder ⟨_, standing⟩

theorem replaced_of_activate (hsound : m.files.Sound) (hhere : m.files.HasFolder m.here)
    (hway : f.Apart m.files m.here)
    (h : (f.activate Machine.fileSystem k).run m = (.ok (), m')) :
    ∃ dir, m.files.folderOf m.here f.folder = .ok dir ∧
      ((∀ target, m.files.node? (draftPlace dir) ≠ some (.link target)) →
        Replaced dir k m.files m'.files) := by
  cases activation_of_run hsound hhere hway h with
  | replaced leads plain =>
      exact ⟨_, leads, fun _ => replaced_filed hsound plain.not_hasFolder k⟩
  | linked leads link _ _ _ => exact ⟨_, leads, fun hno => absurd link (hno _)⟩

end KeyFile

namespace TokenAuthenticator

open KeyFile

/-- An authenticator with any store has served any requests when the issue of a token is
refused. Its lifetime is as before, and its ring and the key that is kept are so too, if there
was a key, or if the store did not keep the one that was made first. Otherwise the ring was empty
and nothing was kept, and now the ring has the new key alone, and it is kept; the refusal was for
the principal or for the instant of expiry. With a key file it is the file that changes or stays
as it was: it stays unless the new key was kept, and then it is replaced by that of the key. -/
theorem trace_of_refused_issue :
    (∀ (σ : Type) (s : Surroundings (StateM σ)) (store : KeyStore (StateM σ))
      (c : CheckedSettings) (world : σ) (t₀ t t' : TokenAuthenticator) (w₀ w w' : Recorded σ)
      (requests : List Request) (answers : List Response) (principal : String) (e : AuthError),
      (start s.recorded store.recorded c).run ⟨world, []⟩ = (.ok t₀, w₀) →
      (t₀.run s.recorded store.recorded requests).run w₀ = ((answers, t), w) →
      (t.issue s.recorded store.recorded principal).run w = ((.error e, t'), w') →
      (t.issue s store principal).run w.world = ((.error e, t'), w'.world) ∧
      t'.lifetime = t.lifetime ∧
      (t.ring.keys ≠ [] ∧ t' = t ∧ w'.ledger.persisted = w.ledger.persisted ∨
        t.ring.keys = [] ∧ (∃ k w₁, (store.activate k).run w₁ = (.error e, w'.world)) ∧
          t' = t ∧ w'.ledger.persisted = w.ledger.persisted ∨
        t.ring.keys = [] ∧ w.ledger.persisted = none ∧
          (∃ k, t'.ring.keys = [k] ∧ w'.ledger.persisted = some k) ∧ IsLate e)) ∧
    ∀ (s : Surroundings Machine.Act) (f : KeyFile) (t t' : TokenAuthenticator) (m m' : Machine)
      (principal : String) (e : AuthError), s.LeavesFiles → m.files.Sound →
      m.files.HasFolder m.here → f.Apart m.files m.here →
      (t.issue s (f.store s Machine.fileSystem) principal).run m = ((.error e, t'), m') →
      t'.lifetime = t.lifetime ∧
      (t.ring.keys ≠ [] ∧ t' = t ∧ m'.files = m.files ∨
        t.ring.keys = [] ∧ t' = t ∧ (∀ dir, m.files.folderOf m.here f.folder = .ok dir →
          m'.files.node? (place dir) = m.files.node? (place dir)) ∨
        t.ring.keys = [] ∧ (∃ k dir, t'.ring.keys = [k] ∧
          m.files.folderOf m.here f.folder = .ok dir ∧
          ((∀ target, m.files.node? (draftPlace dir) ≠ some (.link target)) →
            Replaced dir k m.files m'.files)) ∧ IsLate e) := by
  constructor
  · intro σ s store c world t₀ t t' w₀ w w' requests answers principal e hstart hrun hissue
    have hpersisted := persisted_of_run hstart hrun
    have herases := erases_issue s store t principal w
    rw [hissue] at herases
    refine ⟨herases.symm, ?_⟩
    cases refusal_of_issue hissue with
    | withKey keys refused => exact ⟨rfl, Or.inl ⟨by simp [keys], rfl, rfl⟩⟩
    | @unkept k w₁ _ none made failed =>
        have hfailed := KeyStore.erases_activate store k w₁
        rw [failed] at hfailed
        have hledger := KeyRing.ledger_eq_of_refused (.first none made) failed
        exact ⟨rfl, Or.inr (Or.inl ⟨none, ⟨k, w₁.world, hfailed.symm⟩, rfl,
          congrArg Ledger.persisted hledger⟩)⟩
    | @madeFirst k w₁ w₂ none made kept refused =>
        refine ⟨rfl, Or.inr (Or.inr ⟨none, ?_, ⟨k, KeyRing.keys_install_of_nil none k, ?_⟩,
          isLate_of_freshKey made refused⟩)⟩
        · rw [← hpersisted, none]
          rfl
        · change w₂.ledger.persisted = some k
          rw [KeyStore.ledger_activate kept]
          rfl
  · intro s f t t' m m' principal e hs hsound hhere hway hissue
    cases refusal_of_issue hissue with
    | withKey keys refused => exact ⟨rfl, Or.inl ⟨by simp [keys], rfl, (hs.1 m).1⟩⟩
    | @unkept k m₁ m₂ none made failed =>
        obtain ⟨hfiles, hhere₁⟩ := files_eq_of_offer hs (.first none made)
        refine ⟨rfl, Or.inr (Or.inl ⟨none, rfl, fun dir hdir => ?_⟩)⟩
        rw [← hfiles] at hsound hhere hway hdir ⊢
        rw [← hhere₁] at hhere hway hdir
        exact node?_of_activate_error hsound hhere hway failed hdir
    | @madeFirst k m₁ m₂ none made kept refused =>
        obtain ⟨hfiles, hhere₁⟩ := files_eq_of_offer hs (.first none made)
        rw [← hfiles] at hsound hhere hway ⊢
        rw [← hhere₁] at hhere hway ⊢
        obtain ⟨dir, hdir, hreplaced⟩ := replaced_of_activate hsound hhere hway kept
        refine ⟨rfl, Or.inr (Or.inr ⟨none, ⟨k, dir, KeyRing.keys_install_of_nil none k, hdir, ?_⟩,
          isLate_of_freshKey made refused⟩)⟩
        rw [(hs.1 m₂).1]
        exact hreplaced

/-! ### After a revocation -/

/-- A key is made first for a principal that turns out to be empty. -/
theorem issue_of_no_keys {σ : Type} {s : Surroundings (StateM σ)} {store : KeyStore (StateM σ)}
    {t : TokenAuthenticator} {k : SigningKey} {w w₁ w₂ : σ} (none : t.ring.keys = [])
    (made : (KeyRing.freshKey s t.ring.algorithm).run w = (.ok k, w₁))
    (kept : (store.activate k).run w₁ = (.ok (), w₂)) :
    (t.issue s store "").run w =
      ((.error (.invalidRequest .emptyPrincipal), ⟨t.ring.install k, t.lifetime⟩),
        (s.now.run w₂).2) := by
  have hcurrent : (t.ring.current s store).run w = ((.ok k, t.ring.install k), w₂) := by
    rw [KeyRing.current, none]
    exact KeyRing.run_rotate_eq_ok made kept
  rw [run_issue, hcurrent]
  rfl

/-- An authenticator whose keys were revoked, in surroundings where nothing happens, and a
refused issue. -/
theorem exists_refused_still :
    ∃ (k : SigningKey) (t₀ t t' : TokenAuthenticator) (w₀ w w' : Recorded Unit),
      (start Surroundings.still.recorded KeyStore.inMemory.recorded singleKey).run ⟨(), []⟩ =
        (.ok t₀, w₀) ∧
      (t₀.run Surroundings.still.recorded KeyStore.inMemory.recorded [.revoke]).run w₀ =
        (([.revoked (.ok ())], t), w) ∧
      (t.issue Surroundings.still.recorded KeyStore.inMemory.recorded "").run w =
        ((.error (.invalidRequest .emptyPrincipal), t'), w') ∧
      t.ring.keys = [] ∧ t'.ring.keys = [k] ∧
      w.ledger.persisted = none ∧ w'.ledger.persisted = some k := by
  obtain ⟨k, octets, -, hfresh⟩ := exists_fresh_still .sha256
  obtain ⟨t, halgorithm, hstart⟩ : ∃ t : TokenAuthenticator,
      t.ring.algorithm = singleKey.algorithm ∧
      (start Surroundings.still.recorded KeyStore.inMemory.recorded singleKey).run ⟨(), []⟩ =
        (.ok t, ⟨(), [.activated k, .loaded none]⟩) :=
    ⟨_, rfl, start_of_seeded (KeyRing.run_seeded_eq_ok rfl rfl (hfresh _) rfl)⟩
  have hrevoke : (t.run Surroundings.still.recorded KeyStore.inMemory.recorded [.revoke]).run
      ⟨(), [.activated k, .loaded none]⟩ =
        (([.revoked (.ok ())], ⟨t.ring.cleared, t.lifetime⟩),
          ⟨(), [.discarded, .activated k, .loaded none]⟩) := rfl
  have hmade : (KeyRing.freshKey Surroundings.still.recorded t.ring.cleared.algorithm).run
      ⟨(), [.discarded, .activated k, .loaded none]⟩ =
        (.ok k, ⟨(), [.discarded, .activated k, .loaded none]⟩) := by
    rw [KeyRing.cleared, halgorithm]
    exact hfresh _
  have hkept : (KeyStore.inMemory.recorded.activate k).run
      (⟨(), [.discarded, .activated k, .loaded none]⟩ : Recorded Unit) =
        (.ok (), ⟨(), [.activated k, .discarded, .activated k, .loaded none]⟩) := rfl
  have hissue := issue_of_no_keys (t := ⟨t.ring.cleared, t.lifetime⟩) rfl hmade hkept
  exact ⟨k, _, _, _, _, _, _, hstart, hrevoke, hissue, rfl,
    KeyRing.keys_install_of_nil rfl k, rfl, rfl⟩

/-- Not every refused issue leaves the ring and the key that is kept as they were. -/
theorem not_unchanged_of_refused_issue :
    ¬∀ (s : Surroundings (StateM Unit)) (store : KeyStore (StateM Unit)) (c : CheckedSettings)
      (t₀ t t' : TokenAuthenticator) (w₀ w w' : Recorded Unit) (requests : List Request)
      (answers : List Response) (principal : String) (e : AuthError),
      (start s.recorded store.recorded c).run ⟨(), []⟩ = (.ok t₀, w₀) →
      (t₀.run s.recorded store.recorded requests).run w₀ = ((answers, t), w) →
      (t.issue s.recorded store.recorded principal).run w = ((.error e, t'), w') →
      t'.ring.keys = t.ring.keys ∧ w'.ledger.persisted = w.ledger.persisted ∧
        t'.lifetime = t.lifetime := by
  intro h
  obtain ⟨k, t₀, t, t', w₀, w, w', hstart, hrun, hissue, hbefore, hafter, -, -⟩ :=
    exists_refused_still
  obtain ⟨hkeys, -, -⟩ := h _ _ _ t₀ t t' w₀ w w' _ _ _ _ hstart hrun hissue
  rw [hbefore, hafter] at hkeys
  cases hkeys

/-- A principal that is empty is refused after a revocation, and the key that is made for it is
kept, in memory or in a file. -/
theorem trace_of_refused_issue_revoked :
    (∃ (k : SigningKey) (t₀ t t' : TokenAuthenticator) (w₀ w w' : Recorded Unit),
      (start Surroundings.still.recorded KeyStore.inMemory.recorded singleKey).run ⟨(), []⟩ =
        (.ok t₀, w₀) ∧
      (t₀.run Surroundings.still.recorded KeyStore.inMemory.recorded [.revoke]).run w₀ =
        (([.revoked (.ok ())], t), w) ∧
      (t.issue Surroundings.still.recorded KeyStore.inMemory.recorded "").run w =
        ((.error (.invalidRequest .emptyPrincipal), t'), w') ∧
      t'.lifetime = t.lifetime ∧ t'.ring.keys = [k] ∧ w'.ledger.persisted = some k) ∧
    ∃ (k : SigningKey) (t t' : TokenAuthenticator) (m' : Machine), t.ring.keys = [] ∧
      (t.issue Machine.surroundings folderStore "").run .withFolder =
        ((.error (.invalidRequest .emptyPrincipal), t'), m') ∧
      t'.lifetime = t.lifetime ∧ t'.ring.keys = [k] ∧
      Replaced ["keys"] k Machine.withFolder.files m'.files := by
  constructor
  · obtain ⟨k, t₀, t, t', w₀, w, w', hstart, hrun, hissue, hbefore, hafter, -, -⟩ :=
      exists_refused_still
    obtain ⟨-, hlifetime, ⟨hkeys, -⟩ | ⟨-, ⟨_, _, hfailed⟩, -⟩ | ⟨-, -, ⟨k', hk, hpersisted⟩, -⟩⟩ :=
      trace_of_refused_issue.1 Unit Surroundings.still .inMemory singleKey () t₀ t t' w₀ w w' _ _ _
        _ hstart hrun hissue
    · exact absurd hbefore hkeys
    · cases hfailed
    · exact ⟨k', t₀, t, t', w₀, w, w', hstart, hrun, hissue, hlifetime, hk, hpersisted⟩
  · obtain ⟨k, -, -, -, hfresh⟩ := exists_fresh_withFolder
    have hhome := Machine.home_withFolder
    have hmade := KeyRing.erases_freshKey Machine.surroundings singleKey.algorithm
      ⟨.withFolder, []⟩
    rw [hfresh] at hmade
    obtain ⟨t, hnone, halgorithm⟩ : ∃ t : TokenAuthenticator, t.ring.keys = [] ∧
        t.ring.algorithm = singleKey.algorithm :=
      ⟨⟨⟨singleKey.algorithm, 1, [], Nat.one_pos, Nat.zero_le _⟩, singleKey.lifetime⟩, rfl, rfl⟩
    rw [← halgorithm] at hmade
    have hkept : (folderStore.activate k).run { Machine.withFolder with drawn := 1 } =
        (.ok (), _) := hhome.run_activate (m := { Machine.withFolder with drawn := 1 }) k
    have hissue := issue_of_no_keys hnone hmade.symm hkept
    have hdir : Machine.withFolder.files.folderOf Machine.withFolder.here Machine.keyFile.folder =
        .ok ["keys"] := hhome.file.leads
    have hname : Path.IsFileName "keys" :=
      ⟨⟨by decide, by decide, by decide⟩, by decide, by decide⟩
    have hpath : Path.ofNames ["keys"] = "/keys" := by decide
    have hway : Machine.keyFile.Apart Machine.withFolder.files Machine.withFolder.here := by
      rw [Machine.keyFile, ← hpath]
      exact apart_ofNames (List.forall_mem_singleton.mpr hname) hhome.sound
        ⟨FileTree.folderMode, rfl⟩
    obtain ⟨hlifetime, ⟨hkeys, -⟩ | ⟨-, hsame, -⟩ | ⟨-, ⟨k', dir, hk, hdir', hreplaced⟩, -⟩⟩ :=
      trace_of_refused_issue.2 Machine.surroundings Machine.keyFile t _ .withFolder _ "" _
        Machine.leavesFiles_surroundings hhome.sound (FileTree.hasFolder_root _) hway hissue
    · exact absurd hnone hkeys
    · have hkeys := congrArg (fun t : TokenAuthenticator => t.ring.keys) hsame
      cases hkeys.trans hnone
    · cases hdir.symm.trans hdir'
      have hlink : ∀ target, Machine.withFolder.files.node? (draftPlace ["keys"]) ≠
          some (.link target) := by
        rintro target ⟨⟩
      exact ⟨k', t, _, _, hnone, hissue, hlifetime, hk, hreplaced hlink⟩

end TokenAuthenticator

end TokenAuthority
