import TokenAuthority.Proofs.KeyFile.Store
import TokenAuthority.Proofs.KeyRing.OwnKeys

/-!
# A ring and its key file

While the key file has its home, no operation of a ring fails to keep its key there: the file
holds the newest key of the ring after every operation, and is gone when the ring is empty.
So a second ring begins with that key, or with a fresh one if there is none for its algorithm.
-/

namespace TokenAuthority

namespace KeyRing

section

variable {σ : Type} {s : Surroundings (StateM σ)} {store : KeyStore (StateM σ)} {r : KeyRing}
  {w : σ}

theorem run_seeded_of_load {a : Algorithm} {capacity : Nat} (blank : empty a capacity = .ok r)
    {k : SigningKey} {w₁ : σ} (found : (store.load a).run w = (.ok (some k), w₁)) :
    (seeded s store a capacity).run w = (.ok (r.install k), w₁) := by
  rw [seeded, blank]
  dsimp only
  rw [run_bind_of_run_eq found]
  rfl

end

end KeyRing

namespace KeyFile

variable {s : Surroundings Machine.Act} {f : KeyFile} {m m' : Machine} {dir : Place}
  {r r' : KeyRing}

theorem freshKey_leavesFiles (hs : s.LeavesFiles) (a : Algorithm) (m : Machine) :
    ((KeyRing.freshKey s a).run m).2.files = m.files ∧
      ((KeyRing.freshKey s a).run m).2.here = m.here := by
  rw [KeyRing.run_freshKey]
  obtain ⟨hnow, hnow'⟩ := hs.1 m
  obtain ⟨hdraw, hdraw'⟩ := hs.2 SigningKey.randomSize (s.now.run m).2
  exact ⟨hdraw.trans hnow, hdraw'.trans hnow'⟩

theorem files_eq_of_offer (hs : s.LeavesFiles) {op : KeyRing.Operation} {k : SigningKey}
    (offer : KeyRing.Offers s r m op k m') : m'.files = m.files ∧ m'.here = m.here := by
  cases offer with
  | given own => exact ⟨rfl, rfl⟩
  | fresh made =>
      have hfiles := freshKey_leavesFiles hs r.algorithm m
      rw [made] at hfiles
      exact hfiles
  | first _ made =>
      have hfiles := freshKey_leavesFiles hs r.algorithm m
      rw [made] at hfiles
      exact hfiles

/-- The key file holds the newest key of a ring of keys for an algorithm. -/
structure Filed (f : KeyFile) (dir : Place) (a : Algorithm) (r : KeyRing) (m : Machine) : Prop where
  holds : Holds f m.files m.here dir r.keys.head?
  homogeneous : r.Homogeneous
  algorithm_eq : r.algorithm = a

/-- A key on offer can always be kept. -/
theorem Holds.activate (hs : s.LeavesFiles) {k? : Option SigningKey}
    (h : Holds f m.files m.here dir k?) {op : KeyRing.Operation} {k : SigningKey} {m₁ : Machine}
    (offer : KeyRing.Offers s r m op k m₁) {answer : Except AuthError Unit}
    (hrun : (f.activate Machine.fileSystem k).run m₁ = (answer, m')) :
    answer = .ok () ∧ Holds f m'.files m'.here dir (some k) := by
  obtain ⟨hfiles, hhere⟩ := files_eq_of_offer hs offer
  have hhome := h.home
  rw [← hfiles, ← hhere] at hhome
  rw [hhome.run_activate] at hrun
  cases hrun
  exact ⟨rfl, hhome.holds_filed k⟩

/-- What an operation keeps: the key file holds the newest key, and none if there is none. -/
theorem Holds.step (hs : s.LeavesFiles) (h : Holds f m.files m.here dir r.keys.head?)
    {op : KeyRing.Operation} {answer : Except AuthError KeyRing.Answer}
    (hstep : KeyRing.Step s (f.store s Machine.fileSystem) r m op answer r' m') :
    Holds f m'.files m'.here dir r'.keys.head? := by
  cases hstep with
  | newest _ => exact h
  | found _ => exact h
  | counted => exact h
  | foreign _ => exact h
  | kept offer activated => exact (h.activate hs offer activated).2
  | refused offer failed => exact nomatch (h.activate hs offer failed).1
  | cleared discarded =>
      obtain ⟨t, hrun, hnone⟩ := h.run_discard
      cases hrun.symm.trans discarded
      exact hnone
  | uncleared failed =>
      obtain ⟨t, hrun, -⟩ := h.run_discard
      cases hrun.symm.trans failed

theorem Filed.step (hs : s.LeavesFiles) {a : Algorithm} (h : Filed f dir a r m)
    {op : KeyRing.Operation} {answer : Except AuthError KeyRing.Answer}
    (hstep : KeyRing.Step s (f.store s Machine.fileSystem) r m op answer r' m') :
    Filed f dir a r' m' :=
  ⟨h.holds.step hs hstep, h.homogeneous.step hstep, hstep.algorithm_eq.trans h.algorithm_eq⟩

theorem Filed.of_files_eq {a : Algorithm} (h : Filed f dir a r m) (hfiles : m'.files = m.files)
    (hhere : m'.here = m.here) : Filed f dir a r m' := by
  refine ⟨?_, h.homogeneous, h.algorithm_eq⟩
  rw [hfiles, hhere]
  exact h.holds

theorem exists_freshKey (hs : s.LeavesFiles) (a : Algorithm) (m : Machine) :
    ∃ k m', (KeyRing.freshKey s a).run m = (.ok k, m') ∧ m'.files = m.files ∧
      m'.here = m.here := by
  have hfiles := freshKey_leavesFiles hs a m
  cases hfresh : (KeyRing.freshKey s a).run m with
  | mk answer m' =>
    rw [hfresh] at hfiles
    cases answer with
    | error e => exact absurd hfresh (KeyRing.freshKey_ne_error a e)
    | ok k => exact ⟨k, m', rfl, hfiles⟩

/-- A ring for an algorithm can always be made. Its key is the one of the key file if that is
one for the algorithm, and else a fresh one that the key file holds from then on. -/
theorem Holds.exists_seeded (hs : s.LeavesFiles) {k? : Option SigningKey}
    (h : Holds f m.files m.here dir k?)
    (hkey : ∀ k ∈ k?, k.material.ReadsBack ∧ k.created.OnClock) (a : Algorithm) {capacity : Nat}
    (hcapacity : 0 < capacity) :
    ∃ r k m', (KeyRing.seeded s (f.store s Machine.fileSystem) a capacity).run m = (.ok r, m') ∧
      r.keys = [k] ∧ k.algorithm = a ∧ Holds f m'.files m'.here dir (some k) ∧
      match k?.filter fun k => k.algorithm = a with
      | some k' => k = k' ∧ m'.files = m.files
      | none => ∃ m₁ m₂, (KeyRing.freshKey s a).run m₁ = (.ok k, m₂) := by
  have hblank := KeyRing.empty_of_pos a hcapacity
  obtain ⟨m₁, hload, hfiles, hhere⟩ := h.run_load hs hkey a
  have h₁ := h
  rw [← hfiles, ← hhere] at h₁
  cases hfound : k?.filter fun k => k.algorithm = a with
  | some k =>
      rw [hfound] at hload
      obtain ⟨rfl, ha⟩ := Option.filter_eq_some_iff.mp hfound
      exact ⟨_, k, m₁, KeyRing.run_seeded_of_load hblank hload,
        KeyRing.keys_install_of_nil rfl k, of_decide_eq_true ha, h₁, rfl, hfiles⟩
  | none =>
      rw [hfound] at hload
      obtain ⟨k, m₂, hfresh, hfiles₂, hhere₂⟩ := exists_freshKey hs a m₁
      have hhome := h₁.home
      rw [← hfiles₂, ← hhere₂] at hhome
      exact ⟨_, k, _, KeyRing.run_seeded_eq_ok hblank hload hfresh (hhome.run_activate k),
        KeyRing.keys_install_of_nil rfl k, (KeyRing.of_freshKey hfresh).1, hhome.holds_filed k,
        m₁, m₂, hfresh⟩

/-- Where a first ring can be made, the key file has its home, and holds the key of the ring. -/
theorem exists_filed_of_seeding (hs : s.LeavesFiles) (hsound : m.files.Sound)
    (hhere : m.files.HasFolder m.here)
    (hlink : ∀ path ∈ [f.path, f.draftPath], m.files.Unlinked m.here path)
    (habsent : m.files.isPresent m.here f.path = false) {a : Algorithm} {capacity : Nat}
    (h : KeyRing.Seeding s (f.store s Machine.fileSystem) a capacity m (.ok r) m') :
    ∃ dir, Filed f dir a r m' := by
  have hload := run_load_of_absent s habsent a
  cases h with
  | loaded _ found => cases hload.symm.trans found
  | @rotated r₀ _ k m₁ _ blank absent step =>
      cases hload.symm.trans absent
      obtain ⟨halgorithm, -, hkeys⟩ := KeyRing.of_empty_eq_ok blank
      obtain ⟨dir, hhome⟩ : ∃ dir, Home f m.files m.here dir := by
        cases step with
        | kept offer activated =>
            obtain ⟨hfiles₁, hhere₁⟩ := files_eq_of_offer hs offer
            rw [← hfiles₁, ← hhere₁] at hhere hlink ⊢
            rw [← hfiles₁] at hsound
            exact exists_home_of_activate hsound hhere hlink activated
      have hnone : m.files.node? (place dir) = none := by
        obtain hnode | ⟨mode, content, hnode⟩ := hhome.file.node?_cases
        · exact hnode
        · have hpresent := hhome.file.isPresent_of_file hnode
          cases habsent.symm.trans hpresent
      have hholds : Holds f m.files m.here dir r₀.keys.head? := by
        rw [hkeys]
        exact ⟨hhome, hnone⟩
      exact ⟨dir, (Filed.mk hholds (KeyRing.homogeneous_of_empty blank) halgorithm).step hs step⟩

end KeyFile

end TokenAuthority
